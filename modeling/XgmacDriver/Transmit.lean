import XgmacDriver.Machine.Attempt

/-! # Transmission

A frame goes out from a slot of the transmit pool, into which it is copied, or from the stack's
buffer itself. With the link down it is dropped. The buffers of completed transmissions are
reclaimed one for each completion that was counted.
-/

namespace XgmacDriver

namespace Attempt

variable {σ : Type} (c : Collaborators σ)

/-- The buffer from which a frame of `length` bytes at `payload` is sent. Without a free slot the
caller halts. -/
def stageFrame (payload : Addr) (length : Nat) : Attempt σ Addr := do
  if (← always Driver.config).zeroCopyTx then
    return payload
  else
    match ← always (Driver.acquireSlot c .tx maxPacketSize) with
    | .error e => halt (.noTransmitSlot e)
    | .ok slot =>
        always (Driver.copyMemory payload slot length)
        return slot

/-- Submit `length` bytes at `payload`; whether the engine took them. A slot that was taken for a
refused frame goes back to its pool. -/
def submit (payload : Addr) (length : Nat) : Attempt σ Bool := do
  let buf ← stageFrame c payload length
  let bytes ← always (Driver.readMemory buf length)
  match ← always (Driver.command c (.transmit { buf, size := length, release := true, bytes })) with
  | .ok () => return true
  | .error status =>
      always (Driver.report (.transmitRefused status))
      if !(← always Driver.config).zeroCopyTx then
        if let .error e ← always (Driver.releaseSlot c .tx buf) then
          always (Driver.report (.txSlotNotReturned e))
      return false

/-- Send the frame in `buffer`. The buffer goes back to the stack here if the engine refused the
frame, or if `releaseAfterSend` is set and the DMA does not own it. -/
def output (buffer : NetworkBuffer) (releaseAfterSend : Bool) : Attempt σ Unit := do
  let i ← always Driver.interface
  if !i.engineOpen then
    always (Driver.report (.outputBeforeInit i.index))
    fail .engineNotInitialized
  else match buffer.payload with
  | none =>
      always (Driver.report .outputWithoutPayload)
      fail .nullPayload
  | some payload =>
      let release ←
        if i.linkIsUp then do
          let accepted ← submit c payload (min (min buffer.length maxPacketSize) buffer.capacity)
          pure (!accepted || (releaseAfterSend && !i.config.zeroCopyTx))
        else do
          always (Driver.report (.frameDropped buffer.length))
          pure releaseAfterSend
      if release then
        always (Driver.releaseBuffer c buffer.index)

end Attempt

namespace Driver

variable {σ : Type} (c : Collaborators σ)

/-- Return the buffer of a completed transmission to its owner; whether the owner took it. -/
def returnSent (a : Addr) : Driver σ Bool := do
  if (← config).zeroCopyTx then
    match ← lookup c a with
    | some buffer =>
        releaseBuffer c buffer.index
        return true
    | none =>
        report (.sentBufferWithoutOwner a)
        return false
  else
    match ← releaseSlot c .tx a with
    | .ok () => return true
    | .error e =>
        report (.txSlotNotReleased e)
        return false

/-- Reclaim the buffers of all completions, of which `completions` are still counted, on top of
`reclaimed` earlier ones. An error of the engine ends it. -/
def reclaimCounted (reclaimed : Nat) : (completions : Nat) → Driver σ Nat
  | 0 => return reclaimed
  | completions + 1 => do
      modifyInterface (·.mapNotifier Notifier.takeCompletion)
      match ← nextTransmitted with
      | .error status =>
          report (.completionFailed status)
          return reclaimed
      | .ok none => reclaimCounted reclaimed completions
      | .ok (some a) =>
          let returned ← returnSent c a
          reclaimCounted (if returned then reclaimed + 1 else reclaimed) completions

def reclaim : Driver σ Nat := do
  let i ← interface
  if !i.engineOpen then
    return 0
  else
    reclaimCounted c 0 i.notifier.completions.count

end Driver

end XgmacDriver
