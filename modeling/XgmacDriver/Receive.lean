import XgmacDriver.Machine.Basic

/-! # Reception

The completed receive descriptors are drained in order, and each is given a buffer again before the
next one is read. A frame that is forwarded reaches the stack in a buffer of the stack: the frame is
copied into a fresh one, or the buffer that it was received into is handed up and the fresh one
takes its place in the ring. A dropped frame leaves its buffer in the ring.
-/

namespace XgmacDriver.Driver

/-- What became of one received frame, and the buffer that its descriptor is given. -/
inductive Received
  | forward (frame : RxFrame) (refill : Addr)
  | drop (refill : Addr)

variable {σ : Type} (c : Collaborators σ)

def isFiltered (bytes : List UInt8) : Driver σ Bool := do
  if (← config).filterFrames then
    return (← considerFrame c bytes) = .release
  else
    return false

/-- A frame of `length` bytes at `buf` becomes a frame in a buffer of the stack, given a fresh
buffer and its payload. The frame is delivered without its checksum. -/
def forwardFrame (buf : Addr) (length : Nat) (replacement : NetworkBuffer) (fresh : Addr) :
    Driver σ Received := do
  let finish (buffer : NetworkBuffer) (refill : Addr) : Driver σ Received := do
    let endpoint ← matchEndpoint c (← readMemory buf length)
    let buffer := { buffer with length := min length buffer.capacity - ethernetCrcLength }
    return .forward { buffer, interface := (← interface).index, endpoint } refill
  if (← config).zeroCopyRx then
    match ← lookup c buf with
    | some owner => finish owner fresh
    | none =>
        report (.receivedBufferWithoutOwner buf)
        releaseBuffer c replacement.index
        return .drop buf
  else
    copyMemory buf fresh (min length replacement.capacity)
    finish replacement buf

def receiveFrame (rx : RxCompletion) (buf : Addr) : Driver σ Received := do
  if rx.hasError then
    report (.erroredFrame rx.status)
    return .drop buf
  else
    let length := min rx.size maxPacketSize
    if ← isFiltered c (← readMemory buf length) then
      return .drop buf
    else
      match ← getBuffer c maxPacketSize 0 with
      | none =>
          report .noBufferForFrame
          return .drop buf
      | some replacement =>
          match replacement.payload with
          | none =>
              releaseBuffer c replacement.index
              return .drop buf
          | some fresh => forwardFrame c buf length replacement fresh

/-- Offer frames to the stack as one event; how many it took. Frames that it refuses are released.
-/
def passToStack (frames : List RxFrame) : Driver σ Nat := do
  if frames.isEmpty then
    return 0
  else if ← sendRxEvent c frames then
    return frames.length
  else
    report (.eventQueueFull frames.length)
    frames.forM fun frame => releaseBuffer c frame.buffer.index
    return 0

/-- Deliver a frame on its own, or add it to the batch and deliver the batch when it was full
already. The batch afterwards, and how many frames the stack took. -/
def deliver (batch : List RxFrame) (frame : RxFrame) : Driver σ (List RxFrame × Nat) := do
  if !(← config).linkedRx then
    return (batch, ← passToStack c [frame])
  else if batch.length < rxBatchCapacity then
    return (batch ++ [frame], 0)
  else
    return ([frame], ← passToStack c batch)

/-- Hand a buffer that the ring refused back to its owner. -/
def recycle (a : Addr) : Driver σ Unit := do
  if (← config).zeroCopyRx then
    match ← lookup c a with
    | some buffer => releaseBuffer c buffer.index
    | none => report (.receivedBufferWithoutOwner a)
  else if let .error e ← releaseSlot c .rx a then
    report (.rxSlotNotReturned a e)

/-- Drain the completed descriptors, of which `completed` are still in the engine's queue. The batch
that is left to deliver, and how many frames the stack took on top of `delivered` earlier ones. A
missing buffer ends the drain, and so does a refused refill. -/
def drain (batch : List RxFrame) (delivered : Nat) :
    (completed : List RxCompletion) → Driver σ (List RxFrame × Nat)
  | [] => do
      let _ ← nextReceived
      return (batch, delivered)
  | rx :: rest => do
      let _ ← nextReceived
      match rx.buf with
      | none =>
          report .descriptorWithoutBuffer
          return (batch, delivered)
      | some buf =>
          let (refill, batch, taken) ← do
            match ← receiveFrame c rx buf with
            | .forward frame refill => pure (refill, ← deliver c batch frame)
            | .drop refill => pure (refill, batch, 0)
          match ← command c (.refill refill) with
          | .ok () => drain batch (delivered + taken) rest
          | .error status =>
              report (.refillRefused status)
              recycle c refill
              return (batch, delivered + taken)

def processReceived : Driver σ Nat := do
  let m ← get
  if !m.interface.engineOpen then
    return 0
  else
    let (batch, delivered) ← drain c [] 0 m.engine.completed
    return delivered + (← passToStack c batch)

end XgmacDriver.Driver
