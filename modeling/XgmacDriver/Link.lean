import XgmacDriver.Machine.Basic
import XgmacDriver.Time.PollTimer

/-! # The link

The value of the PHY status register that was read last is latched. Bring-up polls the register for
a bounded time and latches every value. The deferred task checks it now and then: if the link bit
has changed it reprograms the MAC and reads again, and latches the second value only if the change
is still there.
-/

namespace XgmacDriver.Driver

variable {σ : Type}

def latchLink (status : UInt32) : Driver σ Unit := modifyInterface (·.latch status)

variable (c : Collaborators σ)

def readLinkStatus (phy : UInt8) : Driver σ UInt32 := readPhy c phy phyStatusRegister

/-- At most `fuel` polls of the PHY since `start`. -/
def pollLink (phy : UInt8) (maxWait start : UInt64) : (fuel : Nat) → Driver σ Bool
  | 0 => return false
  | fuel + 1 => do
      if maxWait < (← get).clock.elapsedSince start then
        report (.linkStillDown maxWait)
        return false
      else
        let status ← readLinkStatus c phy
        latchLink status
        if linkUp status then
          return true
        else
          sleep linkPollStep
          pollLink phy maxWait start fuel

/-- Poll the PHY until the link is up or more than `maxWait` milliseconds have passed. The readings
of a 64-bit clock whose sleeps take a fixed time repeat after `UInt64.size` of them, so that many
polls decide every wait that ends. -/
def checkLink (phy : UInt8) (maxWait : UInt64) : Driver σ Bool := do
  pollLink c phy maxWait (← get).clock.now UInt64.size

def linkDiffers (status : UInt32) : Driver σ Bool :=
  return linkUp status != (← interface).linkIsUp

/-- Check the link against the latch; the new state if it has changed. -/
def recheckLink (phy : PhyRecord) : Driver σ (Option Bool) := do
  if !(← linkDiffers (← readLinkStatus c phy.address)) then
    return none
  else
    if let .error status ← command c (.updateSpeed phy) then
      report (.speedUpdateFailed status)
    let status ← readLinkStatus c phy.address
    if !(← linkDiffers status) then
      return none
    else
      latchLink status
      report (.linkNow (linkUp status))
      return some (linkUp status)

end XgmacDriver.Driver
