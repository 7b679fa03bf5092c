import XgmacDriver.Link
import XgmacDriver.Receive
import XgmacDriver.Transmit

/-! # The deferred task

Once the interface is up, its task waits for events and serves them: received frames first, then
completed transmissions, then an error. After that it checks the link if the poll timer has run out.
-/

namespace XgmacDriver

namespace Driver

variable {σ : Type}

def freshTimer : Driver σ PollTimer := do
  return ⟨(← get).clock.now, (← config).linkLowCheck⟩

variable (c : Collaborators σ)

/-- Check the link if the timer has run out by now; the timer afterwards. -/
def pollIfExpired (timer : PollTimer) : Driver σ PollTimer := do
  let now := (← get).clock.now
  if timer.expired now then
    let i ← interface
    if i.engineOpen then
      let _ ← recheckLink c i.phy
    return ⟨now, (← interface).linkCheckInterval⟩
  else
    return timer

end Driver

namespace Attempt

variable {σ : Type} (c : Collaborators σ)

/-- Report an error of the engine; the fault it stands for. A code that is not known halts the task.
-/
def reportFault (code channel : UInt8) : Attempt σ DmaFault := do
  match DmaFault.ofCode? code with
  | some fault =>
      always (Driver.report (.dmaFault fault channel))
      return fault
  | none => halt (.unknownFault code channel)

/-- One pass of the task: the events it has served, and the poll timer afterwards. -/
def serve (timer : PollTimer) : Attempt σ (EventWord × PollTimer) := do
  let events ← always (Driver.wait c taskBlockTime)
  if events.rx then
    let _ ← always (Driver.processReceived c)
  if events.tx then
    let _ ← always (Driver.reclaim c)
  if events.err then
    let _ ← reportFault events.errCode events.errChannel
  return (events, ← always (Driver.pollIfExpired c timer))

end Attempt

end XgmacDriver
