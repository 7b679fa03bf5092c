import XgmacDriver.Machine.Basic

/-! # Attempts

An attempt is a run of steps that ends early at the first failure. What it did before it failed
stays done.
-/

namespace XgmacDriver

abbrev Attempt (σ : Type) := ExceptT Failure (Driver σ)

namespace Attempt

variable {σ α : Type}

def always (step : Driver σ α) : Attempt σ α := ExceptT.lift step

def fail (e : DriverError) : Attempt σ α := throw (.error e)

def halt (h : Halt) : Attempt σ α := throw (.halt h)

/-- A step whose own failure ends the attempt. -/
def orFail (step : Driver σ (Except DriverError α)) : Attempt σ α := do
  match ← always step with
  | .ok a => return a
  | .error e => fail e

/-- A command whose refusal ends the attempt. -/
def command (c : Collaborators σ) (k : Command) : Attempt σ Unit := do
  match ← always (Driver.command c k) with
  | .ok () => return
  | .error status => fail (.engine k.operation status)

end Attempt

end XgmacDriver
