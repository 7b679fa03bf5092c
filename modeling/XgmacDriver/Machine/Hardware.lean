import XgmacDriver.Machine.Basic

/-! # What the hardware does on its own

A received frame lands in the buffer that was posted first, and a frame that was submitted may
complete. Neither involves the driver, which learns of them by an interrupt.
-/

namespace XgmacDriver.Driver

variable {σ : Type}

def takePosted : Driver σ (Option Addr) := do
  match (← get).engine.posted with
  | [] => return none
  | a :: posted =>
      modifyEngine fun e => { e with posted }
      return some a

def takeOutstanding : Driver σ (Option Addr) := do
  match (← get).engine.outstanding with
  | [] => return none
  | a :: outstanding =>
      modifyEngine fun e => { e with outstanding }
      return some a

/-- A frame lands in the oldest posted buffer, where `fill` writes it. -/
def completeReceive (fill : Addr → Memory → Memory) (size : Nat) (status : UInt32) :
    Driver σ (Option Addr) := do
  match ← takePosted with
  | none => return none
  | some a =>
      modify fun m => { m with memory := fill a m.memory }
      arrive (.received { buf := some a, size, status })
      return some a

def completeTransmit : Driver σ (Option Addr) := do
  match ← takeOutstanding with
  | none => return none
  | some a =>
      arrive (.transmitted (.ok (some a)))
      return some a

end XgmacDriver.Driver
