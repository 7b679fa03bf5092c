import XgmacDriver.Time.TickCounter

/-! # Sessions with the tick counter -/

namespace XgmacDriver.Bench

inductive TickStep
  | start (frequency : UInt64)
  | tick (n : UInt64)
  | ticksOfMillis (ms : UInt64)
  | millisOfTicks (ticks : UInt64)
  | now
  | elapsedSince (start : UInt64)
  | sleep (ms : UInt64)

inductive TickAnswer
  | nothing
  | value (n : UInt64)
  /-- A delay that was at least as long as was asked for. -/
  | slept
  | halted (h : Halt)

namespace TickSession

def value : Except Halt UInt64 → TickAnswer
  | .ok n => .value n
  | .error h => .halted h

def step (c : TickCounter) : TickStep → TickAnswer × TickCounter
  | .start frequency => (.nothing, .start frequency)
  | .tick n => (.nothing, c.tick n)
  | .ticksOfMillis ms => (value (c.ticksOfMillis ms), c)
  | .millisOfTicks ticks => (value (c.millisOfTicks ticks), c)
  | .now => (value c.now, c)
  | .elapsedSince start => (value (c.elapsedSince start), c)
  | .sleep ms =>
      match c.sleep ms with
      | .ok c => (.slept, c)
      | .error h => (.halted h, c)

def run (c : TickCounter) : List TickStep → List (TickAnswer × TickCounter)
  | [] => []
  | s :: rest =>
      let (answer, c) := step c s
      (answer, c) :: run c rest

end TickSession

end XgmacDriver.Bench
