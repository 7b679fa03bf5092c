import XgmacDriver.Word

/-! # The tick counter

The scheduler's tick interrupt counts ticks of a fixed frequency. A time in milliseconds becomes
ticks rounded up, so that a delay other than zero is never zero ticks, and ticks become milliseconds
rounded down. The counter is the clock of the code that runs before the scheduler does.
-/

namespace XgmacDriver

structure TickCounter where
  ticks : UInt64
  /-- Ticks a second, never zero. -/
  frequency : UInt64
deriving DecidableEq

namespace TickCounter

/-- A counter at zero; a frequency of zero is taken as one. -/
def start (frequency : UInt64) : TickCounter := ⟨0, max frequency 1⟩

def tick (c : TickCounter) (n : UInt64) : TickCounter := { c with ticks := c.ticks + n }

def ticksOfMillis (c : TickCounter) (ms : UInt64) : Except Halt UInt64 := do
  let product ← Word.mul ms.toNat c.frequency.toNat
  let rounded ← Word.add product 999
  return (rounded / 1000).toUInt64

def millisOfTicks (c : TickCounter) (ticks : UInt64) : Except Halt UInt64 := do
  let product ← Word.mul ticks.toNat 1000
  return (product / c.frequency.toNat).toUInt64

def now (c : TickCounter) : Except Halt UInt64 := c.millisOfTicks c.ticks

def elapsedSince (c : TickCounter) (start : UInt64) : Except Halt UInt64 := do
  return (← c.now) - start

/-- The counter when a delay of `ms` milliseconds ends: at the first tick not before its target. -/
def sleep (c : TickCounter) (ms : UInt64) : Except Halt TickCounter := do
  let wanted ← c.ticksOfMillis ms
  let target ← Word.add c.ticks.toNat wanted.toNat
  return { c with ticks := target.toUInt64 }

end TickCounter

end XgmacDriver
