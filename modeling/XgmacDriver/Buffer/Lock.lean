import XgmacDriver.Time.Clock

/-! # The pool lock

A pool is changed only under its lock, and a caller waits a bounded time for it: it tries, gives up
once more than the timeout has passed, and otherwise sleeps one millisecond and tries again. Whoever
holds the lock meanwhile is described by when it lets go.
-/

namespace XgmacDriver

inductive Lock
  | free
  /-- Held until the clock has served this many sleeps. -/
  | untilSleep (n : Nat)
  | forever
deriving DecidableEq

namespace Lock

/-- The lock is let go at the end of the `n`-th sleep from now, or never. -/
def heldFor (clock : Clock) : Option Nat → Lock
  | some n => untilSleep (clock.sleeps + n)
  | none => forever

def isHeld (l : Lock) (clock : Clock) : Bool :=
  match l with
  | free => false
  | untilSleep n => clock.sleeps < n
  | forever => true

def timeout : UInt64 := 1000

/-- At most `fuel` tries for the lock since `start`: whether it was had, and the clock then. -/
def await (l : Lock) (start : UInt64) : (fuel : Nat) → Clock → Bool × Clock
  | 0, clock => (false, clock)
  | fuel + 1, clock =>
      if !l.isHeld clock then (true, clock)
      else if timeout < clock.elapsedSince start then (false, clock)
      else l.await start fuel (clock.sleep 1)

/-- The bounded wait for the lock. The readings of a 64-bit clock whose sleeps take a fixed time
repeat after `UInt64.size` of them, so that many tries decide every wait that ends. -/
def obtain (l : Lock) (clock : Clock) : Bool × Clock := l.await clock.now UInt64.size clock

theorem await_of_not_isHeld {l : Lock} {clock : Clock} (h : l.isHeld clock = false)
    (start : UInt64) (fuel : Nat) : l.await start (fuel + 1) clock = (true, clock) := by
  simp [await, h]

@[simp] theorem obtain_free (clock : Clock) : free.obtain clock = (true, clock) :=
  await_of_not_isHeld rfl _ _

end Lock

end XgmacDriver
