/-! # The driver's clock

Time is read in milliseconds from a 64-bit counter that wraps, so the time elapsed since an earlier
reading is a wrapping difference. A sleep asked for `ms` milliseconds takes `ms + extra` of them,
and the clock counts the sleeps it has served.
-/

namespace XgmacDriver

structure Clock where
  now : UInt64
  /-- What every sleep takes beyond the time that was asked for. -/
  extra : UInt64
  sleeps : Nat
deriving DecidableEq

namespace Clock

def startingAt (now : UInt64) (extra : UInt64) : Clock := ⟨now, extra, 0⟩

def elapsedSince (c : Clock) (start : UInt64) : UInt64 := c.now - start

def advance (c : Clock) (ms : UInt64) : Clock := { c with now := c.now + ms }

def sleep (c : Clock) (ms : UInt64) : Clock :=
  { c with now := c.now + (ms + c.extra), sleeps := c.sleeps + 1 }

@[simp] theorem now_sleep (c : Clock) (ms : UInt64) :
    (c.sleep ms).now = c.now + (ms + c.extra) := rfl

@[simp] theorem sleeps_sleep (c : Clock) (ms : UInt64) :
    (c.sleep ms).sleeps = c.sleeps + 1 := rfl

end Clock

end XgmacDriver
