/-! # Poll timer

A timer that has run out once the time since its start reaches its interval, across a wrap of the
64-bit clock as well.
-/

namespace XgmacDriver

structure PollTimer where
  start : UInt64
  interval : UInt64
deriving DecidableEq

namespace PollTimer

def expired (t : PollTimer) (now : UInt64) : Bool := t.interval ≤ now - t.start

theorem expired_iff {t : PollTimer} {now : UInt64} :
    t.expired now = true ↔ t.interval ≤ now - t.start := decide_eq_true_iff

end PollTimer

end XgmacDriver
