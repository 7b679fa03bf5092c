import XgmacDriver.Time.Clock

/-! # Sleeps of equal length

Whoever polls for something sleeps for the same time again and again. How much time has passed since
it began is then known after every sleep, and so is the number of sleeps after which a limit has
been exceeded, wherever the clock wraps meanwhile.
-/

namespace XgmacDriver.Clock

/-- What a sleep of `ms` milliseconds takes. -/
def stride (c : Clock) (ms : UInt64) : Nat := (ms + c.extra).toNat

def rested (c : Clock) (ms : UInt64) : Nat → Clock
  | 0 => c
  | n + 1 => (c.rested ms n).sleep ms

variable {c : Clock} {ms limit : UInt64} {i : Nat}

@[simp] theorem extra_rested (c : Clock) (ms : UInt64) (n : Nat) :
    (c.rested ms n).extra = c.extra := by
  induction n with
  | zero => rfl
  | succ n ih => exact ih

@[simp] theorem sleeps_rested (c : Clock) (ms : UInt64) (n : Nat) :
    (c.rested ms n).sleeps = c.sleeps + n := by
  induction n with
  | zero => rfl
  | succ n ih =>
      rw [rested, sleeps_sleep, ih]
      omega

theorem elapsed_rested (c : Clock) (ms : UInt64) (n : Nat) :
    ((c.rested ms n).elapsedSince c.now).toNat = n * c.stride ms % UInt64.size := by
  induction n with
  | zero => simp [rested, elapsedSince]
  | succ n ih =>
      have hstep : (c.rested ms (n + 1)).elapsedSince c.now =
          (c.rested ms n).elapsedSince c.now + (ms + c.extra) := by
        simp only [rested, elapsedSince, now_sleep, extra_rested]
        rw [UInt64.sub_eq_add_neg, UInt64.add_assoc, UInt64.add_comm (ms + c.extra),
          ← UInt64.add_assoc, ← UInt64.sub_eq_add_neg]
      rw [hstep, UInt64.toNat_add, ih, Nat.succ_mul]
      exact Nat.mod_add_mod ..

/-- The number of sleeps of `ms` milliseconds after which more than `limit` has passed. -/
def exceeding (c : Clock) (ms limit : UInt64) : Nat := limit.toNat / c.stride ms + 1

/-- The limit is exceeded after the last of these sleeps and not before, if the clock does not get
so far as to read again what it read at first. -/
theorem limit_lt_elapsed_iff (hstride : 0 < c.stride ms)
    (hsize : c.exceeding ms limit * c.stride ms < UInt64.size) (hi : i ≤ c.exceeding ms limit) :
    limit < (c.rested ms i).elapsedSince c.now ↔ i = c.exceeding ms limit := by
  have hnowrap : i * c.stride ms < UInt64.size :=
    Nat.lt_of_le_of_lt (Nat.mul_le_mul_right _ hi) hsize
  rw [UInt64.lt_iff_toNat_lt, elapsed_rested, Nat.mod_eq_of_lt hnowrap]
  constructor
  · intro hlate
    have hbefore : ¬i ≤ limit.toNat / c.stride ms := by
      rw [Nat.le_div_iff_mul_le hstride]
      omega
    have hexceeding : c.exceeding ms limit = limit.toNat / c.stride ms + 1 := rfl
    omega
  · rintro rfl
    exact Nat.lt_mul_of_div_lt (Nat.lt_succ_self _) hstride

end XgmacDriver.Clock
