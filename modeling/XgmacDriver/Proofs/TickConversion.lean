import Mathlib.Order.GaloisConnection.Defs
import XgmacDriver.Time.TickCounter

/-! # Milliseconds and ticks

Milliseconds are rounded up to ticks, and ticks are rounded down to milliseconds. So at every
frequency each of the conversions is the adjoint of the other one, and a delay never ends early:
whenever it finds the counter at its target, at least the time that was asked for has passed since
any earlier reading.
-/

namespace XgmacDriver.TickCounter

variable {c c' target : TickCounter} {ms t k m : UInt64}

/-! ## The conversions without a limit -/

/-- The smallest number of ticks that last `ms` milliseconds. -/
def ticksIn (c : TickCounter) (ms : Nat) : Nat := (ms * c.frequency.toNat + 999) / 1000

/-- The whole milliseconds in `t` ticks. -/
def millisIn (c : TickCounter) (t : Nat) : Nat := t * 1000 / c.frequency.toNat

theorem galoisConnection (hf : 0 < c.frequency.toNat) :
    GaloisConnection c.ticksIn c.millisIn := by
  intro ms t
  rw [millisIn, Nat.le_div_iff_mul_le hf, ticksIn]
  omega

theorem ticksIn_mul_le (c : TickCounter) (ms : Nat) :
    c.ticksIn ms * 1000 ≤ ms * c.frequency.toNat + 999 := Nat.div_mul_le_self ..

theorem ticksIn_add_le (c : TickCounter) (ms ms' : Nat) :
    c.ticksIn (ms + ms') ≤ c.ticksIn ms + c.ticksIn ms' := by
  simp only [ticksIn, Nat.add_mul]
  omega

theorem ticksIn_pos (hf : 0 < c.frequency.toNat) {ms : Nat} (hms : 0 < ms) :
    0 < c.ticksIn ms := by
  have hproduct : 0 < ms * c.frequency.toNat := Nat.mul_pos hms hf
  rw [ticksIn]
  omega

theorem millisIn_le (c : TickCounter) (t : Nat) : c.millisIn t ≤ t * 1000 := Nat.div_le_self ..

/-- A tick of at most a millisecond is too short to round up to one more of them. -/
theorem millisIn_ticksIn (hf : 1000 ≤ c.frequency.toNat) (ms : Nat) :
    c.millisIn (c.ticksIn ms) = ms := by
  have hpos : 0 < c.frequency.toNat := by omega
  have hnotLess : ms ≤ c.millisIn (c.ticksIn ms) := (galoisConnection hpos).le_u_l ms
  have hnotMore : c.millisIn (c.ticksIn ms) < ms + 1 := by
    have hticks := c.ticksIn_mul_le ms
    rw [millisIn, Nat.div_lt_iff_lt_mul hpos, Nat.succ_mul]
    omega
  omega

/-- The ticks of a delay add at least its milliseconds, whatever the counter shows before. -/
theorem add_millisIn_le (hf : 0 < c.frequency.toNat) (ms t : Nat) :
    ms + c.millisIn t ≤ c.millisIn (c.ticksIn ms + t) := by
  have hadjoint := galoisConnection hf
  rw [← hadjoint.le_iff_le]
  calc
    c.ticksIn (ms + c.millisIn t) ≤ c.ticksIn ms + c.ticksIn (c.millisIn t) :=
      c.ticksIn_add_le ms _
    _ ≤ c.ticksIn ms + t := Nat.add_le_add_left (hadjoint.l_u_le t) _

/-! ## The conversions of words -/

theorem ticksOfMillis_eq (c : TickCounter) (ms : UInt64) :
    c.ticksOfMillis ms =
      if ms.toNat * c.frequency.toNat < Word.bound then
        if ms.toNat * c.frequency.toNat + 999 < Word.bound then
          .ok (c.ticksIn ms.toNat).toUInt64
        else .error .addOverflow
      else .error .mulOverflow := by
  by_cases hproduct : ms.toNat * c.frequency.toNat < Word.bound
  · by_cases hsum : ms.toNat * c.frequency.toNat + 999 < Word.bound
    · simp only [ticksOfMillis, Word.mul, hproduct, Word.add, hsum, if_true, bind, Except.bind,
        pure, Except.pure, ticksIn]
    · simp only [ticksOfMillis, Word.mul, hproduct, Word.add, hsum, if_true, if_false, bind,
        Except.bind]
  · simp only [ticksOfMillis, Word.mul, hproduct, if_false, bind, Except.bind]

theorem millisOfTicks_eq (c : TickCounter) (t : UInt64) :
    c.millisOfTicks t =
      if t.toNat * 1000 < Word.bound then .ok (c.millisIn t.toNat).toUInt64
      else .error .mulOverflow := by
  by_cases hfits : t.toNat * 1000 < Word.bound
  · simp only [millisOfTicks, Word.mul, hfits, if_true, bind, Except.bind, pure, Except.pure,
      millisIn]
  · simp only [millisOfTicks, Word.mul, hfits, if_false, bind, Except.bind]

theorem exists_ticksOfMillis (h : ms.toNat * c.frequency.toNat + 999 < Word.bound) :
    ∃ k, c.ticksOfMillis ms = .ok k ∧ k.toNat = c.ticksIn ms.toNat := by
  have hproduct := Nat.lt_of_le_of_lt (Nat.le_add_right _ 999) h
  refine ⟨_, ?_, UInt64.toNat_ofNat_of_lt' (Nat.lt_of_le_of_lt (Nat.div_le_self ..) h)⟩
  rw [ticksOfMillis_eq, if_pos hproduct, if_pos h]

theorem exists_millisOfTicks (h : t.toNat * 1000 < Word.bound) :
    ∃ m, c.millisOfTicks t = .ok m ∧ m.toNat = c.millisIn t.toNat := by
  refine ⟨_, ?_, UInt64.toNat_ofNat_of_lt' (Nat.lt_of_le_of_lt (c.millisIn_le _) h)⟩
  rw [millisOfTicks_eq, if_pos h]

theorem toNat_of_ticksOfMillis (h : c.ticksOfMillis ms = .ok k) :
    k.toNat = c.ticksIn ms.toNat := by
  by_cases hsum : ms.toNat * c.frequency.toNat + 999 < Word.bound
  · obtain ⟨k', hk', hnat⟩ := exists_ticksOfMillis hsum
    obtain rfl : k = k' := Except.ok.inj (h.symm.trans hk')
    exact hnat
  · rw [ticksOfMillis_eq, if_neg hsum] at h
    split at h <;> cases h

/-- No time is shortened by going to ticks and back. -/
theorem millisOfTicks_back (hf : 0 < c.frequency.toNat)
    (h : ms.toNat * c.frequency.toNat + 999 < Word.bound) (hk : k.toNat = c.ticksIn ms.toNat) :
    ∃ back, c.millisOfTicks k = .ok back ∧ ms ≤ back ∧ (1000 ≤ c.frequency → back = ms) := by
  have hfits : k.toNat * 1000 < Word.bound := by
    rw [hk]
    exact Nat.lt_of_le_of_lt (c.ticksIn_mul_le _) h
  obtain ⟨back, hback, hnat⟩ := exists_millisOfTicks (c := c) hfits
  rw [hk] at hnat
  refine ⟨back, hback, ?_, ?_⟩
  · rw [UInt64.le_iff_toNat_le, hnat]
    exact (galoisConnection hf).le_u_l ms.toNat
  · intro hfast
    rw [← UInt64.toNat_inj, hnat]
    exact millisIn_ticksIn (UInt64.le_iff_toNat_le.mp hfast) _

/-- Ticks are not increased by going to milliseconds and back. Among those whose milliseconds fit,
only the largest number of them can have no way back. -/
theorem ticksOfMillis_back (hf : 0 < c.frequency.toNat) (h : t.toNat * 1000 < Word.bound)
    (hm : m.toNat = c.millisIn t.toNat) :
    (m.toNat * c.frequency.toNat + 999 < Word.bound →
      ∃ back, c.ticksOfMillis m = .ok back ∧ back ≤ t) ∧
    (Word.bound ≤ m.toNat * c.frequency.toNat + 999 →
      c.ticksOfMillis m = .error .addOverflow ∧ t = 18446744073709551) := by
  have hproduct : m.toNat * c.frequency.toNat ≤ t.toNat * 1000 := by
    rw [hm]
    exact Nat.div_mul_le_self ..
  constructor
  · intro hroom
    obtain ⟨back, hback, hnat⟩ := exists_ticksOfMillis hroom
    refine ⟨back, hback, ?_⟩
    rw [UInt64.le_iff_toNat_le, hnat, hm]
    exact (galoisConnection hf).l_u_le t.toNat
  · intro hfull
    constructor
    · rw [ticksOfMillis_eq, if_pos (Nat.lt_of_le_of_lt hproduct h), if_neg (Nat.not_lt.mpr hfull)]
    · have hbound : Word.bound = 18446744073709551616 := rfl
      rw [hbound] at h hfull
      rw [← UInt64.toNat_inj]
      show t.toNat = 18446744073709551
      omega

/-! ## Delays -/

/-- The counter some time later, if it has not wrapped meanwhile. -/
structure Later (c c' : TickCounter) : Prop where
  frequency_eq : c'.frequency = c.frequency
  ticks_le : c.ticks.toNat ≤ c'.ticks.toNat

theorem Later.refl (c : TickCounter) : c.Later c := ⟨rfl, Nat.le_refl _⟩

/-- A delay looks at the counter again and again, and it ends when the counter is not below the
target. Any number of ticks may come between two looks. -/
inductive SpinEnds (target : UInt64) : TickCounter → TickCounter → Prop
  | reached {c : TickCounter} : target ≤ c.ticks → SpinEnds target c c
  | waiting {c c' : TickCounter} (n : UInt64) : c.ticks < target → SpinEnds target (c.tick n) c' →
      SpinEnds target c c'

theorem SpinEnds.frequency_eq {goal : UInt64} (h : SpinEnds goal c c') :
    c'.frequency = c.frequency := by
  induction h with
  | reached _ => rfl
  | waiting n _ _ ih => exact ih

theorem SpinEnds.le {goal : UInt64} (h : SpinEnds goal c c') : goal ≤ c'.ticks := by
  induction h with
  | reached hle => exact hle
  | waiting n _ _ ih => exact ih

/-- If the ticks come one at a time, a delay ends exactly at its target. -/
theorem spinEnds_of_le (c : TickCounter) {goal : UInt64} (h : c.ticks ≤ goal) :
    SpinEnds goal c { c with ticks := goal } := by
  generalize hleft : goal.toNat - c.ticks.toNat = left
  rw [UInt64.le_iff_toNat_le] at h
  induction left generalizing c with
  | zero =>
      have hreached : c.ticks = goal := UInt64.toNat_inj.mp (by omega)
      subst hreached
      exact .reached (UInt64.le_refl _)
  | succ left ih =>
      have hgoal := goal.toNat_lt
      have htick : (c.ticks + 1).toNat = c.ticks.toNat + 1 := by
        rw [UInt64.toNat_add]
        exact Nat.mod_eq_of_lt (by simp; omega)
      refine .waiting 1 (UInt64.lt_iff_toNat_lt.mpr (by omega)) (ih (c.tick 1) ?_ ?_)
      · rw [tick, htick]
        omega
      · rw [tick, htick]
        omega

theorem le_elapsedSince (hf : 0 < c.frequency.toNat) (hfrequency : c'.frequency = c.frequency)
    (hticks : c.ticksIn ms.toNat + c.ticks.toNat ≤ c'.ticks.toNat)
    (hfits : c'.ticks.toNat * 1000 < Word.bound) :
    ∃ start e, c.now = .ok start ∧ c'.elapsedSince start = .ok e ∧ ms ≤ e := by
  have hearlier : c.ticks.toNat * 1000 < Word.bound :=
    Nat.lt_of_le_of_lt (Nat.mul_le_mul_right 1000 (Nat.le_of_add_left_le hticks)) hfits
  obtain ⟨start, hstart, hstartNat⟩ := exists_millisOfTicks (c := c) hearlier
  obtain ⟨finish, hfinish, hfinishNat⟩ := exists_millisOfTicks (c := c') hfits
  have hmillis : ms.toNat + start.toNat ≤ finish.toNat := by
    rw [hstartNat, hfinishNat]
    calc
      ms.toNat + c.millisIn c.ticks.toNat ≤ c.millisIn (c.ticksIn ms.toNat + c.ticks.toNat) :=
        add_millisIn_le hf ..
      _ ≤ c.millisIn c'.ticks.toNat := (galoisConnection hf).monotone_u hticks
      _ = c'.millisIn c'.ticks.toNat := by rw [millisIn, millisIn, hfrequency]
  refine ⟨start, finish - start, hstart, ?_, ?_⟩
  · simp only [elapsedSince, now, hfinish, bind, Except.bind, pure, Except.pure]
  · rw [UInt64.le_iff_toNat_le, UInt64.toNat_sub_of_le _ _ (UInt64.le_iff_toNat_le.mpr (by omega))]
    omega

theorem sleep_eq_ok_iff (hk : c.ticksOfMillis ms = .ok k) : c.sleep ms = .ok target ↔
    target.frequency = c.frequency ∧ target.ticks.toNat = c.ticks.toNat + k.toNat := by
  have hsleep : c.sleep ms =
      if c.ticks.toNat + k.toNat < Word.bound then
        .ok { c with ticks := (c.ticks.toNat + k.toNat).toUInt64 }
      else .error .addOverflow := by
    by_cases hfits : c.ticks.toNat + k.toNat < Word.bound
    · simp only [sleep, hk, Word.add, hfits, if_true, bind, Except.bind, pure, Except.pure]
    · simp only [sleep, hk, Word.add, hfits, if_false, bind, Except.bind]
  rw [hsleep]
  split
  · rename_i hfits
    have hnat : (c.ticks.toNat + k.toNat).toUInt64.toNat = c.ticks.toNat + k.toNat :=
      UInt64.toNat_ofNat_of_lt' hfits
    constructor
    · rintro ⟨⟩
      exact ⟨rfl, hnat⟩
    · rintro ⟨hfrequency, hticks⟩
      obtain ⟨ticks, frequency⟩ := target
      obtain rfl : frequency = c.frequency := hfrequency
      obtain rfl : ticks = (c.ticks.toNat + k.toNat).toUInt64 :=
        UInt64.toNat_inj.mp (hticks.trans hnat.symm)
      rfl
  · rename_i hlarge
    constructor
    · intro hok
      cases hok
    · rintro ⟨-, hticks⟩
      exact absurd (hticks ▸ target.ticks.toNat_lt) hlarge

/-- A delay has not ended before its time, whenever the ticks come: those before it begins, those
between its looks at the counter and those before the time is read again. -/
theorem le_elapsedSince_of_spinEnds (hf : 0 < c.frequency.toNat) {begun ended : TickCounter}
    (hbegun : c.Later begun) (hsleep : begun.sleep ms = .ok target)
    (hended : SpinEnds target.ticks begun ended) (hlater : ended.Later c')
    (hfits : c'.ticks.toNat * 1000 < Word.bound) :
    ∃ start e, c.now = .ok start ∧ c'.elapsedSince start = .ok e ∧ ms ≤ e := by
  cases hk : begun.ticksOfMillis ms with
  | error e => simp [sleep, hk, bind, Except.bind] at hsleep
  | ok k =>
      have htarget := ((sleep_eq_ok_iff hk).mp hsleep).2
      have hwanted : k.toNat = c.ticksIn ms.toNat := by
        rw [toNat_of_ticksOfMillis hk, ticksIn, ticksIn, hbegun.frequency_eq]
      refine le_elapsedSince hf ?_ ?_ hfits
      · rw [hlater.frequency_eq, hended.frequency_eq, hbegun.frequency_eq]
      · have hbefore := hbegun.ticks_le
        have hreached := UInt64.le_iff_toNat_le.mp hended.le
        have hafter := hlater.ticks_le
        omega

theorem exists_sleep (hf : 0 < c.frequency.toNat) (hk : c.ticksOfMillis ms = .ok k)
    (hfits : (c.ticks.toNat + k.toNat) * 1000 < Word.bound) :
    ∃ start c' e, c.now = .ok start ∧ c.sleep ms = .ok c' ∧ SpinEnds c'.ticks c c' ∧
      c'.elapsedSince start = .ok e ∧ ms ≤ e := by
  have hsum : c.ticks.toNat + k.toNat < Word.bound :=
    Nat.lt_of_le_of_lt (Nat.le_mul_of_pos_right _ (by decide)) hfits
  let target : TickCounter := { c with ticks := (c.ticks.toNat + k.toNat).toUInt64 }
  have htarget : target.ticks.toNat = c.ticks.toNat + k.toNat := UInt64.toNat_ofNat_of_lt' hsum
  have hsleep : c.sleep ms = .ok target := (sleep_eq_ok_iff hk).mpr ⟨rfl, htarget⟩
  have hends : SpinEnds target.ticks c target := by
    apply spinEnds_of_le
    rw [UInt64.le_iff_toNat_le, htarget]
    exact Nat.le_add_right ..
  obtain ⟨start, e, hstart, helapsed, hle⟩ := le_elapsedSince_of_spinEnds hf (.refl c) hsleep
    hends (.refl target) (htarget ▸ hfits)
  exact ⟨start, target, e, hstart, hsleep, hends, helapsed, hle⟩

/-- The conversions are adjoint: a number of ticks is enough for a time exactly if it lasts at least
as long. So a time that is not zero takes a tick, no time is shortened by going to ticks and back,
and none is changed if a tick is at most a millisecond. Ticks are not increased by going to
milliseconds and back, as long as there is room to round up. A delay ends with its time passed,
whenever the ticks come. -/
theorem conversions_adjoint (hf : 0 < c.frequency)
    (hms : ms.toNat * c.frequency.toNat + 999 < Word.bound) (ht : t.toNat * 1000 < Word.bound) :
    ∃ k m, c.ticksOfMillis ms = .ok k ∧ c.millisOfTicks t = .ok m ∧ (k ≤ t ↔ ms ≤ m) ∧
      (0 < ms → 1 ≤ k) ∧
      (∃ back, c.millisOfTicks k = .ok back ∧ ms ≤ back ∧ (1000 ≤ c.frequency → back = ms)) ∧
      ((m.toNat * c.frequency.toNat + 999 < Word.bound →
          ∃ back, c.ticksOfMillis m = .ok back ∧ back ≤ t) ∧
        (Word.bound ≤ m.toNat * c.frequency.toNat + 999 →
          c.ticksOfMillis m = .error .addOverflow ∧ t = 18446744073709551)) ∧
      ((c.ticks.toNat + k.toNat) * 1000 < Word.bound → ∃ start c' e, c.now = .ok start ∧
        c.sleep ms = .ok c' ∧ SpinEnds c'.ticks c c' ∧ c'.elapsedSince start = .ok e ∧ ms ≤ e) ∧
      ∀ begun target ended c' : TickCounter, c.Later begun → begun.sleep ms = .ok target →
        SpinEnds target.ticks begun ended → ended.Later c' →
        c'.ticks.toNat * 1000 < Word.bound →
        ∃ start e, c.now = .ok start ∧ c'.elapsedSince start = .ok e ∧ ms ≤ e := by
  have hpos : 0 < c.frequency.toNat := UInt64.lt_iff_toNat_lt.mp hf
  obtain ⟨k, hk, hkNat⟩ := exists_ticksOfMillis hms
  obtain ⟨m, hm, hmNat⟩ := exists_millisOfTicks (c := c) ht
  refine ⟨k, m, hk, hm, ?_, ?_, millisOfTicks_back hpos hms hkNat, ticksOfMillis_back hpos ht hmNat,
    exists_sleep hpos hk, ?_⟩
  · rw [UInt64.le_iff_toNat_le, UInt64.le_iff_toNat_le, hkNat, hmNat]
    exact galoisConnection hpos ms.toNat t.toNat
  · intro hnonzero
    rw [UInt64.le_iff_toNat_le, hkNat]
    exact ticksIn_pos hpos (UInt64.lt_iff_toNat_lt.mp hnonzero)
  · intro begun target ended c' hbegun hsleep hended hlater hfits
    exact le_elapsedSince_of_spinEnds hpos hbegun hsleep hended hlater hfits

/-- A counter whose ticks are a little shorter than a millisecond. -/
def binaryTicks : TickCounter := ⟨1000, 1024⟩

/-- Twenty milliseconds take 21 ticks, and 30 have come when the delay looks again. -/
theorem conversions_adjoint_binary :
    binaryTicks.ticksOfMillis 20 = .ok 21 ∧ binaryTicks.millisOfTicks 20 = .ok 19 ∧
      ((21 : UInt64) ≤ 20 ↔ (20 : UInt64) ≤ 19) ∧
      ∃ start e, binaryTicks.now = .ok start ∧ (binaryTicks.tick 30).elapsedSince start = .ok e ∧
        20 ≤ e := by
  have hf : 0 < binaryTicks.frequency := by decide
  have hms : (20 : UInt64).toNat * binaryTicks.frequency.toNat + 999 < Word.bound := by decide
  have ht : (20 : UInt64).toNat * 1000 < Word.bound := by decide
  obtain ⟨k, m, hk, hm, hiff, -, -, -, -, hlate⟩ := conversions_adjoint hf hms ht
  have hticks : binaryTicks.ticksOfMillis 20 = .ok 21 := by decide +kernel
  have hmillis : binaryTicks.millisOfTicks 20 = .ok 19 := by decide +kernel
  obtain rfl : 21 = k := Except.ok.inj (hticks.symm.trans hk)
  obtain rfl : 19 = m := Except.ok.inj (hmillis.symm.trans hm)
  refine ⟨hticks, hmillis, hiff, ?_⟩
  exact hlate binaryTicks ⟨1021, 1024⟩ (binaryTicks.tick 30) (binaryTicks.tick 30) (.refl _) rfl
    (.waiting 30 (by decide) (.reached (by decide +kernel))) (.refl _) (by decide +kernel)

/-- The largest number of ticks whose milliseconds fit cannot be converted there and back. -/
theorem not_back_from_largest :
    let c := start 1000
    let ms : UInt64 := 20
    let t : UInt64 := 18446744073709551
    0 < c.frequency ∧ ms.toNat * c.frequency.toNat + 999 < Word.bound ∧
      t.toNat * 1000 < Word.bound ∧
      ∃ m, c.millisOfTicks t = .ok m ∧ c.ticksOfMillis m = .error .addOverflow ∧
        ¬∃ back, c.ticksOfMillis m = .ok back ∧ back ≤ t := by
  intro c ms t
  have hmillis : c.millisOfTicks t = .ok 18446744073709551 := by decide +kernel
  have hhalts : c.ticksOfMillis 18446744073709551 = .error .addOverflow := by decide +kernel
  refine ⟨by decide, by decide, by decide, _, hmillis, hhalts, ?_⟩
  rintro ⟨back, hback, -⟩
  rw [hhalts] at hback
  cases hback

end XgmacDriver.TickCounter
