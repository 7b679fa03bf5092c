import XgmacDriver.Buffer.Pool
import XgmacDriver.Proofs.RepeatedSleeps

/-! # The wait for the lock of a pool

Every sleep takes the same time, so a caller tries for the lock only so often before the timeout has
passed. If the holder lets go by then, the call goes on as if the lock had been free; otherwise it
changes nothing. No limit on the number of tries is needed for the wait to end.
-/

namespace XgmacDriver

namespace Clock

/-- What a sleep of one millisecond takes. -/
def nap (c : Clock) : Nat := (1 + c.extra).toNat

def slept (c : Clock) : Nat → Clock
  | 0 => c
  | n + 1 => (c.slept n).sleep 1

/-- The number of sleeps after which the timeout has passed. -/
def patience (c : Clock) : Nat := Lock.timeout.toNat / c.nap + 1

variable {c : Clock} {i : Nat}

theorem slept_eq_rested (c : Clock) (n : Nat) : c.slept n = c.rested 1 n := by
  induction n with
  | zero => rfl
  | succ n ih => exact congrArg (·.sleep 1) ih

@[simp] theorem extra_slept (c : Clock) (n : Nat) : (c.slept n).extra = c.extra := by
  rw [slept_eq_rested, extra_rested]

@[simp] theorem sleeps_slept (c : Clock) (n : Nat) : (c.slept n).sleeps = c.sleeps + n := by
  rw [slept_eq_rested, sleeps_rested]

@[simp] theorem nap_slept (c : Clock) (n : Nat) : (c.slept n).nap = c.nap := by
  rw [nap, extra_slept, nap]

theorem slept_slept (c : Clock) (i n : Nat) : (c.slept i).slept n = c.slept (i + n) := by
  induction n with
  | zero => rfl
  | succ n ih => exact congrArg (·.sleep 1) ih

/-- No wait gets so far that the elapsed time wraps. -/
theorem patience_mul_nap_lt (c : Clock) : c.patience * c.nap < UInt64.size := by
  have hnap : c.nap < UInt64.size := (1 + c.extra).toNat_lt
  have hshort : 1000 / c.nap * c.nap ≤ 1000 := Nat.div_mul_le_self 1000 c.nap
  rw [patience, Nat.succ_mul]
  by_cases hlong : 1000 < c.nap
  · rw [show Lock.timeout.toNat / c.nap = 0 from Nat.div_eq_of_lt hlong]
    omega
  · have hsize : UInt64.size = 18446744073709551616 := rfl
    have htimeout : Lock.timeout.toNat = 1000 := rfl
    rw [htimeout]
    omega

/-- The timeout has passed exactly after the last of these sleeps. -/
theorem timeout_lt_iff (hnap : 0 < c.nap) (hi : i ≤ c.patience) :
    Lock.timeout < (c.slept i).elapsedSince c.now ↔ i = c.patience := by
  rw [slept_eq_rested]
  exact limit_lt_elapsed_iff hnap c.patience_mul_nap_lt hi

end Clock

namespace Lock

/-- The wait for a lock that began at `start` ends after `n` more sleeps. There is no limit on the
tries here. -/
inductive WaitEnds (l : Lock) (start : UInt64) : Nat → Clock → Bool × Clock → Prop
  | had {clock : Clock} : l.isHeld clock = false → WaitEnds l start 0 clock (true, clock)
  | late {clock : Clock} : l.isHeld clock = true → timeout < clock.elapsedSince start →
      WaitEnds l start 0 clock (false, clock)
  | sleep {n : Nat} {clock : Clock} {r : Bool × Clock} : l.isHeld clock = true →
      ¬timeout < clock.elapsedSince start → WaitEnds l start n (clock.sleep 1) r →
      WaitEnds l start (n + 1) clock r

/-- After how many more sleeps the lock is let go. -/
def remaining (l : Lock) (clock : Clock) : Option Nat :=
  match l with
  | free => some 0
  | untilSleep n => some (n - clock.sleeps)
  | forever => none

variable {l : Lock} {clock : Clock} {start : UInt64} {n i : Nat} {r : Bool × Clock}

theorem remaining_heldFor (clock : Clock) (holder : Option Nat) :
    (heldFor clock holder).remaining clock = holder := by
  cases holder with
  | none => rfl
  | some n => simp [heldFor, remaining]

theorem isHeld_slept_iff (l : Lock) (clock : Clock) (i : Nat) :
    l.isHeld (clock.slept i) = true ↔ ∀ n ∈ l.remaining clock, i < n := by
  cases l with
  | free => simp [isHeld, remaining]
  | untilSleep n =>
      simp only [isHeld, remaining, decide_eq_true_eq, Clock.sleeps_slept, Option.mem_some_iff,
        forall_eq']
      omega
  | forever => simp [isHeld, remaining]

/-- A limit on the tries that is not reached has no effect. -/
theorem WaitEnds.await_eq (h : l.WaitEnds start n clock r) {fuel : Nat} (hfuel : n < fuel) :
    l.await start fuel clock = r := by
  induction h generalizing fuel with
  | had hfree =>
      obtain ⟨fuel, rfl⟩ := Nat.exists_eq_add_of_lt hfuel
      exact await_of_not_isHeld hfree _ _
  | late hheld hlate =>
      obtain ⟨fuel, rfl⟩ := Nat.exists_eq_add_of_lt hfuel
      simp [await, hheld, hlate]
  | sleep hheld hearly _ ih =>
      cases fuel with
      | zero => cases hfuel
      | succ fuel =>
          rw [await, if_neg (by simp [hheld]), if_neg hearly]
          exact ih (Nat.lt_of_succ_lt_succ hfuel)

/-- While the lock is held and the timeout has not passed, the wait goes on. -/
theorem WaitEnds.of_slept (hnap : 0 < clock.nap) (hi : i ≤ clock.patience)
    (hheld : ∀ j < i, l.isHeld (clock.slept j) = true)
    (h : l.WaitEnds clock.now n (clock.slept i) r) : l.WaitEnds clock.now (i + n) clock r := by
  induction i generalizing n with
  | zero =>
      rw [Nat.zero_add]
      exact h
  | succ i ih =>
      have hearly : ¬Lock.timeout < (clock.slept i).elapsedSince clock.now := by
        rw [Clock.timeout_lt_iff hnap (Nat.le_of_succ_le hi)]
        omega
      have hbefore : l.WaitEnds clock.now (n + 1) (clock.slept i) r :=
        .sleep (hheld i (Nat.lt_succ_self i)) hearly h
      have hall := ih (Nat.le_of_succ_le hi) (fun j hj => hheld j (Nat.lt_succ_of_lt hj)) hbefore
      rwa [show i + (n + 1) = i + 1 + n by omega] at hall

/-- A holder that lets go in time is waited for. -/
theorem waitEnds_of_le (hnap : 0 < clock.nap) (hn : l.remaining clock = some n)
    (hle : n ≤ clock.patience) : l.WaitEnds clock.now n clock (true, clock.slept n) := by
  have hheld : ∀ j < n, l.isHeld (clock.slept j) = true := by
    intro j hj
    rw [isHeld_slept_iff, hn]
    simpa using hj
  have hfree : l.isHeld (clock.slept n) = false := by
    rw [← Bool.not_eq_true, isHeld_slept_iff, hn]
    simp
  have hends : l.WaitEnds clock.now 0 (clock.slept n) (true, clock.slept n) := .had hfree
  exact hends.of_slept hnap hle hheld

/-- Any other holder is given up on once the timeout has passed. -/
theorem waitEnds_of_lt (hnap : 0 < clock.nap) (h : ∀ n ∈ l.remaining clock, clock.patience < n) :
    l.WaitEnds clock.now clock.patience clock (false, clock.slept clock.patience) := by
  have hheld : ∀ j ≤ clock.patience, l.isHeld (clock.slept j) = true := by
    intro j hj
    rw [isHeld_slept_iff]
    intro n hn
    exact Nat.lt_of_le_of_lt hj (h n hn)
  have hlate : Lock.timeout < (clock.slept clock.patience).elapsedSince clock.now :=
    (Clock.timeout_lt_iff hnap (Nat.le_refl _)).mpr rfl
  have hends : l.WaitEnds clock.now 0 (clock.slept clock.patience)
      (false, clock.slept clock.patience) := .late (hheld _ (Nat.le_refl _)) hlate
  have hall := hends.of_slept hnap (Nat.le_refl _) fun j hj => hheld j (Nat.le_of_lt hj)
  exact hall

theorem WaitEnds.obtain_eq (h : l.WaitEnds clock.now n clock r) (hn : n ≤ clock.patience) :
    l.obtain clock = r := by
  have hpatience : clock.patience ≤ 1001 := Nat.succ_le_succ (Nat.div_le_self 1000 clock.nap)
  have hsize : UInt64.size = 18446744073709551616 := rfl
  exact h.await_eq (by omega)

/-- Every wait for a lock ends, and `obtain` tells how. -/
theorem exists_waitEnds (l : Lock) (hnap : 0 < clock.nap) :
    ∃ n ≤ clock.patience, l.WaitEnds clock.now n clock (l.obtain clock) ∧
      (l.obtain clock).2 = clock.slept n := by
  by_cases hlate : ∀ n ∈ l.remaining clock, clock.patience < n
  · have hends := waitEnds_of_lt hnap hlate
    rw [hends.obtain_eq (Nat.le_refl _)]
    exact ⟨_, Nat.le_refl _, hends, rfl⟩
  · obtain ⟨n, hn, hle⟩ : ∃ n, l.remaining clock = some n ∧ n ≤ clock.patience := by
      simpa using hlate
    have hends := waitEnds_of_le hnap hn hle
    rw [hends.obtain_eq hle]
    exact ⟨n, hle, hends, rfl⟩

end Lock

namespace Pool

variable {p : Pool} {wanted : Nat} {a : Addr} {lock : Lock} {clock after : Clock} {memory : Memory}

/-- A request that gets the lock in the end does what it would have done at once. -/
theorem acquire_of_obtain (hfits : wanted ≤ p.slotSize) (hready : p.isInitialized = true)
    (h : lock.obtain clock = (true, after)) : p.acquire wanted lock clock memory =
      { p.acquire wanted .free clock memory with clock := after } := by
  have hsize : ¬p.slotSize < wanted := Nat.not_lt.mpr hfits
  simp only [acquire, if_neg hsize, hready, Bool.not_true, Bool.false_eq_true, if_false, h,
    Lock.obtain_free]
  split
  · rfl
  · cases p.ring.take with
    | none => rfl
    | some taken => rfl

theorem acquire_of_not_obtain (hfits : wanted ≤ p.slotSize) (hready : p.isInitialized = true)
    (h : lock.obtain clock = (false, after)) : p.acquire wanted lock clock memory =
      ⟨.error .poolLockTimeout, p, memory, after, [.lockTimeout p.name]⟩ := by
  have hsize : ¬p.slotSize < wanted := Nat.not_lt.mpr hfits
  simp [acquire, hsize, hready, h]

theorem release_of_obtain (h : lock.obtain clock = (true, after)) :
    p.release a lock clock memory = { p.release a .free clock memory with clock := after } := by
  simp only [release, h, Lock.obtain_free]
  split
  · rfl
  · split
    · rfl
    · rfl

theorem release_of_not_obtain (h : lock.obtain clock = (false, after)) :
    p.release a lock clock memory =
      ⟨.error .poolLockTimeout, p, memory, after, [.lockTimeout p.name]⟩ := by
  simp [release, h]

/-- Acquiring and releasing wait for a holder that lets go within `1000 / nap + 1` sleeps, and then
go on as if nobody had held the lock. Any other holder is waited for as long, and the pool and the
memory are left as they were. -/
theorem wait_bounded (p : Pool) (memory : Memory) (hnap : 0 < clock.nap) (holder : Option Nat) :
    let K := 1000 / clock.nap
    let lock := Lock.heldFor clock holder
    (∀ n ∈ holder, n ≤ K + 1 →
      (∀ wanted ≤ p.slotSize, p.isInitialized = true → p.acquire wanted lock clock memory =
        { p.acquire wanted .free clock memory with clock := clock.slept n }) ∧
      ∀ a, p.release a lock clock memory =
        { p.release a .free clock memory with clock := clock.slept n }) ∧
    ((∀ n ∈ holder, K + 1 < n) →
      (∀ wanted ≤ p.slotSize, p.isInitialized = true → p.acquire wanted lock clock memory =
        ⟨.error .poolLockTimeout, p, memory, clock.slept (K + 1), [.lockTimeout p.name]⟩) ∧
      ∀ a, p.release a lock clock memory =
        ⟨.error .poolLockTimeout, p, memory, clock.slept (K + 1), [.lockTimeout p.name]⟩) ∧
    ∃ n ≤ K + 1, lock.WaitEnds clock.now n clock (lock.obtain clock) := by
  intro K lock
  have hholder : lock.remaining clock = holder := Lock.remaining_heldFor clock holder
  refine ⟨?_, ?_, ?_⟩
  · intro n hn hle
    have hobtain := (Lock.waitEnds_of_le hnap (hholder.trans hn) hle).obtain_eq hle
    constructor
    · intro wanted hfits hready
      exact acquire_of_obtain hfits hready hobtain
    · intro a
      exact release_of_obtain hobtain
  · intro hlate
    have hends := Lock.waitEnds_of_lt (l := lock) hnap (hholder.symm ▸ hlate)
    have hobtain := hends.obtain_eq (Nat.le_refl _)
    constructor
    · intro wanted hfits hready
      exact acquire_of_not_obtain hfits hready hobtain
    · intro a
      exact release_of_not_obtain hobtain
  · obtain ⟨n, hle, hends, -⟩ := Lock.exists_waitEnds lock hnap
    exact ⟨n, hle, hends⟩

/-- A clock whose sleeps take 300 milliseconds, shortly before it wraps. -/
def coarseClock : Clock := .startingAt 0xFFFFFFFFFFFFFFFD 299

def smallRegion : Addr := ⟨0x2000, by decide⟩

def twoSlots : Pool := ((new "Rx" 2 64).create fun _ => some smallRegion).2

theorem wait_bounded_last_try :
    0 < coarseClock.nap ∧
      twoSlots.acquire 64 (.heldFor coarseClock (some 4)) coarseClock .zeroed =
        { twoSlots.acquire 64 .free coarseClock .zeroed with clock := coarseClock.slept 4 } ∧
      (twoSlots.acquire 64 .free coarseClock .zeroed).result.toOption = some smallRegion ∧
      twoSlots.acquire 64 (.heldFor coarseClock (some 5)) coarseClock .zeroed =
        ⟨.error .poolLockTimeout, twoSlots, .zeroed, coarseClock.slept 4, [.lockTimeout "Rx"]⟩ := by
  have hnap : 0 < coarseClock.nap := by decide
  have hready : twoSlots.isInitialized = true := by decide +kernel
  obtain ⟨hhad, -⟩ := wait_bounded twoSlots .zeroed hnap (some 4)
  obtain ⟨-, hlate, -⟩ := wait_bounded twoSlots .zeroed hnap (some 5)
  have hserved := (hhad 4 rfl (by decide)).1 64 (by decide) hready
  have hgiven := (hlate (by simp; decide)).1 64 (by decide) hready
  exact ⟨hnap, hserved, by decide +kernel, hgiven⟩

end Pool

end XgmacDriver
