import Mathlib.Data.List.Nodup
import XgmacDriver.Buffer.Pool
import XgmacDriver.Buffer.Queue

/-! # Which slots of a pool are in use

`Accounts` says of a list of slots that the ring has all slots but these, each of them once. A slot
that is acquired comes from the front of the ring's queue and joins the list, and one that is
released leaves the list for the end of the queue. `Creation` says how a pool gets its region, or
why it does not.
-/

namespace XgmacDriver.Pool

structure Accounts (p : Pool) (base : Addr) (inUse : List Addr) : Prop where
  backing : p.backing = .ready base
  slotSize_pos : 0 < p.slotSize
  wellFormed : p.ring.WellFormed
  perm : (p.ring.queue ++ inUse).Perm (p.slotStarts base).toList

variable {p : Pool} {base a b : Addr} {ring : Ring} {inUse inUse' : List Addr}

theorem toList_slotStarts (p : Pool) (base : Addr) : (p.slotStarts base).toList =
    (List.range p.capacity).map fun i => base.add (i * p.slotSize) := by
  apply List.ext_getElem
  · simp
  · intro i _ _
    simp [slotStarts]

theorem map_slotStarts (p : Pool) (base : Addr) : (p.slotStarts base).map some =
    ((List.range p.capacity).map fun i => some (base.add (i * p.slotSize))).toArray := by
  apply Array.toList_inj.mp
  rw [Array.toList_map, toList_slotStarts, List.map_map]
  rfl

theorem slotStarts_congr {q : Pool} (hcapacity : q.capacity = p.capacity)
    (hsize : q.slotSize = p.slotSize) : q.slotStarts base = p.slotStarts base := by
  apply Array.toList_inj.mp
  rw [toList_slotStarts, toList_slotStarts, hcapacity, hsize]

theorem slotStarts_withRing (h : ring.capacity = p.ring.capacity) :
    Pool.slotStarts { p with ring } base = p.slotStarts base :=
  slotStarts_congr h rfl

theorem mem_slotStarts :
    a ∈ (p.slotStarts base).toList ↔ ∃ i < p.capacity, base.add (i * p.slotSize) = a := by
  simp only [toList_slotStarts, List.mem_map, List.mem_range]

theorem nodup_slotStarts (h : 0 < p.slotSize) : (p.slotStarts base).toList.Nodup := by
  rw [toList_slotStarts]
  refine List.nodup_range.map fun i j heq => ?_
  have hnat := congrArg Addr.toNat heq
  simp only [Addr.toNat_add] at hnat
  exact Nat.eq_of_mul_eq_mul_right h (by omega)

theorem contains_iff (hbacking : p.backing = .ready base) (hpos : 0 < p.slotSize) :
    p.contains a = true ↔ a ∈ (p.slotStarts base).toList := by
  rw [mem_slotStarts]
  simp only [contains, base?, hbacking, Bool.and_eq_true, decide_eq_true_eq, beq_iff_eq]
  constructor
  · -- The offset is a multiple of the slot size, and the quotient is the number of the slot.
    rintro ⟨⟨hle, hlt⟩, hmod⟩
    obtain ⟨i, hi⟩ := Nat.dvd_of_mod_eq_zero hmod
    refine ⟨i, ?_, Addr.ext ?_⟩
    · refine Nat.lt_of_mul_lt_mul_left (a := p.slotSize) ?_
      rw [← hi, Nat.mul_comm]
      omega
    · rw [Addr.toNat_add, Nat.mul_comm, ← hi]
      omega
  · rintro ⟨i, hi, rfl⟩
    have hlt : i * p.slotSize < p.capacity * p.slotSize := Nat.mul_lt_mul_of_pos_right hi hpos
    simp only [Addr.toNat_add]
    exact ⟨⟨by omega, by omega⟩, by simp⟩

theorem isInitialized_of_contains (h : p.contains a = true) : p.isInitialized = true := by
  unfold contains at h
  unfold isInitialized
  cases hbase : p.base? with
  | none => simp [hbase] at h
  | some base => rfl

namespace Accounts

theorem congr (h : p.Accounts base inUse) (hperm : inUse.Perm inUse') :
    p.Accounts base inUse' :=
  { h with perm := (hperm.symm.append_left _).trans h.perm }

theorem isInitialized (h : p.Accounts base inUse) : p.isInitialized = true :=
  isInitialized_iff.mpr ⟨base, h.backing⟩

theorem nodup (h : p.Accounts base inUse) : inUse.Nodup :=
  (List.nodup_append.mp (h.perm.nodup_iff.mpr (nodup_slotStarts h.slotSize_pos))).2.1

theorem mem_of_queue (h : p.Accounts base inUse) (ha : a ∈ p.ring.queue) :
    a ∈ (p.slotStarts base).toList :=
  h.perm.mem_iff.mp (List.mem_append_left _ ha)

theorem mem_of_inUse (h : p.Accounts base inUse) (ha : a ∈ inUse) :
    a ∈ (p.slotStarts base).toList :=
  h.perm.mem_iff.mp (List.mem_append_right _ ha)

theorem ne_of_mem (h : p.Accounts base inUse) (ha : a ∈ p.ring.queue) (hb : b ∈ inUse) :
    a ≠ b := by
  have hnodup := h.perm.nodup_iff.mpr (nodup_slotStarts h.slotSize_pos)
  exact (List.nodup_append.mp hnodup).2.2 a ha b hb

theorem used_eq (h : p.Accounts base inUse) : p.used = inUse.length := by
  have hlength := h.perm.length_eq
  simp only [toList_slotStarts, List.length_append, Ring.length_queue h.wellFormed,
    List.length_map, List.length_range] at hlength
  have hused := h.wellFormed.used_le
  have hcapacity : p.capacity = p.ring.capacity := rfl
  show p.ring.used = _
  omega

theorem length_le (h : p.Accounts base inUse) : inUse.length ≤ p.capacity := by
  rw [← h.used_eq]
  exact h.wellFormed.used_le

theorem take (h : p.Accounts base inUse) (hcapacity : ring.capacity = p.ring.capacity)
    (hqueue : p.ring.queue = a :: ring.queue) (hring : ring.WellFormed) :
    Accounts { p with ring } base (a :: inUse) := by
  refine ⟨h.backing, h.slotSize_pos, hring, ?_⟩
  rw [slotStarts_withRing hcapacity]
  refine List.Perm.trans ?_ h.perm
  rw [hqueue]
  exact List.perm_middle

theorem give (h : p.Accounts base (a :: inUse)) (hcapacity : ring.capacity = p.ring.capacity)
    (hqueue : ring.queue = p.ring.queue ++ [a]) (hring : ring.WellFormed) :
    Accounts { p with ring } base inUse := by
  refine ⟨h.backing, h.slotSize_pos, hring, ?_⟩
  rw [slotStarts_withRing hcapacity, hqueue, List.append_assoc]
  exact h.perm

end Accounts

theorem create_of_isInitialized (allocate : Nat → Option Addr) (h : p.isInitialized = true) :
    p.create allocate = (.ok (), p) := by
  obtain ⟨base, hbacking⟩ := isInitialized_iff.mp h
  simp [create, hbacking]

theorem create_of_poisoned (allocate : Nat → Option Addr) (h : p.backing = .poisoned) :
    p.create allocate = (.error (.halt .creationPoisoned), p) := by
  simp [create, h]

/-- How the creation of a pool whose region takes `size` bytes ends. -/
inductive Creation (p : Pool) (size : Nat) (allocate : Nat → Option Addr) :
    Except Failure Unit × Pool → Prop
  | done : p.isInitialized = true → Creation p size allocate (.ok (), p)
  | lost : p.backing = .poisoned →
      Creation p size allocate (.error (.halt .creationPoisoned), p)
  | tooLarge : p.isInitialized = false → Word.bound ≤ size →
      Creation p size allocate (.error (.halt .mulOverflow), { p with backing := .poisoned })
  | refused : p.isInitialized = false → size < Word.bound → allocateRegion allocate size = none →
      Creation p size allocate (.error (.error .poolAllocationFailed), p)
  | allocated {base : Addr} : p.isInitialized = false → size < Word.bound →
      allocateRegion allocate size = some base →
      Creation p size allocate
        (.ok (), { p with backing := .ready base, ring := .full (p.slotStarts base) })

theorem creation (p : Pool) (allocate : Nat → Option Addr) :
    p.Creation (p.capacity * p.slotSize) allocate (p.create allocate) := by
  cases hbacking : p.backing with
  | ready base =>
      have hready : p.isInitialized = true := isInitialized_iff.mpr ⟨base, hbacking⟩
      rw [create_of_isInitialized allocate hready]
      exact .done hready
  | poisoned =>
      rw [create_of_poisoned allocate hbacking]
      exact .lost hbacking
  | absent =>
      have hvacant : p.isInitialized = false := by simp [isInitialized, base?, hbacking]
      by_cases hfits : p.capacity * p.slotSize < Word.bound
      · simp only [create, hbacking, Word.mul, if_pos hfits]
        cases hregion : allocateRegion allocate (p.capacity * p.slotSize) with
        | none => exact .refused hvacant hfits hregion
        | some base => exact .allocated hvacant hfits hregion
      · simp only [create, hbacking, Word.mul, if_neg hfits]
        exact .tooLarge hvacant (Nat.not_lt.mp hfits)

theorem isInitialized_create {allocate : Nat → Option Addr}
    (hok : (p.create allocate).1 = .ok ()) : (p.create allocate).2.isInitialized = true := by
  have hcreation := p.creation allocate
  generalize p.create allocate = r at hcreation hok
  cases hcreation with
  | done hready => exact hready
  | lost => cases hok
  | tooLarge => cases hok
  | refused => cases hok
  | allocated => rfl

theorem capacity_create (p : Pool) (allocate : Nat → Option Addr) :
    (p.create allocate).2.capacity = p.capacity := by
  have hcreation := p.creation allocate
  generalize p.create allocate = r at hcreation
  cases hcreation with
  | done => rfl
  | lost => rfl
  | tooLarge => rfl
  | refused => rfl
  | allocated => simp [capacity, slotStarts]

theorem slotSize_create (p : Pool) (allocate : Nat → Option Addr) :
    (p.create allocate).2.slotSize = p.slotSize := by
  have hcreation := p.creation allocate
  generalize p.create allocate = r at hcreation
  cases hcreation <;> rfl

theorem not_isInitialized_of_create_error {allocate : Nat → Option Addr} {f : Failure}
    (h : (p.create allocate).1 = .error f) : (p.create allocate).2.isInitialized = false := by
  have hcreation := p.creation allocate
  generalize p.create allocate = r at hcreation h
  cases hcreation with
  | done => cases h
  | lost hlost => simp [isInitialized, base?, hlost]
  | tooLarge => rfl
  | refused hvacant => exact hvacant
  | allocated => cases h

theorem create_eq_of_ok {allocate : Nat → Option Addr} (hvacant : p.isInitialized = false)
    (hok : (p.create allocate).1 = .ok ()) : ∃ base, (p.create allocate).2 =
      { p with backing := .ready base, ring := .full (p.slotStarts base) } := by
  have hcreation := p.creation allocate
  generalize p.create allocate = r at hcreation hok
  cases hcreation with
  | done hready => cases hready.symm.trans hvacant
  | lost => cases hok
  | tooLarge => cases hok
  | refused => cases hok
  | allocated => exact ⟨_, rfl⟩

theorem allocateRegion_of_create {allocate : Nat → Option Addr} (hvacant : p.isInitialized = false)
    (h : (p.create allocate).2.backing = .ready base) :
    allocateRegion allocate (p.capacity * p.slotSize) = some base := by
  have hnone : ∀ {base}, p.backing ≠ .ready base := by
    intro base hbacking
    simp [isInitialized, base?, hbacking] at hvacant
  have hcreation := p.creation allocate
  generalize p.create allocate = r at hcreation h
  cases hcreation with
  | done => exact absurd h hnone
  | lost => exact absurd h hnone
  | tooLarge => cases h
  | refused => exact absurd h hnone
  | allocated _ _ hregion =>
      cases h
      exact hregion

theorem allocate_of_create {allocate : Nat → Option Addr} (hvacant : p.isInitialized = false)
    (h : (p.create allocate).2.backing = .ready base) :
    allocate (p.capacity * p.slotSize) = some base :=
  (allocateRegion_eq_some_iff.mp (allocateRegion_of_create hvacant h)).2.2

theorem slotStarts_ready (p : Pool) (base : Addr) :
    Pool.slotStarts { p with backing := .ready base, ring := .full (p.slotStarts base) } base =
      p.slotStarts base :=
  slotStarts_congr (by simp [capacity]) rfl

theorem accounts_create {allocate : Nat → Option Addr} (hvacant : p.isInitialized = false)
    (hpos : 0 < p.slotSize) (hcapacity : 0 < p.capacity)
    (hok : (p.create allocate).1 = .ok ()) : ∃ base, (p.create allocate).2.Accounts base [] := by
  obtain ⟨base, hcreate⟩ := create_eq_of_ok hvacant hok
  rw [hcreate]
  refine ⟨base, rfl, hpos, Ring.wellFormed_full (by simpa using hcapacity), ?_⟩
  rw [slotStarts_ready, Ring.queue_full, List.append_nil]

section

variable {wanted : Nat} {lock : Lock} {clock : Clock} {memory : Memory}

/-- A request takes the first slot off the ring or changes nothing, whoever holds the lock. -/
theorem acquire_cases (p : Pool) (wanted : Nat) (lock : Lock) (clock : Clock) (memory : Memory) :
    (p.acquire wanted lock clock memory).memory = memory ∧
      ((∃ e, (p.acquire wanted lock clock memory).result = .error e) ∧
          (p.acquire wanted lock clock memory).pool = p ∨
        ∃ a ring, (p.acquire wanted lock clock memory).result = .ok a ∧
          (p.acquire wanted lock clock memory).pool = { p with ring } ∧
          p.ring.used ≠ p.capacity ∧ p.ring.take = some (a, ring)) := by
  unfold acquire
  split
  · exact ⟨rfl, Or.inl ⟨⟨_, rfl⟩, rfl⟩⟩
  · split
    · exact ⟨rfl, Or.inl ⟨⟨_, rfl⟩, rfl⟩⟩
    · cases lock.obtain clock with
      | mk obtained after =>
          cases obtained with
          | false => exact ⟨rfl, Or.inl ⟨⟨_, rfl⟩, rfl⟩⟩
          | true =>
              dsimp only
              split
              · exact ⟨rfl, Or.inl ⟨⟨_, rfl⟩, rfl⟩⟩
              · rename_i hleft
                cases htake : p.ring.take with
                | none => exact ⟨rfl, Or.inl ⟨⟨_, rfl⟩, rfl⟩⟩
                | some taken => exact ⟨rfl, Or.inr ⟨_, _, rfl, rfl, hleft, rfl⟩⟩

theorem isInitialized_of_acquire
    (h : (p.acquire wanted lock clock memory).result = .ok a) : p.isInitialized = true := by
  cases hready : p.isInitialized with
  | true => rfl
  | false =>
      unfold acquire at h
      split at h
      · cases h
      · rw [hready] at h
        cases h

theorem acquire_of_error {e : DriverError}
    (h : (p.acquire wanted lock clock memory).result = .error e) :
    (p.acquire wanted lock clock memory).pool = p ∧
      (p.acquire wanted lock clock memory).memory = memory := by
  obtain ⟨hmemory, ⟨-, hpool⟩ | ⟨a, ring, hok, -⟩⟩ := acquire_cases p wanted lock clock memory
  · exact ⟨hpool, hmemory⟩
  · rw [h] at hok
    cases hok

theorem Accounts.acquire_of_ok (h : p.Accounts base inUse)
    (hok : (p.acquire wanted lock clock memory).result = .ok a) :
    ∃ ring, (p.acquire wanted lock clock memory).pool = { p with ring } ∧
      ring.capacity = p.ring.capacity ∧ p.ring.queue = a :: ring.queue ∧
      Accounts { p with ring } base (a :: inUse) := by
  obtain ⟨-, ⟨⟨e, herror⟩, -⟩ | ⟨b, ring, hresult, hpool, hleft, htake⟩⟩ :=
    acquire_cases p wanted lock clock memory
  · rw [hok] at herror
    cases herror
  obtain rfl : a = b := Except.ok.inj (hok.symm.trans hresult)
  obtain ⟨hqueue, hring⟩ := Ring.queue_of_take h.wellFormed hleft htake
  have hcapacity := Ring.capacity_of_take htake
  exact ⟨ring, hpool, hcapacity, hqueue, h.take hcapacity hqueue hring⟩

end

section

variable (clock : Clock) (memory : Memory)

theorem acquire_of_lt {wanted : Nat} (hready : p.isInitialized = true) (hring : p.ring.WellFormed)
    (hfits : wanted ≤ p.slotSize) (hleft : p.used < p.capacity) :
    ∃ a ring, p.acquire wanted .free clock memory = ⟨.ok a, { p with ring }, memory, clock, []⟩ ∧
      ring.capacity = p.ring.capacity ∧ p.ring.queue = a :: ring.queue ∧ ring.WellFormed := by
  obtain ⟨a, ring, htake, hqueue, hring', -, hcapacity⟩ := Ring.take_of_lt hring hleft
  refine ⟨a, ring, ?_, hcapacity, hqueue, hring'⟩
  have hne : ¬p.ring.used = p.capacity := Nat.ne_of_lt hleft
  simp [Pool.acquire, Nat.not_lt.mpr hfits, hready, hne, htake]

theorem acquire_of_full {wanted : Nat} (hready : p.isInitialized = true)
    (hfits : wanted ≤ p.slotSize) (hfull : p.used = p.capacity) :
    p.acquire wanted .free clock memory =
      ⟨.error .poolExhausted, p, memory, clock, [.poolFullyUsed p.name]⟩ := by
  have heq : p.ring.used = p.capacity := hfull
  simp [Pool.acquire, Nat.not_lt.mpr hfits, hready, heq]

theorem release_of_pos (hring : p.ring.WellFormed) (hpos : 0 < p.used)
    (hmem : p.contains a = true) :
    ∃ ring, p.release a .free clock memory =
        ⟨.ok (), { p with ring }, memory.fill a p.slotSize 0, clock, []⟩ ∧
      ring.capacity = p.ring.capacity ∧ ring.queue = p.ring.queue ++ [a] ∧ ring.WellFormed := by
  obtain ⟨hqueue, hring', -⟩ := Ring.give_of_pos hring hpos a
  refine ⟨p.ring.give a, ?_, Ring.capacity_give _ _, hqueue, hring'⟩
  have hne : ¬p.ring.used = 0 := Nat.ne_of_gt hpos
  simp [Pool.release, hne, hmem]

namespace Accounts

/-- As long as slots are left a request that fits is served from the front of the queue. -/
theorem acquire (h : p.Accounts base inUse) (wanted : Nat) (hfits : wanted ≤ p.slotSize)
    (hleft : inUse.length < p.capacity) :
    ∃ a ring, p.acquire wanted .free clock memory =
        ⟨.ok a, { p with ring }, memory, clock, []⟩ ∧ ring.capacity = p.ring.capacity ∧
      p.ring.queue = a :: ring.queue ∧ Accounts { p with ring } base (a :: inUse) := by
  obtain ⟨a, ring, hacquire, hcapacity, hqueue, hring⟩ := acquire_of_lt clock memory
    h.isInitialized h.wellFormed hfits (lt_of_eq_of_lt h.used_eq hleft)
  exact ⟨a, ring, hacquire, hcapacity, hqueue, h.take hcapacity hqueue hring⟩

theorem acquire_exhausted (h : p.Accounts base inUse) (wanted : Nat) (hfits : wanted ≤ p.slotSize)
    (hfull : inUse.length = p.capacity) :
    p.acquire wanted .free clock memory =
      ⟨.error .poolExhausted, p, memory, clock, [.poolFullyUsed p.name]⟩ :=
  acquire_of_full clock memory h.isInitialized hfits (h.used_eq.trans hfull)

theorem release (h : p.Accounts base (a :: inUse)) :
    ∃ ring, p.release a .free clock memory =
        ⟨.ok (), { p with ring }, memory.fill a p.slotSize 0, clock, []⟩ ∧
      ring.capacity = p.ring.capacity ∧ ring.queue = p.ring.queue ++ [a] ∧
      Accounts { p with ring } base inUse := by
  have hpos : 0 < p.used := by
    rw [h.used_eq]
    exact Nat.zero_lt_succ _
  have hmem : p.contains a = true :=
    (contains_iff h.backing h.slotSize_pos).mpr (h.mem_of_inUse List.mem_cons_self)
  obtain ⟨ring, hrelease, hcapacity, hqueue, hring⟩ :=
    release_of_pos clock memory h.wellFormed hpos hmem
  exact ⟨ring, hrelease, hcapacity, hqueue, h.give hcapacity hqueue hring⟩

end Accounts

end

end XgmacDriver.Pool
