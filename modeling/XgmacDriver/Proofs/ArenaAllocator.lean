import XgmacDriver.Proofs.ArenaPartition

/-! # An arena under arbitrary calls

Descriptors are copied freely, so an arena may be given any of them at any time: one that was given
before, one that it never handed out, one whose index is beyond its slots. Whatever the calls are,
its free list is the free indices among those given back, the latest one first, and then the indices
that were never taken in ascending order.
-/

namespace XgmacDriver

namespace Arena

variable {a : Arena} {slots slotSize : Nat}

/-- How the binding of an arena to allocated memory ends. -/
inductive Binding (slots slotSize : Nat) (allocate : Nat → Option Addr) :
    Except Failure Arena → Prop
  | invalid : validGeometry slots slotSize = false →
      Binding slots slotSize allocate (.error (.error .poolAllocationFailed))
  | tooLarge : validGeometry slots slotSize = true → Word.bound ≤ slots * slotSize →
      Binding slots slotSize allocate (.error (.halt .mulOverflow))
  | refused : slots * slotSize < Word.bound → allocateRegion allocate (slots * slotSize) = none →
      Binding slots slotSize allocate (.error (.error .poolAllocationFailed))
  | allocated {base : Addr} : validGeometry slots slotSize = true →
      slots * slotSize < Word.bound → allocateRegion allocate (slots * slotSize) = some base →
      Binding slots slotSize allocate (.ok (ofRegion base slots slotSize))

theorem binding (slots slotSize : Nat) (allocate : Nat → Option Addr) :
    Binding slots slotSize allocate (bind slots slotSize allocate) := by
  cases hvalid : validGeometry slots slotSize with
  | false =>
      simp only [bind, hvalid, Bool.not_false, if_true]
      exact .invalid hvalid
  | true =>
      simp only [bind, hvalid, Bool.not_true, Bool.false_eq_true, if_false]
      by_cases hfits : slots * slotSize < Word.bound
      · simp only [Word.mul, if_pos hfits]
        cases hregion : allocateRegion allocate (slots * slotSize) with
        | none => exact .refused hfits hregion
        | some base => exact .allocated hvalid hfits hregion
      · simp only [Word.mul, if_neg hfits]
        exact .tooLarge hvalid (Nat.not_lt.mp hfits)

/-- Memory that was set aside at boot is bound if it is aligned and has room for the slots. -/
theorem bindStatic_eq (slots slotSize : Nat) (base : Addr) (length : Nat) (memory : Memory) :
    bindStatic slots slotSize base length memory =
      if validGeometry slots slotSize = true ∧ slots * slotSize ≤ length ∧
          base.toNat % dmaAlignment = 0 then
        .ok (ofRegion base slots slotSize, memory.fill base (slots * slotSize) 0)
      else .error .poolAllocationFailed := by
  cases hvalid : validGeometry slots slotSize with
  | false => simp [bindStatic, hvalid]
  | true =>
      simp only [bindStatic, hvalid, Bool.not_true, Bool.false_eq_true, if_false, true_and,
        ← Nat.not_le, ← not_and_or, ne_eq, ite_not]

inductive Bound (slots slotSize : Nat) : Arena → Prop
  | allocated {allocate : Nat → Option Addr} {a : Arena}
      (ha : bind slots slotSize allocate = .ok a) : Bound slots slotSize a
  | reserved {base : Addr} {length : Nat} {memory memory' : Memory} {a : Arena}
      (ha : bindStatic slots slotSize base length memory = .ok (a, memory')) :
      Bound slots slotSize a

theorem Bound.exists_ofRegion (h : Bound slots slotSize a) :
    validGeometry slots slotSize = true ∧ ∃ base, a = ofRegion base slots slotSize := by
  cases h with
  | @allocated allocate _ ha =>
      have hbinding := binding slots slotSize allocate
      rw [ha] at hbinding
      cases hbinding with
      | allocated hvalid => exact ⟨hvalid, _, rfl⟩
  | reserved ha =>
      rw [bindStatic_eq] at ha
      split at ha
      · rename_i hbound
        cases ha
        exact ⟨hbound.1, _, rfl⟩
      · cases ha

theorem take_eq (a : Arena) (wanted : Nat) :
    (a.take wanted).1 =
      if a.payloadCapacity < wanted then none else a.free.head?.bind a.descriptor := by
  unfold Arena.take
  split
  · rfl
  · cases a.free <;> rfl

namespace WellFormed

theorem not_isInUse_of_free {i : UInt16} {rest : List UInt16} (h : a.WellFormed)
    (hfree : a.free = i :: rest) : i.toNat < a.slots ∧ a.isInUse i = false :=
  (h.mem_free i).mp (hfree ▸ List.mem_cons_self)

end WellFormed

end Arena

inductive ArenaCall
  | take (wanted : Nat)
  | give (buffer : NetworkBuffer)

/-- An arena with the indices that it has handed out and accepted back, the latest ones first. -/
structure ArenaHistory where
  arena : Arena
  taken : List UInt16
  given : List UInt16

namespace ArenaHistory

def fresh (a : Arena) : ArenaHistory := ⟨a, [], []⟩

def step (s : ArenaHistory) : ArenaCall → ArenaHistory
  | .take wanted =>
      let r := s.arena.take wanted
      { s with arena := r.2, taken := (r.1.map (·.index)).toList ++ s.taken }
  | .give buffer =>
      let r := s.arena.give buffer.index
      { s with arena := r.2, given := if r.1 then buffer.index :: s.given else s.given }

def run (s : ArenaHistory) (calls : List ArenaCall) : ArenaHistory := calls.foldl step s

/-- The index given back last of those that are free, or else the lowest one never taken. -/
def next (s : ArenaHistory) : Option UInt16 :=
  (s.given.find? fun i => !s.arena.isInUse i).or (s.arena.indices.find? fun i => i ∉ s.taken)

def returned (s : ArenaHistory) : List UInt16 := s.given.filter fun i => !s.arena.isInUse i

def untouched (s : ArenaHistory) : List UInt16 := s.arena.indices.filter fun i => i ∉ s.taken

structure Stacked (slots slotSize : Nat) (s : ArenaHistory) : Prop where
  wellFormed : s.arena.WellFormed
  slots_eq : s.arena.slots = slots
  slotSize_eq : s.arena.slotSize = slotSize
  given_taken : ∀ i ∈ s.given, i ∈ s.taken
  inUse_taken : ∀ i, s.arena.isInUse i = true → i ∈ s.taken
  order : s.arena.free = s.returned.eraseDups ++ s.untouched

variable {slots slotSize wanted : Nat} {s : ArenaHistory} {buffer : NetworkBuffer}

theorem step_take_of_none (h : s.arena.WellFormed) (hnone : (s.arena.take wanted).1 = none) :
    s.step (.take wanted) = s := by
  have harena := Arena.take_eq_none h (Prod.ext hnone rfl)
  simp [step, hnone, harena]

theorem step_give_of_false (h : s.arena.WellFormed)
    (hfalse : (s.arena.give buffer.index).1 = false) : s.step (.give buffer) = s := by
  rw [h.fst_give] at hfalse
  simp [step, Arena.give_of_not_isInUse hfalse]

theorem filter_ne_of_notMem {i : UInt16} {l : List UInt16} (h : i ∉ l) :
    l.filter (· ≠ i) = l := by
  rw [List.filter_eq_self]
  intro j hj
  exact decide_eq_true fun hji => h (hji ▸ hj)

/-- Without its head the free list has lost that index from the part that it headed, and the other
part did not have it. -/
theorem tail_eq_filter {i : UInt16} {rest front rear : List UInt16} (hnodup : (i :: rest).Nodup)
    (horder : i :: rest = front.eraseDups ++ rear) :
    rest = (front.filter (· ≠ i)).eraseDups ++ rear.filter (· ≠ i) := by
  cases front with
  | nil =>
      rw [List.eraseDups_nil, List.nil_append] at horder
      rw [← horder, List.filter_nil, List.eraseDups_nil, List.nil_append,
        List.filter_cons_of_neg (by simp), filter_ne_of_notMem hnodup.notMem]
  | cons j front =>
      rw [List.eraseDups_cons, List.cons_append, List.cons.injEq] at horder
      obtain ⟨rfl, hrest⟩ := horder
      have houtside : i ∉ rear := fun hi =>
        hnodup.notMem (hrest ▸ List.mem_append_right _ hi)
      rw [filter_ne_of_notMem houtside, List.filter_cons_of_neg (by simp), hrest]
      simp only [decide_not, ne_eq, Bool.beq_eq_decide_eq]

theorem stacked_fresh {a : Arena} (h : a.Bound slots slotSize) :
    (fresh a).Stacked slots slotSize := by
  obtain ⟨hvalid, base, rfl⟩ := h.exists_ofRegion
  have hwell : (Arena.ofRegion base slots slotSize).WellFormed := Arena.wellFormed_ofRegion hvalid
  refine ⟨hwell, rfl, rfl, fun i hi => hi, ?_, ?_⟩
  · intro i huse
    have hfree : i ∈ (Arena.ofRegion base slots slotSize).free :=
      hwell.mem_indices.mpr (hwell.lt_of_isInUse huse)
    exact absurd (huse.symm.trans ((hwell.mem_free i).mp hfree).2) Bool.false_ne_true.symm
  · show _ = _ ++ List.filter _ (Arena.ofRegion base slots slotSize).indices
    simp [fresh, returned, Arena.ofRegion, Arena.indices]

namespace Stacked

/-- The descriptor of the next index is taken, and the index leaves the free list. -/
theorem take (h : s.Stacked slots slotSize) (wanted : Nat) :
    (s.step (.take wanted)).Stacked slots slotSize := by
  by_cases hnone : (s.arena.take wanted).1 = none
  · rw [step_take_of_none h.wellFormed hnone]
    exact h
  rw [Arena.take_eq, ite_eq_left_iff, not_forall] at hnone
  obtain ⟨hwanted, hnone⟩ := hnone
  cases hfree : s.arena.free with
  | nil => simp [hfree] at hnone
  | cons i rest =>
      obtain ⟨hi, huse⟩ := h.wellFormed.not_isInUse_of_free hfree
      have hset := Arena.isInUse_set (h.wellFormed.size_inUse ▸ hi) true rest
      have hstep : s.step (.take wanted) =
          { s with
            arena := { s.arena with
              free := rest, inUse := s.arena.inUse.setIfInBounds i.toNat true }
            taken := i :: s.taken } := by
        simp [step, Arena.take, hwanted, hfree, Arena.descriptor_of_lt hi]
      have hreturned : (s.step (.take wanted)).returned = s.returned.filter (· ≠ i) := by
        rw [hstep, returned, returned, List.filter_filter]
        refine List.filter_congr fun j _ => ?_
        rw [hset]
        by_cases hij : i = j <;> simp [hij, eq_comm]
      have huntouched : (s.step (.take wanted)).untouched = s.untouched.filter (· ≠ i) := by
        rw [hstep, untouched, untouched, List.filter_filter]
        refine List.filter_congr fun j _ => ?_
        simp
      have hrest : rest = (s.step (.take wanted)).returned.eraseDups ++
          (s.step (.take wanted)).untouched := by
        rw [hreturned, huntouched]
        exact tail_eq_filter (hfree ▸ h.wellFormed.nodup_free) (hfree ▸ h.order)
      rw [hstep] at hrest ⊢
      refine ⟨h.wellFormed.take hfree, h.slots_eq, h.slotSize_eq, ?_, ?_, hrest⟩
      · intro j hj
        exact List.mem_cons_of_mem _ (h.given_taken j hj)
      · intro j hj
        rw [hset] at hj
        by_cases hij : i = j
        · exact hij ▸ List.mem_cons_self
        · rw [if_neg hij] at hj
          exact List.mem_cons_of_mem _ (h.inUse_taken j hj)

/-- The index that is given back heads the free list, wherever it stood among those given. -/
theorem give (h : s.Stacked slots slotSize) (buffer : NetworkBuffer) :
    (s.step (.give buffer)).Stacked slots slotSize := by
  by_cases huse : s.arena.isInUse buffer.index = true
  case neg =>
    have hfalse := (h.wellFormed.fst_give _).trans (Bool.not_eq_true _ |>.mp huse)
    rw [step_give_of_false h.wellFormed hfalse]
    exact h
  generalize hi : buffer.index = i at huse
  have hlt := h.wellFormed.lt_of_isInUse huse
  have hset := Arena.isInUse_set (h.wellFormed.size_inUse ▸ hlt) false (i :: s.arena.free)
  have hstep : s.step (.give buffer) =
      { s with
        arena := { s.arena with
          free := i :: s.arena.free, inUse := s.arena.inUse.setIfInBounds i.toNat false }
        given := i :: s.given } := by
    simp [step, hi, h.wellFormed.give_eq huse]
  have hreturned : (s.step (.give buffer)).returned.eraseDups = i :: s.returned.eraseDups := by
    rw [hstep, returned, List.filter_cons_of_pos (by simp [hset]), List.eraseDups_cons,
      List.filter_filter, returned]
    congr 2
    refine List.filter_congr fun j _ => ?_
    rw [hset]
    by_cases hij : i = j
    · simp [← hij, huse]
    · simp [hij, Ne.symm hij]
  have huntouched : (s.step (.give buffer)).untouched = s.untouched := by
    rw [hstep]
    rfl
  have horder : i :: s.arena.free =
      (s.step (.give buffer)).returned.eraseDups ++ (s.step (.give buffer)).untouched := by
    rw [hreturned, huntouched, h.order, List.cons_append]
  rw [hstep] at horder ⊢
  refine ⟨h.wellFormed.give hlt huse, h.slots_eq, h.slotSize_eq, ?_, ?_, horder⟩
  · intro j hj
    rcases List.mem_cons.mp hj with rfl | hj
    · exact h.inUse_taken _ huse
    · exact h.given_taken j hj
  · intro j hj
    rw [hset] at hj
    by_cases hij : i = j
    · simp [hij] at hj
    · rw [if_neg hij] at hj
      exact h.inUse_taken j hj

theorem step (h : s.Stacked slots slotSize) (call : ArenaCall) :
    (s.step call).Stacked slots slotSize := by
  cases call with
  | take wanted => exact h.take wanted
  | give buffer => exact h.give buffer

theorem run (h : s.Stacked slots slotSize) (calls : List ArenaCall) :
    (s.run calls).Stacked slots slotSize := by
  induction calls generalizing s with
  | nil => exact h
  | cons call calls ih => exact ih (h.step call)

end Stacked

def twoSlots : Arena := .ofRegion ⟨4096, by decide⟩ 2 64

end ArenaHistory

end XgmacDriver
