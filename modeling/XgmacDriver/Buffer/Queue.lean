import Mathlib.Data.List.Basic
import XgmacDriver.Buffer.Ring

/-! # A ring as a queue

The buffers in place, from the head on, are a queue: taking removes its first element and giving
adds one at its end. This holds as long as head, tail and count agree on which places are filled,
and both operations keep that agreement.
-/

namespace XgmacDriver.Ring

theorem add_mod_eq {n h k : Nat} (hh : h < n) (hk : k ≤ n) :
    (h + k) % n = if h + k < n then h + k else h + k - n := by
  split
  · exact Nat.mod_eq_of_lt ‹_›
  · rw [Nat.mod_eq_sub_mod (by omega)]
    exact Nat.mod_eq_of_lt (by omega)

theorem add_mod_inj {n h i j : Nat} (hh : h < n) (hi : i < n) (hj : j < n) :
    (h + i) % n = (h + j) % n ↔ i = j := by
  rw [add_mod_eq hh (Nat.le_of_lt hi), add_mod_eq hh (Nat.le_of_lt hj)]
  constructor
  · intro h
    split at h <;> split at h <;> omega
  · rintro rfl
    rfl

/-- What is in the place `k` steps after the head. -/
def place (r : Ring) (k : Nat) : Option Addr := (r.places[(r.head + k) % r.capacity]?).join

/-- The buffers in place, in the order in which they will be handed out. -/
def queue (r : Ring) : List Addr := (List.range (r.capacity - r.used)).filterMap r.place

/-- Head, tail and count agree, and every place between head and tail is filled. -/
structure WellFormed (r : Ring) : Prop where
  head_lt : r.head < r.capacity
  used_le : r.used ≤ r.capacity
  tail_eq : r.tail = (r.head + (r.capacity - r.used)) % r.capacity
  filled : ∀ k < r.capacity - r.used, ∃ a, r.place k = some a

theorem place_full {buffers : Array Addr} {k : Nat} (hk : k < buffers.size) :
    (full buffers).place k = some buffers[k] := by
  simp [place, full, capacity, Nat.mod_eq_of_lt hk, hk]

theorem wellFormed_full {buffers : Array Addr} (h : 0 < buffers.size) :
    (full buffers).WellFormed where
  head_lt := by simpa [full, capacity] using h
  used_le := Nat.zero_le _
  tail_eq := by simp [full]
  filled k hk := ⟨_, place_full (by simpa [full, capacity] using hk)⟩

theorem queue_full (buffers : Array Addr) : (full buffers).queue = buffers.toList := by
  have hused : (full buffers).used = 0 := rfl
  rw [queue, capacity_full, hused, Nat.sub_zero]
  apply List.ext_getElem?
  intro i
  have hmap : (List.range buffers.size).filterMap (full buffers).place =
      (List.range buffers.size).map fun k => buffers.getD k ⟨1, Nat.one_pos⟩ := by
    rw [← List.filterMap_eq_map]
    apply List.filterMap_congr
    intro k hk
    have hk := List.mem_range.mp hk
    simp [place_full hk, hk]
  rw [hmap]
  by_cases hi : i < buffers.size <;> simp [hi]

@[simp] theorem length_queue {r : Ring} (h : r.WellFormed) :
    r.queue.length = r.capacity - r.used := by
  have hmap : r.queue = (List.range (r.capacity - r.used)).map
      fun k => (r.place k).getD ⟨1, Nat.one_pos⟩ := by
    rw [queue, ← List.filterMap_eq_map]
    apply List.filterMap_congr
    intro k hk
    obtain ⟨a, ha⟩ := h.filled k (List.mem_range.mp hk)
    simp [ha]
  rw [hmap]
  simp

theorem after_add_mod (r : Ring) (i k : Nat) :
    (r.after i + k) % r.capacity = (i + (k + 1)) % r.capacity := by
  rw [after, Nat.mod_add_mod, Nat.add_assoc, Nat.add_comm 1 k]

theorem place_zero {r : Ring} (h : r.WellFormed) : r.place 0 = r.places[r.head]?.join := by
  rw [place, Nat.add_zero, Nat.mod_eq_of_lt h.head_lt]

variable {r s : Ring} {a : Addr} {k : Nat}

/-- Once the head is handed out, every other place is one step nearer. -/
theorem place_of_take (h : r.WellFormed) (htake : r.take = some (a, s))
    (hk : k + 1 < r.capacity) : s.place k = r.place (k + 1) := by
  have hne : r.head ≠ (r.head + (k + 1)) % r.capacity := by
    intro heq
    have hzero : 0 = k + 1 := (add_mod_inj h.head_lt (Nat.zero_lt_of_lt hk) hk).mp
      (by simpa [Nat.mod_eq_of_lt h.head_lt] using heq)
    cases hzero
  rw [place, place, capacity_of_take htake]
  obtain ⟨-, rfl⟩ := take_eq_some_iff.mp htake
  rw [after_add_mod, Array.getElem?_setIfInBounds_ne hne]

theorem queue_eq_cons (ha : r.place 0 = some a)
    (hcount : r.capacity - r.used = s.capacity - s.used + 1)
    (hplace : ∀ k < s.capacity - s.used, s.place k = r.place (k + 1)) :
    r.queue = a :: s.queue := by
  rw [queue, hcount, List.range_succ_eq_map, List.filterMap_cons_some ha, queue,
    List.filterMap_map]
  refine congrArg (a :: ·) (List.filterMap_congr fun k hk => ?_)
  exact (hplace k (List.mem_range.mp hk)).symm

theorem take_of_lt (h : r.WellFormed) (hlt : r.used < r.capacity) :
    ∃ a s, r.take = some (a, s) ∧ r.queue = a :: s.queue ∧ s.WellFormed ∧
      s.used = r.used + 1 ∧ s.capacity = r.capacity := by
  obtain ⟨a, ha⟩ := h.filled 0 (by omega)
  obtain ⟨s, htake⟩ : ∃ s, r.take = some (a, s) := by
    rw [place_zero h, Option.join_eq_some_iff] at ha
    exact ⟨_, take_eq_some_iff.mpr ⟨ha, rfl⟩⟩
  have hcapacity := capacity_of_take htake
  have hused := used_of_take htake
  have hcount : r.capacity - r.used = s.capacity - s.used + 1 := by omega
  have hplace : ∀ k < s.capacity - s.used, s.place k = r.place (k + 1) :=
    fun k hk => place_of_take h htake (by omega)
  refine ⟨a, s, htake, queue_eq_cons ha hcount hplace, ⟨?_, ?_, ?_, ?_⟩, hused, hcapacity⟩
  · rw [hcapacity, (take_eq_some_iff.mp htake).2]
    exact Nat.mod_lt _ (Nat.zero_lt_of_lt hlt)
  · omega
  · have htail : s.tail = r.tail := by rw [(take_eq_some_iff.mp htake).2]
    have hhead : s.head = r.after r.head := by rw [(take_eq_some_iff.mp htake).2]
    rw [htail, hhead, h.tail_eq, hcapacity, after_add_mod, hcount, hcapacity]
  · intro k hk
    rw [hplace k hk]
    exact h.filled (k + 1) (by omega)

theorem queue_of_take (h : r.WellFormed) (hleft : r.used ≠ r.capacity)
    (htake : r.take = some (a, s)) : r.queue = a :: s.queue ∧ s.WellFormed := by
  obtain ⟨a', s', htake', hqueue, hs, -⟩ := take_of_lt h (Nat.lt_of_le_of_ne h.used_le hleft)
  obtain ⟨rfl, rfl⟩ := Prod.mk.inj (Option.some.inj (htake.symm.trans htake'))
  exact ⟨hqueue, hs⟩

theorem place_give_of_lt (h : r.WellFormed) (hpos : 0 < r.used) (a : Addr)
    (hk : k < r.capacity - r.used) : (r.give a).place k = r.place k := by
  have hused := h.used_le
  have hne : r.tail ≠ (r.head + k) % r.capacity := by
    rw [h.tail_eq]
    intro heq
    have hsame := (add_mod_inj h.head_lt (by omega) (by omega)).mp heq
    omega
  rw [place, place, capacity_give]
  show ((r.places.setIfInBounds r.tail (some a))[(r.head + k) % r.capacity]?).join = _
  rw [Array.getElem?_setIfInBounds_ne hne]

theorem place_give_self (h : r.WellFormed) (a : Addr) :
    (r.give a).place (r.capacity - r.used) = some a := by
  have htail : r.tail < r.places.size := by
    rw [h.tail_eq]
    exact Nat.mod_lt _ (Nat.zero_lt_of_lt h.head_lt)
  rw [place, capacity_give]
  show ((r.places.setIfInBounds r.tail (some a))[(r.head + _) % r.capacity]?).join = _
  rw [← h.tail_eq, Array.getElem?_setIfInBounds_self_of_lt htail]
  rfl

theorem queue_eq_append (hnew : s.place (r.capacity - r.used) = some a)
    (hcount : s.capacity - s.used = r.capacity - r.used + 1)
    (hold : ∀ k < r.capacity - r.used, s.place k = r.place k) : s.queue = r.queue ++ [a] := by
  rw [queue, hcount, List.range_succ, List.filterMap_append, queue]
  congr 1
  · exact List.filterMap_congr fun k hk => hold k (List.mem_range.mp hk)
  · simp [hnew]

theorem give_of_pos (h : r.WellFormed) (hpos : 0 < r.used) (a : Addr) :
    (r.give a).queue = r.queue ++ [a] ∧ (r.give a).WellFormed ∧
      (r.give a).used = r.used - 1 := by
  have hle := h.used_le
  have hcapacity := capacity_give r a
  have hused : (r.give a).used = r.used - 1 := rfl
  have hcount : (r.give a).capacity - (r.give a).used = r.capacity - r.used + 1 := by omega
  have hold : ∀ k < r.capacity - r.used, (r.give a).place k = r.place k :=
    fun k hk => place_give_of_lt h hpos a hk
  have hnew := place_give_self h a
  refine ⟨queue_eq_append hnew hcount hold, ⟨?_, ?_, ?_, ?_⟩, hused⟩
  · rw [hcapacity]
    exact h.head_lt
  · omega
  · have htail : (r.give a).tail = r.after r.tail := rfl
    have hhead : (r.give a).head = r.head := rfl
    rw [htail, hhead, hcount, hcapacity, after, h.tail_eq, Nat.mod_add_mod, Nat.add_assoc]
  · intro k hk
    rw [hcount] at hk
    by_cases hlast : k = r.capacity - r.used
    · exact ⟨a, hlast ▸ hnew⟩
    · rw [hold k (by omega)]
      exact h.filled k (by omega)

end XgmacDriver.Ring
