import Mathlib.Data.List.Nodup
import XgmacDriver.Buffer.Arena

/-! # Who owns the buffers of an arena

In a well-formed arena the free list and the in-use flags tell the same story. `Partition` says of a
list of payload addresses that together with the free list it names every buffer exactly once.
Taking moves one buffer from the free list to that list, giving moves it back, and neither moves the
slots.
-/

namespace XgmacDriver.Arena

def indices (a : Arena) : List UInt16 := (List.range a.slots).map UInt16.ofNat

def payloadAt (a : Arena) (i : UInt16) : Addr :=
  a.base.add (i.toNat * a.slotSize + bufferPadding)

def payloads (a : Arena) : List Addr := a.indices.map a.payloadAt

def inUseCount (a : Arena) : Nat := a.indices.countP a.isInUse

structure WellFormed (a : Arena) : Prop where
  padding_lt : bufferPadding < a.slotSize
  slots_lt : a.slots < UInt16.size
  size_inUse : a.inUse.size = a.slots
  nodup_free : a.free.Nodup
  mem_free : ∀ i, i ∈ a.free ↔ i.toNat < a.slots ∧ a.isInUse i = false

structure Partition (a : Arena) (owned : List Addr) : Prop where
  wellFormed : a.WellFormed
  perm : (a.free.map a.payloadAt ++ owned).Perm a.payloads

structure SameSlots (a b : Arena) : Prop where
  base : a.base = b.base
  slots : a.slots = b.slots
  slotSize : a.slotSize = b.slotSize

theorem SameSlots.refl (a : Arena) : a.SameSlots a := ⟨rfl, rfl, rfl⟩

theorem SameSlots.trans {a b d : Arena} (h : a.SameSlots b) (h' : b.SameSlots d) : a.SameSlots d :=
  ⟨h.base.trans h'.base, h.slots.trans h'.slots, h.slotSize.trans h'.slotSize⟩

theorem SameSlots.payloadAt_eq {a b : Arena} (h : a.SameSlots b) : a.payloadAt = b.payloadAt := by
  funext i
  simp only [payloadAt, h.base, h.slotSize]

theorem SameSlots.descriptor_eq {a b : Arena} (h : a.SameSlots b) :
    a.descriptor = b.descriptor := by
  funext i
  simp only [descriptor, payloadCapacity, h.base, h.slots, h.slotSize]

theorem SameSlots.lookup_eq {a b : Arena} (h : a.SameSlots b) : a.lookup = b.lookup := by
  funext p
  simp only [lookup, h.base, h.slots, h.slotSize, h.descriptor_eq]

theorem toNat_ofNat_of_lt {n : Nat} (h : n < UInt16.size) : (UInt16.ofNat n).toNat = n :=
  UInt16.toNat_ofNat_of_lt' h

theorem mem_indices_of_lt {a : Arena} (h : a.slots < UInt16.size) {i : UInt16} :
    i ∈ a.indices ↔ i.toNat < a.slots := by
  simp only [indices, List.mem_map, List.mem_range]
  constructor
  · rintro ⟨n, hn, rfl⟩
    rwa [toNat_ofNat_of_lt (Nat.lt_trans hn h)]
  · intro hi
    exact ⟨i.toNat, hi, UInt16.ofNat_toNat⟩

theorem nodup_indices_of_lt {a : Arena} (h : a.slots < UInt16.size) : a.indices.Nodup := by
  refine List.Nodup.map_on ?_ List.nodup_range
  intro m hm n hn heq
  have hm := Nat.lt_trans (List.mem_range.mp hm) h
  have hn := Nat.lt_trans (List.mem_range.mp hn) h
  rw [← toNat_ofNat_of_lt hm, heq, toNat_ofNat_of_lt hn]

theorem WellFormed.mem_indices {a : Arena} (h : a.WellFormed) {i : UInt16} :
    i ∈ a.indices ↔ i.toNat < a.slots :=
  mem_indices_of_lt h.slots_lt

theorem WellFormed.payloadAt_inj {a : Arena} (h : a.WellFormed) {i j : UInt16} :
    a.payloadAt i = a.payloadAt j ↔ i = j := by
  have hpos : 0 < a.slotSize := Nat.zero_lt_of_lt h.padding_lt
  constructor
  · intro heq
    have hnat := congrArg Addr.toNat heq
    simp only [payloadAt, Addr.toNat_add] at hnat
    exact UInt16.toNat_inj.mp (Nat.eq_of_mul_eq_mul_right hpos (by omega))
  · rintro rfl
    rfl

theorem WellFormed.nodup_payloads {a : Arena} (h : a.WellFormed) : a.payloads.Nodup :=
  (nodup_indices_of_lt h.slots_lt).map fun _ _ heq => h.payloadAt_inj.mp heq

def InSlot (a : Arena) (i : Nat) (addr : Addr) : Prop :=
  a.base.toNat + i * a.slotSize ≤ addr.toNat ∧ addr.toNat < a.base.toNat + (i + 1) * a.slotSize

theorem inSlot_iff_div {a : Arena} (hpos : 0 < a.slotSize) {i : Nat} {addr : Addr} :
    a.InSlot i addr ↔
      a.base.toNat ≤ addr.toNat ∧ (addr.toNat - a.base.toNat) / a.slotSize = i := by
  rw [InSlot, Nat.succ_mul, Nat.div_eq_iff hpos]
  omega

theorem InSlot.in_region {a : Arena} {i : Nat} {addr : Addr} (h : a.InSlot i addr)
    (hi : i < a.slots) :
    a.base.toNat ≤ addr.toNat ∧ addr.toNat < a.base.toNat + a.slots * a.slotSize := by
  have hend : (i + 1) * a.slotSize ≤ a.slots * a.slotSize := Nat.mul_le_mul_right _ hi
  obtain ⟨hstart, hbefore⟩ := h
  omega

theorem descriptor_of_lt {a : Arena} {i : UInt16} (hi : i.toNat < a.slots) :
    a.descriptor i = some {
      index := i, payload := some (a.payloadAt i), capacity := a.payloadCapacity } :=
  if_pos hi

theorem index_of_descriptor {a : Arena} {i : UInt16} {buffer : NetworkBuffer}
    (h : a.descriptor i = some buffer) : buffer.index = i := by
  unfold descriptor at h
  split at h
  · cases h
    rfl
  · cases h

namespace WellFormed

variable {a : Arena} {i : Nat} {addr : Addr}

theorem slotSize_pos (h : a.WellFormed) : 0 < a.slotSize := Nat.zero_lt_of_lt h.padding_lt

theorem toNat_ofNat (h : a.WellFormed) (hi : i < a.slots) : (UInt16.ofNat i).toNat = i :=
  toNat_ofNat_of_lt (Nat.lt_trans hi h.slots_lt)

theorem exists_inSlot_iff (h : a.WellFormed) (addr : Addr) :
    (∃ i < a.slots, a.InSlot i addr) ↔
      a.base.toNat ≤ addr.toNat ∧ addr.toNat < a.base.toNat + a.slots * a.slotSize := by
  constructor
  · rintro ⟨i, hi, hslot⟩
    exact hslot.in_region hi
  · rintro ⟨hstart, hend⟩
    have hslot := (inSlot_iff_div h.slotSize_pos).mpr ⟨hstart, rfl⟩
    refine ⟨_, ?_, hslot⟩
    rw [Nat.div_lt_iff_lt_mul h.slotSize_pos]
    omega

theorem lookup_of_inSlot (h : a.WellFormed) (hi : i < a.slots) (hslot : a.InSlot i addr) :
    a.lookup addr = a.descriptor (.ofNat i) := by
  obtain ⟨hstart, hend⟩ := hslot.in_region hi
  have hin : ¬(addr.toNat < a.base.toNat ∨ a.base.toNat + a.slots * a.slotSize ≤ addr.toNat) := by
    omega
  rw [lookup, if_neg hin, ((inSlot_iff_div h.slotSize_pos).mp hslot).2]

theorem lookup_eq_none_iff (h : a.WellFormed) :
    a.lookup addr = none ↔ ¬∃ i < a.slots, a.InSlot i addr := by
  constructor
  · rintro hnone ⟨i, hi, hslot⟩
    have hsome := descriptor_of_lt (a := a) (i := .ofNat i) (by rwa [h.toNat_ofNat hi])
    rw [h.lookup_of_inSlot hi hslot, hsome] at hnone
    cases hnone
  · intro hnowhere
    rw [h.exists_inSlot_iff] at hnowhere
    rw [lookup, if_pos (by omega)]

theorem lookup_eq_descriptor_iff (h : a.WellFormed) (hi : i < a.slots) :
    a.lookup addr = a.descriptor (.ofNat i) ↔ a.InSlot i addr := by
  constructor
  · intro hlookup
    have hsome := descriptor_of_lt (a := a) (i := .ofNat i) (by rwa [h.toNat_ofNat hi])
    have hfound : ∃ j < a.slots, a.InSlot j addr := by
      by_contra hnone
      rw [← h.lookup_eq_none_iff, hlookup, hsome] at hnone
      cases hnone
    obtain ⟨j, hj, hslot⟩ := hfound
    rw [h.lookup_of_inSlot hj hslot, hsome] at hlookup
    have hindex := congrArg UInt16.toNat (index_of_descriptor hlookup)
    rw [h.toNat_ofNat hi, h.toNat_ofNat hj] at hindex
    rwa [hindex]
  · exact h.lookup_of_inSlot hi

end WellFormed

theorem WellFormed.inSlot_payloadAt {a : Arena} (h : a.WellFormed) (i : UInt16) :
    a.InSlot i.toNat (a.payloadAt i) := by
  have hpad := h.padding_lt
  rw [InSlot, payloadAt, Addr.toNat_add, Nat.succ_mul]
  omega

theorem WellFormed.lookup_payloadAt {a : Arena} (h : a.WellFormed) {i : UInt16}
    (hi : i.toNat < a.slots) : a.lookup (a.payloadAt i) = a.descriptor i := by
  rw [h.lookup_of_inSlot hi (h.inSlot_payloadAt i), UInt16.ofNat_toNat]

theorem WellFormed.lt_of_isInUse {a : Arena} (h : a.WellFormed) {i : UInt16}
    (hi : a.isInUse i = true) : i.toNat < a.slots := by
  by_contra hlt
  have hout : a.inUse.size ≤ i.toNat := by
    rw [h.size_inUse]
    exact Nat.not_lt.mp hlt
  rw [isInUse, Array.getD_eq_getD_getElem?, Array.getElem?_eq_none hout] at hi
  cases hi

theorem WellFormed.available_add_inUseCount {a : Arena} (h : a.WellFormed) :
    a.available + a.inUseCount = a.slots := by
  have hperm : a.free.Perm (a.indices.filter fun i => !a.isInUse i) := by
    apply (List.perm_ext_iff_of_nodup h.nodup_free ?_).mpr
    · intro i
      rw [h.mem_free, List.mem_filter, h.mem_indices, Bool.not_eq_true']
    · exact (nodup_indices_of_lt h.slots_lt).filter _
  have hlength : a.indices.length = a.slots := by simp [indices]
  have hsplit : a.indices.length =
      a.indices.countP a.isInUse + a.indices.countP fun i => decide ¬a.isInUse i = true :=
    List.length_eq_countP_add_countP a.isInUse
  have havailable : a.available = a.indices.countP fun i => !a.isInUse i := by
    rw [available, hperm.length_eq, List.countP_eq_length_filter]
  have hnot : (fun i => decide ¬a.isInUse i = true) = fun i => !a.isInUse i := by
    funext i
    cases a.isInUse i <;> rfl
  rw [hlength, hnot] at hsplit
  rw [havailable, inUseCount]
  omega

/-- The free list has room for whatever is in use. -/
theorem WellFormed.length_free_lt {a : Arena} {i : UInt16} (h : a.WellFormed)
    (huse : a.isInUse i = true) : a.free.length < a.slots := by
  have hmem : i ∈ a.indices := h.mem_indices.mpr (h.lt_of_isInUse huse)
  have hcount : 0 < a.inUseCount := List.countP_pos_iff.mpr ⟨i, hmem, huse⟩
  have hall : a.free.length + a.inUseCount = a.slots := h.available_add_inUseCount
  omega

theorem WellFormed.give_eq {a : Arena} {i : UInt16} (h : a.WellFormed)
    (huse : a.isInUse i = true) :
    a.give i =
      (true, { a with free := i :: a.free, inUse := a.inUse.setIfInBounds i.toNat false }) := by
  rw [Arena.give, if_pos huse]
  exact if_pos (h.length_free_lt huse)

theorem WellFormed.fst_give {a : Arena} (h : a.WellFormed) (i : UInt16) :
    (a.give i).1 = a.isInUse i := by
  cases huse : a.isInUse i with
  | false => rw [give_of_not_isInUse huse]
  | true => rw [h.give_eq huse]

theorem isInUse_set {a : Arena} {i : UInt16} (hi : i.toNat < a.inUse.size) (v : Bool)
    (free : List UInt16) (j : UInt16) :
    isInUse { a with free, inUse := a.inUse.setIfInBounds i.toNat v } j =
      if i = j then v else a.isInUse j := by
  by_cases h : i = j
  · subst h
    simp [isInUse, hi]
  · have hne : i.toNat ≠ j.toNat := fun heq => h (UInt16.toNat_inj.mp heq)
    simp [isInUse, h, hne, Array.getElem?_setIfInBounds_ne]

theorem wellFormed_ofRegion {base : Addr} {slots slotSize : Nat}
    (h : validGeometry slots slotSize = true) : (ofRegion base slots slotSize).WellFormed := by
  obtain ⟨⟨hpad, -⟩, hslots⟩ : (bufferPadding < slotSize ∧ 0 < slots) ∧ slots < UInt16.size := by
    simpa [validGeometry] using h
  have hindices : (ofRegion base slots slotSize).indices.Nodup := nodup_indices_of_lt hslots
  refine ⟨hpad, hslots, by simp [ofRegion], hindices, ?_⟩
  intro i
  have hmem : i ∈ (ofRegion base slots slotSize).indices ↔ i.toNat < slots :=
    mem_indices_of_lt hslots
  have hflag : (ofRegion base slots slotSize).isInUse i = false := by
    simp only [isInUse, ofRegion, Array.getD_eq_getD_getElem?, Array.getElem?_replicate]
    split <;> rfl
  rw [hflag]
  exact hmem.trans (and_iff_left rfl).symm

theorem partition_ofRegion {base : Addr} {slots slotSize : Nat}
    (h : validGeometry slots slotSize = true) : (ofRegion base slots slotSize).Partition [] :=
  ⟨wellFormed_ofRegion h, by rw [List.append_nil]; rfl⟩

theorem WellFormed.take {a : Arena} {i : UInt16} {rest : List UInt16} (h : a.WellFormed)
    (hfree : a.free = i :: rest) :
    WellFormed { a with free := rest, inUse := a.inUse.setIfInBounds i.toNat true } := by
  obtain ⟨hlt, -⟩ := (h.mem_free i).mp (hfree ▸ List.mem_cons_self)
  have hnodup : (i :: rest).Nodup := hfree ▸ h.nodup_free
  refine ⟨h.padding_lt, h.slots_lt, by simpa using h.size_inUse, hnodup.of_cons, ?_⟩
  intro j
  rw [isInUse_set (h.size_inUse ▸ hlt)]
  have hj := h.mem_free j
  rw [hfree, List.mem_cons] at hj
  by_cases hij : i = j
  · subst hij
    simpa using hnodup.notMem
  · simpa [hij, Ne.symm hij] using hj

theorem WellFormed.give {a : Arena} {i : UInt16} (h : a.WellFormed) (hlt : i.toNat < a.slots)
    (huse : a.isInUse i = true) :
    WellFormed { a with free := i :: a.free, inUse := a.inUse.setIfInBounds i.toNat false } := by
  have hnot : i ∉ a.free := by
    intro hi
    simpa [huse] using (h.mem_free i).mp hi
  refine ⟨h.padding_lt, h.slots_lt, by simpa using h.size_inUse,
    List.nodup_cons.mpr ⟨hnot, h.nodup_free⟩, ?_⟩
  intro j
  rw [isInUse_set (h.size_inUse ▸ hlt), List.mem_cons]
  by_cases hij : i = j
  · subst hij
    simpa using hlt
  · simpa [hij, Ne.symm hij] using h.mem_free j

theorem Partition.nodup {a : Arena} {owned : List Addr} (h : a.Partition owned) :
    (a.free.map a.payloadAt ++ owned).Nodup :=
  h.perm.nodup_iff.mpr h.wellFormed.nodup_payloads

theorem Partition.mem_owned {a : Arena} {owned : List Addr} {p : Addr} (h : a.Partition owned)
    (hp : p ∈ owned) :
    ∃ i, p = a.payloadAt i ∧ i.toNat < a.slots ∧ a.isInUse i = true := by
  have hmem : p ∈ a.payloads := h.perm.mem_iff.mp (List.mem_append_right _ hp)
  obtain ⟨i, hi, rfl⟩ := List.mem_map.mp hmem
  have hlt := h.wellFormed.mem_indices.mp hi
  refine ⟨i, rfl, hlt, ?_⟩
  by_contra huse
  have hfree : i ∈ a.free := (h.wellFormed.mem_free i).mpr ⟨hlt, by simpa using huse⟩
  exact (List.nodup_append.mp h.nodup).2.2 _ (List.mem_map_of_mem hfree) _ hp rfl

/-- A buffer that is taken comes off the free list and belongs to whoever took it. -/
theorem Partition.take {a b : Arena} {owned : List Addr} {buffer : NetworkBuffer}
    (h : a.Partition owned) (wanted : Nat) (htake : a.take wanted = (some buffer, b)) :
    a.SameSlots b ∧ b.Partition (a.payloadAt buffer.index :: owned) ∧
      buffer.payload = some (a.payloadAt buffer.index) := by
  unfold Arena.take at htake
  split at htake
  · cases htake
  · split at htake
    · cases htake
    · rename_i i rest hfree
      obtain ⟨hlt, -⟩ := (h.wellFormed.mem_free i).mp (hfree ▸ List.mem_cons_self)
      rw [descriptor_of_lt hlt] at htake
      cases htake
      refine ⟨⟨rfl, rfl, rfl⟩, ⟨h.wellFormed.take hfree, ?_⟩, rfl⟩
      refine List.Perm.trans ?_ h.perm
      rw [hfree]
      exact List.perm_middle

theorem take_eq_none {a b : Arena} {wanted : Nat} (h : a.WellFormed)
    (htake : a.take wanted = (none, b)) : b = a := by
  unfold Arena.take at htake
  split at htake
  · exact (Prod.mk.inj htake).2.symm
  · split at htake
    · exact (Prod.mk.inj htake).2.symm
    · rename_i i rest hfree
      obtain ⟨hlt, -⟩ := (h.mem_free i).mp (hfree ▸ List.mem_cons_self)
      rw [descriptor_of_lt hlt] at htake
      cases htake

/-- The buffer of an owner is accepted when it is given back, and it is free afterwards. -/
theorem Partition.give {a : Arena} {owned : List Addr} {i : UInt16}
    (h : a.Partition (a.payloadAt i :: owned)) :
    ∃ b, a.give i = (true, b) ∧ a.SameSlots b ∧ b.Partition owned := by
  obtain ⟨j, heq, hlt, huse⟩ := h.mem_owned List.mem_cons_self
  obtain rfl := h.wellFormed.payloadAt_inj.mp heq
  refine ⟨_, h.wellFormed.give_eq huse, ⟨rfl, rfl, rfl⟩, h.wellFormed.give hlt huse, ?_⟩
  exact List.perm_middle.symm.trans h.perm

theorem Partition.lookup {a : Arena} {owned : List Addr} {p : Addr} (h : a.Partition owned)
    (hp : p ∈ owned) :
    ∃ buffer, a.lookup p = some buffer ∧ a.payloadAt buffer.index = p := by
  obtain ⟨i, rfl, hlt, -⟩ := h.mem_owned hp
  exact ⟨_, (h.wellFormed.lookup_payloadAt hlt).trans (descriptor_of_lt hlt), rfl⟩

theorem Partition.congr {a : Arena} {owned owned' : List Addr} (h : a.Partition owned)
    (hperm : owned.Perm owned') : a.Partition owned' :=
  ⟨h.wellFormed, (hperm.symm.append_left _).trans h.perm⟩

end XgmacDriver.Arena
