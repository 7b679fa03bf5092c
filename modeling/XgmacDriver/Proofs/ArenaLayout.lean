import XgmacDriver.Proofs.ArenaAllocator

/-! # How the descriptors of an arena lie

The slots of an arena divide its region, and the payload of a descriptor is its slot without the
padding in front. So the address of any byte in the region is enough to find the descriptor, which
no call on the arena changes.
-/

namespace XgmacDriver

/-- Whether a byte belongs to the payload. -/
def NetworkBuffer.Holds (buffer : NetworkBuffer) (addr : Addr) : Prop :=
  ∃ payload, buffer.payload = some payload ∧ payload.toNat ≤ addr.toNat ∧
    addr.toNat < payload.toNat + buffer.capacity

namespace Arena

theorem sameSlots_take (a : Arena) (wanted : Nat) : a.SameSlots (a.take wanted).2 := by
  unfold Arena.take
  split
  · exact .refl a
  · split
    · exact .refl a
    · exact ⟨rfl, rfl, rfl⟩

theorem sameSlots_give (a : Arena) (i : UInt16) : a.SameSlots (a.give i).2 := by
  unfold Arena.give
  split
  · dsimp only
    split
    · exact ⟨rfl, rfl, rfl⟩
    · exact ⟨rfl, rfl, rfl⟩
  · exact .refl a

namespace WellFormed

variable {a : Arena} {i j : Nat} {addr : Addr} {buffer buffer' : NetworkBuffer}

/-- A descriptor has the whole of its slot but the padding, and every byte of it leads back. -/
theorem exists_descriptor (h : a.WellFormed) (hi : i < a.slots) :
    ∃ buffer payload, a.descriptor (.ofNat i) = some buffer ∧ buffer.index.toNat = i ∧
      buffer.payload = some payload ∧
      payload.toNat = a.base.toNat + i * a.slotSize + bufferPadding ∧
      buffer.capacity = a.slotSize - bufferPadding ∧
      ∀ addr : Addr, payload.toNat - bufferPadding ≤ addr.toNat →
        addr.toNat < payload.toNat + buffer.capacity → a.lookup addr = some buffer := by
  have hpad := h.padding_lt
  have hsome := descriptor_of_lt (a := a) (i := .ofNat i) (by rwa [h.toNat_ofNat hi])
  have hstart : (a.payloadAt (.ofNat i)).toNat =
      a.base.toNat + i * a.slotSize + bufferPadding := by
    rw [payloadAt, Addr.toNat_add, h.toNat_ofNat hi, Nat.add_assoc]
  refine ⟨_, _, hsome, h.toNat_ofNat hi, rfl, hstart, rfl, ?_⟩
  intro addr hfrom hto
  rw [← hsome, h.lookup_eq_descriptor_iff hi, InSlot, Nat.succ_mul]
  simp only [payloadCapacity] at hto
  omega

theorem inSlot_of_holds (h : a.WellFormed) (hi : i < a.slots)
    (hbuffer : a.descriptor (.ofNat i) = some buffer) (hholds : buffer.Holds addr) :
    a.InSlot i addr := by
  obtain ⟨buffer', payload, hdescriptor, -, hpayload, -, -, hbytes⟩ := h.exists_descriptor hi
  obtain rfl : buffer = buffer' := Option.some.inj (hbuffer.symm.trans hdescriptor)
  obtain ⟨payload', hpayload', hfrom, hto⟩ := hholds
  obtain rfl : payload = payload' := Option.some.inj (hpayload.symm.trans hpayload')
  rw [← h.lookup_eq_descriptor_iff hi, hbuffer]
  exact hbytes addr (Nat.le_trans (Nat.sub_le ..) hfrom) hto

theorem eq_of_holds (h : a.WellFormed) (hi : i < a.slots) (hj : j < a.slots)
    (hbuffer : a.descriptor (.ofNat i) = some buffer)
    (hbuffer' : a.descriptor (.ofNat j) = some buffer') (hholds : buffer.Holds addr)
    (hholds' : buffer'.Holds addr) : i = j := by
  have hslot := (inSlot_iff_div h.slotSize_pos).mp (h.inSlot_of_holds hi hbuffer hholds)
  have hslot' := (inSlot_iff_div h.slotSize_pos).mp (h.inSlot_of_holds hj hbuffer' hholds')
  exact hslot.2.symm.trans hslot'.2

theorem toNat_slot (h : a.WellFormed)
    (hin : a.base.toNat ≤ addr.toNat ∧ addr.toNat < a.base.toNat + a.slots * a.slotSize) :
    (UInt16.ofNat ((addr.toNat - a.base.toNat) / a.slotSize)).toNat =
      (addr.toNat - a.base.toNat) / a.slotSize := by
  obtain ⟨i, hi, hslot⟩ := (h.exists_inSlot_iff addr).mpr hin
  rw [((inSlot_iff_div h.slotSize_pos).mp hslot).2, h.toNat_ofNat hi]

end WellFormed

end Arena

namespace ArenaHistory

theorem sameSlots_run (s : ArenaHistory) (calls : List ArenaCall) :
    s.arena.SameSlots (s.run calls).arena := by
  induction calls generalizing s with
  | nil => exact .refl _
  | cons call calls ih =>
      have hstep : s.arena.SameSlots (s.step call).arena := by
        cases call with
        | take wanted => exact s.arena.sameSlots_take wanted
        | give buffer => exact s.arena.sameSlots_give buffer.index
      exact hstep.trans (ih (s.step call))

variable {slots slotSize : Nat}

/-- An address leads to a descriptor exactly if it lies in its slot, and to none if it lies in no
slot. So every byte of a descriptor leads back to it, in the payload and in the padding. The
payloads lie in the region and have no byte in common, and the number of a slot is always one of
sixteen bits. -/
theorem run_lookup_layout {a : Arena} (hbound : a.Bound slots slotSize) (calls : List ArenaCall) :
    let arena := ((fresh a).run calls).arena
    let start := fun i => a.base.toNat + i * slotSize
    (∀ addr : Addr, ∀ i < slots, arena.lookup addr = arena.descriptor (.ofNat i) ↔
      start i ≤ addr.toNat ∧ addr.toNat < start (i + 1)) ∧
    (∀ addr : Addr, arena.lookup addr = none ↔
      ¬∃ i < slots, start i ≤ addr.toNat ∧ addr.toNat < start (i + 1)) ∧
    (∀ i < slots, ∃ buffer payload, arena.descriptor (.ofNat i) = some buffer ∧
      buffer.index.toNat = i ∧ buffer.payload = some payload ∧
      payload.toNat = start i + bufferPadding ∧ buffer.capacity = slotSize - bufferPadding ∧
      ∀ addr : Addr, payload.toNat - bufferPadding ≤ addr.toNat →
        addr.toNat < payload.toNat + buffer.capacity → arena.lookup addr = some buffer) ∧
    (∀ i < slots, ∀ buffer, arena.descriptor (.ofNat i) = some buffer →
      ∀ addr, buffer.Holds addr → a.base.toNat ≤ addr.toNat ∧ addr.toNat < start slots ∧
        ∀ j < slots, ∀ buffer', arena.descriptor (.ofNat j) = some buffer' →
          buffer'.Holds addr → i = j) ∧
    ∀ addr : Addr, a.base.toNat ≤ addr.toNat → addr.toNat < start slots →
      (UInt16.ofNat ((addr.toNat - a.base.toNat) / slotSize)).toNat =
        (addr.toNat - a.base.toNat) / slotSize := by
  intro arena
  have hstacked := (stacked_fresh hbound).run calls
  have hwell : arena.WellFormed := hstacked.wellFormed
  have hbase : a.base = arena.base := (sameSlots_run (fresh a) calls).base
  obtain rfl : arena.slots = slots := hstacked.slots_eq
  obtain rfl : arena.slotSize = slotSize := hstacked.slotSize_eq
  rw [hbase]
  intro start
  refine ⟨fun addr i hi => hwell.lookup_eq_descriptor_iff hi, fun addr => hwell.lookup_eq_none_iff,
    fun i hi => hwell.exists_descriptor hi, ?_, fun addr hfrom hto => hwell.toNat_slot ⟨hfrom, hto⟩⟩
  intro i hi buffer hbuffer addr hholds
  obtain ⟨hfrom, hto⟩ := (hwell.inSlot_of_holds hi hbuffer hholds).in_region hi
  refine ⟨hfrom, hto, ?_⟩
  intro j hj buffer' hbuffer' hholds'
  exact hwell.eq_of_holds hi hj hbuffer hbuffer' hholds hholds'

/-- As many slots as there can be, of the smallest size. -/
def crowdedArena : Arena := .ofRegion twoSlots.base 65535 11

theorem bound_crowdedArena : crowdedArena.Bound 65535 11 :=
  .allocated (show Arena.bind 65535 11 (fun _ => some twoSlots.base) = .ok crowdedArena from rfl)

/-- The last byte of the last slot but one, the first and the last byte of the last slot, and the
first byte after it. -/
theorem run_lookup_layout_last_slot :
    let arena := ((fresh crowdedArena).run [.take 1]).arena
    let lookup := fun n (h : 0 < n) => arena.lookup ⟨n, h⟩
    lookup 724969 (by decide) = arena.descriptor 65533 ∧
      lookup 724970 (by decide) = arena.descriptor 65534 ∧
      lookup 724980 (by decide) = arena.descriptor 65534 ∧ lookup 724981 (by decide) = none := by
  intro arena lookup
  obtain ⟨hfound, hnone, -⟩ := run_lookup_layout bound_crowdedArena [.take 1]
  have hbase : crowdedArena.base.toNat = 4096 := rfl
  refine ⟨(hfound _ 65533 (by decide)).mpr (by decide),
    (hfound _ 65534 (by decide)).mpr (by decide), (hfound _ 65534 (by decide)).mpr (by decide), ?_⟩
  apply (hnone _).mpr
  rintro ⟨i, hi, hfrom, hto⟩
  simp only [hbase] at hfrom hto
  omega

end ArenaHistory

end XgmacDriver
