import XgmacDriver.Proofs.ArenaLayout
import XgmacDriver.Proofs.SlotContents

/-! # Which regions are refused

The size of a region is the product of the number of its slots and the size of one. A product that
is a word is settled: there is a region with room for every slot, or the call is refused and can be
made again. The creation of a pool and the binding of an arena halt on every larger product, and a
pool is lost with it; binding memory that was set aside at boot refuses it.
-/

namespace XgmacDriver

namespace Region

/-- An allocator that hands out as many bytes as it is asked for, or nothing. -/
def Grants (allocate : Nat → Option Addr) : Prop :=
  ∀ size base, allocate size = some base → base.toNat + size ≤ Word.bound

/-- The call returns, and nothing but a lack of memory keeps it from a result. -/
def Settled {α : Type} (r : Except Failure α) : Prop :=
  (∃ a, r = .ok a) ∨ r = .error (.error .poolAllocationFailed)

theorem settled_ok {α : Type} {a : α} : Settled (.ok a : Except Failure α) := Or.inl ⟨a, rfl⟩

theorem settled_refused {α : Type} :
    Settled (.error (.error .poolAllocationFailed) : Except Failure α) := Or.inr rfl

theorem not_settled_halt {α : Type} {h : Halt} :
    ¬Settled (.error (.halt h) : Except Failure α) := by
  simp [Settled]

/-- The slots that start here lie in the `size` bytes at `base`, one after the other. -/
structure Slotted (base : Addr) (size slotSize : Nat) (starts : List Addr) : Prop where
  base_le : ∀ a ∈ starts, base.toNat ≤ a.toNat
  le_end : ∀ a ∈ starts, a.toNat + slotSize ≤ base.toNat + size
  apart : starts.Pairwise fun a b => a.toNat + slotSize ≤ b.toNat

theorem slotted_stride (base : Addr) {n slotSize size : Nat} (h : n * slotSize ≤ size) :
    Slotted base size slotSize ((List.range n).map fun i => base.add (i * slotSize)) where
  base_le := by
    simp only [List.mem_map, List.mem_range]
    rintro a ⟨i, -, rfl⟩
    exact Nat.le_add_right ..
  le_end := by
    simp only [List.mem_map, List.mem_range]
    rintro a ⟨i, hi, rfl⟩
    have hslot : (i + 1) * slotSize ≤ n * slotSize := Nat.mul_le_mul_right _ hi
    rw [Nat.succ_mul] at hslot
    rw [Addr.toNat_add]
    omega
  apart := by
    rw [List.pairwise_map]
    refine List.pairwise_lt_range.imp fun {i j} hij => ?_
    have hslot : (i + 1) * slotSize ≤ j * slotSize := Nat.mul_le_mul_right _ hij
    rw [Nat.succ_mul] at hslot
    rw [Addr.toNat_add, Addr.toNat_add]
    omega

end Region

open Region

/-! ## The creation of a pool -/

namespace Pool

/-- A pool with a region has room there for all of its slots, and only a pool whose region can have
no size is lost. -/
structure Measured (n slotSize : Nat) (p : Pool) : Prop where
  capacity_eq : p.capacity = n
  slotSize_eq : p.slotSize = slotSize
  le_bound : ∀ base, p.backing = .ready base → base.toNat + n * slotSize ≤ Word.bound
  bound_le : p.backing = .poisoned → Word.bound ≤ n * slotSize

variable {p : Pool} {n slotSize : Nat} {ring : Ring} {base : Addr} {allocate : Nat → Option Addr}

theorem measured_new (name : String) (n slotSize : Nat) :
    (new name n slotSize).Measured n slotSize :=
  ⟨Ring.capacity_vacant n, rfl, nofun, nofun⟩

namespace Measured

theorem creation (h : p.Measured n slotSize) (allocate : Nat → Option Addr) :
    p.Creation (n * slotSize) allocate (p.create allocate) := by
  rw [← h.capacity_eq, ← h.slotSize_eq]
  exact p.creation allocate

theorem slotted (h : p.Measured n slotSize) (base : Addr) :
    Slotted base (n * slotSize) slotSize (p.slotStarts base).toList := by
  rw [toList_slotStarts, h.capacity_eq, h.slotSize_eq]
  exact slotted_stride base (Nat.le_refl _)

/-- The region of a pool starts above zero, so its size is a word. -/
theorem lt_bound (h : p.Measured n slotSize) (hready : p.isInitialized = true) :
    n * slotSize < Word.bound := by
  obtain ⟨base, hbacking⟩ := isInitialized_iff.mp hready
  have hend := h.le_bound base hbacking
  have hpos := base.toNat_pos
  omega

theorem withRing (h : p.Measured n slotSize) (hcapacity : ring.capacity = p.ring.capacity) :
    Measured n slotSize { p with ring } :=
  ⟨hcapacity.trans h.capacity_eq, h.slotSize_eq, h.le_bound, h.bound_le⟩

theorem acquire (h : p.Measured n slotSize) (wanted : Nat) (lock : Lock) (clock : Clock)
    (memory : Memory) : (p.acquire wanted lock clock memory).pool.Measured n slotSize := by
  obtain ⟨-, ⟨-, hpool⟩ | ⟨a, ring, -, hpool, -, htake⟩⟩ := acquire_cases p wanted lock clock memory
  · rw [hpool]
    exact h
  · rw [hpool]
    exact h.withRing (Ring.capacity_of_take htake)

theorem release (h : p.Measured n slotSize) (a : Addr) (lock : Lock) (clock : Clock)
    (memory : Memory) : (p.release a lock clock memory).pool.Measured n slotSize := by
  obtain ⟨-, hpool, -⟩ | ⟨-, hpool, -⟩ := release_cases p a lock clock memory
  · rw [hpool]
    exact h
  · rw [hpool]
    exact h.withRing (Ring.capacity_give ..)

theorem create (h : p.Measured n slotSize) (hgrants : Grants allocate) :
    (p.create allocate).2.Measured n slotSize := by
  have hcreation := h.creation allocate
  generalize p.create allocate = r at hcreation
  cases hcreation with
  | done => exact h
  | lost => exact h
  | tooLarge _ hlarge => exact ⟨h.capacity_eq, h.slotSize_eq, nofun, fun _ => hlarge⟩
  | refused => exact h
  | @allocated base _ _ hregion =>
      have hcapacity : (p.slotStarts base).size = n := by rw [size_slotStarts, h.capacity_eq]
      refine ⟨(Ring.capacity_full _).trans hcapacity, h.slotSize_eq, ?_, nofun⟩
      rintro _ ⟨⟩
      exact hgrants _ _ (allocateRegion_eq_some_iff.mp hregion).2.2

theorem settled_create_iff (h : p.Measured n slotSize) :
    Settled (p.create allocate).1 ↔ n * slotSize < Word.bound := by
  have hcreation := h.creation allocate
  generalize p.create allocate = r at hcreation
  cases hcreation with
  | done hready => exact iff_of_true settled_ok (h.lt_bound hready)
  | lost hlost => exact iff_of_false not_settled_halt (Nat.not_lt.mpr (h.bound_le hlost))
  | tooLarge _ hlarge => exact iff_of_false not_settled_halt (Nat.not_lt.mpr hlarge)
  | refused _ hfits => exact iff_of_true settled_refused hfits
  | allocated _ hfits => exact iff_of_true settled_ok hfits

theorem create_eq_ok_iff (h : p.Measured n slotSize) : (p.create allocate).1 = .ok () ↔
    p.isInitialized = true ∨ ∃ base, allocateRegion allocate (n * slotSize) = some base := by
  have hnone : Word.bound ≤ n * slotSize → allocateRegion allocate (n * slotSize) = none :=
    fun hlarge => if_pos (Or.inr (Nat.lt_of_lt_of_le maxRegionSize_lt hlarge))
  have hcreation := h.creation allocate
  generalize p.create allocate = r at hcreation
  cases hcreation with
  | done hready => simp [hready]
  | lost hlost => simp [isInitialized, base?, hlost, hnone (h.bound_le hlost)]
  | tooLarge hvacant hlarge => simp [hvacant, hnone hlarge]
  | refused hvacant _ hregion => simp [hvacant, hregion]
  | allocated _ _ hregion => simp [hregion]

/-- A refusal leaves the pool as it was before its creation was tried. -/
theorem create_of_lt_bound (h : p.Measured n slotSize) (hfits : n * slotSize < Word.bound)
    (hne : (p.create allocate).1 ≠ .ok ()) : (p.create allocate).2 = p := by
  have hcreation := h.creation allocate
  generalize p.create allocate = r at hcreation hne
  cases hcreation with
  | done => rfl
  | lost => rfl
  | tooLarge _ hlarge => exact absurd hfits (Nat.not_lt.mpr hlarge)
  | refused => rfl
  | allocated => exact absurd rfl hne

/-- A creation that succeeds leaves a region, and if there was none before it is from the
allocator. -/
theorem exists_region (h : p.Measured n slotSize) (hok : (p.create allocate).1 = .ok ()) :
    ∃ base, (p.create allocate).2.backing = .ready base ∧
      (p.isInitialized = false → allocate (n * slotSize) = some base) := by
  have hready := isInitialized_create hok
  obtain ⟨base, hbacking⟩ := isInitialized_iff.mp hready
  refine ⟨base, hbacking, fun hvacant => ?_⟩
  rw [← h.capacity_eq, ← h.slotSize_eq]
  exact allocate_of_create hvacant hbacking

/-- A pool whose region can have no size is lost with the first creation that is tried. -/
theorem create_of_bound_le (h : p.Measured n slotSize) (allocate : Nat → Option Addr)
    (hlarge : Word.bound ≤ n * slotSize) :
    (∃ halt, (p.create allocate).1 = .error (.halt halt)) ∧
      (p.create allocate).2.backing = .poisoned := by
  have hcreation := h.creation allocate
  generalize p.create allocate = r at hcreation
  cases hcreation with
  | done hready => exact absurd (h.lt_bound hready) (Nat.not_lt.mpr hlarge)
  | lost hlost => exact ⟨⟨_, rfl⟩, hlost⟩
  | tooLarge => exact ⟨⟨_, rfl⟩, rfl⟩
  | refused _ hfits => exact absurd hfits (Nat.not_lt.mpr hlarge)
  | allocated _ hfits => exact absurd hfits (Nat.not_lt.mpr hlarge)

end Measured

end Pool

namespace SlotHistory

variable {ω : Type} {s : SlotHistory ω} {n slotSize : Nat}

theorem measured_step (h : s.pool.Measured n slotSize) {call : SlotCall ω}
    (hgrants : ∀ allocate, call = .create allocate → Grants allocate) :
    (s.step call).pool.Measured n slotSize := by
  cases call with
  | create allocate => exact h.create (hgrants allocate rfl)
  | acquire who wanted lock clock => exact h.acquire wanted lock clock s.memory
  | release a lock clock => exact h.release a lock clock s.memory
  | write who a bytes => exact h

theorem measured_run (h : s.pool.Measured n slotSize) {calls : List (SlotCall ω)}
    (hgrants : ∀ allocate, .create allocate ∈ calls → Grants allocate) :
    (s.run calls).pool.Measured n slotSize := by
  induction calls generalizing s with
  | nil => exact h
  | cons call calls ih =>
      refine ih (measured_step h ?_) ?_
      · rintro allocate rfl
        exact hgrants allocate List.mem_cons_self
      · intro allocate hmem
        exact hgrants allocate (List.mem_cons_of_mem _ hmem)

end SlotHistory

/-! ## The binding of an arena -/

namespace Arena

def slotStarts (a : Arena) : List Addr :=
  (List.range a.slots).map fun i => a.base.add (i * a.slotSize)

/-- The slots of the arena lie in the `size` bytes at `base`, and every one of them is the payload
of its descriptor and the padding in front. -/
structure Laid (a : Arena) (base : Addr) (size slots slotSize : Nat) : Prop where
  base_eq : a.base = base
  length_slotStarts : a.slotStarts.length = slots
  slotted : Slotted base size slotSize a.slotStarts
  payload : ∀ i < slots, ∃ start buffer, a.slotStarts[i]? = some start ∧
    a.descriptor (.ofNat i) = some buffer ∧ buffer.payload = some (start.add bufferPadding) ∧
    bufferPadding + buffer.capacity = slotSize

variable {base : Addr} {size length slots slotSize : Nat} {allocate : Nat → Option Addr}
  {memory memory' : Memory} {a : Arena}

theorem laid_ofRegion (hvalid : validGeometry slots slotSize = true)
    (hsize : slots * slotSize ≤ size) :
    (ofRegion base slots slotSize).Laid base size slots slotSize where
  base_eq := rfl
  length_slotStarts := by simp [slotStarts, ofRegion]
  slotted := slotted_stride base hsize
  payload i hi := by
    have hwell : (ofRegion base slots slotSize).WellFormed := wellFormed_ofRegion hvalid
    have hpadding : bufferPadding < slotSize := hwell.padding_lt
    obtain ⟨buffer, payload, hbuffer, -, hpayload, hstart, hcapacity, -⟩ :=
      hwell.exists_descriptor (i := i) hi
    refine ⟨base.add (i * slotSize), buffer, ?_, hbuffer, ?_, ?_⟩
    · simp [slotStarts, ofRegion, hi]
    · rw [hpayload]
      exact congrArg some (Addr.ext hstart)
    · rw [hcapacity]
      exact Nat.add_sub_of_le (Nat.le_of_lt hpadding)

/-- A geometry that is not valid is refused before the size of the region is computed. -/
theorem settled_bind_iff : Settled (bind slots slotSize allocate) ↔
    (validGeometry slots slotSize = true → slots * slotSize < Word.bound) := by
  have hbinding := binding slots slotSize allocate
  generalize bind slots slotSize allocate = r at hbinding
  cases hbinding with
  | invalid hinvalid => simp [settled_refused, hinvalid]
  | tooLarge hvalid hlarge => simp [not_settled_halt, hvalid, hlarge]
  | refused hfits => exact iff_of_true settled_refused fun _ => hfits
  | allocated _ hfits => exact iff_of_true settled_ok fun _ => hfits

theorem bind_of_bound_le (hvalid : validGeometry slots slotSize = true)
    (hlarge : Word.bound ≤ slots * slotSize) :
    bind slots slotSize allocate = .error (.halt .mulOverflow) := by
  have hbinding := binding slots slotSize allocate
  generalize bind slots slotSize allocate = r at hbinding
  cases hbinding with
  | invalid hinvalid => cases hinvalid.symm.trans hvalid
  | tooLarge => rfl
  | refused hfits => exact absurd hfits (Nat.not_lt.mpr hlarge)
  | allocated _ hfits => exact absurd hfits (Nat.not_lt.mpr hlarge)

theorem laid_of_bind (h : bind slots slotSize allocate = .ok a) :
    allocate (slots * slotSize) = some a.base ∧
      a.Laid a.base (slots * slotSize) slots slotSize := by
  have hbinding := binding slots slotSize allocate
  rw [h] at hbinding
  cases hbinding with
  | allocated hvalid _ hregion =>
      exact ⟨(allocateRegion_eq_some_iff.mp hregion).2.2, laid_ofRegion hvalid (Nat.le_refl _)⟩

theorem bindStatic_cases (slots slotSize : Nat) (base : Addr) (length : Nat) (memory : Memory) :
    (∃ a memory', bindStatic slots slotSize base length memory = .ok (a, memory')) ∨
      bindStatic slots slotSize base length memory = .error .poolAllocationFailed := by
  rw [bindStatic_eq]
  split
  · exact Or.inl ⟨_, _, rfl⟩
  · exact Or.inr rfl

theorem bindStatic_of_bound_le (hlength : length < Word.bound)
    (hlarge : Word.bound ≤ slots * slotSize) :
    bindStatic slots slotSize base length memory = .error .poolAllocationFailed := by
  rw [bindStatic_eq, if_neg]
  rintro ⟨-, hroom, -⟩
  omega

theorem laid_of_bindStatic
    (h : bindStatic slots slotSize base length memory = .ok (a, memory')) :
    a.Laid base length slots slotSize := by
  rw [bindStatic_eq] at h
  split at h
  · rename_i hbound
    cases h
    exact laid_ofRegion hbound.1 hbound.2.1
  · cases h

end Arena

namespace Region

/-- A size that is a word is settled, by the creation of a pool at any time and by the binding of an
arena, and one that succeeds has room for all slots. A creation that does not succeed leaves the
pool without a region: after a refusal it can be tried again, and on a size that is no word it
halts, as does every later one. So does the binding to allocated memory, unless the geometry is not
valid; the binding to memory set aside at boot never halts. -/
theorem settled_iff_lt_bound {ω : Type} (name : String) (n slotSize : Nat) (memory : Memory)
    {calls : List (SlotCall ω)} (hcalls : ∀ allocate, .create allocate ∈ calls → Grants allocate)
    {allocate : Nat → Option Addr} (hallocate : Grants allocate) :
    let size := n * slotSize
    let p := ((SlotHistory.fresh name n slotSize memory).run calls).pool
    let r := p.create allocate
    let allocated := Arena.bind n slotSize allocate
    (Settled r.1 ↔ size < Word.bound) ∧
      (r.1 = .ok () ↔
        p.isInitialized = true ∨ ∃ base, allocateRegion allocate size = some base) ∧
      (r.1 = .ok () → ∃ base, r.2.backing = .ready base ∧ base.toNat + size ≤ Word.bound ∧
        (r.2.slotStarts base).size = n ∧
        Slotted base size slotSize (r.2.slotStarts base).toList ∧
        (p.isInitialized = false → allocate size = some base)) ∧
      (r.1 ≠ .ok () → r.2.isInitialized = false) ∧
      (size < Word.bound → r.1 ≠ .ok () → r.2 = p) ∧
      (Word.bound ≤ size → (∃ h, r.1 = .error (.halt h)) ∧
        ∀ again, (r.2.create again).1 = .error (.halt .creationPoisoned)) ∧
      (Settled allocated ↔ (Arena.validGeometry n slotSize = true → size < Word.bound)) ∧
      (Arena.validGeometry n slotSize = true → Word.bound ≤ size →
        allocated = .error (.halt .mulOverflow)) ∧
      (∀ a, allocated = .ok a → allocate size = some a.base ∧
        a.base.toNat + size ≤ Word.bound ∧ a.Laid a.base size n slotSize) ∧
      ∀ base length memory, length < Word.bound →
        let reserved := Arena.bindStatic n slotSize base length memory
        ((∃ a memory', reserved = .ok (a, memory')) ∨ reserved = .error .poolAllocationFailed) ∧
          (Word.bound ≤ size → reserved = .error .poolAllocationFailed) ∧
          ∀ a memory', reserved = .ok (a, memory') → a.Laid base length n slotSize := by
  intro size p r allocated
  have h : p.Measured n slotSize := SlotHistory.measured_run (Pool.measured_new ..) hcalls
  have hcreated : r.2.Measured n slotSize := h.create hallocate
  refine ⟨h.settled_create_iff, h.create_eq_ok_iff, ?_, ?_, ?_, ?_, Arena.settled_bind_iff,
    Arena.bind_of_bound_le, ?_, ?_⟩
  · intro hok
    obtain ⟨base, hbacking, hregion⟩ := h.exists_region hok
    refine ⟨base, hbacking, hcreated.le_bound base hbacking, ?_, hcreated.slotted base, hregion⟩
    rw [Pool.size_slotStarts, hcreated.capacity_eq]
  · intro hne
    cases hresult : r.1 with
    | ok => exact absurd hresult hne
    | error f => exact Pool.not_isInitialized_of_create_error hresult
  · intro hfits hne
    exact h.create_of_lt_bound hfits hne
  · intro hlarge
    obtain ⟨hhalts, hlost⟩ := h.create_of_bound_le allocate hlarge
    exact ⟨hhalts, fun again => congrArg Prod.fst (Pool.create_of_poisoned again hlost)⟩
  · intro a ha
    obtain ⟨hregion, hlaid⟩ := Arena.laid_of_bind ha
    exact ⟨hregion, hallocate _ _ hregion, hlaid⟩
  · intro base length memory hlength reserved
    exact ⟨Arena.bindStatic_cases .., Arena.bindStatic_of_bound_le hlength,
      fun a memory' => Arena.laid_of_bindStatic⟩

/-- An allocator with one page left. -/
def onePage (size : Nat) : Option Addr := if size ≤ 4096 then some ⟨0x5000, by decide⟩ else none

theorem grants_onePage : Grants onePage := by
  intro size base h
  have hbound : Word.bound = 18446744073709551616 := rfl
  unfold onePage at h
  split at h
  · cases h
    rw [hbound]
    show 0x5000 + size ≤ _
    omega
  · cases h

/-- The size of four slots that has only the lowest 64 bits of the product would fit into the page.
Four slots of 64 bytes have room there, also after an allocator has refused them. -/
theorem settled_iff_lt_bound_four_slots :
    let large : SlotHistory Unit := .fresh "Rx" 4 0x4000000000000010 .zeroed
    let small : SlotHistory Unit := .run (.fresh "Rx" 4 64 .zeroed) [.create fun _ => none]
    4 * 0x4000000000000010 = Word.bound + 64 ∧ ¬Settled (large.pool.create onePage).1 ∧
      ((large.pool.create onePage).2.create onePage).1 = .error (.halt .creationPoisoned) ∧
      Arena.bind 4 0x4000000000000010 onePage = .error (.halt .mulOverflow) ∧
      Arena.bindStatic 4 0x4000000000000010 ⟨0x5000, by decide⟩ 64 .zeroed =
        .error .poolAllocationFailed ∧
      ∃ base, Slotted base 256 64 ((small.pool.create onePage).2.slotStarts base).toList := by
  intro large small
  have hsize : 4 * 0x4000000000000010 = Word.bound + 64 := rfl
  have hlarge : Word.bound ≤ 4 * 0x4000000000000010 := hsize ▸ Nat.le_add_right ..
  have huntried : ∀ allocate, .create allocate ∈ ([] : List (SlotCall Unit)) →
      Grants allocate := nofun
  have hrefused : ∀ allocate, .create allocate ∈ ([.create fun _ => none] : List (SlotCall Unit)) →
      Grants allocate := by
    intro allocate h
    cases List.mem_singleton.mp h
    nofun
  obtain ⟨hsettled, -, -, -, -, hhalts, -, hbind, -, hreserved⟩ :=
    settled_iff_lt_bound "Rx" 4 0x4000000000000010 .zeroed huntried grants_onePage
  obtain ⟨-, -, hroom, -⟩ := settled_iff_lt_bound "Rx" 4 64 .zeroed hrefused grants_onePage
  have hok : (small.pool.create onePage).1 = .ok () := by decide +kernel
  obtain ⟨base, -, -, -, hslotted, -⟩ := hroom hok
  exact ⟨hsize, fun h => absurd (hsettled.mp h) (Nat.not_lt.mpr hlarge),
    (hhalts hlarge).2 onePage, hbind (by decide) hlarge,
    (hreserved ⟨0x5000, by decide⟩ 64 .zeroed (by decide)).2.1 hlarge, base, hslotted⟩

end Region

end XgmacDriver
