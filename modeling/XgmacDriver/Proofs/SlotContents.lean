import XgmacDriver.Proofs.PoolCustody
import XgmacDriver.Proofs.PoolQueue

/-! # What lies in the slots of a pool

The region of a pool is zero when it is allocated, a slot is filled with zeros when it is released,
and in between nobody but the slot's owner writes to it. So every slot in the queue is zero,
whatever its earlier owners have written, and a release does not touch the slots that are still out.
-/

namespace XgmacDriver

namespace Pool

variable {p : Pool} {base a b slot : Addr} {memory : Memory}

/-- A write inside one slot leaves the other slots as they are. -/
theorem read_write_of_ne {bytes : List UInt8} (hslot : slot ∈ (p.slotStarts base).toList)
    (hb : b ∈ (p.slotStarts base).toList) (hne : b ≠ slot) (hstart : slot.toNat ≤ a.toNat)
    (hend : a.toNat + bytes.length ≤ slot.toNat + p.slotSize) :
    (memory.write a bytes).read b p.slotSize = memory.read b p.slotSize := by
  rw [mem_slotStarts] at hslot hb
  obtain ⟨i, -, rfl⟩ := hslot
  obtain ⟨j, -, rfl⟩ := hb
  have hij : i ≠ j := by
    rintro rfl
    exact hne rfl
  rw [Addr.toNat_add] at hstart hend
  refine Memory.read_write_of_disjoint ?_
  rw [Addr.toNat_add]
  rcases Nat.lt_or_gt_of_ne hij with hlt | hlt
  · have hmul : (i + 1) * p.slotSize ≤ j * p.slotSize := Nat.mul_le_mul_right _ hlt
    rw [Nat.succ_mul] at hmul
    omega
  · have hmul : (j + 1) * p.slotSize ≤ i * p.slotSize := Nat.mul_le_mul_right _ hlt
    rw [Nat.succ_mul] at hmul
    omega

theorem read_fill_of_ne (hslot : slot ∈ (p.slotStarts base).toList)
    (hb : b ∈ (p.slotStarts base).toList) (hne : b ≠ slot) :
    (memory.fill slot p.slotSize 0).read b p.slotSize = memory.read b p.slotSize := by
  have hlength : (List.replicate p.slotSize (0 : UInt8)).length = p.slotSize :=
    List.length_replicate
  exact read_write_of_ne hslot hb hne (Nat.le_refl _) (by omega)

end Pool

/-! ## Calls and writes in any order -/

inductive SlotCall (ω : Type)
  | create (allocate : Nat → Option Addr)
  | acquire (who : ω) (wanted : Nat) (lock : Lock) (clock : Clock)
  | release (a : Addr) (lock : Lock) (clock : Clock)
  | write (who : ω) (a : Addr) (bytes : List UInt8)

/-- A pool, the memory with its slots in it, and who holds which slots. -/
structure SlotHistory (ω : Type) where
  pool : Pool
  memory : Memory
  held : List (ω × Addr)

namespace SlotHistory

variable {ω : Type} {s : SlotHistory ω} {slotSize : Nat}

def fresh (name : String) (n slotSize : Nat) (memory : Memory) : SlotHistory ω :=
  ⟨.new name n slotSize, memory, []⟩

def slots (s : SlotHistory ω) : List Addr := s.held.map Prod.snd

def step (s : SlotHistory ω) : SlotCall ω → SlotHistory ω
  | .create allocate => { s with pool := (s.pool.create allocate).2 }
  | .acquire who wanted lock clock =>
      let r := s.pool.acquire wanted lock clock s.memory
      ⟨r.pool, r.memory, (r.result.toOption.map fun a => (who, a)).toList ++ s.held⟩
  | .release a lock clock =>
      let r := s.pool.release a lock clock s.memory
      ⟨r.pool, r.memory, if r.result.isOk then s.held.filter (·.2 != a) else s.held⟩
  | .write _ a bytes => { s with memory := s.memory.write a bytes }

def run (s : SlotHistory ω) (calls : List (SlotCall ω)) : SlotHistory ω := calls.foldl step s

/-- What is expected of everybody: the allocator hands out regions of zeros, a slot is taken back
only from a holder, and a write stays inside a slot that its writer holds. -/
def Permits (s : SlotHistory ω) : SlotCall ω → Prop
  | .create allocate => s.pool.isInitialized = false → ∀ base,
      allocate (s.pool.capacity * s.pool.slotSize) = some base →
      s.memory.read base (s.pool.capacity * s.pool.slotSize) =
        List.replicate (s.pool.capacity * s.pool.slotSize) 0
  | .acquire .. => True
  | .release a lock clock => (s.pool.release a lock clock s.memory).result = .ok () → a ∈ s.slots
  | .write who a bytes => ∃ slot, (who, slot) ∈ s.held ∧ slot.toNat ≤ a.toNat ∧
      a.toNat + bytes.length ≤ slot.toNat + s.pool.slotSize

def Obeys (s : SlotHistory ω) : List (SlotCall ω) → Prop
  | [] => True
  | call :: calls => s.Permits call ∧ (s.step call).Obeys calls

/-- Once there is a pool, the slots that nobody holds are zero. -/
structure Clean (slotSize : Nat) (s : SlotHistory ω) : Prop where
  slotSize_eq : s.pool.slotSize = slotSize
  vacant : s.pool.isInitialized = false → s.held = []
  accounts : s.pool.isInitialized = true → ∃ base, s.pool.Accounts base s.slots
  zeroed : s.pool.isInitialized = true → ∀ a ∈ s.pool.ring.queue,
    s.memory.read a slotSize = List.replicate slotSize 0

theorem clean_fresh (name : String) (n slotSize : Nat) (memory : Memory) :
    (fresh name n slotSize memory : SlotHistory ω).Clean slotSize where
  slotSize_eq := rfl
  vacant _ := rfl
  accounts := nofun
  zeroed := nofun

namespace Clean

theorem create (h : s.Clean slotSize) {allocate : Nat → Option Addr}
    (hpermits : s.Permits (.create allocate)) : (s.step (.create allocate)).Clean slotSize := by
  cases hready : s.pool.isInitialized with
  | true =>
      have hstep : s.step (.create allocate) = s := by
        rw [step, Pool.create_of_isInitialized allocate hready]
      rw [hstep]
      exact h
  | false =>
      have hsize := (Pool.slotSize_create s.pool allocate).trans h.slotSize_eq
      have hheld := h.vacant hready
      cases hresult : (s.pool.create allocate).1 with
      | error f =>
          have hvacant := Pool.not_isInitialized_of_create_error hresult
          have hnever : (s.pool.create allocate).2.isInitialized ≠ true := by simp [hvacant]
          exact ⟨hsize, fun _ => hheld, fun hlater => absurd hlater hnever,
            fun hlater => absurd hlater hnever⟩
      | ok =>
          obtain ⟨hcapacity, hpos⟩ := Pool.pos_of_create hready hresult
          obtain ⟨base, haccounts⟩ := Pool.accounts_create hready hpos hcapacity hresult
          have hregion := hpermits hready base (Pool.allocate_of_create hready haccounts.backing)
          refine ⟨hsize, fun _ => hheld, fun _ => ⟨base, ?_⟩, fun _ a ha => ?_⟩
          · rw [slots, step, hheld]
            exact haccounts
          · -- A slot is a part of the region, which is zero as the allocator hands it out.
            have hslot := haccounts.mem_of_queue ha
            rw [Pool.mem_slotStarts, Pool.capacity_create, Pool.slotSize_create] at hslot
            obtain ⟨i, hi, rfl⟩ := hslot
            rw [← h.slotSize_eq]
            refine Memory.read_add_of_replicate hregion ?_
            rw [← Nat.succ_mul]
            exact Nat.mul_le_mul_right _ hi

theorem acquire (h : s.Clean slotSize) (who : ω) (wanted : Nat) (lock : Lock) (clock : Clock) :
    (s.step (.acquire who wanted lock clock)).Clean slotSize := by
  have hmemory := (Pool.acquire_cases s.pool wanted lock clock s.memory).1
  cases hresult : (s.pool.acquire wanted lock clock s.memory).result with
  | error e =>
      have hstep : s.step (.acquire who wanted lock clock) = s := by
        simp [step, hresult, (Pool.acquire_of_error hresult).1, hmemory, Except.toOption]
      rw [hstep]
      exact h
  | ok a =>
      have hready := Pool.isInitialized_of_acquire hresult
      obtain ⟨base, haccounts⟩ := h.accounts hready
      obtain ⟨ring, hpool, -, hqueue, haccounts'⟩ := haccounts.acquire_of_ok hresult
      have hstep : s.step (.acquire who wanted lock clock) =
          ⟨{ s.pool with ring }, s.memory, (who, a) :: s.held⟩ := by
        simp [step, hresult, hpool, hmemory, Except.toOption]
      have hcreated : s.pool.isInitialized ≠ false := by simp [hready]
      rw [hstep]
      refine ⟨h.slotSize_eq, fun hvacant => absurd hvacant hcreated,
        fun _ => ⟨base, haccounts'⟩, fun _ b hb => h.zeroed hready b ?_⟩
      rw [hqueue]
      exact List.mem_cons_of_mem a hb

theorem release (h : s.Clean slotSize) {a : Addr} {lock : Lock} {clock : Clock}
    (hpermits : s.Permits (.release a lock clock)) :
    (s.step (.release a lock clock)).Clean slotSize := by
  obtain ⟨⟨e, herror⟩, hpool, hmemory⟩ | ⟨hok, hpool, hmemory, hused, hmember⟩ :=
    Pool.release_cases s.pool a lock clock s.memory
  · have hstep : s.step (.release a lock clock) = s := by
      simp [step, herror, hpool, hmemory, Except.isOk, Except.toBool]
    rw [hstep]
    exact h
  · have hready := Pool.isInitialized_of_contains hmember
    obtain ⟨base, haccounts⟩ := h.accounts hready
    have hheld : a ∈ s.slots := hpermits hok
    obtain ⟨hqueue, hring, -⟩ := Ring.give_of_pos haccounts.wellFormed hused a
    have hstep : s.step (.release a lock clock) = ⟨{ s.pool with ring := s.pool.ring.give a },
        s.memory.fill a s.pool.slotSize 0, s.held.filter (·.2 != a)⟩ := by
      simp [step, hok, hpool, hmemory, Except.isOk, Except.toBool]
    have hslots : (s.held.filter (·.2 != a)).map Prod.snd = s.slots.erase a := by
      rw [haccounts.nodup.erase_eq_filter, slots, List.filter_map]
      rfl
    rw [hstep]
    have hcreated : s.pool.isInitialized ≠ false := by simp [hready]
    refine ⟨h.slotSize_eq, fun hvacant => absurd hvacant hcreated, fun _ => ⟨base, ?_⟩,
      fun _ b hb => ?_⟩
    · rw [slots, hslots]
      have hout := haccounts.congr (List.perm_cons_erase hheld)
      exact hout.give (Ring.capacity_give _ _) hqueue hring
    · -- The slots that were in the queue are not the one that is filled now.
      rw [hqueue, List.mem_append, List.mem_singleton] at hb
      rw [← h.slotSize_eq]
      rcases hb with hb | rfl
      · rw [Pool.read_fill_of_ne (haccounts.mem_of_inUse hheld) (haccounts.mem_of_queue hb)
          (haccounts.ne_of_mem hb hheld), h.slotSize_eq]
        exact h.zeroed hready b hb
      · exact Memory.read_fill_self ..

theorem write (h : s.Clean slotSize) {who : ω} {a : Addr} {bytes : List UInt8}
    (hpermits : s.Permits (.write who a bytes)) : (s.step (.write who a bytes)).Clean slotSize := by
  obtain ⟨slot, hheld, hstart, hend⟩ := hpermits
  have hslot : slot ∈ s.slots := List.mem_map_of_mem hheld
  refine ⟨h.slotSize_eq, h.vacant, h.accounts, fun hready b hb => ?_⟩
  obtain ⟨base, haccounts⟩ := h.accounts hready
  rw [← h.zeroed hready b hb, ← h.slotSize_eq]
  exact Pool.read_write_of_ne (haccounts.mem_of_inUse hslot) (haccounts.mem_of_queue hb)
    (haccounts.ne_of_mem hb hslot) hstart hend

theorem step (h : s.Clean slotSize) {call : SlotCall ω} (hpermits : s.Permits call) :
    (s.step call).Clean slotSize := by
  cases call with
  | create allocate => exact h.create hpermits
  | acquire who wanted lock clock => exact h.acquire who wanted lock clock
  | release a lock clock => exact h.release hpermits
  | write who a bytes => exact h.write hpermits

theorem run (h : s.Clean slotSize) {calls : List (SlotCall ω)} (hobeys : s.Obeys calls) :
    (s.run calls).Clean slotSize := by
  induction calls generalizing s with
  | nil => exact h
  | cons call calls ih => exact ih (h.step hobeys.1) hobeys.2

theorem read_acquired (h : s.Clean slotSize) {wanted : Nat} {lock : Lock} {clock : Clock} {a : Addr}
    (hok : (s.pool.acquire wanted lock clock s.memory).result = .ok a) :
    (s.pool.acquire wanted lock clock s.memory).memory.read a slotSize =
      List.replicate slotSize 0 := by
  have hready := Pool.isInitialized_of_acquire hok
  obtain ⟨base, haccounts⟩ := h.accounts hready
  obtain ⟨ring, -, -, hqueue, -⟩ := haccounts.acquire_of_ok hok
  have hfirst : a ∈ s.pool.ring.queue := by
    rw [hqueue]
    exact List.mem_cons_self
  rw [(Pool.acquire_cases s.pool wanted lock clock s.memory).1]
  exact h.zeroed hready a hfirst

/-- A release leaves every slot that is out as it is, except the one that is released. -/
theorem read_released (h : s.Clean slotSize) {a b : Addr} (ha : a ∈ s.slots) (hb : b ∈ s.slots)
    (hne : b ≠ a) (lock : Lock) (clock : Clock) :
    (s.pool.release a lock clock s.memory).memory.read b slotSize = s.memory.read b slotSize := by
  obtain ⟨-, -, hmemory⟩ | ⟨-, -, hmemory, -, hmember⟩ :=
    Pool.release_cases s.pool a lock clock s.memory
  · rw [hmemory]
  · obtain ⟨base, haccounts⟩ := h.accounts (Pool.isInitialized_of_contains hmember)
    rw [hmemory, ← h.slotSize_eq]
    exact Pool.read_fill_of_ne (haccounts.mem_of_inUse ha) (haccounts.mem_of_inUse hb) hne

theorem nodup_slots (h : s.Clean slotSize) : s.slots.Nodup := by
  cases hready : s.pool.isInitialized with
  | true =>
      obtain ⟨base, haccounts⟩ := h.accounts hready
      exact haccounts.nodup
  | false =>
      rw [slots, h.vacant hready]
      exact List.nodup_nil

end Clean

/-- A slot is all zeros whenever it is acquired, whatever has been written to it before. A release
that fails changes no byte, and one by a holder none in the other slots that are out. -/
theorem run_zeroed (name : String) (n slotSize : Nat) (memory : Memory)
    (calls : List (SlotCall ω)) (hobeys : (fresh name n slotSize memory).Obeys calls) :
    let s := (fresh name n slotSize memory).run calls
    (∀ wanted lock clock a,
      let r := s.pool.acquire wanted lock clock s.memory
      r.result = .ok a → r.memory.read a slotSize = List.replicate slotSize 0) ∧
    ∀ who a lock clock,
      let r := s.pool.release a lock clock s.memory
      (∀ e, r.result = .error e → r.memory = s.memory) ∧
      ((who, a) ∈ s.held → ∀ other ∈ s.held, other ≠ (who, a) →
        r.memory.read other.2 slotSize = s.memory.read other.2 slotSize) := by
  intro s
  have h : s.Clean slotSize := (clean_fresh name n slotSize memory).run hobeys
  constructor
  · intro wanted lock clock a r hok
    exact h.read_acquired hok
  · intro who a lock clock r
    constructor
    · intro e herror
      exact (Pool.release_of_error herror).2
    · intro hholder other hother hne
      have hslot : other.2 ≠ a := by
        intro heq
        exact hne (List.inj_on_of_nodup_map h.nodup_slots hother hholder heq)
      exact h.read_released (List.mem_map_of_mem hholder) (List.mem_map_of_mem hother) hslot lock
        clock

def firstSlot : Addr := ⟨0x3000, by decide⟩

/-- The first slot is written to, given back and acquired again while the second one is out. -/
def reuse : List (SlotCall Bool) :=
  let now : Clock := .startingAt 0 0
  [.create fun _ => some firstSlot, .acquire true 8 .free now, .acquire false 8 .free now,
    .write true (firstSlot.add 2) [1, 2, 3], .write false (firstSlot.add 8) [4, 5],
    .release firstSlot .free now]

theorem run_zeroed_reuse :
    let s := (fresh "Rx" 2 8 .zeroed).run reuse
    ((fresh "Rx" 2 8 .zeroed).run (reuse.take 5)).memory.read firstSlot 8 =
        [0, 0, 1, 2, 3, 0, 0, 0] ∧
      (s.pool.acquire 8 .free (.startingAt 0 0) s.memory).result = .ok firstSlot ∧
      (s.pool.acquire 8 .free (.startingAt 0 0) s.memory).memory.read firstSlot 8 =
        List.replicate 8 0 := by
  intro s
  have hobeys : (fresh "Rx" 2 8 .zeroed).Obeys reuse := by
    refine ⟨?_, trivial, trivial, ?_, ?_, ?_, trivial⟩
    · rintro - _ ⟨⟩
      decide +kernel
    · exact ⟨firstSlot, by decide +kernel, by decide, by decide +kernel⟩
    · exact ⟨firstSlot.add 8, by decide +kernel, by decide, by decide +kernel⟩
    · intro _
      decide +kernel
  obtain ⟨hacquired, -⟩ := run_zeroed "Rx" 2 8 .zeroed reuse hobeys
  have hok : (s.pool.acquire 8 .free (.startingAt 0 0) s.memory).result = .ok firstSlot := by
    decide +kernel
  exact ⟨by decide +kernel, hok, hacquired _ _ _ _ hok⟩

end SlotHistory

end XgmacDriver
