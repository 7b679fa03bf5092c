import XgmacDriver.Proofs.BringUpRule
import XgmacDriver.Proofs.PoolAccounts
import XgmacDriver.Proofs.Traffic

/-! # The stock of receive buffers during bring-up

Bring-up draws a buffer for every receive descriptor, from the receive pool or from the stack. While
nobody else takes buffers, those that are left and those that have been drawn add up to the stock
there was at first, whatever fails. `Filling` is what holds while the descriptors are filled.
-/

namespace XgmacDriver

variable {σ : Type}

/-- A pool as it was made for this driver, which can be given its region. -/
structure Pool.Intact (p : Pool) : Prop where
  backing : p.backing ≠ .poisoned
  capacity : p.capacity = poolSlots
  slotSize : p.slotSize = maxPacketSize

namespace Pool.Intact

variable {p : Pool}

theorem new (name : String) : (Pool.new name poolSlots maxPacketSize).Intact :=
  ⟨nofun, Ring.capacity_vacant poolSlots, rfl⟩

theorem create_eq (h : p.Intact) (hvacant : p.isInitialized = false)
    (allocate : Nat → Option Addr) : p.create allocate =
      match allocate (poolSlots * maxPacketSize) with
      | none => (.error (.error .poolAllocationFailed), p)
      | some base =>
          (.ok (), { p with backing := .ready base, ring := .full (p.slotStarts base) }) := by
  have hanswer : allocateRegion allocate (poolSlots * maxPacketSize) =
      allocate (poolSlots * maxPacketSize) := rfl
  have hcreation := p.creation allocate
  rw [h.capacity, h.slotSize] at hcreation
  generalize p.create allocate = r at hcreation
  cases hcreation with
  | done hready => cases hready.symm.trans hvacant
  | lost hlost => exact absurd hlost h.backing
  | tooLarge _ hlarge => exact absurd hlarge (by decide)
  | refused _ _ hregion => rw [← hanswer, hregion]
  | allocated _ _ hregion => rw [← hanswer, hregion]

theorem create (h : p.Intact) (allocate : Nat → Option Addr) : (p.create allocate).2.Intact ∧
    ∀ f, (p.create allocate).1 = .error f →
      (∃ e, f = .error e) ∧ allocate (poolSlots * maxPacketSize) = none := by
  cases hready : p.isInitialized with
  | true =>
      rw [create_of_isInitialized allocate hready]
      exact ⟨h, nofun⟩
  | false =>
      have hcapacity := (capacity_create p allocate).trans h.capacity
      have hslotSize := (slotSize_create p allocate).trans h.slotSize
      rw [h.create_eq hready] at hcapacity hslotSize ⊢
      cases hanswer : allocate (poolSlots * maxPacketSize) with
      | none => exact ⟨h, fun f hf => ⟨⟨_, (Except.error.inj hf).symm⟩, rfl⟩⟩
      | some base =>
          rw [hanswer] at hcapacity hslotSize
          exact ⟨⟨nofun, hcapacity, hslotSize⟩, nofun⟩

theorem accounts_create (h : p.Intact) {allocate : Nat → Option Addr}
    (hvacant : p.isInitialized = false) (hok : (p.create allocate).1 = .ok ()) :
    ∃ base, allocate (poolSlots * maxPacketSize) = some base ∧
      (p.create allocate).2.Accounts base [] := by
  have hpos : 0 < p.slotSize := by
    rw [h.slotSize]
    decide
  have hroom : 0 < p.capacity := by
    rw [h.capacity]
    decide
  obtain ⟨base, haccounts⟩ := Pool.accounts_create hvacant hpos hroom hok
  refine ⟨base, ?_, haccounts⟩
  have hbacking := haccounts.backing
  rw [h.create_eq hvacant] at hok hbacking
  cases hanswer : allocate (poolSlots * maxPacketSize) with
  | none => simp [hanswer] at hok
  | some start => simpa [hanswer] using hbacking

end Pool.Intact

/-- A pool that has just been created, with its slots listed. -/
def Pool.filled (name : String) (base : Addr) : Pool where
  name
  slotSize := maxPacketSize
  backing := .ready base
  ring := ⟨((List.range poolSlots).map fun i => some (base.add (i * maxPacketSize))).toArray,
    0, 0, 0⟩

theorem Pool.create_filled {p : Pool} {name : String} {base : Addr} {allocate : Nat → Option Addr}
    (hp : p = .new name poolSlots maxPacketSize)
    (hanswer : allocate (poolSlots * maxPacketSize) = some base) :
    p.create allocate = (.ok (), .filled name base) := by
  have hintact : p.Intact := hp ▸ .new name
  have hname : p.name = name := congrArg Pool.name hp
  have hvacant : p.isInitialized = false := hp ▸ rfl
  rw [hintact.create_eq hvacant, hanswer]
  simp only [filled, Ring.full, Pool.map_slotStarts, hintact.capacity, hintact.slotSize, hname]

/-- The engine has `n` receive descriptors, and nobody but the driver takes buffers for them: with
copying nobody else holds the receive pool, and without it the stack, which has `free` buffers,
hands one out as long as there is one. -/
structure Undisturbed (c : Collaborators σ) (zeroCopy : Bool) (n : Nat) (free : σ → Nat) :
    Prop where
  rxDescriptors : ∀ w, c.rxDescriptors w = n
  lock : zeroCopy = false → ∀ w, c.lock .rx w = .free
  openEmac : ∀ i w, free (c.openEmac i w).2 = free w
  command : ∀ clock k w, free (c.command clock k w).2 = free w
  readPhy : ∀ phy register w, free (c.readPhy phy register w).2 = free w
  spawn : ∀ spec w, free (c.spawn spec w).2 = free w
  getBuffer_none : zeroCopy = true → ∀ {w w'},
    c.getBuffer maxPacketSize prefillWait w = (none, w') → free w = 0 ∧ free w' = 0
  getBuffer_some : zeroCopy = true → ∀ {w w' buffer},
    c.getBuffer maxPacketSize prefillWait w = (some buffer, w') →
      (∃ a, buffer.payload = some a) ∧ free w = free w' + 1

/-- Every collaborator does what bring-up asks of it, and the link is up. -/
structure Favourable (c : Collaborators σ) : Prop where
  openEmac : ∀ i w, (c.openEmac i w).1 = true
  command : ∀ clock k w, (c.command clock k w).1 = .ok ()
  readPhy : ∀ phy w, linkUp (c.readPhy phy phyStatusRegister w).1 = true
  spawn : ∀ spec w, ∃ handle, (c.spawn spec w).1 = some handle
  allocate : ∀ d w, ∃ base, c.allocate d w (poolSlots * maxPacketSize) = some base

structure StockView where
  zeroCopy : Bool
  engineOpen : Bool
  stage : Stage
  txPool : Pool
  rxPool : Pool
  /-- Buffers drawn for the receive descriptors. -/
  drawn : Nat
  free : Nat

def Machine.stock (free : σ → Nat) (m : Machine σ) : StockView where
  zeroCopy := m.interface.config.zeroCopyRx
  engineOpen := m.interface.engineOpen
  stage := m.interface.stage
  txPool := m.interface.txPool
  rxPool := m.interface.rxPool
  drawn := m.refilled.length
  free := free m.world

namespace StockView

/-- All the buffers there are, if the stack has had `supply` of them. -/
def capacity (supply : Nat) (v : StockView) : Nat := if v.zeroCopy then supply else poolSlots

/-- The buffers that were drawn, `hand` of them for no descriptor yet, and those that are left. -/
structure Stocked (supply hand : Nat) (v : StockView) : Prop where
  txPool : v.txPool.Intact
  rxPool : v.rxPool.Intact
  slots : v.zeroCopy = false → v.rxPool.isInitialized = true →
    ∃ base inUse, v.rxPool.Accounts base inUse ∧ inUse.length = v.drawn + hand
  vacant : v.zeroCopy = false → v.rxPool.isInitialized = false → v.drawn + hand = 0
  buffers : v.zeroCopy = true → v.free + (v.drawn + hand) = supply

variable {supply hand : Nat} {v : StockView}

theorem Stocked.drawn_le (h : v.Stocked supply hand) : v.drawn + hand ≤ v.capacity supply := by
  unfold capacity
  cases hmode : v.zeroCopy with
  | true =>
      have hbuffers := h.buffers hmode
      rw [if_pos rfl]
      omega
  | false =>
      rw [if_neg Bool.false_ne_true]
      cases hpool : v.rxPool.isInitialized with
      | true =>
          obtain ⟨base, inUse, haccounts, hlength⟩ := h.slots hmode hpool
          rw [← hlength, ← h.rxPool.capacity]
          exact haccounts.length_le
      | false =>
          rw [h.vacant hmode hpool]
          exact Nat.zero_le _

theorem Stocked.createRx (h : v.Stocked supply hand) (allocate : Nat → Option Addr) :
    Stocked supply hand { v with rxPool := (v.rxPool.create allocate).2 } := by
  have hintact := (h.rxPool.create allocate).1
  cases hpool : v.rxPool.isInitialized with
  | true =>
      rw [Pool.create_of_isInitialized allocate hpool]
      exact h
  | false =>
      cases hresult : (v.rxPool.create allocate).1 with
      | ok =>
          obtain ⟨base, -, haccounts⟩ := h.rxPool.accounts_create hpool hresult
          refine { h with rxPool := hintact, slots := ?_, vacant := ?_ }
          · intro hmode _
            exact ⟨base, [], haccounts, (h.vacant hmode hpool).symm⟩
          · intro _ hvacant
            exact absurd (hvacant.symm.trans haccounts.isInitialized) Bool.false_ne_true
      | error f =>
          have hvacant := Pool.not_isInitialized_of_create_error hresult
          refine { h with rxPool := hintact, slots := ?_, vacant := ?_ }
          · intro _ hready
            exact absurd (hvacant.symm.trans hready) Bool.false_ne_true
          · intro hmode _
            exact h.vacant hmode hpool

theorem Stocked.place (h : v.Stocked supply (hand + 1)) :
    Stocked supply hand { v with drawn := v.drawn + 1 } := by
  have hsum : v.drawn + 1 + hand = v.drawn + (hand + 1) := by omega
  refine { h with slots := ?_, vacant := ?_, buffers := ?_ }
  · intro hmode hpool
    obtain ⟨base, inUse, haccounts, hlength⟩ := h.slots hmode hpool
    exact ⟨base, inUse, haccounts, hlength.trans hsum.symm⟩
  · intro hmode hpool
    exact hsum.trans (h.vacant hmode hpool)
  · intro hmode
    show v.free + (v.drawn + 1 + hand) = supply
    rw [hsum]
    exact h.buffers hmode

theorem Stocked.acquire {clock : Clock} {memory : Memory} {reply : Pool.Reply Addr}
    (h : v.Stocked supply hand) (hmode : v.zeroCopy = false)
    (hpool : v.rxPool.isInitialized = true)
    (hreply : v.rxPool.acquire maxPacketSize .free clock memory = reply) :
    reply.pool.isInitialized = true ∧
      ((∃ a, reply.result = .ok a) ∧ Stocked supply (hand + 1) { v with rxPool := reply.pool } ∨
        (∃ e, reply.result = .error e) ∧ reply.pool = v.rxPool ∧
          v.drawn + hand = v.capacity supply) := by
  obtain ⟨base, inUse, haccounts, hlength⟩ := h.slots hmode hpool
  have hfits : maxPacketSize ≤ v.rxPool.slotSize := Nat.le_of_eq h.rxPool.slotSize.symm
  rcases Nat.lt_or_eq_of_le haccounts.length_le with hleft | hfull
  · obtain ⟨a, ring, hacquire, hcapacity, -, haccounts'⟩ :=
      haccounts.acquire clock memory maxPacketSize hfits hleft
    rw [hacquire] at hreply
    subst hreply
    have hready := haccounts'.isInitialized
    refine ⟨hready, Or.inl ⟨⟨a, rfl⟩, { h with
      rxPool := ?_
      slots := ?_
      vacant := ?_
      buffers := ?_ }⟩⟩
    · exact ⟨h.rxPool.backing, hcapacity.trans h.rxPool.capacity, h.rxPool.slotSize⟩
    · intro _ _
      exact ⟨base, a :: inUse, haccounts', by rw [List.length_cons, hlength]; rfl⟩
    · intro _ hvacant
      exact absurd (hvacant.symm.trans hready) Bool.false_ne_true
    · intro hzero
      exact absurd (hmode.symm.trans hzero) Bool.false_ne_true
  · rw [haccounts.acquire_exhausted clock memory maxPacketSize hfits hfull] at hreply
    subst hreply
    refine ⟨hpool, Or.inr ⟨⟨_, rfl⟩, rfl, ?_⟩⟩
    rw [← hlength, hfull, h.rxPool.capacity, capacity, hmode]
    rfl

theorem Stocked.obtain {rest : Nat} (h : v.Stocked supply hand) (hmode : v.zeroCopy = true)
    (hfree : v.free = rest + 1) : Stocked supply (hand + 1) { v with free := rest } := by
  refine { h with slots := ?_, vacant := ?_, buffers := ?_ }
  · intro hcopying
    exact absurd (hcopying.symm.trans hmode) Bool.false_ne_true
  · intro hcopying
    exact absurd (hcopying.symm.trans hmode) Bool.false_ne_true
  · intro _
    have hbuffers := h.buffers hmode
    show rest + (v.drawn + (hand + 1)) = supply
    omega

theorem Stocked.drawn_eq (h : v.Stocked supply hand) (hmode : v.zeroCopy = true)
    (hfree : v.free = 0) : v.drawn + hand = v.capacity supply := by
  have hbuffers := h.buffers hmode
  rw [capacity, if_pos hmode]
  omega

/-- What an attempt that began with `v₀` leaves alone. -/
structure Kept (supply hand : Nat) (v₀ v : StockView) : Prop extends v.Stocked supply hand where
  stage : v.stage = v₀.stage
  mode : v.zeroCopy = v₀.zeroCopy

/-- Of `n` descriptors `left` are still without a buffer, and `hand` buffers are on their way. -/
structure Filling (n supply : Nat) (v₀ : StockView) (hand left : Nat) (v : StockView) : Prop extends
    Kept supply hand v₀ v where
  engineOpen : v.engineOpen = true
  drawn : v.drawn + hand + left = v₀.drawn + n

def HasRoom (n supply : Nat) (v : StockView) : Prop := v.drawn + n ≤ v.capacity supply

/-- With nothing left, the descriptors that are still without a buffer are too many. -/
theorem Filling.not_hasRoom {v₀ : StockView} {n left : Nat}
    (h : Filling n supply v₀ hand (left + 1) v) (hall : v.drawn + hand = v.capacity supply) :
    ¬v₀.HasRoom n supply := by
  intro hroom
  have hdrawn := h.drawn
  have hmode : v.capacity supply = v₀.capacity supply := by rw [capacity, h.mode, capacity]
  unfold HasRoom at hroom
  omega

def Pooled (v : StockView) : Prop := v.zeroCopy = false → v.rxPool.isInitialized = true

end StockView

end XgmacDriver
