import XgmacDriver.Machine.Hardware
import XgmacDriver.Proofs.FrameSteps
import XgmacDriver.Proofs.PostedBuffers

/-! # Frames that arrive

The engine writes a frame into the oldest posted buffer and completes it. Posted buffers overlap
neither with one another nor with other buffers of the stack, so a frame that has landed stays what
it is while others land. A frame must have been written as far as its size says: behind a short one
the buffer has bytes of something else.
-/

namespace XgmacDriver

variable {σ π : Type}

/-! ## Posted buffers -/

theorem Arena.Clear.apart {a : Arena} {base : Addr} (h : a.Clear base)
    (hroom : maxPacketSize ≤ a.payloadCapacity) {i : Nat} (hi : i < poolSlots) {j : UInt16}
    (hj : j.toNat < a.slots) : (base.add (i * maxPacketSize)).Apart (a.payloadAt j) := by
  have hslot := Nat.mul_le_mul_right maxPacketSize hi
  have hpayload := Nat.mul_le_mul_right a.slotSize hj
  rw [Nat.succ_mul] at hslot hpayload
  unfold Arena.Clear at h
  unfold Arena.payloadCapacity at hroom
  unfold Addr.Apart
  simp only [Arena.payloadAt, Addr.toNat_add]
  have hsize : 0 < maxPacketSize := by decide
  omega

namespace ReceiveView

variable {setup : Setup} {n : Nat} {v v' : ReceiveView}

/-- `n` buffers are posted, which overlap neither with one another nor with other buffers of the
stack, and no frame is waiting. -/
structure Armed (setup : Setup) (n : Nat) (v : ReceiveView) : Prop where
  index_eq : v.index = setup.index
  config_eq : v.config = setup.config
  opened : v.posted ≠ [] → v.engineOpen = true
  completed_eq : v.completed = []
  count : v.posted.length = n
  geometry : setup.start.SameSlots v.arena
  owned : ∃ outside, v.arena.Partition (v.lent [] ++ outside)
  pairwise : v.config.zeroCopyRx = false → v.posted.Pairwise Addr.Apart
  clear : v.config.zeroCopyRx = false → ∀ a ∈ v.posted, ∀ i : UInt16,
    i.toNat < setup.start.slots → a.Apart (setup.start.payloadAt i)

theorem Supplied.armed (h : v.Supplied setup [])
    (hroom : maxPacketSize ≤ setup.start.payloadCapacity) (hcount : v.posted.length = n) :
    v.Armed setup n := by
  have hslots : v.config.zeroCopyRx = false → v.posted.Pairwise Addr.Apart ∧
      ∀ a ∈ v.posted, ∀ i : UInt16, i.toNat < setup.start.slots →
        a.Apart (setup.start.payloadAt i) := by
    intro hcopying
    cases hready : v.rxPool.isInitialized with
    | false =>
        have hposted := h.vacant hcopying hready
        rw [List.append_nil] at hposted
        rw [hposted]
        exact ⟨List.Pairwise.nil, fun _ ha => absurd ha List.not_mem_nil⟩
    | true =>
        obtain ⟨base, lost, haccounts, hclear⟩ := h.slots hcopying hready
        rw [List.append_nil] at haccounts
        have hmem : ∀ a ∈ v.posted, ∃ i < poolSlots, base.add (i * maxPacketSize) = a := by
          intro a ha
          rw [← h.pool.capacity, ← h.pool.slotSize]
          exact Pool.mem_slotStarts.mp (haccounts.perm.mem_iff.mp (by simp [ha]))
        refine ⟨(List.nodup_append.mp haccounts.nodup).1.pairwise_of_forall_ne ?_, ?_⟩
        · intro a ha b hb hne
          obtain ⟨i, -, rfl⟩ := hmem a ha
          obtain ⟨j, -, rfl⟩ := hmem b hb
          have hij : i ≠ j := by
            rintro rfl
            exact hne rfl
          simpa using Addr.apart_of_ne 0 (Nat.le_refl maxPacketSize) hij
        · intro a ha j hj
          obtain ⟨i, hi, rfl⟩ := hmem a ha
          exact hclear.apart hroom hi hj
  exact { h with
    count := hcount
    pairwise := fun hcopying => (hslots hcopying).1
    clear := fun hcopying => (hslots hcopying).2 }

theorem Armed.apart (h : v.Armed setup n) (hroom : maxPacketSize ≤ setup.start.payloadCapacity) :
    v.posted.Pairwise Addr.Apart := by
  cases hmode : v.config.zeroCopyRx with
  | false => exact h.pairwise hmode
  | true =>
      obtain ⟨outside, howned⟩ := h.owned
      have hposted : v.lent [] = v.posted := by simp [lent, hmode]
      rw [hposted] at howned
      have hnodup := (List.nodup_append.mp (List.nodup_append.mp howned.nodup).2.1).1
      refine hnodup.pairwise_of_forall_ne fun a ha b hb hne => ?_
      obtain ⟨i, rfl, -⟩ := howned.mem_owned (List.mem_append_left _ ha)
      obtain ⟨j, rfl, -⟩ := howned.mem_owned (List.mem_append_left _ hb)
      refine Arena.apart_payloadAt ?_ fun heq => hne (by rw [heq])
      rw [Arena.payloadCapacity, ← h.geometry.slotSize]
      exact hroom

end ReceiveView

/-! ## A burst -/

structure WireFrame where
  bytes : List UInt8
  /-- The size that the engine reports. -/
  size : Nat
  status : UInt32

namespace WireFrame

def hasError (f : WireFrame) : Bool := RxCompletion.hasError ⟨none, f.size, f.status⟩

/-- As many bytes are written as are taken to be the frame. -/
def Whole (f : WireFrame) : Prop := f.hasError = false → min f.size maxPacketSize ≤ f.bytes.length

def stored (f : WireFrame) : StoredFrame := ⟨f.bytes.take (min f.size maxPacketSize), f.hasError⟩

def landed (f : WireFrame) (a : Addr) : Landed :=
  ⟨a, f.size, f.status, f.bytes.take (min f.size maxPacketSize)⟩

/-- The engine writes the frame, as far as there is room, and completes its descriptor. -/
def land (f : WireFrame) : Driver σ (Option Addr) :=
  Driver.completeReceive (fun a memory => memory.write a (f.bytes.take maxPacketSize)) f.size
    f.status

end WireFrame

namespace Driver

variable {arena : σ → Arena} {state : σ → π} {setup : Setup} {n : Nat} {start m m' : Machine σ}
  {frames left : List WireFrame} {f : WireFrame} {done : List Landed} {a : Addr}
  {posted : List Addr}

theorem run_land_nil (hposted : m.engine.posted = []) : f.land.run m = pure (none, m) := by
  simp [WireFrame.land, completeReceive, takePosted, hposted]

theorem run_land_cons (hposted : m.engine.posted = a :: posted) :
    f.land.run m = pure (some a, { m with
      engine := { m.engine with
        posted
        completed := m.engine.completed ++ [(f.landed a).completion] }
      memory := m.memory.write a (f.bytes.take maxPacketSize) }) := by
  simp [WireFrame.land, completeReceive, takePosted, hposted, arrive, WireFrame.landed,
    Landed.completion]

/-- Of a burst the frames `done` have arrived, and `left` are still to come. Frames that find no
posted buffer are lost. -/
structure Landing (start : Machine σ) (frames left : List WireFrame) (done : List Landed)
    (m : Machine σ) : Prop where
  interface : m.interface = start.interface
  world : m.world = start.world
  trace : m.trace = start.trace
  completed : m.engine.completed = done.map Landed.completion
  ring : done.map Landed.buf ++ m.engine.posted = start.engine.posted
  landed : ∀ f ∈ done, f.In m.memory
  stored : done.map Landed.stored ++ (left.take m.engine.posted.length).map WireFrame.stored =
    (frames.take start.engine.posted.length).map WireFrame.stored

theorem Landing.none (hcompleted : start.engine.completed = []) :
    Landing start frames frames [] start :=
  ⟨rfl, rfl, rfl, hcompleted, rfl, fun _ hf => absurd hf List.not_mem_nil, rfl⟩

theorem Landing.lose (h : Landing start frames (f :: left) done m)
    (hposted : m.engine.posted = []) : Landing start frames left done m := by
  refine { h with stored := ?_ }
  simpa [hposted] using h.stored

/-- What has landed before is not touched, for its buffer is another one. -/
theorem Landing.land (h : Landing start frames (f :: left) done m) (hwhole : f.Whole)
    (hapart : start.engine.posted.Pairwise Addr.Apart) (hposted : m.engine.posted = a :: posted) :
    Landing start frames left (done ++ [f.landed a]) { m with
      engine := { m.engine with
        posted
        completed := m.engine.completed ++ [(f.landed a).completion] }
      memory := m.memory.write a (f.bytes.take maxPacketSize) } := by
  have hring := h.ring
  rw [hposted] at hring
  refine { h with completed := ?_, ring := ?_, landed := ?_, stored := ?_ }
  · simp [h.completed]
  · simpa [WireFrame.landed] using hring
  · intro g hg hvalid
    rcases List.mem_append.mp hg with hg | hg
    · have hbuf : g.buf ∈ done.map Landed.buf := List.mem_map_of_mem hg
      have haway : g.buf.Apart a := by
        rw [← hring] at hapart
        exact (List.pairwise_append.mp hapart).2.2 _ hbuf _ List.mem_cons_self
      rw [Memory.read_write_of_apart haway (Nat.min_le_right _ _) (List.length_take_le _ _)]
      exact h.landed g hg hvalid
    · obtain rfl := List.mem_singleton.mp hg
      have hfits : min f.size maxPacketSize ≤ (f.bytes.take maxPacketSize).length := by
        rw [List.length_take]
        exact Nat.le_min.mpr ⟨Nat.min_le_right _ _, hwhole hvalid⟩
      show (m.memory.write a _).read a (min f.size maxPacketSize) = _
      rw [Memory.read_write_self _ _ hfits, List.take_take, Nat.min_eq_left (Nat.min_le_right _ _)]
      rfl
  · rw [← h.stored, hposted]
    simp [WireFrame.landed, Landed.stored, WireFrame.stored, Landed.completion, WireFrame.hasError,
      RxCompletion.hasError]

theorem meets_arrival (hwhole : ∀ f ∈ frames, f.Whole)
    (hapart : start.engine.posted.Pairwise Addr.Apart) (hcompleted : start.engine.completed = []) :
    Meets (fun m => m = start) (frames.forM fun f => do let _ ← f.land)
      fun _ m => ∃ done, Landing start frames [] done m := by
  refine (Meets.forM (I := fun left m => (∀ f ∈ left, f.Whole) ∧
    ∃ done, Landing start frames left done m) (fun f left => ?_) frames).mono ?_ fun _ _ h => h.2
  · rintro m ⟨hleft, done, hlanding⟩
    have hrest : ∀ g ∈ left, g.Whole := fun g hg => hleft g (List.mem_cons_of_mem _ hg)
    cases hposted : m.engine.posted with
    | nil =>
        rw [StateT.run_bind, run_land_nil hposted]
        exact ⟨hrest, done, hlanding.lose hposted⟩
    | cons a posted =>
        rw [StateT.run_bind, run_land_cons hposted]
        exact ⟨hrest, _, hlanding.land (hleft f List.mem_cons_self) hapart hposted⟩
  · rintro m rfl
    exact ⟨hwhole, [], .none hcompleted⟩

end Driver

end XgmacDriver
