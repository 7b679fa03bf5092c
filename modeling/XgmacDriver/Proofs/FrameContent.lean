import XgmacDriver.Proofs.ArenaStack
import XgmacDriver.Proofs.Traffic
import XgmacDriver.Receive

/-! # What the stack is to receive

Which frames of a burst reach the stack, and with which bytes, is a function of what lies in their
buffers and of how the stack classifies frames. The two ways of receiving move buffers in opposite
directions, and this function is what they have in common.
-/

namespace XgmacDriver

variable {σ π : Type}

/-- What a receive event tells the stack about a frame, except which buffer it is in. -/
structure Parcel where
  bytes : List UInt8
  length : Nat
  interface : UInt8
  endpoint : Option UInt16
deriving DecidableEq

def Parcel.of (d : Delivery) : Parcel :=
  ⟨d.bytes, d.frame.buffer.length, d.frame.interface, d.frame.endpoint⟩

/-- What was handed up in an event that the stack took. -/
def Exchange.parcels : Exchange → List Parcel
  | rxEvent _ deliveries true => deliveries.map Parcel.of
  | _ => []

def Machine.parcels (n : Nat) (m : Machine σ) : List Parcel := (m.since n).flatMap Exchange.parcels

/-- A received frame in its buffer, with as many bytes as are taken to be the frame. -/
structure StoredFrame where
  content : List UInt8
  errored : Bool

/-- How a stack classifies frames, which may depend on those that it has classified before. -/
structure Classifier (π : Type) where
  consider : List UInt8 → π → Disposition × π
  endpoint : UInt8 → List UInt8 → π → Option UInt16 × π

namespace Classifier

variable (K : Classifier π) (filter : Bool) (index : UInt8)

/-- The parcels of a frame that is handed up and of the frames after it. -/
def forwarded (content : List UInt8) (rest : π → List Parcel) (p : π) : List Parcel :=
  { bytes := content.take (content.length - ethernetCrcLength)
    length := content.length - ethernetCrcLength
    interface := index
    endpoint := (K.endpoint index content p).1 } :: rest (K.endpoint index content p).2

def screened (content : List UInt8) (rest : π → List Parcel) (p : π) : List Parcel :=
  if filter then
    if (K.consider content p).1 = .release then rest (K.consider content p).2
    else K.forwarded index content rest (K.consider content p).2
  else K.forwarded index content rest p

def parcels : List StoredFrame → π → List Parcel
  | [], _ => []
  | f :: fs, p =>
      if f.errored then parcels fs p else K.screened filter index f.content (parcels fs) p

end Classifier

/-- The stack classifies frames by `K`, whose state no other call of the receive path changes. -/
structure Classifies (c : Collaborators σ) (K : Classifier π) (state : σ → π) : Prop where
  considerFrame : ∀ bytes w, (c.considerFrame bytes w).1 = (K.consider bytes (state w)).1 ∧
    state (c.considerFrame bytes w).2 = (K.consider bytes (state w)).2
  matchEndpoint : ∀ index bytes w,
    (c.matchEndpoint index bytes w).1 = (K.endpoint index bytes (state w)).1 ∧
      state (c.matchEndpoint index bytes w).2 = (K.endpoint index bytes (state w)).2
  getBuffer : ∀ wanted block w, state (c.getBuffer wanted block w).2 = state w
  lookup : ∀ a w, state (c.lookup a w).2 = state w
  refill : ∀ clock a w, state (c.command clock (.refill a) w).2 = state w
  sendRxEvent : ∀ deliveries timeout w, state (c.sendRxEvent deliveries timeout w).2 = state w

/-! ## Generous collaborators -/

/-- A request for a buffer got one that can hold every frame, a refill was accepted, an event was
taken. -/
def Exchange.granted : Exchange → Bool
  | getBuffer _ _ answer => answer.any fun buffer =>
      buffer.payload.isSome && maxPacketSize ≤ buffer.capacity
  | command (.refill _) answer => answer.isOk
  | rxEvent _ _ accepted => accepted
  | _ => true

/-- Every request since the exchange `n` was granted. -/
def Machine.Provided (n : Nat) (m : Machine σ) : Prop := ∀ x ∈ m.since n, x.granted = true

instance (n : Nat) (m : Machine σ) : Decidable (m.Provided n) :=
  inferInstanceAs (Decidable (∀ x ∈ m.since n, x.granted = true))

/-- `A` holds unless a request since the exchange `n` was turned down. The interface satisfies `I`
in any case. -/
structure OnProvision (n : Nat) (I : Interface → Prop) (A : Machine σ → Prop) (m : Machine σ) :
    Prop where
  trace_le : n ≤ m.trace.size
  interface : I m.interface
  holds : m.Provided n → A m

namespace OnProvision

variable {n : Nat} {I J : Interface → Prop} {A B : Machine σ → Prop} {m m' : Machine σ}

theorem mono (h : OnProvision n I A m) (hA : A m → B m) : OnProvision n I B m :=
  { h with holds := fun hprovided => hA (h.holds hprovided) }

/-- After a step that records nothing. -/
theorem aside (h : OnProvision n I A m) (htrace : m'.trace = m.trace) (hinterface : J m'.interface)
    (hA : m'.since n = m.since n → A m → B m') : OnProvision n J B m' := by
  have hsince : m'.since n = m.since n := by rw [Machine.since, htrace, Machine.since]
  refine ⟨htrace ▸ h.trace_le, hinterface, fun hprovided => hA hsince (h.holds ?_)⟩
  rw [Machine.Provided, ← hsince]
  exact hprovided

theorem exchange {x : Exchange} (h : OnProvision n I A m) (htrace : m'.trace = m.trace.push x)
    (hinterface : m'.interface = m.interface)
    (hA : m'.since n = m.since n ++ [x] → A m → x.granted = true → B m') :
    OnProvision n I B m' := by
  have hsince := Machine.since_push h.trace_le htrace
  refine ⟨?_, hinterface ▸ h.interface, fun hprovided => ?_⟩
  · rw [htrace, Array.size_push]
    exact Nat.le_succ_of_le h.trace_le
  · rw [Machine.Provided, hsince] at hprovided
    refine hA hsince (h.holds fun y hy => ?_) (hprovided x (by simp))
    exact hprovided y (List.mem_append_left _ hy)

end OnProvision

/-! ## Buffers that do not overlap -/

/-- The largest frames at `a` and at `b` do not overlap. -/
def Addr.Apart (a b : Addr) : Prop :=
  a.toNat + maxPacketSize ≤ b.toNat ∨ b.toNat + maxPacketSize ≤ a.toNat

theorem Addr.Apart.symm {a b : Addr} (h : a.Apart b) : b.Apart a := Or.symm h

theorem Addr.apart_of_ne {base : Addr} {i j size : Nat} (offset : Nat)
    (hsize : maxPacketSize ≤ size) (h : i ≠ j) :
    (base.add (i * size + offset)).Apart (base.add (j * size + offset)) := by
  have hlt : ∀ i j : Nat, i < j →
      (base.add (i * size + offset)).Apart (base.add (j * size + offset)) := by
    intro i j hij
    have hmul : (i + 1) * size ≤ j * size := Nat.mul_le_mul_right size hij
    rw [Nat.succ_mul] at hmul
    refine Or.inl ?_
    simp only [Addr.toNat_add]
    omega
  rcases Nat.lt_or_gt_of_ne h with hij | hji
  · exact hlt i j hij
  · exact (hlt j i hji).symm

theorem Memory.read_write_of_apart {memory : Memory} {a b : Addr} {n : Nat} {bytes : List UInt8}
    (h : a.Apart b) (hn : n ≤ maxPacketSize) (hbytes : bytes.length ≤ maxPacketSize) :
    (memory.write b bytes).read a n = memory.read a n := by
  refine read_write_of_disjoint ?_
  unfold Addr.Apart at h
  omega

theorem Memory.read_take (memory : Memory) (a : Addr) {k n : Nat} (h : k ≤ n) :
    (memory.read a n).take k = memory.read a k := by
  rw [read, read, ← List.map_take, List.take_range, Nat.min_eq_left h]

namespace Arena

theorem apart_payloadAt {a : Arena} (hroom : maxPacketSize ≤ a.payloadCapacity) {i j : UInt16}
    (h : i ≠ j) : (a.payloadAt i).Apart (a.payloadAt j) := by
  have hne : i.toNat ≠ j.toNat := fun heq => h (UInt16.toNat_inj.mp heq)
  exact Addr.apart_of_ne bufferPadding (Nat.le_trans hroom (Nat.sub_le _ _)) hne

end Arena

end XgmacDriver
