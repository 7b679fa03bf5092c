import XgmacDriver.Proofs.FrameContent
import XgmacDriver.Proofs.Triple
import XgmacDriver.Proofs.ZeroCopyReceive

/-! # Frames in their buffers during a drain

A received frame stays in its buffer until it is handed up. With copying its buffer is a slot that
overlaps with no buffer of the stack, and the copies are in different buffers of the stack. Without
copying nothing is written at all. `Reception` says how far a drain has come and that the frames are
still what they were, and here is what each step of a drain makes of it.
-/

namespace XgmacDriver

variable {σ π : Type}

structure Landed where
  buf : Addr
  size : Nat
  status : UInt32
  content : List UInt8

namespace Landed

def completion (f : Landed) : RxCompletion := ⟨some f.buf, f.size, f.status⟩

def stored (f : Landed) : StoredFrame := ⟨f.content, f.completion.hasError⟩

/-- The content of a frame without an error is in its buffer. -/
def In (memory : Memory) (f : Landed) : Prop :=
  f.completion.hasError = false → memory.read f.buf (min f.size maxPacketSize) = f.content

end Landed

/-- What is fixed while a burst is drained: the interface, the arena and the buffers of the ring as
the drain found them, the exchange at which it began, and all that is to be handed up. -/
structure Burst (π : Type) where
  interface : Interface
  classifier : Classifier π
  start : Arena
  ring : List Addr
  since : Nat
  total : List Parcel
  room : maxPacketSize ≤ start.payloadCapacity
  apart : interface.config.zeroCopyRx = false →
    ∀ a ∈ ring, ∀ i : UInt16, i.toNat < start.slots → a.Apart (start.payloadAt i)

namespace Burst

variable (b : Burst π)

/-- Without copying the buffers of the ring are the stack's. -/
def lent (ring : List Addr) : List Addr := if b.interface.config.zeroCopyRx then ring else []

/-- The ring has as many buffers as at the start, and with copying it has the same ones. -/
structure Ring (ring : List Addr) : Prop where
  length_eq : ring.length = b.ring.length
  perm : b.interface.config.zeroCopyRx = false → ring.Perm b.ring

theorem Ring.congr {b : Burst π} {ring ring' : List Addr} (h : b.Ring ring)
    (hperm : ring.Perm ring') : b.Ring ring' :=
  ⟨hperm.length_eq.symm.trans h.length_eq, fun hcopying => hperm.symm.trans (h.perm hcopying)⟩

theorem lent_perm {ring ring' : List Addr} (h : ring.Perm ring') :
    (b.lent ring).Perm (b.lent ring') := by
  unfold lent
  split
  · exact h
  · exact List.Perm.refl _

def due (fs : List Landed) : π → List Parcel :=
  b.classifier.parcels b.interface.config.filterFrames b.interface.index (fs.map Landed.stored)

theorem due_cons_of_error {f : Landed} {fs : List Landed} (hf : f.completion.hasError = true) :
    b.due (f :: fs) = b.due fs := by
  funext s
  simp [due, Classifier.parcels, Landed.stored, hf]

theorem due_cons {f : Landed} {fs : List Landed} (hf : f.completion.hasError = false) :
    b.due (f :: fs) = b.classifier.screened b.interface.config.filterFrames b.interface.index
      f.content (b.due fs) := by
  funext s
  simp only [due, List.map_cons, Classifier.parcels, Landed.stored, hf, Bool.false_eq_true,
    if_false]

structure Usable (buffer : NetworkBuffer) : Prop where
  payload : buffer.payload = some (b.start.payloadAt buffer.index)
  capacity : maxPacketSize ≤ buffer.capacity

end Burst

/-- How far a drain has come: the frame whose descriptor is open, those that are still completed,
the buffer for the open descriptor, a fresh buffer, the frames that are not handed up yet, the
number of those that are, and what is due after them. -/
structure Standing (π : Type) where
  opened : List Landed
  rest : List Landed
  spare : List Addr
  fresh : List Addr
  frames : List RxFrame
  taken : Nat
  due : π → List Parcel

namespace Standing

def between (rest : List Landed) (frames : List RxFrame) (taken : Nat) (due : π → List Parcel) :
    Standing π :=
  ⟨[], rest, [], [], frames, taken, due⟩

def holding (opened rest : List Landed) (a : Addr) (frames : List RxFrame) (taken : Nat)
    (due : π → List Parcel) : Standing π :=
  ⟨opened, rest, [a], [], frames, taken, due⟩

def replacing (opened rest : List Landed) (a fresh : Addr) (frames : List RxFrame) (taken : Nat)
    (due : π → List Parcel) : Standing π :=
  ⟨opened, rest, [a], [fresh], frames, taken, due⟩

/-- The buffers that are in the ring of the engine or on their way back to it. -/
def ring (p : Standing π) (m : Machine σ) : List Addr :=
  m.engine.posted ++ p.rest.map Landed.buf ++ p.spare

end Standing

/-- A drain of the burst `b` has come as far as `p`, and nothing that is to be handed up is lost. -/
structure Reception (arena : σ → Arena) (state : σ → π) (b : Burst π) (p : Standing π)
    (m : Machine σ) : Prop where
  interface : m.interface = b.interface
  completed : m.engine.completed = p.rest.map Landed.completion
  slots : b.start.SameSlots (arena m.world)
  ring : b.Ring (p.ring m)
  owned : ∃ outside, (arena m.world).Partition
    (b.lent (p.ring m) ++ (p.fresh ++ payloadsOf b.start p.frames) ++ outside)
  frames : ∀ f ∈ p.frames, f.buffer.payload = some (b.start.payloadAt f.buffer.index) ∧
    f.buffer.length ≤ maxPacketSize
  landed : ∀ f ∈ p.opened ++ p.rest, f.In m.memory
  taken : (m.parcels b.since).length = p.taken
  parcels : m.parcels b.since ++ p.frames.map (fun f => Parcel.of (Delivery.of m.memory f)) ++
    p.due (state m.world) = b.total

theorem Machine.parcels_of_since {n : Nat} {m m' : Machine σ} {x : Exchange}
    (h : m'.since n = m.since n ++ [x]) : m'.parcels n = m.parcels n ++ x.parcels := by
  simp [parcels, h]

namespace Reception

variable {arena : σ → Arena} {state : σ → π} {b : Burst π} {p : Standing π} {m m' : Machine σ}

/-- After an exchange that hands nothing up. Buffers may have moved within the ring. -/
theorem exchange {x : Exchange} {opened rest : List Landed} {spare : List Addr}
    {due : π → List Parcel} (h : Reception arena state b p m)
    (hsince : m'.since b.since = m.since b.since ++ [x]) (hx : x.parcels = [])
    (hinterface : m'.interface = m.interface)
    (hcompleted : m'.engine.completed = rest.map Landed.completion)
    (hring : (p.ring m).Perm (m'.engine.posted ++ rest.map Landed.buf ++ spare))
    (hlanded : opened ++ rest ⊆ p.opened ++ p.rest) (hmemory : m'.memory = m.memory)
    (harena : arena m'.world = arena m.world)
    (hdue : due (state m'.world) = p.due (state m.world)) :
    Reception arena state b { p with opened, rest, spare, due } m' := by
  have hparcels : m'.parcels b.since = m.parcels b.since := by
    rw [Machine.parcels_of_since hsince, hx, List.append_nil]
  obtain ⟨outside, howned⟩ := h.owned
  refine ⟨hinterface.trans h.interface, hcompleted, ?_, h.ring.congr hring, ⟨outside, ?_⟩,
    h.frames, ?_, ?_, ?_⟩
  · rw [harena]
    exact h.slots
  · rw [harena]
    exact howned.congr (((b.lent_perm hring).append_right _).append_right _)
  · intro f hf
    rw [hmemory]
    exact h.landed f (hlanded hf)
  · rw [hparcels]
    exact h.taken
  · show m'.parcels b.since ++ _ ++ due (state m'.world) = b.total
    rw [hparcels, hmemory, hdue]
    exact h.parcels

theorem idle {x : Exchange} {due : π → List Parcel} (h : Reception arena state b p m)
    (hsince : m'.since b.since = m.since b.since ++ [x]) (hx : x.parcels = [])
    (hinterface : m'.interface = m.interface) (hengine : m'.engine = m.engine)
    (hmemory : m'.memory = m.memory) (harena : arena m'.world = arena m.world)
    (hdue : due (state m'.world) = p.due (state m.world)) :
    Reception arena state b { p with due } m' := by
  refine h.exchange hsince hx hinterface ?_ ?_ (List.Subset.refl _) hmemory harena hdue
  · rw [hengine]
    exact h.completed
  · rw [hengine]
    exact List.Perm.refl _

theorem fresh_lt {i : UInt16} (h : Reception arena state b p m)
    (hi : b.start.payloadAt i ∈ p.fresh) : i.toNat < b.start.slots := by
  obtain ⟨outside, howned⟩ := h.owned
  obtain ⟨j, heq, hlt, -⟩ := howned.mem_owned (p := b.start.payloadAt i) (by simp [hi])
  rw [h.slots.payloadAt_eq] at heq
  obtain rfl := howned.wellFormed.payloadAt_inj.mp heq
  rw [h.slots.slots]
  exact hlt

theorem apart_fresh {i : UInt16} {a : Addr} (h : Reception arena state b p m)
    (hcopying : b.interface.config.zeroCopyRx = false) (hi : b.start.payloadAt i ∈ p.fresh)
    (ha : a ∈ p.ring m) : a.Apart (b.start.payloadAt i) :=
  b.apart hcopying a ((h.ring.perm hcopying).mem_iff.mp ha) i (h.fresh_lt hi)

theorem fresh_ne {i : UInt16} {g : RxFrame} (h : Reception arena state b p m)
    (hi : b.start.payloadAt i ∈ p.fresh) (hg : g ∈ p.frames) : g.buffer.index ≠ i := by
  obtain ⟨outside, howned⟩ := h.owned
  have hlent := (List.nodup_append.mp (List.nodup_append.mp howned.nodup).2.1).1
  have hdisjoint := (List.nodup_append.mp (List.nodup_append.mp hlent).2.1).2.2
  rintro rfl
  exact hdisjoint _ hi _ (List.mem_map_of_mem (f := fun g => b.start.payloadAt g.buffer.index) hg)
    rfl

theorem close {opened rest : List Landed} {a : Addr} {frames : List RxFrame} {taken : Nat}
    {due : π → List Parcel}
    (h : Reception arena state b (.holding opened rest a frames taken due) m) :
    Reception arena state b (.holding [] rest a frames taken due) m :=
  { h with landed := fun f hf => h.landed f (List.mem_append_right _ hf) }

/-- Without copying the two buffers in hand may change places. -/
theorem swap {opened rest : List Landed} {a fresh : Addr} {frames : List RxFrame} {taken : Nat}
    {due : π → List Parcel} (hzero : b.interface.config.zeroCopyRx = true)
    (h : Reception arena state b (.replacing opened rest a fresh frames taken due) m) :
    Reception arena state b (.replacing opened rest fresh a frames taken due) m := by
  obtain ⟨outside, howned⟩ := h.owned
  refine { h with
    ring := ⟨?_, fun hcopying => ?_⟩
    owned := ⟨outside, howned.congr ?_⟩ }
  · rw [← h.ring.length_eq]
    simp [Standing.ring, Standing.replacing]
  · exact absurd (hcopying.symm.trans hzero) Bool.false_ne_true
  · rw [Burst.lent, Burst.lent, if_pos hzero, if_pos hzero, List.perm_iff_count]
    intro q
    simp only [Standing.ring, Standing.replacing, List.count_append, List.count_cons,
      List.count_nil]
    omega

/-- A frame that is in a buffer of the stack joins those that wait, without its checksum. -/
theorem forward {f : Landed} {opened rest : List Landed} {buffer : NetworkBuffer} {refill : Addr}
    {frames : List RxFrame} {taken : Nat} {due : π → List Parcel} (husable : b.Usable buffer)
    (hf : f.completion.hasError = false)
    (hcopy : { f with buf := b.start.payloadAt buffer.index } ∈ opened) (endpoint : Option UInt16)
    (h : Reception arena state b (.replacing opened rest refill (b.start.payloadAt buffer.index)
      frames taken fun s =>
        { bytes := f.content.take (f.content.length - ethernetCrcLength)
          length := f.content.length - ethernetCrcLength
          interface := b.interface.index
          endpoint } :: due s) m) :
    Reception arena state b (.holding [] rest refill (frames ++ [{
      buffer := { buffer with
        length := min (min f.size maxPacketSize) buffer.capacity - ethernetCrcLength }
      interface := m.interface.index
      endpoint }]) taken due) m := by
  obtain ⟨outside, howned⟩ := h.owned
  have hcontent := h.landed _ (List.mem_append_left _ hcopy) hf
  have hlength : min (min f.size maxPacketSize) buffer.capacity = f.content.length := by
    rw [← hcontent, Memory.length_read]
    exact Nat.min_eq_left (Nat.le_trans (Nat.min_le_right _ _) husable.capacity)
  have hle : f.content.length - ethernetCrcLength ≤ min f.size maxPacketSize := by
    rw [← hcontent, Memory.length_read]
    exact Nat.sub_le _ _
  refine ⟨h.interface, h.completed, h.slots, h.ring, ⟨outside, ?_⟩, ?_, ?_, h.taken, ?_⟩
  · refine howned.congr ?_
    rw [List.perm_iff_count]
    intro q
    simp only [Standing.ring, Standing.holding, Standing.replacing, payloadsOf, List.map_append,
      List.map_cons, List.map_nil, List.count_append, List.count_cons, List.count_nil]
    omega
  · intro g hg
    rcases List.mem_append.mp hg with hg | hg
    · exact h.frames g hg
    · obtain rfl := List.mem_singleton.mp hg
      refine ⟨husable.payload, ?_⟩
      show _ - _ ≤ _
      rw [hlength]
      exact Nat.le_trans hle (Nat.min_le_right _ _)
  · intro g hg
    exact h.landed g (List.mem_append_right _ hg)
  · -- What is at the front of the parcels that were due is now the parcel of a frame in hand.
    have hbytes : m.memory.read (b.start.payloadAt buffer.index)
        (f.content.length - ethernetCrcLength) =
          f.content.take (f.content.length - ethernetCrcLength) := by
      rw [← Memory.read_take m.memory _ hle]
      exact congrArg (List.take _) hcontent
    rw [← h.parcels]
    simp [Standing.holding, Standing.replacing, Parcel.of, Delivery.of, husable.payload, hlength,
      hbytes, h.interface]

end Reception

namespace Driver

variable {c : Collaborators σ} {arena : σ → Arena} {state : σ → π} {b : Burst π} {p : Standing π}
  {I : Interface → Prop} {n : Nat}

/-! ## Single steps -/

theorem provision_config {i : Interface} {A : Machine σ → Prop} :
    Meets (OnProvision n (· = i) A) config fun config m =>
      config = i.config ∧ OnProvision n (· = i) A m :=
  fun _ hm => ⟨congrArg Interface.config hm.interface, hm⟩

theorem receiving_report (entry : LogEntry) :
    Meets (OnProvision b.since I (Reception arena state b p)) (report entry) fun _ =>
      OnProvision b.since I (Reception arena state b p) := by
  intro m hm
  refine hm.aside rfl hm.interface fun _ h => ?_
  exact ⟨h.interface, h.completed, h.slots, h.ring, h.owned, h.frames, h.landed, h.taken, h.parcels⟩

theorem receiving_readMemory {f : Landed} (hf : f.completion.hasError = false)
    (hopened : f ∈ p.opened) :
    Meets (OnProvision b.since I (Reception arena state b p))
      (readMemory f.buf (min f.size maxPacketSize) : Driver σ (List UInt8)) fun bytes =>
        OnProvision b.since I fun m => bytes = f.content ∧ Reception arena state b p m :=
  fun _ hm => hm.mono fun h => ⟨h.landed f (List.mem_append_left _ hopened) hf, h⟩

section

variable (hstack : ArenaStack c arena) (hclass : Classifies c b.classifier state)
include hstack hclass

theorem receiving_considerFrame {bytes content : List UInt8}
    (due : Disposition → π → List Parcel)
    (hdue : ∀ s, p.due s =
      due (b.classifier.consider content s).1 (b.classifier.consider content s).2) :
    Meets (OnProvision b.since I fun m => bytes = content ∧ Reception arena state b p m)
      (considerFrame c bytes) fun verdict => OnProvision b.since I
        (Reception arena state b { p with due := due verdict }) := by
  refine meets_considerFrame fun m verdict world hm hanswer => ?_
  refine hm.exchange rfl rfl ?_
  rintro hsince ⟨rfl, h⟩ -
  obtain ⟨hverdict, hstate⟩ := hclass.considerFrame bytes m.world
  rw [hanswer] at hverdict hstate
  refine h.idle hsince rfl rfl rfl rfl (hstack.considerFrame hanswer) ?_
  rw [hdue, ← hverdict, ← hstate]

theorem receiving_matchEndpoint {bytes content : List UInt8}
    (due : Option UInt16 → π → List Parcel)
    (hdue : ∀ s, p.due s = due (b.classifier.endpoint b.interface.index content s).1
      (b.classifier.endpoint b.interface.index content s).2) :
    Meets (OnProvision b.since I fun m => bytes = content ∧ Reception arena state b p m)
      (matchEndpoint c bytes) fun endpoint => OnProvision b.since I
        (Reception arena state b { p with due := due endpoint }) := by
  refine meets_matchEndpoint fun m endpoint world hm hanswer => ?_
  refine hm.exchange rfl rfl ?_
  rintro hsince ⟨rfl, h⟩ -
  obtain ⟨hendpoint, hstate⟩ := hclass.matchEndpoint b.interface.index bytes m.world
  rw [h.interface] at hanswer
  rw [hanswer] at hendpoint hstate
  refine h.idle hsince rfl rfl rfl rfl (hstack.matchEndpoint hanswer) ?_
  rw [hdue, ← hendpoint, ← hstate]

theorem receiving_getBuffer (wanted block : Nat) :
    Meets (OnProvision b.since I (Reception arena state b p)) (getBuffer c wanted block) fun
      | none => OnProvision b.since I fun _ => False
      | some buffer => OnProvision b.since I fun m => b.Usable buffer ∧
          Reception arena state b { p with fresh := b.start.payloadAt buffer.index :: p.fresh }
            m := by
  refine meets_getBuffer fun m answer world hm hanswer => ?_
  cases answer with
  | none =>
      exact hm.exchange rfl rfl fun _ _ hgranted => Bool.false_ne_true hgranted
  | some buffer =>
      refine hm.exchange rfl rfl fun hsince h hgranted => ?_
      obtain ⟨hsome, hcapacity⟩ : buffer.payload.isSome = true ∧
          maxPacketSize ≤ buffer.capacity := by
        simpa [Exchange.granted] using hgranted
      obtain ⟨taken, htake, hindex, hpayload⟩ := hstack.getBuffer_some hanswer
      obtain ⟨outside, howned⟩ := h.owned
      obtain ⟨hslots, hpartition, htaken⟩ := howned.take wanted htake
      rw [← h.slots.payloadAt_eq, ← hindex] at hpartition htaken
      have hparcels : Machine.parcels b.since { m with
          trace := m.trace.push (.getBuffer wanted block (some buffer)), world } =
            m.parcels b.since := by
        rw [Machine.parcels_of_since hsince]
        exact List.append_nil _
      have hstate : state world = state m.world := by
        rw [← hclass.getBuffer wanted block m.world, hanswer]
      refine ⟨⟨?_, hcapacity⟩, h.interface, h.completed, h.slots.trans hslots, h.ring,
        ⟨outside, hpartition.congr ?_⟩, h.frames, h.landed, ?_, ?_⟩
      · rcases hpayload with hpayload | hpayload
        · exact hpayload.trans htaken
        · simp [hpayload] at hsome
      · rw [List.perm_iff_count]
        intro q
        simp only [Standing.ring, List.count_append, List.count_cons]
        omega
      · rw [hparcels]
        exact h.taken
      · rw [hparcels, hstate]
        exact h.parcels

theorem receiving_lookup {a : Addr} (hzero : b.interface.config.zeroCopyRx = true)
    (ha : a ∈ p.spare) :
    Meets (OnProvision b.since I (Reception arena state b p)) (lookup c a) fun
      | none => OnProvision b.since I fun _ => False
      | some owner => OnProvision b.since I fun m =>
          (b.Usable owner ∧ b.start.payloadAt owner.index = a) ∧ Reception arena state b p m := by
  refine meets_lookup fun m answer world hm hanswer => ?_
  obtain ⟨hlookup, harena⟩ := hstack.lookup hanswer
  -- Whose buffer it is the arena knows, for the ring lies in the arena.
  have howner : Reception arena state b p m →
      ∃ owner, answer = some owner ∧ b.Usable owner ∧ b.start.payloadAt owner.index = a := by
    intro h
    obtain ⟨outside, howned⟩ := h.owned
    have hmem : a ∈ b.lent (p.ring m) ++ (p.fresh ++ payloadsOf b.start p.frames) ++ outside := by
      simp [Burst.lent, hzero, Standing.ring, ha]
    obtain ⟨i, rfl, hlt, -⟩ := howned.mem_owned hmem
    rw [howned.wellFormed.lookup_payloadAt hlt, Arena.descriptor_of_lt hlt] at hlookup
    refine ⟨_, hlookup, ⟨?_, ?_⟩, ?_⟩
    · rw [h.slots.payloadAt_eq]
    · show maxPacketSize ≤ (arena m.world).payloadCapacity
      rw [Arena.payloadCapacity, ← h.slots.slotSize]
      exact b.room
    · rw [h.slots.payloadAt_eq]
  cases answer with
  | none =>
      refine hm.exchange rfl rfl fun _ h _ => ?_
      obtain ⟨owner, hnone, -⟩ := howner h
      cases hnone
  | some owner =>
      refine hm.exchange rfl rfl fun hsince h _ => ?_
      obtain ⟨_, hsome, husable, hpayload⟩ := howner h
      obtain rfl := Option.some.inj hsome
      refine ⟨⟨husable, hpayload⟩, h.idle hsince rfl rfl rfl rfl harena ?_⟩
      rw [← hclass.lookup a m.world, hanswer]

theorem receiving_refill {a : Addr} (ha : p.spare = [a]) :
    Meets (OnProvision b.since I (Reception arena state b p)) (command c (.refill a)) fun
      | .ok () => OnProvision b.since I (Reception arena state b { p with spare := [] })
      | .error _ => OnProvision b.since I fun _ => False := by
  refine meets_command (fun m world hm hanswer => ?_) fun m world status hm _ => ?_
  · refine hm.exchange rfl rfl fun hsince h _ => ?_
    refine h.exchange hsince rfl rfl h.completed ?_ (List.Subset.refl _) rfl
      (hstack.command hanswer) ?_
    · rw [Standing.ring, ha, List.perm_iff_count]
      intro q
      simp only [Engine.accept, List.count_append, List.count_nil]
      omega
    · rw [← hclass.refill m.clock a m.world, hanswer]
  · exact hm.exchange rfl rfl fun _ _ hgranted => Bool.false_ne_true hgranted

theorem receiving_sendRxEvent (fs gs : List RxFrame) :
    Meets (OnProvision b.since I (Reception arena state b { p with frames := fs ++ gs }))
      (sendRxEvent c fs) fun
      | true => OnProvision b.since I
          (Reception arena state b { p with frames := gs, taken := p.taken + fs.length })
      | false => OnProvision b.since I fun _ => False := by
  refine meets_sendRxEvent fun m taken world hm hanswer => ?_
  cases taken with
  | false =>
      exact hm.exchange rfl rfl fun _ _ hgranted => Bool.false_ne_true hgranted
  | true =>
      refine hm.exchange rfl rfl fun hsince h _ => ?_
      have hparcels := Machine.parcels_of_since hsince
      have hstate : state world = state m.world := by
        rw [← hclass.sendRxEvent (fs.map (Delivery.of m.memory)) rxEventTimeout m.world, hanswer]
      have harena := hstack.sendRxEvent hanswer
      obtain ⟨outside, howned⟩ := h.owned
      refine ⟨h.interface, h.completed, ?_, h.ring, ⟨payloadsOf b.start fs ++ outside, ?_⟩, ?_,
        h.landed, ?_, ?_⟩
      · rw [harena]
        exact h.slots
      · rw [harena]
        refine howned.congr ?_
        rw [List.perm_iff_count]
        intro q
        simp only [Standing.ring, payloadsOf, List.map_append, List.count_append]
        omega
      · intro f hf
        exact h.frames f (List.mem_append_right _ hf)
      · rw [hparcels, List.length_append, h.taken]
        simp [Exchange.parcels]
      · rw [hparcels, hstate, ← h.parcels]
        simp [Exchange.parcels, Function.comp_def]

end

theorem receiving_nextReceived {f : Landed} {rest : List Landed} (hrest : p.rest = f :: rest)
    (hspare : p.spare = []) (hopened : p.opened = []) :
    Meets (OnProvision b.since I (Reception arena state b p))
      (nextReceived : Driver σ (Option RxCompletion)) fun _ => OnProvision b.since I
        (Reception arena state b { p with opened := [f], rest, spare := [f.buf] }) := by
  refine meets_nextReceived fun m answer engine hm hanswer => ?_
  refine hm.exchange rfl rfl fun hsince h _ => ?_
  rw [Engine.nextCompleted, h.completed, hrest] at hanswer
  obtain ⟨-, rfl⟩ := Prod.mk.inj hanswer
  refine h.exchange hsince rfl rfl rfl ?_ ?_ rfl rfl rfl
  · rw [Standing.ring, hrest, hspare, List.perm_iff_count]
    intro q
    simp only [List.map_cons, List.count_append, List.count_cons, List.count_nil]
    omega
  · rw [hrest, hopened]
    exact List.Subset.refl _

theorem receiving_nextReceived_nil (hrest : p.rest = []) :
    Meets (OnProvision b.since I (Reception arena state b p))
      (nextReceived : Driver σ (Option RxCompletion)) fun _ =>
        OnProvision b.since I (Reception arena state b p) := by
  refine meets_nextReceived fun m answer engine hm hanswer => ?_
  refine hm.exchange rfl rfl fun hsince h _ => ?_
  rw [Engine.nextCompleted, h.completed, hrest] at hanswer
  obtain ⟨-, rfl⟩ := Prod.mk.inj hanswer
  exact h.idle hsince rfl rfl rfl rfl rfl rfl

theorem receiving_copyMemory {f : Landed} {i : UInt16}
    (hcopying : b.interface.config.zeroCopyRx = false) (hf : f.completion.hasError = false)
    (hopened : p.opened = [f]) (hspare : p.spare = [f.buf])
    (hfresh : p.fresh = [b.start.payloadAt i]) :
    Meets (OnProvision b.since I (Reception arena state b p))
      (copyMemory f.buf (b.start.payloadAt i) (min f.size maxPacketSize) : Driver σ Unit) fun _ =>
        OnProvision b.since I (Reception arena state b
          { p with opened := [{ f with buf := b.start.payloadAt i }, f] }) := by
  intro m hm
  refine hm.aside rfl hm.interface fun _ h => ?_
  let memory := m.memory.copy f.buf (b.start.payloadAt i) (min f.size maxPacketSize)
  -- Nothing lies where the copy goes, neither the ring nor a frame in hand.
  have hread : ∀ a n, a.Apart (b.start.payloadAt i) → n ≤ maxPacketSize →
      memory.read a n = m.memory.read a n := by
    intro a n hapart hn
    refine Memory.read_write_of_apart hapart hn ?_
    rw [Memory.length_read]
    exact Nat.min_le_right _ _
  have hfresh' : b.start.payloadAt i ∈ p.fresh := by simp [hfresh]
  have hring : ∀ g ∈ p.opened ++ p.rest, g.buf.Apart (b.start.payloadAt i) := by
    intro g hg
    refine h.apart_fresh hcopying hfresh' ?_
    rw [hopened, List.singleton_append, List.mem_cons] at hg
    rcases hg with rfl | hg
    · simp [Standing.ring, hspare]
    · have hbuf := List.mem_map_of_mem (f := Landed.buf) hg
      simp [Standing.ring, hbuf]
  have hframes : ∀ g ∈ p.frames, Delivery.of memory g = Delivery.of m.memory g := by
    intro g hg
    obtain ⟨hpayload, hle⟩ := h.frames g hg
    simp only [Delivery.of, hpayload]
    rw [hread _ _ (Arena.apart_payloadAt b.room (h.fresh_ne hfresh' hg)) hle]
  refine ⟨h.interface, h.completed, h.slots, h.ring, h.owned, h.frames, ?_, h.taken, ?_⟩
  · intro g hg herror
    rw [List.cons_append, List.mem_cons] at hg
    rcases hg with rfl | hg
    · have hcopy := Memory.read_copy_self m.memory f.buf (b.start.payloadAt i)
        (min f.size maxPacketSize)
      exact hcopy.trans (h.landed f (by simp [hopened]) hf)
    · rw [← hopened] at hg
      have hsame := hread g.buf (min g.size maxPacketSize) (hring g hg) (Nat.min_le_right _ _)
      exact hsame.trans (h.landed g hg herror)
  · rw [← h.parcels]
    refine congrArg (_ ++ · ++ _) (List.map_congr_left fun g hg => ?_)
    exact congrArg Parcel.of (hframes g hg)

end Driver

end XgmacDriver
