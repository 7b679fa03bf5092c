import XgmacDriver.Proofs.ArenaStack
import XgmacDriver.Proofs.PairedRuns

/-! # Linked delivery

Batching changes only when frames go up. A drain with batching and one without it are followed side
by side: the frames of the events so far and those still in the batch are the frames that the other
drain has delivered one by one, each right after its descriptor was read.
-/

namespace XgmacDriver

variable {σ τ : Type}

/-- The stack takes every event, and an event changes nothing on which any other answer of the
collaborators depends. -/
structure EventBlind (c : Collaborators σ) (view : σ → τ) : Prop where
  accepts : ∀ deliveries timeout w, (c.sendRxEvent deliveries timeout w).1 = true
  event : ∀ deliveries timeout w, view (c.sendRxEvent deliveries timeout w).2 = view w
  refill : ∀ clock a, Sees view (c.command clock (.refill a))
  getBuffer : ∀ wanted block, Sees view (c.getBuffer wanted block)
  releaseBuffer : ∀ index, Sees view (c.releaseBuffer index)
  considerFrame : ∀ bytes, Sees view (c.considerFrame bytes)
  matchEndpoint : ∀ index bytes, Sees view (c.matchEndpoint index bytes)
  lookup : ∀ a, Sees view (c.lookup a)
  lock : ∀ d w w', view w = view w' → c.lock d w = c.lock d w'

/-- `events` is `frames` cut into pieces of `n`, of which only the last may be shorter. -/
structure Chunked {α : Type} (n : Nat) (frames : List α) (events : List (List α)) : Prop where
  flatten : events.flatten = frames
  nonempty : ∀ e ∈ events, e ≠ []
  le : ∀ e ∈ events, e.length ≤ n
  full : ∀ e ∈ events.dropLast, e.length = n

/-- Reads of the receive ring, each followed by at most one event, which has one frame. -/
inductive Arrivals : List Exchange → List RxFrame → Prop
  | start : Arrivals [] []
  | read {es : List Exchange} {frames : List RxFrame} (answer : Option RxCompletion) :
      Arrivals es frames → Arrivals (es ++ [.nextReceived answer]) frames
  | delivered {es : List Exchange} {frames : List RxFrame} {rx : RxCompletion} {timeout : Nat}
      {d : Delivery} {accepted : Bool} : Arrivals es frames →
      Arrivals (es ++ [.nextReceived (some rx), .rxEvent timeout [d] accepted])
        (frames ++ [d.frame])

theorem Arrivals.events {es : List Exchange} {frames : List RxFrame} (h : Arrivals es frames) :
    es.filterMap Exchange.event = frames.map fun f => [f] := by
  induction h with
  | start => rfl
  | read answer _ ih =>
      rw [List.filterMap_append, ih]
      exact List.append_nil _
  | delivered _ ih =>
      rw [List.filterMap_append, ih, List.map_append]
      rfl

/-- A descriptor has been read whose frame has not been delivered yet. -/
def Reading (es : List Exchange) (frames : List RxFrame) : Prop :=
  ∃ earlier rx, es = earlier ++ [.nextReceived (some rx)] ∧ Arrivals earlier frames

theorem Reading.arrivals {es : List Exchange} {frames : List RxFrame} (h : Reading es frames) :
    Arrivals es frames := by
  obtain ⟨earlier, rx, rfl, harrivals⟩ := h
  exact harrivals.read (some rx)

theorem Reading.delivered {es : List Exchange} {frames : List RxFrame} (h : Reading es frames)
    (timeout : Nat) (d : Delivery) (accepted : Bool) :
    Arrivals (es ++ [.rxEvent timeout [d] accepted]) (frames ++ [d.frame]) := by
  obtain ⟨earlier, rx, rfl, harrivals⟩ := h
  rw [List.append_assoc]
  exact harrivals.delivered

/-- Pieces of `n` with a shorter last one. -/
theorem chunked_append {α : Type} {n : Nat} {full : List (List α)} {last : List α} (hn : 0 < n)
    (hfull : ∀ e ∈ full, e.length = n) (hlast : last.length ≤ n) :
    Chunked n (full.flatten ++ last) (full ++ if last = [] then [] else [last]) := by
  have hnonempty : ∀ e ∈ full, e ≠ [] := by
    rintro e he rfl
    exact absurd (hfull [] he) (Nat.ne_of_lt hn)
  by_cases h : last = []
  · subst h
    refine ⟨by simp, by simpa using hnonempty, ?_, ?_⟩
    · intro e he
      exact Nat.le_of_eq (hfull e (by simpa using he))
    · intro e he
      exact hfull e ((List.dropLast_sublist full).subset (by simpa using he))
  · rw [if_neg h]
    refine ⟨by simp, ?_, ?_, ?_⟩
    · intro e he
      rcases List.mem_append.mp he with he | he
      · exact hnonempty e he
      · exact List.mem_singleton.mp he ▸ h
    · intro e he
      rcases List.mem_append.mp he with he | he
      · exact Nat.le_of_eq (hfull e he)
      · exact List.mem_singleton.mp he ▸ hlast
    · intro e he
      rw [List.dropLast_concat] at he
      exact hfull e he

namespace Driver

variable {c : Collaborators σ} {view : σ → τ}

/-! ## Steps that are the same with and without batching -/

section

variable (hc : EventBlind c view)
include hc

theorem aside_isFiltered (bytes : List UInt8) : Aside view (isFiltered c bytes) :=
  aside_config (fun _ => rfl) fun _ => Aside.ite
    ((aside_considerFrame (hc.considerFrame bytes)).bind fun _ => aside_pure _) (aside_pure _)

theorem aside_finish (buf : Addr) (length : Nat) (buffer : NetworkBuffer) (refill : Addr) :
    Aside view (do
      let endpoint ← matchEndpoint c (← readMemory buf length)
      let buffer := { buffer with length := min length buffer.capacity - ethernetCrcLength }
      return Received.forward { buffer, interface := (← interface).index, endpoint } refill) := by
  refine (aside_readMemory buf length).bind fun bytes => ?_
  refine (aside_matchEndpoint fun index => hc.matchEndpoint index bytes).bind fun endpoint => ?_
  exact aside_interface (fun _ => rfl) fun _ => aside_pure _

theorem aside_forwardFrame (buf : Addr) (length : Nat) (replacement : NetworkBuffer)
    (fresh : Addr) : Aside view (forwardFrame c buf length replacement fresh) := by
  unfold forwardFrame
  refine aside_config (fun _ => rfl) fun config => Aside.ite ?_ ?_
  · refine (aside_lookup (hc.lookup buf)).bind fun owner => ?_
    cases owner with
    | some owner => exact aside_finish hc buf length owner fresh
    | none =>
        refine (aside_report _).bind fun _ => ?_
        exact (aside_releaseBuffer (hc.releaseBuffer _)).bind fun _ => aside_pure _
  · exact (aside_copyMemory _ _ _).bind fun _ => aside_finish hc buf length replacement buf

theorem aside_receiveFrame (rx : RxCompletion) (buf : Addr) :
    Aside view (receiveFrame c rx buf) := by
  unfold receiveFrame
  refine Aside.ite ((aside_report _).bind fun _ => aside_pure _) ?_
  refine (aside_readMemory buf _).bind fun bytes => ?_
  refine (aside_isFiltered hc bytes).bind fun filtered => Aside.ite (aside_pure _) ?_
  refine (aside_getBuffer (hc.getBuffer _ _)).bind fun answer => ?_
  cases answer with
  | none => exact (aside_report _).bind fun _ => aside_pure _
  | some replacement =>
      dsimp only
      cases replacement.payload with
      | none => exact (aside_releaseBuffer (hc.releaseBuffer _)).bind fun _ => aside_pure _
      | some fresh => exact aside_forwardFrame hc buf _ replacement fresh

theorem aside_recycle (a : Addr) : Aside view (recycle c a) := by
  unfold recycle
  refine aside_config (fun _ => rfl) fun config => Aside.ite ?_ ?_
  · refine (aside_lookup (hc.lookup a)).bind fun owner => ?_
    cases owner with
    | some buffer => exact aside_releaseBuffer (hc.releaseBuffer _)
    | none => exact aside_report _
  · refine (aside_onPool (hc.lock .rx)).bind fun answer => ?_
    cases answer with
    | ok => exact aside_pure _
    | error e => exact aside_report _

end

/-! ## The two drains side by side -/

/-- The left machine, which batches, has sent nothing but full batches since `m` and has `batch`
left. The right one has sent the same frames, each on its own. -/
structure Batched (view : σ → τ) (m : Machine σ) (completed : List RxCompletion)
    (A : List Exchange → List RxFrame → Prop) (batch : List RxFrame) (m₁ m₂ : Machine σ) :
    Prop extends Alike view m₁ m₂ where
  linked : m₁.interface.config.linkedRx = true
  single : m₂.interface.config.linkedRx = false
  completed_eq : m₁.engine.completed = completed
  room : batch.length ≤ rxBatchCapacity
  frames : ∃ full es, m₁.events = m.events ++ full ∧ (∀ e ∈ full, e.length = rxBatchCapacity) ∧
    m₂.arrivals = m.arrivals ++ es ∧ A es (full.flatten ++ batch)

variable {m : Machine σ} {completed rest : List RxCompletion}
  {A B : List Exchange → List RxFrame → Prop} {batch : List RxFrame}

theorem Batched.mono {m₁ m₂ : Machine σ} (h : Batched view m completed A batch m₁ m₂)
    (hA : ∀ es frames, A es frames → B es frames) : Batched view m completed B batch m₁ m₂ := by
  obtain ⟨full, es, hevents, hfull, harrivals, hes⟩ := h.frames
  exact { h with frames := ⟨full, es, hevents, hfull, harrivals, hA _ _ hes⟩ }

theorem Aside.batched {α : Type} {x : Driver σ α} (hx : Aside view x) :
    Pairs (Batched view m completed A batch) x x fun a b m₁ m₂ =>
      a = b ∧ Batched view m completed A batch m₁ m₂ := by
  intro m₁ m₂ hm
  obtain ⟨hresult, halike⟩ := hx.same m₁ m₂ hm.toAlike
  have h₁ := hx.keeps m₁
  have h₂ := hx.keeps m₂
  have hevents : (x.run m₁).2.events = m₁.events := by
    rw [Machine.events_eq, Machine.events_eq,
      show (x.run m₁).2.arrivals = m₁.arrivals from congrArg ArrivalView.arrivals h₁]
  obtain ⟨full, es, hfull⟩ := hm.frames
  rw [← hevents, ← show _ = m₂.arrivals from congrArg ArrivalView.arrivals h₂] at hfull
  exact ⟨hresult, { halike with
    linked := (congrArg ArrivalView.linked h₁).trans hm.linked
    single := (congrArg ArrivalView.linked h₂).trans hm.single
    completed_eq := (congrArg ArrivalView.completed h₁).trans hm.completed_eq
    room := hm.room
    frames := ⟨full, es, hfull⟩ }⟩

theorem batched_nextReceived (answer : Option RxCompletion)
    (hanswer : ∀ e : Engine, e.completed = completed →
      e.nextCompleted.1 = answer ∧ e.nextCompleted.2.completed = rest)
    (hB : ∀ es frames, A es frames → B (es ++ [.nextReceived answer]) frames) :
    Pairs (Batched view m completed A batch) nextReceived nextReceived fun _ _ =>
      Batched view m rest B batch := by
  have hpush : ∀ m : Machine σ, m.engine.completed = completed →
      (nextReceived.run m).2.trace = m.trace.push (.nextReceived answer) := by
    intro m hm
    rw [run_nextReceived, (hanswer _ hm).1]
    rfl
  intro m₁ m₂ hm
  obtain ⟨full, es, hevents, hfull, harrivals, hes⟩ := hm.frames
  have h₁ := hpush m₁ hm.completed_eq
  have h₂ := hpush m₂ (hm.engine ▸ hm.completed_eq)
  refine { hm with
    engine := congrArg (·.nextCompleted.2) hm.engine
    others := ?_
    completed_eq := (hanswer _ hm.completed_eq).2
    frames := ⟨full, es ++ [.nextReceived answer], ?_, hfull, ?_, hB _ _ hes⟩ }
  · rw [Machine.others_push h₁, Machine.others_push h₂, hm.others]
  · rw [Machine.events_push h₁, hevents]
    exact List.append_nil _
  · rw [Machine.arrivals_push h₂, harrivals, List.append_assoc]
    rfl

def afterEvent (frames : List RxFrame) (world : σ) (m : Machine σ) : Machine σ :=
  { m with
    trace := m.trace.push (.rxEvent rxEventTimeout (frames.map (Delivery.of m.memory)) true)
    world }

theorem run_passToStack (hc : EventBlind c view) {frames : List RxFrame} (hframes : frames ≠ [])
    (m : Machine σ) : ∃ world, view world = view m.world ∧
      (passToStack c frames).run m = pure (frames.length, afterEvent frames world m) := by
  have hempty : frames.isEmpty = false := by simpa using hframes
  have haccepts := hc.accepts (frames.map (Delivery.of m.memory)) rxEventTimeout m.world
  refine ⟨_, hc.event (frames.map (Delivery.of m.memory)) rxEventTimeout m.world, ?_⟩
  simp only [passToStack, hempty, StateT.run_bind, run_sendRxEvent, run_ite, pure_bind, haccepts,
    if_true, Bool.false_eq_true, if_false, StateT.run_pure, afterEvent]

theorem alike_afterEvent (frames : List RxFrame) {world : σ} {m m' : Machine σ}
    (h : Alike view m m') (hworld : view world = view m.world) :
    Alike view (afterEvent frames world m) m' :=
  { h with
    others := ((Machine.others_push (x := .rxEvent _ _ _) rfl).trans (List.append_nil _)).trans
      h.others
    world := hworld.trans h.world }

theorem events_afterEvent (frames : List RxFrame) (world : σ) (m : Machine σ) :
    (afterEvent frames world m).events = m.events ++ [frames] := by
  have htrace : (afterEvent frames world m).trace = m.trace.push
      (.rxEvent rxEventTimeout (frames.map (Delivery.of m.memory)) true) := rfl
  rw [Machine.events_push htrace]
  simp [Exchange.event, Delivery.of, Function.comp_def]

theorem arrivals_afterEvent (frames : List RxFrame) (world : σ) (m : Machine σ) :
    (afterEvent frames world m).arrivals = m.arrivals ++
      [.rxEvent rxEventTimeout (frames.map (Delivery.of m.memory)) true] :=
  Machine.arrivals_push (x := .rxEvent _ _ _) rfl

/-- The descriptor is given a buffer again, and the drains go on or both end here. -/
theorem batched_refillAndDrain (hc : EventBlind c view) (refill : Addr) {rest : List RxCompletion}
    {batch : List RxFrame} {delivered₁ delivered₂ : Nat}
    (hcount : delivered₁ + batch.length = delivered₂)
    (hrest : Pairs (Batched view m rest Arrivals batch) (drain c batch delivered₁ rest)
      (drain c [] delivered₂ rest) fun r₁ r₂ m₁ m₂ =>
        (∃ rest, Batched view m rest Arrivals r₁.1 m₁ m₂) ∧ r₁.2 + r₁.1.length = r₂.2 ∧
          r₂.1 = []) :
    Pairs (Batched view m rest Arrivals batch)
      (do match ← command c (.refill refill) with
          | .ok () => drain c batch delivered₁ rest
          | .error status =>
              report (.refillRefused status)
              recycle c refill
              return (batch, delivered₁))
      (do match ← command c (.refill refill) with
          | .ok () => drain c [] delivered₂ rest
          | .error status =>
              report (.refillRefused status)
              recycle c refill
              return ([], delivered₂))
      fun r₁ r₂ m₁ m₂ => (∃ rest, Batched view m rest Arrivals r₁.1 m₁ m₂) ∧
        r₁.2 + r₁.1.length = r₂.2 ∧ r₂.1 = [] := by
  refine (aside_command fun clock => hc.refill clock refill).batched.bind_same ?_
  rintro (status | ⟨⟩)
  · refine (aside_report _).batched.bind_same fun _ => ?_
    refine (aside_recycle hc refill).batched.bind_same fun _ => ?_
    exact pairs_pure fun _ _ hm => ⟨⟨rest, hm⟩, hcount, rfl⟩
  · exact hrest

/-- With batching the frame goes to the batch, which goes up first if it is full; without, the frame
goes up. -/
theorem batched_deliver (hc : EventBlind c view) (frame : RxFrame) :
    Pairs (Batched view m completed Reading batch) (deliver c batch frame) (deliver c [] frame)
      fun r₁ r₂ m₁ m₂ => Batched view m completed Arrivals r₁.1 m₁ m₂ ∧ r₂ = ([], 1) ∧
        r₁.2 + r₁.1.length = batch.length + 1 := by
  intro m₁ m₂ hm
  obtain ⟨full, es, hevents, hfull, harrivals, hes⟩ := hm.frames
  obtain ⟨w₂, hw₂, hpass₂⟩ := run_passToStack hc (List.cons_ne_nil frame []) m₂
  have hright : (deliver c [] frame).run m₂ = (([], 1), afterEvent [frame] w₂ m₂) := by
    simp only [deliver, StateT.run_bind, run_config, pure_bind, hm.single, run_ite, Bool.not_false,
      if_true, StateT.run_pure, hpass₂]
    rfl
  have hsame := (alike_afterEvent [frame] hm.toAlike.symm hw₂).symm
  have hsent := hes.delivered rxEventTimeout (Delivery.of m₂.memory frame) true
  have harrivals₂ := (arrivals_afterEvent [frame] w₂ m₂).trans (harrivals ▸ List.append_assoc _ _ _)
  rw [hright]
  by_cases hroom : batch.length < rxBatchCapacity
  · -- The frame waits on the left, and has gone up on the right.
    have hleft : (deliver c batch frame).run m₁ = ((batch ++ [frame], 0), m₁) := by
      simp only [deliver, StateT.run_bind, run_config, pure_bind, hm.linked, run_ite, Bool.not_true,
        Bool.false_eq_true, if_false, hroom, if_true, StateT.run_pure]
      rfl
    rw [hleft]
    refine ⟨{ hsame with
      linked := hm.linked
      single := hm.single
      completed_eq := hm.completed_eq
      room := ?_
      frames := ⟨full, _, hevents, hfull, harrivals₂, ?_⟩ }, rfl, ?_⟩
    · simpa using Nat.succ_le_of_lt hroom
    · rw [← List.append_assoc]
      exact hsent
    · simp
  · -- The full batch goes up, and the frame begins the next one.
    have hbatch : batch.length = rxBatchCapacity := Nat.le_antisymm hm.room (Nat.le_of_not_lt hroom)
    have hne : batch ≠ [] := by
      rintro rfl
      cases hbatch
    obtain ⟨w₁, hw₁, hpass₁⟩ := run_passToStack hc hne m₁
    have hleft : (deliver c batch frame).run m₁ =
        (([frame], batch.length), afterEvent batch w₁ m₁) := by
      simp only [deliver, StateT.run_bind, run_config, pure_bind, hm.linked, run_ite, Bool.not_true,
        Bool.false_eq_true, if_false, hroom, StateT.run_pure, hpass₁]
      rfl
    rw [hleft]
    refine ⟨{ alike_afterEvent batch hsame hw₁ with
      linked := hm.linked
      single := hm.single
      completed_eq := hm.completed_eq
      room := by simp [rxBatchCapacity]
      frames := ⟨full ++ [batch], _, ?_, ?_, harrivals₂, ?_⟩ }, rfl, ?_⟩
    · rw [events_afterEvent, hevents, List.append_assoc]
    · intro e he
      rcases List.mem_append.mp he with he | he
      · exact hfull e he
      · exact List.mem_singleton.mp he ▸ hbatch
    · rw [List.flatten_append, List.flatten_singleton]
      exact hsent
    · rfl

theorem batched_drain (hc : EventBlind c view) (completed : List RxCompletion)
    (batch : List RxFrame) (delivered₁ delivered₂ : Nat)
    (hcount : delivered₁ + batch.length = delivered₂) :
    Pairs (Batched view m completed Arrivals batch) (drain c batch delivered₁ completed)
      (drain c [] delivered₂ completed) fun r₁ r₂ m₁ m₂ =>
        (∃ rest, Batched view m rest Arrivals r₁.1 m₁ m₂) ∧ r₁.2 + r₁.1.length = r₂.2 ∧
          r₂.1 = [] := by
  induction completed generalizing batch delivered₁ delivered₂ with
  | nil =>
      unfold drain
      have hread : Pairs (Batched view m [] Arrivals batch) nextReceived nextReceived
          fun _ _ => Batched view m [] Arrivals batch := by
        refine batched_nextReceived none ?_ fun es frames h => h.read none
        intro e he
        simp [Engine.nextCompleted, he]
      exact hread.bind fun _ _ => pairs_pure fun _ _ hm => ⟨⟨[], hm⟩, hcount, rfl⟩
  | cons rx rest ih =>
      have hread : Pairs (Batched view m (rx :: rest) Arrivals batch) nextReceived nextReceived
          fun _ _ => Batched view m rest Reading batch := by
        refine batched_nextReceived (some rx) ?_ fun es frames h => ⟨es, rx, rfl, h⟩
        intro e he
        simp [Engine.nextCompleted, he]
      unfold drain
      refine hread.bind fun _ _ => ?_
      cases hbuf : rx.buf with
      | none =>
          refine (aside_report _).batched.bind_same fun _ => pairs_pure fun _ _ hm => ?_
          exact ⟨⟨rest, hm.mono fun _ _ h => h.arrivals⟩, hcount, rfl⟩
      | some buf =>
          refine (aside_receiveFrame hc rx buf).batched.bind_same ?_
          rintro (⟨frame, refill⟩ | refill)
          · refine (batched_deliver hc frame).bind fun r₁ r₂ => ?_
            rintro m₁ m₂ ⟨hm, rfl, htaken⟩
            have hrest : delivered₁ + r₁.2 + r₁.1.length = delivered₂ + 1 := by omega
            exact batched_refillAndDrain hc refill hrest (ih r₁.1 _ _ hrest) m₁ m₂ hm
          · intro m₁ m₂ hm
            exact batched_refillAndDrain hc refill hcount (ih batch _ _ hcount) m₁ m₂
              (hm.mono fun _ _ h => h.arrivals)

/-- Since `m` the left machine has sent `frames` in full batches and a last one, and the right one
has sent them one by one. -/
structure Delivered (view : σ → τ) (m : Machine σ) (frames : List RxFrame) (m₁ m₂ : Machine σ) :
    Prop extends Alike view m₁ m₂ where
  chunks : ∃ chunks, m₁.events = m.events ++ chunks ∧ Chunked rxBatchCapacity frames chunks
  arrivals : ∃ es, m₂.arrivals = m.arrivals ++ es ∧ Arrivals es frames

theorem batched_passToStack (hc : EventBlind c view) (batch : List RxFrame) :
    Pairs (Batched view m completed Arrivals batch) (passToStack c batch) (passToStack c [])
      fun n₁ n₂ m₁ m₂ => n₁ = batch.length ∧ n₂ = 0 ∧
        ∃ frames, Delivered view m frames m₁ m₂ := by
  intro m₁ m₂ hm
  obtain ⟨full, es, hevents, hfull, harrivals, hes⟩ := hm.frames
  have hchunked := chunked_append (by decide) hfull hm.room
  have hright : (passToStack c []).run m₂ = (0, m₂) := rfl
  rw [hright]
  by_cases hbatch : batch = []
  · subst hbatch
    rw [if_pos rfl, List.append_nil full] at hchunked
    have hleft : (passToStack c []).run m₁ = (0, m₁) := rfl
    rw [hleft]
    exact ⟨rfl, rfl, _, { hm with
      chunks := ⟨full, hevents, hchunked⟩
      arrivals := ⟨es, harrivals, hes⟩ }⟩
  · obtain ⟨w, hw, hpass⟩ := run_passToStack hc hbatch m₁
    rw [if_neg hbatch] at hchunked
    rw [hpass]
    refine ⟨rfl, rfl, _, { alike_afterEvent batch hm.toAlike hw with
      chunks := ⟨full ++ [batch], ?_, hchunked⟩
      arrivals := ⟨es, harrivals, hes⟩ }⟩
    exact (events_afterEvent batch w m₁).trans (hevents ▸ List.append_assoc _ _ _)

end Driver

def Machine.withLinkedRx (linked : Bool) (m : Machine σ) : Machine σ :=
  { m with interface := { m.interface with
    config := { m.interface.config with linkedRx := linked } } }

namespace Driver

variable {c : Collaborators σ} {view : σ → τ} {m : Machine σ}

theorem alike_withLinkedRx (m : Machine σ) :
    Alike view (m.withLinkedRx true) (m.withLinkedRx false) :=
  ⟨rfl, rfl, rfl, rfl, rfl, rfl, rfl⟩

theorem batched_start (m : Machine σ) :
    Batched view m m.engine.completed Arrivals [] (m.withLinkedRx true) (m.withLinkedRx false) where
  toAlike := alike_withLinkedRx m
  linked := rfl
  single := rfl
  completed_eq := rfl
  room := Nat.zero_le _
  frames := ⟨[], [], (List.append_nil _).symm, fun _ he => absurd he List.not_mem_nil,
    (List.append_nil _).symm, .start⟩

theorem delivered_of_closed (hclosed : m.interface.engineOpen = false) :
    Pairs (fun m₁ m₂ => m₁ = m.withLinkedRx true ∧ m₂ = m.withLinkedRx false) (processReceived c)
      (processReceived c) fun n₁ n₂ m₁ m₂ => n₁ = n₂ ∧ ∃ frames, Delivered view m frames m₁ m₂ := by
  have hrun : ∀ linked, (processReceived c).run (m.withLinkedRx linked) =
      pure (0, m.withLinkedRx linked) := by
    intro linked
    simp [processReceived, Machine.withLinkedRx, hclosed]
  rintro m₁ m₂ ⟨rfl, rfl⟩
  rw [hrun, hrun]
  refine ⟨rfl, [], { alike_withLinkedRx m with
    chunks := ⟨[], (List.append_nil _).symm, ?_⟩
    arrivals := ⟨[], (List.append_nil _).symm, .start⟩ }⟩
  exact ⟨rfl, by simp, by simp, by simp⟩

theorem delivered_of_open (hc : EventBlind c view) (hopen : m.interface.engineOpen = true) :
    Pairs (fun m₁ m₂ => m₁ = m.withLinkedRx true ∧ m₂ = m.withLinkedRx false) (processReceived c)
      (processReceived c) fun n₁ n₂ m₁ m₂ => n₁ = n₂ ∧ ∃ frames, Delivered view m frames m₁ m₂ := by
  have hrun : ∀ linked, (processReceived c).run (m.withLinkedRx linked) =
      (do let r ← drain c [] 0 m.engine.completed
          return r.2 + (← passToStack c r.1)).run (m.withLinkedRx linked) := by
    intro linked
    simp [processReceived, Machine.withLinkedRx, hopen]
  have hdrain : Pairs (Batched view m m.engine.completed Arrivals [])
      (do let r ← drain c [] 0 m.engine.completed
          return r.2 + (← passToStack c r.1))
      (do let r ← drain c [] 0 m.engine.completed
          return r.2 + (← passToStack c r.1))
      fun n₁ n₂ m₁ m₂ => n₁ = n₂ ∧ ∃ frames, Delivered view m frames m₁ m₂ := by
    refine (batched_drain hc m.engine.completed [] 0 0 rfl).bind ?_
    rintro ⟨batch, k₁⟩ ⟨_, k₂⟩ m₁ m₂ ⟨⟨rest, hm⟩, hcount, rfl⟩
    have hpass : Pairs (Batched view m rest Arrivals batch)
        (do return k₁ + (← passToStack c batch)) (do return k₂ + (← passToStack c []))
        fun n₁ n₂ m₁ m₂ => n₁ = n₂ ∧ ∃ frames, Delivered view m frames m₁ m₂ := by
      refine (batched_passToStack hc batch).bind fun _ _ => pairs_pure ?_
      rintro m₁ m₂ ⟨rfl, rfl, hdelivered⟩
      exact ⟨hcount, hdelivered⟩
    exact hpass m₁ m₂ hm
  rintro m₁ m₂ ⟨rfl, rfl⟩
  rw [hrun, hrun]
  exact hdrain _ _ (batched_start m)

/-- Frames reach the stack in the same order with batching as without it, all other exchanges are
the same, and batching cuts the frames into batches of which only the last may have room left. -/
theorem processReceived_linked (hc : EventBlind c view) {linked single : Nat × Machine σ}
    (hlinked : linked = (processReceived c).run (m.withLinkedRx true))
    (hsingle : single = (processReceived c).run (m.withLinkedRx false)) :
    linked.1 = single.1 ∧ linked.2.others = single.2.others ∧ ∃ frames chunks es,
      linked.2.events = m.events ++ chunks ∧ Chunked rxBatchCapacity frames chunks ∧
      single.2.events = m.events ++ frames.map (fun f => [f]) ∧
      single.2.arrivals = m.arrivals ++ es ∧ Arrivals es frames := by
  have hend : linked.1 = single.1 ∧ ∃ frames, Delivered view m frames linked.2 single.2 := by
    rw [hlinked, hsingle]
    cases hopen : m.interface.engineOpen with
    | false => exact delivered_of_closed hopen _ _ ⟨rfl, rfl⟩
    | true => exact delivered_of_open hc hopen _ _ ⟨rfl, rfl⟩
  obtain ⟨hcount, frames, hdelivered⟩ := hend
  obtain ⟨chunks, hevents, hchunked⟩ := hdelivered.chunks
  obtain ⟨es, harrivals, hes⟩ := hdelivered.arrivals
  refine ⟨hcount, hdelivered.others, frames, chunks, es, hevents, hchunked, ?_, harrivals, hes⟩
  rw [Machine.events_eq, harrivals, List.filterMap_append, hes.events, ← Machine.events_eq]

theorem eventBlind_ofArena (answer : Except EngineStatus Unit) :
    EventBlind (.ofArena answer true) id where
  accepts _ _ _ := rfl
  event _ _ _ := rfl
  refill _ _ w w' h := by cases h; exact ⟨rfl, rfl⟩
  getBuffer _ _ w w' h := by cases h; exact ⟨rfl, rfl⟩
  releaseBuffer _ w w' h := by cases h; exact ⟨rfl, rfl⟩
  considerFrame _ w w' h := by cases h; exact ⟨rfl, rfl⟩
  matchEndpoint _ _ w w' h := by cases h; exact ⟨rfl, rfl⟩
  lookup _ w w' h := by cases h; exact ⟨rfl, rfl⟩
  lock _ _ _ _ := rfl

/-- One frame more than a batch holds has been received, into the first slots of the pool. -/
def burstMachine : Machine Arena where
  interface := { index := 0, config := {}, engineOpen := true }
  engine := {
    completed := (List.range 65).map fun i =>
      { buf := some (regionStart.add (1536 * i)), size := 60, status := 0 } }
  clock := .startingAt 0 0
  memory := .zeroed
  trace := #[]
  log := #[]
  world := .ofRegion (regionStart.add 1048576) 70 2048

theorem processReceived_linked_burst :
    let linked := (processReceived (.ofArena (.ok ()) true)).run (burstMachine.withLinkedRx true)
    let single := (processReceived (.ofArena (.ok ()) true)).run (burstMachine.withLinkedRx false)
    linked.1 = single.1 ∧ linked.2.others = single.2.others ∧
      linked.2.events.map List.length = [64, 1] := by
  obtain ⟨hcount, hothers, -⟩ :=
    processReceived_linked (eventBlind_ofArena (.ok ())) (m := burstMachine) rfl rfl
  exact ⟨hcount, hothers, by decide +kernel⟩

end Driver

end XgmacDriver
