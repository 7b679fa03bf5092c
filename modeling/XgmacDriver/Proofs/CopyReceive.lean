import XgmacDriver.Proofs.ArenaStack
import XgmacDriver.Proofs.DrainOutline
import XgmacDriver.Proofs.PoolAccounts
import XgmacDriver.Proofs.Traffic

/-! # Copying reception keeps its ring

With copying the engine receives into slots of the receive pool, and each slot goes back to the
descriptor it came from. `DrainOrder` is the order in which that happens: read, refill, read, and so
on, up to the first refusal. The buffers of the stack are counted apart: each one that a drain
obtains goes up in an event or is released.
-/

namespace XgmacDriver

/-- The dealings with the ring while `queue` is drained down to `rest`, with the refused buffers. -/
inductive DrainOrder : (queue : List RxCompletion) → (es : List Exchange) →
    (rest : List RxCompletion) → (refused : List Addr) → Prop
  | empty : DrainOrder [] [.nextReceived none] [] []
  | bufferless {rx rest} : rx.buf = none →
      DrainOrder (rx :: rest) [.nextReceived (some rx)] rest []
  | refused {rx rest a status} : rx.buf = some a →
      DrainOrder (rx :: rest)
        [.nextReceived (some rx), .command (.refill a) (.error status)] rest [a]
  | refilled {queue rx es rest a refused} : rx.buf = some a → DrainOrder queue es rest refused →
      DrainOrder (rx :: queue)
        (.nextReceived (some rx) :: .command (.refill a) (.ok ()) :: es) rest refused

/-- The refills name the buffers of the descriptors that were read, in the order of reading. -/
theorem DrainOrder.exists_drained {queue rest : List RxCompletion} {es : List Exchange}
    {refused : List Addr} (h : DrainOrder queue es rest refused) :
    ∃ drained, queue = drained ++ rest ∧
      es.flatMap Exchange.refilled = RxCompletion.buffers drained := by
  induction h with
  | empty => exact ⟨[], rfl, rfl⟩
  | @bufferless rx _ hbuf =>
      exact ⟨[rx], rfl, by simp [RxCompletion.buffers, hbuf, Exchange.refilled]⟩
  | @refused rx _ _ _ hbuf =>
      exact ⟨[rx], rfl, by simp [RxCompletion.buffers, hbuf, Exchange.refilled]⟩
  | @refilled _ rx _ _ _ _ hbuf _ ih =>
      obtain ⟨drained, hqueue, hes⟩ := ih
      refine ⟨rx :: drained, by rw [hqueue, List.cons_append], ?_⟩
      simp [RxCompletion.buffers, hbuf, Exchange.refilled, hes]

/-- A drain of `queue` has come to where `completed` is left and the next descriptor is read. -/
def DrainReady (queue completed : List RxCompletion) (es : List Exchange) : Prop :=
  ∀ es' rest refused, DrainOrder completed es' rest refused →
    DrainOrder queue (es ++ es') rest refused

def DrainOpen (queue completed : List RxCompletion) (a : Addr) (es : List Exchange) : Prop :=
  ∃ rx, rx.buf = some a ∧ ∀ es' rest refused,
    DrainOrder (rx :: completed) (.nextReceived (some rx) :: es') rest refused →
      DrainOrder queue (es ++ es') rest refused

section

variable {queue completed : List RxCompletion} {rx : RxCompletion} {a : Addr} {es : List Exchange}

theorem DrainReady.start : DrainReady queue queue [] := fun _ _ _ h => h

theorem DrainReady.next (h : DrainReady queue (rx :: completed) es) (hbuf : rx.buf = some a) :
    DrainOpen queue completed a (es ++ [.nextReceived (some rx)]) := by
  refine ⟨rx, hbuf, fun es' rest refused horder => ?_⟩
  rw [List.append_assoc]
  exact h _ _ _ horder

theorem DrainReady.bufferless (h : DrainReady queue (rx :: completed) es) (hbuf : rx.buf = none) :
    DrainOrder queue (es ++ [.nextReceived (some rx)]) completed [] :=
  h _ _ _ (.bufferless hbuf)

theorem DrainReady.empty (h : DrainReady queue [] es) :
    DrainOrder queue (es ++ [.nextReceived none]) [] [] :=
  h _ _ _ .empty

theorem DrainOpen.refilled (h : DrainOpen queue completed a es) :
    DrainReady queue completed (es ++ [.command (.refill a) (.ok ())]) := by
  obtain ⟨rx, hbuf, h⟩ := h
  intro es' rest refused horder
  rw [List.append_assoc]
  exact h _ _ _ (.refilled hbuf horder)

theorem DrainOpen.refused (h : DrainOpen queue completed a es) (status : EngineStatus) :
    DrainOrder queue (es ++ [.command (.refill a) (.error status)]) completed [a] := by
  obtain ⟨rx, hbuf, h⟩ := h
  exact h _ _ _ (.refused hbuf)

end

def ringTraffic (es : List Exchange) : List Exchange := es.filter Exchange.onRing

theorem refilled_ringTraffic (es : List Exchange) :
    (ringTraffic es).flatMap Exchange.refilled = es.flatMap Exchange.refilled := by
  induction es with
  | nil => rfl
  | cons x es ih =>
      cases hring : x.onRing with
      | true => simpa [ringTraffic, hring] using ih
      | false =>
          have hrefilled : x.refilled = [] := by
            unfold Exchange.onRing at hring
            unfold Exchange.refilled
            split at hring <;> simp_all
          simpa [ringTraffic, hring, hrefilled] using ih

/-- Of the buffers that were obtained in `es`, all but `held` have gone up or were released. -/
def Settled (es : List Exchange) (held : List UInt16) : Prop :=
  ((es.flatMap Exchange.obtained).map (·.index)).Perm
    ((es.flatMap Exchange.delivered).map (·.index) ++ es.flatMap Exchange.released ++ held)

namespace Settled

variable {es : List Exchange} {held : List UInt16}

theorem idle {x : Exchange} (h : Settled es held) (hobtained : x.obtained = [])
    (hdelivered : x.delivered = []) (hreleased : x.released = []) : Settled (es ++ [x]) held := by
  simpa [Settled, hobtained, hdelivered, hreleased] using h

theorem obtained (h : Settled es held) (wanted block : Nat) (buffer : NetworkBuffer) :
    Settled (es ++ [.getBuffer wanted block (some buffer)]) (buffer.index :: held) := by
  -- An index may be handed out again once it is released, so the indices have to be counted.
  unfold Settled at h ⊢
  rw [List.perm_iff_count] at h ⊢
  intro i
  have hcount := h i
  simp only [List.flatMap_append, List.flatMap_singleton, List.map_append, List.count_append,
    Exchange.obtained, Exchange.delivered, Exchange.released, List.map_cons, List.map_nil,
    List.count_cons, List.count_nil] at hcount ⊢
  omega

theorem released {i : UInt16} (h : Settled es (i :: held)) (accepted : Bool) :
    Settled (es ++ [.releaseBuffer i accepted]) held := by
  unfold Settled at h ⊢
  rw [List.perm_iff_count] at h ⊢
  intro j
  have hcount := h j
  simp only [List.flatMap_append, List.flatMap_singleton, List.map_append, List.count_append,
    Exchange.obtained, Exchange.delivered, Exchange.released, List.map_nil, List.count_cons,
    List.count_nil] at hcount ⊢
  omega

theorem delivered {fs : List RxFrame} (h : Settled es (fs.map (·.buffer.index) ++ held))
    (timeout : Nat) (memory : Memory) :
    Settled (es ++ [.rxEvent timeout (fs.map (Delivery.of memory)) true]) held := by
  unfold Settled at h ⊢
  rw [List.perm_iff_count] at h ⊢
  intro i
  have hcount := h i
  simp only [List.flatMap_append, List.flatMap_singleton, List.map_append, List.count_append,
    Exchange.obtained, Exchange.delivered, Exchange.released, List.map_nil, List.map_map,
    Function.comp_def, Delivery.of, List.count_nil] at hcount ⊢
  omega

end Settled

namespace Driver

variable {σ : Type}

/-- The receive pool has all slots but those posted, completed or in hand. `front` was the queue of
its ring before the exchange `n`, `returned` is what it got back, and `order` holds of the dealings
with the engine's ring since then. -/
structure CopyLedger (n : Nat) (base : Addr) (front : List Addr) (order : List Exchange → Prop)
    (completed : List RxCompletion) (spare returned : List Addr) (held : List UInt16)
    (m : Machine σ) : Prop where
  trace_le : n ≤ m.trace.size
  copying : m.interface.config.zeroCopyRx = false
  completed_eq : m.engine.completed = completed
  slots : m.interface.rxPool.Accounts base
    (m.engine.posted ++ RxCompletion.buffers completed ++ spare)
  ring : m.interface.rxPool.ring.queue = front ++ returned
  order : order (ringTraffic (m.since n))
  settled : Settled (m.since n) held

variable {c : Collaborators σ} {n : Nat} {base a : Addr} {front spare returned : List Addr}
  {order : List Exchange → Prop} {completed : List RxCompletion} {held : List UInt16}

namespace CopyLedger

variable {m m' : Machine σ}

/-- One more exchange, after which the slots, the order and the stack's buffers must be accounted
for again. -/
theorem exchange {order' : List Exchange → Prop} {completed' : List RxCompletion}
    {spare' : List Addr} {held' : List UInt16} {x : Exchange}
    (h : CopyLedger n base front order completed spare returned held m)
    (htrace : m'.trace = m.trace.push x) (hinterface : m'.interface = m.interface)
    (hcompleted : m'.engine.completed = completed')
    (hslots : (m.engine.posted ++ RxCompletion.buffers completed ++ spare).Perm
      (m'.engine.posted ++ RxCompletion.buffers completed' ++ spare'))
    (horder : order' (ringTraffic (m.since n) ++ ringTraffic [x]))
    (hsettled : Settled (m.since n ++ [x]) held') :
    CopyLedger n base front order' completed' spare' returned held' m' := by
  have hsince := Machine.since_push h.trace_le htrace
  refine ⟨?_, ?_, hcompleted, ?_, ?_, ?_, ?_⟩
  · rw [htrace, Array.size_push]
    exact Nat.le_succ_of_le h.trace_le
  · rw [hinterface]
    exact h.copying
  · rw [hinterface]
    exact h.slots.congr hslots
  · rw [hinterface]
    exact h.ring
  · rw [hsince, ringTraffic, List.filter_append]
    exact horder
  · rw [hsince]
    exact hsettled

theorem aside {held' : List UInt16} {x : Exchange}
    (h : CopyLedger n base front order completed spare returned held m)
    (htrace : m'.trace = m.trace.push x) (hinterface : m'.interface = m.interface)
    (hengine : m'.engine = m.engine) (hring : x.onRing = false)
    (hsettled : Settled (m.since n ++ [x]) held') :
    CopyLedger n base front order completed spare returned held' m' := by
  refine h.exchange htrace hinterface (hengine ▸ h.completed_eq) ?_ ?_ hsettled
  · rw [hengine]
  · simpa [ringTraffic, hring] using h.order

theorem perm {held' : List UInt16}
    (h : CopyLedger n base front order completed spare returned held m)
    (hperm : held.Perm held') : CopyLedger n base front order completed spare returned held' m :=
  { h with settled := h.settled.trans (hperm.append_left _) }

end CopyLedger

theorem copyLedger_report (entry : LogEntry) :
    Meets (CopyLedger n base front order completed spare returned held)
      (report entry : Driver σ Unit) fun _ =>
        CopyLedger n base front order completed spare returned held :=
  fun _ hm => ⟨hm.trace_le, hm.copying, hm.completed_eq, hm.slots, hm.ring, hm.order, hm.settled⟩

theorem copyLedger_copyMemory (src dst : Addr) (length : Nat) :
    Meets (CopyLedger n base front order completed spare returned held)
      (copyMemory src dst length : Driver σ Unit) fun _ =>
        CopyLedger n base front order completed spare returned held :=
  fun _ hm => ⟨hm.trace_le, hm.copying, hm.completed_eq, hm.slots, hm.ring, hm.order, hm.settled⟩

theorem copyLedger_considerFrame (bytes : List UInt8) :
    Meets (CopyLedger n base front order completed spare returned held) (considerFrame c bytes)
      fun _ => CopyLedger n base front order completed spare returned held :=
  meets_considerFrame fun _ _ _ hm _ => hm.aside rfl rfl rfl rfl (hm.settled.idle rfl rfl rfl)

theorem copyLedger_matchEndpoint (bytes : List UInt8) :
    Meets (CopyLedger n base front order completed spare returned held) (matchEndpoint c bytes)
      fun _ => CopyLedger n base front order completed spare returned held :=
  meets_matchEndpoint fun _ _ _ hm _ => hm.aside rfl rfl rfl rfl (hm.settled.idle rfl rfl rfl)

theorem copyLedger_getBuffer (wanted block : Nat) :
    Meets (CopyLedger n base front order completed spare returned held) (getBuffer c wanted block)
      fun
      | none => CopyLedger n base front order completed spare returned held
      | some buffer =>
          CopyLedger n base front order completed spare returned (buffer.index :: held) := by
  refine meets_getBuffer fun m answer world hm _ => ?_
  cases answer with
  | none => exact hm.aside rfl rfl rfl rfl (hm.settled.idle rfl rfl rfl)
  | some buffer => exact hm.aside rfl rfl rfl rfl (hm.settled.obtained wanted block buffer)

theorem copyLedger_releaseBuffer (i : UInt16) :
    Meets (CopyLedger n base front order completed spare returned (i :: held)) (releaseBuffer c i)
      fun _ => CopyLedger n base front order completed spare returned held :=
  meets_releaseBuffer fun _ accepted _ hm _ =>
    hm.aside rfl rfl rfl rfl (hm.settled.released accepted)

theorem copyLedger_sendRxEvent (fs gs : List RxFrame) :
    Meets (CopyLedger n base front order completed spare returned
        ((fs ++ gs).map (·.buffer.index))) (sendRxEvent c fs) fun taken =>
      CopyLedger n base front order completed spare returned
        ((if taken then gs else fs ++ gs).map (·.buffer.index)) := by
  refine meets_sendRxEvent fun m taken world hm _ => ?_
  cases taken with
  | false => exact hm.aside rfl rfl rfl rfl (hm.settled.idle rfl rfl rfl)
  | true =>
      have hsettled := hm.settled
      rw [List.map_append] at hsettled
      exact hm.aside rfl rfl rfl rfl (hsettled.delivered _ _)

theorem copyLedger_nextReceived (rx : RxCompletion) (order' : List Exchange → Prop)
    (horder : ∀ es, order es → order' (es ++ [.nextReceived (some rx)])) :
    Meets (CopyLedger n base front order (rx :: completed) [] returned held)
      (nextReceived : Driver σ (Option RxCompletion)) fun _ =>
        CopyLedger n base front order' completed rx.buf.toList returned held := by
  refine meets_nextReceived fun m answer engine hm hanswer => ?_
  rw [Engine.nextCompleted, hm.completed_eq] at hanswer
  cases hanswer
  refine hm.exchange rfl rfl rfl ?_ (horder _ hm.order) (hm.settled.idle rfl rfl rfl)
  rw [List.perm_iff_count]
  intro p
  cases hbuf : rx.buf <;>
    simp only [RxCompletion.buffers, List.filterMap_cons, hbuf, Option.toList, List.append_nil,
      List.count_append, List.count_cons, List.count_nil]
  all_goals omega

theorem copyLedger_nextReceived_nil {order' : List Exchange → Prop}
    (horder : ∀ es, order es → order' (es ++ [.nextReceived none])) :
    Meets (CopyLedger n base front order [] [] returned held)
      (nextReceived : Driver σ (Option RxCompletion)) fun _ =>
        CopyLedger n base front order' [] [] returned held := by
  refine meets_nextReceived fun m answer engine hm hanswer => ?_
  rw [Engine.nextCompleted, hm.completed_eq] at hanswer
  cases hanswer
  exact hm.exchange rfl rfl hm.completed_eq (.refl _) (horder _ hm.order)
    (hm.settled.idle rfl rfl rfl)

theorem copyLedger_refill (order' refused : List Exchange → Prop)
    (hok : ∀ es, order es → order' (es ++ [.command (.refill a) (.ok ())]))
    (herror : ∀ es status, order es → refused (es ++ [.command (.refill a) (.error status)])) :
    Meets (CopyLedger n base front order completed [a] returned held) (command c (.refill a)) fun
      | .ok () => CopyLedger n base front order' completed [] returned held
      | .error _ => CopyLedger n base front refused completed [a] returned held := by
  refine meets_command (fun m world hm _ => ?_) fun m world status hm _ =>
    hm.exchange rfl rfl hm.completed_eq (.refl _) (herror _ status hm.order)
      (hm.settled.idle rfl rfl rfl)
  refine hm.exchange rfl rfl hm.completed_eq ?_ (hok _ hm.order) (hm.settled.idle rfl rfl rfl)
  rw [List.perm_iff_count]
  intro p
  simp only [Engine.accept, List.append_nil, List.count_append]
  omega

theorem copyLedger_releaseSlot (hlock : ∀ w, c.lock .rx w = .free) :
    Meets (CopyLedger n base front order completed [a] [] held) (releaseSlot c .rx a)
      fun answer m =>
      answer = .ok () ∧ CopyLedger n base front order completed [] [a] held m := by
  refine meets_onPool fun m reply hm hreply => ?_
  have hslots : m.interface.rxPool.Accounts base
      (a :: (m.engine.posted ++ RxCompletion.buffers completed)) :=
    hm.slots.congr (List.perm_append_singleton a _)
  obtain ⟨ring, hrelease, -, hqueue, hrest⟩ := hslots.release m.clock m.memory
  rw [hlock, show m.interface.pool .rx = m.interface.rxPool from rfl, hrelease] at hreply
  subst hreply
  refine ⟨rfl, hm.trace_le, hm.copying, hm.completed_eq, ?_, ?_, hm.order, hm.settled⟩
  · rw [List.append_nil]
    exact hrest
  · have hfront := hm.ring
    rw [List.append_nil] at hfront
    exact hqueue.trans (by rw [hfront])

theorem copyLedger_recycle (hlock : ∀ w, c.lock .rx w = .free) :
    Meets (CopyLedger n base front order completed [a] [] held) (recycle c a) fun _ =>
      CopyLedger n base front order completed [] [a] held := by
  refine meets_recycle (F := fun _ _ => False) (fun m hm => ?_) (fun _ _ hm => hm.elim)
    (fun _ hm => hm.elim) ((copyLedger_releaseSlot hlock).pre fun _ hm => hm.1)
    (fun _ hm => hm.2) ?_
  · exact absurd (hm.1.copying.symm.trans hm.2) Bool.false_ne_true
  · rintro e m ⟨⟨⟩, -⟩

/-- The frame goes up in the replacement, and the received slot stays with its descriptor. -/
theorem copyLedger_forwardFrame (length : Nat) (replacement : NetworkBuffer) (fresh : Addr)
    (fs : List RxFrame) :
    Meets (CopyLedger n base front order completed [a] []
        (replacement.index :: fs.map (·.buffer.index)))
      (forwardFrame c a length replacement fresh) fun
      | .forward frame refill => fun m => refill = a ∧
          CopyLedger n base front order completed [a] [] ((frame :: fs).map (·.buffer.index)) m
      | .drop refill => fun m => refill = a ∧
          CopyLedger n base front order completed [a] [] (fs.map (·.buffer.index)) m := by
  refine meets_forwardFrame (D := fun _ => False)
    (G := fun buffer refill m => refill = a ∧ CopyLedger n base front order completed [a] []
      (buffer.index :: fs.map (·.buffer.index)) m) (fun m hm => ?_) (fun _ hm => hm)
    (fun _ hm => hm.elim)
    (((copyLedger_copyMemory a fresh _).pre fun _ hm => hm.1).post fun _ _ hm => ⟨rfl, hm⟩) ?_
  · exact absurd (hm.1.copying.symm.trans hm.2) Bool.false_ne_true
  · rintro buffer refill bytes m ⟨hrefill, hm⟩
    exact ⟨hrefill, copyLedger_matchEndpoint bytes m hm⟩

theorem copyLedger_frames : FrameAccount c fun fs =>
    CopyLedger n base front order completed spare returned (fs.map (·.buffer.index)) where
  perm hperm hm := hm.perm (hperm.map _)
  report entry _ := copyLedger_report entry
  send fs gs := copyLedger_sendRxEvent fs gs
  release f _ := copyLedger_releaseBuffer f.buffer.index

def copyOutline (n : Nat) (base : Addr) (front : List Addr) (queue : List RxCompletion) :
    DrainOutline σ where
  ready completed fs :=
    CopyLedger n base front (DrainReady queue completed) completed [] [] (fs.map (·.buffer.index))
  holding rest a fs :=
    CopyLedger n base front (DrainOpen queue rest a) rest [a] [] (fs.map (·.buffer.index))
  replacing rest a replacement fs :=
    CopyLedger n base front (DrainOpen queue rest a) rest [a] []
      (replacement.index :: fs.map (·.buffer.index))
  refused rest a fs :=
    CopyLedger n base front (fun es => DrainOrder queue es rest [a]) rest [a] []
      (fs.map (·.buffer.index))
  ended fs m := ∃ left : List RxCompletion × List Addr,
    CopyLedger n base front (fun es => DrainOrder queue es left.1 left.2) left.1 [] left.2
      (fs.map (·.buffer.index)) m

theorem copyOutline_sound (hlock : ∀ w, c.lock .rx w = .free) (n : Nat) (base : Addr)
    (front : List Addr) (queue : List RxCompletion) :
    (copyOutline n base front queue).Sound c where
  holding_frames _ _ := copyLedger_frames
  ended_frames := FrameAccount.exists_index fun _ => copyLedger_frames
  next_empty fs :=
    (copyLedger_nextReceived_nil fun _ horder => horder.empty).post fun _ _ hm => ⟨([], []), hm⟩
  next_bufferless rx rest fs hbuf := by
    refine (copyLedger_nextReceived rx (DrainOrder _ · rest [])
      fun _ horder => horder.bufferless hbuf).post fun _ _ hm => ?_
    exact ⟨(rest, []), by simpa [hbuf] using hm⟩
  next rx rest a fs hbuf := by
    refine (copyLedger_nextReceived rx _ fun _ horder => horder.next hbuf).post fun _ _ hm => ?_
    simpa [hbuf, copyOutline] using hm
  consider _ _ _ bytes := copyLedger_considerFrame bytes
  obtain_buffer _ _ _ := by
    refine (copyLedger_getBuffer maxPacketSize 0).post ?_
    rintro (_ | replacement) m hm
    · exact hm
    · exact hm
  release_replacement _ _ replacement _ := copyLedger_releaseBuffer replacement.index
  forward rest a replacement fresh fs length _ := by
    refine (copyLedger_forwardFrame length replacement fresh fs).post ?_
    rintro (⟨frame, refill⟩ | refill) m ⟨rfl, hm⟩
    · exact hm
    · exact hm
  refill rest a _ := by
    refine (copyLedger_refill _ (DrainOrder _ · rest [a]) (fun _ horder => horder.refilled)
      fun _ status horder => horder.refused status).post ?_
    rintro (status | ⟨⟩) m hm
    · exact hm
    · exact hm
  refused_report _ _ _ entry := copyLedger_report entry
  recycle rest a fs := (copyLedger_recycle hlock).post fun _ _ hm => ⟨(rest, [a]), hm⟩

/-- A drain with copying reads and refills in turn, and refills each descriptor with the buffer that
it has read. Afterwards the slots in use are again those posted and those completed, a refused one
is the last in the free ring, and no buffer of the stack is left in the driver's hands. -/
theorem processReceived_refills {m m' : Machine σ} {es : List Exchange} {base : Addr}
    (hlock : ∀ w, c.lock .rx w = .free) (hcopying : m.interface.config.zeroCopyRx = false)
    (hslots : m.interface.rxPool.Accounts base
      (m.engine.posted ++ RxCompletion.buffers m.engine.completed))
    (hm' : m' = ((processReceived c).run m).2) (hes : es = m'.since m.trace.size) :
    (∃ drained refused, m.engine.completed = drained ++ m'.engine.completed ∧
      es.flatMap Exchange.refilled = RxCompletion.buffers drained ∧
      (m.interface.engineOpen = true →
        DrainOrder m.engine.completed (ringTraffic es) m'.engine.completed refused) ∧
      m'.interface.rxPool.ring.queue = m.interface.rxPool.ring.queue ++ refused) ∧
      m'.interface.rxPool.Accounts base
        (m'.engine.posted ++ RxCompletion.buffers m'.engine.completed) ∧
      Settled es [] := by
  have hready : (copyOutline m.trace.size base m.interface.rxPool.ring.queue
      m.engine.completed).ready m.engine.completed [] m := by
    refine ⟨Nat.le_refl _, hcopying, rfl, by simpa using hslots, (List.append_nil _).symm, ?_, ?_⟩
    · rw [Machine.since_size]
      exact DrainReady.start
    · simp [Machine.since_size, Settled]
  by_cases hopen : m.interface.engineOpen = true
  · obtain ⟨⟨rest, refused⟩, hend⟩ :=
      (copyOutline_sound hlock _ _ _ _).processReceived m hopen hready
    rw [← hm'] at hend
    have horder := hend.order
    have hslots' := hend.slots
    rw [← hes, ← hend.completed_eq] at horder
    rw [← hend.completed_eq, List.append_nil] at hslots'
    obtain ⟨drained, hdrained, hrefills⟩ := horder.exists_drained
    rw [refilled_ringTraffic] at hrefills
    exact ⟨⟨drained, refused, hdrained, hrefills, fun _ => horder, hend.ring⟩, hslots',
      hes ▸ hend.settled⟩
  · have hrun : (processReceived c).run m = pure (0, m) := by
      simp [processReceived, hopen]
    obtain rfl : m' = m := by rw [hm', hrun]; rfl
    rw [Machine.since_size] at hes
    subst hes
    exact ⟨⟨[], [], rfl, rfl, fun h => absurd h hopen, (List.append_nil _).symm⟩, hslots,
      List.Perm.refl _⟩

def oneSlotMachine : Machine Arena where
  interface := { index := 0, config := {}, engineOpen := true, rxPool := {
    name := "Rx"
    slotSize := 1536
    backing := .ready regionStart
    ring := ⟨#[none, some (regionStart.add 1536)], 1, 0, 1⟩ } }
  engine := {
    completed := [{ buf := some regionStart, size := 60, status := 0 }] }
  clock := .startingAt 0 0
  memory := .zeroed
  trace := #[]
  log := #[]
  world := .ofRegion (regionStart.add 4096) 4 2048

theorem processReceived_refills_one_slot :
    let m := ((processReceived (.ofArena (.ok ()) true)).run oneSlotMachine).2
    m.interface.rxPool.Accounts regionStart
        (m.engine.posted ++ RxCompletion.buffers m.engine.completed) ∧ Settled (m.since 0) [] := by
  have hslots : oneSlotMachine.interface.rxPool.Accounts regionStart
      (oneSlotMachine.engine.posted ++ RxCompletion.buffers oneSlotMachine.engine.completed) := by
    refine ⟨rfl, by decide, ⟨by decide, by decide, rfl, ?_⟩, by decide⟩
    intro k hk
    obtain rfl : k = 0 := Nat.lt_one_iff.mp hk
    exact ⟨_, rfl⟩
  exact (processReceived_refills (fun _ => rfl) rfl hslots rfl rfl).2

end Driver

end XgmacDriver
