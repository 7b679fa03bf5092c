import XgmacDriver.Proofs.KeptViews

/-! # Work that is still owed

An interrupt sets its bit after the work has come in, and a pass clears the word before it does the
work. So received frames and counted completions that wait are always owed by somebody: the word has
their bit, or a pass has taken it and is not done yet, or the last drain or reclaim was cut short.
-/

namespace XgmacDriver

variable {σ : Type} {c : Collaborators σ}

namespace Exchange

/-- Whether this belongs to a drain: the wait that it was woken from, its reads and its refills. -/
def ofDrain : Exchange → Bool
  | wait _ w => w.rx
  | nextReceived _ | command (.refill _) _ => true
  | _ => false

/-- Whether this belongs to a reclaim: the wait that it was woken from, and its questions. -/
def ofReclaim : Exchange → Bool
  | wait _ w => w.tx
  | nextTransmitted _ => true
  | _ => false

/-- A descriptor without a buffer ends a drain early, and so does a refused refill. -/
def stopsDrain : Exchange → Bool
  | nextReceived (some rx) => rx.buf.isNone
  | command (.refill _) (.error _) => true
  | _ => false

/-- An error of the engine ends a reclaim early. -/
def stopsReclaim : Exchange → Bool
  | nextTransmitted (.error _) => true
  | _ => false

def IsAside (x : Exchange) : Prop := x.ofDrain = false ∧ x.ofReclaim = false

theorem isAside_of_isStackCall {x : Exchange} (h : x.isStackCall = true) : x.IsAside := by
  cases x <;> first | exact ⟨rfl, rfl⟩ | cases h

end Exchange

/-- Exchanges were added to `before`, and the last one of them `stops`. -/
def StoppedSince (stops : Exchange → Bool) (before es : List Exchange) : Prop :=
  ∃ added, es = before ++ added ∧ added.getLast?.any stops = true

theorem stoppedSince_append {stops : Exchange → Bool} {before es : List Exchange} {x : Exchange}
    (h : before <+: es) (hx : stops x = true) : StoppedSince stops before (es ++ [x]) := by
  obtain ⟨added, rfl⟩ := h
  exact ⟨added ++ [x], by rw [List.append_assoc], by simpa using hx⟩

def Machine.drains (m : Machine σ) : List Exchange := m.trace.toList.filter Exchange.ofDrain

def Machine.reclaims (m : Machine σ) : List Exchange := m.trace.toList.filter Exchange.ofReclaim

structure WorkView where
  engineOpen : Bool
  callback : Bool
  notifier : Notifier
  completed : List RxCompletion
  drains : List Exchange
  reclaims : List Exchange

namespace Machine

def work (m : Machine σ) : WorkView where
  engineOpen := m.interface.engineOpen
  callback := m.engine.callback
  notifier := m.interface.notifier
  completed := m.engine.completed
  drains := m.drains
  reclaims := m.reclaims

theorem work_push (m : Machine σ) (x : Exchange) :
    work { m with trace := m.trace.push x } = { m.work with
      drains := m.drains ++ if x.ofDrain then [x] else []
      reclaims := m.reclaims ++ if x.ofReclaim then [x] else [] } := by
  have hfilter : ∀ p : Exchange → Bool, (m.trace.push x).toList.filter p =
      m.trace.toList.filter p ++ if p x then [x] else [] := by
    intro p
    rw [Array.toList_push, List.filter_append]
    cases hx : p x <;> simp [hx]
  simp only [work, drains, reclaims, hfilter]

theorem blind_work : Blind Exchange.IsAside (work : Machine σ → WorkView) where
  congr := by
    rintro m ⟨⟩ rfl rfl rfl
    rfl
  push m x hx := by
    rw [work_push, hx.1, hx.2]
    simp [work]

end Machine

open Machine

namespace WorkView

/-- The notifier is live, and both lists of exchanges began as given. Received frames that wait are
accounted for by `rx` or by a drain that was cut short, and counted completions likewise. -/
structure Owing (drains₀ reclaims₀ : List Exchange) (rx tx : Bool) (v : WorkView) : Prop where
  engineOpen : v.engineOpen = true
  callback : v.callback = true
  armed : v.notifier.armed = true
  drains : drains₀ <+: v.drains
  reclaims : reclaims₀ <+: v.reclaims
  received : v.completed = [] ∨ rx = true ∨ StoppedSince Exchange.stopsDrain drains₀ v.drains
  transmitted : v.notifier.completions.count = 0 ∨ tx = true ∨
    StoppedSince Exchange.stopsReclaim reclaims₀ v.reclaims

/-- The word has a bit for all that is owed. -/
def Pending (drains₀ reclaims₀ : List Exchange) (v : WorkView) : Prop :=
  v.Owing drains₀ reclaims₀ v.notifier.word.rx v.notifier.word.tx

/-- The word will have a bit for all that is owed, once interrupt `i` has got through. -/
def Raised (drains₀ reclaims₀ : List Exchange) (i : Interrupt) (v : WorkView) : Prop :=
  v.Owing drains₀ reclaims₀ (v.notifier.word ||| .ofInterrupt i).rx
    (v.notifier.word ||| .ofInterrupt i).tx

variable {drains₀ reclaims₀ : List Exchange} {rx tx rx' tx' : Bool} {v : WorkView}

theorem Owing.mono (h : v.Owing drains₀ reclaims₀ rx tx) (hrx : rx = true → rx' = true)
    (htx : tx = true → tx' = true) : v.Owing drains₀ reclaims₀ rx' tx' :=
  { h with
    received := h.received.imp_right (Or.imp_left hrx)
    transmitted := h.transmitted.imp_right (Or.imp_left htx) }

/-- An exchange is added, and what it belongs to is still owed. -/
theorem Owing.push (h : v.Owing drains₀ reclaims₀ rx tx) {x : Exchange}
    (hrx : x.ofDrain = true → rx = true) (htx : x.ofReclaim = true → tx = true) :
    Owing drains₀ reclaims₀ rx tx { v with
      drains := v.drains ++ if x.ofDrain then [x] else []
      reclaims := v.reclaims ++ if x.ofReclaim then [x] else [] } where
  engineOpen := h.engineOpen
  callback := h.callback
  armed := h.armed
  drains := h.drains.trans (List.prefix_append _ _)
  reclaims := h.reclaims.trans (List.prefix_append _ _)
  received := by
    cases hx : x.ofDrain with
    | true => exact Or.inr (Or.inl (hrx hx))
    | false => simpa using h.received
  transmitted := by
    cases hx : x.ofReclaim with
    | true => exact Or.inr (Or.inl (htx hx))
    | false => simpa using h.transmitted

theorem Owing.drained (h : v.Owing drains₀ reclaims₀ true tx) (hdone : v.completed = [] ∨
      StoppedSince Exchange.stopsDrain drains₀ v.drains) : v.Owing drains₀ reclaims₀ false tx :=
  { h with received := hdone.imp_right Or.inr }

theorem Owing.reclaimed (h : v.Owing drains₀ reclaims₀ rx true)
    (hdone : v.notifier.completions.count = 0 ∨
      StoppedSince Exchange.stopsReclaim reclaims₀ v.reclaims) :
    v.Owing drains₀ reclaims₀ rx false :=
  { h with transmitted := hdone.imp_right Or.inr }

theorem Owing.raised (h : v.Owing drains₀ reclaims₀ rx tx) {i : Interrupt}
    (hrx : rx = true → v.notifier.word.rx = true ∨ (EventWord.ofInterrupt i).rx = true)
    (htx : tx = true → v.notifier.word.tx = true ∨ (EventWord.ofInterrupt i).tx = true) :
    v.Raised drains₀ reclaims₀ i := by
  refine h.mono (fun h => ?_) fun h => ?_
  · rw [EventWord.rx, EventWord.has_or, Bool.or_eq_true]
    exact hrx h
  · rw [EventWord.tx, EventWord.has_or, Bool.or_eq_true]
    exact htx h

theorem Pending.raised (h : v.Pending drains₀ reclaims₀) (i : Interrupt) :
    v.Raised drains₀ reclaims₀ i :=
  Owing.raised h Or.inl Or.inl

theorem Raised.interrupt {i : Interrupt} (h : v.Raised drains₀ reclaims₀ i) :
    Pending drains₀ reclaims₀ { v with notifier := v.notifier.interrupt i } := by
  have hword : (v.notifier.interrupt i).word = v.notifier.word ||| .ofInterrupt i := by
    simp [Notifier.interrupt, h.armed]
  have hcount : i ≠ .transmitted →
      (v.notifier.interrupt i).completions = v.notifier.completions := by
    intro hi
    simp [Notifier.interrupt, h.armed, hi, Notifier.notify]
  have harmed : (v.notifier.interrupt i).armed = true := by
    simp [Notifier.interrupt, h.armed, Notifier.notify]
  refine { h with armed := harmed, received := ?_, transmitted := ?_ }
  · rw [hword]
    exact h.received
  · rw [hword]
    by_cases hi : i = .transmitted
    · subst hi
      refine Or.inr (Or.inl ?_)
      rw [EventWord.tx, EventWord.has_or, Bool.or_eq_true]
      exact Or.inr (by decide)
    · rw [hcount hi]
      exact h.transmitted

end WorkView

open WorkView

def OnWork (p : WorkView → Prop) (m : Machine σ) : Prop := p m.work

/-- Every frame that is received and every frame that has been sent is followed by its interrupt.
Other interrupts may come at any time. -/
inductive Announced : List Arrival → Prop
  | nil : Announced []
  | received {rx : RxCompletion} {xs : List Arrival} : Announced xs →
      Announced (.received rx :: .interrupt .received :: xs)
  | transmitted {answer : TxAnswer} {xs : List Arrival} : Announced xs →
      Announced (.transmitted answer :: .interrupt .transmitted :: xs)
  | sent {buf : Addr} {xs : List Arrival} : Announced xs → Announced (.sent buf :: xs)
  | interrupt {i : Interrupt} {xs : List Arrival} : Announced xs → Announced (.interrupt i :: xs)

variable {drains₀ reclaims₀ : List Exchange} {rx tx : Bool} {p : WorkView → Prop}

namespace Driver

theorem Keeps.onWork {α : Type} {x : Driver σ α} (hx : Keeps work x) :
    Meets (OnWork p) x fun _ => OnWork p :=
  hx.meets p

/-! ## Arrivals -/

theorem work_interrupt (i : Interrupt) :
    Meets (OnWork (Raised drains₀ reclaims₀ i)) (interrupt i : Driver σ Unit) fun _ =>
      OnWork (Pending drains₀ reclaims₀) := by
  intro m hm
  rw [run_interrupt_of_live i m hm.callback hm.armed]
  have hpending : Pending drains₀ reclaims₀
      { m.work with notifier := m.work.notifier.interrupt i } := Raised.interrupt hm
  show Pending _ _ (work { m with interface := m.interface.mapNotifier _, trace := _ })
  rw [blind_work.push { m with interface := m.interface.mapNotifier (·.interrupt i) } ⟨rfl, rfl⟩]
  exact hpending

theorem work_sent (buf : Addr) :
    Meets (OnWork (Pending drains₀ reclaims₀)) (arrive (.sent buf) : Driver σ Unit) fun _ =>
      OnWork (Pending drains₀ reclaims₀) := by
  refine keeps_get.onWork.bind fun m => Meets.ite ?_ ?_
  · intro _
    refine Meets.bind (R := fun _ => OnWork (Pending drains₀ reclaims₀)) (fun _ hm => hm)
      fun _ => ?_
    exact (work_interrupt .transmitted).pre fun _ hm => hm.raised .transmitted
  · exact fun _ => meets_pure fun _ hm => hm

theorem work_arriveAll {xs : List Arrival} (h : Announced xs) :
    Meets (OnWork (Pending drains₀ reclaims₀)) (xs.forM arrive : Driver σ Unit) fun _ =>
      OnWork (Pending drains₀ reclaims₀) := by
  induction h with
  | nil => exact meets_pure fun _ hm => hm
  | @received rx xs _ ih =>
      refine Meets.bind (R := fun _ => OnWork (Raised drains₀ reclaims₀ .received)) ?_ fun _ =>
        (work_interrupt .received).bind fun _ => ih
      intro m hm
      have hsame : Owing drains₀ reclaims₀ true m.work.notifier.word.tx
          { m.work with completed := m.work.completed ++ [rx] } :=
        { hm with received := Or.inr (Or.inl rfl) }
      exact hsame.raised (fun _ => Or.inr (by decide)) Or.inl
  | @transmitted answer xs _ ih =>
      refine Meets.bind (R := fun _ => OnWork (Raised drains₀ reclaims₀ .transmitted)) ?_ fun _ =>
        (work_interrupt .transmitted).bind fun _ => ih
      exact fun m hm => Pending.raised hm .transmitted
  | @sent buf xs _ ih => exact (work_sent buf).bind fun _ => ih
  | @interrupt i xs _ ih =>
      exact ((work_interrupt i).pre fun _ hm => hm.raised i).bind fun _ => ih

/-! ## A pass of the task -/

/-- The word is cleared, and the pass owes what it said. -/
theorem work_wait (harrivals : ∀ ms world, Announced (c.duringWait ms world).1) (ms : UInt64) :
    Meets (OnWork (Pending drains₀ reclaims₀)) (wait c ms) fun w =>
      OnWork (Owing drains₀ reclaims₀ w.rx w.tx) := by
  refine meets_wait (fun m hm => work_arriveAll (harrivals ms m.world) _ hm) fun m hm => ?_
  have hcleared : Owing drains₀ reclaims₀ m.interface.notifier.word.rx
      m.interface.notifier.word.tx { m.work with notifier := m.work.notifier.clear } := { hm with }
  rw [OnWork, work_push { m with interface := m.interface.mapNotifier Notifier.clear }]
  exact hcleared.push id id

/-- A read takes the oldest frame, and it ends the drain if that has no buffer. -/
theorem work_nextReceived (completed : List RxCompletion) :
    Meets (OnWork fun v => v.Owing drains₀ reclaims₀ true tx ∧ v.completed = completed)
      (nextReceived : Driver σ (Option RxCompletion)) fun _ => OnWork fun v =>
        v.Owing drains₀ reclaims₀ true tx ∧ v.completed = completed.tail ∧
          (Exchange.stopsDrain (.nextReceived completed.head?) = true →
            StoppedSince Exchange.stopsDrain drains₀ v.drains) := by
  refine meets_nextReceived ?_
  rintro m answer engine ⟨hm, rfl⟩ hanswer
  have hnext : answer = m.engine.completed.head? ∧
      work { m with engine } = { m.work with completed := m.engine.completed.tail } := by
    rcases m with ⟨_, ⟨_, _, completed, _, _⟩, _, _, _, _, _⟩
    cases completed <;> cases hanswer <;> exact ⟨rfl, rfl⟩
  obtain ⟨rfl, hengine⟩ := hnext
  have hread : Owing drains₀ reclaims₀ true tx (work { m with engine }) := by
    rw [hengine]
    exact { hm with received := Or.inr (Or.inl rfl) }
  rw [OnWork, work_push { m with engine }]
  refine ⟨hread.push (fun _ => rfl) nofun, congrArg WorkView.completed hengine, ?_⟩
  exact stoppedSince_append hm.drains

theorem work_refill (completed : List RxCompletion) (a : Addr) :
    Meets (OnWork fun v => v.Owing drains₀ reclaims₀ true tx ∧ v.completed = completed)
      (command c (.refill a)) fun
      | .ok () => OnWork fun v => v.Owing drains₀ reclaims₀ true tx ∧ v.completed = completed
      | .error _ => OnWork (Owing drains₀ reclaims₀ false tx) := by
  refine meets_command ?_ ?_
  · rintro m world ⟨hm, hcompleted⟩ -
    show Owing _ _ _ _ (work _) ∧ _
    rw [work_push { m with world, engine := m.engine.accept (.refill a) }]
    have hsame : Owing drains₀ reclaims₀ true tx
      (work { m with world, engine := m.engine.accept (.refill a) }) := hm
    exact ⟨hsame.push (fun _ => rfl) nofun, hcompleted⟩
  · rintro m world status ⟨hm, -⟩ -
    show Owing _ _ _ _ (work _)
    rw [work_push { m with world }]
    have hsame : Owing drains₀ reclaims₀ true tx (work { m with world }) := hm
    have hnoted := hsame.push (x := .command (.refill a) (.error status)) (fun _ => rfl) nofun
    exact hnoted.drained (Or.inr (stoppedSince_append hm.drains rfl))

/-- A drain leaves nothing behind unless it was cut short. -/
theorem work_processReceived :
    Meets (OnWork (Owing drains₀ reclaims₀ true tx)) (processReceived c) fun _ =>
      OnWork (Owing drains₀ reclaims₀ false tx) := by
  have hforwarding : KeepsForwarding c (work : Machine σ → WorkView) :=
    .of_blind blind_work (fun _ => Exchange.isAside_of_isStackCall) fun _ _ => rfl
  have hsound : (ringOutline (work : Machine σ → WorkView)
      (fun rest v => v.Owing drains₀ reclaims₀ true tx ∧ v.completed = rest)
      (fun rest v => v.Owing drains₀ reclaims₀ true tx ∧ v.completed = rest)
      (Owing drains₀ reclaims₀ false tx)).Sound c := by
    refine hforwarding.sound ?_ ?_ ?_ work_refill
    · exact (work_nextReceived []).post fun _ _ hm => hm.1.drained (Or.inl hm.2.1)
    · intro rx rest hrx
      refine (work_nextReceived (rx :: rest)).post fun _ _ hm => ?_
      exact hm.1.drained (Or.inr (hm.2.2 (by simp [Exchange.stopsDrain, hrx])))
    · exact fun rx rest _ _ => (work_nextReceived (rx :: rest)).post fun _ _ hm => ⟨hm.1, hm.2.1⟩
  exact fun m hm => hsound.processReceived m hm.engineOpen ⟨hm, rfl⟩

theorem work_takeCompletion (count : Nat) :
    Meets (OnWork fun v => v.Owing drains₀ reclaims₀ rx true ∧
        v.notifier.completions.count = count + 1)
      (modifyInterface (·.mapNotifier Notifier.takeCompletion) : Driver σ Unit) fun _ =>
      OnWork fun v => v.Owing drains₀ reclaims₀ rx true ∧
        v.notifier.completions.count = count := by
  rintro m ⟨hm, hcount⟩
  have htake : m.interface.notifier.completions.take.2.count = count := by
    have hcount : m.interface.notifier.completions.count = count + 1 := hcount
    simp [CompletionCounter.take, hcount]
  exact ⟨{ hm with transmitted := Or.inr (Or.inl rfl) }, htake⟩

theorem work_nextTransmitted (count : Nat) :
    Meets (OnWork fun v => v.Owing drains₀ reclaims₀ rx true ∧
        v.notifier.completions.count = count)
      (nextTransmitted : Driver σ TxAnswer) fun
      | .ok _ => OnWork fun v => v.Owing drains₀ reclaims₀ rx true ∧
          v.notifier.completions.count = count
      | .error _ => OnWork (Owing drains₀ reclaims₀ rx false) := by
  refine meets_nextTransmitted ?_
  rintro m answer engine ⟨hm, hcount⟩ hanswer
  have hengine : (work { m with engine } : WorkView) = m.work := by
    unfold Engine.nextDone at hanswer
    split at hanswer <;> cases hanswer <;> rfl
  have hpush := work_push { m with engine } (.nextTransmitted answer)
  rw [hengine] at hpush
  have hnoted := Owing.push (x := .nextTransmitted answer) hm nofun fun _ => rfl
  cases answer with
  | ok _ =>
      show Owing _ _ _ _ (work _) ∧ _
      rw [hpush]
      exact ⟨hnoted, hcount⟩
  | error status =>
      show Owing _ _ _ _ (work _)
      rw [hpush]
      exact hnoted.reclaimed (Or.inr (stoppedSince_append hm.reclaims rfl))

theorem keepsWork_returnSent (a : Addr) :
    Keeps (work : Machine σ → WorkView) (returnSent c a) :=
  keeps_returnSent blind_work.report
    (blind_work.lookup fun _ => Exchange.isAside_of_isStackCall)
    (blind_work.releaseBuffer fun _ => Exchange.isAside_of_isStackCall) (fun _ _ => rfl) a

theorem work_reclaim :
    Meets (OnWork (Owing drains₀ reclaims₀ rx true)) (reclaim c) fun _ =>
      OnWork (Owing drains₀ reclaims₀ rx false) := by
  refine meets_reclaim (I := fun _ count => OnWork fun v => v.Owing drains₀ reclaims₀ rx true ∧
      v.notifier.completions.count = count)
    (fun _ count => work_takeCompletion count) (fun _ count => work_nextTransmitted count)
    (fun _ _ _ hm => hm) (fun _ _ a => (keepsWork_returnSent a).onWork)
    (fun _ _ _ => (blind_work.report _).onWork) (fun _ _ hm => Owing.reclaimed hm.1 (Or.inl hm.2))
    (fun m hm hclosed => ?_) fun m hm _ => ⟨hm, rfl⟩
  exact absurd (hclosed.symm.trans hm.engineOpen) Bool.false_ne_true

theorem keepsWork_pollIfExpired (timer : PollTimer) :
    Keeps (work : Machine σ → WorkView) (pollIfExpired c timer) :=
  blind_work.pollIfExpired (fun _ _ _ => ⟨rfl, rfl⟩)
    (fun _ => blind_work.command (fun _ => ⟨rfl, rfl⟩) fun _ => rfl) (fun _ _ => rfl) timer

end Driver

namespace Attempt

theorem keepsWork_output (buffer : NetworkBuffer) (releaseAfterSend : Bool) :
    Keeps (work : Machine σ → WorkView) (output c buffer releaseAfterSend) :=
  keeps_output blind_work.report blind_work.copyMemory (fun _ => rfl) (fun _ _ => rfl)
    (fun _ => blind_work.command (fun _ => ⟨rfl, rfl⟩) fun _ => rfl)
    (blind_work.releaseBuffer fun _ => Exchange.isAside_of_isStackCall) buffer releaseAfterSend

/-- A pass takes over what the word says and leaves nothing of it behind. -/
theorem work_serve (harrivals : ∀ ms world, Announced (c.duringWait ms world).1)
    (timer : PollTimer) :
    Meets (OnWork (Pending drains₀ reclaims₀)) (serve c timer)
      (fun _ => OnWork (Pending drains₀ reclaims₀)) fun _ =>
      OnWork (Pending drains₀ reclaims₀) := by
  refine meets_serve (D := fun w => OnWork (Owing drains₀ reclaims₀ false w.tx))
    (R := fun _ => OnWork (Owing drains₀ reclaims₀ false false))
    (Q := fun _ => OnWork (Pending drains₀ reclaims₀))
    (Driver.work_wait harrivals _) ?_ ?_ ?_ ?_ ?_ ?_ ?_
  · rintro w hrx
    rw [hrx]
    exact Driver.work_processReceived
  · rintro w m hrx hm
    exact hrx ▸ hm
  · rintro w htx
    rw [htx]
    exact Driver.work_reclaim
  · rintro w m htx hm
    exact htx ▸ hm
  · exact fun _ entry => (blind_work.report entry).onWork
  · exact fun _ m hm => hm.mono nofun nofun
  · intro _
    exact (Driver.keepsWork_pollIfExpired timer).onWork.post fun _ _ hm => hm.mono nofun nofun

end Attempt

end XgmacDriver
