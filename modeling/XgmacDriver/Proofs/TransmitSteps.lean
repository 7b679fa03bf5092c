import XgmacDriver.Proofs.TransmitLedger

/-! # Transmission keeps the books

Output, reclaiming, what arrives from the engine and a pass of the deferred task each lead from a
ledger to a ledger. Reclaiming returns all buffers of completed frames to the pool, in order.
-/

namespace XgmacDriver

open Machine TxView

variable {σ : Type} {c : Collaborators σ} {phase : Phase} {hand : List Addr} {debt : Nat}
  {a : Addr} {p q q' : TxView → Prop}

/-- The engine reports a completion together with its interrupt, and no error. -/
def Arrival.Orderly : Arrival → Prop
  | .received _ | .sent _ => True
  | .interrupt i => i ≠ .transmitted
  | .transmitted _ => False

def TxLedger (phase : Phase) (p : TxView → Prop) (m : Machine σ) : Prop :=
  m.txView.Ledger phase p

theorem TxLedger.mono {m : Machine σ} (h : TxLedger phase p m)
    (hp : m.txView.Standing phase.reached → p m.txView → q m.txView) : TxLedger phase q m :=
  Ledger.mono h hp

theorem Driver.Keeps.ledger {α : Type} {x : Driver σ α} (hx : Driver.Keeps txView x) :
    Driver.Meets (TxLedger phase p) x fun _ => TxLedger phase p :=
  hx.meets (Ledger phase p)

namespace Driver

theorem ledger_acquireSlot (hlock : ∀ w, c.lock .tx w = .free) :
    Meets (TxLedger phase (Books [] debt)) (acquireSlot c .tx maxPacketSize) fun
      | .ok a => TxLedger phase (Books [a] debt)
      | .error _ => TxLedger phase (Books [] debt) := by
  refine meets_onPool fun m reply hm hreply => ?_
  rw [hlock] at hreply
  have hacquired := fun hbooks : Books [] debt m.txView => hbooks.acquire hreply
  cases hresult : reply.result with
  | ok a =>
      simp only [hresult] at hacquired
      refine Ledger.step hm rfl fun hstanding hbooks => ?_
      exact ⟨hstanding.setPool (hacquired hbooks).1, (hacquired hbooks).2⟩
  | error e =>
      simp only [hresult] at hacquired
      refine Ledger.step hm rfl fun hstanding hbooks => ?_
      exact ⟨hstanding.setPool (hacquired hbooks).1, (hacquired hbooks).2⟩

/-- The slot in hand is released, and `q` becomes `q'` by what that does to the ring. -/
theorem ledger_releaseSlot (hlock : ∀ w, c.lock .tx w = .free)
    (hq : ∀ v ring, q v → ring.queue = v.pool.ring.queue ++ [a] →
      q' { v with pool := { v.pool with ring } }) :
    Meets (TxLedger phase fun v => Books [a] debt v ∧ q v) (releaseSlot c .tx a) fun answer =>
      TxLedger phase fun v => answer = .ok () ∧ Books [] debt v ∧ q' v := by
  refine meets_onPool fun m reply hm hreply => ?_
  rw [hlock] at hreply
  refine Ledger.step hm rfl ?_
  rintro hstanding ⟨hbooks, hqm⟩
  obtain ⟨ring, hrelease, hqueue, hrest⟩ := hbooks.release m.clock m.memory
  obtain rfl := hreply.symm.trans hrelease
  exact ⟨hstanding.setPool id, rfl, hrest, hq _ ring hqm hqueue⟩

theorem ledger_returnSlot (hlock : ∀ w, c.lock .tx w = .free) :
    Meets (TxLedger phase (Books [a] debt)) (releaseSlot c .tx a) fun _ =>
      TxLedger phase (Books [] debt) := by
  have hrelease : Meets (TxLedger phase fun v => Books [a] debt v ∧ True) (releaseSlot c .tx a)
      fun answer => TxLedger phase fun v => answer = .ok () ∧ Books [] debt v ∧ True :=
    ledger_releaseSlot hlock fun _ _ _ _ => trivial
  exact hrelease.mono (fun _ hm => hm.mono fun _ hbooks => ⟨hbooks, trivial⟩)
    fun _ _ hm => hm.mono fun _ h => h.2.1

/-- The slot of an accepted frame is with the engine, that of a refused one still in hand. -/
theorem ledger_transmit {frame : TxFrame} (hbuf : frame.buf = a) :
    Meets (TxLedger phase (Books [a] debt)) (command c (.transmit frame)) fun
      | .ok () => TxLedger phase (Books [] debt)
      | .error _ => TxLedger phase (Books [a] debt) := by
  subst hbuf
  refine meets_command (fun m world hm _ => ?_) fun m world status hm _ => ?_
  · have hview : Machine.txView { m with
        trace := m.trace.push (.command (.transmit frame) (.ok ()))
        world
        engine := m.engine.accept (.transmit frame) } = { m.txView with
        outstanding := m.txView.outstanding ++ [frame.buf]
        submitted := m.txView.submitted ++ [frame.buf] } := by
      simp [Machine.txView, Machine.submitted, Machine.handedBack, Exchange.submitted,
        Exchange.handedBack, Engine.accept]
    rintro (hready | hsubmitted)
    · obtain ⟨hstanding, hbooks⟩ := hm (Or.inl hready)
      rw [hview]
      exact ⟨hstanding.mono rfl rfl id id id id, hbooks.submit⟩
    · rw [hview] at hsubmitted
      simp at hsubmitted
  · show Ledger phase (Books [frame.buf] debt) (Machine.txView _)
    rw [Machine.txView_refused]
    exact hm

end Driver

namespace Attempt

theorem ledger_stageFrame (hlock : ∀ w, c.lock .tx w = .free) (payload : Addr) (length : Nat) :
    Meets (TxLedger phase (Books [] debt)) (stageFrame c payload length)
      (fun a => TxLedger phase (Books [a] debt)) fun _ => TxLedger phase (Books [] debt) := by
  refine meets_stageFrame (fun m hm hzero => hm.mono fun _ hbooks => ?_)
    ((Driver.ledger_acquireSlot hlock).pre fun _ hm => hm.1) (fun _ _ hm => hm)
    fun slot => (blind_txView.copyMemory payload slot length).ledger
  exact absurd (hbooks.copying.symm.trans hzero) Bool.false_ne_true

theorem ledger_submit (hlock : ∀ w, c.lock .tx w = .free) (payload : Addr) (length : Nat) :
    Meets (TxLedger phase (Books [] debt)) (submit c payload length)
      (fun _ => TxLedger phase (Books [] debt)) fun _ => TxLedger phase (Books [] debt) := by
  refine meets_submit (B := fun slot => TxLedger phase (Books [slot] debt))
    (S := fun _ => TxLedger phase (Books [] debt)) (ledger_stageFrame hlock payload length)
    (fun _ _ => Driver.ledger_transmit rfl) (fun _ _ => (blind_txView.report _).ledger)
    (fun _ m hm hzero => hm.mono fun _ hbooks => ?_)
    (fun _ => (Driver.ledger_returnSlot hlock).pre fun _ hm => hm.1) (fun _ hm => hm)
    fun _ => (blind_txView.report _).ledger
  exact absurd (hbooks.copying.symm.trans hzero) Bool.false_ne_true

theorem ledger_output (hlock : ∀ w, c.lock .tx w = .free) (buffer : NetworkBuffer)
    (releaseAfterSend : Bool) :
    Meets (TxLedger phase (Books [] debt)) (output c buffer releaseAfterSend)
      (fun _ => TxLedger phase (Books [] debt)) fun _ => TxLedger phase (Books [] debt) := by
  have hreport : ∀ entry, Driver.Meets (TxLedger phase (Books [] debt))
      (Driver.report entry : Driver σ Unit) fun _ => TxLedger phase (Books [] debt) :=
    fun entry => (blind_txView.report entry).ledger
  exact meets_output (R := fun _ => TxLedger phase (Books [] debt))
    (fun _ => (hreport _).pre fun _ hm => hm.1) (fun _ => hreport _)
    (fun _ payload _ => (ledger_submit hlock payload _).pre fun _ hm => hm.1)
    ((hreport _).pre fun _ hm => hm.1) (Driver.keepsTx_receiving.releaseBuffer _).ledger
    fun _ hm => hm

end Attempt

namespace Driver

variable {start : TxView} {count reclaimed : Nat}

/-- What is known after `reclaimed` buffers, with `count` completions still on the counter. -/
def Reclaimed (start : TxView) (reclaimed count : Nat) (v : TxView) : Prop :=
  Books [] 0 v ∧ v.completions.count = count ∧
    ∃ as, Reclaiming start as [] v ∧ reclaimed = as.length

def HandedBack (start : TxView) (reclaimed count : Nat) (a : Addr) (v : TxView) : Prop :=
  Books [a] 0 v ∧ v.completions.count = count ∧
    ∃ as, Reclaiming start (as ++ [a]) [a] v ∧ reclaimed = as.length

theorem ledger_takeCompletion :
    Meets (TxLedger phase (Reclaimed start reclaimed (count + 1)))
      (modifyInterface (·.mapNotifier Notifier.takeCompletion) : Driver σ Unit) fun _ =>
      TxLedger phase fun v => Books [] 1 v ∧ v.completions.count = count ∧
        ∃ as, Reclaiming start as [] v ∧ reclaimed = as.length := by
  intro m hm
  refine Ledger.step hm rfl ?_
  rintro hstanding ⟨hbooks, hcount, as, has, hlength⟩
  obtain ⟨hbooks', hcount'⟩ := hbooks.takeCompletion hcount
  exact ⟨hstanding.mono rfl rfl id id id id, hbooks', hcount', as, ⟨has.1, has.2, has.3⟩, hlength⟩

/-- The engine never has less to report than was counted. -/
theorem ledger_nextTransmitted :
    Meets (TxLedger phase fun v => Books [] 1 v ∧ v.completions.count = count ∧
        ∃ as, Reclaiming start as [] v ∧ reclaimed = as.length)
      (nextTransmitted : Driver σ TxAnswer) fun answer =>
      TxLedger phase fun v => ∃ a, answer = .ok (some a) ∧
        HandedBack start reclaimed count a v := by
  refine meets_nextTransmitted fun m answer engine hm hanswer => ?_
  refine Ledger.step hm (by simp [Machine.txView, Machine.submitted, Exchange.submitted]) ?_
  rintro hstanding ⟨hbooks, hcount, as, has, hlength⟩
  obtain ⟨a, rest, hdone, hwaiting, hbooks'⟩ := hbooks.handBack
  have hdone' : m.engine.done = .ok (some a) :: rest := hdone
  rw [Engine.nextDone, hdone'] at hanswer
  cases hanswer
  have hview : Machine.txView { m with
      trace := m.trace.push (.nextTransmitted (.ok (some a)))
      engine := { m.engine with done := rest } } =
      { m.txView with done := rest, handedBack := m.txView.handedBack ++ [a] } := by
    simp [Machine.txView, Machine.submitted, Machine.handedBack, Exchange.submitted,
      Exchange.handedBack]
  rw [hview]
  refine ⟨hstanding.mono rfl rfl id id id id, a, rfl, hbooks', hcount, as, ⟨?_, ?_, ?_⟩, hlength⟩
  · rw [has.waiting, hwaiting, List.append_assoc]
    rfl
  · rw [← List.append_assoc, has.ring, List.append_nil]
  · exact has.outstanding

/-- The ledger cannot be kept where it contradicts itself, so anything may follow there. -/
theorem Keeps.ledger_absurd {α : Type} {x : Driver σ α} (hx : Keeps txView x)
    {q : α → TxView → Prop} :
    Meets (TxLedger phase fun _ => False) x fun r => TxLedger phase (q r) :=
  hx.ledger.post fun _ _ hm => hm.mono fun _ h => h.elim

theorem ledger_returnSent (hlock : ∀ w, c.lock .tx w = .free) (a : Addr) :
    Meets (TxLedger phase (HandedBack start reclaimed count a)) (returnSent c a) fun returned =>
      TxLedger phase fun v => returned = true ∧ Reclaimed start (reclaimed + 1) count v := by
  have hrelease : Meets (TxLedger phase (HandedBack start reclaimed count a)) (releaseSlot c .tx a)
      fun answer => TxLedger phase fun v =>
        answer = .ok () ∧ Reclaimed start (reclaimed + 1) count v := by
    refine ledger_releaseSlot hlock ?_
    rintro v ring ⟨hcount, as, has, hlength⟩ hqueue
    refine ⟨hcount, as ++ [a], ⟨has.waiting, ?_, has.outstanding⟩, by simp [hlength]⟩
    rw [has.ring, List.append_nil]
    exact hqueue.symm
  -- Without copying there would be no slots, which the books exclude.
  refine meets_returnSent (F := fun _ => TxLedger phase fun _ => False)
    ((keepsTx_receiving.lookup a).ledger.pre fun m hm => hm.1.mono fun _ h => ?_)
    (Keeps.ledger_absurd (blind_txView.report _))
    (fun _ => Keeps.ledger_absurd (keepsTx_receiving.releaseBuffer _))
    (hrelease.pre fun _ hm => hm.1) (fun m hm => hm.mono fun _ h => ⟨rfl, h.2⟩)
    fun e => (Keeps.ledger_absurd (blind_txView.report _)).pre fun m hm => hm.mono fun _ h => ?_
  · exact absurd (h.1.copying.symm.trans hm.2) Bool.false_ne_true
  · cases h.1

/-- Once the interface is ready, reclaiming returns the buffers of all completed frames. -/
theorem ledger_reclaim (hlock : ∀ w, c.lock .tx w = .free) (start : TxView) :
    Meets (TxLedger phase fun v => v = start ∧ Books [] 0 v) (reclaim c) fun result =>
      TxLedger phase fun v => Books [] 0 v ∧ (phase = .running →
        result = start.waiting.length ∧ v.done = [] ∧ v.outstanding = start.outstanding ∧
          v.pool.ring.queue = start.pool.ring.queue ++ start.waiting) := by
  refine meets_reclaim
    (I := fun reclaimed count => TxLedger phase (Reclaimed start reclaimed count))
    (fun _ _ => ledger_takeCompletion) (fun _ _ => ledger_nextTransmitted) ?_ ?_ ?_ ?_ ?_ ?_
  -- What was counted is there, so of the three answers only a buffer can be given.
  · intro reclaimed count m hm
    refine hm.mono ?_
    rintro - ⟨_, h, _⟩
    cases h
  · intro reclaimed count a
    refine Meets.mono (P := TxLedger phase (HandedBack start reclaimed count a))
      (ledger_returnSent hlock a) (fun m hm => hm.mono ?_) fun returned m hm => hm.mono ?_
    · rintro - ⟨_, ⟨⟩, h⟩
      exact h
    · rintro - ⟨rfl, h⟩
      exact h
  · intro reclaimed count status
    refine (Keeps.ledger_absurd (blind_txView.report _)).pre fun m hm => hm.mono ?_
    rintro - ⟨_, h, _⟩
    cases h
  · -- The counter is at zero, so nothing waits, and what did wait has all been handed back.
    intro result m hm
    refine hm.mono ?_
    rintro - ⟨hbooks, hcount, as, has, hlength⟩
    have hdone : m.txView.done = [] := by
      apply List.length_eq_zero_iff.mp
      rw [← hbooks.count_eq, hcount]
    have hwaiting : start.waiting = as := by
      rw [has.waiting, TxView.waiting, hdone]
      exact List.append_nil as
    have hring := has.ring
    rw [List.append_nil] at hring
    rw [hwaiting]
    exact ⟨hbooks, fun _ => ⟨hlength, hdone, has.outstanding, hring.symm⟩⟩
  · intro m hm hclosed
    refine hm.mono ?_
    rintro hstanding ⟨rfl, hbooks⟩
    refine ⟨hbooks, ?_⟩
    rintro rfl
    have hopen : m.interface.engineOpen = true := (hstanding.reached.opened (by decide)).1
    exact absurd (hclosed.symm.trans hopen) Bool.false_ne_true
  · intro m hm _
    refine hm.mono ?_
    rintro - ⟨rfl, hbooks⟩
    exact ⟨hbooks, rfl, [], Reclaiming.start _, rfl⟩

theorem ledger_reclaim_done (hlock : ∀ w, c.lock .tx w = .free) :
    Meets (TxLedger phase (Books [] 0)) (reclaim c) fun _ =>
      TxLedger phase fun v => Books [] 0 v ∧ (phase = .running → v.done = []) := by
  intro m hm
  have hreclaim := ledger_reclaim hlock m.txView m (hm.mono fun _ hbooks => ⟨rfl, hbooks⟩)
  exact hreclaim.mono fun _ h => ⟨h.1, fun hready => (h.2 hready).2.1⟩

/-! ## What arrives -/

theorem keepsTx_interrupt {i : Interrupt} (hi : i ≠ .transmitted) :
    Keeps txView (interrupt i : Driver σ Unit) := by
  have hnotifier : Keeps txView
      (modifyInterface (·.mapNotifier (·.interrupt i)) : Driver σ Unit) := by
    intro m
    have hnotifier : (m.interface.notifier.interrupt i).completions =
        m.interface.notifier.completions ∧
        (m.interface.notifier.interrupt i).armed = m.interface.notifier.armed := by
      unfold Notifier.interrupt
      split
      · exact ⟨rfl, rfl⟩
      · exact ⟨rfl, rfl⟩
    show { m.txView with
      completions := (m.interface.notifier.interrupt i).completions
      armed := (m.interface.notifier.interrupt i).armed } = m.txView
    rw [hnotifier.1, hnotifier.2]
    rfl
  unfold interrupt
  refine keeps_get.bind fun m => Keeps.ite ?_ (keeps_pure _)
  refine hnotifier.bind fun _ => Keeps.ite ?_ (keeps_pure _)
  exact blind_txView.record ⟨rfl, rfl⟩

/-- A frame that completes is counted, since only a ready interface has sent it. -/
theorem ledger_sent (a : Addr) :
    Meets (TxLedger phase (Books [] 0)) (arrive (.sent a)) fun _ =>
      (TxLedger phase (Books [] 0) : Machine σ → Prop) := by
  unfold arrive
  refine meets_get.bind fun m => Meets.ite ?_ ?_
  · intro ha
    rintro m ⟨hm, rfl⟩
    show TxLedger phase (Books [] 0)
      ((interrupt .transmitted).run { m with engine := m.engine.finish a }).2
    by_cases hlive : m.engine.callback = true ∧ m.interface.notifier.armed = true
    · have hview := txView_interrupt (m := { m with engine := m.engine.finish a }) hlive.1 hlive.2
        .transmitted
      rw [TxLedger, hview]
      exact Ledger.step hm rfl fun hstanding hbooks =>
        ⟨hstanding.mono rfl rfl id id id id, hbooks.sent ha⟩
    · have hignored : m.engine.callback = false ∨ m.interface.notifier.armed = false := by
        rw [Decidable.not_and_iff_or_not] at hlive
        simpa using hlive
      rw [run_interrupt_of_ignored .transmitted { m with engine := m.engine.finish a } hignored]
      intro hquiet
      obtain ⟨hstanding, hbooks⟩ := hm hquiet
      rcases hquiet with rfl | hsubmitted
      · have hcallback := (hstanding.reached.opened (by decide)).2
        exact absurd ⟨hcallback, hstanding.reached.spawned (by decide)⟩ hlive
      · have hflow := hbooks.flow
        rw [show m.txView.submitted = [] from hsubmitted, List.nil_perm,
          List.append_eq_nil_iff, inFlight, List.append_eq_nil_iff] at hflow
        exact absurd ha (by simp [show m.engine.outstanding = [] from hflow.2.1])
  · intro _
    exact meets_pure fun m hm => hm.1

theorem ledger_arrive {x : Arrival} (hx : x.Orderly) :
    Meets (TxLedger phase (Books [] 0)) (arrive x) fun _ =>
      (TxLedger phase (Books [] 0) : Machine σ → Prop) := by
  cases x with
  | received rx => exact fun _ hm => hm
  | transmitted answer => exact hx.elim
  | interrupt i => exact (keepsTx_interrupt hx).ledger
  | sent a => exact ledger_sent a

theorem ledger_arriveAll {xs : List Arrival} (hxs : ∀ x ∈ xs, x.Orderly) :
    Meets (TxLedger phase (Books [] 0)) (xs.forM arrive) fun _ =>
      (TxLedger phase (Books [] 0) : Machine σ → Prop) := by
  induction xs with
  | nil => exact meets_pure fun _ hm => hm
  | cons x xs ih =>
      rw [List.forM_eq_forM, List.forM_cons]
      refine (ledger_arrive (hxs x List.mem_cons_self)).bind fun _ => ?_
      exact ih fun y hy => hxs y (List.mem_cons_of_mem x hy)

theorem ledger_wait (hwait : ∀ ms w, ∀ x ∈ (c.duringWait ms w).1, x.Orderly) (ms : UInt64) :
    Meets (TxLedger phase (Books [] 0)) (wait c ms) fun _ => TxLedger phase (Books [] 0) := by
  refine meets_wait (fun m hm => ledger_arriveAll (hwait ms m.world) _ hm) fun m hm => ?_
  have hcleared : TxLedger phase (Books [] 0)
    { m with interface := m.interface.mapNotifier Notifier.clear } := hm
  have hrecord : Keeps txView (record (.wait ms m.interface.notifier.word) : Driver σ Unit) :=
    blind_txView.record ⟨rfl, rfl⟩
  exact hrecord.ledger _ hcleared

end Driver

namespace Attempt

/-- A pass that was woken by completions leaves none of them waiting. -/
theorem ledger_serve (hlock : ∀ w, c.lock .tx w = .free)
    (hwait : ∀ ms w, ∀ x ∈ (c.duringWait ms w).1, x.Orderly) (timer : PollTimer) :
    Meets (TxLedger phase (Books [] 0)) (serve c timer)
      (fun r => TxLedger phase fun v =>
        Books [] 0 v ∧ (phase = .running → r.1.tx = true → v.done = []))
      fun _ => TxLedger phase (Books [] 0) := by
  refine meets_serve (D := fun _ => TxLedger phase (Books [] 0))
    (R := fun w => TxLedger phase fun v =>
      Books [] 0 v ∧ (phase = .running → w.tx = true → v.done = []))
    (Q := fun w => TxLedger phase fun v =>
      Books [] 0 v ∧ (phase = .running → w.tx = true → v.done = []))
    (Driver.ledger_wait hwait taskBlockTime) ?_ ?_ ?_ ?_ ?_ ?_ ?_
  · exact fun _ _ => Driver.keepsTx_receiving.processReceived.ledger
  · exact fun _ _ _ hm => hm
  · intro w _
    refine (Driver.ledger_reclaim_done hlock).post fun _ _ hm => ?_
    exact hm.mono fun _ h => ⟨h.1, fun hready _ => h.2 hready⟩
  · intro w m htx hm
    exact hm.mono fun _ h => ⟨h, fun _ h => absurd (htx.symm.trans h) nofun⟩
  · exact fun _ entry => (blind_txView.report entry).ledger
  · exact fun _ _ hm => hm.mono fun _ h => h.1
  · exact fun _ => (Driver.keepsTx_pollIfExpired timer).ledger

end Attempt

end XgmacDriver
