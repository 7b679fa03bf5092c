import XgmacDriver.Proofs.ArenaStack
import XgmacDriver.Proofs.BringUpStock
import XgmacDriver.Proofs.TransmitSteps

/-! # Transmission over whole runs

From a fresh interface on, bring-up leads to a machine on which every party agrees that nothing is
in flight. From there on output, completions, interrupts, passes of the deferred task and reclaiming
may follow one another in any order, and the parties agree after each of them.
-/

namespace XgmacDriver

open Machine TxView

variable {σ : Type} {c : Collaborators σ} {phase : Phase} {p : TxView → Prop}

namespace Attempt

theorem Keeps.ledger {α : Type} {x : Attempt σ α} (hx : Keeps txView x) :
    Meets (TxLedger phase p) x (fun _ => TxLedger phase p) fun _ => TxLedger phase p := by
  refine Driver.Meets.post (Driver.Keeps.ledger hx) ?_
  rintro (f | a) m hm
  · exact hm
  · exact hm

/-! ## Bring-up -/

theorem keepsTx_command {k : Command} (hk : k.isAside = true) :
    Keeps txView (command c k) :=
  keeps_command (Driver.keepsTx_command hk)

theorem keepsTx_initLinkPartner : Keeps txView (initLinkPartner c) :=
  keeps_initLinkPartner (fun _ => Driver.keepsTx_command rfl) (fun _ => Driver.keepsTx_command rfl)
    (fun _ _ => rfl) blind_txView.report

theorem keepsTx_ensurePool_rx : Keeps txView (ensurePool c .rx) :=
  keeps_ensurePool fun _ => rfl

theorem keepsTx_prefill (n : Nat) : Keeps txView (prefill c n) :=
  keeps_prefill Driver.keepsTx_receiving.getBuffer (fun _ => rfl)
    (fun _ => Driver.keepsTx_command rfl) n

theorem keepsTx_startEngine : Keeps txView (startEngine c) :=
  keeps_startEngine (fun _ => Driver.keepsTx_command rfl) (Driver.keepsTx_command rfl)

/-- What has been achieved for the stage `s` is enough for the stage `t`. -/
theorem ledger_advance {m : Machine σ} {s t : Stage} (hm : TxLedger (.bringUp s) p m)
    (ht : m.txView.Passed s → p m.txView → m.txView.Passed t) : TxLedger (.bringUp t) p m := by
  rintro (hrunning | hquiet)
  · cases hrunning
  · obtain ⟨hstanding, hp⟩ := hm (Or.inr hquiet)
    exact ⟨⟨ht hstanding.reached hp, hstanding.stage, hstanding.armed⟩, hp⟩

theorem ledger_withEngine :
    Driver.Meets (TxLedger phase (Books [] 0))
      (Driver.modifyInterface Interface.withEngine : Driver σ Unit) fun _ =>
      TxLedger phase fun v => Books [] 0 v ∧ v.engineOpen = true := by
  intro m hm
  refine Ledger.step hm rfl fun hstanding hbooks => ?_
  refine ⟨hstanding.mono rfl rfl (fun _ => rfl) id id id, ?_, rfl⟩
  exact { hbooks with }

theorem ledger_setCallback :
    Driver.Meets (TxLedger (.bringUp .engineInit) fun v => Books [] 0 v ∧ v.engineOpen = true)
      (Driver.command c .setCallback) fun
      | .ok () => TxLedger (.bringUp .linkPartnerInit) (Books [] 0)
      | .error _ => TxLedger (.bringUp .engineInit) (Books [] 0) := by
  refine Driver.meets_command (fun m world hm _ => ?_) fun m world status hm _ => ?_
  · have hview : Machine.txView { m with
        trace := m.trace.push (.command .setCallback (.ok ()))
        world
        engine := m.engine.accept .setCallback } = { m.txView with callback := true } := by
      simp [Machine.txView, Machine.submitted, Machine.handedBack, Exchange.submitted,
        Exchange.handedBack, Engine.accept]
    show Ledger (.bringUp .linkPartnerInit) (Books [] 0) (Machine.txView _)
    rw [hview]
    rintro (hrunning | hquiet)
    · cases hrunning
    · obtain ⟨hstanding, hbooks, hopen⟩ := hm (Or.inr hquiet)
      refine ⟨⟨⟨fun _ => ⟨hopen, rfl⟩, fun hs => absurd hs (by decide), fun hs => absurd hs
        (by decide)⟩, ?_, hstanding.armed⟩, { hbooks with }⟩
      exact hstanding.stage.mono id (fun _ => rfl) id id
  · show Ledger (.bringUp .engineInit) (Books [] 0) (Machine.txView _)
    rw [Machine.txView_refused]
    exact Ledger.mono hm fun _ h => h.1

theorem ledger_openEngine :
    Meets (TxLedger (.bringUp .engineInit) (Books [] 0)) (openEngine c)
      (fun _ => TxLedger (.bringUp .linkPartnerInit) (Books [] 0))
      fun _ => TxLedger (.bringUp .engineInit) (Books [] 0) := by
  have hopened : ∀ (m : Machine σ) (world : σ) opened,
      TxLedger (.bringUp .engineInit) (Books [] 0) m →
        TxLedger (.bringUp .engineInit) (Books [] 0) { m with
          trace := m.trace.push (.openEmac m.interface.index opened), world } :=
    fun m world _ => (blind_txView.record ⟨rfl, rfl⟩).ledger { m with world }
  exact meets_openEngine (fun m world hm _ => hopened m world false hm)
    (fun m world hm _ => ledger_withEngine _ (hopened m world true hm))
    (meets_command ledger_setCallback (fun _ hm => hm) fun _ _ hm => hm)

theorem ledger_ensurePool_tx :
    Meets (TxLedger phase (Books [] 0)) (ensurePool c .tx)
      (fun _ => TxLedger phase fun v => Books [] 0 v ∧ v.pool.isInitialized = true)
      fun _ => TxLedger phase (Books [] 0) := by
  have hcreate : Driver.Meets
      (fun m => TxLedger phase (Books [] 0) m ∧ m.interface.txPool.isInitialized = false)
      (Driver.createPool c .tx) fun r =>
        TxLedger phase fun v => Books [] 0 v ∧ (r = .ok () → v.pool.isInitialized = true) := by
    rintro m ⟨hm, hvacant⟩
    refine Ledger.step hm rfl fun hstanding hbooks => ⟨hstanding.setPool fun hpool => ?_, ?_⟩
    · exact absurd (hvacant.symm.trans hpool) Bool.false_ne_true
    · exact ⟨hbooks.create hvacant, Pool.isInitialized_create⟩
  refine meets_ensurePool (hcreate.post ?_) fun m hm hready => ?_
  · rintro (f | ⟨⟩) m hm
    · exact hm.mono fun _ h => h.1
    · exact hm.mono fun _ h => ⟨h.1, h.2 rfl⟩
  · exact hm.mono fun _ hbooks => ⟨hbooks, hready⟩

/-- With the pool the work of the stage is done, as far as transmission goes. -/
theorem ledger_initTransfer :
    Meets (TxLedger (.bringUp .transferInit) (Books [] 0)) (initTransfer c)
      (fun _ => TxLedger (.bringUp .engineStart) (Books [] 0))
      fun _ => TxLedger (.bringUp .transferInit) (Books [] 0) := by
  have hkept : ∀ {x : Attempt σ Unit}, Keeps txView x →
      Meets (TxLedger (.bringUp .transferInit) fun v => Books [] 0 v ∧ v.pool.isInitialized = true)
        x (fun _ => TxLedger (.bringUp .transferInit) fun v =>
          Books [] 0 v ∧ v.pool.isInitialized = true)
        fun _ => TxLedger (.bringUp .transferInit) (Books [] 0) :=
    fun hx => hx.ledger.mono (fun _ hm => hm) (fun _ _ hm => hm) fun _ _ hm =>
      hm.mono fun _ h => h.1
  refine Meets.post (meets_initTransfer keeps_requireEngine.ledger
    (ledger_ensurePool_tx.pre fun _ hm => hm.1) (fun m hm hzero => ?_)
    ((hkept keepsTx_ensurePool_rx).pre fun _ hm => hm.1) (fun _ hm _ => hm)
    (hkept (keepsTx_command rfl))
    fun _ => (hkept (keepsTx_prefill _)).pre fun _ hm => hm.1) fun _ m hm => ?_
  · exact hm.mono fun _ hbooks => absurd (hbooks.copying.symm.trans hzero) Bool.false_ne_true
  · refine TxLedger.mono (ledger_advance hm fun hpassed h => ?_) fun _ h => h.1
    exact ⟨fun _ => hpassed.opened (by decide), fun _ => h.2, fun hs => absurd hs (by decide)⟩

theorem ledger_startTask :
    Meets (TxLedger (.bringUp .linkWait) (Books [] 0)) (startTask c)
      (fun _ => TxLedger (.bringUp .ready) (Books [] 0))
      fun _ => TxLedger (.bringUp .linkWait) (Books [] 0) := by
  have hadvance : ∀ m : Machine σ, TxLedger (.bringUp .linkWait) (fun v =>
      Books [] 0 v ∧ v.armed = true) m → TxLedger (.bringUp .ready) (Books [] 0) m := by
    intro m hm
    refine TxLedger.mono (ledger_advance hm fun hpassed h => ?_) fun _ h => h.1
    exact ⟨fun _ => hpassed.opened (by decide), fun _ => hpassed.pooled (by decide), fun _ => h.2⟩
  have hspawn : ∀ spec, Driver.Keeps txView (Driver.spawn c spec) := fun _ =>
    blind_txView.ask _ _ fun _ => ⟨rfl, rfl⟩
  refine meets_startTask (fun spec => (hspawn spec).ledger.mono (fun _ hm => hm.1) ?_) ?_
  · rintro (_ | handle) m hm
    · exact hm
    · refine hadvance _ (Ledger.step hm rfl fun hstanding hbooks => ?_)
      refine ⟨?_, { hbooks with }, rfl⟩
      exact ⟨hstanding.reached.mono id id id fun _ => rfl,
        hstanding.stage.mono id id id fun _ => rfl, fun _ => rfl⟩
  · exact fun m hm htask => hadvance m (hm.mono fun hstanding hbooks =>
      ⟨hbooks, hstanding.armed htask⟩)

theorem ledger_awaitLink :
    Meets (TxLedger (.bringUp .linkWait) (Books [] 0)) (awaitLink c)
      (fun up => TxLedger (.bringUp (if up then .ready else .linkWait)) (Books [] 0))
      fun _ => TxLedger (.bringUp .linkWait) (Books [] 0) := by
  have hlink : ∀ phy maxWait, Driver.Keeps txView (Driver.checkLink c phy maxWait) := fun phy =>
    Driver.keeps_checkLink blind_txView.report (blind_txView.readPhy _ _ fun _ => ⟨rfl, rfl⟩)
      (fun _ _ => rfl) blind_txView.sleep
  exact meets_awaitLink keeps_requireEngine.ledger (fun phy maxWait => (hlink phy maxWait).ledger)
    ledger_startTask fun entry => (blind_txView.report entry).ledger

theorem ledger_restart {m : Machine σ} {s : Stage} (hm : TxLedger (.bringUp s) p m) :
    TxLedger (.bringUp .engineInit) p m :=
  ledger_advance hm fun _ _ => passed_engineInit _

theorem ledger_setStage {m : Machine σ} {s t : Stage} (hm : TxLedger (.bringUp s) p m)
    (ht : m.txView.Passed s → m.txView.Passed t)
    (hp : p m.txView → p { m.txView with stage := t }) :
    TxLedger (.bringUp s) p { m with interface := m.interface.withStage t } :=
  Ledger.step hm rfl fun hstanding h =>
    ⟨⟨hstanding.reached.mono id id id id, (ht hstanding.reached).mono id id id id, hstanding.armed⟩,
      hp h⟩

def ledgerOutline : BringUpOutline σ where
  inTurn s := TxLedger (.bringUp s) (Books [] 0)
  waiting := TxLedger (.bringUp .linkWait) (Books [] 0)
  failed _ _ := TxLedger (.bringUp .engineInit) (Books [] 0)

theorem ledgerOutline_sound : ledgerOutline.Sound c where
  stage := by
    have hrestart : ∀ {α : Type} {x : Attempt σ α} {s : Stage} {Q : α → Machine σ → Prop},
        Meets (TxLedger (.bringUp s) (Books [] 0)) x Q
          (fun _ => TxLedger (.bringUp s) (Books [] 0)) →
        Meets (TxLedger (.bringUp s) (Books [] 0)) x Q
          fun _ => TxLedger (.bringUp .engineInit) (Books [] 0) :=
      fun hx => hx.mono (fun _ hm => hm) (fun _ _ hm => hm) fun _ _ hm => ledger_restart hm
    refine BringUpOutline.meets_runStage ledger_openEngine
      ((hrestart keepsTx_initLinkPartner.ledger).post fun _ _ hm => ?_)
      (hrestart ledger_initTransfer)
      ((hrestart keepsTx_startEngine.ledger).post fun _ _ hm => ?_)
      ((hrestart ledger_awaitLink).post ?_)
    · exact ledger_advance hm fun hpassed _ => hpassed.of_le (by decide) (by decide) (by decide)
    · exact ledger_advance hm fun hpassed _ => hpassed.of_le (by decide) (by decide) (by decide)
    · rintro (_ | _) m hm
      · exact hm
      · exact hm
  report _ entry := (blind_txView.report entry).ledger
  report_failed _ _ entry := (blind_txView.report entry).ledger

theorem ledger_initialise :
    Meets (TxLedger (.bringUp .engineInit) (Books [] 0)) (initialise c)
      (fun _ => TxLedger (.bringUp .ready) (Books [] 0))
      fun _ => TxLedger (.bringUp .engineInit) (Books [] 0) := by
  refine ledgerOutline_sound.initialise ?_ (fun _ _ _ hm => hm) ?_ ?_ ?_
  · intro s e m _ hm
    refine ledger_setStage hm (fun _ => ?_) fun hbooks => { hbooks with }
    exact (passed_engineInit _).of_le (by decide) (by decide) (by decide)
  · rintro m hm (hrunning | hquiet)
    · cases hrunning
    · obtain ⟨hstanding, hbooks⟩ := hm (Or.inr hquiet)
      exact ⟨⟨hstanding.stage.entry, hstanding.stage, hstanding.armed⟩, hbooks⟩
  · exact fun m hm => ledger_setStage hm id fun hbooks => { hbooks with }
  · exact fun m hm => ledger_restart (ledger_setStage hm id fun hbooks => { hbooks with })

end Attempt

/-! ## Runs -/

inductive TxEvent
  | output (buffer : NetworkBuffer) (releaseAfterSend : Bool)
  | arrive (x : Arrival)
  | serve (timer : PollTimer)
  | reclaim
  | elapse (ms : UInt64)

namespace TxEvent

/-- The machine after an event. A call that halts leaves what it has done so far. -/
def run (c : Collaborators σ) : TxEvent → Machine σ → Machine σ
  | output buffer releaseAfterSend, m => ((Attempt.output c buffer releaseAfterSend).run.run m).2
  | arrive x, m => ((Driver.arrive x).run m).2
  | serve timer, m => ((Attempt.serve c timer).run.run m).2
  | reclaim, m => ((Driver.reclaim c).run m).2
  | elapse ms, m => { m with clock := m.clock.advance ms }

def Orderly : TxEvent → Prop
  | arrive x => x.Orderly
  | _ => True

end TxEvent

/-- The machines before a call of `initialise` has returned: whatever was called before it, and
whatever arrived. -/
inductive Unready (c : Collaborators σ) : Machine σ → Prop
  | fresh {index : UInt8} {config : Config} {interface : Interface} {clock : Clock}
      {memory : Memory} {log : Array LogEntry} {world : σ} :
      Interface.register index config = .ok interface → config.zeroCopyTx = false →
      Unready c { interface, engine := {}, clock, memory, trace := #[], log, world }
  | initialise {m : Machine σ} : Unready c m → Unready c ((Attempt.initialise c).run.run m).2
  | event {m : Machine σ} {e : TxEvent} : Unready c m → e.Orderly → Unready c (e.run c m)

/-- The machines of a run that starts when `initialise` has just returned and no frame has been
submitted before. -/
inductive TxRun (c : Collaborators σ) : Machine σ → Prop
  | start {m m' : Machine σ} : Unready c m → (Attempt.initialise c).run.run m = (.ok (), m') →
      m'.submitted = [] → TxRun c m'
  | event {m : Machine σ} {e : TxEvent} : TxRun c m → e.Orderly → TxRun c (e.run c m)

theorem TxRun.events {m : Machine σ} {es : List TxEvent} (h : TxRun c m)
    (hes : ∀ e ∈ es, e.Orderly) : TxRun c (es.foldl (fun m e => e.run c m) m) := by
  induction es generalizing m with
  | nil => exact h
  | cons e es ih =>
      refine ih (h.event (hes e List.mem_cons_self)) fun e' he' => ?_
      exact hes e' (List.mem_cons_of_mem e he')

section

variable (hlock : ∀ w, c.lock .tx w = .free)
  (hwait : ∀ ms w, ∀ x ∈ (c.duringWait ms w).1, x.Orderly)
include hlock hwait

theorem TxEvent.ledger_run {e : TxEvent} (he : e.Orderly) {m : Machine σ}
    (hm : TxLedger phase (Books [] 0) m) : TxLedger phase (Books [] 0) (e.run c m) := by
  cases e with
  | output buffer releaseAfterSend =>
      exact (Attempt.ledger_output hlock buffer releaseAfterSend).afterwards hm
  | arrive x => exact Driver.ledger_arrive he m hm
  | serve timer =>
      refine Attempt.Meets.afterwards ?_ hm
      exact (Attempt.ledger_serve hlock hwait timer).post fun _ _ h => h.mono fun _ h => h.1
  | reclaim => exact (Driver.ledger_reclaim_done hlock m hm).mono fun _ h => h.1
  | elapse ms => exact hm

theorem Unready.ledger {m : Machine σ} (h : Unready c m) :
    TxLedger (.bringUp .engineInit) (Books [] 0) m := by
  induction h with
  | @fresh index config interface clock memory log world hregister hcopying =>
      obtain rfl := Interface.eq_of_register hregister
      intro _
      refine ⟨⟨passed_engineInit _, passed_engineInit _, nofun⟩, hcopying, rfl, ?_, rfl, nofun,
        fun _ => rfl, .refl _, rfl, rfl⟩
      exact Ring.capacity_vacant poolSlots
  | initialise _ ih =>
      refine Attempt.Meets.afterwards ?_ ih
      exact Attempt.ledger_initialise.post fun _ _ hm => Attempt.ledger_restart hm
  | event _ he ih => exact TxEvent.ledger_run hlock hwait he ih

theorem TxRun.ledger {m : Machine σ} (h : TxRun c m) : TxLedger .running (Books [] 0) m := by
  induction h with
  | @start m m' hunready hok hsubmitted =>
      have hend := Attempt.ledger_initialise.outcome (hunready.ledger hlock hwait) hok
      intro _
      exact hend (Or.inr hsubmitted)
  | event _ he ih => exact TxEvent.ledger_run hlock hwait he ih

/-- At every point of a run the slots in use are those of the frames that were accepted and not yet
handed back, all different, and the counter has one completion for each frame that waits, with room
for the rest. Reclaiming then returns exactly the waiting slots, and so does a pass of the task that
completions have woken. -/
theorem TxRun.accounts {m : Machine σ} (h : TxRun c m) :
    (∃ base, m.interface.txPool.Accounts base m.txView.inFlight) ∧
      m.submitted.Perm (m.handedBack ++ m.txView.inFlight) ∧
      m.txView.inFlight.Nodup ∧
      m.engine.done = m.txView.waiting.map (fun a => .ok (some a)) ∧
      m.interface.notifier.completions.count = m.engine.done.length ∧
      m.interface.notifier.completions.count + m.engine.outstanding.length ≤
        m.interface.notifier.completions.max ∧
      (∀ result m', (Driver.reclaim c).run m = (result, m') →
        result = m.engine.done.length ∧ m'.engine.done = [] ∧
        m'.engine.outstanding = m.engine.outstanding ∧
        m'.interface.txPool.ring.queue = m.interface.txPool.ring.queue ++ m.txView.waiting) ∧
      ∀ timer events timer' m', (Attempt.serve c timer).run.run m = (.ok (events, timer'), m') →
        events.tx = true → m'.engine.done = [] := by
  obtain ⟨hstanding, hbooks⟩ := h.ledger hlock hwait (Or.inl rfl)
  have hpool := hstanding.reached.pooled (by decide)
  obtain ⟨base, haccounts⟩ := hbooks.slots hpool
  rw [List.append_nil] at haccounts
  have hnodup := hbooks.nodup
  have hlength := hbooks.length_le
  rw [List.append_nil] at hnodup hlength
  refine ⟨⟨base, haccounts⟩, hbooks.flow, hnodup, hbooks.done_eq, hbooks.count_eq, ?_, ?_, ?_⟩
  · have hcount : m.interface.notifier.completions.count = m.engine.done.length := hbooks.count_eq
    have hwaiting : m.txView.waiting.length = m.engine.done.length := hbooks.length_waiting
    have hmax : m.interface.notifier.completions.max = poolSlots := hbooks.max_eq
    rw [inFlight, List.length_append, hwaiting] at hlength
    rw [hmax, hcount, Nat.add_comm]
    exact hlength
  · -- The ledger of a reclaim is kept relative to the view in which it began.
    intro result m' hrun
    have hstart : TxLedger .running (fun v => v = m.txView ∧ Books [] 0 v) m := fun _ =>
      ⟨hstanding, rfl, hbooks⟩
    have hend := Driver.ledger_reclaim hlock m.txView m hstart
    rw [hrun] at hend
    obtain ⟨-, -, hreclaimed⟩ := hend (Or.inl rfl)
    obtain ⟨hresult, hdone, houtstanding, hqueue⟩ := hreclaimed rfl
    rw [hbooks.length_waiting] at hresult
    exact ⟨hresult, hdone, houtstanding, hqueue⟩
  · intro timer events timer' m' hrun htx
    have hend := (Attempt.ledger_serve hlock hwait timer).outcome (h.ledger hlock hwait) hrun
    exact ((hend (Or.inl rfl)).2.2 rfl) htx

end

/-- An interface that has just been registered, and a stack with two buffers. -/
def freshMachine : Machine Arena where
  interface := { index := 0, config := { zeroCopyRx := true } }
  engine := {}
  clock := .startingAt 0 0
  memory := .zeroed
  trace := #[]
  log := #[]
  world := .ofRegion regionStart 2 2048

def readyMachine : Machine Arena :=
  ((Attempt.initialise (.ofArena (.ok ()) true)).run.run freshMachine).2

/-- The fresh machine before its transfer stage, but with its transmit pool there already. -/
def slottedMachine : Machine Arena :=
  let m := Attempt.beforeTransfer (.ofArena (.ok ()) true) freshMachine
  { m with interface := m.interface.setPool (.filled "Tx" regionStart) .tx }

theorem run_freshMachine : (Attempt.initialise (.ofArena (.ok ()) true)).run.run freshMachine =
    (.ok (), Attempt.afterTransfer (.ofArena (.ok ()) true) slottedMachine) := by
  refine Attempt.run_initialise_of_transfer rfl (by decide +kernel) (by decide +kernel) ?_
    (by decide +kernel)
  exact Attempt.run_transferInit_of_create rfl rfl rfl rfl (Pool.create_filled rfl rfl) rfl

/-- Of the two frames that go out the second one is sent first. -/
def twoFrames : List TxEvent :=
  let frame : NetworkBuffer := ⟨0, some (regionStart.add bufferPadding), 1536, 60⟩
  [.output frame true, .output frame false, .arrive (.sent (regionStart.add 1536))]

def twoFrameMachine : Machine Arena :=
  twoFrames.foldl (fun m e => e.run (.ofArena (.ok ()) true) m) readyMachine

/-- Both frames are in flight, the one still with the engine and the other counted, so a reclaim
returns one buffer. -/
theorem TxRun.accounts_two_frames :
    twoFrameMachine.submitted.length = 2 ∧ twoFrameMachine.txView.inFlight.length = 2 ∧
      twoFrameMachine.engine.outstanding.length = 1 ∧
      twoFrameMachine.interface.notifier.completions.count = 1 ∧
      twoFrameMachine.interface.notifier.completions.count = twoFrameMachine.engine.done.length ∧
      twoFrameMachine.submitted.Perm
        (twoFrameMachine.handedBack ++ twoFrameMachine.txView.inFlight) ∧
      ((Driver.reclaim (.ofArena (.ok ()) true)).run twoFrameMachine).1 = 1 := by
  have hfresh : Unready (.ofArena (.ok ()) true) freshMachine :=
    .fresh (show Interface.register 0 { zeroCopyRx := true } = .ok _ from rfl) rfl
  have hok : ((Attempt.initialise (.ofArena (.ok ()) true)).run.run freshMachine).1 = .ok () :=
    congrArg Prod.fst run_freshMachine
  have hready : TxRun (.ofArena (.ok ()) true) readyMachine :=
    .start hfresh (Prod.ext hok rfl) (by decide +kernel)
  have horderly : ∀ e ∈ twoFrames, e.Orderly := by
    simp [twoFrames, TxEvent.Orderly, Arrival.Orderly]
  have hrun : TxRun (.ofArena (.ok ()) true) twoFrameMachine := hready.events horderly
  obtain ⟨-, hflow, -, -, hcount, -, hreclaim, -⟩ :=
    TxRun.accounts (fun _ => rfl) (fun _ _ _ h => by cases h) hrun
  have hflight : twoFrameMachine.submitted.length = 2 ∧
      twoFrameMachine.txView.inFlight.length = 2 ∧
      twoFrameMachine.engine.outstanding.length = 1 ∧
      twoFrameMachine.interface.notifier.completions.count = 1 := by
    rw [twoFrameMachine, readyMachine, run_freshMachine]
    decide +kernel
  obtain ⟨hsubmitted, hinFlight, houtstanding, hone⟩ := hflight
  refine ⟨hsubmitted, hinFlight, houtstanding, hone, hcount, hflow, ?_⟩
  rcases hend : (Driver.reclaim (.ofArena (.ok ()) true)).run twoFrameMachine with ⟨result, m'⟩
  exact (hreclaim result m' hend).1.trans (hcount.symm.trans hone)

end XgmacDriver
