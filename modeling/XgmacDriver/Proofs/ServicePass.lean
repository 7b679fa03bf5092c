import XgmacDriver.Proofs.EventWords
import XgmacDriver.Proofs.PendingWork
import XgmacDriver.Proofs.Vitals

/-! # What a pass hears and how it ends

A pass of the deferred task consumes the interrupts that came since the word was last cleared. If
there were none it waits for some. The word then tells of them together: it decides whether the pass
drains, reclaims and reports a fault, and a fault without a meaning is the only thing that halts it.
-/

namespace XgmacDriver

variable {σ : Type} {c : Collaborators σ} {is : List Interrupt} {m m' : Machine σ}

/-- Whether interrupts get through, and the word that they have left. -/
structure Hearing where
  callback : Bool
  armed : Bool
  word : EventWord

namespace Machine

def hearing (m : Machine σ) : Hearing where
  callback := m.engine.callback
  armed := m.interface.notifier.armed
  word := m.interface.notifier.word

theorem blind_hearing : Blind (fun _ => True) (hearing : Machine σ → Hearing) where
  congr := by
    rintro m ⟨⟩ rfl rfl rfl
    rfl
  push _ _ _ := rfl

end Machine

open Machine WorkView

/-! ## The interrupts since the last wait -/

/-- The interrupts that have reached an armed notifier since its word was last cleared. Whatever
else has happened meanwhile has left the word, the callback and the arming alone. -/
inductive SinceWait : List Interrupt → Machine σ → Prop
  | cleared {m : Machine σ} : m.engine.callback = true → m.interface.notifier.armed = true →
      m.interface.notifier.word = .none → SinceWait [] m
  | interrupt {is : List Interrupt} {m : Machine σ} (i : Interrupt) : SinceWait is m →
      SinceWait (is ++ [i]) ((Driver.interrupt i).run m).2
  | elsewhere {is : List Interrupt} {m m' : Machine σ} : SinceWait is m →
      m'.hearing = m.hearing → SinceWait is m'

namespace Arrival

/-- The interrupts that come with an arrival while the engine is sending `outstanding`. -/
def interrupts (outstanding : List Addr) : Arrival → List Interrupt
  | interrupt i => [i]
  | sent buf => if buf ∈ outstanding then [.transmitted] else []
  | _ => []

def stillOut (outstanding : List Addr) : Arrival → List Addr
  | sent buf => outstanding.erase buf
  | _ => outstanding

def allInterrupts (outstanding : List Addr) : List Arrival → List Interrupt
  | [] => []
  | x :: xs => x.interrupts outstanding ++ allInterrupts (x.stillOut outstanding) xs

end Arrival

/-- The interrupts that the next pass consumes if `is` came before it: these, or those that come
while it waits if there were none. -/
def consumed (c : Collaborators σ) (is : List Interrupt) (m : Machine σ) : List Interrupt :=
  if is = [] then
    Arrival.allInterrupts m.engine.outstanding (c.duringWait taskBlockTime m.world).1
  else is

namespace Driver

theorem hearing_interrupt (i : Interrupt) (hcallback : m.engine.callback = true)
    (harmed : m.interface.notifier.armed = true) : ((interrupt i).run m).2.hearing =
      { m.hearing with word := m.interface.notifier.word ||| .ofInterrupt i } := by
  rw [run_interrupt_of_live i m hcallback harmed]
  have hnotifier : m.interface.notifier.interrupt i =
      { m.interface.notifier with
        word := m.interface.notifier.word ||| .ofInterrupt i
        completions := (m.interface.notifier.interrupt i).completions } := by
    simp [Notifier.interrupt, harmed, Notifier.notify]
  show hearing { m with interface := m.interface.mapNotifier _, trace := _ } = _
  simp only [hearing, Interface.mapNotifier]
  rw [hnotifier]

theorem engine_interrupt (i : Interrupt) (m : Machine σ) :
    ((interrupt i).run m).2.engine = m.engine := by
  by_cases hlive : m.engine.callback = true ∧ m.interface.notifier.armed = true
  · rw [run_interrupt_of_live i m hlive.1 hlive.2]
    rfl
  · rw [run_interrupt_of_ignored i m (by simpa [Decidable.or_iff_not_imp_left] using hlive)]
    rfl

theorem outstanding_arrive (x : Arrival) :
    ((arrive x).run m).2.engine.outstanding = x.stillOut m.engine.outstanding := by
  cases x with
  | received rx => rfl
  | transmitted answer => rfl
  | interrupt i => exact congrArg Engine.outstanding (engine_interrupt i m)
  | sent buf =>
      simp only [arrive, StateT.run_bind, StateT.run_get, pure_bind, run_ite]
      split
      · exact congrArg Engine.outstanding
          (engine_interrupt .transmitted { m with engine := m.engine.finish buf })
      · rename_i habsent
        exact (List.erase_of_not_mem habsent).symm

end Driver

namespace SinceWait

theorem hearing_eq (h : SinceWait is m) :
    m.engine.callback = true ∧ m.interface.notifier.armed = true ∧
      m.interface.notifier.word = .gathered is := by
  induction h with
  | cleared hcallback harmed hword => exact ⟨hcallback, harmed, hword⟩
  | @interrupt is m i _ ih =>
      obtain ⟨hcallback, harmed, hword⟩ := ih
      have hstep := Driver.hearing_interrupt i hcallback harmed
      refine ⟨(congrArg Hearing.callback hstep).trans hcallback,
        (congrArg Hearing.armed hstep).trans harmed, (congrArg Hearing.word hstep).trans ?_⟩
      rw [EventWord.gathered_concat, ← hword]
  | elsewhere _ hsame ih =>
      obtain ⟨hcallback, harmed, hword⟩ := ih
      exact ⟨(congrArg Hearing.callback hsame).trans hcallback,
        (congrArg Hearing.armed hsame).trans harmed, (congrArg Hearing.word hsame).trans hword⟩

theorem arrive (h : SinceWait is m) (x : Arrival) :
    SinceWait (is ++ x.interrupts m.engine.outstanding) ((Driver.arrive x).run m).2 := by
  cases x with
  | received rx => exact (List.append_nil is).symm ▸ h.elsewhere rfl
  | transmitted answer => exact (List.append_nil is).symm ▸ h.elsewhere rfl
  | interrupt i => exact h.interrupt i
  | sent buf =>
      simp only [Driver.arrive, StateT.run_bind, StateT.run_get, pure_bind, Driver.run_ite,
        Arrival.interrupts]
      split
      · have hfinished : SinceWait is { m with engine := m.engine.finish buf } := h.elsewhere rfl
        exact hfinished.interrupt .transmitted
      · exact (List.append_nil is).symm ▸ h

theorem arriveAll (h : SinceWait is m) (xs : List Arrival) :
    SinceWait (is ++ Arrival.allInterrupts m.engine.outstanding xs)
      ((xs.forM Driver.arrive : Driver σ Unit).run m).2 := by
  induction xs generalizing is m with
  | nil => exact (List.append_nil is).symm ▸ h
  | cons x xs ih =>
      rw [Arrival.allInterrupts, ← List.append_assoc, ← Driver.outstanding_arrive,
        List.forM_eq_forM, List.forM_cons]
      exact ih (h.arrive x)

/-- A wait returns the word of all interrupts that came before it or meanwhile, and clears it. -/
theorem wait (h : SinceWait is m) :
    ((Driver.wait c taskBlockTime).run m).1 = .gathered (consumed c is m) ∧
      ((Driver.wait c taskBlockTime).run m).2.interface.notifier.word = .none := by
  obtain ⟨-, -, hword⟩ := h.hearing_eq
  unfold Driver.wait
  by_cases his : is = []
  · subst his
    have hblocked : SinceWait [] { m with
        clock := m.clock.advance taskBlockTime
        world := (c.duringWait taskBlockTime m.world).2 } := h.elsewhere rfl
    obtain ⟨-, -, harrived⟩ :=
      (hblocked.arriveAll (c.duringWait taskBlockTime m.world).1).hearing_eq
    have hnone : m.interface.notifier.word = .none := hword
    simp only [StateT.run_bind, Driver.run_interface, pure_bind, hnone, if_true]
    constructor
    · exact harrived
    · rfl
  · have hsome : m.interface.notifier.word ≠ .none := by
      rw [hword]
      exact fun hnone => his (EventWord.gathered_eq_none_iff.mp hnone)
    simp only [StateT.run_bind, Driver.run_interface, pure_bind, hsome, if_false]
    constructor
    · rw [consumed, if_neg his]
      exact hword
    · rfl

end SinceWait

/-! ## A pass by its parts -/

namespace Driver

/-- The work that a pass finds in the word. -/
def attend (c : Collaborators σ) (w : EventWord) : Driver σ Unit := do
  if w.rx then
    let _ ← processReceived c
  if w.tx then
    let _ ← reclaim c

theorem keepsHearing_nextTransmitted : Keeps hearing (nextTransmitted : Driver σ TxAnswer) :=
  blind_hearing.nextTransmitted (fun _ => trivial) fun m =>
    congrArg (fun callback => { m.hearing with callback }) m.engine.callback_nextDone

theorem keeps_attend {γ : Type} {view : Machine σ → γ} (hdrain : Keeps view (processReceived c))
    (hreclaim : Keeps view (reclaim c)) (w : EventWord) : Keeps view (attend c w) := by
  unfold attend
  refine Keeps.ite (hdrain.bind fun _ => ?_) ?_
  · exact Keeps.ite (hreclaim.bind fun _ => keeps_pure _) (keeps_pure _)
  · exact Keeps.ite (hreclaim.bind fun _ => keeps_pure _) (keeps_pure _)

theorem keepsHearing_attend (w : EventWord) : Keeps hearing (attend c w) := by
  have hdrain : Keeps hearing (processReceived c) :=
    keepsLife_receiving.processReceived.map fun v : LifeView =>
      Hearing.mk v.callback v.notifier.armed v.notifier.word
  have hreclaim : Keeps hearing (reclaim c) :=
    keeps_reclaim blind_hearing.report (blind_hearing.lookup fun _ _ => trivial)
      (blind_hearing.releaseBuffer fun _ _ => trivial) (fun _ _ => rfl) (fun _ => rfl)
      keepsHearing_nextTransmitted
  exact keeps_attend hdrain hreclaim w

/-- The work of a pass leaves nothing behind unless it is cut short. -/
theorem work_attend {drains₀ reclaims₀ : List Exchange} (w : EventWord) :
    Meets (OnWork (Owing drains₀ reclaims₀ true true)) (attend c w) fun _ =>
      OnWork (Owing drains₀ reclaims₀ (!w.rx) (!w.tx)) := by
  have hreclaim : ∀ rx, Meets (OnWork (Owing drains₀ reclaims₀ rx true)) (do
      if w.tx then
        let _ ← reclaim c : Driver σ Unit) fun _ =>
      OnWork (Owing drains₀ reclaims₀ rx (!w.tx)) := by
    intro rx
    cases w.tx with
    | true => exact work_reclaim.bind fun _ => meets_pure fun _ hm => hm
    | false => exact meets_pure fun _ hm => hm
  unfold attend
  cases w.rx with
  | true => exact work_processReceived.bind fun _ => hreclaim false
  | false => exact hreclaim true

end Driver

namespace Attempt

/-- A pass that does not halt checks the link last. -/
def polled (c : Collaborators σ) (timer : PollTimer) (w : EventWord) (m : Machine σ) :
    Except Failure (EventWord × PollTimer) × Machine σ :=
  (.ok (w, ((Driver.pollIfExpired c timer).run m).1), ((Driver.pollIfExpired c timer).run m).2)

theorem run_serve {timer : PollTimer} {w : EventWord} {m₁ m₂ : Machine σ}
    (hwait : (Driver.wait c taskBlockTime).run m = pure (w, m₁))
    (hattend : ((Driver.attend c w).run m₁).2 = m₂) :
    (serve c timer).run.run m =
      if w.err then
        match DmaFault.ofCode? w.errCode with
        | none => (.error (.halt (.unknownFault w.errCode w.errChannel)), m₂)
        | some fault =>
            polled c timer w { m₂ with log := m₂.log.push (.dmaFault fault w.errChannel) }
      else polled c timer w m₂ := by
  -- What follows the work, on the machine that the work leaves behind.
  have hrest : ∀ m : Machine σ, (do
      if w.err then
        let _ ← reportFault w.errCode w.errChannel
      return (w, ← always (Driver.pollIfExpired c timer)) : Attempt σ _).run.run m =
        if w.err then
          match DmaFault.ofCode? w.errCode with
          | none => (.error (.halt (.unknownFault w.errCode w.errChannel)), m)
          | some fault =>
              polled c timer w { m with log := m.log.push (.dmaFault fault w.errChannel) }
        else polled c timer w m := by
    intro m
    unfold reportFault
    cases w.err with
    | false => rfl
    | true => cases DmaFault.ofCode? w.errCode <;> rfl
  rw [← hattend, ← hrest]
  unfold serve Driver.attend
  rw [run_always_bind, StateT.run_bind, hwait, pure_bind]
  dsimp only
  cases w.rx <;> cases w.tx <;> rfl

end Attempt

namespace SinceWait

theorem attended (h : SinceWait is m) (c : Collaborators σ) :
    ∃ m₁ m₂, (Driver.wait c taskBlockTime).run m = (.gathered (consumed c is m), m₁) ∧
      (Driver.attend c (.gathered (consumed c is m))).run m₁ = ((), m₂) ∧
      m₂.interface.notifier.word = .none ∧
      (m.interface.engineOpen = true →
        (.received ∈ consumed c is m → m₂.engine.completed = [] ∨
          StoppedSince Exchange.stopsDrain m₁.drains m₂.drains) ∧
        (.transmitted ∈ consumed c is m → m₂.interface.notifier.completions.count = 0 ∨
          StoppedSince Exchange.stopsReclaim m₁.reclaims m₂.reclaims)) := by
  obtain ⟨hcallback, harmed, -⟩ := h.hearing_eq
  obtain ⟨hw, hcleared⟩ := h.wait (c := c)
  have hvitals := Driver.keepsVitals_wait (c := c) taskBlockTime m
  rcases hwait : (Driver.wait c taskBlockTime).run m with ⟨w, m₁⟩
  rw [hwait] at hw hcleared hvitals
  obtain rfl : w = .gathered (consumed c is m) := hw
  refine ⟨m₁, _, rfl, rfl, ?_, fun hopen => ?_⟩
  · exact (congrArg Hearing.word (Driver.keepsHearing_attend _ m₁)).trans hcleared
  · have howing : OnWork (Owing m₁.drains m₁.reclaims true true) m₁ := {
      engineOpen := (congrArg Vitals.engineOpen hvitals).trans hopen
      callback := (congrArg Vitals.callback hvitals).trans hcallback
      armed := (congrArg Vitals.armed hvitals).trans harmed
      drains := List.prefix_refl _
      reclaims := List.prefix_refl _
      received := Or.inr (Or.inl rfl)
      transmitted := Or.inr (Or.inl rfl) }
    have hdone := Driver.work_attend (c := c) (.gathered (consumed c is m)) m₁ howing
    constructor
    · intro hreceived
      have hrx := EventWord.rx_gathered.mpr hreceived
      rw [hrx] at hdone
      exact hdone.received.imp_right fun hcut => hcut.resolve_left Bool.false_ne_true
    · intro htransmitted
      have htx := EventWord.tx_gathered.mpr htransmitted
      rw [htx] at hdone
      exact hdone.transmitted.imp_right fun hcut => hcut.resolve_left Bool.false_ne_true

/-- A pass halts exactly if one of the faults that it hears of has a code above seven, however many
others come with it. The word has been cleared by then, and the drain and the reclaim have run to
their ends. -/
theorem serve_halts_iff (h : SinceWait is m) (timer : PollTimer)
    {result : Except Failure (EventWord × PollTimer)}
    (hrun : (Attempt.serve c timer).run.run m = (result, m')) :
    ((∃ halt, result = .error (.halt halt)) ↔
        ∃ code channel, .fault code channel ∈ consumed c is m ∧ 7 < code) ∧
      ∀ failure, result = .error failure → ∃ w m₁,
        (Driver.wait c taskBlockTime).run m = (w, m₁) ∧
        (Driver.attend c w).run m₁ = ((), m') ∧
        failure = .halt (.unknownFault w.errCode w.errChannel) ∧
        m'.interface.notifier.word = .none ∧
        (m.interface.engineOpen = true →
          (.received ∈ consumed c is m → m'.engine.completed = [] ∨
            StoppedSince Exchange.stopsDrain m₁.drains m'.drains) ∧
          (.transmitted ∈ consumed c is m → m'.interface.notifier.completions.count = 0 ∨
            StoppedSince Exchange.stopsReclaim m₁.reclaims m'.reclaims)) := by
  obtain ⟨m₁, m₂, hwait, hattend, hcleared, hdone⟩ := h.attended c
  rw [Attempt.run_serve hwait (congrArg Prod.snd hattend)] at hrun
  rw [← EventWord.unknown_gathered]
  cases hunknown : DmaFault.ofCode? (EventWord.gathered (consumed c is m)).errCode with
  | some fault =>
      -- With a known code the pass goes on, whether or not there was a fault.
      have hok : ∃ served, result = .ok served := by
        rw [hunknown] at hrun
        split at hrun
        · exact ⟨_, (congrArg Prod.fst hrun).symm⟩
        · exact ⟨_, (congrArg Prod.fst hrun).symm⟩
      obtain ⟨served, rfl⟩ := hok
      constructor
      · exact iff_of_false (fun ⟨halt, hhalt⟩ => nomatch hhalt) nofun
      · exact nofun
  | none =>
      have herr : (EventWord.gathered (consumed c is m)).err = true := by
        obtain ⟨code, channel, hfault, -⟩ := EventWord.unknown_gathered.mp hunknown
        exact EventWord.err_gathered.mpr ⟨code, channel, hfault⟩
      rw [herr, hunknown] at hrun
      obtain ⟨rfl, rfl⟩ := Prod.mk.inj hrun
      constructor
      · exact iff_of_true ⟨_, rfl⟩ rfl
      · intro failure hfailure
        exact ⟨_, m₁, hwait, hattend, (Except.error.inj hfailure).symm, hcleared, hdone⟩

end SinceWait

def interruptedMachine (xs : List Arrival) : Machine Arena :=
  ((xs.forM Driver.arrive : Driver Arena Unit).run readyMachine).2

theorem sinceWait_interruptedMachine (xs : List Arrival) :
    SinceWait (Arrival.allInterrupts readyMachine.engine.outstanding xs)
      (interruptedMachine xs) := by
  have hready : SinceWait [] readyMachine :=
    .cleared (by decide +kernel) (by decide +kernel) (by decide +kernel)
  exact hready.arriveAll xs

/-- A frame, a fault that is known and one that is not. -/
def faultsOfBothKinds : List Arrival :=
  [.received ⟨none, 0, 0⟩, .interrupt .received, .interrupt (.fault 3 0), .interrupt (.fault 8 1)]

theorem SinceWait.serve_halts_iff_unknown_fault :
    (∃ halt, ((Attempt.serve (.ofArena (.ok ()) true) ⟨0, 0⟩).run.run
      (interruptedMachine faultsOfBothKinds)).1 = .error (.halt halt)) ∧
    ((Attempt.serve (.ofArena (.ok ()) true) ⟨0, 0⟩).run.run
      (interruptedMachine faultsOfBothKinds)).2.interface.notifier.word = .none := by
  have hpass := (sinceWait_interruptedMachine faultsOfBothKinds).serve_halts_iff
    (c := .ofArena (.ok ()) true) ⟨0, 0⟩ rfl
  obtain ⟨halt, hhalt⟩ := hpass.1.mpr ⟨8, 1, by decide, by decide⟩
  obtain ⟨w, m₁, -, -, -, hcleared, -⟩ := hpass.2 _ hhalt
  exact ⟨⟨halt, hhalt⟩, hcleared⟩

namespace SinceWait

/-- A pass reports one fault for all that it hears of: its code has the bits of all their codes and
its channel those of all their channels. It is one of them exactly if one of them has all bits. -/
theorem serve_reports_merged (h : SinceWait is m) (c : Collaborators σ) (timer : PollTimer)
    (hfault : ∃ code channel, .fault code channel ∈ consumed c is m) :
    ∃ w m₁ m₂, (Driver.wait c taskBlockTime).run m = (w, m₁) ∧
      (Driver.attend c w).run m₁ = ((), m₂) ∧
      w.errCode = merged ((Interrupt.faults (consumed c is m)).map Prod.fst) ∧
      w.errChannel = merged ((Interrupt.faults (consumed c is m)).map Prod.snd) ∧
      (Attempt.serve c timer).run.run m = (match DmaFault.ofCode? w.errCode with
        | none => (.error (.halt (.unknownFault w.errCode w.errChannel)), m₂)
        | some fault => Attempt.polled c timer w { m₂ with
            log := m₂.log.push (.dmaFault fault w.errChannel) }) ∧
      (.fault w.errCode w.errChannel ∈ consumed c is m ↔
        ∃ code channel, .fault code channel ∈ consumed c is m ∧
          ∀ code' channel', .fault code' channel' ∈ consumed c is m →
            code' ||| code = code ∧ channel' ||| channel = channel) := by
  obtain ⟨m₁, m₂, hwait, hattend, -, -⟩ := h.attended c
  refine ⟨_, m₁, m₂, hwait, hattend, EventWord.errCode_gathered _,
    EventWord.errChannel_gathered _, ?_, EventWord.fault_gathered_mem_iff⟩
  rw [Attempt.run_serve hwait (congrArg Prod.snd hattend), EventWord.err_gathered.mpr hfault]
  rfl

end SinceWait

/-- A stopped transmit channel and a stopped receive channel are reported as a missing buffer. -/
theorem SinceWait.serve_reports_merged_two_stops :
    ∃ w m₁, (Driver.wait (.ofArena (.ok ()) true) taskBlockTime).run
        (interruptedMachine [.interrupt (.fault 1 0), .interrupt (.fault 2 0)]) = (w, m₁) ∧
      w.errCode = DmaFault.txBufUnavailable.code ∧
      Interrupt.fault w.errCode w.errChannel ∉
        [Interrupt.fault DmaFault.txStopped.code 0, .fault DmaFault.rxStopped.code 0] := by
  have hsince := sinceWait_interruptedMachine [.interrupt (.fault 1 0), .interrupt (.fault 2 0)]
  obtain ⟨w, m₁, m₂, hwait, -, hcode, -, -, hmem⟩ :=
    hsince.serve_reports_merged (.ofArena (.ok ()) true) ⟨0, 0⟩ ⟨1, 0, by decide⟩
  refine ⟨w, m₁, hwait, hcode, fun hreported => ?_⟩
  obtain ⟨code, channel, hfault, hcovers⟩ := hmem.mp hreported
  have hfirst := hcovers 1 0 (by decide)
  have hsecond := hcovers 2 0 (by decide)
  rcases List.mem_cons.mp hfault with heq | hrest
  · cases heq
    exact absurd hsecond.1 (by decide)
  · cases List.mem_singleton.mp hrest
    exact absurd hfirst.1 (by decide)

end XgmacDriver
