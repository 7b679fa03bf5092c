import XgmacDriver.Proofs.BringUpFailure
import XgmacDriver.Proofs.BringUpHistory
import XgmacDriver.Proofs.BringUpVitals

/-! # The life of an interface

From its registration on an interface lives through calls of `initialise`, output, interrupts and
passes of the task, in any order and with any answers of the collaborators. Between them its stage,
the arming of the notifier, the task and the last result of `initialise` tell the same story.
-/

namespace XgmacDriver

open LifeView

variable {σ : Type} {c : Collaborators σ} {last : Option (Machine σ)} {m m' : Machine σ}

/-- What happens to an interface other than a call of `initialise`. The task has to exist before it
makes a pass, and what happens elsewhere leaves the driver and the engine alone. -/
inductive Between (c : Collaborators σ) (m : Machine σ) : Machine σ → Prop
  | event {e : TxEvent} : (∀ timer, e = .serve timer → m.interface.task.isSome = true) →
      Between c m (e.run c m)
  | elsewhere {m' : Machine σ} : m'.interface = m.interface → m'.engine = m.engine →
      m'.trace = m.trace → Between c m m'

/-- The machines of a life, each with the machine on which `initialise` was called last. -/
inductive Lifetime (c : Collaborators σ) : Option (Machine σ) → Machine σ → Prop
  | registered {index : UInt8} {config : Config} {interface : Interface} {clock : Clock}
      {memory : Memory} {log : Array LogEntry} {world : σ} :
      Interface.register index config = .ok interface →
      Lifetime c none { interface, engine := {}, clock, memory, trace := #[], log, world }
  | initialise {last : Option (Machine σ)} {m : Machine σ} : Lifetime c last m →
      Lifetime c (some m) ((Attempt.initialise c).run.run m).2
  | between {last : Option (Machine σ)} {m m' : Machine σ} : Lifetime c last m →
      Between c m m' → Lifetime c last m'

/-- The same life at a later time. -/
inductive Later (c : Collaborators σ) (m : Machine σ) : Machine σ → Prop
  | now : Later c m m
  | initialise {m' : Machine σ} : Later c m m' →
      Later c m ((Attempt.initialise c).run.run m').2
  | between {m' m'' : Machine σ} : Later c m m' → Between c m' m'' → Later c m m''

/-- How the last call of `initialise` has left an interface. -/
inductive LeftBy (c : Collaborators σ) : Option (Machine σ) → Machine σ → Prop
  | untried {m : Machine σ} : m.interface.stage = .engineInit → OnLife Quiet m → LeftBy c none m
  | waiting {m₀ m : Machine σ} : m.interface.stage = .linkWait → OnLife Working m →
      ((Attempt.initialise c).run.run m₀).1 = .error (.error .linkDown) → LeftBy c (some m₀) m
  | failed {m₀ m : Machine σ} {s : Stage} : m.interface.stage = .failed → OnLife Quiet m →
      s.isTerminal = false →
      ((Attempt.initialise c).run.run m₀).1 = .error (.error (.initFailed s)) →
      LeftBy c (some m₀) m
  | ready {m₀ m : Machine σ} {handle : UInt32} : m.interface.stage = .ready →
      m.vitals.Commissioned handle → ((Attempt.initialise c).run.run m₀).1 = .ok () →
      LeftBy c (some m₀) m

theorem Attempt.initialise_of_ready (hstage : m.interface.stage = .ready) :
    (initialise c).run.run m = (.ok (), m) := by
  rcases hrun : (initialise c).run.run m with ⟨f | ⟨⟩, m'⟩
  · exact ((ready_initialise hstage).outcome rfl hrun).elim
  · obtain rfl := (ready_initialise hstage).outcome rfl hrun
    rfl

theorem Between.vitals (h : Between c m m') : m'.vitals = m.vitals := by
  cases h with
  | event _ => exact TxEvent.vitals_run _ m
  | elsewhere hinterface hengine htrace =>
      exact Machine.blind_vitals.congr hinterface hengine htrace

/-- Nothing happens to the task or to the notifier of an interface that is ready. -/
theorem Later.vitals (h : Later c m m') (hready : m.interface.stage = .ready) :
    m'.vitals = m.vitals := by
  induction h with
  | now => rfl
  | @initialise m' _ ih =>
      have hstage : m'.interface.stage = .ready := (congrArg Vitals.stage ih).trans hready
      rw [Attempt.initialise_of_ready hstage]
      exact ih
  | between _ hstep ih => exact hstep.vitals.trans ih

namespace LeftBy

theorem between (h : LeftBy c last m) (hstep : Between c m m') : LeftBy c last m' := by
  have hvitals := hstep.vitals
  have hstage : m'.interface.stage = m.interface.stage := congrArg Vitals.stage hvitals
  have hlife : OnLife Unserved m → m'.life = m.life := by
    intro hm
    cases hstep with
    | event hserve =>
        refine TxEvent.life_run hm.notifier fun timer he => ?_
        have htask : m.interface.task = none := hm.task
        simpa [htask] using hserve timer he
    | elsewhere hi he ht => exact Machine.blind_life.congr hi he ht
  cases h with
  | untried hs hm =>
      refine .untried (hstage.trans hs) ?_
      rwa [OnLife, hlife hm.toUnserved]
  | waiting hs hm hresult =>
      refine .waiting (hstage.trans hs) ?_ hresult
      rwa [OnLife, hlife hm.toUnserved]
  | failed hs hm hterminal hresult =>
      refine .failed (hstage.trans hs) ?_ hterminal hresult
      rwa [OnLife, hlife hm.toUnserved]
  | ready hs hm hresult => exact .ready (hstage.trans hs) (hvitals ▸ hm) hresult

theorem call {s : Stage} (hentry : m.interface.stage.entry = s) (hm : OnLife (InTurn s) m) :
    LeftBy c (some m) ((Attempt.initialise c).run.run m).2 := by
  rcases hrun : (Attempt.initialise c).run.run m with ⟨f | ⟨⟩, m'⟩
  · rcases Attempt.life_initialise.outcome (hentry ▸ hm) hrun with
      ⟨rfl, hstage, hworking⟩ | ⟨s, hs, rfl, hstage, hquiet⟩
    · exact .waiting hstage hworking (by rw [hrun])
    · exact .failed hstage hquiet hs (by rw [hrun])
  · obtain ⟨hstage, handle, hready⟩ := Attempt.life_initialise.outcome (hentry ▸ hm) hrun
    exact .ready hstage hready (by rw [hrun])

theorem initialise (h : LeftBy c last m) :
    LeftBy c (some m) ((Attempt.initialise c).run.run m).2 := by
  cases h with
  | untried hs hm => exact call (s := .engineInit) (by rw [hs]; rfl) hm
  | waiting hs hm _ => exact call (s := .linkWait) (by rw [hs]; rfl) hm
  | failed hs hm _ _ => exact call (s := .engineInit) (by rw [hs]; rfl) hm
  | ready hs hm _ =>
      have hrun := Attempt.initialise_of_ready (c := c) hs
      rw [hrun]
      exact .ready hs hm (by rw [hrun])

end LeftBy

theorem Lifetime.leftBy (h : Lifetime c last m) : LeftBy c last m := by
  induction h with
  | registered hregister =>
      obtain rfl := Interface.eq_of_register hregister
      have hrefused : ∀ v : LifeView, v.signs = [] → ¬v.TaskRefused := by
        intro v hv hlast
        rw [TaskRefused, hv] at hlast
        cases hlast
      refine .untried rfl (Quiet.mk (Unserved.mk rfl rfl ?_ ?_ ?_) ?_ ?_)
      · exact fun x hx => absurd hx List.not_mem_nil
      · exact Pool.intact_blank.mpr (.new "Tx")
      · exact Pool.intact_blank.mpr (.new "Rx")
      · exact iff_of_false (by decide : ¬linkUp 0 = true) (hrefused _ rfl)
      · exact fun h => absurd h (hrefused _ rfl)
  | initialise _ ih => exact ih.initialise
  | between _ hstep ih => exact ih.between hstep

/-- The stage, the notifier, the task and the last result tell the same story. -/
structure Consistent (c : Collaborators σ) (last : Option (Machine σ)) (m : Machine σ) : Prop where
  engineInit : m.interface.stage = .engineInit ↔ last = none
  stage : last ≠ none →
    m.interface.stage = .linkWait ∨ m.interface.stage = .ready ∨ m.interface.stage = .failed
  ready_iff_armed : m.interface.stage = .ready ↔ m.interface.notifier.armed = true
  ready_iff_task : m.interface.stage = .ready ↔ m.interface.task.isSome = true
  ready_iff_spawned : m.interface.stage = .ready ↔ m.spawned.length = 1
  task : m.interface.task.toList = m.spawned
  ok : ∀ m₀ ∈ last, ((Attempt.initialise c).run.run m₀).1 = .ok () ↔ m.interface.stage = .ready
  linkDown : ∀ m₀ ∈ last, ((Attempt.initialise c).run.run m₀).1 = .error (.error .linkDown) ↔
    m.interface.stage = .linkWait
  failed : ∀ m₀ ∈ last, m.interface.stage ≠ .ready → m.interface.stage ≠ .linkWait →
    ∃ s : Stage, s.isTerminal = false ∧ Attempt.FailsIn c m₀ s ∧
      ((Attempt.initialise c).run.run m₀).1 = .error (.error (.initFailed s))
  unarmed : m.interface.notifier.armed = false →
    m.interface.notifier.word = .none ∧ m.interface.notifier.completions.count = 0
  finished : m.interface.stage = .ready → ∀ m', Later c m m' →
    (Attempt.initialise c).run.run m' = (.ok (), m')

theorem Machine.spawned_eq (m : Machine σ) :
    m.spawned = m.vitals.spawns.flatMap Exchange.spawned := by
  have hlist : ∀ es : List Exchange, es.flatMap Exchange.spawned =
      ((es.filter Exchange.isSign).filter Exchange.isSpawn).flatMap Exchange.spawned := by
    intro es
    induction es with
    | nil => rfl
    | cons x es ih =>
        rw [List.flatMap_cons, ih]
        cases x <;> rfl
  exact hlist _

theorem Vitals.Commissioned.spawned {handle : UInt32} (h : m.vitals.Commissioned handle) :
    m.spawned = [handle] := by
  obtain ⟨refused, spec, hspawns, hrefused⟩ := h.spawns
  have hnone : refused.flatMap Exchange.spawned = [] := by
    refine List.flatMap_eq_nil_iff.mpr fun x hx => ?_
    exact Exchange.spawned_of_isRefusedSpawn (hrefused x hx)
  rw [Machine.spawned_eq, hspawns, List.flatMap_append, hnone]
  rfl

theorem LifeView.Unserved.spawned (h : m.life.Unserved) : m.spawned = [] := by
  rw [Machine.spawned_eq]
  refine List.flatMap_eq_nil_iff.mpr fun x hx => ?_
  obtain ⟨hsign, hspawn⟩ := List.mem_filter.mp hx
  exact Exchange.spawned_of_isRefusedSpawn (h.spawns x hsign hspawn)

theorem LifeView.Unserved.idle (h : m.life.Unserved) :
    m.interface.notifier = .new poolSlots ∧ m.interface.task = none ∧ m.spawned = [] :=
  ⟨h.notifier, h.task, h.spawned⟩

namespace LeftBy

theorem served (h : LeftBy c last m) :
    m.interface.stage = .ready ∧ (∃ handle, m.vitals.Commissioned handle) ∨
      m.interface.stage ≠ .ready ∧ m.life.Quiet := by
  cases h with
  | untried hs hm => exact Or.inr ⟨by simp [hs], hm⟩
  | waiting hs hm _ => exact Or.inr ⟨by simp [hs], hm.toQuiet⟩
  | failed hs hm _ _ => exact Or.inr ⟨by simp [hs], hm⟩
  | ready hs hm _ => exact Or.inl ⟨hs, _, hm⟩

end LeftBy

theorem Lifetime.consistent (h : Lifetime c last m) : Consistent c last m := by
  have hleft := h.leftBy
  have hserved := hleft.served
  refine ⟨?_, ?_, ?_, ?_, ?_, ?_, ?_, ?_, ?_, ?_, ?_⟩
  · cases hleft <;> simp [*]
  · cases hleft <;> simp [*]
  · rcases hserved with ⟨hs, handle, hm⟩ | ⟨hs, hm⟩
    · exact iff_of_true hs hm.armed
    · rw [hm.idle.1]
      exact iff_of_false hs nofun
  · rcases hserved with ⟨hs, handle, hm⟩ | ⟨hs, hm⟩
    · have htask : m.interface.task = some handle := hm.task
      exact iff_of_true hs (by rw [htask]; rfl)
    · rw [hm.idle.2.1]
      exact iff_of_false hs nofun
  · rcases hserved with ⟨hs, handle, hm⟩ | ⟨hs, hm⟩
    · exact iff_of_true hs (by rw [hm.spawned]; rfl)
    · rw [hm.spawned]
      exact iff_of_false hs nofun
  · rcases hserved with ⟨hs, handle, hm⟩ | ⟨hs, hm⟩
    · have htask : m.interface.task = some handle := hm.task
      rw [htask, hm.spawned]
      rfl
    · rw [hm.idle.2.1, hm.spawned]
      rfl
  · rintro m₀ hm₀
    cases hleft <;> cases hm₀ <;> simp [*]
  · rintro m₀ hm₀
    cases hleft <;> cases hm₀ <;> simp [*]
  · rintro m₀ hm₀ hready hwait
    cases hleft with
    | untried _ _ => cases hm₀
    | waiting hs _ _ => exact absurd hs hwait
    | ready hs _ _ => exact absurd hs hready
    | @failed _ _ s hs _ hterminal hresult =>
        obtain rfl := Option.mem_some_iff.mp hm₀
        refine ⟨s, hterminal, ?_, hresult⟩
        refine Attempt.failsIn_of_initialise ?_ (Prod.ext hresult rfl)
        rintro rfl
        cases hterminal
  · intro harmed
    rcases hserved with ⟨hs, handle, hm⟩ | ⟨hs, hm⟩
    · exact absurd (harmed.symm.trans hm.armed) nofun
    · rw [hm.idle.1]
      exact ⟨rfl, rfl⟩
  · intro hready m' hlater
    refine Attempt.initialise_of_ready ?_
    exact (congrArg Vitals.stage (hlater.vitals hready)).trans hready

def connectedMachine : Machine Nat := ((Attempt.initialise lateLink).run.run waitingMachine).2

/-- A call that fails, one that finds the link down and one that succeeds. -/
theorem Lifetime.consistent_three_calls :
    (∃ s, Attempt.FailsIn lateLink registeredMachine s) ∧
      connectedMachine.interface.notifier.armed = true ∧ connectedMachine.spawned.length = 1 := by
  have hregister : Interface.register 0 .zeroCopy = .ok registeredMachine.interface := rfl
  have hrefused : Lifetime lateLink (some registeredMachine) refusedMachine :=
    (Lifetime.registered hregister).initialise
  have hwaiting : Lifetime lateLink (some refusedMachine) waitingMachine :=
    hrefused.initialise.between (.elsewhere rfl rfl rfl)
  have hconnected := hwaiting.initialise.consistent
  have hstage : connectedMachine.interface.stage = .ready := by decide +kernel
  refine ⟨?_, hconnected.ready_iff_armed.mp hstage, hconnected.ready_iff_spawned.mp hstage⟩
  obtain ⟨s, -, hfails, -⟩ :=
    hrefused.consistent.failed registeredMachine rfl (by decide +kernel) (by decide +kernel)
  exact ⟨s, hfails⟩

theorem Vitals.Commissioned.not_taskRefused {handle : UInt32} (h : m.vitals.Commissioned handle) :
    ¬m.life.TaskRefused := by
  intro hrefused
  obtain ⟨x, hlast, hx⟩ := (Option.any_eq_true _ _).mp hrefused
  obtain ⟨spec, rfl⟩ := Exchange.eq_spawn_of_isRefusedSpawn hx
  obtain ⟨signs, hsigns⟩ := List.getLast?_eq_some_iff.mp hlast
  obtain ⟨refused, spec', hspawns, -⟩ := h.spawns
  have hfilter : m.vitals.spawns = signs.filter Exchange.isSpawn ++ [.spawn spec none] := by
    show m.life.signs.filter Exchange.isSpawn = _
    rw [hsigns, List.filter_append]
    rfl
  have heq := (List.append_inj' (hspawns.symm.trans hfilter) rfl).2
  cases heq

/-- Output submits frames although no interrupt gets through exactly if the last sign is a refusal
to create the task: the link was found up before, and it is not read again until the next call of
`initialise` gets that far. -/
theorem Lifetime.unheard_iff (h : Lifetime c last m) :
    (m.interface.engineOpen = true ∧ m.interface.linkIsUp = true ∧
        m.interface.notifier.armed = false) ↔
      m.signs.getLast?.any Exchange.isRefusedSpawn = true := by
  rcases h.leftBy.served with ⟨-, handle, hm⟩ | ⟨-, hm⟩
  · refine iff_of_false ?_ hm.not_taskRefused
    rintro ⟨-, -, harmed⟩
    exact absurd (harmed.symm.trans hm.armed) nofun
  · constructor
    · rintro ⟨-, hlink, -⟩
      exact hm.link.mp hlink
    · intro hrefused
      refine ⟨hm.engineOpen hrefused, hm.link.mpr hrefused, ?_⟩
      rw [hm.idle.1]
      rfl

/-- A scheduler that creates no task. -/
def withoutTask : Collaborators Arena :=
  { Collaborators.ofArena (.ok ()) true with spawn := fun _ a => (none, a) }

def taskRefusedMachine : Machine Arena :=
  ((Attempt.initialise withoutTask).run.run freshMachine).2

theorem Lifetime.unheard_iff_task_refused :
    taskRefusedMachine.interface.engineOpen = true ∧
      taskRefusedMachine.interface.linkIsUp = true ∧
      taskRefusedMachine.interface.notifier.armed = false := by
  have hregister : Interface.register 0 { zeroCopyRx := true } = .ok _ := rfl
  have hlife : Lifetime withoutTask (some freshMachine) taskRefusedMachine :=
    (Lifetime.registered hregister).initialise
  exact hlife.unheard_iff.mpr (by decide +kernel)

end XgmacDriver
