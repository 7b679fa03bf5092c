import XgmacDriver.Proofs.StageRules

/-! # A rule for bring-up

Stages run one after the other for as long as they complete. `BringUpOutline` has one assertion for
each point at which a stage begins or ends. If every working stage leads from its turn to the point
that its end stands for, a call of `initialise` leads from the turn of the stage that it enters to
the point at which its stages end.
-/

namespace XgmacDriver

variable {σ : Type} {c : Collaborators σ}

theorem Stage.entry_ne_failed (s : Stage) : s.entry ≠ .failed := by
  cases s <;> nofun

theorem Stage.next_done {s : Stage} (h : s.isTerminal = false) :
    s.next .done = s.successor ∧ s.successor ≠ s := by
  cases s <;> simp [next, isTerminal, successor] at h ⊢

theorem Stage.successor_ne_failed {s : Stage} (h : s.isTerminal = false) :
    s.successor ≠ .failed := by
  cases s <;> simp [isTerminal, successor] at h ⊢

namespace Attempt

variable {I R : Stage → Machine σ → Prop} {E F : Failure → Machine σ → Prop}

/-- Stages are run by recursion on the number of those left. A stage that stays where it is must
have established what is to hold at the end. -/
theorem meets_runStages
    (hreport : ∀ s entry, Driver.Meets (I s) (Driver.report entry) fun _ => I s)
    (hend : ∀ s m, s.isTerminal = true → I s m → R s m)
    (hstage : ∀ s, s.isTerminal = false → Meets (I s) (runStageOrFail c s)
      (fun outcome => if s.next outcome = s then R s else I (s.next outcome)) E) (s : Stage) :
    Meets (I s) (runStages c s) R E := by
  induction hn : s.remaining using Nat.strongRecOn generalizing s with
  | ind n ih =>
      subst hn
      rw [runStages]
      apply Meets.ite
      · intro hterminal
        exact meets_pure fun m hm => hend s m hterminal hm
      · intro hworking
        have hworking : s.isTerminal = false := by simpa using hworking
        refine (hstage s hworking).bind fun outcome => ?_
        by_cases hnext : s.next outcome = s
        · rw [dif_pos hnext, if_pos hnext]
          exact meets_pure fun _ hm => hm
        · rw [dif_neg hnext, if_neg hnext]
          have hrest := ih _ (Stage.remaining_next_lt hnext) _ rfl
          apply Meets.ite
          · intro _
            refine Meets.bind (meets_always (Driver.meets_interface.post fun _ _ hm => hm.1)) ?_
            intro i
            exact Meets.bind (meets_always (hreport _ _)) fun _ => hrest
          · intro _
            exact hrest

theorem meets_runStageOrFail {P : Machine σ → Prop} {Q : StageOutcome → Machine σ → Prop}
    (s : Stage) (hstage : Meets P (runStage c s) Q F)
    (hreport : ∀ e entry, Driver.Meets (F (.error e)) (Driver.report entry) fun _ => F (.error e))
    (hfailed : ∀ e m, F (.error e) m →
      E (.error (.initFailed s)) { m with interface := m.interface.withStage .failed })
    (hhalt : ∀ h m, F (.halt h) m → E (.halt h) m) :
    Meets P (runStageOrFail c s) Q E := by
  unfold runStageOrFail
  refine Meets.bind (R := Outcome Q F)
    (meets_always (show Driver.Meets P (runStage c s).run (Outcome Q F) from hstage)) ?_
  rintro ((e | h) | outcome)
  · refine Meets.bind (meets_always (hreport e _)) fun _ => ?_
    refine Meets.bind (R := fun _ => E (.error (.initFailed s))) ?_ fun _ => ?_
    · exact fun m hm => hfailed e m hm
    · exact meets_fail fun _ hm => hm
  · exact meets_halt fun m hm => hhalt h m hm
  · exact meets_pure fun _ hm => hm

theorem meets_initialise {P : Machine σ → Prop} {Q : Unit → Machine σ → Prop}
    (hstages : ∀ s, Meets (fun m => P m ∧ m.interface.stage.entry = s) (runStages c s) R E)
    (hready : ∀ m, R .ready m → Q () { m with interface := m.interface.withStage .ready })
    (hwait : ∀ t m, t ≠ .ready → t ≠ .failed → R t m →
      E (.error .linkDown) { m with interface := m.interface.withStage t })
    (hfailed : ∀ m, R .failed m →
      E (.error (.initFailed .failed)) { m with interface := m.interface.withStage .failed }) :
    Meets P (initialise c) Q E := by
  unfold initialise
  refine Meets.bind (meets_always Driver.meets_interface) fun i => ?_
  refine Meets.bind (R := R) ((hstages i.stage.entry).pre ?_) fun reached => ?_
  · rintro m ⟨hm, rfl⟩
    exact ⟨hm, rfl⟩
  · cases reached with
    | ready => exact fun m hm => hready m hm
    | failed => exact fun m hm => hfailed m hm
    | _ => exact fun m hm => hwait _ m nofun nofun hm

end Attempt

structure BringUpOutline (σ : Type) where
  /-- When it is the turn of a stage. -/
  inTurn : Stage → Machine σ → Prop
  /-- When the link has been waited for in vain. -/
  waiting : Machine σ → Prop
  /-- When the work of a stage has failed. -/
  failed : Stage → Failure → Machine σ → Prop

namespace BringUpOutline

open Attempt

variable {B : BringUpOutline σ}

def after (B : BringUpOutline σ) (s : Stage) : StageOutcome → Machine σ → Prop
  | .done => B.inTurn s.successor
  | .pending => fun m => s = .linkWait ∧ B.waiting m
  | .failed => fun _ => False

def ended (B : BringUpOutline σ) : Stage → Machine σ → Prop
  | .ready => B.inTurn .ready
  | .linkWait => B.waiting
  | _ => fun _ => False

structure Sound (B : BringUpOutline σ) (c : Collaborators σ) : Prop where
  stage : ∀ s, s.isTerminal = false → Meets (B.inTurn s) (runStage c s) (B.after s) (B.failed s)
  report : ∀ s entry, Driver.Meets (B.inTurn s) (Driver.report entry) fun _ => B.inTurn s
  report_failed : ∀ s e entry, Driver.Meets (B.failed s (.error e)) (Driver.report entry) fun _ =>
    B.failed s (.error e)

theorem meets_runStage
    (hengine : Meets (B.inTurn .engineInit) (openEngine c) (fun _ => B.inTurn .linkPartnerInit)
      (B.failed .engineInit))
    (hpartner : Meets (B.inTurn .linkPartnerInit) (initLinkPartner c)
      (fun _ => B.inTurn .transferInit) (B.failed .linkPartnerInit))
    (htransfer : Meets (B.inTurn .transferInit) (initTransfer c) (fun _ => B.inTurn .engineStart)
      (B.failed .transferInit))
    (hstart : Meets (B.inTurn .engineStart) (startEngine c) (fun _ => B.inTurn .linkWait)
      (B.failed .engineStart))
    (hlink : Meets (B.inTurn .linkWait) (awaitLink c)
      (fun up => if up then B.inTurn .ready else B.waiting) (B.failed .linkWait)) (s : Stage)
    (hs : s.isTerminal = false) :
    Meets (B.inTurn s) (runStage c s) (B.after s) (B.failed s) := by
  cases s with
  | engineInit => exact hengine.bind fun _ => meets_pure fun _ hm => hm
  | linkPartnerInit => exact hpartner.bind fun _ => meets_pure fun _ hm => hm
  | transferInit => exact htransfer.bind fun _ => meets_pure fun _ hm => hm
  | engineStart => exact hstart.bind fun _ => meets_pure fun _ hm => hm
  | linkWait =>
      refine hlink.bind fun up => meets_pure fun m hm => ?_
      cases up with
      | true => exact hm
      | false => exact ⟨rfl, hm⟩
  | ready | failed => cases hs

namespace Sound

variable {E : Failure → Machine σ → Prop} (h : B.Sound c)
  (hfailed : ∀ s e m, s.isTerminal = false → B.failed s (.error e) m →
    E (.error (.initFailed s)) { m with interface := m.interface.withStage .failed })
  (hhalt : ∀ s e m, B.failed s (.halt e) m → E (.halt e) m)
include h hfailed hhalt

theorem runStages {s : Stage} (hs : s ≠ .failed) :
    Meets (B.inTurn s) (runStages c s) B.ended E := by
  -- No stage is followed by `failed`, so of the terminal stages only `ready` is ever reached.
  have hrule : Meets (fun m => s ≠ .failed ∧ B.inTurn s m) (Attempt.runStages c s) B.ended E := by
    refine meets_runStages (I := fun s m => s ≠ .failed ∧ B.inTurn s m)
      (fun s entry m hm => ⟨hm.1, h.report s entry m hm.2⟩) ?_ (fun s hworking => ?_) s
    · rintro s m hterminal ⟨hs, hm⟩
      obtain rfl := (Stage.isTerminal_iff.mp hterminal).resolve_right hs
      exact hm
    · refine Meets.pre (P := B.inTurn s) ?_ fun _ hm => hm.2
      refine (meets_runStageOrFail s (h.stage s hworking) (h.report_failed s)
        (fun e m hm => hfailed s e m hworking hm) (hhalt s)).post ?_
      rintro (_ | _ | _) m hm
      · rw [(Stage.next_done hworking).1, if_neg (Stage.next_done hworking).2]
        exact ⟨Stage.successor_ne_failed hworking, hm⟩
      · obtain ⟨rfl, hm⟩ := hm
        exact hm
      · exact hm.elim
  exact hrule.pre fun _ hm => ⟨hs, hm⟩

/-- A call ends at the stage at which its stages ended: it is ready, or it waits for the link. -/
theorem initialise {P : Machine σ → Prop} {Q : Unit → Machine σ → Prop}
    (hentry : ∀ m, P m → B.inTurn m.interface.stage.entry m)
    (hready : ∀ m, B.inTurn .ready m → Q () { m with interface := m.interface.withStage .ready })
    (hwait : ∀ m, B.waiting m →
      E (.error .linkDown) { m with interface := m.interface.withStage .linkWait }) :
    Meets P (initialise c) Q E := by
  refine meets_initialise (R := B.ended) (fun s => ?_) hready (fun t m hready hfailed hm => ?_)
    fun _ hm => hm.elim
  · rintro m ⟨hm, rfl⟩
    exact h.runStages hfailed hhalt m.interface.stage.entry_ne_failed m (hentry m hm)
  · cases t with
    | linkWait => exact hwait m hm
    | ready => exact absurd rfl hready
    | _ => exact hm.elim

end Sound

end BringUpOutline

/-! ## Calls that run through -/

namespace Attempt

theorem run_runStages_of_done {s : Stage} {m m' : Machine σ} (hs : s.isTerminal = false)
    (hnext : s.successor ≠ .ready) (hrun : (runStage c s).run.run m = pure (.ok .done, m')) :
    (runStages c s).run.run m = (runStages c s.successor).run.run m' := by
  obtain ⟨hdone, hne⟩ := Stage.next_done hs
  have hstage : (runStageOrFail c s).run.run m = pure (.ok .done, m') := by
    simp only [runStageOrFail, run_always_bind, StateT.run_bind, hrun]
    rfl
  rw [runStages, if_neg (by simp [hs]), ExceptT.run_bind, StateT.run_bind, hstage, pure_bind]
  simp [hdone, hne, hnext]

theorem run_initialise_of_ready {m m' : Machine σ}
    (hrun : (runStages c m.interface.stage.entry).run.run m = pure (.ok .ready, m')) :
    (initialise c).run.run m =
      pure (.ok (), { m' with interface := m'.interface.withStage .ready }) := by
  unfold initialise
  simp [setStage, ExceptT.run_bind, StateT.run_bind, hrun]

/-- What a stage makes of two machines alike, all stages from it on do. -/
theorem run_runStages_congr {s : Stage} {m m' : Machine σ} (hs : s.isTerminal = false)
    (hrun : (runStage c s).run.run m = (runStage c s).run.run m') :
    (runStages c s).run.run m = (runStages c s).run.run m' := by
  have hstage : (runStageOrFail c s).run.run m = (runStageOrFail c s).run.run m' := by
    simp only [runStageOrFail, run_always_bind, StateT.run_bind, hrun]
  rw [runStages, if_neg (by simp [hs]), ExceptT.run_bind, StateT.run_bind, StateT.run_bind, hstage]

/-- The machine after the first two stages. -/
def beforeTransfer (c : Collaborators σ) (m : Machine σ) : Machine σ :=
  ((runStage c .linkPartnerInit).run.run ((runStage c .engineInit).run.run m).2).2

/-- The machine after all stages from the third one on. -/
def afterTransfer (c : Collaborators σ) (m : Machine σ) : Machine σ :=
  let m' := ((runStages c .transferInit).run.run m).2
  { m' with interface := m'.interface.withStage .ready }

/-- Another machine may be put in before the third stage, if the stage does not tell them apart. -/
theorem run_initialise_of_transfer {m m' : Machine σ}
    (hentry : m.interface.stage.entry = .engineInit)
    (hengine : ((runStage c .engineInit).run.run m).1 = .ok .done)
    (hpartner : ((runStage c .linkPartnerInit).run.run
      ((runStage c .engineInit).run.run m).2).1 = .ok .done)
    (htransfer : (runStage c .transferInit).run.run (beforeTransfer c m) =
      (runStage c .transferInit).run.run m')
    (hrest : ((runStages c .transferInit).run.run m').1 = .ok .ready) :
    (initialise c).run.run m = pure (.ok (), afterTransfer c m') := by
  refine run_initialise_of_ready ?_
  rw [hentry]
  calc
    (runStages c .engineInit).run.run m =
        (runStages c .linkPartnerInit).run.run ((runStage c .engineInit).run.run m).2 :=
      run_runStages_of_done rfl nofun (Prod.ext hengine rfl)
    _ = (runStages c .transferInit).run.run (beforeTransfer c m) :=
      run_runStages_of_done rfl nofun (Prod.ext hpartner rfl)
    _ = (runStages c .transferInit).run.run m' := run_runStages_congr rfl htransfer
    _ = pure (.ok .ready, ((runStages c .transferInit).run.run m').2) := Prod.ext hrest rfl

/-- If frames are copied in one direction only, the stage ends as if that pool had been there. -/
theorem run_transferInit_of_create {m : Machine σ} {d : Direction} {p : Pool}
    (hopen : m.interface.engineOpen = true)
    (htx : m.interface.config.zeroCopyTx = decide (d = .rx))
    (hrx : m.interface.config.zeroCopyRx = decide (d = .tx))
    (hvacant : (m.interface.pool d).isInitialized = false)
    (hcreate : (m.interface.pool d).create (c.allocate d m.world) = (.ok (), p))
    (hp : p.isInitialized = true) : (runStage c .transferInit).run.run m =
      (runStage c .transferInit).run.run { m with interface := m.interface.setPool p d } := by
  cases d with
  | tx | rx =>
      simp only [Interface.pool] at hvacant hcreate
      simp [runStage, initTransfer, requireEngine, ensurePool, hopen, htx, hrx, hvacant, hp,
        hcreate, Interface.pool, Interface.setPool, ExceptT.run_bind, StateT.run_bind]

end Attempt

end XgmacDriver
