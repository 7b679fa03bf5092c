import XgmacDriver.Proofs.BringUpCalls

/-! # The order of bring-up

A call of `initialise` either starts over with a new engine or resumes where only the link was
missing. Either way it goes on with the script on the engine opened last, and a new engine is opened
exactly after a failure.
-/

namespace XgmacDriver

variable {σ : Type}

/-- The opening of an engine, and the calls until the next one. -/
structure Opening where
  index : UInt8
  opened : Bool
  calls : List Exchange

namespace Opening

def exchanges (o : Opening) : List Exchange := .openEmac o.index o.opened :: o.calls

structure Orderly (c : Collaborators σ) (o : Opening) : Prop where
  calls : ∃ w, InOrder (c.rxDescriptors w) o.calls
  unopened : o.opened = false → o.calls = []

end Opening

variable {c : Collaborators σ} {start : Stage} {before es : List Exchange}
  {operations : List String} {P : List Exchange → Prop} {E : Failure → Machine σ → Prop} {w : σ}

theorem Accepted.settingUp {n : Nat} (h : Accepted operations es)
    (hscript : operations <+: setupScript n) : SettingUp n es :=
  ⟨operations, hscript, Or.inl h⟩

theorem Refused.settingUp {n : Nat} (h : Refused operations es)
    (hscript : operations <+: setupScript n) : SettingUp n es :=
  ⟨operations, hscript, Or.inr h⟩

/-- An attempt that began at `start` has failed, and a new one has to start over. -/
structure Abandoned (c : Collaborators σ) (start : Stage) (before : List Exchange)
    (m : Machine σ) : Prop where
  stage : m.interface.stage = start ∨ m.interface.stage = .failed
  task : m.interface.task = none
  calls : Added before (fun es => ∃ o : Opening, o.Orderly c ∧ es = o.exchanges) m.calls

def opening (before : List Exchange) (index : UInt8) : List Exchange :=
  before ++ [.openEmac index true]

theorem Added.opening {calls : List Exchange} {index : UInt8}
    (h : Added (opening before index) P calls)
    (hP : ∀ es, P es → ∃ w, InOrder (c.rxDescriptors w) es) :
    Added before (fun es => ∃ o : Opening, o.Orderly c ∧ es = o.exchanges) calls := by
  obtain ⟨es, rfl, hes⟩ := h
  refine ⟨.openEmac index true :: es, ?_, ⟨index, true, es⟩, ⟨hP es hes, nofun⟩, rfl⟩
  rw [XgmacDriver.opening, List.append_assoc]
  rfl

theorem Making.abandoned {m : Machine σ} {index : UInt8}
    (h : Making start (opening before index) P m)
    (hP : ∀ es, P es → ∃ w, InOrder (c.rxDescriptors w) es) : Abandoned c start before m :=
  ⟨Or.inl h.stage, h.task, h.calls.opening hP⟩

theorem Making.withStage {m : Machine σ} (h : Making start before P m) (s : Stage) :
    Making s before P { m with interface := m.interface.withStage s } :=
  { h with stage := rfl }

theorem Making.waits {m : Machine σ} (h : Making start before P m) :
    ∃ es, P es ∧ Making start (before ++ es) LinkDown m := by
  obtain ⟨es, hcalls, hes⟩ := h.calls
  have hempty : Added (before ++ es) LinkDown m.calls :=
    ⟨[], hcalls.trans (List.append_nil _).symm, linkDown_nil⟩
  exact ⟨es, hes, h.stage, h.engineOpen, h.task, hempty⟩

namespace Attempt

variable {index : UInt8}

/-! ## The stages -/

theorem making_always {α : Type} {x : Driver σ α} (hx : Driver.Keeps Machine.bringUp x) :
    Meets (Making start before P) (always x) (fun _ => Making start before P) E :=
  meets_always hx.making

theorem making_requireEngine :
    Meets (Making start before P) (requireEngine : Attempt σ Unit)
      (fun _ => Making start before P) E :=
  meets_requireEngine (fun _ hm _ => hm) fun _ hm hclosed =>
    nomatch hclosed.symm.trans hm.engineOpen

/-- The script says that `k` comes next. -/
theorem making_command {k : Command}
    (hscript : operations ++ [k.operation] <+: setupScript (c.rxDescriptors w)) :
    Meets (Making start (opening before index) (Accepted operations)) (command c k)
      (fun _ => Making start (opening before index) (Accepted (operations ++ [k.operation])))
      (fun _ => Abandoned c start before) :=
  meets_command (Driver.making_command k) (fun _ hm => hm) fun _ _ hm =>
    hm.abandoned fun _ hes => ⟨w, .settingUp (hes.settingUp hscript)⟩

theorem making_updatePhy (f : σ → PhyRecord → PhyRecord) :
    Meets (Making start before P) (updatePhy f) (fun _ => Making start before P) E :=
  making_always fun _ => rfl

theorem making_initLinkPartner (w : σ) :
    Meets (Making start (opening before index) (Accepted ["set_callback"])) (initLinkPartner c)
      (fun _ => Making start (opening before index)
        (Accepted ["set_callback", "phy_discover", "phy_initialize"]))
      (fun _ => Abandoned c start before) :=
  meets_initLinkPartner making_requireEngine
    (B := Making start (opening before index) (Accepted ["set_callback", "phy_discover"]))
    (fun phy => making_command (w := w) (k := .phyDiscover phy) (List.prefix_append _ _))
    making_updatePhy
    (fun phy => making_command (w := w) (k := .phyInitialize phy) (List.prefix_append _ _))
    making_updatePhy fun entry => (Machine.blind_bringUp.report entry).making

theorem making_openEngine (w : σ) :
    Meets (fun m => m.interface.stage = start ∧ m.interface.task = none ∧ m.calls = before)
      (openEngine c)
      (fun _ m => ∃ index, Making start (opening before index) (Accepted ["set_callback"]) m)
      (fun _ => Abandoned c start before) := by
  refine meets_openEngine
    (A := fun m => ∃ index, Making start (opening before index) (Accepted []) m) ?_ ?_ ?_
  · rintro m world ⟨hstage, htask, rfl⟩ -
    have hnone : InOrder (c.rxDescriptors w) [] :=
      .settingUp ⟨[], List.nil_prefix, Or.inl ⟨[], rfl, rfl⟩⟩
    exact ⟨Or.inl hstage, htask, _, Machine.calls_push (x := .openEmac m.interface.index false) rfl,
      ⟨m.interface.index, false, []⟩, ⟨⟨w, hnone⟩, fun _ => rfl⟩, rfl⟩
  · rintro m world ⟨hstage, htask, rfl⟩ -
    exact ⟨m.interface.index, hstage, rfl, htask, [],
      (Machine.calls_push (x := .openEmac m.interface.index true) rfl).trans
        (List.append_nil _).symm, [], rfl, rfl⟩
  · rintro m ⟨index, hm⟩
    refine (making_command (w := w) ?_).post (fun _ m hm => ⟨index, hm⟩) m hm
    exact List.prefix_append _ _

theorem making_receiveBuffer :
    Meets (Making start before P) (receiveBuffer c) (fun _ => Making start before P)
      (fun _ => Making start before P) :=
  (keeps_receiveBuffer Driver.keepsBringUp_getBuffer (Driver.keepsBringUp_onPool _ _)).meets
    (BringUpView.Making start before P)

theorem making_ensurePool (d : Direction) :
    Meets (Making start before P) (ensurePool c d) (fun _ => Making start before P)
      (fun _ => Making start before P) :=
  (keeps_ensurePool (Driver.keepsBringUp_createPool d)).meets (BringUpView.Making start before P)

def fillingScript (n : Nat) : List String :=
  ["set_callback", "phy_discover", "phy_initialize", "dma_initialize"] ++
    List.replicate n "refill_rx_descriptor"

theorem isPrefix_fillingScript {k n : Nat} (h : k ≤ n) : fillingScript k <+: setupScript n := by
  obtain ⟨d, rfl⟩ := Nat.exists_eq_add_of_le h
  rw [setupScript, fillingScript, ← List.replicate_append_replicate]
  exact ⟨List.replicate d "refill_rx_descriptor" ++ ["cfg_speed_mode", "emac_start"],
    by simp only [List.append_assoc]⟩

theorem fillingScript_succ (k : Nat) :
    fillingScript k ++ ["refill_rx_descriptor"] = fillingScript (k + 1) := by
  rw [fillingScript, fillingScript, List.replicate_succ', List.append_assoc]

theorem making_prefill (w : σ) :
    Meets (Making start (opening before index) (Accepted (fillingScript 0)))
      (prefill c (c.rxDescriptors w))
      (fun _ => Making start (opening before index)
        (Accepted (fillingScript (c.rxDescriptors w))))
      (fun _ => Abandoned c start before) := by
  have hrule := meets_prefill (c := c) (E := fun _ => Abandoned c start before)
    (I := fun left => Making start (opening before index)
      (Accepted (fillingScript (c.rxDescriptors w - left))))
    (H := fun left _ => Making start (opening before index)
      (Accepted (fillingScript (c.rxDescriptors w - (left + 1))))) (c.rxDescriptors w)
    (fun left hleft => ?_) fun left hleft a => ?_
  · rwa [Nat.sub_self] at hrule
  · refine making_receiveBuffer.mono (fun _ hm => hm) (fun _ _ hm => hm) fun _ m hm => ?_
    refine hm.abandoned fun es hes => ⟨w, .settingUp (hes.settingUp ?_)⟩
    exact isPrefix_fillingScript (Nat.sub_le _ _)
  · have hnext : fillingScript (c.rxDescriptors w - (left + 1)) ++ ["refill_rx_descriptor"] =
        fillingScript (c.rxDescriptors w - left) := by
      rw [fillingScript_succ]
      congr 1
      omega
    rw [← hnext]
    refine making_command (w := w) (k := .refill a) ?_
    exact hnext ▸ isPrefix_fillingScript (Nat.sub_le _ _)

theorem making_initTransfer (w : σ) :
    Meets (Making start (opening before index)
        (Accepted ["set_callback", "phy_discover", "phy_initialize"])) (initTransfer c)
      (fun _ m => ∃ w, Making start (opening before index)
        (Accepted (fillingScript (c.rxDescriptors w))) m)
      (fun _ => Abandoned c start before) := by
  have hpool : ∀ d, Meets (Making start (opening before index)
        (Accepted ["set_callback", "phy_discover", "phy_initialize"])) (ensurePool c d)
      (fun _ => Making start (opening before index)
        (Accepted ["set_callback", "phy_discover", "phy_initialize"]))
      (fun _ => Abandoned c start before) := by
    intro d
    refine (making_ensurePool d).mono (fun _ hm => hm) (fun _ _ hm => hm) fun _ m hm => ?_
    refine hm.abandoned fun es hes => ⟨w, .settingUp (hes.settingUp ?_)⟩
    exact List.prefix_append _ _
  have hdma : Meets (Making start (opening before index)
        (Accepted ["set_callback", "phy_discover", "phy_initialize"]))
      (command c .dmaInitialize)
      (fun _ => Making start (opening before index) (Accepted (fillingScript 0)))
      (fun _ => Abandoned c start before) :=
    making_command (w := w) (k := .dmaInitialize) (isPrefix_fillingScript (Nat.zero_le _))
  refine meets_initTransfer making_requireEngine ((hpool .tx).pre fun _ hm => hm.1)
    (fun _ hm _ => hm) ((hpool .rx).pre fun _ hm => hm.1) (fun _ hm _ => hm) hdma fun w => ?_
  exact (making_prefill w).mono (fun _ hm => hm.1) (fun _ _ hm => ⟨w, hm⟩) fun _ _ hm => hm

theorem making_startEngine :
    Meets (Making start (opening before index) (Accepted (fillingScript (c.rxDescriptors w))))
      (startEngine c)
      (fun _ => Making start (opening before index) (Accepted (setupScript (c.rxDescriptors w))))
      (fun _ => Abandoned c start before) := by
  have hscript : fillingScript (c.rxDescriptors w) ++ ["cfg_speed_mode"] ++ ["emac_start"] =
      setupScript (c.rxDescriptors w) := by
    simp [fillingScript, setupScript]
  rw [← hscript]
  refine meets_startEngine making_requireEngine
    (fun phy => making_command (w := w) (k := .cfgSpeed phy) ?_)
    (making_command (w := w) (k := .emacStart) ?_)
  · exact hscript ▸ List.prefix_append _ _
  · exact hscript ▸ List.prefix_refl _

theorem making_startTask :
    Meets (Making start before (Driver.Decided true)) (startTask c)
      (fun _ m => Added before Linked m.calls)
      (fun f m => (∃ e, f = .error e) ∧ Making start before Linked m) := by
  have hspawn : ∀ spec, Driver.Meets (fun m => Making start before (Driver.Decided true) m ∧
      m.interface.task = none) (Driver.spawn c spec) fun _ => Making start before Linked := by
    rintro spec m ⟨hm, -⟩
    refine hm.call (x := .spawn _ _) (by rw [Driver.run_spawn]; rfl) rfl rfl fun es hes => ?_
    obtain ⟨down, x, hdown, hx, rfl⟩ := hes
    exact ⟨down, x, _, _, hdown, hx, List.append_assoc _ _ _⟩
  refine meets_startTask (fun spec => (hspawn spec).post ?_) fun m hm hsome => ?_
  · rintro (_ | handle) m hm
    · exact ⟨⟨_, rfl⟩, hm⟩
    · exact hm.calls
  · have htask : m.interface.task = none := hm.task
    simp [htask] at hsome

theorem making_awaitLink :
    Meets (Making start before LinkDown) (awaitLink c)
      (fun up => if up then fun m => Added before Linked m.calls else Making start before LinkDown)
      (fun f m => (∃ e, f = .error e) ∧ Making start before Linked m) :=
  meets_awaitLink making_requireEngine Driver.making_checkLink making_startTask
    fun entry => (Machine.blind_bringUp.report entry).making

/-! ## One call -/

/-- An attempt that began after `before` has come to a stage, with an engine of its own. -/
def Underway (c : Collaborators σ) (start : Stage) (before : List Exchange) :
    Stage → Machine σ → Prop
  | .engineInit => fun m =>
      m.interface.stage = start ∧ m.interface.task = none ∧ m.calls = before
  | .linkPartnerInit => fun m =>
      ∃ index, Making start (opening before index) (Accepted ["set_callback"]) m
  | .transferInit => fun m =>
      ∃ index, Making start (opening before index)
        (Accepted ["set_callback", "phy_discover", "phy_initialize"]) m
  | .engineStart => fun m =>
      ∃ index w, Making start (opening before index)
        (Accepted (fillingScript (c.rxDescriptors w))) m
  | .linkWait => fun m =>
      ∃ index w commands, Accepted (setupScript (c.rxDescriptors w)) commands ∧
        Making start (opening before index ++ commands) LinkDown m
  | .ready => fun m =>
      ∃ index w commands, Accepted (setupScript (c.rxDescriptors w)) commands ∧
        Added (opening before index ++ commands) Linked m.calls
  | .failed => fun _ => False

def underwayOutline (c : Collaborators σ) (start : Stage) (before : List Exchange) :
    BringUpOutline σ where
  inTurn := Underway c start before
  waiting := Underway c start before .linkWait
  failed _ _ := Abandoned c start before

theorem underwayOutline_sound (start : Stage) (before : List Exchange) :
    (underwayOutline c start before).Sound c where
  stage := by
    refine BringUpOutline.meets_runStage ?_ ?_ ?_ ?_ ?_
    · exact fun m hm => making_openEngine m.world m hm
    · rintro m ⟨index, hm⟩
      exact (making_initLinkPartner m.world).post (fun _ _ hm => ⟨index, hm⟩) m hm
    · rintro m ⟨index, hm⟩
      exact (making_initTransfer m.world).post (fun _ _ ⟨w, hm⟩ => ⟨index, w, hm⟩) m hm
    · rintro m ⟨index, w, hm⟩
      refine making_startEngine.post (fun _ m hm => ?_) m hm
      obtain ⟨commands, hcommands, hm⟩ := hm.waits
      exact ⟨index, w, commands, hcommands, hm⟩
    · rintro m ⟨index, w, commands, hcommands, hm⟩
      refine making_awaitLink.mono (fun _ hm => hm) ?_ ?_ m hm
      · rintro (_ | _) m hm
        · exact ⟨index, w, commands, hcommands, hm⟩
        · exact ⟨index, w, commands, hcommands, hm⟩
      · rintro f m ⟨-, hm⟩
        have hcalls : Added (opening before index)
            (fun es => ∃ polls, Linked polls ∧ es = commands ++ polls) m.calls := by
          obtain ⟨polls, hcalls, hpolls⟩ := hm.calls
          exact ⟨commands ++ polls, hcalls.trans (List.append_assoc _ _ _), polls, hpolls, rfl⟩
        refine ⟨Or.inl hm.stage, hm.task, hcalls.opening ?_⟩
        rintro es ⟨polls, hpolls, rfl⟩
        exact ⟨w, .polling hcommands (Or.inr hpolls)⟩
  report s entry m hm := by cases s <;> exact hm
  report_failed _ _ _ _ hm := ⟨hm.stage, hm.task, hm.calls⟩

/-- A call that resumes begins with the last stage. -/
def resumedOutline (before : List Exchange) : BringUpOutline σ where
  inTurn
    | .linkWait => Making .linkWait before LinkDown
    | .ready => fun m => Added before Linked m.calls
    | _ => fun _ => False
  waiting := Making .linkWait before LinkDown
  failed _ f m := (∃ e, f = .error e) ∧ Making .linkWait before Linked m

theorem resumedOutline_sound (before : List Exchange) : (resumedOutline before).Sound c where
  stage := BringUpOutline.meets_runStage (fun _ hm => hm.elim) (fun _ hm => hm.elim)
    (fun _ hm => hm.elim) (fun _ hm => hm.elim) making_awaitLink
  report s entry m hm := by cases s <;> exact hm
  report_failed _ _ _ _ hm := hm

theorem underway_initialise (hstart : start.entry = .engineInit) :
    Meets (Underway c start before .engineInit) (initialise c)
      (fun _ m => m.interface.stage = .ready ∧ Underway c start before .ready m)
      (fun f m => f = .error .linkDown ∧ Underway c .linkWait before .linkWait m ∨
        f ≠ .error .linkDown ∧ Abandoned c start before m) := by
  refine (underwayOutline_sound start before).initialise ?_ ?_ (fun m hm => ?_)
    (fun m hm => ⟨rfl, hm⟩) ?_
  · exact fun _ e m _ hm => Or.inr ⟨nofun, Or.inr rfl, hm.task, hm.calls⟩
  · exact fun _ e m hm => Or.inr ⟨nofun, hm⟩
  · rw [hm.1, hstart]
    exact hm
  · rintro m ⟨index, w, commands, hcommands, hm⟩
    exact Or.inl ⟨rfl, index, w, commands, hcommands, hm.withStage .linkWait⟩

theorem resumed_initialise :
    Meets (Making .linkWait before LinkDown) (initialise c)
      (fun _ m => m.interface.stage = .ready ∧ Added before Linked m.calls)
      (fun f m => f = .error .linkDown ∧ Making .linkWait before LinkDown m ∨
        f ≠ .error .linkDown ∧ m.interface.stage = .failed ∧ m.interface.task = none ∧
          Added before Linked m.calls) := by
  refine (resumedOutline_sound before).initialise ?_ ?_ (fun m hm => ?_) (fun m hm => ⟨rfl, hm⟩) ?_
  · exact fun _ e m _ hm => Or.inr ⟨nofun, rfl, hm.2.task, hm.2.calls⟩
  · rintro s h m ⟨⟨e, he⟩, -⟩
    cases he
  · rw [show m.interface.stage = .linkWait from hm.stage]
    exact hm
  · exact fun m hm => Or.inl ⟨rfl, hm.withStage .linkWait⟩

theorem ready_initialise {m₀ : Machine σ} (hready : m₀.interface.stage = .ready) :
    Meets (fun m => m = m₀) (initialise c) (fun _ m => m = m₀) (fun _ _ => False) := by
  refine meets_initialise (R := fun t m => t = .ready ∧ m = m₀) ?_ ?_ ?_ ?_
  · rintro s m ⟨rfl, rfl⟩
    rw [hready, runStages_of_isTerminal c rfl]
    exact ⟨rfl, rfl⟩
  · rintro m ⟨-, rfl⟩
    rw [← hready]
    rfl
  · rintro t m hne - ⟨ht, -⟩
    exact hne ht
  · rintro m ⟨⟨⟩, -⟩

end Attempt

end XgmacDriver
