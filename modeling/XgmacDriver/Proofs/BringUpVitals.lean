import XgmacDriver.Proofs.BringUpOrder
import XgmacDriver.Proofs.Vitals

/-! # How bring-up decides

Until the task exists nothing gets through to the notifier, and the latched link is up only while
the last sign is a refusal to create the task. Bring-up ends with the task and the armed notifier
both there, or with none of them, and in the latter case it can be tried again.
-/

namespace XgmacDriver

variable {σ : Type} {c : Collaborators σ}

namespace LifeView

def TaskRefused (v : LifeView) : Prop := v.signs.getLast?.any Exchange.isRefusedSpawn = true

structure Unserved (v : LifeView) : Prop where
  notifier : v.notifier = .new poolSlots
  task : v.task = none
  spawns : ∀ x ∈ v.signs, x.isSpawn = true → x.isRefusedSpawn = true
  txPool : v.txPool.Intact
  rxPool : v.rxPool.Intact

/-- Between two calls that have not created the task. -/
structure Quiet (v : LifeView) : Prop extends v.Unserved where
  link : linkUp v.link = true ↔ v.TaskRefused
  engineOpen : v.TaskRefused → v.engineOpen = true

def Opened (v : LifeView) : Prop := v.engineOpen = true ∧ v.callback = true

/-- After the first stage. -/
structure Working (v : LifeView) : Prop extends v.Quiet where
  opened : v.Opened

structure LinkFound (v : LifeView) : Prop extends v.Unserved where
  opened : v.Opened
  link : linkUp v.link = true

end LifeView

/-- The task exists, and interrupts get through to it. -/
structure Vitals.Commissioned (handle : UInt32) (v : Vitals) : Prop where
  engineOpen : v.engineOpen = true
  callback : v.callback = true
  armed : v.armed = true
  maxCompletions : v.maxCompletions = poolSlots
  task : v.task = some handle
  spawns : ∃ refused spec, v.spawns = refused ++ [.spawn spec (some handle)] ∧
    ∀ x ∈ refused, x.isRefusedSpawn = true

open LifeView

def OnLife (p : LifeView → Prop) (m : Machine σ) : Prop := p m.life

/-- An attempt that failed, though it did not halt. -/
def Erred (p : LifeView → Prop) (f : Failure) (m : Machine σ) : Prop :=
  (∃ e, f = .error e) ∧ OnLife p m

/-- What is known when it is the turn of a stage. -/
def LifeView.InTurn : Stage → LifeView → Prop
  | .engineInit => Quiet
  | .ready => fun v => ∃ handle, v.vitals.Commissioned handle
  | .failed => fun _ => False
  | _ => Working

variable {p q : LifeView → Prop} {v : LifeView}

theorem Erred.mono {f : Failure} {m : Machine σ} (h : Erred p f m) (hp : ∀ v, p v → q v) :
    Erred q f m :=
  ⟨h.1, hp _ h.2⟩

theorem LifeView.Unserved.sign {x : Exchange} (h : v.Unserved)
    (hx : x.isSpawn = true → x.isRefusedSpawn = true) :
    Unserved { v with signs := v.signs ++ [x] } := by
  refine { h with spawns := fun y hy hspawn => ?_ }
  rcases List.mem_append.mp hy with hy | hy
  · exact h.spawns y hy hspawn
  · obtain rfl := List.mem_singleton.mp hy
    exact hx hspawn

theorem LifeView.Quiet.setPools {txPool rxPool : Pool} (h : v.Quiet) (htx : txPool.Intact)
    (hrx : rxPool.Intact) : Quiet { v with txPool, rxPool } :=
  { h with txPool := htx, rxPool := hrx }

theorem LifeView.taskRefused_sign {x : Exchange} :
    TaskRefused { v with signs := v.signs ++ [x] } ↔ x.isRefusedSpawn = true := by
  simp [TaskRefused]

theorem LifeView.LinkFound.refused (h : v.LinkFound) (spec : TaskSpec) :
    Quiet { v with signs := v.signs ++ [.spawn spec none] } where
  toUnserved := h.sign fun _ => rfl
  link := iff_of_true h.link (taskRefused_sign.mpr rfl)
  engineOpen _ := h.opened.1

theorem LifeView.LinkFound.commissioned (h : v.LinkFound) (spec : TaskSpec) (handle : UInt32) :
    Vitals.Commissioned handle (LifeView.vitals { v with
      signs := v.signs ++ [.spawn spec (some handle)]
      task := some handle
      notifier := v.notifier.arm }) where
  engineOpen := h.opened.1
  callback := h.opened.2
  armed := rfl
  maxCompletions := by
    show v.notifier.completions.max = poolSlots
    rw [h.notifier]
    rfl
  task := rfl
  spawns := by
    refine ⟨v.signs.filter Exchange.isSpawn, spec, by simp [LifeView.vitals, Exchange.isSpawn], ?_⟩
    intro x hx
    obtain ⟨hsign, hspawn⟩ := List.mem_filter.mp hx
    exact h.spawns x hsign hspawn

namespace Driver

theorem Keeps.onLife {α : Type} {x : Driver σ α} (hx : Keeps Machine.life x) :
    Meets (OnLife p) x fun _ => OnLife p :=
  hx.meets p

theorem life_ask {α : Type} (ask : σ → α × σ) (x : α → Exchange)
    (hx : ∀ answer, (x answer).isSign = true) :
    Meets (OnLife p)
      (do
        let answer ← consult ask
        record (x answer)
        return answer)
      fun answer => OnLife fun v => ∃ v₀, p v₀ ∧ v = { v₀ with signs := v₀.signs ++ [x answer] } :=
  fun m hm => ⟨m.life, hm, Machine.life_sign (hx _) rfl rfl rfl⟩

theorem life_readLinkStatus (phy : UInt8) :
    Meets (OnLife fun v => v.Unserved ∧ v.Opened) (readLinkStatus c phy) fun _ =>
      OnLife fun v => v.Unserved ∧ v.Opened ∧ ¬v.TaskRefused := by
  have hread : Meets (OnLife fun v => v.Unserved ∧ v.Opened) (readLinkStatus c phy) fun status =>
      OnLife fun v => ∃ v₀ : LifeView, (v₀.Unserved ∧ v₀.Opened) ∧
        v = { v₀ with signs := v₀.signs ++ [.readPhy phy phyStatusRegister status] } :=
    life_ask _ _ fun _ => rfl
  refine hread.post ?_
  rintro status m ⟨v₀, ⟨hunserved, hopened⟩, hv⟩
  rw [OnLife, hv]
  exact ⟨hunserved.sign nofun, hopened, fun hrefused => nomatch taskRefused_sign.mp hrefused⟩

theorem life_latchLink (status : UInt32) :
    Meets (OnLife fun v => v.Unserved ∧ v.Opened ∧ ¬v.TaskRefused)
      (latchLink status : Driver σ Unit) fun _ => OnLife fun v =>
        v.Unserved ∧ v.Opened ∧ ¬v.TaskRefused ∧ linkUp v.link = linkUp status :=
  fun _ ⟨hunserved, hopened, hrefused⟩ => ⟨{ hunserved with }, hopened, hrefused, rfl⟩

/-- A link that is found down is no reason to have tried the task. -/
theorem life_checkLink (phy : UInt8) (maxWait : UInt64) :
    Meets (OnLife Working) (checkLink c phy maxWait) fun up =>
      OnLife fun v => if up then v.LinkFound else v.Working := by
  refine meets_checkLink ((life_readLinkStatus phy).pre fun _ hm => ⟨hm.toUnserved, hm.opened⟩)
    life_latchLink ?_ ?_ (fun entry => (Machine.blind_life.report entry).onLife) (fun _ hm => hm)
    maxWait
  · rintro status m hup ⟨hunserved, hopened, -, hlink⟩
    exact LinkFound.mk hunserved hopened (hlink.trans hup)
  · intro status hdown
    refine (Machine.blind_life.sleep _).onLife.post ?_
    rintro - m ⟨hunserved, hopened, hrefused, hlink⟩
    refine ⟨⟨hunserved, ?_, fun hr => absurd hr hrefused⟩, hopened⟩
    simp [hlink, hdown, hrefused]

theorem life_setCallback :
    Meets (OnLife fun v => v.Quiet ∧ v.engineOpen = true) (command c .setCallback) fun
      | .ok () => OnLife Working
      | .error _ => OnLife Quiet := by
  refine meets_command (fun m world hm _ => ?_) fun m world status hm _ => ?_
  · have hlife : Machine.life { m with
        trace := m.trace.push (.command .setCallback (.ok ()))
        world
        engine := m.engine.accept .setCallback } = { m.life with callback := true } :=
      Machine.blind_life.push { m with world, engine := m.engine.accept .setCallback } rfl
    show Working (Machine.life _)
    rw [hlife]
    exact ⟨⟨{ hm.1.toUnserved with }, hm.1.link, hm.1.engineOpen⟩, hm.2, rfl⟩
  · show Quiet (Machine.life _)
    rw [Machine.blind_life.push { m with world } rfl]
    exact hm.1

theorem life_createPool (d : Direction) :
    Meets (OnLife Working) (createPool c d) fun r m =>
      OnLife Working m ∧ ∀ f, r = .error f → ∃ e, f = .error e := by
  intro m hm
  have htx : m.interface.txPool.Intact := Pool.intact_blank.mp hm.txPool
  have hrx : m.interface.rxPool.Intact := Pool.intact_blank.mp hm.rxPool
  cases d with
  | tx =>
      obtain ⟨hintact, herror⟩ := htx.create (c.allocate .tx m.world)
      refine ⟨⟨hm.setPools (Pool.intact_blank.mpr hintact) hm.rxPool, hm.opened⟩, ?_⟩
      exact fun f hf => (herror f hf).1
  | rx =>
      obtain ⟨hintact, herror⟩ := hrx.create (c.allocate .rx m.world)
      refine ⟨⟨hm.setPools hm.txPool (Pool.intact_blank.mpr hintact), hm.opened⟩, ?_⟩
      exact fun f hf => (herror f hf).1

end Driver

namespace Attempt

/-! ## The stages -/

theorem life_working {α : Type} {x : Attempt σ α} {Q : α → Machine σ → Prop}
    (hx : Meets (OnLife Working) x Q (Erred Working)) :
    Meets (OnLife Working) x Q (Erred Quiet) :=
  hx.mono (fun _ hm => hm) (fun _ _ hm => hm) fun _ _ hm => hm.mono fun _ h => h.toQuiet

theorem life_requireEngine :
    Meets (OnLife p) (requireEngine : Attempt σ Unit) (fun _ => OnLife p) (Erred p) :=
  meets_requireEngine (fun _ hm _ => hm) fun _ hm _ => ⟨⟨_, rfl⟩, hm⟩

theorem life_command {k : Command} (hk : k.isAside = true) :
    Meets (OnLife p) (command c k) (fun _ => OnLife p) (Erred p) := by
  have hne : k ≠ .setCallback := by
    rintro rfl
    cases hk
  exact meets_command (Driver.keepsLife_command hne).onLife (fun _ hm => hm)
    fun _ _ hm => ⟨⟨_, rfl⟩, hm⟩

theorem life_openEngine :
    Meets (OnLife Quiet) (openEngine c) (fun _ => OnLife Working) (Erred Quiet) := by
  have hopened : ∀ (m : Machine σ) (world : σ) opened, OnLife Quiet m → OnLife Quiet { m with
      trace := m.trace.push (.openEmac m.interface.index opened), world } :=
    fun m world _ => (Machine.blind_life.record rfl).onLife { m with world }
  refine meets_openEngine (A := OnLife fun v => v.Quiet ∧ v.engineOpen = true) ?_ ?_
    (meets_command Driver.life_setCallback (fun _ hm => hm) fun _ _ hm => ⟨⟨_, rfl⟩, hm⟩)
  · exact fun m world hm _ => ⟨⟨_, rfl⟩, hopened m world false hm⟩
  · intro m world hm _
    have hquiet := hopened m world true hm
    exact ⟨⟨{ hquiet.toUnserved with }, hquiet.link, fun _ => rfl⟩, rfl⟩

theorem life_initLinkPartner :
    Meets (OnLife p) (initLinkPartner c) (fun _ => OnLife p) (Erred p) := by
  have hphy : ∀ f : σ → PhyRecord → PhyRecord,
      Meets (OnLife p) (updatePhy f) (fun _ => OnLife p) (Erred p) :=
    fun f => meets_always fun _ hm => hm
  exact meets_initLinkPartner life_requireEngine (fun _ => life_command rfl) hphy
    (fun _ => life_command rfl) hphy fun entry => (Machine.blind_life.report entry).onLife

theorem life_ensurePool (d : Direction) :
    Meets (OnLife Working) (ensurePool c d) (fun _ => OnLife Working) (Erred Quiet) := by
  refine meets_ensurePool ((Driver.life_createPool d).mono (fun _ hm => hm.1) ?_)
    fun _ hm _ => hm
  rintro (f | ⟨⟩) m ⟨hworking, herror⟩
  · exact ⟨herror f rfl, hworking.toQuiet⟩
  · exact hworking

theorem life_receiveBuffer :
    Meets (OnLife p) (receiveBuffer c) (fun _ => OnLife p) (Erred p) := by
  refine meets_receiveBuffer
    ((Driver.keepsLife_receiving.getBuffer _ _).onLife.mono (fun _ hm => hm.1) ?_)
    ((Driver.keepsLife_acquireSlot .rx maxPacketSize).onLife.mono (fun _ hm => hm.1) ?_)
  · intro answer m hm
    cases answer.bind (·.payload) with
    | none => exact ⟨⟨_, rfl⟩, hm⟩
    | some a => exact hm
  · rintro (e | a) m hm
    · exact ⟨⟨_, rfl⟩, hm⟩
    · exact hm

theorem life_prefill (n : Nat) :
    Meets (OnLife p) (prefill c n) (fun _ => OnLife p) (Erred p) :=
  meets_prefill (I := fun _ => OnLife p) n (fun _ _ => life_receiveBuffer)
    fun _ _ _ => life_command rfl

theorem life_initTransfer :
    Meets (OnLife Working) (initTransfer c) (fun _ => OnLife Working) (Erred Quiet) :=
  meets_initTransfer (life_working life_requireEngine)
    ((life_ensurePool .tx).pre fun _ hm => hm.1) (fun _ hm _ => hm)
    ((life_ensurePool .rx).pre fun _ hm => hm.1) (fun _ hm _ => hm)
    (life_working (life_command rfl)) fun _ => (life_working (life_prefill _)).pre fun _ hm => hm.1

theorem life_startEngine :
    Meets (OnLife p) (startEngine c) (fun _ => OnLife p) (Erred p) :=
  meets_startEngine life_requireEngine (fun _ => life_command rfl) (life_command rfl)

/-- The task is created and interrupts get through to it, or the refusal is the last sign. -/
theorem life_startTask :
    Meets (OnLife LinkFound) (startTask c)
      (fun _ => OnLife fun v => ∃ handle, v.vitals.Commissioned handle) (Erred Quiet) := by
  refine meets_startTask (fun spec => ?_) fun m hm htask => ?_
  · refine (Driver.life_ask _ _ fun _ => rfl).mono (fun _ hm => hm.1) ?_
    rintro (_ | handle) m ⟨v₀, hfound, hv⟩
    · refine ⟨⟨_, rfl⟩, ?_⟩
      rw [OnLife, hv]
      exact hfound.refused _
    · refine ⟨handle, ?_⟩
      show Vitals.Commissioned handle
        (LifeView.vitals { m.life with task := some handle, notifier := m.life.notifier.arm })
      rw [hv]
      exact hfound.commissioned _ handle
  · have hnone : m.interface.task = none := hm.task
    rw [hnone] at htask
    cases htask

theorem life_awaitLink :
    Meets (OnLife Working) (awaitLink c)
      (fun up => if up then OnLife (InTurn .ready) else OnLife Working) (Erred Quiet) :=
  meets_awaitLink (life_working life_requireEngine) Driver.life_checkLink life_startTask
    fun entry => (Machine.blind_life.report entry).onLife

/-! ## One call -/

def Blamed (f : Failure) (m : Machine σ) : Prop :=
  ∃ s : Stage, s.isTerminal = false ∧ f = .error (.initFailed s) ∧ m.interface.stage = .failed ∧
    OnLife Quiet m

def lifeOutline : BringUpOutline σ where
  inTurn s := OnLife (InTurn s)
  waiting := OnLife Working
  failed _ := Erred Quiet

theorem lifeOutline_sound : lifeOutline.Sound c where
  stage := BringUpOutline.meets_runStage life_openEngine (life_working life_initLinkPartner)
    life_initTransfer (life_working life_startEngine) life_awaitLink
  report _ entry := (Machine.blind_life.report entry).onLife
  report_failed _ _ _ _ hm := hm

theorem life_initialise :
    Meets (fun m => OnLife (InTurn m.interface.stage.entry) m) (initialise c)
      (fun _ m => m.interface.stage = .ready ∧ OnLife (InTurn .ready) m)
      (fun f m => f = .error .linkDown ∧ m.interface.stage = .linkWait ∧ OnLife Working m ∨
        Blamed f m) := by
  refine lifeOutline_sound.initialise ?_ ?_ (fun _ hm => hm) ?_ ?_
  · exact fun s e m hs hm => Or.inr ⟨s, hs, rfl, rfl, { hm.2 with }⟩
  · rintro s h m ⟨⟨e, he⟩, -⟩
    cases he
  · rintro m ⟨handle, hm⟩
    exact ⟨rfl, handle, { hm with }⟩
  · exact fun m hm => Or.inl ⟨rfl, rfl, ⟨{ hm.toQuiet with }, hm.opened⟩⟩

end Attempt

end XgmacDriver
