import XgmacDriver.BringUp.Initialise
import XgmacDriver.Proofs.Triple

/-! # Rules for the stages of bring-up

A rule leads from what holds before a piece of bring-up to what holds after it, by way of the steps
that the piece is made of. What a piece keeps follows from its rule.
-/

namespace XgmacDriver

variable {σ γ : Type} {c : Collaborators σ} {view : Machine σ → γ} {P A B D : Machine σ → Prop}
  {E : Failure → Machine σ → Prop}

namespace Driver

/-- `A` holds before each read of the link status, and also when the time is over. -/
theorem meets_checkLink {S T : UInt32 → Machine σ → Prop} {R : Bool → Machine σ → Prop}
    {phy : UInt8} (hread : Meets A (readLinkStatus c phy) S)
    (hlatch : ∀ status, Meets (S status) (latchLink status) fun _ => T status)
    (hup : ∀ status m, linkUp status = true → T status m → R true m)
    (hsleep : ∀ status, linkUp status = false → Meets (T status) (sleep linkPollStep) fun _ => A)
    (hreport : ∀ entry, Meets A (report entry) fun _ => A) (hdown : ∀ m, A m → R false m)
    (maxWait : UInt64) : Meets A (checkLink c phy maxWait) R := by
  have hpoll : ∀ start fuel, Meets A (pollLink c phy maxWait start fuel) R := by
    intro start fuel
    induction fuel with
    | zero => exact meets_pure hdown
    | succ fuel ih =>
        unfold pollLink
        refine (meets_get.post fun _ _ hm => hm.1).bind fun m => Meets.ite (fun _ => ?_) fun _ => ?_
        · exact (hreport _).bind fun _ => meets_pure hdown
        · refine hread.bind fun status => (hlatch status).bind fun _ => Meets.ite ?_ ?_
          · exact fun h => meets_pure fun m hm => hup status m h hm
          · intro h
            exact (hsleep status (Bool.not_eq_true _ |>.mp h)).bind fun _ => ih
  exact (meets_get.post fun _ _ hm => hm.1).bind fun m => hpoll _ _

theorem keeps_checkLink {phy : UInt8} (hreport : ∀ entry, Keeps view (report entry))
    (hread : Keeps view (readPhy c phy phyStatusRegister))
    (hlatch : ∀ status, Keeps view (latchLink status)) (hsleep : ∀ ms, Keeps view (sleep ms))
    (maxWait : UInt64) : Keeps view (checkLink c phy maxWait) :=
  keeps_of_meets fun v => meets_checkLink (A := fun m => view m = v) (hread.meets (· = v))
    (fun status => (hlatch status).meets (· = v)) (fun _ _ _ hm => hm)
    (fun _ _ => (hsleep _).meets (· = v)) (fun entry => (hreport entry).meets (· = v))
    (fun _ hm => hm) maxWait

end Driver

namespace Attempt

variable {Q : Unit → Machine σ → Prop}

theorem meets_command {k : Command} {R : Except EngineStatus Unit → Machine σ → Prop}
    (h : Driver.Meets P (Driver.command c k) R) (hok : ∀ m, R (.ok ()) m → Q () m)
    (herror : ∀ status m, R (.error status) m → E (.error (.engine k.operation status)) m) :
    Meets P (command c k) Q E := by
  unfold command
  refine Meets.bind (meets_always h) ?_
  rintro (status | ⟨⟩)
  · exact meets_fail fun m hm => herror status m hm
  · exact meets_pure fun m hm => hok m hm

theorem keeps_command {k : Command} (hk : Driver.Keeps view (Driver.command c k)) :
    Keeps view (command c k) :=
  keeps_of_meets fun v => meets_command (hk.meets (· = v)) (fun _ hm => hm) fun _ _ hm => hm

theorem meets_requireEngine (hopen : ∀ m, P m → m.interface.engineOpen = true → Q () m)
    (hclosed : ∀ m, P m → m.interface.engineOpen = false →
      E (.error .engineNotInitialized) m) : Meets P requireEngine Q E := by
  unfold requireEngine
  refine Meets.bind (meets_always Driver.meets_interface) fun i => Meets.ite ?_ ?_
  · intro hi
    refine meets_fail ?_
    rintro m ⟨hm, rfl⟩
    exact hclosed m hm (by simpa using hi)
  · intro hi
    refine meets_pure ?_
    rintro m ⟨hm, rfl⟩
    exact hopen m hm (by simpa using hi)

theorem keeps_requireEngine : Keeps view (requireEngine : Attempt σ Unit) :=
  keeps_of_meets fun _ => meets_requireEngine (fun _ hm _ => hm) fun _ hm _ => hm

theorem meets_openEngine
    (hclosed : ∀ m world, P m → c.openEmac m.interface.index m.world = (false, world) →
      E (.error .engineNotInitialized) { m with
        trace := m.trace.push (.openEmac m.interface.index false), world })
    (hopen : ∀ m world, P m → c.openEmac m.interface.index m.world = (true, world) → A { m with
      interface := m.interface.withEngine
      trace := m.trace.push (.openEmac m.interface.index true)
      world })
    (hcallback : Meets A (command c .setCallback) Q E) : Meets P (openEngine c) Q E := by
  unfold openEngine
  refine Meets.bind (meets_always Driver.meets_interface) fun i => ?_
  refine Meets.bind (R := fun opened m' => ∃ m world, P m ∧ i = m.interface ∧
    c.openEmac i.index m.world = (opened, world) ∧ m' = { m with world }) ?_ fun opened => ?_
  · exact meets_always fun m hm => ⟨m, _, hm.1, hm.2, rfl, rfl⟩
  refine Meets.bind (R := fun _ m' => ∃ m world, P m ∧ i = m.interface ∧
    c.openEmac i.index m.world = (opened, world) ∧
      m' = { m with trace := m.trace.push (.openEmac i.index opened), world }) ?_ fun _ => ?_
  · refine meets_always ?_
    rintro _ ⟨m, world, hm, hi, hopened, rfl⟩
    exact ⟨m, world, hm, hi, hopened, rfl⟩
  cases opened with
  | false =>
      refine Meets.bind (R := fun _ _ => False) (meets_fail ?_) fun _ _ hm => hm.elim
      rintro _ ⟨m, world, hm, rfl, hopened, rfl⟩
      exact hclosed m world hm hopened
  | true =>
      refine Meets.bind (R := fun _ => A) (meets_always ?_) fun _ => hcallback
      rintro _ ⟨m, world, hm, rfl, hopened, rfl⟩
      exact hopen m world hm hopened

theorem keeps_openEngine (hopen : ∀ index, Driver.Keeps view (Driver.consult (c.openEmac index)))
    (hrecord : ∀ index opened, Driver.Keeps view (Driver.record (.openEmac index opened)))
    (hengine : Driver.Keeps view (Driver.modifyInterface Interface.withEngine))
    (hcallback : Driver.Keeps view (Driver.command c .setCallback)) :
    Keeps view (openEngine c) := by
  have hopened : ∀ {m world opened}, c.openEmac m.interface.index m.world = (opened, world) →
      view { m with trace := m.trace.push (.openEmac m.interface.index opened), world } =
        view m := by
    intro m world opened hanswer
    have hworld : view { m with world := (c.openEmac m.interface.index m.world).2 } = view m :=
      hopen _ m
    rw [hanswer] at hworld
    exact (hrecord _ _ { m with world }).trans hworld
  refine keeps_of_meets fun v => meets_openEngine (A := fun m => view m = v) ?_ ?_
    ((keeps_command hcallback).meets (· = v))
  · exact fun m world hm hanswer => (hopened hanswer).trans hm
  · exact fun m world hm hanswer => (hengine _).trans ((hopened hanswer).trans hm)

theorem meets_initLinkPartner (hrequire : Meets P requireEngine (fun _ => A) E)
    (hdiscover : ∀ phy, Meets A (command c (.phyDiscover phy)) (fun _ => B) E)
    (hdiscovered : ∀ f, Meets B (updatePhy f) (fun _ => B) E)
    (hnegotiate : ∀ phy, Meets B (command c (.phyInitialize phy)) (fun _ => D) E)
    (hnegotiated : ∀ f, Meets D (updatePhy f) (fun _ => D) E)
    (hreport : ∀ entry, Driver.Meets D (Driver.report entry) fun _ => D) :
    Meets P (initLinkPartner c) (fun _ => D) E := by
  have hinterface : ∀ I : Machine σ → Prop, Meets I (always Driver.interface) (fun _ => I) E :=
    fun I => meets_always (Driver.meets_interface.post fun _ _ hm => hm.1)
  unfold initLinkPartner
  refine hrequire.bind fun _ => (hinterface A).bind fun i => ?_
  refine (hdiscover _).bind fun _ => (hdiscovered _).bind fun _ => (hinterface B).bind fun i => ?_
  refine (hnegotiate _).bind fun _ => (hnegotiated _).bind fun _ => ?_
  exact (hinterface D).bind fun i => meets_always (hreport _)

theorem keeps_initLinkPartner
    (hdiscover : ∀ phy, Driver.Keeps view (Driver.command c (.phyDiscover phy)))
    (hnegotiate : ∀ phy, Driver.Keeps view (Driver.command c (.phyInitialize phy)))
    (hphy : ∀ f : σ → PhyRecord → PhyRecord, Keeps view (updatePhy f))
    (hreport : ∀ entry, Driver.Keeps view (Driver.report entry)) :
    Keeps view (initLinkPartner c) :=
  keeps_of_meets fun v => meets_initLinkPartner (keeps_requireEngine.meets (· = v))
    (fun phy => (keeps_command (hdiscover phy)).meets (· = v)) (fun f => (hphy f).meets (· = v))
    (fun phy => (keeps_command (hnegotiate phy)).meets (· = v)) (fun f => (hphy f).meets (· = v))
    fun entry => (hreport entry).meets (· = v)

theorem meets_ensurePool {d : Direction}
    (hcreate : Driver.Meets (fun m => P m ∧ (m.interface.pool d).isInitialized = false)
      (Driver.createPool c d) fun
        | .ok () => Q ()
        | .error f => E f)
    (hready : ∀ m, P m → (m.interface.pool d).isInitialized = true → Q () m) :
    Meets P (ensurePool c d) Q E := by
  unfold ensurePool
  refine Meets.bind (meets_always Driver.meets_interface) fun i => Meets.ite ?_ ?_
  · rintro hvacant m ⟨hm, rfl⟩
    have hend := hcreate m ⟨hm, by simpa using hvacant⟩
    show Outcome Q E ((Driver.createPool c d).run m).1 ((Driver.createPool c d).run m).2
    cases hresult : ((Driver.createPool c d).run m).1 with
    | ok =>
        rw [hresult] at hend
        exact hend
    | error f =>
        rw [hresult] at hend
        exact hend
  · intro hinitialized
    refine meets_pure ?_
    rintro m ⟨hm, rfl⟩
    exact hready m hm (by simpa using hinitialized)

theorem keeps_ensurePool {d : Direction} (hcreate : Driver.Keeps view (Driver.createPool c d)) :
    Keeps view (ensurePool c d) := by
  refine keeps_of_meets fun v => meets_ensurePool ?_ fun _ hm _ => hm
  refine (hcreate.meets (· = v)).mono (fun _ hm => hm.1) ?_
  rintro (f | ⟨⟩) m hm
  · exact hm
  · exact hm

theorem meets_receiveBuffer {Q : Addr → Machine σ → Prop}
    (hget : Driver.Meets (fun m => P m ∧ m.interface.config.zeroCopyRx = true)
      (Driver.getBuffer c maxPacketSize prefillWait) fun answer m =>
        match answer.bind (·.payload) with
        | some a => Q a m
        | none => E (.error .noNetworkBuffer) m)
    (hacquire : Driver.Meets (fun m => P m ∧ m.interface.config.zeroCopyRx = false)
      (Driver.acquireSlot c .rx maxPacketSize) fun
        | .ok a => Q a
        | .error e => E (.error e)) : Meets P (receiveBuffer c) Q E := by
  unfold receiveBuffer
  refine Meets.bind (meets_always Driver.meets_config) fun config => Meets.ite ?_ ?_
  · intro hzero
    refine Meets.bind (meets_always (hget.pre ?_)) fun answer => ?_
    · rintro m ⟨hm, rfl⟩
      exact ⟨hm, hzero⟩
    · cases answer.bind (·.payload) with
      | none => exact meets_fail fun _ hm => hm
      | some a => exact meets_pure fun _ hm => hm
  · intro hcopying
    refine Meets.bind (meets_always (hacquire.pre ?_)) ?_
    · rintro m ⟨hm, rfl⟩
      exact ⟨hm, Bool.not_eq_true _ |>.mp hcopying⟩
    · rintro (e | a)
      · exact meets_fail fun _ hm => hm
      · exact meets_pure fun _ hm => hm

theorem keeps_receiveBuffer
    (hget : ∀ wanted wait, Driver.Keeps view (Driver.getBuffer c wanted wait))
    (hacquire : Driver.Keeps view (Driver.acquireSlot c .rx maxPacketSize)) :
    Keeps view (receiveBuffer c) := by
  refine keeps_of_meets fun v => meets_receiveBuffer ?_ ?_
  · refine ((hget _ _).meets (· = v)).mono (fun _ hm => hm.1) fun answer m hm => ?_
    cases answer.bind (·.payload) with
    | none => exact hm
    | some a => exact hm
  · refine (hacquire.meets (· = v)).mono (fun _ hm => hm.1) ?_
    rintro (e | a) m hm
    · exact hm
    · exact hm

/-- `I left` holds while `left` descriptors are without a buffer, and `H left a` while `a` is on its
way to the next of them. -/
theorem meets_prefill {I : Nat → Machine σ → Prop} {H : Nat → Addr → Machine σ → Prop} (n : Nat)
    (hreceive : ∀ left < n, Meets (I (left + 1)) (receiveBuffer c) (H left) E)
    (hrefill : ∀ left < n, ∀ a, Meets (H left a) (command c (.refill a)) (fun _ => I left) E) :
    Meets (I n) (prefill c n) (fun _ => I 0) E := by
  induction n with
  | zero => exact meets_pure fun _ hm => hm
  | succ n ih =>
      unfold prefill
      refine (hreceive n (Nat.lt_succ_self n)).bind fun a => ?_
      refine (hrefill n (Nat.lt_succ_self n) a).bind fun _ => ?_
      exact ih (fun left hleft => hreceive left (Nat.lt_succ_of_lt hleft))
        fun left hleft => hrefill left (Nat.lt_succ_of_lt hleft)

theorem keeps_prefill (hget : ∀ wanted wait, Driver.Keeps view (Driver.getBuffer c wanted wait))
    (hacquire : Driver.Keeps view (Driver.acquireSlot c .rx maxPacketSize))
    (hrefill : ∀ a, Driver.Keeps view (Driver.command c (.refill a))) (n : Nat) :
    Keeps view (prefill c n) :=
  keeps_of_meets fun v => meets_prefill (I := fun _ m => view m = v)
    (H := fun _ _ m => view m = v) n
    (fun _ _ => (keeps_receiveBuffer hget hacquire).meets (· = v))
    fun _ _ a => (keeps_command (hrefill a)).meets (· = v)

/-- The configuration is read once, at the start, and neither pool changes it. -/
theorem meets_initTransfer {F : Machine σ → Prop} (hrequire : Meets P requireEngine (fun _ => A) E)
    (htx : Meets (fun m => A m ∧ m.interface.config.zeroCopyTx = false) (ensurePool c .tx)
      (fun _ => B) E)
    (hnotx : ∀ m, A m → m.interface.config.zeroCopyTx = true → B m)
    (hrx : Meets (fun m => B m ∧ m.interface.config.zeroCopyRx = false) (ensurePool c .rx)
      (fun _ => D) E)
    (hnorx : ∀ m, B m → m.interface.config.zeroCopyRx = true → D m)
    (hdma : Meets D (command c .dmaInitialize) (fun _ => F) E)
    (hprefill : ∀ w, Meets (fun m => F m ∧ w = m.world) (prefill c (c.rxDescriptors w)) Q E) :
    Meets P (initTransfer c) Q E := by
  have hfill : Meets D (do
      command c .dmaInitialize
      let m ← always get
      prefill c (c.rxDescriptors m.world)) Q E := by
    refine hdma.bind fun _ => Meets.bind (meets_always Driver.meets_get) fun m => ?_
    refine (hprefill m.world).pre ?_
    rintro _ ⟨hm, rfl⟩
    exact ⟨hm, rfl⟩
  have hkeeps : Keeps (fun m : Machine σ => m.interface.config) (ensurePool c .tx) :=
    keeps_ensurePool fun _ => rfl
  unfold initTransfer
  refine hrequire.bind fun _ => Meets.bind (meets_always Driver.meets_config) fun config => ?_
  have hreceive : Meets (fun m => B m ∧ config = m.interface.config) (do
      if !config.zeroCopyRx then
        ensurePool c .rx
      command c .dmaInitialize
      let m ← always get
      prefill c (c.rxDescriptors m.world)) Q E := by
    refine Meets.ite (fun hcopying => ?_) fun hzero => hfill.pre ?_
    · refine Meets.bind (hrx.pre ?_) fun _ => hfill
      rintro m ⟨hm, rfl⟩
      exact ⟨hm, by simpa using hcopying⟩
    · rintro m ⟨hm, rfl⟩
      exact hnorx m hm (by simpa using hzero)
  refine Meets.ite (fun hcopying => ?_) fun hzero => hreceive.pre ?_
  · refine Meets.bind ((htx.keeping hkeeps config).pre ?_) fun _ => hreceive
    rintro m ⟨hm, rfl⟩
    exact ⟨⟨hm, by simpa using hcopying⟩, rfl⟩
  · rintro m ⟨hm, rfl⟩
    exact ⟨hnotx m hm (by simpa using hzero), rfl⟩

theorem meets_startEngine (hrequire : Meets P requireEngine (fun _ => A) E)
    (hspeed : ∀ phy, Meets A (command c (.cfgSpeed phy)) (fun _ => B) E)
    (hstart : Meets B (command c .emacStart) Q E) : Meets P (startEngine c) Q E := by
  unfold startEngine
  refine hrequire.bind fun _ => Meets.bind (meets_always Driver.meets_interface) fun i => ?_
  exact ((hspeed _).pre fun _ hm => hm.1).bind fun _ => hstart

theorem keeps_startEngine (hspeed : ∀ phy, Driver.Keeps view (Driver.command c (.cfgSpeed phy)))
    (hstart : Driver.Keeps view (Driver.command c .emacStart)) : Keeps view (startEngine c) :=
  keeps_of_meets fun v => meets_startEngine (keeps_requireEngine.meets (· = v))
    (fun phy => (keeps_command (hspeed phy)).meets (· = v))
    ((keeps_command hstart).meets (· = v))

theorem meets_startTask
    (hspawn : ∀ spec, Driver.Meets (fun m => P m ∧ m.interface.task = none)
      (Driver.spawn c spec) fun
        | some handle => fun m => Q () { m with interface := m.interface.withTask handle }
        | none => E (.error .taskCreationFailed))
    (hexists : ∀ m, P m → m.interface.task.isSome = true → Q () m) :
    Meets P (startTask c) Q E := by
  unfold startTask
  refine Meets.bind (meets_always Driver.meets_interface) fun i => Meets.ite ?_ ?_
  · intro hnone
    refine Meets.bind (meets_always ((hspawn _).pre ?_)) ?_
    · rintro m ⟨hm, rfl⟩
      exact ⟨hm, Option.isNone_iff_eq_none.mp hnone⟩
    · rintro (_ | handle)
      · exact meets_fail fun _ hm => hm
      · exact meets_always fun m hm => hm
  · intro hsome
    refine meets_pure ?_
    rintro m ⟨hm, rfl⟩
    exact hexists m hm (by simpa [Option.isSome_iff_ne_none] using hsome)

theorem meets_awaitLink {R Q : Bool → Machine σ → Prop}
    (hrequire : Meets P requireEngine (fun _ => A) E)
    (hlink : ∀ phy maxWait, Driver.Meets A (Driver.checkLink c phy maxWait) R)
    (htask : Meets (R true) (startTask c) (fun _ => Q true) E)
    (hreport : ∀ entry, Driver.Meets (R false) (Driver.report entry) fun _ => Q false) :
    Meets P (awaitLink c) Q E := by
  unfold awaitLink
  refine hrequire.bind fun _ => Meets.bind (meets_always Driver.meets_interface) fun i => ?_
  refine Meets.bind (meets_always ((hlink _ _).pre fun _ hm => hm.1)) fun up => ?_
  cases up with
  | true => exact htask.bind fun _ => meets_pure fun _ hm => hm
  | false => exact Meets.bind (meets_always (hreport _)) fun _ => meets_pure fun _ hm => hm

theorem keeps_awaitLink (hspawn : ∀ spec, Driver.Keeps view (Driver.spawn c spec))
    (htask : ∀ handle, Driver.Keeps view (Driver.modifyInterface (·.withTask handle)))
    (hlink : ∀ phy maxWait, Driver.Keeps view (Driver.checkLink c phy maxWait))
    (hreport : ∀ entry, Driver.Keeps view (Driver.report entry)) : Keeps view (awaitLink c) := by
  refine keeps_of_meets fun v => meets_awaitLink (keeps_requireEngine.meets (· = v))
    (fun phy maxWait => (hlink phy maxWait).meets (· = v))
    (meets_startTask (fun spec => ?_) fun _ hm _ => hm) fun entry => (hreport entry).meets (· = v)
  refine ((hspawn spec).meets (· = v)).mono (fun _ hm => hm.1) ?_
  rintro (_ | handle) m hm
  · exact hm
  · exact (htask handle m).trans hm

end Attempt

end XgmacDriver
