import XgmacDriver.Proofs.ArenaStack
import XgmacDriver.Proofs.BringUpFilling

/-! # Retrying bring-up

A failed attempt keeps what it has drawn, and the next one draws again for every descriptor. So the
buffers that are left decide whether a favourable call succeeds after any number of failed ones,
unless only the link was still missing.
-/

namespace XgmacDriver

variable {σ : Type}

/-- Whether the receive descriptors have got their buffers before a stage. -/
def Stage.isFilled : Stage → Bool
  | engineStart | linkWait | ready => true
  | engineInit | linkPartnerInit | transferInit | failed => false

namespace StockView

/-- Whether a favourable call from here succeeds: either it has nothing to draw, or it can draw. -/
def CanFinish (n supply : Nat) (v : StockView) : Prop := v.stage = .linkWait ∨ v.HasRoom n supply

/-- An attempt that began with `v₀` has come to stage `s`. -/
structure At (n supply : Nat) (v₀ : StockView) (s : Stage) (v : StockView) : Prop extends
    Kept supply 0 v₀ v where
  engineOpen : s ≠ .engineInit → v.engineOpen = true
  unfilled : s.isFilled = false → v.drawn = v₀.drawn ∧ v₀.stage ≠ .linkWait
  filled : s.isFilled = true → v₀.CanFinish n supply

/-- Between two attempts: where the next one starts, and what it relies on there. -/
structure Resting (zeroCopy : Bool) (supply : Nat) (v : StockView) : Prop extends
    v.Stocked supply 0 where
  mode : v.zeroCopy = zeroCopy
  stage : v.stage = .engineInit ∨ v.stage = .failed ∨ v.stage = .linkWait
  engineOpen : v.stage = .linkWait → v.engineOpen = true

variable {n supply : Nat} {v₀ v : StockView} {s t : Stage}

theorem At.advance (h : At n supply v₀ s v) (hopen : v.engineOpen = true)
    (hfilled : t.isFilled = s.isFilled) : At n supply v₀ t v :=
  { h with
    engineOpen := fun _ => hopen
    unfilled := fun ht => h.unfilled (hfilled.symm.trans ht)
    filled := fun ht => h.filled (hfilled.symm.trans ht) }

theorem At.filling (h : At n supply v₀ .transferInit v) : Filling n supply v₀ 0 n v :=
  { h with
    engineOpen := h.engineOpen nofun
    drawn := congrArg (· + n) (h.unfilled rfl).1 }

theorem Filling.at_engineStart (h : Filling n supply v₀ 0 0 v) : At n supply v₀ .engineStart v := by
  have hroom : v₀.HasRoom n supply := by
    have hle := h.drawn_le
    rw [capacity, h.mode] at hle
    unfold HasRoom capacity
    rw [← h.drawn]
    exact hle
  exact { h with
    engineOpen := fun _ => h.engineOpen
    unfilled := fun hs => absurd hs (by decide)
    filled := fun _ => Or.inr hroom }

theorem Resting.at_entry {zeroCopy : Bool} (h : Resting zeroCopy supply v) :
    At n supply v v.stage.entry v := by
  have hstart : v.stage.entry = .engineInit ∧ v.stage ≠ .linkWait ∨ v.stage = .linkWait := by
    rcases h.stage with hs | hs | hs
    · simp [hs, Stage.entry]
    · simp [hs, Stage.entry]
    · exact Or.inr hs
  -- Only a call that finds the link missing begins after the descriptors have been filled.
  rcases hstart with ⟨hentry, hne⟩ | hs
  · rw [hentry]
    exact { h with
      stage := rfl
      mode := rfl
      engineOpen := fun hs => absurd rfl hs
      unfilled := fun _ => ⟨rfl, hne⟩
      filled := fun hs => absurd hs (by decide) }
  · rw [hs]
    exact { h with
      stage := rfl
      mode := rfl
      engineOpen := fun _ => h.engineOpen hs
      unfilled := fun hs => absurd hs (by decide)
      filled := fun _ => Or.inl hs }

end StockView

open StockView

variable {c : Collaborators σ} {zeroCopy : Bool} {n supply : Nat} {free : σ → Nat}
  {p : StockView → Prop} {v₀ : StockView}

namespace Attempt

/-! ## The stages -/

theorem stock_openEngine (hc : Undisturbed c v₀.zeroCopy n free) :
    Meets (OnStock free (At n supply v₀ .engineInit)) (openEngine c)
      (fun _ => OnStock free (At n supply v₀ .linkPartnerInit))
      (Stuck c free False (Kept supply 0 v₀)) := by
  have hstock : ∀ {m : Machine σ} {world opened},
      c.openEmac m.interface.index m.world = (opened, world) → Machine.stock free { m with
        trace := m.trace.push (.openEmac m.interface.index opened), world } = m.stock free := by
    intro m world opened hanswer
    have hfree := hc.openEmac m.interface.index m.world
    rw [hanswer] at hfree
    simp [Machine.stock, Machine.refilled, Exchange.refilled, hfree]
  refine meets_openEngine (fun m world hm hanswer => ?_) (fun m world hm hanswer => ?_)
    ((stock_command hc fun _ => rfl).mono (fun _ hm => hm) (fun _ _ hm => hm) fun _ _ h =>
      h.mono id fun _ hv => hv.toKept)
  · refine ⟨⟨_, rfl⟩, fun hfav => ?_, ?_⟩
    · cases (congrArg Prod.fst hanswer).symm.trans (hfav.openEmac _ _)
    · rw [OnStock, hstock hanswer]
      exact hm.toKept
  · show At n supply v₀ .linkPartnerInit
      { Machine.stock free { m with
          trace := m.trace.push (.openEmac m.interface.index true), world } with
        engineOpen := true }
    rw [hstock hanswer]
    exact { hm with
      engineOpen := fun _ => rfl
      unfilled := fun _ => hm.unfilled rfl
      filled := fun hs => absurd hs Bool.false_ne_true }

section

variable (hc : Undisturbed c zeroCopy n free) (hp : ∀ v, p v → v.engineOpen = true)
include hc hp

theorem stock_initLinkPartner :
    Meets (OnStock free p) (initLinkPartner c) (fun _ => OnStock free p)
      (Stuck c free False p) := by
  have hphy : ∀ f : σ → PhyRecord → PhyRecord,
      Meets (OnStock free p) (updatePhy f) (fun _ => OnStock free p) (Stuck c free False p) :=
    fun f => stock_always fun _ => rfl
  exact meets_initLinkPartner (stock_requireEngine hp) (fun _ => stock_command hc fun _ => rfl) hphy
    (fun _ => stock_command hc fun _ => rfl) hphy fun entry =>
      (Driver.keepsStock_report entry).meets p

theorem stock_startEngine :
    Meets (OnStock free p) (startEngine c) (fun _ => OnStock free p)
      (Stuck c free False p) :=
  meets_startEngine (stock_requireEngine hp) (fun _ => stock_command hc fun _ => rfl)
    (stock_command hc fun _ => rfl)

omit hp in
theorem stock_startTask :
    Meets (OnStock free p) (startTask c) (fun _ => OnStock free p)
      (Stuck c free False p) := by
  have hspawn : ∀ spec, Driver.Meets (OnStock free p) (Driver.spawn c spec) fun answer m =>
      (Favourable c → ∃ handle, answer = some handle) ∧ OnStock free p m := by
    intro spec m hm
    refine ⟨fun hfav => ?_, (Driver.keepsStock_spawn hc _).meets p m hm⟩
    rw [Driver.run_spawn]
    exact hfav.spawn _ _
  refine meets_startTask (fun spec => (hspawn spec).mono (fun _ hm => hm.1) ?_) fun _ hm _ => hm
  rintro (_ | handle) m hm
  · refine ⟨⟨_, rfl⟩, fun hfav => ?_, hm.2⟩
    obtain ⟨handle, hhandle⟩ := hm.1 hfav
    cases hhandle
  · exact hm.2

theorem stock_awaitLink :
    Meets (OnStock free p) (awaitLink c)
      (fun up m => (Favourable c → up = true) ∧ OnStock free p m)
      (Stuck c free False p) :=
  meets_awaitLink (stock_requireEngine hp) (Driver.stock_checkLink hc)
    ((stock_startTask hc).mono (fun _ hm => hm.2) (fun _ _ hm => ⟨fun _ => rfl, hm⟩)
      fun _ _ h => h)
    fun _ _ hm => hm

end

/-- A favourable call is stuck only for want of buffers, and it does not wait for the link. -/
def stockOutline (c : Collaborators σ) (n supply : Nat) (free : σ → Nat) (v₀ : StockView) :
    BringUpOutline σ where
  inTurn s := OnStock free (At n supply v₀ s)
  waiting m := ¬Favourable c ∧ OnStock free (At n supply v₀ .linkWait) m
  failed s := Stuck c free (s = .transferInit ∧ ¬v₀.CanFinish n supply) (Kept supply 0 v₀)

theorem stockOutline_sound (hc : Undisturbed c v₀.zeroCopy n free) :
    (stockOutline c n supply free v₀).Sound c where
  stage := by
    have hstuck : ∀ {α : Type} {x : Attempt σ α} {s : Stage} {Q : α → Machine σ → Prop},
        Meets (OnStock free (At n supply v₀ s)) x Q (Stuck c free False (At n supply v₀ s)) →
        Meets (OnStock free (At n supply v₀ s)) x Q
          (Stuck c free (s = .transferInit ∧ ¬v₀.CanFinish n supply) (Kept supply 0 v₀)) :=
      fun hx => hx.mono (fun _ hm => hm) (fun _ _ hm => hm)
        fun _ _ h => h.mono False.elim fun _ hv => hv.toKept
    have hopen : ∀ s : Stage, s ≠ .engineInit → ∀ v, At n supply v₀ s v → v.engineOpen = true :=
      fun _ hs _ hv => hv.engineOpen hs
    refine BringUpOutline.meets_runStage
      ((stock_openEngine hc).mono (fun _ hm => hm) (fun _ _ hm => hm)
        fun _ _ h => h.mono False.elim fun _ hv => hv)
      ((hstuck (stock_initLinkPartner hc (hopen .linkPartnerInit (by decide)))).post
        fun _ _ hm => ?_) ?_
      ((hstuck (stock_startEngine hc (hopen .engineStart (by decide)))).post fun _ _ hm => ?_)
      ((hstuck (stock_awaitLink hc (hopen .linkWait (by decide)))).post ?_)
    · exact At.advance hm (hm.engineOpen (by decide)) rfl
    · refine Meets.assuming (fun _ hm => (hm.unfilled rfl).2) fun hstage => ?_
      refine (stock_initTransfer hc).mono (fun _ hm => hm.filling)
        (fun _ _ hm => Filling.at_engineStart hm) fun _ _ h =>
          h.mono (fun hfull => ?_) fun _ hv => hv
      exact ⟨rfl, fun hcan => hcan.elim hstage hfull⟩
    · exact At.advance hm (hm.engineOpen (by decide)) rfl
    · rintro (_ | _) m hm
      · exact ⟨fun hfav => Bool.false_ne_true (hm.1 hfav), hm.2⟩
      · exact At.advance hm.2 (hm.2.engineOpen (by decide)) rfl
  report _ _ _ hm := hm
  report_failed _ _ _ _ hm := hm

/-- A call that begins with `v₀` returns only from a stock with room. Otherwise the next call finds
all that it needs except buffers, and a favourable one fails for want of them only. -/
theorem stock_initialise (hmode : v₀.zeroCopy = zeroCopy) (hc : Undisturbed c zeroCopy n free) :
    Meets (OnStock free fun v => Resting zeroCopy supply v ∧ v = v₀) (initialise c)
      (fun _ m => m.interface.stage = .ready ∧ v₀.CanFinish n supply)
      (fun f m => OnStock free (Resting zeroCopy supply) m ∧ (Favourable c →
        f = .error (.initFailed .transferInit) ∧ m.interface.stage = .failed ∧
          ¬v₀.CanFinish n supply)) := by
  subst hmode
  refine (stockOutline_sound hc).initialise ?_ ?_ ?_ (fun m hm => ⟨rfl, hm.filled rfl⟩) ?_
  · rintro s e m - ⟨-, hfull, hkept⟩
    refine ⟨{ hkept with stage := Or.inr (Or.inl rfl), engineOpen := nofun }, fun hfav => ?_⟩
    obtain ⟨rfl, hcan⟩ := hfull hfav
    exact ⟨rfl, rfl, hcan⟩
  · rintro s h m ⟨⟨e, he⟩, -⟩
    cases he
  · rintro m ⟨hresting, rfl⟩
    exact hresting.at_entry
  · rintro m ⟨hfav, hat⟩
    refine ⟨{ hat with stage := Or.inr (Or.inr rfl), engineOpen := fun _ => ?_ }, fun h => ?_⟩
    · exact hat.engineOpen nofun
    · exact absurd h hfav

end Attempt

/-! ## Any number of attempts -/

/-- The machines between calls of `initialise` none of which has made the interface ready. The
collaborators may differ from call to call, and between two calls anything may happen that leaves
the interface, its exchanges and the stack's free buffers alone. -/
inductive Attempts (zeroCopy : Bool) (n supply : Nat) (free : σ → Nat) : Machine σ → Prop
  | fresh {index : UInt8} {config : Config} {interface : Interface} {clock : Clock}
      {memory : Memory} {log : Array LogEntry} {world : σ} :
      Interface.register index config = .ok interface → config.zeroCopyRx = zeroCopy →
      free world = supply →
      Attempts zeroCopy n supply free
        { interface, engine := {}, clock, memory, trace := #[], log, world }
  | call {c : Collaborators σ} {m : Machine σ} : Attempts zeroCopy n supply free m →
      Undisturbed c zeroCopy n free →
      ((Attempt.initialise c).run.run m).2.interface.stage ≠ .ready →
      Attempts zeroCopy n supply free ((Attempt.initialise c).run.run m).2
  | idle {m m' : Machine σ} : Attempts zeroCopy n supply free m → m'.interface = m.interface →
      m'.trace = m.trace → free m'.world = free m.world → Attempts zeroCopy n supply free m'

theorem Attempts.resting {m : Machine σ} (h : Attempts zeroCopy n supply free m) :
    Resting zeroCopy supply (m.stock free) := by
  induction h with
  | @fresh index config interface clock memory log world hregister hmode hsupply =>
      obtain rfl := Interface.eq_of_register hregister
      refine ⟨⟨.new "Tx", .new "Rx", nofun, fun _ _ => rfl, fun _ => ?_⟩, hmode, Or.inl rfl, nofun⟩
      exact hsupply
  | @call c m _ hc hunready ih =>
      rcases hrun : (Attempt.initialise c).run.run m with ⟨f | ⟨⟩, m'⟩
      · exact ((Attempt.stock_initialise ih.mode hc).outcome ⟨ih, rfl⟩ hrun).1
      · have hready := ((Attempt.stock_initialise ih.mode hc).outcome ⟨ih, rfl⟩ hrun).1
        rw [hrun] at hunready
        exact absurd hready hunready
  | @idle m m' _ hinterface htrace hfree ih =>
      have hstock : m'.stock free = m.stock free := by
        simp only [Machine.stock, Machine.refilled, hinterface, htrace, hfree]
      rw [hstock]
      exact ih

/-- After any failed attempts a favourable call succeeds if only the link was missing, or if the
buffers that the stock has left are enough for all descriptors. Otherwise it fails where it draws
them, because what failed attempts have drawn does not come back. -/
theorem Attempts.initialise_ok_iff {m m' : Machine σ} {result : Except Failure Unit}
    (h : Attempts zeroCopy n supply free m) (hc : Undisturbed c zeroCopy n free)
    (hfav : Favourable c)
    (hrun : (Attempt.initialise c).run.run m = (result, m')) :
    (result = .ok () ↔ m.interface.stage = .linkWait ∨
      m.refilled.length + n ≤ if m.interface.config.zeroCopyRx then supply else poolSlots) ∧
    (result = .ok () → m'.interface.stage = .ready) ∧
    (result ≠ .ok () → result = .error (.error (.initFailed .transferInit)) ∧
      m'.interface.stage = .failed) := by
  have hend := (Attempt.stock_initialise h.resting.mode hc).outcome ⟨h.resting, rfl⟩ hrun
  cases result with
  | ok =>
      obtain ⟨hready, hcan⟩ := hend
      exact ⟨⟨fun _ => hcan, fun _ => rfl⟩, fun _ => hready, fun hne => absurd rfl hne⟩
  | error f =>
      obtain ⟨rfl, hfailed, hcan⟩ := hend.2 hfav
      exact ⟨⟨nofun, fun h => absurd h hcan⟩, nofun, fun _ => ⟨rfl, hfailed⟩⟩

/-- A world that consists of the number of buffers that the stack has left. The engine has two
receive descriptors, and its answer to a command is always the same. -/
def Collaborators.ofStock (answer : Command → Except EngineStatus Unit) : Collaborators Nat where
  openEmac _ w := (true, w)
  command _ k w := (answer k, w)
  discovered _ phy := phy
  negotiated _ phy := phy
  readPhy _ _ w := (linkBit, w)
  rxDescriptors _ := 2
  getBuffer _ _
    | 0 => (none, 0)
    | w + 1 => (some ⟨UInt16.ofNat w, some (regionStart.add (2048 * w)), maxPacketSize, 0⟩, w)
  releaseBuffer _ w := (true, w + 1)
  considerFrame _ w := (.process, w)
  matchEndpoint _ _ w := (none, w)
  lookup _ w := (none, w)
  sendRxEvent _ _ w := (true, w)
  spawn _ w := (some 1, w)
  duringWait _ w := ([], w)
  allocate _ _ _ := some regionStart
  lock _ _ := .free

theorem undisturbed_ofStock (zeroCopy : Bool) (answer : Command → Except EngineStatus Unit) :
    Undisturbed (.ofStock answer) zeroCopy 2 id where
  rxDescriptors _ := rfl
  lock _ _ := rfl
  openEmac _ _ := rfl
  command _ _ _ := rfl
  readPhy _ _ _ := rfl
  spawn _ _ := rfl
  getBuffer_none {_ w _} h := by cases w <;> cases h; exact ⟨rfl, rfl⟩
  getBuffer_some {_ w _ _} h := by cases w <;> cases h; exact ⟨⟨_, rfl⟩, rfl⟩

theorem favourable_ofStock : Favourable (.ofStock fun _ => .ok ()) where
  openEmac _ _ := rfl
  command _ _ _ := rfl
  readPhy _ _ := show linkUp linkBit = true by decide
  spawn _ _ := ⟨_, rfl⟩
  allocate _ _ := ⟨_, rfl⟩

/-- The stack has three buffers, one more than descriptors, and the first attempt fails when the
speed is set. -/
def failedMachine : Machine Nat :=
  let refuse : Command → Except EngineStatus Unit
    | .cfgSpeed _ => .error ⟨1⟩
    | _ => .ok ()
  ((Attempt.initialise (.ofStock refuse)).run.run {
    interface := { index := 0, config := .zeroCopy }
    engine := {}
    clock := .startingAt 0 0
    memory := .zeroed
    trace := #[]
    log := #[]
    world := 3 }).2

theorem Attempts.initialise_ok_iff_short_of_one :
    failedMachine.refilled.length = 2 ∧
      ((Attempt.initialise (.ofStock fun _ => .ok ())).run.run failedMachine).1 =
        .error (.error (.initFailed .transferInit)) := by
  have hunready : failedMachine.interface.stage ≠ .ready := by decide +kernel
  have hdrawn : failedMachine.refilled.length = 2 := by decide +kernel
  have hfailed : Attempts true 2 3 id failedMachine :=
    .call (.fresh (show Interface.register 0 .zeroCopy = .ok _ from rfl) rfl rfl)
      (undisturbed_ofStock true _) hunready
  have hstage : failedMachine.interface.stage ≠ .linkWait := by decide +kernel
  have hconfig : failedMachine.interface.config.zeroCopyRx = true := by decide +kernel
  obtain ⟨hiff, -, herror⟩ :=
    Attempts.initialise_ok_iff hfailed (undisturbed_ofStock true _) favourable_ofStock rfl
  refine ⟨hdrawn, (herror fun hok => ?_).1⟩
  rcases hiff.mp hok with hlink | hroom
  · exact hstage hlink
  · rw [hdrawn, hconfig] at hroom
    exact absurd hroom (by decide)

end XgmacDriver
