import XgmacDriver.Proofs.FrameArrival
import XgmacDriver.Proofs.FrameDelivery

/-! # Receiving with and without copying

After bring-up bursts of frames arrive, each followed by a drain. What a drain counts and hands up
depends on the frames, on the number of posted buffers and on how the stack classifies frames, and
not on whether frames are copied. It does for a frame of which less was written than its size says:
behind it a slot that is used again has bytes of an earlier frame, and a fresh buffer has not.
-/

namespace XgmacDriver

variable {σ π : Type}

/-- A burst arrives and is drained; how many frames the stack took. -/
def Driver.receiveBurst (c : Collaborators σ) (frames : List WireFrame) : Driver σ Nat := do
  frames.forM fun f => do let _ ← f.land
  processReceived c

/-- A round of a session: the frames of a burst, and how far the stack had come with classifying. -/
structure Round (π : Type) where
  state : π
  frames : List WireFrame

/-- What comes of a round: the result of the drain, and what was handed up. -/
structure Harvest where
  count : Nat
  parcels : List Parcel
deriving DecidableEq

/-- What comes of a round with `n` posted buffers. -/
def Round.harvest (K : Classifier π) (setup : Setup) (n : Nat) (r : Round π) : Harvest :=
  let parcels := K.parcels setup.config.filterFrames setup.index
    ((r.frames.take n).map WireFrame.stored) r.state
  ⟨parcels.length, parcels⟩

variable {c : Collaborators σ} {arena : σ → Arena} {K : Classifier π} {state : σ → π}
  {setup : Setup} {n count : Nat} {m m' : Machine σ} {frames : List WireFrame}
  {done : List Landed}

def Round.burst (r : Round π) (K : Classifier π)
    (hroom : maxPacketSize ≤ setup.start.payloadCapacity)
    (harmed : (m.receiveView arena).Armed setup n) : Burst π where
  interface := m.interface
  classifier := K
  start := setup.start
  ring := m.engine.posted
  since := m.trace.size
  total := (r.harvest K setup n).parcels
  room := hroom
  apart := harmed.clear

theorem Driver.Landing.reception (hroom : maxPacketSize ≤ setup.start.payloadCapacity)
    (harmed : (m.receiveView arena).Armed setup n) (hlanding : Driver.Landing m frames [] done m') :
    let b := Round.burst ⟨state m.world, frames⟩ K hroom harmed
    Reception arena state b (.between done [] 0 (b.due done)) m' := by
  intro b
  have hnone : m'.parcels b.since = [] := by
    rw [Machine.parcels, Machine.since, hlanding.trace]
    exact congrArg _ m.since_size
  have hring : (Standing.ring (.between done [] 0 (b.due done)) m').Perm m.engine.posted := by
    rw [← hlanding.ring]
    simpa [Standing.ring, Standing.between] using List.perm_append_comm
  obtain ⟨outside, howned⟩ := harmed.owned
  refine ⟨hlanding.interface, hlanding.completed, ?_, ⟨hring.length_eq, fun _ => hring⟩,
    ⟨outside, ?_⟩, fun _ hf => absurd hf List.not_mem_nil, hlanding.landed,
    congrArg List.length hnone, ?_⟩
  · rw [hlanding.world]
    exact harmed.geometry
  · rw [hlanding.world]
    have hlent : (b.lent (Standing.ring (.between done [] 0 (b.due done)) m')).Perm
        ((m.receiveView arena).lent []) := by
      refine (b.lent_perm hring).trans (List.Perm.of_eq ?_)
      simp [Burst.lent, ReceiveView.lent, b, Round.burst, Machine.receiveView]
    refine howned.congr (List.Perm.append_right _ ?_)
    simpa [Standing.between, payloadsOf] using hlent.symm
  · rw [hnone, hlanding.world]
    have hstored := hlanding.stored
    rw [List.take_nil, List.map_nil, List.append_nil] at hstored
    have hcount : m.engine.posted.length = n := harmed.count
    have hfilter : m.interface.config = setup.config := harmed.config_eq
    have hindex : m.interface.index = setup.index := harmed.index_eq
    simp only [Standing.between, Burst.due, b, Round.burst, Round.harvest, hstored, hcount, hfilter,
      hindex, List.map_nil, List.nil_append]

theorem Reception.armed {r : Round π} {hroom : maxPacketSize ≤ setup.start.payloadCapacity}
    {harmed : (m.receiveView arena).Armed setup n}
    (h : Reception arena state (r.burst K hroom harmed) (.between [] [] count fun _ => []) m') :
    (m'.receiveView arena).Armed setup n := by
  have hinterface : m'.interface = m.interface := h.interface
  have hring : (r.burst K hroom harmed).Ring m'.engine.posted := by
    simpa [Standing.ring, Standing.between] using h.ring
  have hsame : m.interface.config.zeroCopyRx = false → m'.engine.posted.Perm m.engine.posted :=
    hring.perm
  obtain ⟨outside, howned⟩ := h.owned
  constructor
  case index_eq => exact (congrArg Interface.index hinterface).trans harmed.index_eq
  case config_eq => exact (congrArg Interface.config hinterface).trans harmed.config_eq
  case opened =>
      intro hposted
      refine (congrArg Interface.engineOpen hinterface).trans
        (harmed.opened fun hnone => hposted ?_)
      have hlength : m'.engine.posted.length = m.engine.posted.length := hring.length_eq
      rw [show m.engine.posted = [] from hnone] at hlength
      exact List.length_eq_zero_iff.mp hlength
  case completed_eq => exact h.completed
  case count => exact hring.length_eq.trans harmed.count
  case geometry => exact h.slots
  case owned =>
      refine ⟨outside, ?_⟩
      have hlent : (m'.receiveView arena).lent [] =
          (r.burst K hroom harmed).lent m'.engine.posted := by
        show (if m'.interface.config.zeroCopyRx then m'.engine.posted ++ [] else []) = _
        rw [hinterface, List.append_nil]
        rfl
      rw [hlent]
      show (arena m'.world).Partition _
      simpa [Standing.ring, Standing.between, payloadsOf] using howned
  case pairwise =>
      intro hcopying
      have hcopying : m.interface.config.zeroCopyRx = false := by
        rw [← hinterface]
        exact hcopying
      exact (hsame hcopying).symm.pairwise (harmed.pairwise hcopying) Addr.Apart.symm
  case clear =>
      intro hcopying a ha
      have hcopying : m.interface.config.zeroCopyRx = false := by
        rw [← hinterface]
        exact hcopying
      exact harmed.clear hcopying a ((hsame hcopying).mem_iff.mp ha)

section

variable (hstack : ReceiveStack c arena setup) (hclass : Classifies c K state)
include hstack hclass

/-- What comes of a burst does not depend on the way of receiving, and the next one can arrive. -/
theorem Driver.receiveBurst_harvest (harmed : (m.receiveView arena).Armed setup n)
    (hwhole : ∀ f ∈ frames, f.Whole) (hrun : (count, m') = (receiveBurst c frames).run m)
    (hprovided : m'.Provided m.trace.size) :
    Harvest.mk count (m'.parcels m.trace.size) =
        Round.harvest K setup n ⟨state m.world, frames⟩ ∧
      (m'.receiveView arena).Armed setup n := by
  obtain ⟨done, hlanding⟩ :=
    meets_arrival hwhole (harmed.apart hstack.room) harmed.completed_eq m rfl
  set landed := ((frames.forM fun f => do let _ ← f.land).run m).2
  have hopen : done ≠ [] → landed.interface.engineOpen = true := by
    intro hdone
    rw [hlanding.interface]
    refine harmed.opened fun hnone => hdone ?_
    have hring := hlanding.ring
    rw [show m.engine.posted = [] from hnone] at hring
    exact List.map_eq_nil_iff.mp (List.append_eq_nil_iff.mp hring).1
  obtain ⟨hcount, hparcels, hend⟩ := processReceived_delivers (m := landed)
    hstack.toArenaStack hclass hopen (hlanding.reception hstack.room harmed)
    (congrArg Array.size hlanding.trace).symm hrun hprovided
  exact ⟨congrArg₂ Harvest.mk hcount hparcels, hend.armed⟩

end

/-! ## Sessions -/

/-- What may happen between two calls: the stack gives and takes buffers, but not the posted ones,
and no frame arrives. -/
structure Meanwhile (arena : σ → Arena) (m m' : Machine σ) : Prop where
  stage : m'.interface.stage = m.interface.stage
  view : m'.receiveView arena = { m.receiveView arena with arena := arena m'.world }
  slots : (arena m.world).SameSlots (arena m'.world)
  owned : ∃ outside, (arena m'.world).Partition ((m.receiveView arena).lent [] ++ outside)

/-- The machines between two calls of `initialise`, from the registration on. An interface is
`clean` if no call has failed, except for want of a link. -/
inductive BringUp (c : Collaborators σ) (arena : σ → Arena) (setup : Setup) :
    (clean : Bool) → Machine σ → Prop
  | fresh {m : Machine σ} {outside : List Addr} :
      Interface.register setup.index setup.config = .ok m.interface → m.engine = {} →
      setup.start.SameSlots (arena m.world) → (arena m.world).Partition outside →
      BringUp c arena setup true m
  | call {clean : Bool} {m : Machine σ} {result : Except Failure Unit} :
      BringUp c arena setup clean m → result = ((Attempt.initialise c).run.run m).1 →
      result = .ok () ∨ result = .error (.error .linkDown) →
      BringUp c arena setup clean ((Attempt.initialise c).run.run m).2
  | failure {clean : Bool} {m : Machine σ} : BringUp c arena setup clean m →
      BringUp c arena setup false ((Attempt.initialise c).run.run m).2
  | meanwhile {clean : Bool} {m m' : Machine σ} : BringUp c arena setup clean m →
      Meanwhile arena m m' → BringUp c arena setup clean m'

/-- The rounds of an interface that is ready and has `n` posted buffers, which it has if the engine
has `n` descriptors and no call has failed. In a round every request is granted. -/
inductive Session (c : Collaborators σ) (arena : σ → Arena) (state : σ → π) (setup : Setup)
    (n : Nat) : List (Round π) → List Harvest → Machine σ → Prop
  | start {m : Machine σ} : BringUp c arena setup true m → m.interface.stage = .ready →
      (∀ w, c.rxDescriptors w = n) → Session c arena state setup n [] [] m
  | restart {m : Machine σ} : BringUp c arena setup false m → m.interface.stage = .ready →
      m.engine.posted.length = n → Session c arena state setup n [] [] m
  | meanwhile {rounds : List (Round π)} {harvests : List Harvest} {m m' : Machine σ} :
      Session c arena state setup n rounds harvests m → Meanwhile arena m m' →
      Session c arena state setup n rounds harvests m'
  | round {rounds : List (Round π)} {harvests : List Harvest} {m m' : Machine σ} {count : Nat}
      {frames : List WireFrame} : Session c arena state setup n rounds harvests m →
      (count, m') = (Driver.receiveBurst c frames).run m → m'.Provided m.trace.size →
      Session c arena state setup n (rounds ++ [⟨state m.world, frames⟩])
        (harvests ++ [⟨count, m'.parcels m.trace.size⟩]) m'

theorem supplied_of_register {outside : List Addr}
    (hregister : Interface.register setup.index setup.config = .ok m.interface)
    (hengine : m.engine = {}) (hslots : setup.start.SameSlots (arena m.world))
    (howned : (arena m.world).Partition outside) :
    (m.receiveView arena).Supplied setup [] := by
  have hinterface := Interface.eq_of_register hregister
  have hposted : (m.receiveView arena).posted = [] := congrArg Engine.posted hengine
  have hpool : (m.receiveView arena).rxPool = .new "Rx" poolSlots maxPacketSize :=
    congrArg Interface.rxPool hinterface
  have hlent : (m.receiveView arena).lent [] = [] := by simp [ReceiveView.lent, hposted]
  refine ⟨congrArg Interface.index hinterface, congrArg Interface.config hinterface,
    fun hne => absurd hposted hne, congrArg Engine.completed hengine, ?_, hslots, ⟨outside, ?_⟩,
    ?_, ?_⟩
  · rw [hpool]
    exact .new "Rx"
  · rw [hlent]
    exact howned
  · intro _ _
    rw [hposted]
    rfl
  · intro _ hready
    rw [hpool] at hready
    cases hready

theorem Meanwhile.supplied (h : Meanwhile arena m m')
    (hsupplied : (m.receiveView arena).Supplied setup []) :
    (m'.receiveView arena).Supplied setup [] := by
  rw [h.view]
  exact { hsupplied with geometry := hsupplied.geometry.trans h.slots, owned := h.owned }

theorem Meanwhile.armed (h : Meanwhile arena m m') (harmed : (m.receiveView arena).Armed setup n) :
    (m'.receiveView arena).Armed setup n := by
  rw [h.view]
  exact { harmed with geometry := harmed.geometry.trans h.slots, owned := h.owned }

section

variable (hstack : ReceiveStack c arena setup)
include hstack

theorem BringUp.atStage {clean : Bool} {P : Prop} (h : BringUp c arena setup clean m)
    (hn : P → clean = true ∧ ∀ w, c.rxDescriptors w = n) :
    OnReceive arena (AtStage setup n P m.interface.stage.entry) m := by
  induction h with
  | @fresh m outside hregister hengine hslots howned =>
      have hposted : (m.receiveView arena).posted = [] := congrArg Engine.posted hengine
      rw [Interface.eq_of_register hregister]
      exact ⟨supplied_of_register hregister hengine hslots howned, fun _ => by rw [hposted]; rfl⟩
  | @call clean m result _ hresult hending ih =>
      have hend := Attempt.supplied_initialise hstack (fun hP => (hn hP).2) m (ih hn)
      rw [← hresult] at hend
      rcases hending with rfl | rfl
      · obtain ⟨hstage, hready⟩ := hend
        rw [hstage]
        exact hready
      · obtain ⟨hstage, hwaiting⟩ := hend.2 rfl
        rw [hstage]
        exact hwaiting
  | @failure clean m _ ih =>
      -- From here on nothing is said of how many buffers are posted.
      have hnone : ¬P := fun hP => Bool.false_ne_true (hn hP).1
      have hcall := Attempt.supplied_initialise hstack fun hP => (hn hP).2
      have hsupplied : OnReceive arena (ReceiveView.Supplied setup [])
          ((Attempt.initialise c).run.run m).2 := by
        refine (hcall.mono (fun _ hm => hm) (fun _ _ hm => hm.2.toSupplied)
          fun _ _ hm => hm.1).afterwards ?_
        exact ih fun hP => absurd hP hnone
      exact { hsupplied with count := fun hP => absurd hP hnone }
  | @meanwhile clean m m' _ hmeanwhile ih =>
      have hstage := ih hn
      have hposted : (m'.receiveView arena).posted = (m.receiveView arena).posted := by
        rw [hmeanwhile.view]
      rw [hmeanwhile.stage]
      refine { hmeanwhile.supplied hstage.toSupplied with count := fun hP => ?_ }
      rw [hposted]
      exact hstage.count hP

/-- Every round comes out as its frames say, by induction on the session. -/
theorem Session.harvests_eq {rounds : List (Round π)} {harvests : List Harvest}
    (hclass : Classifies c K state) (hwhole : ∀ r ∈ rounds, ∀ f ∈ r.frames, f.Whole)
    (h : Session c arena state setup n rounds harvests m) :
    harvests = rounds.map (Round.harvest K setup n) ∧ (m.receiveView arena).Armed setup n := by
  induction h with
  | @start m hbringUp hstage hn =>
      have hready := hbringUp.atStage hstack (P := True) fun _ => ⟨rfl, hn⟩
      rw [hstage] at hready
      exact ⟨rfl, hready.toSupplied.armed hstack.room (hready.count trivial)⟩
  | @restart m hbringUp hstage hposted =>
      have hready := hbringUp.atStage hstack (P := False) (n := n) False.elim
      exact ⟨rfl, hready.toSupplied.armed hstack.room hposted⟩
  | meanwhile _ hmeanwhile ih =>
      obtain ⟨hharvests, harmed⟩ := ih hwhole
      exact ⟨hharvests, hmeanwhile.armed harmed⟩
  | @round rounds harvests m m' count frames _ hrun hprovided ih =>
      obtain ⟨rfl, harmed⟩ := ih fun r hr => hwhole r (List.mem_append_left _ hr)
      have hframes : ∀ f ∈ frames, f.Whole := hwhole ⟨state m.world, frames⟩ (by simp)
      obtain ⟨hharvest, harmed'⟩ :=
        Driver.receiveBurst_harvest hstack hclass harmed hframes hrun hprovided
      refine ⟨?_, harmed'⟩
      rw [List.map_append, hharvest]
      rfl

end

/-! ## One descriptor -/

/-- An engine with one descriptor, and a stack that takes every frame. -/
def oneDescriptor : Collaborators Arena :=
  { Collaborators.ofArena (.ok ()) true with rxDescriptors := fun _ => 1 }

def oneDescriptorSetup (zeroCopyRx : Bool) : Setup where
  index := 0
  config := { zeroCopyTx := true, zeroCopyRx }
  start := .ofRegion (regionStart.add (poolSlots * maxPacketSize)) 4 2048

theorem receiveStack_oneDescriptor (zeroCopyRx : Bool) :
    ReceiveStack oneDescriptor id (oneDescriptorSetup zeroCopyRx) where
  getBuffer_none h := Or.inr h
  getBuffer_some h := ⟨_, h, rfl, Or.inl rfl⟩
  releaseBuffer h := h
  lookup h := by cases h; exact ⟨rfl, rfl⟩
  command h := by cases h; rfl
  considerFrame h := by cases h; rfl
  matchEndpoint h := by cases h; rfl
  sendRxEvent h := by cases h; rfl
  openEmac _ _ := rfl
  readPhy _ _ _ := rfl
  spawn _ _ := rfl
  room := (by decide : maxPacketSize ≤ 2048 - bufferPadding)
  allocate _ _ _ h := by cases h; exact Or.inl (Nat.le_refl _)

/-- All frames are wanted, and none is matched to an endpoint. -/
def unmatched : Classifier Unit where
  consider _ _ := (.process, ())
  endpoint _ _ _ := (none, ())

theorem classifies_oneDescriptor : Classifies oneDescriptor unmatched fun _ => () where
  considerFrame _ _ := ⟨rfl, rfl⟩
  matchEndpoint _ _ _ := ⟨rfl, rfl⟩
  getBuffer _ _ _ := rfl
  lookup _ _ := rfl
  refill _ _ _ := rfl
  sendRxEvent _ _ _ := rfl

def unreadyMachine (zeroCopyRx : Bool) : Machine Arena where
  interface := { index := 0, config := { zeroCopyTx := true, zeroCopyRx } }
  engine := {}
  clock := .startingAt 0 0
  memory := .zeroed
  trace := #[]
  log := #[]
  world := (oneDescriptorSetup zeroCopyRx).start

def vacantMachine : Machine Arena :=
  Attempt.beforeTransfer oneDescriptor (unreadyMachine false)

/-- The receive pool is there already. -/
def filledMachine : Machine Arena :=
  { vacantMachine with
    interface := vacantMachine.interface.setPool (.filled "Rx" regionStart) .rx }

def oneDescriptorMachine : (zeroCopyRx : Bool) → Machine Arena
  | false => Attempt.afterTransfer oneDescriptor filledMachine
  | true => ((Attempt.initialise oneDescriptor).run.run (unreadyMachine true)).2

theorem run_oneDescriptor (zeroCopyRx : Bool) :
    (Attempt.initialise oneDescriptor).run.run (unreadyMachine zeroCopyRx) =
      (.ok (), oneDescriptorMachine zeroCopyRx) := by
  cases zeroCopyRx with
  | true => exact Prod.ext (by decide +kernel) rfl
  | false =>
      -- To run through the creation of all slots would take long, so the pool is put in by hand.
      have hpool : (Attempt.runStage oneDescriptor .transferInit).run.run vacantMachine =
          (Attempt.runStage oneDescriptor .transferInit).run.run filledMachine :=
        Attempt.run_transferInit_of_create rfl rfl rfl rfl (Pool.create_filled rfl rfl) rfl
      exact Attempt.run_initialise_of_transfer rfl (by decide +kernel) (by decide +kernel) hpool
        (by decide +kernel)

def afterBurst (m : Machine Arena) (f : WireFrame) : Machine Arena :=
  ((Driver.receiveBurst oneDescriptor [f]).run m).2

/-- What comes of bursts of one frame each. -/
def harvestsOf : List WireFrame → Machine Arena → List Harvest
  | [], _ => []
  | f :: fs, m =>
      ⟨((Driver.receiveBurst oneDescriptor [f]).run m).1, (afterBurst m f).parcels m.trace.size⟩ ::
        harvestsOf fs (afterBurst m f)

def granted : List WireFrame → Machine Arena → Bool
  | [], _ => true
  | f :: fs, m => decide ((afterBurst m f).Provided m.trace.size) && granted fs (afterBurst m f)

def roundsOf (fs : List WireFrame) : List (Round Unit) := fs.map fun f => ⟨(), [f]⟩

theorem Session.bursts {zeroCopyRx : Bool} {fs : List WireFrame} {rounds : List (Round Unit)}
    {harvests : List Harvest} {m : Machine Arena}
    (h : Session oneDescriptor id (fun _ => ()) (oneDescriptorSetup zeroCopyRx) 1 rounds harvests m)
    (hgranted : granted fs m = true) :
    ∃ m', Session oneDescriptor id (fun _ => ()) (oneDescriptorSetup zeroCopyRx) 1
      (rounds ++ roundsOf fs) (harvests ++ harvestsOf fs m) m' := by
  induction fs generalizing rounds harvests m with
  | nil => exact ⟨m, by simpa [roundsOf, harvestsOf] using h⟩
  | cons f fs ih =>
      obtain ⟨hprovided, hrest⟩ : (afterBurst m f).Provided m.trace.size ∧
          granted fs (afterBurst m f) = true := by
        simpa [granted] using hgranted
      have hrun : (((Driver.receiveBurst oneDescriptor [f]).run m).1, afterBurst m f) =
          (Driver.receiveBurst oneDescriptor [f]).run m := rfl
      obtain ⟨m', hsession⟩ := ih (h.round hrun hprovided) hrest
      refine ⟨m', ?_⟩
      simpa [roundsOf, harvestsOf] using hsession

theorem session_oneDescriptor (zeroCopyRx : Bool) (fs : List WireFrame)
    (hgranted : granted fs (oneDescriptorMachine zeroCopyRx) = true) :
    ∃ m, Session oneDescriptor id (fun _ => ()) (oneDescriptorSetup zeroCopyRx) 1 (roundsOf fs)
      (harvestsOf fs (oneDescriptorMachine zeroCopyRx)) m := by
  have hfresh : BringUp oneDescriptor id (oneDescriptorSetup zeroCopyRx) true
      (unreadyMachine zeroCopyRx) :=
    .fresh rfl rfl (.refl _) (Arena.partition_ofRegion (by decide))
  have hup := hfresh.call rfl
  rw [run_oneDescriptor] at hup
  refine (Session.start (hup (Or.inl rfl)) ?_ fun _ => rfl).bursts hgranted
  cases zeroCopyRx with
  | false => rfl
  | true => decide +kernel

def wholeFrame (b : UInt8) : WireFrame := ⟨List.replicate 64 b, 64, 0⟩

theorem whole_wholeFrame (b : UInt8) : (wholeFrame b).Whole := by
  intro _
  rw [wholeFrame, List.length_replicate]
  exact Nat.min_le_left 64 _

/-- Of this frame less was written than its size says. -/
def shortFrame : WireFrame := ⟨List.replicate 20 2, 64, 0⟩

/-! ## Two interfaces -/

/-- The same rounds come out the same for two interfaces that classify frames alike and have equally
many posted buffers, whether either of them copies or not. -/
theorem Session.harvests_congr {τ : Type} {d : Collaborators τ} {arena' : τ → Arena}
    {state' : τ → π} {setup' : Setup} {rounds : List (Round π)} {harvests harvests' : List Harvest}
    {m' : Machine τ} (hstack : ReceiveStack c arena setup) (hstack' : ReceiveStack d arena' setup')
    (hclass : Classifies c K state) (hclass' : Classifies d K state')
    (hindex : setup.index = setup'.index)
    (hfilter : setup.config.filterFrames = setup'.config.filterFrames)
    (hwhole : ∀ r ∈ rounds, ∀ f ∈ r.frames, f.Whole)
    (h : Session c arena state setup n rounds harvests m)
    (h' : Session d arena' state' setup' n rounds harvests' m') : harvests = harvests' := by
  have hsame : Round.harvest K setup n = Round.harvest K setup' n := by
    funext r
    simp only [Round.harvest, hindex, hfilter]
  calc
    harvests = rounds.map (Round.harvest K setup n) := (h.harvests_eq hstack hclass hwhole).1
    _ = rounds.map (Round.harvest K setup' n) := by rw [hsame]
    _ = harvests' := (h'.harvests_eq hstack' hclass' hwhole).1.symm

theorem Session.harvests_congr_two_rounds :
    harvestsOf [wholeFrame 1, wholeFrame 2] (oneDescriptorMachine false) =
      harvestsOf [wholeFrame 1, wholeFrame 2] (oneDescriptorMachine true) := by
  obtain ⟨m, hcopying⟩ :=
    session_oneDescriptor false [wholeFrame 1, wholeFrame 2] (by decide +kernel)
  obtain ⟨m', hzeroCopy⟩ :=
    session_oneDescriptor true [wholeFrame 1, wholeFrame 2] (by decide +kernel)
  refine Session.harvests_congr (receiveStack_oneDescriptor false)
    (receiveStack_oneDescriptor true) classifies_oneDescriptor classifies_oneDescriptor rfl rfl ?_
    hcopying hzeroCopy
  simp [roundsOf, whole_wholeFrame]

/-- Behind a short frame the slot still has the end of the frame before it. -/
theorem Session.harvests_ne_after_short_frame :
    ReceiveStack oneDescriptor id (oneDescriptorSetup false) ∧
      ReceiveStack oneDescriptor id (oneDescriptorSetup true) ∧
      Classifies oneDescriptor unmatched (fun _ => ()) ∧
      ∃ harvests harvests' m m',
        Session oneDescriptor id (fun _ => ()) (oneDescriptorSetup false) 1
          (roundsOf [wholeFrame 1, shortFrame]) harvests m ∧
        Session oneDescriptor id (fun _ => ()) (oneDescriptorSetup true) 1
          (roundsOf [wholeFrame 1, shortFrame]) harvests' m' ∧
        harvests ≠ harvests' := by
  obtain ⟨m, hcopying⟩ :=
    session_oneDescriptor false [wholeFrame 1, shortFrame] (by decide +kernel)
  obtain ⟨m', hzeroCopy⟩ :=
    session_oneDescriptor true [wholeFrame 1, shortFrame] (by decide +kernel)
  exact ⟨receiveStack_oneDescriptor false, receiveStack_oneDescriptor true,
    classifies_oneDescriptor, _, _, m, m', hcopying, hzeroCopy, by decide +kernel⟩

end XgmacDriver
