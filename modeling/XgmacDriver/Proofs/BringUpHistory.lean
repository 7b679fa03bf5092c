import Mathlib.Data.List.Chain
import XgmacDriver.Proofs.BringUpOrder
import XgmacDriver.Proofs.BringUpRetry

/-! # Histories of bring-up

Any number of calls of `initialise`, one after the other. Cut where an engine was opened, their
exchanges fall into pieces each of which follows the script, and a new piece begins with the call
after a failed one and with no other.
-/

namespace XgmacDriver

variable {σ : Type}

/-- One call of `initialise`: the stage it found, its calls and its result. -/
structure InitialiseCall where
  stage : Stage
  exchanges : List Exchange
  result : Except Failure Unit

namespace InitialiseCall

def of (c : Collaborators σ) (m : Machine σ) : InitialiseCall where
  stage := m.interface.stage
  exchanges := ((Attempt.initialise c).run.run m).2.calls.drop m.calls.length
  result := ((Attempt.initialise c).run.run m).1

def openings (x : InitialiseCall) : Nat := x.exchanges.countP Exchange.isOpening

/-- The call ended neither well nor because the link is down. -/
def Failed (x : InitialiseCall) : Prop := ∃ f, x.result = .error f ∧ f ≠ .error .linkDown

structure Follows (x y : InitialiseCall) : Prop where
  opens : x.Failed ∧ y.openings = 1 ∨ ¬x.Failed ∧ y.openings = 0
  resumes : y.stage = .linkWait ↔ x.result = .error (.error .linkDown)

/-- The calls of a call that resumes. -/
def Polls (x : InitialiseCall) : Prop :=
  x.result = .error (.error .linkDown) ∧ LinkDown x.exchanges ∨
    x.result ≠ .error (.error .linkDown) ∧ Linked x.exchanges

/-- A list of calls of `initialise`, of which `pieces` is the cut at the openings. -/
structure Ordered (c : Collaborators σ) (calls : List InitialiseCall) (pieces : List Opening) :
    Prop where
  exchanges : calls.flatMap InitialiseCall.exchanges = pieces.flatMap Opening.exchanges
  pieces : ∀ o ∈ pieces, o.Orderly c
  first : ∀ x ∈ calls.head?, x.openings = 1
  follows : calls.IsChain Follows
  resumed : ∀ x ∈ calls, x.stage = .linkWait → x.Polls

end InitialiseCall

/-- Calls of `initialise` on one interface, from its registration on. Between two calls anything may
happen that leaves the progress of bring-up alone. -/
inductive BringUpHistory (c : Collaborators σ) : List InitialiseCall → Machine σ → Prop
  | fresh {m : Machine σ} {index : UInt8} {config : Config} :
      Interface.register index config = .ok m.interface → BringUpHistory c [] m
  | call {calls : List InitialiseCall} {m : Machine σ} : BringUpHistory c calls m →
      BringUpHistory c (calls ++ [.of c m]) ((Attempt.initialise c).run.run m).2
  | idle {calls : List InitialiseCall} {m m' : Machine σ} : BringUpHistory c calls m →
      m'.interface.stage = m.interface.stage → m'.interface.engineOpen = m.interface.engineOpen →
      m'.interface.task = m.interface.task → BringUpHistory c calls m'

namespace InitialiseCall

variable {c : Collaborators σ} {calls : List InitialiseCall} {pieces pieces' : List Opening}
  {m : Machine σ} {x : InitialiseCall} {es : List Exchange}

theorem exchanges_of (h : ((Attempt.initialise c).run.run m).2.calls = m.calls ++ es) :
    (of c m).exchanges = es := by
  rw [of, h, List.drop_left]

theorem not_failed_of_linkDown (h : x.result = .error (.error .linkDown)) : ¬x.Failed := by
  rintro ⟨f, hf, hne⟩
  rw [h] at hf
  exact hne (Except.error.inj hf).symm

theorem not_failed_of_ok (h : x.result = .ok ()) : ¬x.Failed := by
  rintro ⟨f, hf, -⟩
  rw [h] at hf
  cases hf

theorem openings_eq_zero (h : ∀ e ∈ x.exchanges, e.isOpening = false) : x.openings = 0 := by
  rw [openings, List.countP_eq_zero]
  intro e he
  rw [h e he]
  exact Bool.false_ne_true

theorem openings_eq_one {o : Opening} (ho : o.Orderly c) (h : x.exchanges = o.exchanges) :
    x.openings = 1 := by
  obtain ⟨w, hcalls⟩ := ho.calls
  have hnone : o.calls.countP Exchange.isOpening = 0 := by
    rw [List.countP_eq_zero]
    intro e he
    rw [hcalls.not_isOpening e he]
    exact Bool.false_ne_true
  rw [openings, h, Opening.exchanges, List.countP_cons, hnone]
  rfl

theorem Ordered.nil : Ordered c [] [] where
  exchanges := rfl
  pieces _ ho := absurd ho List.not_mem_nil
  first _ hx := absurd hx (Option.not_mem_none _)
  follows := .nil
  resumed _ hx := absurd hx List.not_mem_nil

theorem Ordered.call (h : Ordered c calls pieces)
    (hexchanges : pieces'.flatMap Opening.exchanges =
      pieces.flatMap Opening.exchanges ++ x.exchanges)
    (hpieces : ∀ o ∈ pieces', o.Orderly c) (hfirst : calls = [] → x.openings = 1)
    (hfollows : ∀ y ∈ calls.getLast?, y.Follows x)
    (hresumed : x.stage = .linkWait → x.Polls) : Ordered c (calls ++ [x]) pieces' where
  exchanges := by
    rw [hexchanges, List.flatMap_append, h.exchanges, List.flatMap_singleton]
  pieces := hpieces
  first := by
    cases calls with
    | nil =>
        intro y hy
        cases hy
        exact hfirst rfl
    | cons y ys => exact h.first
  follows := by
    refine List.isChain_append.mpr ⟨h.follows, .singleton x, fun y hy z hz => ?_⟩
    cases hz
    exact hfollows y hy
  resumed := by
    intro y hy
    rcases List.mem_append.mp hy with hy | hy
    · exact h.resumed y hy
    · obtain rfl := List.mem_singleton.mp hy
      exact hresumed

end InitialiseCall

open InitialiseCall

inductive AtRest (c : Collaborators σ) (calls : List InitialiseCall) (pieces : List Opening)
    (m : Machine σ) : Prop
  | restarting : m.interface.stage.entry = .engineInit → m.interface.task = none →
      (∀ x ∈ calls.getLast?, x.Failed) → AtRest c calls pieces m
  | waiting {x : InitialiseCall} {index : UInt8} {w : σ} {earlier : List Opening}
      {commands down : List Exchange} : m.interface.stage = .linkWait →
      m.interface.engineOpen = true → m.interface.task = none → calls.getLast? = some x →
      x.result = .error (.error .linkDown) →
      pieces = earlier ++ [⟨index, true, commands ++ down⟩] →
      Accepted (setupScript (c.rxDescriptors w)) commands → LinkDown down →
      AtRest c calls pieces m
  | ready {x : InitialiseCall} : m.interface.stage = .ready → calls.getLast? = some x →
      x.result = .ok () → AtRest c calls pieces m

variable {c : Collaborators σ} {calls : List InitialiseCall} {pieces : List Opening}
  {m m' : Machine σ}

theorem AtRest.of_same (h : AtRest c calls pieces m)
    (hstage : m'.interface.stage = m.interface.stage)
    (hopen : m'.interface.engineOpen = m.interface.engineOpen)
    (htask : m'.interface.task = m.interface.task) : AtRest c calls pieces m' := by
  cases h with
  | restarting hs ht hlast => exact .restarting (hstage ▸ hs) (htask ▸ ht) hlast
  | waiting hs ho ht hlast hx hpieces hcommands hdown =>
      exact .waiting (hstage ▸ hs) (hopen ▸ ho) (htask ▸ ht) hlast hx hpieces hcommands hdown
  | ready hs hlast hx => exact .ready (hstage ▸ hs) hlast hx

theorem InitialiseCall.Ordered.reopened {o : Opening} (h : Ordered c calls pieces)
    (hstage : m.interface.stage.entry = .engineInit) (hlast : ∀ x ∈ calls.getLast?, x.Failed)
    (ho : o.Orderly c) (hexchanges : (of c m).exchanges = o.exchanges) :
    Ordered c (calls ++ [of c m]) (pieces ++ [o]) := by
  have hone := openings_eq_one ho hexchanges
  have hresume : (of c m).stage ≠ .linkWait := by
    intro hwait
    rw [show m.interface.stage = .linkWait from hwait] at hstage
    cases hstage
  refine h.call ?_ ?_ (fun _ => hone) (fun y hy => ⟨Or.inl ⟨hlast y hy, hone⟩, ?_⟩)
    fun hwait => absurd hwait hresume
  · rw [List.flatMap_append, List.flatMap_singleton, hexchanges]
  · intro p hp
    rcases List.mem_append.mp hp with hp | hp
    · exact h.pieces p hp
    · obtain rfl := List.mem_singleton.mp hp
      exact ho
  · exact ⟨fun hwait => absurd hwait hresume,
      fun hdown => absurd (hlast y hy) (not_failed_of_linkDown hdown)⟩

theorem InitialiseCall.Ordered.resumed_call {x : InitialiseCall} {index : UInt8} {w : σ}
    {earlier : List Opening} {commands down : List Exchange}
    (h : Ordered c calls (earlier ++ [⟨index, true, commands ++ down⟩]))
    (hstage : m.interface.stage = .linkWait) (hlast : calls.getLast? = some x)
    (hx : x.result = .error (.error .linkDown))
    (hcommands : Accepted (setupScript (c.rxDescriptors w)) commands) (hdown : LinkDown down)
    (hpolls : (of c m).Polls) :
    Ordered c (calls ++ [of c m])
      (earlier ++ [⟨index, true, commands ++ (down ++ (of c m).exchanges)⟩]) := by
  have hzero : (of c m).openings = 0 := by
    rcases hpolls with ⟨-, hes⟩ | ⟨-, hes⟩
    · exact openings_eq_zero hes.not_isOpening
    · exact openings_eq_zero hes.not_isOpening
  have hpiece : LinkDown (down ++ (of c m).exchanges) ∨ Linked (down ++ (of c m).exchanges) := by
    rcases hpolls with ⟨-, hes⟩ | ⟨-, hes⟩
    · exact Or.inl (hdown.append hes)
    · exact Or.inr (hdown.append_linked hes)
  refine h.call ?_ ?_ ?_ ?_ fun _ => hpolls
  · simp [Opening.exchanges]
  · intro o ho
    rcases List.mem_append.mp ho with ho | ho
    · exact h.pieces o (List.mem_append_left _ ho)
    · obtain rfl := List.mem_singleton.mp ho
      exact ⟨⟨w, .polling hcommands hpiece⟩, nofun⟩
  · rintro rfl
    cases hlast
  · intro y hy
    rw [hlast, Option.mem_some_iff] at hy
    subst hy
    exact ⟨Or.inr ⟨not_failed_of_linkDown hx, hzero⟩, fun _ => hx, fun _ => hstage⟩

theorem InitialiseCall.Ordered.ready_call {x : InitialiseCall} (h : Ordered c calls pieces)
    (hstage : m.interface.stage = .ready) (hlast : calls.getLast? = some x)
    (hx : x.result = .ok ()) (hexchanges : (of c m).exchanges = []) :
    Ordered c (calls ++ [of c m]) pieces := by
  have hresume : (of c m).stage ≠ .linkWait := by
    intro hwait
    rw [show (of c m).stage = .ready from hstage] at hwait
    cases hwait
  refine h.call ?_ h.pieces ?_ ?_ fun hwait => absurd hwait hresume
  · rw [hexchanges, List.append_nil]
  · rintro rfl
    cases hlast
  · intro y hy
    rw [hlast, Option.mem_some_iff] at hy
    subst hy
    have hzero : (of c m).openings = 0 := openings_eq_zero (by simp [hexchanges])
    refine ⟨Or.inr ⟨not_failed_of_ok hx, hzero⟩, fun hwait => absurd hwait hresume, ?_⟩
    rw [hx]
    intro hdown
    cases hdown

namespace AtRest

theorem call_over (h : Ordered c calls pieces)
    (hstage : m.interface.stage.entry = .engineInit) (htask : m.interface.task = none)
    (hlast : ∀ x ∈ calls.getLast?, x.Failed) :
    ∃ pieces', Ordered c (calls ++ [of c m]) pieces' ∧
      AtRest c (calls ++ [of c m]) pieces' ((Attempt.initialise c).run.run m).2 := by
  have hlast' : (calls ++ [of c m]).getLast? = some (of c m) := List.getLast?_concat
  rcases hrun : (Attempt.initialise c).run.run m with ⟨f | ⟨⟩, m'⟩
  · rcases (Attempt.underway_initialise hstage).outcome ⟨rfl, htask, rfl⟩ hrun with
      ⟨rfl, index, w, commands, hcommands, hm⟩ | ⟨hf, hstage', htask', es, hes, o, ho, rfl⟩
    · -- The link is down, and later calls may lengthen the piece.
      obtain ⟨down, hcalls, hdown⟩ := hm.calls
      have ho : Opening.Orderly c ⟨index, true, commands ++ down⟩ :=
        ⟨⟨w, .polling hcommands (Or.inl hdown)⟩, nofun⟩
      refine ⟨_, h.reopened hstage hlast ho (exchanges_of ?_), ?_⟩
      · rw [hrun]
        refine hcalls.trans ?_
        simp [opening, Opening.exchanges]
      · exact .waiting hm.stage hm.engineOpen hm.task hlast' (by simp [of, hrun]) rfl hcommands
          hdown
    · -- A failure ends the piece, for the next call starts over.
      refine ⟨_, h.reopened hstage hlast ho (exchanges_of ?_), .restarting ?_ htask' ?_⟩
      · rw [hrun]
        exact hes
      · rcases hstage' with hs | hs
        · rw [hs, hstage]
        · rw [hs]
          rfl
      · intro x hx
        rw [hlast', Option.mem_some_iff] at hx
        subst hx
        exact ⟨f, by simp [of, hrun], hf⟩
  · obtain ⟨hready, index, w, commands, hcommands, es, hcalls, hlinked⟩ :=
      (Attempt.underway_initialise hstage).outcome ⟨rfl, htask, rfl⟩ hrun
    have ho : Opening.Orderly c ⟨index, true, commands ++ es⟩ :=
      ⟨⟨w, .polling hcommands (Or.inr hlinked)⟩, nofun⟩
    refine ⟨_, h.reopened hstage hlast ho (exchanges_of ?_), ?_⟩
    · rw [hrun]
      refine hcalls.trans ?_
      simp [opening, Opening.exchanges]
    · exact .ready hready hlast' (by simp [of, hrun])

theorem call_waiting {x : InitialiseCall} {index : UInt8} {w : σ} {earlier : List Opening}
    {commands down : List Exchange}
    (h : Ordered c calls (earlier ++ [⟨index, true, commands ++ down⟩]))
    (hstage : m.interface.stage = .linkWait) (hopen : m.interface.engineOpen = true)
    (htask : m.interface.task = none) (hlast : calls.getLast? = some x)
    (hx : x.result = .error (.error .linkDown))
    (hcommands : Accepted (setupScript (c.rxDescriptors w)) commands) (hdown : LinkDown down) :
    ∃ pieces', Ordered c (calls ++ [of c m]) pieces' ∧
      AtRest c (calls ++ [of c m]) pieces' ((Attempt.initialise c).run.run m).2 := by
  have hlast' : (calls ++ [of c m]).getLast? = some (of c m) := List.getLast?_concat
  have hmaking : Making .linkWait m.calls LinkDown m :=
    ⟨hstage, hopen, htask, [], (List.append_nil _).symm, linkDown_nil⟩
  rcases hrun : (Attempt.initialise c).run.run m with ⟨f | ⟨⟩, m'⟩
  · rcases Attempt.resumed_initialise.outcome hmaking hrun with
      ⟨rfl, hm⟩ | ⟨hf, hfailed, htask', es, hcalls, hlinked⟩
    · -- The link is still down.
      obtain ⟨es, hcalls, hes⟩ := hm.calls
      have hexchanges : (of c m).exchanges = es := exchanges_of (by rw [hrun]; exact hcalls)
      have hresult : (of c m).result = .error (.error .linkDown) := by simp [of, hrun]
      refine ⟨_, h.resumed_call hstage hlast hx hcommands hdown ?_, ?_⟩
      · exact Or.inl ⟨hresult, hexchanges.symm ▸ hes⟩
      · exact .waiting hm.stage hm.engineOpen hm.task hlast' hresult rfl hcommands
          (hdown.append (hexchanges.symm ▸ hes))
    · -- The link is up, but the task could not be started.
      have hexchanges : (of c m).exchanges = es := exchanges_of (by rw [hrun]; exact hcalls)
      have hfailure : (of c m).Failed := ⟨f, by simp [of, hrun], hf⟩
      refine ⟨_, h.resumed_call hstage hlast hx hcommands hdown ?_, .restarting ?_ htask' ?_⟩
      · exact Or.inr ⟨fun hd => not_failed_of_linkDown hd hfailure, hexchanges.symm ▸ hlinked⟩
      · rw [hfailed]
        rfl
      · intro y hy
        rw [hlast', Option.mem_some_iff] at hy
        exact hy ▸ hfailure
  · obtain ⟨hready, es, hcalls, hlinked⟩ := Attempt.resumed_initialise.outcome hmaking hrun
    have hexchanges : (of c m).exchanges = es := exchanges_of (by rw [hrun]; exact hcalls)
    have hresult : (of c m).result = .ok () := by simp [of, hrun]
    refine ⟨_, h.resumed_call hstage hlast hx hcommands hdown ?_, .ready hready hlast' hresult⟩
    refine Or.inr ⟨?_, hexchanges.symm ▸ hlinked⟩
    rw [hresult]
    intro hd
    cases hd

theorem call_ready {x : InitialiseCall} (h : Ordered c calls pieces)
    (hstage : m.interface.stage = .ready) (hlast : calls.getLast? = some x)
    (hx : x.result = .ok ()) :
    ∃ pieces', Ordered c (calls ++ [of c m]) pieces' ∧
      AtRest c (calls ++ [of c m]) pieces' ((Attempt.initialise c).run.run m).2 := by
  rcases hrun : (Attempt.initialise c).run.run m with ⟨f | ⟨⟩, m'⟩
  · exact ((Attempt.ready_initialise hstage).outcome rfl hrun).elim
  · obtain rfl := (Attempt.ready_initialise hstage).outcome rfl hrun
    refine ⟨pieces, h.ready_call hstage hlast hx (exchanges_of ?_), ?_⟩
    · rw [hrun, List.append_nil]
    · exact .ready hstage List.getLast?_concat (by simp [of, hrun])

theorem call (h : Ordered c calls pieces) (hm : AtRest c calls pieces m) :
    ∃ pieces', Ordered c (calls ++ [of c m]) pieces' ∧
      AtRest c (calls ++ [of c m]) pieces' ((Attempt.initialise c).run.run m).2 := by
  cases hm with
  | restarting hstage htask hlast => exact call_over h hstage htask hlast
  | waiting hstage hopen htask hlast hx hpieces hcommands hdown =>
      subst hpieces
      exact call_waiting h hstage hopen htask hlast hx hcommands hdown
  | ready hstage hlast hx => exact call_ready h hstage hlast hx

end AtRest

theorem BringUpHistory.atRest (h : BringUpHistory c calls m) :
    ∃ pieces, Ordered c calls pieces ∧ AtRest c calls pieces m := by
  induction h with
  | fresh hregister =>
      have hm := Interface.eq_of_register hregister
      refine ⟨[], .nil, .restarting ?_ ?_ fun x hx => absurd hx (Option.not_mem_none x)⟩
      · rw [hm]
        rfl
      · rw [hm]
  | call _ ih =>
      obtain ⟨pieces, hordered, hrest⟩ := ih
      exact hrest.call hordered
  | idle _ hstage hopen htask ih =>
      obtain ⟨pieces, hordered, hrest⟩ := ih
      exact ⟨pieces, hordered, hrest.of_same hstage hopen htask⟩

/-- Between two openings of an engine the calls are those of the script in its order, none of them
is made after one that failed, and the polls of any number of calls come last. -/
theorem BringUpHistory.ordered (h : BringUpHistory c calls m) :
    ∃ pieces, Ordered c calls pieces := by
  obtain ⟨pieces, hordered, -⟩ := h.atRest
  exact ⟨pieces, hordered⟩

deriving instance DecidableEq for Exchange

/-- The stack has five buffers. The engine refuses the speed while three are left, and the link
comes up when none is. -/
def lateLink : Collaborators Nat :=
  { Collaborators.ofStock fun _ => .ok () with
    command := fun _ k w => match k, w with
      | .cfgSpeed _, 3 => (.error ⟨1⟩, w)
      | _, _ => (.ok (), w)
    readPhy := fun _ _ w => (if w = 0 then linkBit else 0, w) }

def registeredMachine : Machine Nat where
  interface := { index := 0, config := .zeroCopy }
  engine := {}
  clock := .startingAt 0 0
  memory := .zeroed
  trace := #[]
  log := #[]
  world := 5

def refusedMachine : Machine Nat := ((Attempt.initialise lateLink).run.run registeredMachine).2

/-- The stack has given away its last buffer since the second call. -/
def waitingMachine : Machine Nat :=
  { ((Attempt.initialise lateLink).run.run refusedMachine).2 with world := 0 }

def threeCalls : List InitialiseCall :=
  [.of lateLink registeredMachine, .of lateLink refusedMachine, .of lateLink waitingMachine]

/-- The first call fails, the second starts over and finds the link down, and the third reads the
link status once and creates the task. -/
theorem BringUpHistory.ordered_three_calls :
    threeCalls.map InitialiseCall.stage = [.engineInit, .failed, .linkWait] ∧
      threeCalls.map InitialiseCall.result =
        [.error (.error (.initFailed .engineStart)), .error (.error .linkDown), .ok ()] ∧
      threeCalls.map InitialiseCall.openings = [1, 1, 0] ∧
      (InitialiseCall.of lateLink waitingMachine).exchanges =
        [.readPhy 0 phyStatusRegister linkBit,
          .spawn ⟨emacTaskName, Config.zeroCopy.taskStackSize, Config.zeroCopy.taskPriority⟩
            (some 1)] ∧
      ∃ pieces, Ordered lateLink threeCalls pieces := by
  refine ⟨by decide +kernel, by decide +kernel, by decide +kernel, by decide +kernel, ?_⟩
  have hregister : Interface.register 0 .zeroCopy = .ok registeredMachine.interface := rfl
  have hwaiting : BringUpHistory lateLink [.of lateLink registeredMachine,
      .of lateLink refusedMachine] waitingMachine :=
    .idle (.call (.call (.fresh hregister))) rfl rfl rfl
  exact ordered hwaiting.call

end XgmacDriver
