import Mathlib.Data.List.Chain
import XgmacDriver.Proofs.LinkPolling

/-! # Checking the link again

A value that contradicts the latch is a reason to reprogram the MAC and to read once more, and only
a second value that contradicts it too is latched and reported. Over a whole run the reports
alternate, and the last of them is the state of the latch.
-/

namespace XgmacDriver

variable {σ : Type}

/-- What a check of the link reads and is answered, if it comes to that. -/
structure LinkCheck (σ : Type) where
  first : UInt32
  answer : Except EngineStatus Unit
  second : UInt32
  between : σ
  after : σ

def Machine.linkCheck (c : Collaborators σ) (phy : PhyRecord) (m : Machine σ) : LinkCheck σ :=
  let first := c.readPhy phy.address phyStatusRegister m.world
  let answer := c.command m.clock (.updateSpeed phy) first.2
  let second := c.readPhy phy.address phyStatusRegister answer.2
  ⟨first.1, answer.1, second.1, first.2, second.2⟩

namespace LinkCheck

variable (k : LinkCheck σ) (up : Bool)

/-- The first value contradicts the latch. -/
def suspects : Bool := linkUp k.first != up

def confirms : Bool := k.suspects up && linkUp k.second != up

def report : Option Bool := if k.confirms up then some (linkUp k.second) else none

def exchanges (phy : PhyRecord) : Array Exchange :=
  let first := Exchange.readPhy phy.address phyStatusRegister k.first
  if k.suspects up then
    #[first, .command (.updateSpeed phy) k.answer,
      .readPhy phy.address phyStatusRegister k.second]
  else #[first]

def complaints : Array LogEntry :=
  match k.answer with
  | .error status => #[.speedUpdateFailed status]
  | .ok () => #[]

def entries : Array LogEntry :=
  (if k.suspects up then k.complaints else #[]) ++
    if k.confirms up then #[.linkNow (linkUp k.second)] else #[]

variable {k up}

theorem confirms_iff :
    k.confirms up = true ↔ linkUp k.first ≠ up ∧ linkUp k.second ≠ up := by
  simp [confirms, suspects]

theorem isSome_report : (k.report up).isSome = k.confirms up := by
  by_cases h : k.confirms up = true
  · simp [report, h]
  · simp [report, h]

theorem ne_of_mem_report {now : Bool} (h : now ∈ k.report up) : up ≠ now := by
  unfold report at h
  split at h
  · have hsecond := (confirms_iff.mp ‹_›).2
    rw [← Option.some.inj h]
    exact hsecond.symm
  · cases h

end LinkCheck

def Machine.rechecked (c : Collaborators σ) (phy : PhyRecord) (m : Machine σ) : Machine σ :=
  let k := m.linkCheck c phy
  let up := m.interface.linkIsUp
  { m with
    interface := if k.confirms up then m.interface.latch k.second else m.interface
    trace := m.trace ++ k.exchanges up phy
    log := m.log ++ k.entries up
    world := if k.suspects up then k.after else k.between }

variable {c : Collaborators σ} {m₀ m : Machine σ} {reports : List Bool}

theorem Engine.accept_updateSpeed (e : Engine) (phy : PhyRecord) :
    e.accept (.updateSpeed phy) = e := rfl

namespace Driver

theorem run_linkDiffers (status : UInt32) (m : Machine σ) :
    (linkDiffers status).run m = pure (linkUp status != m.interface.linkIsUp, m) := rfl

/-- The second half of a check, once the MAC has been reprogrammed. -/
theorem run_confirm (c : Collaborators σ) (phy : UInt8) (m : Machine σ) :
    (do
      let status ← readLinkStatus c phy
      if !(← linkDiffers status) then
        return none
      else
        latchLink status
        report (.linkNow (linkUp status))
        return some (linkUp status)).run m =
      let second := c.readPhy phy phyStatusRegister m.world
      let m' := { m with
        trace := m.trace.push (.readPhy phy phyStatusRegister second.1)
        world := second.2 }
      pure (if linkUp second.1 != m.interface.linkIsUp then
        (some (linkUp second.1), { m' with
          interface := m.interface.latch second.1
          log := m.log.push (.linkNow (linkUp second.1)) })
      else (none, m')) := by
  simp only [StateT.run_bind, readLinkStatus, run_readPhy, pure_bind, run_linkDiffers, run_ite]
  by_cases hsecond : (linkUp (c.readPhy phy phyStatusRegister m.world).1 !=
      m.interface.linkIsUp) = true
  · simp [hsecond, latchLink]
  · simp [hsecond]

theorem run_recheckLink (c : Collaborators σ) (phy : PhyRecord) (m : Machine σ) :
    (recheckLink c phy).run m =
      pure ((m.linkCheck c phy).report m.interface.linkIsUp, m.rechecked c phy) := by
  have hconfirm := run_confirm c phy.address
  simp only [readLinkStatus] at hconfirm
  rw [recheckLink]
  simp only [StateT.run_bind, readLinkStatus, run_readPhy, pure_bind, run_linkDiffers, run_ite,
    run_command, Engine.accept_updateSpeed, ite_self, Machine.rechecked, LinkCheck.report,
    LinkCheck.confirms, LinkCheck.suspects, LinkCheck.exchanges, LinkCheck.entries,
    LinkCheck.complaints, Machine.linkCheck]
  by_cases hfirst : (linkUp (c.readPhy phy.address phyStatusRegister m.world).1 !=
      m.interface.linkIsUp) = true
  · -- The MAC is reprogrammed; what it answers is at most a reason for a log entry.
    rcases hanswer : (c.command m.clock (.updateSpeed phy)
        (c.readPhy phy.address phyStatusRegister m.world).2).1 with status | _
    · simp only [hfirst, Bool.not_true, Bool.false_eq_true, if_false, StateT.run_bind, run_report,
        pure_bind, hconfirm]
      split
      · simp only [*, Bool.and_true, if_true]
        rfl
      · simp only [*, Bool.true_and, if_true]
        rfl
    · simp only [hfirst, Bool.not_true, Bool.false_eq_true, if_false, hconfirm]
      split
      · simp only [*, Bool.and_true, if_true]
        rfl
      · simp only [*, Bool.true_and, if_true]
        rfl
  · simp [hfirst]

end Driver

theorem Machine.linkIsUp_rechecked (c : Collaborators σ) (phy : PhyRecord) (m : Machine σ) :
    (m.rechecked c phy).interface.linkIsUp =
      ((m.linkCheck c phy).report m.interface.linkIsUp).getD m.interface.linkIsUp := by
  simp only [rechecked, LinkCheck.report]
  split
  · rfl
  · rfl

/-- The latch changes only with the link bit, however the other bits change. -/
theorem Machine.link_rechecked_ne_iff (c : Collaborators σ) (phy : PhyRecord) (m : Machine σ) :
    (m.rechecked c phy).interface.link ≠ m.interface.link ↔
      (m.linkCheck c phy).confirms m.interface.linkIsUp = true := by
  constructor
  · intro hlink
    by_contra hconfirms
    apply hlink
    simp [rechecked, hconfirms]
  · intro hconfirms hlink
    have hsecond := (LinkCheck.confirms_iff.mp hconfirms).2
    apply hsecond
    simp only [rechecked, if_pos hconfirms] at hlink
    exact congrArg linkUp hlink

/-- The engine gives one answer to every command, and the world goes on as before. -/
def Collaborators.answering (c : Collaborators σ) (answer : Except EngineStatus Unit) :
    Collaborators σ :=
  { c with command := fun clock k world => (answer, (c.command clock k world).2) }

def Exchange.unanswered : Exchange → Exchange
  | command k _ => command k (.ok ())
  | x => x

def LogEntry.isComplaint : LogEntry → Bool
  | speedUpdateFailed _ => true
  | _ => false

@[simp] theorem LogEntry.isComplaint_linkNow (up : Bool) : (linkNow up).isComplaint = false := rfl

/-- Nothing but the answer to a command and the complaint about it differs. -/
structure SameButAnswer (r r' : Option Bool × Machine σ) : Prop where
  report : r'.1 = r.1
  machine : r'.2 = { r.2 with trace := r'.2.trace, log := r'.2.log }
  trace : r'.2.trace.map Exchange.unanswered = r.2.trace.map Exchange.unanswered
  log : r'.2.log.filter (!·.isComplaint) = r.2.log.filter (!·.isComplaint)

namespace LinkCheck

variable (k : LinkCheck σ) (up : Bool)

theorem unanswered_exchanges (phy : PhyRecord) :
    (k.exchanges up phy).map Exchange.unanswered =
      let first := Exchange.readPhy phy.address phyStatusRegister k.first
      if k.suspects up then
        #[first, .command (.updateSpeed phy) (.ok ()),
          .readPhy phy.address phyStatusRegister k.second]
      else #[first] := by
  unfold exchanges
  split
  · simp [Exchange.unanswered]
  · simp [Exchange.unanswered]

theorem filter_complaints : k.complaints.filter (!·.isComplaint) = #[] := by
  unfold complaints
  split
  · rfl
  · rfl

theorem filter_entries : (k.entries up).filter (!·.isComplaint) =
    if k.confirms up then #[.linkNow (linkUp k.second)] else #[] := by
  unfold entries
  split
  · split
    · simp [filter_complaints]
    · simp [filter_complaints]
  · split
    · simp
    · simp

end LinkCheck

/-- A refusal to reprogram the MAC is logged, and otherwise it makes no difference. -/
theorem Driver.sameButAnswer_recheckLink (c : Collaborators σ) (phy : PhyRecord) (m : Machine σ)
    (answer : Except EngineStatus Unit) :
    SameButAnswer ((recheckLink c phy).run m) ((recheckLink (c.answering answer) phy).run m) := by
  rw [run_recheckLink, run_recheckLink]
  constructor
  · rfl
  · rfl
  · show (m.trace ++ _).map _ = (m.trace ++ _).map _
    rw [Array.map_append, Array.map_append, LinkCheck.unanswered_exchanges,
      LinkCheck.unanswered_exchanges]
    rfl
  · show (m.log ++ _).filter _ = (m.log ++ _).filter _
    rw [Array.filter_append Array.size_append, Array.filter_append Array.size_append,
      LinkCheck.filter_entries, LinkCheck.filter_entries]
    rfl

/-- A run of checks, between which whatever else happens leaves the latch alone, with what they have
reported. -/
inductive RecheckRun (c : Collaborators σ) (m₀ : Machine σ) : List Bool → Machine σ → Prop
  | start : RecheckRun c m₀ [] m₀
  | elsewhere {reports : List Bool} {m m' : Machine σ} : RecheckRun c m₀ reports m →
      m'.interface.link = m.interface.link → RecheckRun c m₀ reports m'
  | check {reports : List Bool} {m : Machine σ} {report : Option Bool} (phy : PhyRecord) :
      RecheckRun c m₀ reports m → ((Driver.recheckLink c phy).run m).1 = report →
      RecheckRun c m₀ (reports ++ report.toList) ((Driver.recheckLink c phy).run m).2

namespace RecheckRun

theorem linkIsUp_eq (h : RecheckRun c m₀ reports m) :
    m.interface.linkIsUp = reports.getLastD m₀.interface.linkIsUp := by
  induction h with
  | start => rfl
  | elsewhere _ hlink ih => exact (congrArg linkUp hlink).trans ih
  | @check reports m report phy _ hreport ih =>
      rw [Driver.run_recheckLink] at hreport ⊢
      show (m.rechecked c phy).interface.linkIsUp = _
      rw [Machine.linkIsUp_rechecked, show (m.linkCheck c phy).report _ = report from hreport]
      cases report with
      | none => simpa using ih
      | some now => simp

theorem alternates (h : RecheckRun c m₀ reports m) :
    (m₀.interface.linkIsUp :: reports).IsChain (· ≠ ·) := by
  induction h with
  | start => exact List.isChain_singleton _
  | elsewhere _ _ ih => exact ih
  | @check reports m report phy hrun hreport ih =>
      rw [Driver.run_recheckLink] at hreport
      apply List.IsChain.append ih
      · cases report with
        | none => exact .nil
        | some now => exact .singleton now
      · intro latched hlatched now hnow
        have hlast : latched = m.interface.linkIsUp := by
          rw [hrun.linkIsUp_eq]
          simpa [List.getLast?_cons, List.getLastD_eq_getLast?] using hlatched.symm
        rw [Option.head?_toList, ← hreport] at hnow
        rw [hlast]
        exact LinkCheck.ne_of_mem_report hnow

/-- In a run of checks, the reports alternate from the opposite of the first state of the latch on,
and the last of them is its state. The next check latches and reports a value exactly if both that
it reads contradict the latch. It reprograms the MAC exactly if the first one does, and a refusal
makes no other difference. -/
theorem debounces (h : RecheckRun c m₀ reports m) :
    (m₀.interface.linkIsUp :: reports).IsChain (· ≠ ·) ∧
    m.interface.linkIsUp = reports.getLastD m₀.interface.linkIsUp ∧
    ∀ phy : PhyRecord,
      let k := m.linkCheck c phy
      let up := m.interface.linkIsUp
      let r := (Driver.recheckLink c phy).run m
      r.2.trace = m.trace ++
        (if linkUp k.first ≠ up then
          #[.readPhy phy.address phyStatusRegister k.first, .command (.updateSpeed phy) k.answer,
            .readPhy phy.address phyStatusRegister k.second]
        else #[.readPhy phy.address phyStatusRegister k.first]) ∧
      (r.1.isSome = true ↔ linkUp k.first ≠ up ∧ linkUp k.second ≠ up) ∧
      (r.2.interface.link ≠ m.interface.link ↔ r.1.isSome = true) ∧
      ∀ answer, SameButAnswer r ((Driver.recheckLink (c.answering answer) phy).run m) := by
  refine ⟨h.alternates, h.linkIsUp_eq, ?_⟩
  intro phy k up r
  have hr : r = (k.report up, m.rechecked c phy) := Driver.run_recheckLink c phy m
  refine ⟨?_, ?_, ?_, Driver.sameButAnswer_recheckLink c phy m⟩
  · rw [hr]
    show m.trace ++ k.exchanges up phy = _
    by_cases hfirst : linkUp k.first = up
    · simp [LinkCheck.exchanges, LinkCheck.suspects, hfirst]
    · simp [LinkCheck.exchanges, LinkCheck.suspects, hfirst]
  · rw [hr, ← LinkCheck.confirms_iff, ← LinkCheck.isSome_report]
  · rw [hr, LinkCheck.isSome_report]
    exact Machine.link_rechecked_ne_iff c phy m

end RecheckRun

/-- The link bit is clear in one value, later in three of them, while the other bits change as well.
-/
def flickeringRegister : Nat → UInt32
  | 0 | 2 | 3 => 0x0020
  | 4 => 0x0021
  | _ => linkBit

/-- A PHY with these values, and an engine that refuses to be reprogrammed. -/
def flickering : Collaborators Nat :=
  (Collaborators.ofRegister flickeringRegister).answering (.error ⟨7⟩)

def watchedMachine : Machine Nat :=
  { pollingMachine with interface := pollingMachine.interface.latch linkBit }

/-- The single value does not get into the latch, and of the others only the change is reported. -/
theorem RecheckRun.debounces_flicker :
    let check := fun m => ((Driver.recheckLink flickering {}).run m).2
    let flickered := check watchedMachine
    let recovered := check (check (check flickered))
    RecheckRun flickering watchedMachine [] flickered ∧
      flickered.interface.linkIsUp = true ∧
      (check flickered).interface.link ≠ flickered.interface.link ∧
      RecheckRun flickering watchedMachine [false, true] recovered ∧
      recovered.interface.linkIsUp = true := by
  intro check flickered recovered
  have hflickered : RecheckRun flickering watchedMachine [] flickered :=
    .check {} .start (by decide : _ = none)
  have hlost : RecheckRun flickering watchedMachine [false] (check flickered) :=
    .check {} hflickered (by decide : _ = some false)
  have hsteady : RecheckRun flickering watchedMachine [false] (check (check flickered)) :=
    .check {} hlost (by decide : _ = none)
  have hrecovered : RecheckRun flickering watchedMachine [false, true] recovered :=
    .check {} hsteady (by decide : _ = some true)
  obtain ⟨-, hup, hnext⟩ := hflickered.debounces
  obtain ⟨-, hreport, hlatch, -⟩ := hnext {}
  refine ⟨hflickered, hup, ?_, hrecovered, hrecovered.debounces.2.1⟩
  exact hlatch.mpr (hreport.mpr (by decide))

end XgmacDriver
