import XgmacDriver.Proofs.Triple

/-! # Views that do not look at everything

Most views of the machine look at the interface, at the engine and at some of the exchanges. They do
not notice a step that merely asks, copies, sleeps or reports.
-/

namespace XgmacDriver

variable {σ γ α : Type} {c : Collaborators σ} {view : Machine σ → γ} {hidden : Exchange → Prop}

/-- The view depends on the interface, the engine and the exchanges that are not `hidden`. -/
structure Blind (hidden : Exchange → Prop) (view : Machine σ → γ) : Prop where
  congr : ∀ {m m' : Machine σ}, m'.interface = m.interface → m'.engine = m.engine →
    m'.trace = m.trace → view m' = view m
  push : ∀ (m : Machine σ) {x : Exchange}, hidden x →
    view { m with trace := m.trace.push x } = view m

/-- Whether the stack was called. -/
def Exchange.isStackCall : Exchange → Bool
  | getBuffer .. | releaseBuffer .. | considerFrame .. => true
  | matchEndpoint .. | lookup .. | rxEvent .. => true
  | _ => false

open Driver

namespace Blind

section

variable (h : Blind hidden view)
include h

theorem record {x : Exchange} (hx : hidden x) : Keeps view (Driver.record x) :=
  fun m => h.push m hx

theorem report (entry : LogEntry) : Keeps view (Driver.report entry) :=
  fun _ => h.congr rfl rfl rfl

theorem sleep (ms : UInt64) : Keeps view (Driver.sleep ms) :=
  fun _ => h.congr rfl rfl rfl

theorem copyMemory (src dst : Addr) (n : Nat) : Keeps view (Driver.copyMemory src dst n) :=
  fun _ => h.congr rfl rfl rfl

theorem consult (ask : σ → α × σ) : Keeps view (Driver.consult ask) :=
  fun _ => h.congr rfl rfl rfl

theorem ask (ask : σ → α × σ) (x : α → Exchange) (hx : ∀ answer, hidden (x answer)) :
    Keeps view (do
      let answer ← Driver.consult ask
      Driver.record (x answer)
      return answer) :=
  (h.consult ask).bind fun answer => (h.record (hx answer)).bind fun _ => keeps_pure answer

theorem readPhy (phy register : UInt8) (hx : ∀ value, hidden (.readPhy phy register value)) :
    Keeps view (Driver.readPhy c phy register) :=
  h.ask _ _ hx

theorem command {k : Command} (hx : ∀ answer, hidden (.command k answer))
    (haccept : Keeps view (modifyEngine (·.accept k))) : Keeps view (Driver.command c k) := by
  refine keeps_get.bind fun m => (h.consult _).bind fun answer => ?_
  refine (h.record (hx answer)).bind fun _ => Keeps.bind ?_ fun _ => keeps_pure answer
  exact Keeps.ite haccept (keeps_pure _)

theorem nextReceived (hx : ∀ answer, hidden (.nextReceived answer))
    (htake : ∀ engine : Engine → Engine, (∀ e, ∃ completed, engine e = { e with completed }) →
      Keeps view (modifyEngine engine)) : Keeps view Driver.nextReceived := by
  have hnext : Keeps view (modifyEngine fun e => e.nextCompleted.2) := by
    refine htake _ fun e => ?_
    unfold Engine.nextCompleted
    split
    · exact ⟨e.completed, rfl⟩
    · exact ⟨_, rfl⟩
  intro m
  rw [run_nextReceived]
  exact (h.push { m with engine := m.engine.nextCompleted.2 } (hx _)).trans (hnext m)

theorem nextTransmitted (hx : ∀ answer, hidden (.nextTransmitted answer))
    (htake : Keeps view (modifyEngine fun e => e.nextDone.2 : Driver σ Unit)) :
    Keeps view Driver.nextTransmitted := by
  intro m
  rw [run_nextTransmitted]
  exact (h.push { m with engine := m.engine.nextDone.2 } (hx _)).trans (htake m)

end

section

variable (h : Blind hidden view) (hstack : ∀ x : Exchange, x.isStackCall = true → hidden x)
include h hstack

theorem getBuffer (wanted block : Nat) : Keeps view (Driver.getBuffer c wanted block) :=
  h.ask _ _ fun _ => hstack _ rfl

theorem releaseBuffer (i : UInt16) : Keeps view (Driver.releaseBuffer c i) :=
  (h.consult _).bind fun _ => h.record (hstack _ rfl)

theorem considerFrame (bytes : List UInt8) : Keeps view (Driver.considerFrame c bytes) :=
  h.ask _ _ fun _ => hstack _ rfl

theorem matchEndpoint (bytes : List UInt8) : Keeps view (Driver.matchEndpoint c bytes) :=
  keeps_interface.bind fun _ => h.ask _ _ fun _ => hstack _ rfl

theorem lookup (a : Addr) : Keeps view (Driver.lookup c a) :=
  h.ask _ _ fun _ => hstack _ rfl

theorem sendRxEvent (fs : List RxFrame) : Keeps view (Driver.sendRxEvent c fs) :=
  keeps_get.bind fun _ => h.ask _ _ fun _ => hstack _ rfl

end

end Blind

end XgmacDriver
