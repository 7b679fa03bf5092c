import XgmacDriver.Proofs.KeptViews
import XgmacDriver.Proofs.Traffic

/-! # The part of the machine that transmission depends on

`TxView` has the transmit pool, the counted completions, the engine's transmit queues and how far
bring-up has come. Reception, the link and the stack's buffers leave all of it alone.
-/

namespace XgmacDriver

structure TxView where
  zeroCopy : Bool
  pool : Pool
  completions : CompletionCounter
  armed : Bool
  engineOpen : Bool
  stage : Stage
  task : Option UInt32
  callback : Bool
  outstanding : List Addr
  done : List TxAnswer
  submitted : List Addr
  handedBack : List Addr

variable {σ : Type}

def Machine.txView (m : Machine σ) : TxView where
  zeroCopy := m.interface.config.zeroCopyTx
  pool := m.interface.txPool
  completions := m.interface.notifier.completions
  armed := m.interface.notifier.armed
  engineOpen := m.interface.engineOpen
  stage := m.interface.stage
  task := m.interface.task
  callback := m.engine.callback
  outstanding := m.engine.outstanding
  done := m.engine.done
  submitted := m.submitted
  handedBack := m.handedBack

/-- Whether no frame goes to the engine or comes back from it. -/
def Exchange.IsTxAside (x : Exchange) : Prop := x.submitted = [] ∧ x.handedBack = []

theorem Exchange.isTxAside_of_isStackCall {x : Exchange} (h : x.isStackCall = true) :
    x.IsTxAside := by
  cases x <;> first | exact ⟨rfl, rfl⟩ | cases h

namespace Machine

theorem txView_push (m : Machine σ) (x : Exchange) :
    txView { m with trace := m.trace.push x } = { m.txView with
      submitted := m.submitted ++ x.submitted
      handedBack := m.handedBack ++ x.handedBack } := by
  have hsubmitted : submitted { m with trace := m.trace.push x } = m.submitted ++ x.submitted :=
    submitted_push rfl
  have hhandedBack : handedBack { m with trace := m.trace.push x } =
      m.handedBack ++ x.handedBack := handedBack_push rfl
  simp only [txView, hsubmitted, hhandedBack]

theorem blind_txView : Blind Exchange.IsTxAside (txView : Machine σ → TxView) where
  congr := by
    rintro m ⟨⟩ rfl rfl rfl
    rfl
  push m x hx := by
    rw [txView_push, hx.1, hx.2, List.append_nil, List.append_nil]
    rfl

theorem txView_refused (m : Machine σ) (k : Command) (status : EngineStatus) (world : σ) :
    txView { m with trace := m.trace.push (.command k (.error status)), world } = m.txView := by
  have haside : (Exchange.command k (.error status)).IsTxAside := by
    cases k <;> exact ⟨rfl, rfl⟩
  exact blind_txView.push { m with world } haside

end Machine

open Machine

/-- Whether a command concerns neither transmission nor the interrupt callback. -/
def Command.isAside : Command → Bool
  | .transmit _ | .setCallback => false
  | _ => true

namespace Driver

variable {c : Collaborators σ}

theorem keepsTx_command {k : Command} (hk : k.isAside = true) : Keeps txView (command c k) := by
  have haside : ∀ answer, (Exchange.command k answer).IsTxAside := by
    intro answer
    cases k with
    | transmit _ | setCallback => cases hk
    | _ => exact ⟨rfl, rfl⟩
  refine blind_txView.command haside fun m => ?_
  cases k with
  | transmit _ | setCallback => cases hk
  | _ => rfl

theorem keepsTx_nextReceived : Keeps txView (nextReceived : Driver σ (Option RxCompletion)) := by
  refine blind_txView.nextReceived (fun _ => ⟨rfl, rfl⟩) fun engine hengine m => ?_
  obtain ⟨completed, hcompleted⟩ := hengine m.engine
  rw [run_modifyEngine, hcompleted]
  rfl

/-- An interrupt that gets through may count a completion, and does nothing else to the view. -/
theorem txView_interrupt {m : Machine σ} (hcallback : m.engine.callback = true)
    (harmed : m.interface.notifier.armed = true) (i : Interrupt) :
    ((interrupt i).run m).2.txView = { m.txView with
      completions := if i = .transmitted then m.txView.completions.give.2
        else m.txView.completions } := by
  rw [run_interrupt_of_live i m hcallback harmed]
  show Machine.txView { m with interface := m.interface.mapNotifier _, trace := _ } = _
  simp [Machine.txView, Machine.submitted, Machine.handedBack, Exchange.submitted,
    Exchange.handedBack, Interface.mapNotifier, Notifier.interrupt, Notifier.notify, harmed]

/-! ## Reception and the link -/

theorem keepsTx_receiving : KeepsReceiving c (txView : Machine σ → TxView) where
  toKeepsForwarding := .of_blind blind_txView (fun _ => Exchange.isTxAside_of_isStackCall)
    fun _ _ => rfl
  nextReceived := keepsTx_nextReceived
  refill _ := keepsTx_command rfl

theorem keepsTx_pollIfExpired (timer : PollTimer) : Keeps txView (pollIfExpired c timer) :=
  blind_txView.pollIfExpired (fun _ _ _ => ⟨rfl, rfl⟩) (fun _ => keepsTx_command rfl)
    (fun _ _ => rfl) timer

end Driver

end XgmacDriver
