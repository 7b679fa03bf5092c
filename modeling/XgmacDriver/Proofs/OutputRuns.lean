import XgmacDriver.Machine.Run
import XgmacDriver.Transmit

/-! # How a call of output ends

A call is refused, drops its frame, halts for want of a slot, or asks the engine once. `OutputRun`
has one case for each of these, with all that the call leaves behind except the log.
-/

namespace XgmacDriver

variable {σ α : Type} {c : Collaborators σ} {m : Machine σ}

namespace Machine

def withReply (m : Machine σ) (reply : Pool.Reply α) : Machine σ :=
  { m with
    interface := m.interface.setPool reply.pool .tx
    clock := reply.clock
    memory := reply.memory
    log := m.log ++ reply.log }

/-- The machine after the stack's buffer has been released, if it is to be. -/
def givenBack (c : Collaborators σ) (index : UInt16) (release : Bool) (m : Machine σ) : Machine σ :=
  if release then ((Driver.releaseBuffer c index).run m).2 else m

@[simp] theorem interface_givenBack (index : UInt16) (release : Bool) :
    (m.givenBack c index release).interface = m.interface := by
  unfold givenBack
  split <;> rfl

@[simp] theorem engine_givenBack (index : UInt16) (release : Bool) :
    (m.givenBack c index release).engine = m.engine := by
  unfold givenBack
  split <;> rfl

@[simp] theorem memory_givenBack (index : UInt16) (release : Bool) :
    (m.givenBack c index release).memory = m.memory := by
  unfold givenBack
  split <;> rfl

theorem trace_givenBack (index : UInt16) (release : Bool) :
    ∃ accepted, (m.givenBack c index release).trace.toList =
      m.trace.toList ++ if release then [.releaseBuffer index accepted] else [] := by
  unfold givenBack
  split
  · exact ⟨_, Array.toList_push⟩
  · exact ⟨true, (List.append_nil _).symm⟩

end Machine

/-- The frame of `length` bytes at `payload` lies at an address from which it can be sent. -/
inductive Staged (c : Collaborators σ) (m : Machine σ) (payload : Addr) (length : Nat) :
    Addr → Machine σ → Prop
  | direct : m.interface.config.zeroCopyTx = true → Staged c m payload length payload m
  | copied {slot : Addr} {reply : Pool.Reply Addr} : m.interface.config.zeroCopyTx = false →
      m.interface.txPool.acquire maxPacketSize (c.lock .tx m.world) m.clock m.memory = reply →
      reply.result = .ok slot →
      Staged c m payload length slot
        { m.withReply reply with memory := reply.memory.copy payload slot length }

/-- A frame that the engine refused is taken back: its slot is released if it has one. -/
inductive TakenBack (c : Collaborators σ) (m : Machine σ) (buf : Addr) : Machine σ → Prop
  | direct {log : Array LogEntry} : m.interface.config.zeroCopyTx = true →
      TakenBack c m buf { m with log }
  | released {reply : Pool.Reply Unit} {log : Array LogEntry} :
      m.interface.config.zeroCopyTx = false →
      m.interface.txPool.release buf (c.lock .tx m.world) m.clock m.memory = reply →
      TakenBack c m buf { m.withReply reply with log }

/-- The frame that is submitted once its `length` bytes lie at `buf`. -/
def Machine.frameAt (m : Machine σ) (buf : Addr) (length : Nat) : TxFrame :=
  { buf, size := length, release := true, bytes := m.memory.read buf length }

/-- One question to the engine about the frame at `buf`, and what follows its answer. -/
inductive Submission (c : Collaborators σ) (m : Machine σ) (buf : Addr) (length : Nat) :
    Bool → Machine σ → Prop
  | accepted {world : σ} :
      c.command m.clock (.transmit (m.frameAt buf length)) m.world = (.ok (), world) →
      Submission c m buf length true { m with
        trace := m.trace.push (.command (.transmit (m.frameAt buf length)) (.ok ()))
        world
        engine := m.engine.accept (.transmit (m.frameAt buf length)) }
  | refused {status : EngineStatus} {world : σ} {m' : Machine σ} :
      c.command m.clock (.transmit (m.frameAt buf length)) m.world = (.error status, world) →
      TakenBack c { m with
        trace := m.trace.push (.command (.transmit (m.frameAt buf length)) (.error status))
        world } buf m' →
      Submission c m buf length false m'

def NetworkBuffer.sendSize (buffer : NetworkBuffer) : Nat :=
  min (min buffer.length maxPacketSize) buffer.capacity

inductive OutputRun (c : Collaborators σ) (m : Machine σ) (buffer : NetworkBuffer)
    (releaseAfterSend : Bool) : Except Failure Unit → Machine σ → Prop
  | unopened {log : Array LogEntry} : m.interface.engineOpen = false →
      OutputRun c m buffer releaseAfterSend (.error (.error .engineNotInitialized)) { m with log }
  | empty {log : Array LogEntry} : m.interface.engineOpen = true → buffer.payload = none →
      OutputRun c m buffer releaseAfterSend (.error (.error .nullPayload)) { m with log }
  | dropped {payload : Addr} {log : Array LogEntry} : m.interface.engineOpen = true →
      buffer.payload = some payload → m.interface.linkIsUp = false →
      OutputRun c m buffer releaseAfterSend (.ok ())
        (Machine.givenBack c buffer.index releaseAfterSend { m with log })
  | halted {payload : Addr} {e : DriverError} {reply : Pool.Reply Addr} :
      m.interface.engineOpen = true → buffer.payload = some payload →
      m.interface.linkIsUp = true → m.interface.config.zeroCopyTx = false →
      m.interface.txPool.acquire maxPacketSize (c.lock .tx m.world) m.clock m.memory = reply →
      reply.result = .error e →
      OutputRun c m buffer releaseAfterSend (.error (.halt (.noTransmitSlot e))) (m.withReply reply)
  | submitted {payload buf : Addr} {accepted : Bool} {m₁ m₂ : Machine σ} :
      m.interface.engineOpen = true → buffer.payload = some payload →
      m.interface.linkIsUp = true → Staged c m payload buffer.sendSize buf m₁ →
      Submission c m₁ buf buffer.sendSize accepted m₂ →
      OutputRun c m buffer releaseAfterSend (.ok ()) (m₂.givenBack c buffer.index
        (!accepted || (releaseAfterSend && !m.interface.config.zeroCopyTx)))

namespace Attempt

theorem run_stageFrame (payload : Addr) (length : Nat) (m : Machine σ) :
    (∃ buf m', (stageFrame c payload length).run.run m = pure (.ok buf, m') ∧
        Staged c m payload length buf m') ∨
      m.interface.config.zeroCopyTx = false ∧ ∃ e reply,
        (stageFrame c payload length).run.run m =
          pure (.error (.halt (.noTransmitSlot e)), m.withReply reply) ∧
        m.interface.txPool.acquire maxPacketSize (c.lock .tx m.world) m.clock m.memory = reply ∧
        reply.result = .error e := by
  cases hmode : m.interface.config.zeroCopyTx with
  | true =>
      refine Or.inl ⟨payload, m, ?_, .direct hmode⟩
      simp [stageFrame, hmode]
  | false =>
      obtain ⟨reply, hreply⟩ : ∃ reply, m.interface.txPool.acquire maxPacketSize
        (c.lock .tx m.world) m.clock m.memory = reply := ⟨_, rfl⟩
      have hslot : (Driver.acquireSlot c .tx maxPacketSize).run m =
          pure (reply.result, m.withReply reply) := by
        rw [← hreply]
        rfl
      cases hresult : reply.result with
      | ok slot =>
          refine Or.inl ⟨slot, _, ?_, .copied hmode hreply hresult⟩
          simp [stageFrame, hmode, hslot, hresult, Machine.withReply, Except.map]
      | error e =>
          refine Or.inr ⟨rfl, e, reply, ?_, hreply, hresult⟩
          simp [stageFrame, hmode, hslot, hresult]

/-- What a submission does once the engine has refused its frame. -/
def takeBack (c : Collaborators σ) (buf : Addr) (status : EngineStatus) : Attempt σ Bool := do
  always (Driver.report (.transmitRefused status))
  if !(← always Driver.config).zeroCopyTx then
    if let .error e ← always (Driver.releaseSlot c .tx buf) then
      always (Driver.report (.txSlotNotReturned e))
  return false

theorem run_takeBack (buf : Addr) (status : EngineStatus) (m : Machine σ) :
    ∃ m', (takeBack c buf status).run.run m = pure (.ok false, m') ∧ TakenBack c m buf m' := by
  cases hmode : m.interface.config.zeroCopyTx with
  | true =>
      have hrun : ∃ log, (takeBack c buf status).run.run m = pure (.ok false, { m with log }) := by
        simp only [takeBack, run_always_bind, StateT.run_bind, Driver.run_report, pure_bind,
          Driver.run_config, hmode]
        exact ⟨_, rfl⟩
      obtain ⟨log, hrun⟩ := hrun
      exact ⟨_, hrun, .direct hmode⟩
  | false =>
      obtain ⟨reply, hreply⟩ : ∃ reply, m.interface.txPool.release buf (c.lock .tx m.world) m.clock
        m.memory = reply := ⟨_, rfl⟩
      have hslot : ∀ log, (Driver.releaseSlot c .tx buf).run { m with log } =
          pure (reply.result, { m.withReply reply with log := log ++ reply.log }) := by
        intro log
        rw [← hreply]
        rfl
      have hrun : ∃ log, (takeBack c buf status).run.run m =
          pure (.ok false, { m.withReply reply with log }) := by
        simp only [takeBack, run_always_bind, StateT.run_bind, Driver.run_report, pure_bind,
          Driver.run_config, hmode, Bool.not_false, if_true, hslot]
        cases reply.result with
        | ok => exact ⟨_, rfl⟩
        | error e => exact ⟨_, rfl⟩
      obtain ⟨log, hrun⟩ := hrun
      exact ⟨_, hrun, .released hmode hreply⟩

/-- What a submission does with the answer of the engine. -/
def settle (c : Collaborators σ) (buf : Addr) : Except EngineStatus Unit → Attempt σ Bool
  | .ok () => return true
  | .error status => takeBack c buf status

theorem run_submit {payload buf : Addr} {length : Nat} {m₁ : Machine σ}
    (hstage : (stageFrame c payload length).run.run m = pure (.ok buf, m₁)) :
    ∃ accepted m₂, (submit c payload length).run.run m = pure (.ok accepted, m₂) ∧
      Submission c m₁ buf length accepted m₂ := by
  have hsubmit : (submit c payload length).run.run m = (do
      let answer ← always (Driver.command c (.transmit (m₁.frameAt buf length)))
      settle c buf answer : Attempt σ Bool).run.run m₁ := by
    unfold submit
    rw [ExceptT.run_bind, StateT.run_bind, hstage]
    rfl
  rw [hsubmit, run_always_bind, StateT.run_bind, Driver.run_command, pure_bind]
  rcases hanswer : c.command m₁.clock (.transmit (m₁.frameAt buf length)) m₁.world with
    ⟨status | ⟨⟩, world⟩
  · obtain ⟨m₂, hrun, htaken⟩ := run_takeBack (c := c) buf status { m₁ with
      trace := m₁.trace.push (.command (.transmit (m₁.frameAt buf length)) (.error status))
      world }
    exact ⟨false, m₂, hrun, .refused hanswer htaken⟩
  · exact ⟨true, _, rfl, .accepted hanswer⟩

theorem outputRun_of_linkUp {buffer : NetworkBuffer} {payload : Addr} (releaseAfterSend : Bool)
    (hopen : m.interface.engineOpen = true) (hpayload : buffer.payload = some payload)
    (hlink : m.interface.linkIsUp = true) :
    OutputRun c m buffer releaseAfterSend
      ((output c buffer releaseAfterSend).run.run m).1
      ((output c buffer releaseAfterSend).run.run m).2 := by
  have houtput : (output c buffer releaseAfterSend).run.run m = (do
      let accepted ← submit c payload buffer.sendSize
      if !accepted || (releaseAfterSend && !m.interface.config.zeroCopyTx) then
        always (Driver.releaseBuffer c buffer.index) : Attempt σ Unit).run.run m := by
    simp only [output, run_always_bind, StateT.run_bind, Driver.run_interface, pure_bind, hopen,
      hpayload, hlink, Bool.not_true, Bool.false_eq_true, if_false, if_true]
    rfl
  have hgiven : ∀ accepted m₂, ((do
      if !accepted || (releaseAfterSend && !m.interface.config.zeroCopyTx) then
        always (Driver.releaseBuffer c buffer.index) : Attempt σ Unit).run.run m₂) =
      pure (.ok (), m₂.givenBack c buffer.index
        (!accepted || (releaseAfterSend && !m.interface.config.zeroCopyTx))) := by
    intro accepted m₂
    cases !accepted || (releaseAfterSend && !m.interface.config.zeroCopyTx) with
    | false => rfl
    | true => rfl
  rw [houtput]
  rcases run_stageFrame (c := c) payload buffer.sendSize m with
    ⟨buf, m₁, hstage, hstaged⟩ | ⟨hmode, e, reply, hstage, hreply, hresult⟩
  · obtain ⟨accepted, m₂, hsubmit, hsubmission⟩ := run_submit hstage
    rw [ExceptT.run_bind, StateT.run_bind, hsubmit, pure_bind]
    dsimp only
    rw [hgiven]
    exact .submitted hopen hpayload hlink hstaged hsubmission
  · have hsubmit : (submit c payload buffer.sendSize).run.run m =
        pure (.error (.halt (.noTransmitSlot e)), m.withReply reply) := by
      unfold submit
      rw [ExceptT.run_bind, StateT.run_bind, hstage]
      rfl
    rw [ExceptT.run_bind, StateT.run_bind, hsubmit]
    exact .halted hopen hpayload hlink hmode hreply hresult

/-- Every call of output is one of the cases. -/
theorem outputRun (c : Collaborators σ) (buffer : NetworkBuffer) (releaseAfterSend : Bool)
    (m : Machine σ) :
    OutputRun c m buffer releaseAfterSend
      ((output c buffer releaseAfterSend).run.run m).1
      ((output c buffer releaseAfterSend).run.run m).2 := by
  cases hopen : m.interface.engineOpen with
  | false =>
      have hrun : ∃ log, (output c buffer releaseAfterSend).run.run m =
          pure (.error (.error .engineNotInitialized), { m with log }) := by
        simp only [output, run_always_bind, StateT.run_bind, Driver.run_interface, pure_bind, hopen]
        exact ⟨_, rfl⟩
      obtain ⟨log, hrun⟩ := hrun
      rw [hrun]
      exact .unopened hopen
  | true =>
  cases hpayload : buffer.payload with
  | none =>
      have hrun : ∃ log, (output c buffer releaseAfterSend).run.run m =
          pure (.error (.error .nullPayload), { m with log }) := by
        simp only [output, run_always_bind, StateT.run_bind, Driver.run_interface, pure_bind, hopen,
          hpayload]
        exact ⟨_, rfl⟩
      obtain ⟨log, hrun⟩ := hrun
      rw [hrun]
      exact .empty hopen hpayload
  | some payload =>
  cases hlink : m.interface.linkIsUp with
  | false =>
      have hrun : ∃ log, (output c buffer releaseAfterSend).run.run m =
          pure (.ok (), Machine.givenBack c buffer.index releaseAfterSend { m with log }) := by
        simp only [output, run_always_bind, StateT.run_bind, Driver.run_interface, pure_bind, hopen,
          hpayload, hlink]
        cases releaseAfterSend with
        | false => exact ⟨_, rfl⟩
        | true => exact ⟨_, rfl⟩
      obtain ⟨log, hrun⟩ := hrun
      rw [hrun]
      exact .dropped hopen hpayload hlink
  | true => exact outputRun_of_linkUp releaseAfterSend hopen hpayload hlink

end Attempt

end XgmacDriver
