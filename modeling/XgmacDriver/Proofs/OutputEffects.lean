import XgmacDriver.Proofs.OutputRuns
import XgmacDriver.Proofs.TransmitSupply

/-! # What output does with a frame, its buffer and its slot

On an interface that has lived through any history a call of output halts exactly if it needs a slot
and gets none. Otherwise the link, the mode, the answer of the engine and the flag of the caller
decide what is sent and who has the buffer and the slot afterwards.
-/

namespace XgmacDriver

variable {σ : Type} {c : Collaborators σ} {last : Option (Machine σ)} {m m₁ m₂ m' : Machine σ}
  {buffer : NetworkBuffer} {payload buf : Addr} {length : Nat} {releaseAfterSend accepted : Bool}
  {result : Except Failure Unit}

/-- A call that is refused a slot has changed nothing but the clock and the log. -/
theorem OutputRun.halts_iff (h : OutputRun c m buffer releaseAfterSend result m')
    (hpool : m.interface.txPool.Proper)
    (hready : m.interface.linkIsUp = true → m.interface.config.zeroCopyTx = false →
      m.interface.txPool.isInitialized = true)
    (hopen : m.interface.engineOpen = true) (hpayload : buffer.payload = some payload) :
    ((∃ halt, result = .error (.halt halt)) ↔
        m.interface.linkIsUp = true ∧ m.interface.config.zeroCopyTx = false ∧
          (m.interface.txPool.used = poolSlots ∨
            ((c.lock .tx m.world).obtain m.clock).1 = false)) ∧
      ∀ halt, result = .error (.halt halt) →
        m.interface.txPool.isInitialized = true ∧
        halt = .noTransmitSlot (if ((c.lock .tx m.world).obtain m.clock).1 then .poolExhausted
          else .poolLockTimeout) ∧
        ∃ clock log, m' = { m with clock, log } := by
  cases h with
  | unopened hclosed => exact absurd (hopen.symm.trans hclosed) nofun
  | empty _ hnone => exact absurd (hpayload.symm.trans hnone) nofun
  | dropped _ _ hdown =>
      refine ⟨iff_of_false (fun ⟨halt, hhalt⟩ => nomatch hhalt) ?_, nofun⟩
      rintro ⟨hlink, -⟩
      exact absurd (hlink.symm.trans hdown) nofun
  | halted _ _ hlink hmode hreply hresult =>
      have hinit := hready hlink hmode
      have hacquired := hpool.acquired hinit (Nat.le_refl maxPacketSize) (c.lock .tx m.world)
        m.clock m.memory
      rw [hreply] at hacquired
      cases hacquired with
      | late hlate =>
          cases hresult
          constructor
          · exact iff_of_true ⟨_, rfl⟩ ⟨hlink, hmode, Or.inr hlate⟩
          · rintro halt ⟨⟩
            refine ⟨hinit, ?_, _, _, rfl⟩
            rw [hlate, if_neg Bool.false_ne_true]
      | exhausted hhad hfull =>
          cases hresult
          constructor
          · exact iff_of_true ⟨_, rfl⟩ ⟨hlink, hmode, Or.inl (hfull.trans hpool.capacity)⟩
          · rintro halt ⟨⟩
            refine ⟨hinit, ?_, _, _, rfl⟩
            rw [hhad, if_pos rfl]
      | taken => cases hresult
  | submitted _ _ hlink hstaged hsubmission =>
      refine ⟨iff_of_false (fun ⟨halt, hhalt⟩ => nomatch hhalt) ?_, nofun⟩
      rintro ⟨-, hmode, hrefused⟩
      cases hstaged with
      | direct hzero => exact absurd (hmode.symm.trans hzero) nofun
      | copied _ hreply hresult =>
          have hacquired := hpool.acquired (hready hlink hmode) (Nat.le_refl maxPacketSize)
            (c.lock .tx m.world) m.clock m.memory
          rw [hreply] at hacquired
          cases hacquired with
          | late => cases hresult
          | exhausted => cases hresult
          | taken hhad hlt =>
              rcases hrefused with hfull | hlate
              · rw [hpool.capacity] at hlt
                omega
              · exact absurd (hhad.symm.trans hlate) nofun

/-- Whatever has happened to an interface before, output on an open engine halts exactly if the link
was last found up, frames are copied, and all slots are in use or the lock is not had in time. That
there is no pool yet is not among the reasons, and the call has asked nobody for anything. -/
theorem Lifetime.output_halts_iff (h : Lifetime c last m) (hopen : m.interface.engineOpen = true)
    (hpayload : buffer.payload = some payload)
    (hrun : (Attempt.output c buffer releaseAfterSend).run.run m = (result, m')) :
    ((∃ halt, result = .error (.halt halt)) ↔
        m.interface.linkIsUp = true ∧ m.interface.config.zeroCopyTx = false ∧
          (m.interface.txPool.used = poolSlots ∨
            ((c.lock .tx m.world).obtain m.clock).1 = false)) ∧
      ∀ halt, result = .error (.halt halt) →
        m.interface.txPool.isInitialized = true ∧
        halt = .noTransmitSlot (if ((c.lock .tx m.world).obtain m.clock).1 then .poolExhausted
          else .poolLockTimeout) ∧
        ∃ clock log, m' = { m with clock, log } := by
  have houtput := Attempt.outputRun c buffer releaseAfterSend m
  rw [hrun] at houtput
  exact houtput.halts_iff h.supplied.1 h.supplied.2 hopen hpayload

/-- The pool locks are never let go, and every sleep takes two seconds longer. -/
def locksHeld : Collaborators Arena :=
  { Collaborators.ofArena (.ok ()) true with lock := fun _ _ => .forever }

def drowsyMachine : Machine Arena := { freshMachine with clock := .startingAt 0 2000 }

def lockedMachine : Machine Arena := ((Attempt.initialise locksHeld).run.run drowsyMachine).2

def sixtyBytes : NetworkBuffer := ⟨0, some regionStart, 1536, 60⟩

theorem Lifetime.output_halts_iff_locks_held : ∃ halt,
    ((Attempt.output locksHeld sixtyBytes true).run.run lockedMachine).1 =
      .error (.halt halt) := by
  have hregister : Interface.register 0 { zeroCopyRx := true } = .ok _ := rfl
  have hlife : Lifetime locksHeld (some drowsyMachine) lockedMachine :=
    (Lifetime.registered hregister).initialise
  have hpayload : sixtyBytes.payload = some regionStart := rfl
  refine (hlife.output_halts_iff (by decide +kernel) hpayload rfl).1.mpr ?_
  exact ⟨by decide +kernel, by decide +kernel, Or.inr (by decide +kernel)⟩

/-! ## Calls that return -/

/-- What a call that drops its frame leaves behind. -/
structure FrameDropped (m : Machine σ) (buffer : NetworkBuffer) (releaseAfterSend : Bool)
    (m' : Machine σ) : Prop where
  interface : m'.interface = m.interface
  engine : m'.engine = m.engine
  memory : m'.memory = m.memory
  exchanges : ∃ accepted, m'.since m.trace.size =
    if releaseAfterSend then [.releaseBuffer buffer.index accepted] else []

/-- Whether the lock is had in time when the slot of `frame` is given back after a refusal. -/
def regainsLock (c : Collaborators σ) (m : Machine σ) (frame : TxFrame) : Bool :=
  let clock := ((c.lock .tx m.world).obtain m.clock).2
  ((c.lock .tx (c.command clock (.transmit frame) m.world).2).obtain clock).1

/-- Whether the frame has a slot that stays in use once the engine has given `answer`. -/
def keepsSlot (c : Collaborators σ) (m : Machine σ) (frame : TxFrame)
    (answer : Except EngineStatus Unit) : Bool :=
  !m.interface.config.zeroCopyTx && (answer.isOk || !regainsLock c m frame)

/-- What has become of the pool once the engine has given `answer` to `frame`: with copying the
frame lies in the slot that was at the head of the queue, and without it in the payload itself. -/
structure SlotSettled (c : Collaborators σ) (m : Machine σ) (payload : Addr) (frame : TxFrame)
    (answer : Except EngineStatus Unit) (m' : Machine σ) : Prop where
  interface : m'.interface = m.interface.setPool m'.interface.txPool .tx
  used : m'.interface.txPool.used =
    m.interface.txPool.used + if keepsSlot c m frame answer then 1 else 0
  direct : m.interface.config.zeroCopyTx = true →
    frame.buf = payload ∧ m'.interface = m.interface ∧ m'.memory = m.memory
  copied : m.interface.config.zeroCopyTx = false →
    m.interface.txPool.ring.queue.head? = some frame.buf ∧
    m'.interface.txPool.ring.queue = m.interface.txPool.ring.queue.tail ++
      if keepsSlot c m frame answer then [] else [frame.buf]
  zeroed : m.interface.config.zeroCopyTx = false → keepsSlot c m frame answer = false →
    m'.memory.read frame.buf maxPacketSize = List.replicate maxPacketSize 0

/-- What a call leaves behind that has offered `frame` to the engine and was given `answer`. -/
structure FrameOffered (c : Collaborators σ) (m : Machine σ) (buffer : NetworkBuffer)
    (payload : Addr) (releaseAfterSend : Bool) (frame : TxFrame)
    (answer : Except EngineStatus Unit) (m' : Machine σ) : Prop extends
    SlotSettled c m payload frame answer m' where
  answered : ∃ clock, (c.command clock (.transmit frame) m.world).1 = answer
  release : frame.release = true
  size : frame.size = buffer.sendSize
  bytes : frame.bytes = m.memory.read payload buffer.sendSize
  exchanges : ∃ accepted, m'.since m.trace.size = .command (.transmit frame) answer ::
    if !answer.isOk || (releaseAfterSend && !m.interface.config.zeroCopyTx) then
      [.releaseBuffer buffer.index accepted] else []

theorem SlotSettled.congr {frame : TxFrame} {answer : Except EngineStatus Unit}
    (h : SlotSettled c m payload frame answer m₂) (hinterface : m'.interface = m₂.interface)
    (hmemory : m'.memory = m₂.memory) : SlotSettled c m payload frame answer m' := by
  constructor
  · rw [hinterface]
    exact h.interface
  · rw [hinterface]
    exact h.used
  · rw [hinterface, hmemory]
    exact h.direct
  · rw [hinterface]
    exact h.copied
  · rw [hmemory]
    exact h.zeroed

theorem Staged.bytes_eq (h : Staged c m payload length buf m₁) :
    m₁.memory.read buf length = m.memory.read payload length ∧ m₁.trace = m.trace ∧
      m₁.world = m.world := by
  cases h with
  | direct _ => exact ⟨rfl, rfl, rfl⟩
  | @copied slot reply _ hreply _ =>
      have hmemory := (m.interface.txPool.acquire_cases maxPacketSize (c.lock .tx m.world) m.clock
        m.memory).1
      rw [hreply] at hmemory
      refine ⟨?_, rfl, rfl⟩
      calc
        (reply.memory.copy payload buf length).read buf length =
            reply.memory.read payload length := Memory.read_copy_self _ _ _ _
        _ = m.memory.read payload length := by rw [hmemory]

theorem Submission.answered (h : Submission c m₁ buf length accepted m₂) :
    ∃ answer, answer.isOk = accepted ∧
      (c.command m₁.clock (.transmit (m₁.frameAt buf length)) m₁.world).1 = answer ∧
      m₂.trace = m₁.trace.push (.command (.transmit (m₁.frameAt buf length)) answer) := by
  cases h with
  | accepted hanswer => exact ⟨.ok (), rfl, congrArg Prod.fst hanswer, rfl⟩
  | @refused status _ _ hanswer htaken =>
      refine ⟨.error status, rfl, congrArg Prod.fst hanswer, ?_⟩
      cases htaken with
      | direct _ => rfl
      | released _ _ => rfl

theorem Submission.direct (h : Submission c m₁ buf length accepted m₂)
    (hmode : m₁.interface.config.zeroCopyTx = true) :
    m₂.interface = m₁.interface ∧ m₂.memory = m₁.memory := by
  cases h with
  | accepted _ => exact ⟨rfl, rfl⟩
  | refused _ htaken =>
      cases htaken with
      | direct _ => exact ⟨rfl, rfl⟩
      | released hcopying _ => exact absurd (hcopying.symm.trans hmode) nofun

/-- The slot of a refused frame goes to the end of the queue, unless the lock is not had in time. -/
theorem Submission.copied (h : Submission c m₁ buf length accepted m₂)
    (hmode : m₁.interface.config.zeroCopyTx = false) (hpool : m₁.interface.txPool.Proper)
    (hready : m₁.interface.txPool.isInitialized = true) (hused : 0 < m₁.interface.txPool.used)
    (hmember : m₁.interface.txPool.contains buf = true) :
    let frame := m₁.frameAt buf length
    let regains :=
      ((c.lock .tx (c.command m₁.clock (.transmit frame) m₁.world).2).obtain m₁.clock).1
    m₂.interface = m₁.interface.setPool m₂.interface.txPool .tx ∧
      ((accepted || !regains) = true → m₂.interface = m₁.interface) ∧
      ((accepted || !regains) = false →
        m₂.interface.txPool.used + 1 = m₁.interface.txPool.used ∧
        m₂.interface.txPool.ring.queue = m₁.interface.txPool.ring.queue ++ [buf] ∧
        m₂.memory.read buf maxPacketSize = List.replicate maxPacketSize 0) := by
  intro frame regains
  cases h with
  | accepted _ => exact ⟨rfl, fun _ => rfl, nofun⟩
  | refused hanswer htaken =>
      cases htaken with
      | direct hzero => exact absurd (hmode.symm.trans hzero) nofun
      | released _ hreply =>
          have hworld := congrArg Prod.snd hanswer
          have hregains : regains =
              ((c.lock .tx (c.command m₁.clock (.transmit frame) m₁.world).2).obtain m₁.clock).1 :=
            rfl
          rw [hworld] at hregains
          rw [Pool.release_of_contains hused hmember, ← hregains] at hreply
          subst hreply
          obtain ⟨hqueue, -, hcount⟩ := Ring.give_of_pos (hpool.wellFormed hready) hused buf
          cases regains with
          | false => exact ⟨rfl, fun _ => rfl, nofun⟩
          | true =>
              refine ⟨rfl, nofun, fun _ => ⟨?_, hqueue, ?_⟩⟩
              · show (m₁.interface.txPool.ring.give buf).used + 1 = m₁.interface.txPool.used
                have hpos : 0 < m₁.interface.txPool.ring.used := hused
                have heq : m₁.interface.txPool.used = m₁.interface.txPool.ring.used := rfl
                omega
              · have hsize := hpool.slotSize
                show (m₁.memory.fill buf m₁.interface.txPool.slotSize 0).read buf maxPacketSize = _
                rw [hsize]
                exact Memory.read_fill_self _ _ _ _

theorem Staged.taken (h : Staged c m payload length buf m₁)
    (hmode : m.interface.config.zeroCopyTx = false) (hpool : m.interface.txPool.Proper)
    (hready : m.interface.txPool.isInitialized = true) :
    ∃ ring, m₁.interface = { m.interface with txPool := { m.interface.txPool with ring } } ∧
      m₁.clock = ((c.lock .tx m.world).obtain m.clock).2 ∧
      m.interface.txPool.ring.queue = buf :: ring.queue ∧
      ring.used = m.interface.txPool.used + 1 ∧
      Pool.Proper { m.interface.txPool with ring } ∧
      Pool.contains { m.interface.txPool with ring } buf = true := by
  cases h with
  | direct hzero => exact absurd (hmode.symm.trans hzero) nofun
  | copied _ hreply hresult =>
      have hacquired := hpool.acquired hready (Nat.le_refl maxPacketSize) (c.lock .tx m.world)
        m.clock m.memory
      rw [hreply] at hacquired
      cases hacquired with
      | late => cases hresult
      | exhausted => cases hresult
      | @taken slot ring _ _ hqueue hused hcapacity hring =>
          cases hresult
          have hmembers : ∀ a ∈ buf :: ring.queue, m.interface.txPool.contains a = true := by
            rw [← hqueue]
            exact hpool.slots hready
          refine ⟨ring, rfl, rfl, hqueue, hused, ?_, ?_⟩
          · refine hpool.withRing hcapacity fun _ => ⟨hring, fun a ha => ?_⟩
            exact hmembers a (List.mem_cons_of_mem buf ha)
          · exact (Pool.contains_withRing hcapacity).trans (hmembers buf List.mem_cons_self)

theorem Staged.settled_direct {answer : Except EngineStatus Unit}
    (h : Staged c m payload length buf m₁)
    (hsubmission : Submission c m₁ buf length answer.isOk m₂)
    (hmode : m.interface.config.zeroCopyTx = true) :
    SlotSettled c m payload (m₁.frameAt buf length) answer m₂ := by
  cases h with
  | copied hcopying => exact absurd (hcopying.symm.trans hmode) nofun
  | direct =>
      obtain ⟨hinterface, hmemory⟩ := hsubmission.direct hmode
      have hcopying : ¬m.interface.config.zeroCopyTx = false := by simp [hmode]
      constructor
      · rw [hinterface]
        rfl
      · rw [hinterface, keepsSlot, hmode]
        rfl
      · exact fun _ => ⟨rfl, hinterface, hmemory⟩
      · exact fun hmode' => absurd hmode' hcopying
      · exact fun hmode' => absurd hmode' hcopying

theorem Staged.settled_copied {answer : Except EngineStatus Unit}
    (h : Staged c m payload length buf m₁)
    (hsubmission : Submission c m₁ buf length answer.isOk m₂)
    (hmode : m.interface.config.zeroCopyTx = false) (hpool : m.interface.txPool.Proper)
    (hready : m.interface.txPool.isInitialized = true) :
    SlotSettled c m payload (m₁.frameAt buf length) answer m₂ := by
  obtain ⟨-, -, hworld⟩ := h.bytes_eq
  obtain ⟨ring, hstaged, hclock, hqueue, hused, hproper, hmember⟩ := h.taken hmode hpool hready
  have hpool₁ : m₁.interface.txPool = { m.interface.txPool with ring } := by rw [hstaged]
  have hmode₁ : m₁.interface.config.zeroCopyTx = false := by rw [hstaged]; exact hmode
  have hused₁ : m₁.interface.txPool.used = m.interface.txPool.used + 1 := by
    rw [hpool₁]
    exact hused
  have hqueue₁ : m₁.interface.txPool.ring.queue = m.interface.txPool.ring.queue.tail := by
    rw [hpool₁, hqueue, List.tail_cons]
  obtain ⟨hothers, hkept, hreturned⟩ := hsubmission.copied hmode₁ (hpool₁ ▸ hproper)
    (hpool₁ ▸ hready) (by omega) (hpool₁ ▸ hmember)
  have hkeeps : keepsSlot c m (m₁.frameAt buf length) answer = (answer.isOk || !((c.lock .tx
      (c.command m₁.clock (.transmit (m₁.frameAt buf length)) m₁.world).2).obtain m₁.clock).1) := by
    rw [hworld, hclock]
    simp [keepsSlot, hmode, regainsLock]
  rw [← hkeeps] at hkept hreturned
  constructor
  case interface =>
    rw [hothers, hstaged]
    rfl
  case direct => exact fun hmode' => absurd (hmode.symm.trans hmode') nofun
  case zeroed => exact fun _ hfree => (hreturned hfree).2.2
  case used =>
    cases hslot : keepsSlot c m (m₁.frameAt buf length) answer with
    | true =>
        rw [hkept hslot, if_pos rfl]
        exact hused₁
    | false =>
        obtain ⟨hcount, -, -⟩ := hreturned hslot
        rw [if_neg Bool.false_ne_true]
        omega
  case copied =>
    intro _
    constructor
    · rw [hqueue]
      rfl
    · cases hslot : keepsSlot c m (m₁.frameAt buf length) answer with
      | true =>
          rw [hkept hslot, if_pos rfl, List.append_nil]
          exact hqueue₁
      | false =>
          rw [(hreturned hslot).2.1, hqueue₁]
          rfl

theorem Staged.exchanges (h : Staged c m payload length buf m₁)
    (hsubmission : Submission c m₁ buf length accepted m₂) (index : UInt16) (release : Bool) :
    ∃ answer taken, answer.isOk = accepted ∧
      (c.command m₁.clock (.transmit (m₁.frameAt buf length)) m.world).1 = answer ∧
      (m₂.givenBack c index release).since m.trace.size =
        .command (.transmit (m₁.frameAt buf length)) answer ::
          if release then [.releaseBuffer index taken] else [] := by
  obtain ⟨-, htrace, hworld⟩ := h.bytes_eq
  obtain ⟨answer, haccepted, hanswer, hasked⟩ := hsubmission.answered
  obtain ⟨taken, hgiven⟩ := Machine.trace_givenBack (c := c) (m := m₂) index release
  refine ⟨answer, taken, haccepted, hworld ▸ hanswer, Machine.since_of_append ?_⟩
  rw [hgiven, hasked, htrace, Array.toList_push, List.append_assoc]
  rfl

/-- The frame of a call that does not halt is offered once, and everything has its place then. -/
theorem Staged.offered (h : Staged c m payload buffer.sendSize buf m₁)
    (hsubmission : Submission c m₁ buf buffer.sendSize accepted m₂)
    (hpool : m.interface.txPool.Proper)
    (hready : m.interface.config.zeroCopyTx = false → m.interface.txPool.isInitialized = true) :
    ∃ frame answer, FrameOffered c m buffer payload releaseAfterSend frame answer
      (m₂.givenBack c buffer.index
        (!accepted || (releaseAfterSend && !m.interface.config.zeroCopyTx))) := by
  obtain ⟨hbytes, -, -⟩ := h.bytes_eq
  obtain ⟨answer, taken, rfl, hanswer, hexchanges⟩ := h.exchanges hsubmission buffer.index
    (!accepted || (releaseAfterSend && !m.interface.config.zeroCopyTx))
  have hsettled : SlotSettled c m payload (m₁.frameAt buf buffer.sendSize) answer m₂ := by
    cases hmode : m.interface.config.zeroCopyTx with
    | true => exact h.settled_direct hsubmission hmode
    | false => exact h.settled_copied hsubmission hmode hpool (hready hmode)
  refine ⟨m₁.frameAt buf buffer.sendSize, answer, ?_, ?_, rfl, rfl, hbytes, taken, hexchanges⟩
  · exact hsettled.congr (Machine.interface_givenBack _ _) (Machine.memory_givenBack _ _)
  · exact ⟨_, hanswer⟩

theorem OutputRun.returns_of_free (h : OutputRun c m buffer releaseAfterSend result m')
    (hpool : m.interface.txPool.Proper)
    (hready : m.interface.linkIsUp = true → m.interface.config.zeroCopyTx = false →
      m.interface.txPool.isInitialized = true)
    (hopen : m.interface.engineOpen = true) (hpayload : buffer.payload = some payload)
    (hleft : m.interface.txPool.used ≠ poolSlots)
    (hfree : ((c.lock .tx m.world).obtain m.clock).1 = true) (halt : Halt) :
    result ≠ .error (.halt halt) := by
  intro hhalt
  obtain ⟨-, -, hfull | hlate⟩ := (h.halts_iff hpool hready hopen hpayload).1.mp ⟨halt, hhalt⟩
  · exact hleft hfull
  · exact absurd (hfree.symm.trans hlate) nofun

theorem OutputRun.offered (h : OutputRun c m buffer releaseAfterSend result m')
    (hpool : m.interface.txPool.Proper)
    (hready : m.interface.config.zeroCopyTx = false → m.interface.txPool.isInitialized = true)
    (hopen : m.interface.engineOpen = true) (hpayload : buffer.payload = some payload)
    (hlink : m.interface.linkIsUp = true) (hreturns : ∀ halt, result ≠ .error (.halt halt)) :
    result = .ok () ∧
      ∃ frame answer, FrameOffered c m buffer payload releaseAfterSend frame answer m' := by
  cases h with
  | unopened hclosed => exact absurd (hopen.symm.trans hclosed) nofun
  | empty _ hnone => exact absurd (hpayload.symm.trans hnone) nofun
  | dropped _ _ hdown => exact absurd (hlink.symm.trans hdown) nofun
  | halted => exact absurd rfl (hreturns _)
  | submitted _ hpayload' _ hstaged hsubmission =>
      obtain rfl := Option.some.inj (hpayload.symm.trans hpayload')
      exact ⟨rfl, hstaged.offered hsubmission hpool hready⟩

theorem OutputRun.frameDropped (h : OutputRun c m buffer releaseAfterSend result m')
    (hopen : m.interface.engineOpen = true) (hpayload : buffer.payload = some payload)
    (hlink : m.interface.linkIsUp = false) :
    result = .ok () ∧ FrameDropped m buffer releaseAfterSend m' := by
  cases h with
  | unopened hclosed => exact absurd (hopen.symm.trans hclosed) nofun
  | empty _ hnone => exact absurd (hpayload.symm.trans hnone) nofun
  | @dropped _ log _ _ _ =>
      obtain ⟨taken, htrace⟩ := Machine.trace_givenBack (c := c) (m := { m with log }) buffer.index
        releaseAfterSend
      refine ⟨rfl, ?_, ?_, ?_, taken, Machine.since_of_append htrace⟩
      · exact Machine.interface_givenBack _ _
      · exact Machine.engine_givenBack _ _
      · exact Machine.memory_givenBack _ _
  | halted _ _ hup => exact absurd (hlink.symm.trans hup) nofun
  | submitted _ _ hup => exact absurd (hlink.symm.trans hup) nofun

/-- What a call of output does unless it halts, whatever has happened to the interface before: it is
refused without an engine or a payload, drops the frame with the link down, and otherwise offers the
engine one frame with what the payload has. -/
theorem Lifetime.output_effects (h : Lifetime c last m)
    (hrun : (Attempt.output c buffer releaseAfterSend).run.run m = (result, m'))
    (hreturns : ∀ halt, result ≠ .error (.halt halt)) :
    (m.interface.engineOpen = false →
        result = .error (.error .engineNotInitialized) ∧ ∃ log, m' = { m with log }) ∧
      (m.interface.engineOpen = true → buffer.payload = none →
        result = .error (.error .nullPayload) ∧ ∃ log, m' = { m with log }) ∧
      ∀ payload, m.interface.engineOpen = true → buffer.payload = some payload →
        result = .ok () ∧
        (m.interface.linkIsUp = false → FrameDropped m buffer releaseAfterSend m') ∧
        (m.interface.linkIsUp = true → ∃ frame answer,
          FrameOffered c m buffer payload releaseAfterSend frame answer m') := by
  have houtput := Attempt.outputRun c buffer releaseAfterSend m
  rw [hrun] at houtput
  refine ⟨fun hclosed => ?_, fun hopen hnone => ?_, fun payload hopen hpayload => ?_⟩
  · cases houtput with
    | unopened => exact ⟨rfl, _, rfl⟩
    | empty hopen => exact absurd (hopen.symm.trans hclosed) nofun
    | dropped hopen => exact absurd (hopen.symm.trans hclosed) nofun
    | halted hopen => exact absurd (hopen.symm.trans hclosed) nofun
    | submitted hopen => exact absurd (hopen.symm.trans hclosed) nofun
  · cases houtput with
    | unopened hclosed => exact absurd (hopen.symm.trans hclosed) nofun
    | empty => exact ⟨rfl, _, rfl⟩
    | dropped _ hpayload => exact absurd (hpayload.symm.trans hnone) nofun
    | halted _ hpayload => exact absurd (hpayload.symm.trans hnone) nofun
    | submitted _ hpayload => exact absurd (hpayload.symm.trans hnone) nofun
  · cases hlink : m.interface.linkIsUp with
    | false =>
        obtain ⟨hok, hdropped⟩ := houtput.frameDropped hopen hpayload hlink
        exact ⟨hok, fun _ => hdropped, nofun⟩
    | true =>
        obtain ⟨hok, hoffered⟩ := houtput.offered h.supplied.1 (h.supplied.2 hlink) hopen hpayload
          hlink hreturns
        exact ⟨hok, nofun, fun _ => hoffered⟩

/-- A frame that is accepted has the slot from then on. -/
theorem Lifetime.output_effects_accepted :
    ∃ m', (Attempt.output (.ofArena (.ok ()) true) sixtyBytes false).run.run readyMachine =
        (.ok (), m') ∧
      m'.interface.txPool.used = readyMachine.interface.txPool.used + 1 := by
  have hregister : Interface.register 0 { zeroCopyRx := true } = .ok _ := rfl
  have hlife : Lifetime (.ofArena (.ok ()) true) (some freshMachine) readyMachine :=
    (Lifetime.registered hregister).initialise
  obtain ⟨hpool, hready⟩ := hlife.supplied
  have houtput := Attempt.outputRun (.ofArena (.ok ()) true) sixtyBytes false readyMachine
  rcases hrun : (Attempt.output (.ofArena (.ok ()) true) sixtyBytes false).run.run readyMachine with
    ⟨result, m'⟩
  rw [hrun] at houtput
  have hopen : readyMachine.interface.engineOpen = true := by decide +kernel
  have hlink : readyMachine.interface.linkIsUp = true := by decide +kernel
  have hmode : readyMachine.interface.config.zeroCopyTx = false := by decide +kernel
  have hused : readyMachine.interface.txPool.used ≠ poolSlots := by decide +kernel
  have hreturns := houtput.returns_of_free hpool hready hopen rfl hused
    (congrArg Prod.fst (Lock.obtain_free _))
  obtain ⟨-, -, hreturned⟩ := hlife.output_effects hrun hreturns
  obtain ⟨rfl, -, hup⟩ := hreturned regionStart hopen rfl
  obtain ⟨frame, answer, hoffered⟩ := hup hlink
  obtain ⟨clock, rfl⟩ := hoffered.answered
  refine ⟨m', rfl, ?_⟩
  rw [hoffered.used, keepsSlot, hmode]
  rfl

/-- The engine refuses every frame, and with the first refusal somebody takes the pool locks for
good. -/
def contended : Collaborators Bool where
  openEmac _ w := (true, w)
  command _ k w := match k with
    | .transmit _ => (.error ⟨-1⟩, true)
    | _ => (.ok (), w)
  discovered _ phy := phy
  negotiated _ phy := phy
  readPhy _ _ w := (linkBit, w)
  rxDescriptors _ := 0
  getBuffer _ _ w := (none, w)
  releaseBuffer _ w := (true, w)
  considerFrame _ w := (.process, w)
  matchEndpoint _ _ w := (none, w)
  lookup _ w := (none, w)
  sendRxEvent _ _ w := (true, w)
  spawn _ w := (some 1, w)
  duringWait _ w := ([], w)
  allocate _ _ _ := some regionStart
  lock _ w := if w then .forever else .free

def uncontendedMachine : Machine Bool where
  interface := { index := 0, config := { zeroCopyRx := true } }
  engine := {}
  clock := .startingAt 0 2000
  memory := .zeroed
  trace := #[]
  log := #[]
  world := false

def contendedMachine : Machine Bool :=
  ((Attempt.initialise contended).run.run uncontendedMachine).2

theorem lifetime_contendedMachine :
    Lifetime contended (some uncontendedMachine) contendedMachine := by
  have hregister : Interface.register 0 { zeroCopyRx := true } = .ok _ := rfl
  exact (Lifetime.registered hregister).initialise

/-- A slot stays in use although the engine has refused the frame. -/
theorem Lifetime.used_succ_of_refused :
    Lifetime contended (some uncontendedMachine) contendedMachine ∧ ∃ m' frame accepted,
      (Attempt.output contended sixtyBytes true).run.run contendedMachine = (.ok (), m') ∧
      m'.since contendedMachine.trace.size =
        [.command (.transmit frame) (.error ⟨-1⟩), .releaseBuffer 0 accepted] ∧
      m'.interface.txPool.used = contendedMachine.interface.txPool.used + 1 := by
  obtain ⟨hpool, hready⟩ := lifetime_contendedMachine.supplied
  have houtput := Attempt.outputRun contended sixtyBytes true contendedMachine
  rcases hrun : (Attempt.output contended sixtyBytes true).run.run contendedMachine with
    ⟨result, m'⟩
  rw [hrun] at houtput
  have hopen : contendedMachine.interface.engineOpen = true := by decide +kernel
  have hlink : contendedMachine.interface.linkIsUp = true := by decide +kernel
  have hmode : contendedMachine.interface.config.zeroCopyTx = false := by decide +kernel
  have hused : contendedMachine.interface.txPool.used ≠ poolSlots := by decide +kernel
  have hclock : contendedMachine.clock = .startingAt 0 2000 := by decide +kernel
  have hworld : contendedMachine.world = false := by decide +kernel
  have hfree : (contended.lock .tx contendedMachine.world).obtain contendedMachine.clock =
      (true, .startingAt 0 2000) := by
    rw [hworld, hclock]
    exact Lock.obtain_free _
  have hreturns := houtput.returns_of_free hpool hready hopen rfl hused (congrArg Prod.fst hfree)
  obtain ⟨rfl, frame, answer, hoffered⟩ :=
    houtput.offered hpool (hready hlink) hopen rfl hlink hreturns
  obtain ⟨clock, hanswer⟩ := hoffered.answered
  obtain rfl : answer = .error ⟨-1⟩ := hanswer.symm
  obtain ⟨accepted, hexchanges⟩ := hoffered.exchanges
  have hlost : regainsLock contended contendedMachine frame = false := by
    unfold regainsLock
    rw [hfree]
    exact (by decide +kernel : (Lock.forever.obtain (.startingAt 0 2000)).1 = false)
  refine ⟨lifetime_contendedMachine, m', frame, accepted, rfl, hexchanges, ?_⟩
  rw [hoffered.used, keepsSlot, hmode, hlost]
  rfl

end XgmacDriver
