import XgmacDriver.Link
import XgmacDriver.Machine.Attempt

/-! # Bring-up

The stack calls `initialise` until it succeeds. Each call resumes at the stage where the previous
one stopped and goes on for as long as stages complete. What a failed attempt has set up survives
it: a pool is created once and a task is created once.
-/

namespace XgmacDriver.Attempt

variable {σ : Type} (c : Collaborators σ)

def requireEngine : Attempt σ Unit := do
  if !(← always Driver.interface).engineOpen then
    fail .engineNotInitialized

def openEngine : Attempt σ Unit := do
  let index := (← always Driver.interface).index
  let opened ← always (Driver.consult (c.openEmac index))
  always (Driver.record (.openEmac index opened))
  if !opened then
    fail .engineNotInitialized
  always (Driver.modifyInterface Interface.withEngine)
  command c .setCallback

def updatePhy (f : σ → PhyRecord → PhyRecord) : Attempt σ Unit :=
  always (modify fun m => { m with interface := m.interface.withPhy (f m.world m.interface.phy) })

def initLinkPartner : Attempt σ Unit := do
  requireEngine
  command c (.phyDiscover (← always Driver.interface).phy)
  updatePhy c.discovered
  command c (.phyInitialize (← always Driver.interface).phy)
  updatePhy c.negotiated
  let phy := (← always Driver.interface).phy
  always (Driver.report (.phyFound phy.identifier phy.address))

def ensurePool (d : Direction) : Attempt σ Unit := do
  if !((← always Driver.interface).pool d).isInitialized then
    ExceptT.mk (Driver.createPool c d)

def receiveBuffer : Attempt σ Addr := do
  if (← always Driver.config).zeroCopyRx then
    match (← always (Driver.getBuffer c maxPacketSize prefillWait)).bind (·.payload) with
    | some a => return a
    | none => fail .noNetworkBuffer
  else
    orFail (Driver.acquireSlot c .rx maxPacketSize)

/-- Give each of `n` receive descriptors a buffer. -/
def prefill : (n : Nat) → Attempt σ Unit
  | 0 => return
  | n + 1 => do
      let a ← receiveBuffer c
      command c (.refill a)
      prefill n

def initTransfer : Attempt σ Unit := do
  requireEngine
  let config ← always Driver.config
  if !config.zeroCopyTx then
    ensurePool c .tx
  if !config.zeroCopyRx then
    ensurePool c .rx
  command c .dmaInitialize
  let m ← always get
  prefill c (c.rxDescriptors m.world)

def startEngine : Attempt σ Unit := do
  requireEngine
  let phy := (← always Driver.interface).phy
  command c (.cfgSpeed phy)
  command c .emacStart

/-- Create the deferred task, unless it exists, and let interrupts through to it. -/
def startTask : Attempt σ Unit := do
  let i ← always Driver.interface
  if i.task.isNone then
    let spec := {
      name := emacTaskName
      stackSize := i.config.taskStackSize
      priority := i.config.taskPriority }
    match ← always (Driver.spawn c spec) with
    | none => fail .taskCreationFailed
    | some handle => always (Driver.modifyInterface (·.withTask handle))

/-- Wait for the link, then create the deferred task; whether the link is up. -/
def awaitLink : Attempt σ Bool := do
  requireEngine
  let i ← always Driver.interface
  if ← always (Driver.checkLink c i.phy.address i.config.initLinkWait) then
    startTask c
    return true
  else
    always (Driver.report (.waitingForLink i.index))
    return false

/-- Run one stage; `pending` if it cannot complete yet. -/
def runStage : Stage → Attempt σ StageOutcome
  | .engineInit => do openEngine c; return .done
  | .linkPartnerInit => do initLinkPartner c; return .done
  | .transferInit => do initTransfer c; return .done
  | .engineStart => do startEngine c; return .done
  | .linkWait => return if ← awaitLink c then .done else .pending
  | .ready | .failed => return .done

def setStage (s : Stage) : Attempt σ Unit :=
  always (Driver.modifyInterface (·.withStage s))

/-- Run stage `s`; an error in it makes bring-up fail in that stage. -/
def runStageOrFail (s : Stage) : Attempt σ StageOutcome := do
  match ← always (runStage c s).run with
  | .ok outcome => return outcome
  | .error (.error e) =>
      always (Driver.report (.stageFailed s e))
      setStage .failed
      fail (.initFailed s)
  | .error (.halt h) => halt h

/-- Run stages from `s` on for as long as they complete; the stage at which that ends. -/
def runStages (s : Stage) : Attempt σ Stage := do
  if s.isTerminal then
    return s
  else
    let outcome ← runStageOrFail c s
    if h : s.next outcome = s then
      return s
    else
      have := Stage.remaining_next_lt h
      if s.next outcome = .ready then
        always (Driver.report (.interfaceReady (← always Driver.interface).index))
      runStages (s.next outcome)
termination_by s.remaining

def initialise : Attempt σ Unit := do
  let reached ← runStages c (← always Driver.interface).stage.entry
  setStage reached
  match reached with
  | .ready => return
  | .failed => fail (.initFailed .failed)
  | _ => fail .linkDown

theorem runStages_of_isTerminal {s : Stage} (h : s.isTerminal = true) :
    runStages c s = pure s := by
  rw [runStages, if_pos h]

end XgmacDriver.Attempt
