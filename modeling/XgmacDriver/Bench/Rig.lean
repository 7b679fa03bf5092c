import XgmacDriver.Bench.Bytes
import XgmacDriver.Bench.World
import XgmacDriver.BringUp.Initialise
import XgmacDriver.Machine.Hardware
import XgmacDriver.Service

/-! # The test rig

A rig is an interface together with its scripted world. It is driven by steps: calls of the driver,
things that happen on the engine's side, and changes to the script. Each step has an answer.
-/

namespace XgmacDriver.Bench

structure Rig where
  machine : Machine World
  layout : Layout
  /-- The poll timer of the passes that the rig runs itself. -/
  timer : Option PollTimer := none

structure RigSpec where
  index : UInt8 := 0
  config : Config := {}
  mac : MacAddress := ⟨#v[0x02, 0x00, 0x00, 0x00, 0x00, 0x01]⟩
  arenaSlots : Nat := 16
  arenaSlot : Nat := 1546
  rxDescriptors : Nat := 4
  register : UInt32 := 31085
  start : UInt64 := 0
  sleepExtra : UInt64 := 0

def RigSpec.build (s : RigSpec) : Except Failure Rig := do
  let interface ← (Interface.register s.index s.config).mapError .error
  let arena ← Arena.bind s.arenaSlots s.arenaSlot (allocateAt (Region.start .net))
  return {
    machine := {
      interface
      engine := {}
      clock := .startingAt s.start s.sleepExtra
      memory := .zeroed
      trace := #[]
      log := #[]
      world := { arena, mac := s.mac, rxDescriptors := s.rxDescriptors, register := s.register } }
    layout := ⟨s.arenaSlot⟩ }

/-- Changes to the stack's part of the script; `none` leaves a setting as it is. -/
structure StackChanges where
  grants : Option (Option Nat) := none
  refuseEvents : Option Nat := none
  nullPayload : Option Bool := none
  claimedCapacity : Option (Option Nat) := none
  noLookup : Option Bool := none
  endpoint : Option (Option UInt16) := none

def StackChanges.apply (s : StackChanges) (w : World) : World :=
  { w with
    grants := s.grants.getD w.grants
    refuseEvents := s.refuseEvents.getD w.refuseEvents
    nullPayload := s.nullPayload.getD w.nullPayload
    claimedCapacity := s.claimedCapacity.getD w.claimedCapacity
    noLookup := s.noLookup.getD w.noLookup
    endpoint := s.endpoint.getD w.endpoint }

inductive Step
  -- Calls of the driver.
  | initialise
  | processReceived
  | reclaim
  | newTimer
  | serve (passes : Nat)
  | runTask (passes : Nat)
  | send (frame : FrameSpec) (release : Bool) (length : Option Nat)
  | output (payload : Option Place) (index : UInt16) (capacity length : Nat) (release : Bool)
  | notify (w : EventWord)
  | createPool (d : Direction)
  | acquireSlots (d : Direction) (count size : Nat)
  | releaseSlot (d : Direction) (p : Place)
  | containsSlot (d : Direction) (p : Place)
  | info
  -- The engine's side.
  | receive (frame : FrameSpec) (size : Option Nat) (status : UInt32) (interrupts : Bool)
  | receiveAt (buf : Option Place) (size : Nat) (status : UInt32) (frame : Option FrameSpec)
      (interrupts : Bool)
  | completeTransmit (interrupts : Bool)
  | answerTransmit (answer : Except EngineStatus (Option Place)) (interrupts : Bool)
  | interrupt (i : Interrupt) (count : Nat)
  | interruptDuringWait (i : Interrupt)
  | fail (operation : String) (script : FaultScript)
  | heal (operation : String)
  | refuseOpen (on : Bool)
  | refuseTask (on : Bool)
  | setRegister (value : UInt32)
  | scriptRegister (values : List UInt32)
  | setFindings (findings : PhyFindings)
  -- Clock and locks.
  | advance (ms : UInt64)
  | hold (d : Direction) (sleeps : Option Nat)
  | unhold (d : Direction)
  -- The stack's side.
  | setStack (changes : StackChanges)
  | takeBuffer (size : Nat)
  | releaseBuffer (index : UInt16)
  -- Memory.
  | read (p : Place) (length : Nat)
  | write (p : Place) (frame : FrameSpec)

structure ServiceReport where
  passes : Nat
  /-- The passes that had events, with those. -/
  events : List (Nat × EventWord)
  timer : PollTimer
  failure : Option Failure

inductive Answer
  | nothing
  | done
  | failed (f : Failure)
  | remark (text : String)
  | noTask
  | count (n : Nat)
  | flag (b : Bool)
  | time (ms : UInt64)
  | address (a : Addr)
  | content (bytes : List UInt8)
  | index (i : Option UInt16)
  | sent (index : UInt16) (result : Except Failure Unit)
  | service (report : ServiceReport)
  | info (i : Interface)

namespace Answer

def ofUnit : Except Failure Unit → Answer
  | .ok () => done
  | .error f => failed f

def ofResult {α : Type} (answer : α → Answer) : Except DriverError α → Answer
  | .ok a => answer a
  | .error e => failed (.error e)

end Answer

/-- Passes of the task on a timer, the first of them being number `pass`. -/
def servePasses (timer : PollTimer) (pass : Nat) : (passes : Nat) → Driver World ServiceReport
  | 0 => return { passes := pass, events := [], timer, failure := none }
  | passes + 1 => do
      match ← (Attempt.serve scripted timer).run with
      | .error f => return { passes := pass, events := [], timer, failure := some f }
      | .ok (w, timer) =>
          let report ← servePasses timer (pass + 1) passes
          return if w = .none then report
            else { report with events := (pass, w) :: report.events }

/-- Acquire slots one after another; the last result. -/
def acquireSlots (d : Direction) (size : Nat) : (count : Nat) → Driver World Answer
  | 0 => return .nothing
  | count + 1 => do
      let result ← Driver.acquireSlot scripted d size
      match count with
      | 0 => return Answer.ofResult .address result
      | count + 1 => acquireSlots d size (count + 1)

def modifyWorld (f : World → World) : Driver World Unit :=
  modify fun m => { m with world := f m.world }

def store (l : Layout) (a : Addr) (frame : FrameSpec) : Driver World Unit :=
  modify fun m => { m with memory := l.store m.memory a frame.toBytes }

def raise (i : Interrupt) (on : Bool) : Driver World Unit := do
  if on then
    Driver.interrupt i

/-- Send a frame from a buffer that is taken for it. -/
def send (l : Layout) (frame : FrameSpec) (release : Bool) (length : Option Nat) :
    Driver World Answer := do
  let size := frame.toBytes.length
  match ← Driver.consult (World.takeBuffer size) with
  | none => return .remark "no free buffer"
  | some buffer =>
      if let some payload := buffer.payload then
        store l payload frame
      let buffer := { buffer with length := length.getD size }
      return .sent buffer.index (← (Attempt.output scripted buffer release).run)

/-- A task that was created and has not run, made to run for some passes. -/
def runTask (passes : Nat) : Driver World Answer := do
  if (← get).world.idleTasks = 0 then
    return .noTask
  else
    modifyWorld fun w => { w with idleTasks := w.idleTasks - 1 }
    match (← servePasses (← Driver.freshTimer) 0 passes).failure with
    | some f => return .failed f
    | none => return .remark "stopped"

/-- A step that leaves the rig's own timer alone. -/
def stepMachine (l : Layout) : Step → Driver World Answer
  | .initialise => return .ofUnit (← (Attempt.initialise scripted).run)
  | .processReceived => return .count (← Driver.processReceived scripted)
  | .reclaim => return .count (← Driver.reclaim scripted)
  | .newTimer | .serve _ => return .nothing
  | .runTask passes => runTask passes
  | .send frame release length => send l frame release length
  | .output payload index capacity length release => do
      let buffer := { index, payload := payload.bind l.address?, capacity, length }
      return .ofUnit (← (Attempt.output scripted buffer release).run)
  | .notify w => do Driver.notify w; return .nothing
  | .createPool d => return .ofUnit (← Driver.createPool scripted d)
  | .acquireSlots d count size => acquireSlots d size count
  | .releaseSlot d p => do
      match l.address? p with
      | none => return .nothing
      | some a => return .ofResult (fun _ => .done) (← Driver.releaseSlot scripted d a)
  | .containsSlot d p =>
      return .flag ((l.address? p).any ((← Driver.interface).pool d).contains)
  | .info => return .info (← Driver.interface)
  | .receive frame size status interrupts => do
      let bytes := frame.toBytes
      let fill a memory := l.store memory a bytes
      match ← Driver.completeReceive fill (size.getD bytes.length) status with
      | none => return .remark "no posted buffer"
      | some a =>
          raise .received interrupts
          return .address a
  | .receiveAt buf size status frame interrupts => do
      let buf := buf.bind l.address?
      if let (some a, some frame) := (buf, frame) then
        store l a frame
      Driver.arrive (.received { buf, size, status })
      raise .received interrupts
      return .nothing
  | .completeTransmit interrupts => do
      match ← Driver.completeTransmit with
      | none => return .remark "nothing outstanding"
      | some a =>
          raise .transmitted interrupts
          return .address a
  | .answerTransmit answer interrupts => do
      Driver.arrive (.transmitted (answer.map (·.bind l.address?)))
      raise .transmitted interrupts
      return .nothing
  | .interrupt i count => do
      (List.replicate count i).forM Driver.interrupt
      return .nothing
  | .interruptDuringWait i => do
      modifyWorld fun w => { w with queued := w.queued ++ [i] }
      return .nothing
  | .fail operation script => do modifyWorld (·.setFault operation script); return .nothing
  | .heal operation => do modifyWorld (·.heal operation); return .nothing
  | .refuseOpen on => do modifyWorld fun w => { w with refuseOpen := on }; return .nothing
  | .refuseTask on => do modifyWorld fun w => { w with refuseTask := on }; return .nothing
  | .setRegister value => do modifyWorld fun w => { w with register := value }; return .nothing
  | .scriptRegister values => do
      modifyWorld fun w => { w with script := w.script ++ values }
      return .nothing
  | .setFindings findings => do modifyWorld fun w => { w with findings }; return .nothing
  | .advance ms => do
      modify fun m => { m with clock := m.clock.advance ms }
      return .nothing
  | .hold d sleeps => do
      let clock := (← get).clock
      modifyWorld (·.setLock (Lock.heldFor clock sleeps) d)
      return .nothing
  | .unhold d => do modifyWorld (·.setLock .free d); return .nothing
  | .setStack changes => do modifyWorld changes.apply; return .nothing
  | .takeBuffer size => return .index ((← Driver.consult (World.takeBuffer size)).map (·.index))
  | .releaseBuffer index => do Driver.releaseBuffer scripted index; return .nothing
  | .read p length => do
      match l.address? p with
      | none => return .nothing
      | some a => return .content (← Driver.readMemory a length)
  | .write p frame => do
      if let some a := l.address? p then
        store l a frame
      return .nothing

namespace Rig

def onMachine {α : Type} (rig : Rig) (step : Driver World α) : α × Rig :=
  let (a, machine) := step.run rig.machine
  (a, { rig with machine })

def step (rig : Rig) : Step → Answer × Rig
  | .newTimer =>
      let (timer, rig) := rig.onMachine Driver.freshTimer
      (.time timer.interval, { rig with timer := some timer })
  | .serve passes =>
      let (report, rig) := rig.onMachine do
        let timer ← match rig.timer with
          | some timer => pure timer
          | none => Driver.freshTimer
        servePasses timer 0 passes
      (.service report, { rig with timer := some report.timer })
  | s => rig.onMachine (stepMachine rig.layout s)

end Rig

end XgmacDriver.Bench
