import XgmacDriver.Bench.Layout
import XgmacDriver.Machine.Collaborators

/-! # The scripted world

The collaborators of the bench do what a script says. Engine commands succeed unless they are made
to fail, the stack hands out the buffers of an arena, and the PHY returns scripted values before
those of its register.
-/

namespace XgmacDriver.Bench

/-- How an engine command is made to fail: after `skip` more successes it fails `times` times, or
for ever. -/
structure FaultScript where
  status : EngineStatus
  skip : Nat
  times : Option Nat
  /-- At its first failure somebody takes the lock of this pool, for some sleeps or for good. -/
  hold : Option (Direction × Option Nat)

structure PhyFindings where
  address : UInt8 := 4
  identifier : UInt32 := 0x1410dd0
  speed : LinkSpeed := .mbps1000
  duplex : Duplex := .full
  linkStatus : UInt32 := 0

structure World where
  arena : Arena
  mac : MacAddress
  rxDescriptors : Nat
  register : UInt32
  /-- Values that the next reads of the PHY return first. -/
  script : List UInt32 := []
  findings : PhyFindings := {}
  faults : List (String × FaultScript) := []
  refuseOpen : Bool := false
  refuseTask : Bool := false
  /-- Requests for a buffer that are still granted, `none` for all. -/
  grants : Option Nat := none
  refuseEvents : Nat := 0
  nullPayload : Bool := false
  /-- The capacity that every buffer of the stack is said to have, in place of its own. -/
  claimedCapacity : Option Nat := none
  noLookup : Bool := false
  endpoint : Option UInt16 := some 1
  txLock : Lock := .free
  rxLock : Lock := .free
  queued : List Interrupt := []
  /-- Created tasks so far, and those of them that have not run. -/
  tasks : Nat := 0
  idleTasks : Nat := 0

namespace World

def lock (w : World) : Direction → Lock
  | .tx => w.txLock
  | .rx => w.rxLock

def setLock (w : World) (l : Lock) : Direction → World
  | .tx => { w with txLock := l }
  | .rx => { w with rxLock := l }

def setFault (w : World) (operation : String) (script : FaultScript) : World :=
  { w with faults := (operation, script) :: w.faults.filter (·.1 != operation) }

def heal (w : World) (operation : String) : World :=
  { w with faults := w.faults.filter (·.1 != operation) }

def command (clock : Clock) (k : Command) (w : World) : Except EngineStatus Unit × World :=
  match w.faults.lookup k.operation with
  | none => (.ok (), w)
  | some script =>
      if 0 < script.skip then
        (.ok (), w.setFault k.operation { script with skip := script.skip - 1 })
      else if script.times = some 0 then (.ok (), w)
      else
        let w := w.setFault k.operation
          { script with times := script.times.map (· - 1), hold := none }
        let w := match script.hold with
          | some (d, sleeps) => w.setLock (Lock.heldFor clock sleeps) d
          | none => w
        (.error script.status, w)

def readPhy (w : World) : UInt32 × World :=
  match w.script with
  | value :: rest => (value, { w with script := rest })
  | [] => (w.register, w)

def takeBuffer (wanted : Nat) (w : World) : Option NetworkBuffer × World :=
  let (buffer, arena) := w.arena.take wanted
  (buffer, { w with arena })

def disguise (w : World) (buffer : NetworkBuffer) : NetworkBuffer :=
  { buffer with
    payload := if w.nullPayload then none else buffer.payload
    capacity := w.claimedCapacity.getD buffer.capacity }

/-- A request uses up a grant even if the arena has no buffer then. -/
def getBuffer (wanted : Nat) (w : World) : Option NetworkBuffer × World :=
  if w.grants = some 0 then (none, w)
  else
    let (buffer, w) := takeBuffer wanted { w with grants := w.grants.map (· - 1) }
    (buffer.map w.disguise, w)

def releaseBuffer (index : UInt16) (w : World) : Bool × World :=
  let (accepted, arena) := w.arena.give index
  (accepted, { w with arena })

def sendRxEvent (w : World) : Bool × World :=
  if 0 < w.refuseEvents then (false, { w with refuseEvents := w.refuseEvents - 1 })
  else (true, w)

def spawn (w : World) : Option UInt32 × World :=
  if w.refuseTask then (none, w)
  else
    (some (UInt32.ofNat (w.tasks + 1)),
      { w with tasks := w.tasks + 1, idleTasks := w.idleTasks + 1 })

end World

def scripted : Collaborators World where
  openEmac _ w := (!w.refuseOpen, w)
  command := World.command
  discovered w phy :=
    { phy with address := w.findings.address, identifier := w.findings.identifier }
  negotiated w phy :=
    { phy with
      speed := w.findings.speed
      duplex := w.findings.duplex
      linkStatus := w.findings.linkStatus }
  readPhy _ _ w := w.readPhy
  rxDescriptors w := w.rxDescriptors
  getBuffer wanted _ w := w.getBuffer wanted
  releaseBuffer index w := w.releaseBuffer index
  considerFrame bytes w := (Ethernet.classify w.mac bytes, w)
  matchEndpoint _ _ w := (w.endpoint, w)
  lookup a w := (if w.noLookup then none else w.arena.lookup a, w)
  sendRxEvent _ _ w := w.sendRxEvent
  spawn _ w := w.spawn
  duringWait _ w := (w.queued.map .interrupt, { w with queued := [] })
  allocate d _ := allocateAt (match d with | .tx => Region.start .tx | .rx => Region.start .rx)
  lock d w := w.lock d

end XgmacDriver.Bench
