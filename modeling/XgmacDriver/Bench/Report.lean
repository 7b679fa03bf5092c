import XgmacDriver.Bench.Rig
import XgmacDriver.Bench.Transcript

/-! # Reports

After every step a rig reports the answer, the transcript of the step and the state in which it has
left the driver and its engine.
-/

namespace XgmacDriver.Bench

inductive PoolView
  | absent
  | locked
  | used (n : Nat)
deriving DecidableEq

/-- A pool whose lock somebody else holds cannot be looked into. -/
def PoolView.of (p : Pool) (lock : Lock) (clock : Clock) : PoolView :=
  if lock.isHeld clock then locked
  else if p.isInitialized then used p.used
  else absent

structure Snapshot where
  stage : Stage
  linkIsUp : Bool
  armed : Bool
  pending : EventWord
  completions : Nat
  tx : PoolView
  rx : PoolView
  free : Nat
  clock : Clock
  posted : Nat
  completed : Nat
  outstanding : Nat
  done : Nat

def Rig.snapshot (rig : Rig) : Snapshot :=
  let m := rig.machine
  let i := m.interface
  { stage := i.stage
    linkIsUp := i.linkIsUp
    armed := i.notifier.armed
    pending := i.notifier.word
    completions := i.notifier.completions.count
    tx := .of i.txPool (m.world.lock .tx) m.clock
    rx := .of i.rxPool (m.world.lock .rx) m.clock
    free := m.world.arena.available
    clock := m.clock
    posted := m.engine.posted.length
    completed := m.engine.completed.length
    outstanding := m.engine.outstanding.length
    done := m.engine.done.length }

structure Report where
  answer : Answer
  calls : List String
  log : List String
  state : Snapshot

def Rig.forget (rig : Rig) : Rig :=
  { rig with machine := { rig.machine with trace := #[], log := #[] } }

def Rig.calls (rig : Rig) : List String :=
  lines (rig.machine.trace.toList.map (showExchange rig.layout.name))

def Rig.log (rig : Rig) : List String :=
  lines (rig.machine.log.toList.map (showLogEntry rig.layout.name))

def Rig.run (rig : Rig) : List Step → List Report
  | [] => []
  | s :: rest =>
      let (answer, rig) := rig.forget.step s
      { answer, calls := rig.calls, log := rig.log, state := rig.snapshot } :: rig.run rest

end XgmacDriver.Bench
