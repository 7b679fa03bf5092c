import XgmacDriver.Bench.Report

/-! # Sessions with the link monitor

The link monitor on its own: a PHY status register under the control of the session, and a clock.
-/

namespace XgmacDriver.Bench

inductive LinkStep
  | setRegister (value : UInt32)
  | scriptRegister (values : List UInt32)
  /-- Make reprogramming fail with a status, or succeed. -/
  | failUpdate (status : Option EngineStatus)
  | advance (ms : UInt64)
  | check (phy : UInt8) (maxWait : UInt64)
  | recheck (phy : UInt8)
  | interval (high low : UInt64)

inductive LinkAnswer
  | nothing
  | flag (b : Bool)
  | change (up : Option Bool)
  | time (ms : UInt64)

namespace LinkSession

def rig (start sleepExtra : UInt64) : Except Failure Rig :=
  RigSpec.build { register := 0, start, sleepExtra }

def stepMachine : LinkStep → Driver World LinkAnswer
  | .setRegister value => do modifyWorld fun w => { w with register := value }; return .nothing
  | .scriptRegister values => do
      modifyWorld fun w => { w with script := w.script ++ values }
      return .nothing
  | .failUpdate status => do
      let operation := (Command.updateSpeed {}).operation
      modifyWorld fun w => match status with
        | some status => w.setFault operation { status, skip := 0, times := none, hold := none }
        | none => w.heal operation
      return .nothing
  | .advance ms => do
      modify fun m => { m with clock := m.clock.advance ms }
      return .nothing
  | .check phy maxWait => return .flag (← Driver.checkLink scripted phy maxWait)
  | .recheck phy => return .change (← Driver.recheckLink scripted { address := phy })
  | .interval high low => do
      let i ← Driver.interface
      let config := { i.config with linkHighCheck := high, linkLowCheck := low }
      return .time { i with config }.linkCheckInterval

def showCall (x : Exchange) : Option String :=
  match x with
  | .readPhy .. => some (showExchange (fun _ => "") x)
  | .command (.updateSpeed phy) _ => some ("update_speed_mode " ++ toString phy.address.toNat)
  | _ => none

structure Report where
  answer : LinkAnswer
  calls : List String
  log : List String
  latch : UInt32
  up : Bool
  clock : Clock

def run (rig : Rig) : List LinkStep → List Report
  | [] => []
  | s :: rest =>
      let (answer, rig) := rig.forget.onMachine (stepMachine s)
      let i := rig.machine.interface
      { answer
        calls := lines (rig.machine.trace.toList.filterMap showCall)
        log := rig.log
        latch := i.link
        up := i.linkIsUp
        clock := rig.machine.clock } :: run rig rest

end LinkSession

end XgmacDriver.Bench
