import XgmacDriver.Machine.Collaborators

/-! # The machine

The driver runs on a machine: its own context, the engine's queues, the clock, the memory and the
state of the collaborators. Every exchange and every log entry is kept in order. Here are the single
steps out of which the driver's paths are made; each asks one collaborator and records the exchange.
-/

namespace XgmacDriver

structure Machine (σ : Type) where
  interface : Interface
  engine : Engine
  clock : Clock
  memory : Memory
  trace : Array Exchange
  log : Array LogEntry
  world : σ

/-- A step of the driver that always has a result. -/
abbrev Driver (σ : Type) := StateM (Machine σ)

namespace Driver

variable {σ : Type}

def record (x : Exchange) : Driver σ Unit := modify fun m => { m with trace := m.trace.push x }

def report (entry : LogEntry) : Driver σ Unit := modify fun m => { m with log := m.log.push entry }

def consult {α : Type} (ask : σ → α × σ) : Driver σ α := fun m =>
  let (answer, world) := ask m.world
  (answer, { m with world })

def modifyInterface (f : Interface → Interface) : Driver σ Unit :=
  modify fun m => { m with interface := f m.interface }

def modifyEngine (f : Engine → Engine) : Driver σ Unit :=
  modify fun m => { m with engine := f m.engine }

def interface : Driver σ Interface := return (← get).interface

def config : Driver σ Config := return (← get).interface.config

def sleep (ms : UInt64) : Driver σ Unit := modify fun m => { m with clock := m.clock.sleep ms }

def readMemory (a : Addr) (n : Nat) : Driver σ (List UInt8) := return (← get).memory.read a n

def copyMemory (src dst : Addr) (n : Nat) : Driver σ Unit :=
  modify fun m => { m with memory := m.memory.copy src dst n }

variable (c : Collaborators σ)

/-- Give the engine a command, which takes effect if it is accepted. -/
def command (k : Command) : Driver σ (Except EngineStatus Unit) := do
  let clock := (← get).clock
  let answer ← consult (c.command clock k)
  record (.command k answer)
  if answer.isOk then modifyEngine (·.accept k)
  return answer

def readPhy (phy register : UInt8) : Driver σ UInt32 := do
  let value ← consult (c.readPhy phy register)
  record (.readPhy phy register value)
  return value

def nextReceived : Driver σ (Option RxCompletion) := do
  let (answer, engine) := (← get).engine.nextCompleted
  modifyEngine fun _ => engine
  record (.nextReceived answer)
  return answer

def nextTransmitted : Driver σ TxAnswer := do
  let (answer, engine) := (← get).engine.nextDone
  modifyEngine fun _ => engine
  record (.nextTransmitted answer)
  return answer

def getBuffer (wanted block : Nat) : Driver σ (Option NetworkBuffer) := do
  let answer ← consult (c.getBuffer wanted block)
  record (.getBuffer wanted block answer)
  return answer

def releaseBuffer (index : UInt16) : Driver σ Unit := do
  let accepted ← consult (c.releaseBuffer index)
  record (.releaseBuffer index accepted)

def considerFrame (bytes : List UInt8) : Driver σ Disposition := do
  let verdict ← consult (c.considerFrame bytes)
  record (.considerFrame bytes verdict)
  return verdict

def matchEndpoint (bytes : List UInt8) : Driver σ (Option UInt16) := do
  let index := (← interface).index
  let answer ← consult (c.matchEndpoint index bytes)
  record (.matchEndpoint index bytes answer)
  return answer

def lookup (a : Addr) : Driver σ (Option NetworkBuffer) := do
  let answer ← consult (c.lookup a)
  record (.lookup a answer)
  return answer

/-- Offer frames to the stack; each goes with the content of its payload. -/
def sendRxEvent (frames : List RxFrame) : Driver σ Bool := do
  let deliveries := frames.map (Delivery.of (← get).memory)
  let accepted ← consult (c.sendRxEvent deliveries rxEventTimeout)
  record (.rxEvent rxEventTimeout deliveries accepted)
  return accepted

def spawn (spec : TaskSpec) : Driver σ (Option UInt32) := do
  let answer ← consult (c.spawn spec)
  record (.spawn spec answer)
  return answer

/-- Run a call on a pool, under the lock as the collaborators have it. -/
def onPool {α : Type} (d : Direction) (call : Pool → Lock → Clock → Memory → Pool.Reply α) :
    Driver σ (Except DriverError α) := fun m =>
  let reply := call (m.interface.pool d) (c.lock d m.world) m.clock m.memory
  (reply.result, { m with
    interface := m.interface.setPool reply.pool d
    clock := reply.clock
    memory := reply.memory
    log := m.log ++ reply.log })

def acquireSlot (d : Direction) (wanted : Nat) : Driver σ (Except DriverError Addr) :=
  onPool c d fun pool => pool.acquire wanted

def releaseSlot (d : Direction) (a : Addr) : Driver σ (Except DriverError Unit) :=
  onPool c d fun pool => pool.release a

def createPool (d : Direction) : Driver σ (Except Failure Unit) := fun m =>
  let (result, pool) := (m.interface.pool d).create (c.allocate d m.world)
  (result, { m with interface := m.interface.setPool pool d })

def notify (w : EventWord) : Driver σ Unit := do
  modifyInterface (·.mapNotifier (·.notify w))
  record (.notify w)

/-- An interrupt of the engine reaches the notifier if the callback is registered. -/
def interrupt (i : Interrupt) : Driver σ Unit := do
  let m ← get
  if m.engine.callback then
    modifyInterface (·.mapNotifier (·.interrupt i))
    if m.interface.notifier.armed then record (.notify (.ofInterrupt i))

def arrive : Arrival → Driver σ Unit
  | .received rx => modifyEngine fun e => { e with completed := e.completed ++ [rx] }
  | .transmitted answer => modifyEngine fun e => { e with done := e.done ++ [answer] }
  | .interrupt i => interrupt i
  | .sent buf => do
      if buf ∈ (← get).engine.outstanding then
        modifyEngine (·.finish buf)
        interrupt .transmitted

/-- Wait for an event, at most `ms` milliseconds, and clear the word. A wait blocks only if nothing
has happened before it. -/
def wait (ms : UInt64) : Driver σ EventWord := do
  if (← interface).notifier.word = .none then
    modify fun m => { m with clock := m.clock.advance ms }
    let arrivals ← consult (c.duringWait ms)
    arrivals.forM arrive
  let w := (← interface).notifier.word
  modifyInterface (·.mapNotifier Notifier.clear)
  record (.wait ms w)
  return w

end Driver

end XgmacDriver
