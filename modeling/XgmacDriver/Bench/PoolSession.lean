import XgmacDriver.Bench.Report

/-! # Sessions with a pool

A pool on its own, with a clock, some memory and somebody else who may hold its lock. Addresses are
written relative to the pool's region.
-/

namespace XgmacDriver.Bench

structure PoolSession where
  pool : Pool
  lock : Lock := .free
  clock : Clock
  memory : Memory := .zeroed
  acquired : Array Addr := #[]

inductive PoolPlace
  /-- A distance from the start of the region. -/
  | offset (i : Int)
  /-- A distance from the address acquired as number `k`. -/
  | handle (k : Nat) (add : Int)
  | foreign (k : Nat)

inductive PoolStep
  | create
  | acquire (size count : Nat)
  | release (p : PoolPlace)
  | contains (p : PoolPlace)
  | write (p : PoolPlace) (length : Nat) (byte : UInt8)
  | read (p : PoolPlace) (length : Nat)
  | advance (ms : UInt64)
  | hold (sleeps : Option Nat)
  | unhold
  | info

inductive PoolAnswer
  | nothing
  | done
  | failed (f : Failure)
  | flag (b : Bool)
  | content (bytes : List UInt8)
  | slot (result : Except DriverError String)
  | slots (results : List (Except DriverError String))
  | info (p : Pool)

namespace PoolSession

def new (name : String) (n slotSize : Nat) (start sleepExtra : UInt64) : PoolSession :=
  { pool := .new name n slotSize, clock := .startingAt start sleepExtra }

def regionStart : Addr := ⟨0x4000000000000000, by decide⟩

def foreignStart : Addr := ⟨0x100000, by decide⟩

/-- Addresses from here on are written relative to the pool's region. -/
def regionBound : Nat := 0x2000000000000000

def foreignName (a : Addr) : String := "foreign+" ++ toString (a.toNat - foreignStart.toNat)

def name (a : Addr) : String :=
  if a.toNat < regionBound then foreignName a
  else
    let offset : Int := a.toNat - regionStart.toNat
    "base" ++ if offset = 0 then "+0" else signedOffset offset

/-- The address `d` bytes from `a`, or the first one of all if there is none. -/
def shift (a : Addr) (d : Int) : Addr := ⟨max 1 (a.toNat + d).toNat, by omega⟩

/-- While the pool has no region, distances from its start lead into foreign memory. -/
def address (s : PoolSession) : PoolPlace → Addr
  | .offset i => if s.pool.isInitialized then shift regionStart i else foreignStart
  | .handle k add => shift (s.acquired.getD k foreignStart) add
  | .foreign k => foreignStart.add k

def after {α : Type} (s : PoolSession) (r : Pool.Reply α) : PoolSession × List LogEntry :=
  ({ s with pool := r.pool, clock := r.clock, memory := r.memory }, r.log)

def acquire (size : Nat) : (count : Nat) → PoolSession →
    List (Except DriverError String) × PoolSession × List LogEntry
  | 0, s => ([], s, [])
  | count + 1, s =>
      let r := s.pool.acquire size s.lock s.clock s.memory
      let (s, log) := s.after r
      let s := match r.result with
        | .ok a => { s with acquired := s.acquired.push a }
        | .error _ => s
      let (results, s, more) := acquire size count s
      (r.result.map name :: results, s, log ++ more)

def step (s : PoolSession) : PoolStep → PoolAnswer × PoolSession × List LogEntry
  | .create =>
      let (result, pool) := s.pool.create (allocateAt regionStart)
      let answer := match result with
        | .ok () => .done
        | .error f => .failed f
      (answer, { s with pool }, [])
  | .acquire size count =>
      let (results, s, log) := acquire size count s
      match results with
      | [] => (.nothing, s, log)
      | [result] => (.slot result, s, log)
      | results => (.slots results, s, log)
  | .release p =>
      let r := s.pool.release (s.address p) s.lock s.clock s.memory
      let answer := match r.result with
        | .ok () => .done
        | .error e => .failed (.error e)
      (answer, s.after r)
  | .contains p => (.flag (s.pool.contains (s.address p)), s, [])
  | .write p length byte =>
      (.nothing, { s with memory := s.memory.fill (s.address p) length byte }, [])
  | .read p length => (.content (s.memory.read (s.address p) length), s, [])
  | .advance ms => (.nothing, { s with clock := s.clock.advance ms }, [])
  | .hold sleeps => (.nothing, { s with lock := Lock.heldFor s.clock sleeps }, [])
  | .unhold => (.nothing, { s with lock := .free }, [])
  | .info => (.info s.pool, s, [])

structure Report where
  answer : PoolAnswer
  log : List String
  used : PoolView
  initialized : Bool
  clock : Clock

/-- The count of slots in use, unless somebody else holds the lock. -/
def usedView (s : PoolSession) : PoolView :=
  if s.lock.isHeld s.clock then .locked else .used s.pool.used

def run (s : PoolSession) : List PoolStep → List Report
  | [] => []
  | step :: rest =>
      let (answer, s, log) := s.step step
      { answer
        log := lines (log.map (showLogEntry name))
        used := s.usedView
        initialized := s.pool.isInitialized
        clock := s.clock } :: s.run rest

end PoolSession

end XgmacDriver.Bench
