import XgmacDriver.Bench.PoolSession

/-! # Sessions with an arena

A network buffer arena on its own. Its region is either allocated or was set aside at boot, and in
the second case it holds a byte pattern until it is bound.
-/

namespace XgmacDriver.Bench

structure ArenaSession where
  arena : Arena
  memory : Memory

inductive ArenaStep
  | descriptor (i : UInt16)
  | lookup (offset : Int)
  | take (size : Nat)
  | takeMany (size count : Nat)
  | give (i : UInt16)
  | isInUse (i : UInt16)
  | size
  | write (offset : Int) (length : Nat) (byte : UInt8)
  | read (offset : Int) (length : Nat)

inductive ArenaAnswer
  | nothing
  | flag (b : Bool)
  | buffer (b : Option NetworkBuffer)
  | buffers (bs : List (Option NetworkBuffer))
  | size (slots : Nat)
  | content (bytes : List UInt8)

namespace ArenaSession

/-- A region that was set aside at boot: its length, and the distance of its start from an aligned
address. -/
structure BootRegion where
  length : Nat
  misalignment : Nat

def bootPattern : UInt8 := 0xA5

def start : Addr := PoolSession.regionStart

def bind (slots slotSize : Nat) : Option BootRegion → Except Failure ArenaSession
  | none => do
      let arena ← Arena.bind slots slotSize (allocateAt start)
      return { arena, memory := .zeroed }
  | some region => do
      let base := start.add region.misalignment
      let memory := Memory.zeroed.fill base region.length bootPattern
      let (arena, memory) ←
        (Arena.bindStatic slots slotSize base region.length memory).mapError .error
      return { arena, memory }

def address (s : ArenaSession) (offset : Int) : Addr := PoolSession.shift s.arena.base offset

def name (s : ArenaSession) (a : Addr) : String :=
  let offset : Int := a.toNat - s.arena.base.toNat
  "base" ++ if offset = 0 then "+0" else signedOffset offset

def takeMany (size : Nat) : (count : Nat) → Arena → List (Option NetworkBuffer) × Arena
  | 0, arena => ([], arena)
  | count + 1, arena =>
      let (buffer, arena) := arena.take size
      let (buffers, arena) := takeMany size count arena
      (buffer :: buffers, arena)

def step (s : ArenaSession) : ArenaStep → ArenaAnswer × ArenaSession
  | .descriptor i => (.buffer (s.arena.descriptor i), s)
  | .lookup offset => (.buffer (s.arena.lookup (s.address offset)), s)
  | .take size =>
      let (buffer, arena) := s.arena.take size
      (.buffer buffer, { s with arena })
  | .takeMany size count =>
      let (buffers, arena) := takeMany size count s.arena
      (.buffers buffers, { s with arena })
  | .give i =>
      let (accepted, arena) := s.arena.give i
      (.flag accepted, { s with arena })
  | .isInUse i => (.flag (s.arena.isInUse i), s)
  | .size => (.size s.arena.slots, s)
  | .write offset length byte =>
      (.nothing, { s with memory := s.memory.fill (s.address offset) length byte })
  | .read offset length => (.content (s.memory.read (s.address offset) length), s)

/-- Run steps one after another: each answer with the number of free descriptors then. -/
def run (s : ArenaSession) : List ArenaStep → List (ArenaAnswer × Nat)
  | [] => []
  | step :: rest =>
      let (answer, s) := s.step step
      (answer, s.arena.available) :: s.run rest

end ArenaSession

end XgmacDriver.Bench
