import XgmacDriver.Buffer.Arena
import XgmacDriver.Config

/-! # The memory of the bench

The bench has four kinds of memory: the slots of the two buffer pools, the buffers of the stack and
some memory that belongs to nobody. Each kind has its own region, far from the others, in which
cells of equal size follow one another. An address is written as its region, the number of its cell
and its distance from the cell's origin, which in a stack buffer is the start of the payload.
-/

namespace XgmacDriver.Bench

inductive Region
  | tx
  | rx
  | net
  | foreign
deriving DecidableEq

namespace Region

def all : List Region := [tx, rx, net, foreign]

def name : Region → String
  | tx => "tx"
  | rx => "rx"
  | net => "net"
  | foreign => "foreign"

def ofName? (s : String) : Option Region := all.find? fun r => r.name = s

def base : Region → Nat
  | tx => 0x10000000000
  | rx => 0x20000000000
  | net => 0x30000000000
  | foreign => 0x40000000000

theorem base_pos (r : Region) : 0 < r.base := by cases r <;> decide

def start (r : Region) : Addr := ⟨r.base, r.base_pos⟩

/-- The region to which a number belongs as an address. -/
def holding (n : Nat) : Region :=
  if n < rx.base then tx
  else if n < net.base then rx
  else if n < foreign.base then net
  else foreign

end Region

def allocationLimit : Nat := 0x1000000000000000

/-- An allocator with room for one region at `base`, of any size that is granted at all. -/
def allocateAt (base : Addr) (size : Nat) : Option Addr :=
  if size < allocationLimit then some base else none

structure Place where
  region : Region
  cell : Nat
  /-- Distance from the cell's origin. -/
  offset : Int
deriving DecidableEq

def foreignSize : Nat := 4096

structure Layout where
  arenaSlot : Nat

namespace Layout

def stride (l : Layout) : Region → Nat
  | .tx | .rx => maxPacketSize
  | .net => l.arenaSlot
  | .foreign => 0x100000000

def cellSize (l : Layout) : Region → Nat
  | .foreign => foreignSize
  | r => l.stride r

/-- The origin of a cell, counted from its start. -/
def origin : Region → Nat
  | .net => bufferPadding
  | _ => 0

def address? (l : Layout) (p : Place) : Option Addr :=
  Addr.ofNat? (p.region.base + p.cell * l.stride p.region + origin p.region + p.offset).toNat

def regionOffset (a : Addr) : Nat := a.toNat - (Region.holding a.toNat).base

def place (l : Layout) (a : Addr) : Place :=
  let r := Region.holding a.toNat
  { region := r
    cell := regionOffset a / l.stride r
    offset := (regionOffset a % l.stride r : Nat) - (origin r : Int) }

/-- Bytes from `a` to the end of its cell. -/
def room (l : Layout) (a : Addr) : Nat :=
  let r := Region.holding a.toNat
  l.cellSize r - regionOffset a % l.stride r

/-- Write as much of `bytes` at `a` as its cell has room for. -/
def store (l : Layout) (memory : Memory) (a : Addr) (bytes : List UInt8) : Memory :=
  memory.write a (bytes.take (l.room a))

end Layout

/-- A distance, with its sign; nothing if it is zero. -/
def signedOffset (offset : Int) : String :=
  if offset = 0 then "" else (if offset < 0 then "-" else "+") ++ toString offset.natAbs

def Place.text (p : Place) : String :=
  p.region.name ++ ":" ++ toString p.cell ++ signedOffset p.offset

def Layout.name (l : Layout) (a : Addr) : String := (l.place a).text

end XgmacDriver.Bench
