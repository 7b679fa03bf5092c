import XgmacDriver.Buffer.Descriptor
import XgmacDriver.Buffer.Pool

/-! # The network buffer arena

An arena binds one region of equal slots to the descriptors of an IP stack. A payload starts a fixed
padding into its slot, and every address inside a slot leads back to the slot's descriptor. Free
descriptors are kept on a stack: the one given back last is taken next.
-/

namespace XgmacDriver

/-- Bytes in front of every payload. -/
def bufferPadding : Nat := 10

/-- Regions for the DMA start at a multiple of this. -/
def dmaAlignment : Nat := 64

structure Arena where
  base : Addr
  slots : Nat
  slotSize : Nat
  /-- Free indices, the next one to take first. -/
  free : List UInt16
  inUse : Array Bool
deriving DecidableEq

namespace Arena

/-- Whether `slots` descriptors can be numbered and each payload has room. -/
def validGeometry (slots slotSize : Nat) : Bool :=
  bufferPadding < slotSize && 0 < slots && slots < UInt16.size

def ofRegion (base : Addr) (slots slotSize : Nat) : Arena :=
  ⟨base, slots, slotSize, (List.range slots).map UInt16.ofNat, Array.replicate slots false⟩

def bind (slots slotSize : Nat) (allocate : Nat → Option Addr) : Except Failure Arena :=
  if !validGeometry slots slotSize then .error (.error .poolAllocationFailed)
  else match Word.mul slots slotSize with
    | .error h => .error (.halt h)
    | .ok size =>
        match allocateRegion allocate size with
        | none => .error (.error .poolAllocationFailed)
        | some base => .ok (ofRegion base slots slotSize)

/-- Bind to the `length` bytes at `base` that were set aside at boot. The slots are zeroed, and what
follows the last one is left alone. -/
def bindStatic (slots slotSize : Nat) (base : Addr) (length : Nat) (memory : Memory) :
    Except DriverError (Arena × Memory) :=
  if !validGeometry slots slotSize then .error .poolAllocationFailed
  else if length < slots * slotSize ∨ base.toNat % dmaAlignment ≠ 0 then
    .error .poolAllocationFailed
  else .ok (ofRegion base slots slotSize, memory.fill base (slots * slotSize) 0)

def payloadCapacity (a : Arena) : Nat := a.slotSize - bufferPadding

def descriptor (a : Arena) (i : UInt16) : Option NetworkBuffer :=
  if i.toNat < a.slots then
    some {
      index := i
      payload := some (a.base.add (i.toNat * a.slotSize + bufferPadding))
      capacity := a.payloadCapacity }
  else none

def lookup (a : Arena) (addr : Addr) : Option NetworkBuffer :=
  if addr.toNat < a.base.toNat ∨ a.base.toNat + a.slots * a.slotSize ≤ addr.toNat then none
  else a.descriptor (UInt16.ofNat ((addr.toNat - a.base.toNat) / a.slotSize))

def isInUse (a : Arena) (i : UInt16) : Bool := a.inUse.getD i.toNat false

def available (a : Arena) : Nat := a.free.length

def take (a : Arena) (wanted : Nat) : Option NetworkBuffer × Arena :=
  if a.payloadCapacity < wanted then (none, a)
  else match a.free with
    | [] => (none, a)
    | i :: rest =>
        (a.descriptor i, { a with free := rest, inUse := a.inUse.setIfInBounds i.toNat true })

/-- Give back descriptor `i`; refused unless it is in use and the free list has room for it. -/
def give (a : Arena) (i : UInt16) : Bool × Arena :=
  if a.isInUse i then
    let inUse := a.inUse.setIfInBounds i.toNat false
    if a.free.length < a.slots then (true, { a with free := i :: a.free, inUse })
    else (false, { a with inUse })
  else (false, a)

theorem give_of_not_isInUse {a : Arena} {i : UInt16} (h : a.isInUse i = false) :
    a.give i = (false, a) := by simp [give, h]

end Arena

end XgmacDriver
