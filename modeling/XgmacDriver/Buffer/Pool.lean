import XgmacDriver.Buffer.Lock
import XgmacDriver.Buffer.Ring
import XgmacDriver.Log
import XgmacDriver.Memory.Basic
import XgmacDriver.Word

/-! # Buffer pools

A pool owns one contiguous region, cut into slots of equal size that follow one another, and a ring
of the slots' addresses. Callers acquire slots and release them. A released slot is filled with
zeros before it can be acquired again, and a call that fails changes neither the ring nor the
memory.
-/

namespace XgmacDriver

inductive Backing
  | absent
  | ready (base : Addr)
  /-- Creation was cut short by a halt, and no later creation can succeed. -/
  | poisoned
deriving DecidableEq

/-- The largest size that stays below half the address space when it is rounded up to the alignment
of a region for the DMA. -/
def maxRegionSize : Nat := 0x7FFFFFFFFFFFFFC0

/-- The start of a fresh region of `size` bytes for the DMA. An empty region is refused, as is one
that is too large to be aligned; of the rest the allocator decides. -/
def allocateRegion (allocate : Nat → Option Addr) (size : Nat) : Option Addr :=
  if size = 0 ∨ maxRegionSize < size then none else allocate size

theorem allocateRegion_eq_some_iff {allocate : Nat → Option Addr} {size : Nat} {base : Addr} :
    allocateRegion allocate size = some base ↔
      0 < size ∧ size ≤ maxRegionSize ∧ allocate size = some base := by
  unfold allocateRegion
  split
  · simp
    omega
  · rw [← and_assoc, iff_and_self]
    omega

theorem maxRegionSize_lt : maxRegionSize < Word.bound := by decide

structure Pool where
  name : String
  slotSize : Nat
  backing : Backing
  ring : Ring
deriving DecidableEq

namespace Pool

def new (name : String) (n slotSize : Nat) : Pool := ⟨name, slotSize, .absent, .vacant n⟩

def capacity (p : Pool) : Nat := p.ring.capacity

def used (p : Pool) : Nat := p.ring.used

def base? (p : Pool) : Option Addr :=
  match p.backing with
  | .ready base => some base
  | _ => none

def isInitialized (p : Pool) : Bool := p.base?.isSome

def slotStarts (p : Pool) (base : Addr) : Array Addr :=
  Array.ofFn fun i : Fin p.capacity => base.add (i * p.slotSize)

def contains (p : Pool) (a : Addr) : Bool :=
  match p.base? with
  | none => false
  | some base =>
      base.toNat ≤ a.toNat && a.toNat < base.toNat + p.capacity * p.slotSize
        && (a.toNat - base.toNat) % p.slotSize == 0

/-- Give the pool its region and fill the ring; a pool that has one is left as it is. -/
def create (p : Pool) (allocate : Nat → Option Addr) : Except Failure Unit × Pool :=
  match p.backing with
  | .ready _ => (.ok (), p)
  | .poisoned => (.error (.halt .creationPoisoned), p)
  | .absent =>
      match Word.mul p.capacity p.slotSize with
      | .error h => (.error (.halt h), { p with backing := .poisoned })
      | .ok size =>
          match allocateRegion allocate size with
          | none => (.error (.error .poolAllocationFailed), p)
          | some base =>
              (.ok (), { p with backing := .ready base, ring := .full (p.slotStarts base) })

structure Reply (α : Type) where
  result : Except DriverError α
  pool : Pool
  memory : Memory
  clock : Clock
  log : List LogEntry

def acquire (p : Pool) (wanted : Nat) (lock : Lock) (clock : Clock) (memory : Memory) :
    Reply Addr :=
  if p.slotSize < wanted then
    ⟨.error (.bufferTooLarge wanted p.slotSize), p, memory, clock,
      [.slotTooSmall p.name wanted p.slotSize]⟩
  else if !p.isInitialized then ⟨.error .poolNotInitialized, p, memory, clock, []⟩
  else match lock.obtain clock with
    | (false, clock) => ⟨.error .poolLockTimeout, p, memory, clock, [.lockTimeout p.name]⟩
    | (true, clock) =>
        if p.ring.used = p.capacity then
          ⟨.error .poolExhausted, p, memory, clock, [.poolFullyUsed p.name]⟩
        else match p.ring.take with
          | none => ⟨.error .poolNotInitialized, p, memory, clock, []⟩
          | some (a, ring) => ⟨.ok a, { p with ring }, memory, clock, []⟩

def release (p : Pool) (a : Addr) (lock : Lock) (clock : Clock) (memory : Memory) : Reply Unit :=
  match lock.obtain clock with
  | (false, clock) => ⟨.error .poolLockTimeout, p, memory, clock, [.lockTimeout p.name]⟩
  | (true, clock) =>
      if p.ring.used = 0 then
        ⟨.error .poolEmpty, p, memory, clock, [.poolAlreadyEmpty p.name]⟩
      else if !p.contains a then
        ⟨.error .notPoolMember, p, memory, clock, [.notASlot p.name a]⟩
      else
        ⟨.ok (), { p with ring := p.ring.give a }, memory.fill a p.slotSize 0, clock, []⟩

@[simp] theorem size_slotStarts (p : Pool) (base : Addr) :
    (p.slotStarts base).size = p.capacity := by simp [slotStarts]

theorem isInitialized_iff {p : Pool} :
    p.isInitialized = true ↔ ∃ base, p.backing = .ready base := by
  unfold isInitialized base?
  cases p.backing <;> simp

@[simp] theorem not_isInitialized_new (name : String) (n slotSize : Nat) :
    (new name n slotSize).isInitialized = false := rfl

end Pool

end XgmacDriver
