/-! # Buffer addresses

An address names one byte of the memory that the driver shares with the DMA. The memory is identity
mapped, so the address that the DMA is given is also the one that the driver reads through. Zero is
never an address: a missing buffer is `none`.
-/

namespace XgmacDriver

@[ext] structure Addr where
  toNat : Nat
  toNat_pos : 0 < toNat
deriving DecidableEq

namespace Addr

def ofNat? (n : Nat) : Option Addr :=
  if h : 0 < n then some ⟨n, h⟩ else none

def add (a : Addr) (n : Nat) : Addr :=
  ⟨a.toNat + n, Nat.add_pos_left a.toNat_pos n⟩

/-- Addresses are ordered as unsigned numbers. -/
instance : Ord Addr := ⟨fun a b => compare a.toNat b.toNat⟩

@[simp] theorem toNat_add (a : Addr) (n : Nat) : (a.add n).toNat = a.toNat + n := rfl

end Addr

end XgmacDriver
