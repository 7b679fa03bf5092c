/-! # Ethernet frames

Which received frames are for the stack: those with a whole header, addressed to the interface or to
a group, that carry ARP or IP.
-/

namespace XgmacDriver

structure MacAddress where
  octets : Vector UInt8 6
deriving DecidableEq

inductive Disposition
  | process
  | release
deriving DecidableEq

namespace Ethernet

def headerLength : Nat := 14

def destination (frame : List UInt8) : List UInt8 := frame.take 6

/-- Group addresses, the broadcast address among them, have the lowest bit of their first byte set.
-/
def isGroup (address : List UInt8) : Bool := address.headD 0 &&& 1 != 0

def etherType (frame : List UInt8) : Nat :=
  (frame.getD 12 0).toNat * 256 + (frame.getD 13 0).toNat

def ipv4 : Nat := 0x0800

def arp : Nat := 0x0806

def ipv6 : Nat := 0x86DD

def classify (mac : MacAddress) (frame : List UInt8) : Disposition :=
  if frame.length < headerLength then .release
  else if destination frame ≠ mac.octets.toList ∧ !isGroup (destination frame) then .release
  else if [arp, ipv4, ipv6].contains (etherType frame) then .process
  else .release

theorem classify_eq_process_iff {mac : MacAddress} {frame : List UInt8} :
    classify mac frame = .process ↔ headerLength ≤ frame.length ∧
      (destination frame = mac.octets.toList ∨ isGroup (destination frame)) ∧
      (etherType frame = arp ∨ etherType frame = ipv4 ∨ etherType frame = ipv6) := by
  unfold classify
  split
  · simp; omega
  · split
    · simp_all
    · split
      · simp_all [Decidable.imp_iff_not_or]
      · simp_all

end Ethernet

end XgmacDriver
