import XgmacDriver.Memory.Address

/-! # Completed receive descriptors

The engine hands back each receive buffer with the size of the frame and a status word.
-/

namespace XgmacDriver

structure RxCompletion where
  buf : Option Addr
  size : Nat
  status : UInt32
deriving DecidableEq

namespace RxCompletion

def lastDescriptor : UInt32 := 0x10000000

def errorSummary : UInt32 := 0x8000

def packetError : UInt32 := lastDescriptor ||| errorSummary

/-- An error summary counts only in the last descriptor of a frame. -/
def hasError (rx : RxCompletion) : Bool := rx.status &&& packetError == packetError

theorem hasError_iff {rx : RxCompletion} : rx.hasError = true ↔
    rx.status &&& lastDescriptor ≠ 0 ∧ rx.status &&& errorSummary ≠ 0 := by
  have hlast : lastDescriptor.toBitVec = BitVec.twoPow 32 28 := by decide
  have hsummary : errorSummary.toBitVec = BitVec.twoPow 32 15 := by decide
  simp only [hasError, packetError, beq_iff_eq, ne_eq, ← UInt32.toBitVec_inj, UInt32.toBitVec_and,
    UInt32.toBitVec_or, hlast, hsummary, BitVec.and_or_distrib_left, BitVec.and_twoPow]
  cases rx.status.toBitVec.getLsbD 28 <;> cases rx.status.toBitVec.getLsbD 15 <;> decide

end RxCompletion

end XgmacDriver
