/-! # Event words

The deferred task is woken through one 32-bit word. Three bits say which kinds of event have
happened, the upper half carries the code and the channel of an error, and words are combined by OR.
-/

namespace XgmacDriver

structure EventWord where
  bits : UInt32
deriving DecidableEq

inductive Interrupt
  | received
  | transmitted
  | fault (code channel : UInt8)
deriving DecidableEq

namespace EventWord

def none : EventWord := ⟨0⟩

def rxBit : UInt32 := 1

def txBit : UInt32 := 2

def errBit : UInt32 := 4

def allBits : UInt32 := rxBit ||| txBit ||| errBit

instance : OrOp EventWord := ⟨fun a b => ⟨a.bits ||| b.bits⟩⟩

def has (w : EventWord) (bit : UInt32) : Bool := w.bits &&& bit != 0

def rx (w : EventWord) : Bool := w.has rxBit

def tx (w : EventWord) : Bool := w.has txBit

def err (w : EventWord) : Bool := w.has errBit

/-- Whether no kind of event is set, whatever the upper half holds. -/
def isEmpty (w : EventWord) : Bool := !w.has allBits

/-- The code of an error, in the top byte. -/
def errCode (w : EventWord) : UInt8 := (w.bits >>> 24).toUInt8

/-- The DMA channel of an error, in the byte below. -/
def errChannel (w : EventWord) : UInt8 := (w.bits >>> 16).toUInt8

def fault (code channel : UInt8) : EventWord :=
  ⟨(code.toUInt32 <<< 24) ||| (channel.toUInt32 <<< 16) ||| errBit⟩

def ofInterrupt : Interrupt → EventWord
  | .received => ⟨rxBit⟩
  | .transmitted => ⟨txBit⟩
  | .fault code channel => fault code channel

@[simp] theorem bits_or (a b : EventWord) : (a ||| b).bits = a.bits ||| b.bits := rfl

/-- A bit is set in a combined word if it is set in one of the two. -/
theorem has_or (a b : EventWord) (bit : UInt32) :
    (a ||| b).has bit = (a.has bit || b.has bit) := by
  have hdistrib : (a.bits ||| b.bits) &&& bit = (a.bits &&& bit) ||| (b.bits &&& bit) := by
    apply UInt32.toBitVec_inj.mp
    simp only [UInt32.toBitVec_and, UInt32.toBitVec_or]
    ext i
    simp [Bool.and_or_distrib_right]
  rw [has, bits_or, hdistrib, has, has, Bool.eq_iff_iff]
  simp only [bne_iff_ne, ne_eq, UInt32.or_eq_zero_iff, Bool.or_eq_true]
  exact Decidable.not_and_iff_not_or_not

end EventWord

end XgmacDriver
