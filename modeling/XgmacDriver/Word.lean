import XgmacDriver.Failure

/-! # Checked 64-bit arithmetic

Sizes and times are 64-bit words. Sums and products of them are checked: one that does not fit halts
the caller instead of wrapping.
-/

namespace XgmacDriver.Word

/-- The number of values of a 64-bit word. -/
def bound : Nat := UInt64.size

def add (a b : Nat) : Except Halt Nat :=
  if a + b < bound then .ok (a + b) else .error .addOverflow

def mul (a b : Nat) : Except Halt Nat :=
  if a * b < bound then .ok (a * b) else .error .mulOverflow

end XgmacDriver.Word
