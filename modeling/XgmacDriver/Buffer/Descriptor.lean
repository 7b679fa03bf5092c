import XgmacDriver.Memory.Address

/-! # Network buffer descriptors

A descriptor refers to one of the stack's buffers: its index in the stack's table, where the frame
starts, how many bytes it can hold and how many of them are a frame. Copying a descriptor does not
copy the ownership of its buffer.
-/

namespace XgmacDriver

structure NetworkBuffer where
  index : UInt16
  payload : Option Addr
  capacity : Nat
  length : Nat := 0
deriving DecidableEq

structure RxFrame where
  buffer : NetworkBuffer
  interface : UInt8
  /-- The endpoint of the stack that should handle it. -/
  endpoint : Option UInt16
deriving DecidableEq

end XgmacDriver
