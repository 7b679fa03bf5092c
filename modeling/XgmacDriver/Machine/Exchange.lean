import XgmacDriver.Buffer.Descriptor
import XgmacDriver.Dma.Engine
import XgmacDriver.Ethernet
import XgmacDriver.Memory.Basic

/-! # Exchanges

Everything that passes between the driver and its collaborators, one exchange for each call with the
answer that it got. A run of the driver is observed as the list of its exchanges.
-/

namespace XgmacDriver

structure TaskSpec where
  name : String
  /-- Stack size in words. -/
  stackSize : Nat
  priority : UInt8
deriving DecidableEq

/-- A frame of a receive event, with its content at that moment. -/
structure Delivery where
  frame : RxFrame
  bytes : List UInt8
deriving DecidableEq

def Delivery.of (memory : Memory) (frame : RxFrame) : Delivery where
  frame
  bytes := match frame.buffer.payload with
    | some a => memory.read a frame.buffer.length
    | none => []

inductive Exchange
  | openEmac (index : UInt8) (opened : Bool)
  | command (command : Command) (answer : Except EngineStatus Unit)
  | nextReceived (answer : Option RxCompletion)
  | nextTransmitted (answer : TxAnswer)
  | readPhy (phy register : UInt8) (value : UInt32)
  | getBuffer (wanted block : Nat) (answer : Option NetworkBuffer)
  | releaseBuffer (index : UInt16) (accepted : Bool)
  | considerFrame (bytes : List UInt8) (verdict : Disposition)
  | matchEndpoint (interface : UInt8) (bytes : List UInt8) (answer : Option UInt16)
  | lookup (a : Addr) (answer : Option NetworkBuffer)
  | rxEvent (timeout : Nat) (frames : List Delivery) (accepted : Bool)
  | spawn (spec : TaskSpec) (answer : Option UInt32)
  | notify (w : EventWord)
  | wait (ms : UInt64) (w : EventWord)

end XgmacDriver
