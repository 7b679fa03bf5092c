import XgmacDriver.Memory.Address
import XgmacDriver.Dma.Fault
import XgmacDriver.Failure

/-! # The driver's log

A log entry is what the driver has to say, as data. Its level and its wording are fixed here; the
caller chooses how an address is written.
-/

namespace XgmacDriver

inductive LogLevel
  | error
  | warn
  | info
  | debug
deriving DecidableEq

inductive LogEntry
  | slotTooSmall (pool : String) (wanted slotSize : Nat)
  | poolFullyUsed (pool : String)
  | poolAlreadyEmpty (pool : String)
  | notASlot (pool : String) (a : Addr)
  | lockTimeout (pool : String)
  | dmaFault (fault : DmaFault) (channel : UInt8)
  | linkStillDown (waited : UInt64)
  | speedUpdateFailed (status : EngineStatus)
  | linkNow (up : Bool)
  | stageFailed (stage : Stage) (e : DriverError)
  | interfaceReady (index : UInt8)
  | phyFound (identifier : UInt32) (address : UInt8)
  | waitingForLink (index : UInt8)
  | outputBeforeInit (index : UInt8)
  | outputWithoutPayload
  | transmitRefused (status : EngineStatus)
  | txSlotNotReturned (e : DriverError)
  | frameDropped (length : Nat)
  | completionFailed (status : EngineStatus)
  | sentBufferWithoutOwner (a : Addr)
  | txSlotNotReleased (e : DriverError)
  | descriptorWithoutBuffer
  | refillRefused (status : EngineStatus)
  | erroredFrame (status : UInt32)
  | noBufferForFrame
  | receivedBufferWithoutOwner (a : Addr)
  | rxSlotNotReturned (a : Addr) (e : DriverError)
  | eventQueueFull (frames : Nat)
deriving DecidableEq

def hexadecimal (n : Nat) : String := "0x" ++ String.ofList (Nat.toDigits 16 n)

namespace LogEntry

def level : LogEntry → LogLevel
  | dmaFault .. | stageFailed .. | outputBeforeInit _ | outputWithoutPayload | refillRefused _
  | receivedBufferWithoutOwner _ | rxSlotNotReturned .. => .error
  | linkNow _ | interfaceReady _ | phyFound .. => .info
  | linkStillDown _ | frameDropped _ => .debug
  | _ => .warn

/-- The wording of an entry, without the name of the driver in front. -/
def text (address : Addr → String) : LogEntry → String
  | slotTooSmall pool wanted slotSize =>
      pool ++ " buffer size " ++ toString wanted ++ " more than the pool buffer size "
        ++ toString slotSize
  | poolFullyUsed pool => pool ++ " buffer pool fully used"
  | poolAlreadyEmpty pool => pool ++ " buffer pool is already empty"
  | notASlot pool a => address a ++ " is not a " ++ pool ++ " pool buffer"
  | lockTimeout pool => pool ++ " pool lock timeout"
  | dmaFault fault channel =>
      fault.description ++ " on DMA channel " ++ toString channel.toNat
        ++ if fault.isStop then ", re-init network interface" else ""
  | linkStillDown waited => "link still down after " ++ toString waited.toNat ++ " ms"
  | speedUpdateFailed status => "updating EMAC configuration failed: " ++ status.message
  | linkNow up => "PHY link status now " ++ if up then "up" else "down"
  | stageFailed stage e => stage.name ++ " failed: " ++ e.message
  | interfaceReady index => "interface " ++ toString index.toNat ++ " ready"
  | phyFound identifier address =>
      "PHY " ++ hexadecimal identifier.toNat ++ " at address " ++ toString address.toNat
  | waitingForLink index => "waiting for link on interface " ++ toString index.toNat
  | outputBeforeInit index => "output on interface " ++ toString index.toNat ++ " before init"
  | outputWithoutPayload => "output with a null payload"
  | transmitRefused status => "DMA transmit failed: " ++ status.message
  | txSlotNotReturned e => "can not return Tx pool buffer: " ++ e.message
  | frameDropped length => "link down, dropping " ++ toString length ++ " byte frame"
  | completionFailed status => "Tx completion failed: " ++ status.message
  | sentBufferWithoutOwner a => "no network buffer owns " ++ address a
  | txSlotNotReleased e => "can not release Tx pool buffer: " ++ e.message
  | descriptorWithoutBuffer => "completed Rx descriptor without a buffer"
  | refillRefused status => "Rx descriptor refill failed: " ++ status.message
  | erroredFrame status => "dropping errored frame, status " ++ hexadecimal status.toNat
  | noBufferForFrame => "no network buffer, dropping frame"
  | receivedBufferWithoutOwner a => "no network buffer owns " ++ address a
  | rxSlotNotReturned a e => "cannot return " ++ address a ++ " to the Rx pool: " ++ e.message
  | eventQueueFull frames => "IP task queue full, dropping " ++ toString frames ++ " frames"

end LogEntry

end XgmacDriver
