/-! # Configuration

Buffer ownership, delivery of received frames, filtering and the parameters of the deferred task are
fixed when an interface is created. The remaining numbers are those of the hardware and of the
driver's bounded waits. Times are in milliseconds.
-/

namespace XgmacDriver

def emacInstances : UInt8 := 3

/-- The largest frame, including its CRC. -/
def maxPacketSize : Nat := 1536

def poolSlots : Nat := 512

def defaultRxDescriptors : Nat := 256

def networkBuffers : Nat := 256

/-- Bytes of checksum that the hardware appends to every received frame. -/
def ethernetCrcLength : Nat := 4

def rxBatchCapacity : Nat := 64

def linkPollStep : UInt64 := 20

def taskBlockTime : UInt64 := 100

def rxEventTimeout : Nat := 1000

def prefillWait : Nat := 100

def emacTaskName : String := "EMAC"

def interfaceName : String := "socfpga"

/-- The smallest stack of a task, in words. -/
def minimalStackSize : Nat := 1024

def maxPriorities : UInt8 := 8

def highestPriority : UInt8 := maxPriorities - 1

structure Config where
  /-- Frames are sent from the stack's buffers. -/
  zeroCopyTx : Bool := false
  /-- Frames are received into the stack's buffers. -/
  zeroCopyRx : Bool := false
  /-- The frames of one drain reach the stack in batches. -/
  linkedRx : Bool := false
  filterFrames : Bool := true
  taskPriority : UInt8 := highestPriority
  taskStackSize : Nat := 4 * minimalStackSize
  /-- Time between link checks while the link is up. -/
  linkHighCheck : UInt64 := 15000
  linkLowCheck : UInt64 := 1000
  initLinkWait : UInt64 := 1000
deriving DecidableEq

namespace Config

def copyMode : Config := {}

def zeroCopy : Config := { zeroCopyTx := true, zeroCopyRx := true }

def usesPools (c : Config) : Bool := !c.zeroCopyTx || !c.zeroCopyRx

end Config

end XgmacDriver
