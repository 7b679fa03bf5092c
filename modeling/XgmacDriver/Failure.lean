import XgmacDriver.BringUp.Stage

/-! # Errors and halts

A driver call ends in one of three ways: with a result, with a `DriverError` that its caller
handles, or with a `Halt`, after which the calling task does not continue. The wording of both is
fixed here and nowhere else.
-/

namespace XgmacDriver

structure EngineStatus where
  code : Int32
deriving DecidableEq

def EngineStatus.message (s : EngineStatus) : String :=
  "status " ++ toString s.code.toInt

inductive DriverError
  | poolNotInitialized
  | poolAllocationFailed
  | poolExhausted
  | poolEmpty
  | poolLockTimeout
  | bufferTooLarge (wanted max : Nat)
  | notPoolMember
  | engineNotInitialized
  | engine (operation : String) (status : EngineStatus)
  | nullPayload
  | invalidInstance (index : UInt8)
  | taskCreationFailed
  | initFailed (stage : Stage)
  | linkDown
  | noNetworkBuffer
deriving DecidableEq

namespace DriverError

def name : DriverError → String
  | poolNotInitialized => "PoolNotInitialized"
  | poolAllocationFailed => "PoolAllocationFailed"
  | poolExhausted => "PoolExhausted"
  | poolEmpty => "PoolEmpty"
  | poolLockTimeout => "PoolLockTimeout"
  | bufferTooLarge .. => "BufferTooLarge"
  | notPoolMember => "NotPoolMember"
  | engineNotInitialized => "EngineNotInitialized"
  | engine .. => "Engine"
  | nullPayload => "NullPayload"
  | invalidInstance _ => "InvalidInstance"
  | taskCreationFailed => "TaskCreationFailed"
  | initFailed _ => "InitFailed"
  | linkDown => "LinkDown"
  | noNetworkBuffer => "NoNetworkBuffer"

def message : DriverError → String
  | poolNotInitialized => "Buffer pool not initialized"
  | poolAllocationFailed => "Buffer pool allocation failed"
  | poolExhausted => "Buffer pool fully used"
  | poolEmpty => "Buffer pool is already empty"
  | poolLockTimeout => "Timed out waiting for buffer pool lock"
  | bufferTooLarge wanted max =>
      "Requested buffer size " ++ toString wanted ++ " exceeds pool buffer size " ++ toString max
  | notPoolMember => "Address is not a buffer of this pool"
  | engineNotInitialized => "EMAC not initialized"
  | engine operation status =>
      "Engine operation " ++ operation ++ " failed: " ++ status.message
  | nullPayload => "Ethernet buffer is null"
  | invalidInstance index => "Invalid EMAC instance " ++ toString index.toNat
  | taskCreationFailed => "Deferred interrupt task creation failed"
  | initFailed stage => "Interface initialisation failed in stage " ++ stage.name
  | linkDown => "Link is down"
  | noNetworkBuffer => "No network buffer available"

end DriverError

inductive Halt
  | addOverflow
  | mulOverflow
  /-- A pool is created again after its creation was cut short. -/
  | creationPoisoned
  | noTransmitSlot (reason : DriverError)
  | unknownFault (code channel : UInt8)
deriving DecidableEq

def Halt.message : Halt → String
  | addOverflow => "attempt to add with overflow"
  | mulOverflow => "attempt to multiply with overflow"
  | creationPoisoned => "Once panicked"
  | noTransmitSlot reason => "xgmac: no Tx buffer available: " ++ reason.message
  | unknownFault code channel =>
      "xgmac: unknown DMA error code " ++ toString code.toNat ++ " on channel "
        ++ toString channel.toNat

inductive Failure
  | error (e : DriverError)
  | halt (h : Halt)
deriving DecidableEq

end XgmacDriver
