/-! # DMA faults

The engine reports an error by a code. Eight codes have a meaning; the rest are not known to the
driver.
-/

namespace XgmacDriver

inductive DmaFault
  | fatalBus
  | txStopped
  | rxStopped
  | txBufUnavailable
  | rxBufUnavailable
  | contextDescriptor
  | descriptorDefinition
  | unhandled
deriving DecidableEq

namespace DmaFault

def code : DmaFault → UInt8
  | fatalBus => 0
  | txStopped => 1
  | rxStopped => 2
  | txBufUnavailable => 3
  | rxBufUnavailable => 4
  | contextDescriptor => 5
  | descriptorDefinition => 6
  | unhandled => 7

def all : List DmaFault :=
  [fatalBus, txStopped, rxStopped, txBufUnavailable, rxBufUnavailable, contextDescriptor,
    descriptorDefinition, unhandled]

def ofCode? (code : UInt8) : Option DmaFault := all.find? fun f => f.code = code

def name : DmaFault → String
  | fatalBus => "FatalBus"
  | txStopped => "TxStopped"
  | rxStopped => "RxStopped"
  | txBufUnavailable => "TxBufUnavailable"
  | rxBufUnavailable => "RxBufUnavailable"
  | contextDescriptor => "ContextDescriptor"
  | descriptorDefinition => "DescriptorDefinition"
  | unhandled => "Unhandled"

def description : DmaFault → String
  | fatalBus => "Fatal Bus Error"
  | txStopped => "Transmit Stopped"
  | rxStopped => "Receive Stopped"
  | txBufUnavailable => "Transmit Buffer Unavailable Error"
  | rxBufUnavailable => "Receive Buffer Unavailable Error"
  | contextDescriptor => "Context Descriptor Error"
  | descriptorDefinition => "Descriptor Definition Error"
  | unhandled => "Unhandled Error"

/-- A stopped channel runs again only after the interface is brought up anew. -/
def isStop (f : DmaFault) : Bool := f = txStopped || f = rxStopped

@[simp] theorem ofCode?_code (f : DmaFault) : ofCode? f.code = some f := by cases f <;> rfl

theorem ofCode?_eq_some_iff {c : UInt8} {f : DmaFault} : ofCode? c = some f ↔ f.code = c := by
  constructor
  · intro h
    simpa using List.find?_some h
  · rintro rfl
    exact ofCode?_code f

end DmaFault

end XgmacDriver
