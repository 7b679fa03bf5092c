import XgmacDriver.Dma.Descriptor
import XgmacDriver.Event.Word
import XgmacDriver.Failure
import XgmacDriver.Phy

/-! # The transfer engine

The engine holds the buffers it was given until it hands them back: receive buffers are posted and
then completed, frames to send are outstanding and then done. Each queue keeps the order of arrival.
What reaches the driver from the engine's side is an `Arrival`.
-/

namespace XgmacDriver

structure TxFrame where
  buf : Addr
  size : Nat
  /-- Whether the engine is to hand the buffer back. -/
  release : Bool
  bytes : List UInt8
deriving DecidableEq

inductive Command
  | setCallback
  | phyDiscover (phy : PhyRecord)
  | phyInitialize (phy : PhyRecord)
  | dmaInitialize
  | refill (buf : Addr)
  | cfgSpeed (phy : PhyRecord)
  | updateSpeed (phy : PhyRecord)
  | emacStart
  | transmit (frame : TxFrame)
deriving DecidableEq

/-- The name under which a refusal is reported. -/
def Command.operation : Command → String
  | setCallback => "set_callback"
  | phyDiscover _ => "phy_discover"
  | phyInitialize _ => "phy_initialize"
  | dmaInitialize => "dma_initialize"
  | refill _ => "refill_rx_descriptor"
  | cfgSpeed _ => "cfg_speed_mode"
  | updateSpeed _ => "update_speed_mode"
  | emacStart => "emac_start"
  | transmit _ => "dma_transmit"

/-- One answer about completed transmissions: the buffer of the oldest one, nothing, or an error. -/
abbrev TxAnswer := Except EngineStatus (Option Addr)

structure Engine where
  callback : Bool := false
  posted : List Addr := []
  completed : List RxCompletion := []
  outstanding : List Addr := []
  done : List TxAnswer := []

inductive Arrival
  | received (rx : RxCompletion)
  | transmitted (answer : TxAnswer)
  | interrupt (i : Interrupt)
  /-- The frame in a buffer has been sent, of which an interrupt tells. -/
  | sent (buf : Addr)

namespace Engine

def accept (e : Engine) : Command → Engine
  | .setCallback => { e with callback := true }
  | .refill buf => { e with posted := e.posted ++ [buf] }
  | .transmit frame => { e with outstanding := e.outstanding ++ [frame.buf] }
  | _ => e

/-- The engine once it has sent the frame in `buf`, whichever of the outstanding ones that is. -/
def finish (e : Engine) (buf : Addr) : Engine :=
  { e with outstanding := e.outstanding.erase buf, done := e.done ++ [.ok (some buf)] }

def nextDone (e : Engine) : TxAnswer × Engine :=
  match e.done with
  | [] => (.ok none, e)
  | answer :: rest => (answer, { e with done := rest })

def nextCompleted (e : Engine) : Option RxCompletion × Engine :=
  match e.completed with
  | [] => (none, e)
  | rx :: rest => (some rx, { e with completed := rest })

end Engine

end XgmacDriver
