import XgmacDriver.Bench.Bytes
import XgmacDriver.Machine.Exchange
import XgmacDriver.Log

/-! # Transcripts

How a run of the driver is written down: one line for each exchange and each log entry, with
addresses by name, and equal lines that follow one another as one line with their number.
-/

namespace XgmacDriver.Bench

def showBool (b : Bool) : String := if b then "true" else "false"

def showStatus : Except EngineStatus Unit → String
  | .ok () => "ok"
  | .error status => toString status.code.toInt

def showOption {α : Type} (shown : α → String) : Option α → String
  | some a => shown a
  | none => "none"

def showPhy (phy : PhyRecord) : String :=
  " ".intercalate [toString phy.address.toNat, toString phy.identifier.toNat, phy.interface.name,
    showBool phy.autonegotiation, phy.speed.name, phy.duplex.name, toString phy.advertise.toNat,
    toString phy.linkStatus.toNat]

def showContent (bytes : List UInt8) : String := "[" ++ showBytes bytes ++ "]"

def showIndex (buffer : NetworkBuffer) : String := toString buffer.index.toNat

def showDelivery (d : Delivery) : String :=
  let b := d.frame.buffer
  "(" ++ " ".intercalate [toString b.index.toNat, "len=" ++ toString b.length,
    "cap=" ++ toString b.capacity, "if=" ++ toString d.frame.interface.toNat,
    "ep=" ++ showOption (fun e => toString e.toNat) d.frame.endpoint, showContent d.bytes] ++ ")"

def commandWords (address : Addr → String) : Command → List String
  | .phyDiscover phy | .phyInitialize phy | .cfgSpeed phy | .updateSpeed phy => [showPhy phy]
  | .refill buf => [address buf]
  | .transmit frame =>
      [address frame.buf, toString frame.size, showBool frame.release, showContent frame.bytes]
  | .setCallback | .dmaInitialize | .emacStart => []

/-- The words before and after the arrow of an exchange; a call without a shown answer has no arrow.
-/
def exchangeWords (address : Addr → String) : Exchange → List String × Option String
  | .openEmac index opened =>
      (["emac_init", toString index.toNat, "Rgmii"], some (if opened then "ok" else "none"))
  | .command k answer => (k.operation :: commandWords address k, some (showStatus answer))
  | .nextReceived answer =>
      (["dma_receive"], some (showOption (fun rx => " ".intercalate
        [(rx.buf.map address).getD "null", toString rx.size, toString rx.status.toNat]) answer))
  | .nextTransmitted (.ok answer) => (["dma_tx_done"], some (showOption address answer))
  | .nextTransmitted (.error status) => (["dma_tx_done"], some (toString status.code.toInt))
  | .readPhy phy register value =>
      (["read_phy_reg", toString phy.toNat, toString register.toNat], some (toString value.toNat))
  | .getBuffer wanted block answer =>
      (["get_network_buffer", toString wanted, toString block], some (showOption showIndex answer))
  | .releaseBuffer index accepted =>
      (["release_network_buffer", toString index.toNat], some (showBool accepted))
  | .considerFrame _ _ => (["mac_address"], none)
  | .matchEndpoint interface bytes _ =>
      (["matching_endpoint", toString interface.toNat, showContent bytes], none)
  | .lookup a answer => (["lookup", address a], some (showOption showIndex answer))
  | .rxEvent timeout frames accepted =>
      ("send_rx_event" :: toString timeout :: frames.map showDelivery,
        some (if accepted then "ok" else "full"))
  | .spawn spec answer =>
      (["spawn", spec.name, toString spec.stackSize, toString spec.priority.toNat],
        some (if answer.isSome then "ok" else "none"))
  | .notify w => (["notify", toString w.bits.toNat], none)
  | .wait ms w => (["wait", toString ms.toNat], some (toString w.bits.toNat))

def showExchange (address : Addr → String) (x : Exchange) : String :=
  match exchangeWords address x with
  | (call, some answer) => " ".intercalate (call ++ ["->", answer])
  | (call, none) => " ".intercalate call

def showLevel : LogLevel → String
  | .error => "E"
  | .warn => "W"
  | .info => "I"
  | .debug => "D"

def showLogEntry (address : Addr → String) (entry : LogEntry) : String :=
  showLevel entry.level ++ " xgmac: " ++ entry.text address

/-- Each run of equal entries as one entry with its length. -/
def runs {α : Type} [DecidableEq α] : List α → List (α × Nat)
  | [] => []
  | a :: rest =>
      match runs rest with
      | (b, n) :: others => if a = b then (b, n + 1) :: others else (a, 1) :: (b, n) :: others
      | [] => [(a, 1)]

def showRun : String × Nat → String
  | (line, 1) => line
  | (line, n) => line ++ " *" ++ toString n

def lines (shown : List String) : List String := (runs shown).map showRun

end XgmacDriver.Bench
