import XgmacDriver.Buffer.Pool
import XgmacDriver.Config
import XgmacDriver.Event.Notifier
import XgmacDriver.Phy

/-! # The interface context

Everything that the driver itself remembers about one MAC instance.
-/

namespace XgmacDriver

inductive Direction
  | tx
  | rx
deriving DecidableEq

structure Interface where
  index : UInt8
  config : Config
  engineOpen : Bool := false
  phy : PhyRecord := {}
  stage : Stage := .engineInit
  /-- The PHY status register as last latched. -/
  link : UInt32 := 0
  txPool : Pool := .new "Tx" poolSlots maxPacketSize
  rxPool : Pool := .new "Rx" poolSlots maxPacketSize
  notifier : Notifier := .new poolSlots
  task : Option UInt32 := none
deriving DecidableEq

namespace Interface

def register (index : UInt8) (config : Config) : Except DriverError Interface :=
  if emacInstances ≤ index then .error (.invalidInstance index) else .ok { index, config }

theorem eq_of_register {index : UInt8} {config : Config} {i : Interface}
    (h : register index config = .ok i) : i = { index, config } := by
  unfold register at h
  split at h
  · cases h
  · exact (Except.ok.inj h).symm

def withEngine (i : Interface) : Interface := { i with engineOpen := true }

def withPhy (i : Interface) (phy : PhyRecord) : Interface := { i with phy }

def withStage (i : Interface) (stage : Stage) : Interface := { i with stage }

def latch (i : Interface) (status : UInt32) : Interface := { i with link := status }

def mapNotifier (i : Interface) (f : Notifier → Notifier) : Interface :=
  { i with notifier := f i.notifier }

/-- The deferred task exists, and interrupts get through to it. -/
def withTask (i : Interface) (handle : UInt32) : Interface :=
  { i with task := some handle, notifier := i.notifier.arm }

def linkIsUp (i : Interface) : Bool := linkUp i.link

def linkCheckInterval (i : Interface) : UInt64 :=
  if i.linkIsUp then i.config.linkHighCheck else i.config.linkLowCheck

def pool (i : Interface) : Direction → Pool
  | .tx => i.txPool
  | .rx => i.rxPool

def setPool (i : Interface) (p : Pool) : Direction → Interface
  | .tx => { i with txPool := p }
  | .rx => { i with rxPool := p }

end Interface

end XgmacDriver
