/-! # The PHY record

What the driver knows about the PHY: discovery fills in the address and the identifier, negotiation
the speed, the duplex mode and the link status.
-/

namespace XgmacDriver

inductive PhyInterface
  | rgmii
  | sgmii
  | usxgmii
deriving DecidableEq

def PhyInterface.name : PhyInterface → String
  | rgmii => "Rgmii"
  | sgmii => "Sgmii"
  | usxgmii => "Usxgmii"

inductive LinkSpeed
  | mbps10
  | mbps100
  | mbps1000
  | mbps2500
  | mbps10000
deriving DecidableEq

def LinkSpeed.name : LinkSpeed → String
  | mbps10 => "Mbps10"
  | mbps100 => "Mbps100"
  | mbps1000 => "Mbps1000"
  | mbps2500 => "Mbps2500"
  | mbps10000 => "Mbps10000"

inductive Duplex
  | half
  | full
deriving DecidableEq

def Duplex.name : Duplex → String
  | half => "Half"
  | full => "Full"

def advertiseAll : UInt32 := 0x01E0 ||| 0x0300

structure PhyRecord where
  address : UInt8 := 0
  identifier : UInt32 := 0
  interface : PhyInterface := .rgmii
  autonegotiation : Bool := true
  speed : LinkSpeed := .mbps1000
  duplex : Duplex := .full
  advertise : UInt32 := advertiseAll
  linkStatus : UInt32 := 0
deriving DecidableEq

def phyStatusRegister : UInt8 := 1

def linkBit : UInt32 := 0x0004

def linkUp (status : UInt32) : Bool := status &&& linkBit != 0

end XgmacDriver
