import Quicup.Core.Cursor

/-!
# The rules of a PFCP session

What the user plane of the UPF reads of the packet detection rules of a session,
of the rules that go with them, and of the addresses of the UE. A pointer of the
context that may be null is an option.
-/

namespace Quicup.Open5gs

/-! ## Interfaces -/

def ogsPfcpInterfaceAccess : UInt8 := 0

def ogsPfcpInterfaceCore : UInt8 := 1

def ogsPfcpInterfaceUnknown : UInt8 := 0xff

def ogsPfcp3gppInterfaceTypeN33gppAccess : UInt8 := 11

def ogsPfcp3gppInterfaceTypeN6 : UInt8 := 17

def ogsPfcp3gppInterfaceTypeN9ForRoaming : UInt8 := 21

/-! ## Forwarding and usage -/

/-- The union at the end holds an IPv4 address, an IPv6 address, or the one behind
the other. -/
structure OuterHeaderCreation where
  ip4 : Bool := false
  ip6 : Bool := false
  udp4 : Bool := false
  udp6 : Bool := false
  gtpu4 : Bool := false
  gtpu6 : Bool := false
  teid : UInt32 := 0
  address : Vector UInt8 20
  deriving DecidableEq

/-- The octets of `ogs_ip_t`, which are zero where a flag is not set. -/
structure OgsIp where
  ipv4 : Bool := false
  ipv6 : Bool := false
  addr : List UInt8 := List.replicate 4 0
  addr6 : List UInt8 := List.replicate 16 0
  deriving DecidableEq

/-- `ogs_pfcp_outer_header_creation_to_ip` -/
def OuterHeaderCreation.toIp (o : OuterHeaderCreation) : OgsIp :=
  if (o.gtpu4 || o.ip4 || o.udp4) && (o.gtpu6 || o.ip6 || o.udp6) then
    { ipv4 := true
      ipv6 := true
      addr := o.address.toList.take 4
      addr6 := o.address.toList.drop 4 }
  else if o.gtpu4 || o.ip4 || o.udp4 then
    { ipv4 := true
      addr := o.address.toList.take 4 }
  else if o.gtpu6 || o.ip6 || o.udp6 then
    { ipv6 := true
      addr6 := o.address.toList.take 16 }
  else {}

/-- `ogs_gtp2_header_desc_t`, with the presence of the values that may be absent. -/
structure Gtp2HeaderDesc where
  type : UInt8
  teid : UInt32
  qosFlowIdentifier : UInt8 := 0
  pduType : UInt8 := 0
  udpPort : Option UInt16 := none
  pdcpNumber : Option UInt16 := none
  deriving DecidableEq

/-- A packet with a new GTP-U header, or with so many octets of its old one again. -/
inductive Gpdu
  | encapsulated (hdr : Gtp2HeaderDesc) (data : List UInt8)
  | pushed (len : Nat) (data : List UInt8)
  deriving DecidableEq

/-- A GTP-U peer, with whether its socket is set up. -/
structure GtpNode where
  sock : Bool
  deriving DecidableEq

def ogsPfcpApplyActionForw : UInt16 := 0x200

def ogsPfcpApplyActionBuff : UInt16 := 0x400

structure Far where
  id : UInt32
  applyAction : UInt16 := 0
  dstIf : UInt8
  /-- `dst_if_type`, with its presence. -/
  dstIfType : Option UInt8 := none
  outerHeaderCreation : OuterHeaderCreation
  bufferedGtpu : List Gpdu := []
  gnode : Option GtpNode := none
  deriving DecidableEq

structure Qer where
  qfi : UInt8
  deriving DecidableEq

structure Urr where
  id : UInt32
  deriving DecidableEq

/-! ## Detection -/

/-- An address and a mask of four words, of which IPv4 uses the first. A word is kept
as the number that its octets write. -/
structure IpfwAddr where
  addr : Vector UInt32 4
  mask : Vector UInt32 4
  deriving DecidableEq

structure IpfwPort where
  low : UInt16
  high : UInt16
  deriving DecidableEq

structure IpfwRule where
  proto : UInt8
  ipSrc : IpfwAddr
  ipDst : IpfwAddr
  portSrc : IpfwPort
  portDst : IpfwPort
  deriving DecidableEq

structure PfcpRule where
  ipfw : IpfwRule
  deriving DecidableEq

structure Pdr where
  id : UInt16
  srcIf : UInt8
  /-- `src_if_type`, with its presence. -/
  srcIfType : Option UInt8 := none
  /-- `f_teid.teid` -/
  teid : UInt32 := 0
  qfi : UInt8 := 0
  far : Option Far
  urr : List Urr := []
  qer : Option Qer := none
  ruleList : List PfcpRule := []
  deriving DecidableEq

/-! ## Addresses of the UE -/

structure PfcpDev where
  fd : Nat
  isTap : Bool := false
  macAddr : Vector UInt8 6
  deriving DecidableEq

structure PfcpSubnet where
  dev : Option PfcpDev
  deriving DecidableEq

structure UeIp where
  addr : Vector UInt32 4
  subnet : Option PfcpSubnet
  deriving DecidableEq

/-- `family` is zero in an empty slot. -/
structure IpSubnet where
  family : Nat
  sub : Vector UInt32 4
  mask : Vector UInt32 4
  deriving DecidableEq

def ogsMaxNumOfFramedRoutesInPdi : Nat := 8

/-- `upf_sess_t`. The session that a detection rule points to is the one that lists it. -/
structure UpfSess where
  pdrList : List Pdr
  ipv4 : Option UeIp := none
  ipv6 : Option UeIp := none
  ipv4FramedRoutes : Option (Vector IpSubnet ogsMaxNumOfFramedRoutesInPdi) := none
  ipv6FramedRoutes : Option (Vector IpSubnet ogsMaxNumOfFramedRoutesInPdi) := none
  deriving DecidableEq

/-- What a TEID is registered for. -/
inductive PfcpObject
  | sess (sess : UpfSess)
  | pdr (pdr : Pdr)
  deriving DecidableEq

def ogsMaxNumOfUrr : Nat := 16

/-- A packet that is added to the accumulator of a URR. -/
structure UrrAcc where
  urr : Urr
  size : Nat
  isUplink : Bool
  deriving DecidableEq

/-- `upf_sess_urr_acc_add` -/
def upfSessUrrAccAdd (urr : Urr) (size : Nat) (isUplink : Bool) : Except Fault UrrAcc :=
  if 0 < urr.id.toNat ∧ urr.id.toNat ≤ ogsMaxNumOfUrr then .ok ⟨urr, size, isUplink⟩
  else .error .assertion

end Quicup.Open5gs
