import Quicup.Open5gs.Pfcp.RuleMatch
import Quicup.Open5gs.Upf.QuicServer

/-!
# The packet paths of the UPF

`gtp-path.c`: an uplink packet comes from QUIC or from GTP-U, each with a path of its
own from the TEID to the TUN device. A downlink packet comes from the TUN device and
leaves over either transport.
-/

namespace Quicup.Open5gs

open Pkbuf

inductive UpfTransportMode
  | gtpu
  | quic
  deriving DecidableEq

/-- The URRs of a detection rule account a packet. -/
def Pdr.account (pdr : Pdr) (len : Nat) (isUplink : Bool) : Except Fault (List UrrAcc) :=
  pdr.urr.mapM fun urr => upfSessUrrAccAdd urr len isUplink

/-! ## Uplink -/

/-- What becomes of an uplink packet. A device gets a frame. `ogs_pfcp_up_handle_pdr`
writes to no device. -/
inductive Uplink
  | drop
  | errorIndication
  | tunWrite (accounted : List UrrAcc) (dev : PfcpDev) (frame : List UInt8)
  | upHandlePdr (pdr : Pdr)
  deriving DecidableEq

/-- The tests of `upf_n3_route_uplink` on a detection rule. -/
def Pdr.takesUplink (teid : UInt32) (pkbuf : Pkbuf) (pdr : Pdr) : Except Fault Bool :=
  if teid ≠ pdr.teid then .ok false
  else pdr.rulesAdmit pkbuf

/-- The subnet of the address of the UE in the family of the packet. -/
def UpfSess.uplinkSubnet (sess : UpfSess) (pkbuf : Pkbuf) : Except Fault (Option PfcpSubnet) := do
  match ← ipV pkbuf, sess.ipv4, sess.ipv6 with
  | 4, some ue, _ => return ue.subnet
  | 6, _, some ue => return ue.subnet
  | _, _, _ => return none

/-- `upf_n3_route_uplink` from the detection rule on. -/
def UpfSess.routeUplink (sess : UpfSess) (pdr : Pdr) (pkbuf : Pkbuf) : Except Fault Uplink := do
  match pdr.far with
  | none => .error .assertion
  | some far =>
    if far.dstIf = ogsPfcpInterfaceCore then
      match ← sess.uplinkSubnet pkbuf with
      | none => return .drop
      | some subnet =>
        match subnet.dev with
        | none => .error .assertion
        | some dev => return .tunWrite (← pdr.account pkbuf.len true) dev pkbuf.data
    else return .upHandlePdr pdr

/-- `upf_n3_route_uplink`, with what is registered for each TEID. -/
def upfN3RouteUplink (findByTeid : UInt32 → Option PfcpObject) (teid : UInt32) (pkbuf : Pkbuf) :
    Except Fault Uplink := do
  match findByTeid teid with
  | some (.sess sess) =>
    match ← sess.pdrList.findM? (Pdr.takesUplink teid pkbuf) with
    | none => return .drop
    | some pdr => sess.routeUplink pdr pkbuf
  | _ => return .drop

/-! ## Source addresses -/

def wordIs (pkbuf : Pkbuf) (i : Nat) (w : UInt32) : Except Fault Bool := do
  return (← pkbuf.word i) = w

/-- Words of a packet under the masks of a subnet. -/
def wordsIn (pkbuf : Pkbuf) (i : Nat) : List (UInt32 × UInt32) → Except Fault Bool
  | [] => .ok true
  | (sub, mask) :: rest => do
    if sub = (← pkbuf.word i) &&& mask then wordsIn pkbuf (i + 4) rest
    else return false

/-- `check_framed_routes` for the address of so many words at an offset. -/
def checkFramedRoutes (routes : Option (Vector IpSubnet ogsMaxNumOfFramedRoutesInPdi))
    (addrLen : Nat) (pkbuf : Pkbuf) (i : Nat) : Except Fault Bool := do
  match routes with
  | none => return false
  | some routes =>
    let route ← (routes.toList.takeWhile fun route => route.family ≠ 0).findM? fun route =>
      wordsIn pkbuf i ((route.sub.toList.zip route.mask.toList).take addrLen)
    return route.isSome

/-- The source address is that of the UE or in a framed route. -/
def UpfSess.sourceIpv4 (sess : UpfSess) (ue : UeIp) (pkbuf : Pkbuf) : Except Fault Bool := do
  if ← wordIs pkbuf 12 ue.addr[0] then return true
  else checkFramedRoutes sess.ipv4FramedRoutes 1 pkbuf 12

/-- A link-local source address has the interface identifier of the UE. Another has
its prefix, or is in a framed route. -/
def UpfSess.sourceIpv6 (sess : UpfSess) (ue : UeIp) (pkbuf : Pkbuf) : Except Fault Bool := do
  let linkLocal := decide ((← pkbuf.word 8) &&& 0xffc00000 = 0xfe800000)
  if ← pure linkLocal <&&> wordIs pkbuf 16 ue.addr[2] <&&> wordIs pkbuf 20 ue.addr[3] then
    return true
  else if ← wordIs pkbuf 8 ue.addr[0] <&&> wordIs pkbuf 12 ue.addr[1] then return true
  else checkFramedRoutes sess.ipv6FramedRoutes 4 pkbuf 8

def ethertypeIp : UInt16 := 0x0800

def ethertypeIpv6 : UInt16 := 0x86dd

/-- The source of a packet is checked when it comes from the radio network. -/
def Pdr.fromAccess (pdr : Pdr) : Bool :=
  pdr.srcIf = ogsPfcpInterfaceAccess ∧
    (pdr.srcIfType = some ogsPfcp3gppInterfaceTypeN33gppAccess ∨
      pdr.srcIfType = some ogsPfcp3gppInterfaceTypeN9ForRoaming)

/-- The test for IP source spoofing, which drops a packet or yields a subnet and an
Ethernet type. It leaves them unset where it does not apply. -/
def UpfSess.checkSource (sess : UpfSess) (pdr : Pdr) (far : Far) (pkbuf : Pkbuf) :
    Except Fault (Option (Option PfcpSubnet × UInt16)) := do
  if pdr.fromAccess then
    if far.dstIfType = some ogsPfcp3gppInterfaceTypeN9ForRoaming then
      return some (none, 0)
    else
      match ← ipV pkbuf, sess.ipv4, sess.ipv6 with
      | 4, some ue, _ =>
        if ← sess.sourceIpv4 ue pkbuf then return some (ue.subnet, ethertypeIp)
        else return none
      | 6, _, some ue =>
        if ← sess.sourceIpv6 ue pkbuf then return some (ue.subnet, ethertypeIpv6)
        else return none
      | _, _, _ => return none
  else return some (none, 0)

/-! ## G-PDUs -/

def proxyMacAddr : List UInt8 := [0x0e, 0x00, 0x00, 0x00, 0x00, 0x01]

/-- The frame of a packet for a device. A TAP device gets an Ethernet header. -/
def PfcpDev.frame (dev : PfcpDev) (ethType : UInt16) (data : List UInt8) :
    Except Fault (List UInt8) :=
  if dev.isTap then
    if ethType = 0 then .error .assertion
    else .ok (dev.macAddr.toList ++ proxyMacAddr ++ octetsBE 2 ethType.toNat ++ data)
  else .ok data

/-- The tests of `_gtpv1_u_recv_cb` on a detection rule. -/
def Pdr.takesGpdu (teid : UInt32) (qfi : UInt8) (pkbuf : Pkbuf) (pdr : Pdr) : Except Fault Bool :=
  if teid ≠ pdr.teid then .ok false
  else if pdr.qfi ≠ 0 ∧ pdr.qfi ≠ qfi then .ok false
  else pdr.rulesAdmit pkbuf

/-- `_gtpv1_u_recv_cb` for a G-PDU from the detection rule on. -/
def UpfSess.routeGpdu (sess : UpfSess) (pdr : Pdr) (pkbuf : Pkbuf) : Except Fault Uplink := do
  match pdr.far with
  | none => .error .assertion
  | some far =>
    match ← sess.checkSource pdr far pkbuf with
    | none => return .drop
    | some (subnet, ethType) =>
      if far.dstIf = ogsPfcpInterfaceCore ∧
          far.dstIfType = some ogsPfcp3gppInterfaceTypeN6 then
        match subnet with
        | none => return .drop
        | some subnet =>
          match subnet.dev with
          | none => .error .assertion
          | some dev =>
            let accounted ← pdr.account pkbuf.len true
            return .tunWrite accounted dev (← dev.frame ethType pkbuf.data)
      else return .upHandlePdr pdr

/-- `_gtpv1_u_recv_cb` for a G-PDU whose header is taken off, with the TEID and the QFI
of the header and whether the period after a restart is over. -/
def gtpv1URecvGpdu (findByTeid : UInt32 → Option PfcpObject) (restartOver : Bool) (teid : UInt32)
    (qfi : UInt8) (pkbuf : Pkbuf) : Except Fault Uplink := do
  match findByTeid teid with
  | none => return if restartOver then .errorIndication else .drop
  | some (.pdr _) => .error .assertion
  | some (.sess sess) =>
    match ← sess.pdrList.findM? (Pdr.takesGpdu teid qfi pkbuf) with
    | none => return if restartOver then .errorIndication else .drop
    | some pdr => sess.routeGpdu pdr pkbuf

/-! ## Downlink -/

inductive AddressFamily
  | inet
  | inet6

/-- What becomes of a packet from the TUN device. `quic` has what the packet was sent
with, and `noAddress` stands for a FAR without an address. -/
inductive TunDownlink
  | drop
  | multicast
  | upHandlePdr (accounted : List UrrAcc) (pdr : Pdr)
  | noAddress (accounted : List UrrAcc) (far : Far)
  | quic (accounted : List UrrAcc) (far : Far) (gnbIp : IpString) (teid : UInt32)
      (sent : QuicServer.Downlink)

/-- Where the packets of a FAR go, with the texts of addresses. -/
def Far.gnbIp (inetNtop : AddressFamily → List UInt8 → IpString) (far : Far) : Option IpString :=
  let ip := far.outerHeaderCreation.toIp
  if ip.ipv4 then some (inetNtop .inet ip.addr)
  else if ip.ipv6 then some (inetNtop .inet6 ip.addr6)
  else none

/-- Whether a FAR has an outer header to create. -/
def OuterHeaderCreation.isSet (o : OuterHeaderCreation) : Bool :=
  o.ip4 || o.ip6 || o.udp4 || o.udp6 || o.gtpu4 || o.gtpu6

/-- The variables of the loop of `_gtpv1_tun_recv_common_cb` over the detection rules. -/
structure TunLoop where
  far : Option Far := none
  fallbackPdr : Option Pdr := none

/-- The loop, which yields the detection rule it was left at. -/
def tunLoop (recvbuf : Pkbuf) : List Pdr → TunLoop → Except Fault (Option Pdr × TunLoop)
  | [], v => .ok (none, v)
  | pdr :: pdrList, v =>
    match pdr.far with
    | none => .error .assertion
    | some far =>
      if pdr.srcIf ≠ ogsPfcpInterfaceCore then
        tunLoop recvbuf pdrList { v with far := some far }
      else if far.dstIf ≠ ogsPfcpInterfaceAccess ∨ !far.outerHeaderCreation.isSet then
        tunLoop recvbuf pdrList ⟨some far, some pdr⟩
      else do
        if ← pdr.rulesAdmit recvbuf then .ok (some pdr, ⟨some far, some pdr⟩)
        else tunLoop recvbuf pdrList ⟨some far, some pdr⟩

/-- What the packet paths use of the UPF. -/
structure Upf where
  transportMode : UpfTransportMode
  multicast : Bool
  /-- `upf_sess_find_by_ue_ip_address` -/
  findByUeIpAddress : Pkbuf → Except Fault (Option UpfSess)
  inetNtop : AddressFamily → List UInt8 → IpString
  quicServer : QuicServer
  msQuic : Bool
  sendBuffer : Bool

/-- `upf_n3_route_downlink`, which does not take the packet over GTP-U. -/
def Upf.n3RouteDownlink (upf : Upf) (accounted : List UrrAcc) (far : Far) (teid : UInt32)
    (pkbuf : Pkbuf) : Except Fault (Option TunDownlink) :=
  match upf.transportMode with
  | .gtpu => .ok none
  | .quic =>
    match far.gnbIp upf.inetNtop with
    | none => .ok (some (.noAddress accounted far))
    | some gnbIp => do
      let sent ← upf.quicServer.sendDownlink upf.msQuic upf.sendBuffer gnbIp.chars teid
        (some pkbuf.data) (UInt16.ofNat pkbuf.len)
      return some (.quic accounted far gnbIp teid sent)

/-- `_gtpv1_tun_recv_common_cb` for an IP packet. -/
def Upf.tunRecv (upf : Upf) (recvbuf : Pkbuf) : Except Fault TunDownlink := do
  match ← upf.findByUeIpAddress recvbuf with
  | none => return .drop
  | some sess =>
    let (pdr, v) ← tunLoop recvbuf sess.pdrList {}
    match pdr.or v.fallbackPdr, v.far with
    | none, _ => return if upf.multicast then .multicast else .drop
    | some pdr, far =>
      let accounted ← pdr.account recvbuf.len false
      match far with
      | none => .error .nullDeref
      | some far =>
        match ← upf.n3RouteDownlink accounted far far.outerHeaderCreation.teid recvbuf with
        | some routed => return routed
        | none => return .upHandlePdr accounted pdr

end Quicup.Open5gs
