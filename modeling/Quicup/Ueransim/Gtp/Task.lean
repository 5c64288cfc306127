import Quicup.Ueransim.Gtp.Proto
import Quicup.Ueransim.Gtp.Utils
import Quicup.Ueransim.Utils.Network

/-!
# The GTP task of the gNB

State and message handlers of `gtp/task.cpp`. A handler returns the new state and
what it hands to another task or to the UDP socket, or faults. The rate limiter
is any implementation of its interface.
-/

namespace Quicup.Ueransim

structure AggregateMaximumBitRate where
  dlAmbr : UInt64 := 0
  ulAmbr : UInt64 := 0
  deriving DecidableEq

structure GtpTunnel where
  teid : UInt32 := 0
  address : OctetString := []
  deriving DecidableEq

/-- A PDU session with the identifiers of its QoS flows. -/
structure PduSessionResource where
  ueId : Int32
  psi : Int32
  sessionAmbr : AggregateMaximumBitRate := {}
  upTunnel : GtpTunnel := {}
  downTunnel : GtpTunnel := {}
  qosFlows : List Int := []
  deriving DecidableEq

structure GtpUeContext where
  ueId : Int32
  ueAmbr : AggregateMaximumBitRate := {}
  deriving DecidableEq

structure GtpUeContextUpdate where
  ueId : Int32
  ueAmbr : AggregateMaximumBitRate := {}
  deriving DecidableEq

inductive TransportMode
  | quic
  | gtpu
  deriving DecidableEq

/-! ## Sockets -/

/-- The UDP server, as what its sockets take. It raises for any other packet. -/
structure UdpServer where
  takes : InetAddress → OctetString → Bool

def udpSend (server : Option UdpServer) (dest : InetAddress) (packet : OctetString) :
    Except Fault Unit :=
  match server with
  | none => .error .nullDeref
  | some server => if server.takes dest packet then .ok () else .error .exception

/-- What the task hands out. -/
inductive GtpOutput
  | dataPduDelivery (ueId psi : Int32) (pdu : OctetString)
  | gtpToQuic (ip : InetAddress) (data : OctetString)
  | udp (dest : InetAddress) (packet : OctetString)
  deriving DecidableEq

structure GtpTask (ρ : Type) where
  udpServer : Option UdpServer := none
  ueContexts : AList fun _ : Int32 => GtpUeContext := ∅
  rateLimiter : ρ
  pduSessions : AList fun _ : UInt64 => PduSessionResource := ∅
  sessionTree : PduSessionTree := {}

namespace GtpTask

variable {ρ : Type} (limiter : IRateLimiter ρ) (task : GtpTask ρ)

/-! ## Sessions and contexts -/

def updateAmbrForUe (ueId : Int32) : GtpTask ρ :=
  match task.ueContexts.lookup ueId with
  | none => task
  | some ue =>
    let rateLimiter := limiter.updateUeUplinkLimit ueId ue.ueAmbr.ulAmbr task.rateLimiter
    { task with rateLimiter := limiter.updateUeDownlinkLimit ueId ue.ueAmbr.dlAmbr rateLimiter }

def updateAmbrForSession (pduSession : UInt64) : GtpTask ρ :=
  match task.pduSessions.lookup pduSession with
  | none => task
  | some sess =>
    let rateLimiter :=
      limiter.updateSessionUplinkLimit pduSession sess.sessionAmbr.ulAmbr task.rateLimiter
    { task with
      rateLimiter :=
        limiter.updateSessionDownlinkLimit pduSession sess.sessionAmbr.dlAmbr rateLimiter }

def handleUeContextUpdate (msg : GtpUeContextUpdate) : GtpTask ρ :=
  let ue := (task.ueContexts.lookup msg.ueId).getD ⟨msg.ueId, {}⟩
  let ueContexts := task.ueContexts.insert msg.ueId { ue with ueAmbr := msg.ueAmbr }
  updateAmbrForUe limiter { task with ueContexts } ue.ueId

/-- A session of an unknown UE is refused. -/
def handleSessionCreate (session : PduSessionResource) : GtpTask ρ :=
  if task.ueContexts.lookup session.ueId = none then task
  else
    let sessionInd := makeSessionResInd session.ueId session.psi
    let pduSessions := task.pduSessions.insert sessionInd session
    let sessionTree := task.sessionTree.insert sessionInd session.downTunnel.teid
    let task := updateAmbrForUe limiter { task with pduSessions, sessionTree } session.ueId
    updateAmbrForSession limiter task sessionInd

def handleSessionRelease (ueId psi : Int32) : GtpTask ρ :=
  if task.ueContexts.lookup ueId = none then task
  else
    let sessionInd := makeSessionResInd ueId psi
    let rateLimiter := limiter.updateSessionUplinkLimit sessionInd 0 task.rateLimiter
    let rateLimiter := limiter.updateUeDownlinkLimit ueId 0 rateLimiter
    match task.pduSessions.lookup sessionInd with
    | none => { task with rateLimiter }
    | some session =>
      { task with
        rateLimiter
        pduSessions := task.pduSessions.erase sessionInd
        sessionTree := task.sessionTree.remove sessionInd session.downTunnel.teid }

/-- One turn of the loop over the sessions of a deleted UE. An absent session is
inserted as a null pointer and dereferenced. -/
def deleteSession (ueId : Int32) (task : GtpTask ρ) (session : UInt64) :
    Except Fault (GtpTask ρ) :=
  let rateLimiter := limiter.updateSessionUplinkLimit session 0 task.rateLimiter
  let rateLimiter := limiter.updateUeDownlinkLimit ueId 0 rateLimiter
  match task.pduSessions.lookup session with
  | none => .error .nullDeref
  | some resource =>
    .ok { task with
      rateLimiter
      pduSessions := task.pduSessions.erase session
      sessionTree := task.sessionTree.remove session resource.downTunnel.teid }

def handleUeContextDelete (ueId : Int32) : Except Fault (GtpTask ρ) := do
  let sessions := task.sessionTree.enumerateByUe ueId
  let task ← sessions.foldlM (deleteSession limiter ueId) task
  let rateLimiter := limiter.updateUeUplinkLimit ueId 0 task.rateLimiter
  let rateLimiter := limiter.updateUeDownlinkLimit ueId 0 rateLimiter
  return { task with rateLimiter, ueContexts := task.ueContexts.erase ueId }

/-! ## Packets -/

/-- Ask the limiter for a packet and deliver it to the session when it is allowed. -/
def deliverDownlink (sessionInd : UInt64) (payload : OctetString) :
    GtpTask ρ × Option GtpOutput :=
  let (allowed, rateLimiter) :=
    limiter.allowDownlinkPacket sessionInd (UInt64.ofNat payload.length) task.rateLimiter
  ({ task with rateLimiter },
    if allowed then some (.dataPduDelivery (getUeId sessionInd) (getPsi sessionInd) payload)
    else none)

/-- The G-PDU of an uplink packet, with the QFI of the first flow of the session. -/
def uplinkMessage (session : PduSessionResource) (pdu : OctetString) : Except Fault GtpMessage :=
  match session.qosFlows with
  | [] => .error .nullDeref
  | qfi :: _ => .ok {
      msgType := GtpMessage.mtGPdu
      teid := session.upTunnel.teid
      extHeaders := [.pduSessionContainerExtHeader (some (.ul { qfi }))]
      payload := pdu }

/-- The first octet of the packet is read before anything is checked. -/
def handleUplinkData (transportMode : TransportMode) (ueId psi : Int32) (pdu : OctetString) :
    Except Fault (GtpTask ρ × Option GtpOutput) := do
  match pdu with
  | [] => .error .outOfBounds
  | data0 :: _ =>
    if bitRange8 4 7 data0 ≠ 4 then
      return (task, none)
    let sessionInd := makeSessionResInd ueId psi
    match task.pduSessions.lookup sessionInd with
    | none => return (task, none)
    | some pduSession =>
      let (allowed, rateLimiter) :=
        limiter.allowUplinkPacket sessionInd (UInt64.ofNat pdu.length) task.rateLimiter
      let task := { task with rateLimiter }
      if !allowed then
        return (task, none)
      match transportMode with
      | .quic =>
        let quicPdu := OctetString.append
          (OctetString.appendOctet4 [] pduSession.upTunnel.teid.toNat) pdu
        let ip ← InetAddress.ofOctets pduSession.upTunnel.address InetAddress.quicPort
        return (task, some (.gtpToQuic ip quicPdu))
      | .gtpu =>
        let gtpMsg ← uplinkMessage pduSession pdu
        match ← encodeGtpMessage gtpMsg [] with
        | none => return (task, none)
        | some gtpPdu =>
          let dest ← InetAddress.ofOctets pduSession.upTunnel.address InetAddress.gtpPort
          udpSend task.udpServer dest gtpPdu
          return (task, some (.udp dest gtpPdu))

def handleQuicReceive (data : OctetString) : Except Fault (GtpTask ρ × Option GtpOutput) := do
  if data.length < 5 then
    return (task, none)
  let (teid, _) ← read4UI (Cursor.start data)
  let payload := data.drop 4
  let sessionInd := task.sessionTree.findByDownTeid teid
  if sessionInd = 0 then
    return (task, none)
  return task.deliverDownlink limiter sessionInd payload

/-- The answer to an echo request. -/
def echoResponse (seq : Option UInt16) : GtpMessage where
  msgType := GtpMessage.mtEchoResponse
  seq := seq
  payload := [14, 0]

/-- The result of the decoder is used without a check. -/
def handleUdpReceive (packet : OctetString) (fromAddress : InetAddress) :
    Except Fault (GtpTask ρ × Option GtpOutput) := do
  match ← decode packet with
  | none => .error .nullDeref
  | some gtp =>
    if gtp.msgType = GtpMessage.mtGPdu then
      let sessionInd := task.sessionTree.findByDownTeid gtp.teid
      if sessionInd = 0 then
        return (task, none)
      return task.deliverDownlink limiter sessionInd gtp.payload
    else if gtp.msgType = GtpMessage.mtEchoRequest then
      match ← encodeGtpMessage (echoResponse gtp.seq) [] with
      | none => return (task, none)
      | some gtpPdu =>
        udpSend task.udpServer fromAddress gtpPdu
        return (task, some (.udp fromAddress gtpPdu))
    else
      return (task, none)

end GtpTask

end Quicup.Ueransim
