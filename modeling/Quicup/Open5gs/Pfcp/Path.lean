import Quicup.Open5gs.Pfcp.Rules

/-!
# Packets of FARs

`path.c` of the PFCP library, and what goes with it in `context.c` and `handler.c`: the
GTP-U peers that FARs point to, and the packets that FARs send and keep. A packet is
recorded under the slot of its FAR.
-/

namespace Quicup.Open5gs.Pfcp

/-! ## Views -/

/-- What the handling of packets reads of a FAR. -/
def PfcpFar.view (far : PfcpFar) (id : UInt32) : Far where
  id
  applyAction := far.applyAction
  dstIf := far.dstIf
  dstIfType := far.dstIfType
  outerHeaderCreation := far.outerHeaderCreation.toOuterHeaderCreation
  bufferedGtpu := far.bufferedGtpu
  gnode := far.gnode

namespace PfcpState

variable (st : PfcpState)

def farView (slot : Nat) : Far := (st.rule .far slot).view (st.id .far slot)

/-- What the handling of packets reads of a PDR and of the rules that it points to. -/
def pdrView (slot : Nat) : Pdr where
  id := (st.id .pdr slot).toUInt16
  srcIf := (st.rule .pdr slot).srcIf
  srcIfType := (st.rule .pdr slot).srcIfType
  teid := (st.rule .pdr slot).fTeid.teid
  qfi := (st.rule .pdr slot).qfi
  far := (st.rule .pdr slot).far.map st.farView
  urr := (st.rule .pdr slot).urr.map fun urr => ⟨st.id .urr urr⟩
  qer := (st.rule .pdr slot).qer.map fun qer => ⟨(st.rule .qer qer).qfi⟩
  ruleList := (st.rule .pdr slot).ruleList.map SdfRule.toPfcpRule

/-- A rule is used, which is recorded if it is not one of the session. -/
def use (kind : RuleKind) (slot : Nat) : PfcpState :=
  { st with record.stray := st.record.stray || decide (slot ∉ st.list kind) }

/-- The rule that a pointer leads to is used. -/
def usePtr (kind : RuleKind) (ptr : Option Nat) : PfcpState :=
  match ptr with
  | none => st
  | some slot => st.use kind slot

/-! ## Sending -/

/-- `ogs_pfcp_send_gtpu` for a packet of a FAR. -/
def sendGtpu (slot : Nat) (sendbuf : Gpdu) : PfcpState :=
  match (st.farView slot).sendGtpu sendbuf with
  | some sent => { st with record.sent := st.record.sent ++ [(slot, sent)] }
  | none => { st with record.dropped := st.record.dropped ++ [(slot, sendbuf)] }

/-- `ogs_pfcp_send_buffered_gtpu` -/
def sendBufferedGtpu (pdr : Nat) : PfcpState :=
  match (st.rule .pdr pdr).far with
  | none => st
  | some slot =>
    let st := st.use .far slot
    let far := st.farView slot
    if far.gnode.isSome ∧ far.forw then
      (far.bufferedGtpu.foldl (fun st sendbuf => st.sendGtpu slot sendbuf) st).setRule .far slot
        { st.rule .far slot with bufferedGtpu := [] }
    else st

/-- A packet that a FAR keeps, if its buffer is not full. -/
def keepGtpu (slot : Nat) (sendbuf : Gpdu) : PfcpState :=
  let far := st.rule .far slot
  if far.bufferedGtpu.length < ogsMaxNumOfGtpuBuffer then
    st.setRule .far slot { far with bufferedGtpu := far.bufferedGtpu ++ [sendbuf] }
  else { st with record.freed := st.record.freed ++ [(slot, sendbuf)] }

/-- What the FAR of a packet does with it. -/
def handleGtpu (slot : Nat) (sendbuf : Gpdu) : PfcpState :=
  let far := st.farView slot
  if far.gnode = none then st.keepGtpu slot sendbuf
  else if far.forw then st.sendGtpu slot sendbuf
  else if far.buff then st.keepGtpu slot sendbuf
  else { st with record.freed := st.record.freed ++ [(slot, sendbuf)] }

/-- `ogs_pfcp_up_handle_pdr`, with the packet that arrives. -/
def upHandlePdr (pdr : Nat) (type : UInt8) (len : Nat) (recvhdr : Option Gtp2HeaderDesc)
    (sendbuf : Pkbuf) : Except Fault PfcpState := do
  if type = 0 then .error .assertion
  else
    match (st.rule .pdr pdr).far with
    | none => .error .assertion
    | some slot =>
      let st := (st.use .far slot).usePtr .qer (st.rule .pdr pdr).qer
      let sendbuf ← (st.pdrView pdr).encapsulate (st.farView slot) type len recvhdr sendbuf
      let arrived := st.record.arrived ++ [(slot, sendbuf)]
      return { st with record.arrived := arrived }.handleGtpu slot sendbuf

end PfcpState

/-! ## End markers -/

def gtpuMsgtypeEndMarker : UInt8 := 254

def sendEndMarkerPackets : UInt8 := 2

/-- `ogs_pfcp_send_end_marker`, with whether there is memory for a packet. -/
def sendEndMarker (alloc : Bool) (pdr : Nat) : Handler Unit := do
  .assert alloc
  .modify fun st =>
    let qer := (st.rule .pdr pdr).qer
    let far := (st.rule .pdr pdr).far
    let qfi := (qer.map fun qer => (st.rule .qer qer).qfi).getD 0
    let hdr : Gtp2HeaderDesc := { type := gtpuMsgtypeEndMarker, teid := 0, qosFlowIdentifier := qfi }
    let sent := far.bind fun far => (st.farView far).sendGtpu (.encapsulated hdr [])
    let st := (st.usePtr .qer qer).usePtr .far far
    { st with record.endMarkers := st.record.endMarkers ++ sent.toList }

/-! ## Peers -/

/-- Whether there is a node for a peer, and a socket that reaches it. -/
structure GtpuPeerEnv where
  add : OgsIp → Bool
  connect : OgsIp → Bool

/-- The peer of an address, which is added if it is not there. It stays in the list when it
cannot be reached. -/
def findOrAddPeer (env : GtpuPeerEnv) (ip : OgsIp) (peers : List (OgsIp × GtpNode)) :
    Option GtpNode × List (OgsIp × GtpNode) :=
  match peers.lookup ip with
  | some gnode => (some gnode, peers)
  | none =>
    if env.add ip = false then (none, peers)
    else if env.connect ip = false then (none, peers ++ [(ip, ⟨false⟩)])
    else (some ⟨true⟩, peers ++ [(ip, ⟨true⟩)])

/-- `ogs_pfcp_setup_far_gtpu_node`, and the key of the FAR that is made of the address of
its peer. A peer that was not reached has none. The result is whether the peer is set up. -/
def setupFarGtpuNode (env : GtpuPeerEnv) (slot : Nat) : Handler Bool := do
  let st ← .get
  let far := st.rule .far slot
  let ip := far.outerHeaderCreation.toIp
  if ip.ipv4 = false ∧ ip.ipv6 = false then
    .assert (far.gnode.all GtpNode.sock)
    return true
  else
    let (gnode, gtpuPeers) := findOrAddPeer env ip st.gtpuPeers
    .modify fun st => { st with gtpuPeers }
    match gnode with
    | none => return false
    | some gnode =>
      modifyRule .far slot fun far => { far with gnode }
      .assert gnode.sock
      return true

/-- The loop over the FARs of a session that sets up their peers. It ends at the first that
is not set up. -/
def setupGtpuNodes (env : GtpuPeerEnv) : List Nat → Handler Bool
  | [] => return true
  | slot :: slots => do
    if ← setupFarGtpuNode env slot then setupGtpuNodes env slots else return false

end Quicup.Open5gs.Pfcp
