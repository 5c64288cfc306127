import Quicup.Open5gs.Gtp.Signalling
import Quicup.Open5gs.Pfcp.Path
import Quicup.Open5gs.Upf.SourceBounds

/-!
# Safety of the GTP-U path

`_gtpv1_u_recv_cb` from the datagram to what becomes of its packet buffer, for each kind of
message. The buffer is given up once on every way that ends. Which ways end depends on the
octets that lie in the datagram, on the rules of the session, and on what is left of the
resources of the UPF.
-/

namespace Quicup.Open5gs

open Pkbuf Fallible Pfcp

def ogsMaxPktLen : Nat := 2048

def ogsTunMaxHeadroom : Nat := 16

/-! ## The path -/

/-- A report to the control plane about the user plane. -/
inductive UserPlaneReport
  | errorIndication (remoteFTeid : FarFTeid)
  | downlinkData (pdrId : UInt16) (qfi : UInt8)
  deriving DecidableEq

/-- What `_gtpv1_u_recv_cb` leaves: what is done with the buffer of the datagram, the answer
to an echo request, and the report that is sent. -/
structure GtpuOutcome where
  uses : List BufferUse
  answer : Option (List UInt8) := none
  report : Option UserPlaneReport := none
  deriving DecidableEq

/-- What the GTP-U path takes from the rest of the UPF besides: whether the period after a
restart is over, whether there is memory for an answer, and the FARs that are in the hash. -/
structure GtpuEnv extends UplinkEnv where
  restartOver : Bool
  responseMemory : Bool
  farFTeidHash : FarFTeid → Bool

/-- `UpfSess.routeGpdu` with the log of the packets that the test for spoofing drops. -/
def UpfSess.logAndRouteGpdu (sess : UpfSess) (pdr : Pdr) (pkbuf : Pkbuf) : Except Fault Uplink := do
  match pdr.far with
  | none => .error .assertion
  | some far =>
    sess.logSpoofing pdr far pkbuf
    sess.routeGpdu pdr pkbuf

/-- `gtpv1URecvGpdu` with that log. -/
def gtpuRouteGpdu (findByTeid : UInt32 → Option PfcpObject) (restartOver : Bool) (teid : UInt32)
    (qfi : UInt8) (pkbuf : Pkbuf) : Except Fault Uplink := do
  match findByTeid teid with
  | none => return if restartOver then .errorIndication else .drop
  | some (.pdr _) => .error .assertion
  | some (.sess sess) =>
    match ← sess.pdrList.findM? (Pdr.takesGpdu teid qfi pkbuf) with
    | none => return if restartOver then .errorIndication else .drop
    | some pdr => sess.logAndRouteGpdu pdr pkbuf

/-- The log changes nothing of where a packet goes. -/
theorem gtpv1URecvGpdu_of_gtpuRouteGpdu {findByTeid : UInt32 → Option PfcpObject}
    {restartOver : Bool} {teid : UInt32} {qfi : UInt8} {pkbuf : Pkbuf} {uplink : Uplink}
    (h : gtpuRouteGpdu findByTeid restartOver teid qfi pkbuf = .ok uplink) :
    gtpv1URecvGpdu findByTeid restartOver teid qfi pkbuf = .ok uplink := by
  have hlogged {sess : UpfSess} {pdr : Pdr} (h : sess.logAndRouteGpdu pdr pkbuf = .ok uplink) :
      sess.routeGpdu pdr pkbuf = .ok uplink := by
    rw [UpfSess.logAndRouteGpdu] at h
    split at h
    · cases h
    · obtain ⟨_, -, h⟩ := bind_eq_ok.mp h
      exact h
  rw [gtpuRouteGpdu] at h
  rw [gtpv1URecvGpdu]
  generalize findByTeid teid = object at h ⊢
  cases object with
  | none => exact h
  | some object =>
    cases object with
    | pdr pdr => exact h
    | sess sess =>
      obtain ⟨found, hfound, h⟩ := bind_eq_ok.mp h
      refine bind_eq_ok.mpr ⟨found, hfound, ?_⟩
      cases found with
      | none => exact h
      | some pdr => exact hlogged h

/-- `ogs_pkbuf_pull` -/
def pkbufPull (len : Nat) (pkbuf : Pkbuf) : Except Fault Pkbuf :=
  if pkbuf.len < len then .error .assertion
  else .ok { pkbuf with data := pkbuf.data.drop len }

/-- The QFI of a downlink data report. -/
def Pdr.reportQfi (pdr : Pdr) : UInt8 :=
  match pdr.qer with
  | some qer => qer.qfi
  | none => 0

namespace GtpuEnv

variable (env : GtpuEnv)

/-- `upf_pfcp_send_session_report_request`, which must not fail. -/
def sendReport (uses : List BufferUse) (report : UserPlaneReport) : Except Fault GtpuOutcome :=
  if env.accEnv.sends then .ok { uses, report := some report } else .error .assertion

/-- An error indication is reported for the FAR of its F-TEID. -/
def recvErrorIndication (pkbuf : Pkbuf) : Except Fault GtpuOutcome := do
  match ← farFindByGtpuErrorIndication env.farFTeidHash pkbuf with
  | none => return { uses := [.free] }
  | some far => env.sendReport [.free] (.errorIndication far)

/-- What is done with a G-PDU once it is known where it goes. -/
def finishGpdu (headerDesc : FlaggedHeaderDesc) (header : List UInt8) (pkbuf : Pkbuf) :
    Uplink → Except Fault GtpuOutcome
  | .upHandlePdr pdr => do
    let recvhdr := some headerDesc.toGtp2HeaderDesc
    let uses ← pdr.upHandleBuffer headerDesc.type header.length recvhdr
      (env.headroom.toList ++ header) pkbuf
    let outcome ← pdr.upHandle headerDesc.type header.length recvhdr pkbuf
    if outcome.downlinkDataReport then env.sendReport uses (.downlinkData pdr.id pdr.reportQfi)
    else return { uses }
  | uplink => do return { uses := ← env.finish pkbuf uplink }

def recvGpdu (headerDesc : FlaggedHeaderDesc) (header : List UInt8) (pkbuf : Pkbuf) :
    Except Fault GtpuOutcome := do
  let uplink ← gtpuRouteGpdu env.findByTeid env.restartOver headerDesc.teid
    headerDesc.qosFlowIdentifier pkbuf
  env.finishGpdu headerDesc header pkbuf uplink

/-- A message whose header is taken off. -/
def recvMessage (headerDesc : FlaggedHeaderDesc) (header : List UInt8) (pkbuf : Pkbuf) :
    Except Fault GtpuOutcome :=
  if headerDesc.type = gtpuMsgtypeEndMarker then .ok { uses := [.free] }
  else if headerDesc.type = ogsGtpuMsgtypeErrInd then env.recvErrorIndication pkbuf
  else if headerDesc.type = ogsGtpuMsgtypeGpdu then env.recvGpdu headerDesc header pkbuf
  else .ok { uses := [.free] }

/-- A datagram with an accepted header. -/
def recvParsed (pkbuf : Pkbuf) : Option Nat × FlaggedHeaderDesc → Except Fault GtpuOutcome
  | (none, _) => .ok { uses := [.free] }
  | (some len, headerDesc) => do
    if headerDesc.type = ogsGtpuMsgtypeEchoReq then
      return { uses := [.free], answer := ← gtp2HandleEchoReq env.responseMemory pkbuf }
    else if headerDesc.type ≠ gtpuMsgtypeEndMarker ∧ pkbuf.len ≤ len then
      return { uses := [.free] }
    else
      env.recvMessage headerDesc (pkbuf.data.take len) (← pkbufPull len pkbuf)

/-- What `ogs_recvfrom` puts in the buffer. The rest of a long datagram is lost. -/
def received (datagram : List UInt8) : List UInt8 :=
  datagram.take (ogsMaxPktLen - ogsTunMaxHeadroom)

/-- `_gtpv1_u_recv_cb` -/
def recv (datagram : List UInt8) : Except Fault GtpuOutcome :=
  if !env.memory then .error .assertion
  else if received datagram = [] then .ok { uses := [.free] }
  else do
    let version := (← (ofData (received datagram)).octet 0) >>> 5
    if version ≠ 1 then return { uses := [.free] }
    else env.recvParsed (ofData (received datagram)) (← gtpuParseHeader (ofData (received datagram)))

/-- A datagram is handled to its end, and its buffer is given up once. -/
def RecvSafely (datagram : List UInt8) : Prop :=
  ∃ outcome, env.recv datagram = .ok outcome ∧ ConsumedOnce outcome.uses

end GtpuEnv

/-! ## The packet buffer -/

namespace GtpuEnv

variable {env : GtpuEnv} {outcome : GtpuOutcome} {headerDesc : FlaggedHeaderDesc}
  {header : List UInt8} {pkbuf : Pkbuf}

theorem consumedOnce_sendReport {uses : List BufferUse} {report : UserPlaneReport}
    (huses : ConsumedOnce uses) (h : env.sendReport uses report = .ok outcome) :
    ConsumedOnce outcome.uses := by
  rw [sendReport] at h
  split_ifs at h
  obtain rfl := Except.ok.inj h
  exact huses

theorem consumedOnce_finishGpdu {uplink : Uplink}
    (h : env.finishGpdu headerDesc header pkbuf uplink = .ok outcome) :
    ConsumedOnce outcome.uses := by
  rw [finishGpdu.eq_def] at h
  split at h
  · obtain ⟨uses, huses, h⟩ := bind_eq_ok.mp h
    have hconsumed := Pdr.consumedOnce_upHandleBuffer huses
    obtain ⟨handled, -, h⟩ := bind_eq_ok.mp h
    split_ifs at h
    · exact consumedOnce_sendReport hconsumed h
    · obtain rfl := Except.ok.inj h
      exact hconsumed
  · obtain ⟨uses, huses, h⟩ := bind_eq_ok.mp h
    obtain rfl := Except.ok.inj h
    exact consumedOnce_finish huses

theorem consumedOnce_recvMessage (h : env.recvMessage headerDesc header pkbuf = .ok outcome) :
    ConsumedOnce outcome.uses := by
  have hfree : ConsumedOnce [.free] := consumedOnce_single rfl
  rw [recvMessage] at h
  split_ifs at h
  · obtain rfl := Except.ok.inj h
    exact hfree
  · obtain ⟨far, -, h⟩ := bind_eq_ok.mp h
    cases far with
    | none =>
      obtain rfl := Except.ok.inj h
      exact hfree
    | some far => exact consumedOnce_sendReport hfree h
  · obtain ⟨uplink, -, h⟩ := bind_eq_ok.mp h
    exact consumedOnce_finishGpdu h
  · obtain rfl := Except.ok.inj h
    exact hfree

/-- What returns has given the buffer up. -/
theorem consumedOnce_recv {datagram : List UInt8} (h : env.recv datagram = .ok outcome) :
    ConsumedOnce outcome.uses := by
  have hfree : ConsumedOnce [.free] := consumedOnce_single rfl
  rw [recv] at h
  split_ifs at h
  · obtain rfl := Except.ok.inj h
    exact hfree
  obtain ⟨octet, -, h⟩ := bind_eq_ok.mp h
  dsimp only at h
  split_ifs at h
  · obtain rfl := Except.ok.inj h
    exact hfree
  obtain ⟨⟨len, headerDesc⟩, -, h⟩ := bind_eq_ok.mp h
  cases len with
  | none =>
    obtain rfl := Except.ok.inj h
    exact hfree
  | some len =>
    rw [recvParsed] at h
    split_ifs at h
    · obtain ⟨answer, -, h⟩ := bind_eq_ok.mp h
      obtain rfl := Except.ok.inj h
      exact hfree
    · obtain rfl := Except.ok.inj h
      exact hfree
    · obtain ⟨pulled, -, h⟩ := bind_eq_ok.mp h
      exact consumedOnce_recvMessage h

end GtpuEnv

/-! ## Which datagrams are handled safely -/

/-- A FAR keeps a packet, which is the first one that it keeps. -/
def Far.KeepsFirst (far : Far) : Prop :=
  far.bufferedGtpu = [] ∧ (far.gnode = none ∨ (far.forw = false ∧ far.buff = true))

/-- A detection rule is for a TEID and a QFI. -/
def Pdr.IsFor (pdr : Pdr) (teid : UInt32) (qfi : UInt8) : Prop :=
  teid = pdr.teid ∧ (pdr.qfi = 0 ∨ pdr.qfi = qfi)

namespace GtpuEnv

variable (env : GtpuEnv)

/-- A detection rule has what it takes to route a packet. It has a FAR, and the source that is
tested lies in the packet. A packet for N6 whose source is allowed has a device in its subnet
and URRs that account it. Elsewhere the report on the first packet that is kept is sent. -/
def Routable (sess : UpfSess) (pdr : Pdr) (packet : List UInt8) : Prop :=
  ∃ far, pdr.far = some far ∧ (pdr.TestsSource far → sess.SourceInside packet) ∧
    if far.dstIf = ogsPfcpInterfaceCore ∧ far.dstIfType = some ogsPfcp3gppInterfaceTypeN6 then
      pdr.TestsSource far → sess.HasSource packet →
        ∀ subnet, sess.familySubnet (versionAt packet) = some subnet →
          subnet.dev ≠ none ∧ Accountable env.accEnv (.ofNat packet.length)
            (pdr.urr.map env.sessUrr) env.urrAcc
    else (pdr.TestsSource far → sess.HasSource packet) → far.KeepsFirst → env.accEnv.sends = true

/-- Up to the first detection rule that takes a packet, what the SDF rules for its TEID and its
QFI read lies in the packet. That detection rule can route the packet. -/
def Selectable (sess : UpfSess) (teid : UInt32) (qfi : UInt8) (packet : List UInt8) : Prop :=
  ∀ before pdr after, sess.pdrList = before ++ pdr :: after →
    (∀ p ∈ before, ¬(p.IsFor teid qfi ∧ p.RulesMatch packet)) →
    (pdr.IsFor teid qfi → pdr.RulesInside packet) ∧
      (pdr.IsFor teid qfi ∧ pdr.RulesMatch packet → env.Routable sess pdr packet)

/-- What each kind of message asks for. An error indication lies in the packet, and the report
for its FAR is sent. The TEID of a G-PDU is not that of a detection rule, and the session that
has it can route the packet. -/
def MessageAdmissible (headerDesc : FlaggedHeaderDesc) (packet : List UInt8) : Prop :=
  (headerDesc.type = ogsGtpuMsgtypeErrInd → ∃ key, ErrorIndication packet key ∧
    ∀ far, key = some far → env.farFTeidHash far = true → env.accEnv.sends = true) ∧
  (headerDesc.type = ogsGtpuMsgtypeGpdu →
    (∀ pdr, env.findByTeid headerDesc.teid ≠ some (.pdr pdr)) ∧
    ∀ sess, env.findByTeid headerDesc.teid = some (.sess sess) →
      env.Selectable sess headerDesc.teid headerDesc.qosFlowIdentifier packet)

/-- There is memory for a datagram. One of version 1 has a header that lies in it, and what
follows an accepted header is nothing, or what its kind of message asks for. -/
def Admissible (datagram : List UInt8) : Prop :=
  env.memory = true ∧
    (received datagram ≠ [] → octetAt (received datagram) 0 >>> 5 = 1 →
      ∃ parsed, GtpuHeader (received datagram) parsed ∧ ∀ len, parsed.1 = some len →
        (received datagram).drop len ≠ [] →
          env.MessageAdmissible parsed.2 ((received datagram).drop len))

end GtpuEnv

section Forwarding

variable {pdr : Pdr} {far : Far} {packet header : List UInt8}

theorem takesGpdu_ofData_iff {teid : UInt32} {qfi : UInt8} {b : Bool} :
    pdr.takesGpdu teid qfi (ofData packet) = .ok b ↔
      (pdr.IsFor teid qfi → pdr.RulesInside packet) ∧
        (b = true ↔ pdr.IsFor teid qfi ∧ pdr.RulesMatch packet) := by
  have hrefused (hnot : ¬pdr.IsFor teid qfi) : (.ok false : Except Fault Bool) = .ok b ↔
      (pdr.IsFor teid qfi → pdr.RulesInside packet) ∧
        (b = true ↔ pdr.IsFor teid qfi ∧ pdr.RulesMatch packet) := by
    simp [hnot, eq_comm]
  rw [Pdr.takesGpdu]
  split_ifs with hteid hqfi
  · exact hrefused fun h => hteid h.1
  · exact hrefused fun h => h.2.elim hqfi.1 hqfi.2
  · have hfor : pdr.IsFor teid qfi := by
      refine ⟨not_not.mp hteid, ?_⟩
      tauto
    rw [rulesAdmit_ofData_iff, forall_prop_of_true hfor, and_iff_right hfor]

theorem length_fillExtensionHeaders (array : List Gtp2ExtensionHeader) :
    (fillExtensionHeaders array).length = 4 * array.length := by
  induction array with
  | nil => rfl
  | cons header array ih =>
    simp only [fillExtensionHeaders, List.length_cons, ih]
    omega

/-- Behind a received header there is room for any header that replaces it. -/
theorem encapsulate_of_received (hdr : Gtp2HeaderDesc) {headroom : Nat} (hheadroom : 24 ≤ headroom)
    (pkbuf : Pkbuf) :
    ∃ sendbuf, gtp2EncapsulateHeader { toGtp2HeaderDesc := hdr } headroom pkbuf = .ok sendbuf ∧
      7 < sendbuf.size := by
  have hnumber (type : UInt8) (number : Option UInt16) :
      (numberExtension type number).length ≤ 1 := by
    cases number with
    | none => exact Nat.zero_le 1
    | some n => exact le_rfl
  have hcontainer : hdr.container.length ≤ 1 := by
    rw [Gtp2HeaderDesc.container]
    split_ifs
    · exact le_rfl
    · exact Nat.zero_le 1
  have hfits (array : List Gtp2ExtensionHeader) (harray : array.length ≤ 3) :
      ∃ sendbuf, gtp2FillHeader hdr.type 0 array headroom pkbuf = .ok sendbuf ∧
        7 < sendbuf.size := by
    have hoptional : (fillOptional (fillFlags 0 array) array).length ≤ 16 := by
      rw [fillOptional]
      split_ifs
      · rw [List.length_append, length_fillExtensionHeaders]
        simp only [List.length_cons, List.length_nil]
        omega
      · decide
      · decide
    rw [gtp2FillHeader, if_neg (by omega)]
    refine ⟨_, rfl, ?_⟩
    simp only [Pkbuf.size, List.length_append, List.length_cons, length_octetsBE]
    omega
  apply hfits
  have hudp := hnumber extensionTypeUdpPort hdr.udpPort
  have hpdcp := hnumber extensionTypePdcpNumber hdr.pdcpNumber
  simp only [List.length_append]
  omega

/-- A received header is there to take a QFI from. -/
theorem returns_sendQfi_received (recvhdr : Gtp2HeaderDesc) :
    Returns (pdr.sendQfi far (some recvhdr)) := by
  rw [Pdr.sendQfi]
  split
  · split_ifs
    · exact returns_ok _
    · exact returns_ok _
  · split_ifs
    · exact returns_ok _
    · exact returns_ok _
  · exact returns_ok _

/-- A G-PDU is forwarded with a header of eight octets or more, whatever its FAR. -/
theorem returns_upHandleBuffer_received (hfar : pdr.far = some far) {type : UInt8} (htype : type ≠ 0)
    (recvhdr : Gtp2HeaderDesc) (hheader : 8 ≤ header.length) {headroom : List UInt8}
    (hheadroom : headroom.length = 16) :
    Returns (pdr.upHandleBuffer type header.length (some recvhdr) (headroom ++ header)
      (ofData packet)) := by
  have hlength : (headroom ++ header).length = 16 + header.length := by
    rw [List.length_append, hheadroom]
  have hencapsulated : ∃ sendbuf, pdr.encapsulateBuffer far type header.length (some recvhdr)
      (headroom ++ header) (ofData packet) = .ok sendbuf ∧ 7 < sendbuf.size := by
    rw [Pdr.encapsulateBuffer]
    split
    · rw [pkbufPush, if_neg (by omega)]
      refine ⟨_, rfl, ?_⟩
      simp only [Pkbuf.size, ofData, List.length_append, List.length_drop, List.length_nil]
      omega
    · obtain ⟨qfi, hqfi⟩ := @returns_sendQfi_received pdr far recvhdr
      obtain ⟨sendbuf, hsendbuf, hsize⟩ := encapsulate_of_received
        { type
          teid := far.outerHeaderCreation.teid
          qosFlowIdentifier := qfi
          pduType := ogsGtp2ExtensionHeaderPduTypeDlPduSessionInformation
          udpPort := recvhdr.udpPort
          pdcpNumber := recvhdr.pdcpNumber }
        (by omega : 24 ≤ (headroom ++ header).length) (ofData packet)
      exact ⟨sendbuf, bind_eq_ok.mpr ⟨_, bind_eq_ok.mpr ⟨qfi, hqfi, rfl⟩, hsendbuf⟩, hsize⟩
  obtain ⟨sendbuf, hsendbuf, hsize⟩ := hencapsulated
  rw [Pdr.upHandleBuffer, if_neg htype, hfar]
  refine returns_bind.mpr ⟨sendbuf, hsendbuf, ?_⟩
  split_ifs
  · exact returns_pure _
  · exact returns_sendBuffer_iff.mpr fun _ _ => hsize
  · exact returns_pure _
  · exact returns_pure _

/-- What is reported of a G-PDU that is forwarded. -/
theorem upHandle_received (hfar : pdr.far = some far) {type : UInt8} (htype : type ≠ 0) (len : Nat)
    (recvhdr : Gtp2HeaderDesc) (pkbuf : Pkbuf) :
    ∃ outcome, pdr.upHandle type len (some recvhdr) pkbuf = .ok outcome ∧
      (outcome.downlinkDataReport = true ↔ far.KeepsFirst) := by
  have hencapsulated : Returns (pdr.encapsulate far type len (some recvhdr) pkbuf) := by
    rw [Pdr.encapsulate]
    split_ifs
    · exact returns_pure _
    · obtain ⟨qfi, hqfi⟩ := @returns_sendQfi_received pdr far recvhdr
      exact returns_bind.mpr ⟨_, bind_eq_ok.mpr ⟨qfi, hqfi, rfl⟩, returns_pure _⟩
  obtain ⟨sendbuf, hsendbuf⟩ := hencapsulated
  have hfirst : (far.buffering sendbuf).downlinkDataReport = true ↔ far.bufferedGtpu = [] :=
    List.isEmpty_iff
  rw [Pdr.upHandle, if_neg htype, hfar]
  dsimp only
  rw [hsendbuf, ok_bind, Far.KeepsFirst]
  split_ifs with hgnode hforw hbuff
  · exact ⟨_, rfl, by rw [hfirst]; simp [hgnode]⟩
  · exact ⟨_, rfl, by simp [hgnode, hforw]⟩
  · exact ⟨_, rfl, by rw [hfirst]; simp [hforw, hbuff]⟩
  · exact ⟨_, rfl, by simp [hgnode, hbuff]⟩

end Forwarding

namespace GtpuEnv

section Routing

variable {env : GtpuEnv} {sess : UpfSess} {pdr : Pdr} {far : Far} {packet header : List UInt8}
  {headerDesc : FlaggedHeaderDesc}

theorem returns_sendReport_iff {uses : List BufferUse} {report : UserPlaneReport} :
    Returns (env.sendReport uses report) ↔ env.accEnv.sends = true := by
  rw [sendReport]
  split_ifs with hsends
  · exact iff_of_true (returns_ok _) hsends
  · exact iff_of_false (not_returns_error _) hsends

theorem returns_finishGpdu_upHandlePdr_iff (hfar : pdr.far = some far)
    (htype : headerDesc.type ≠ 0) (hheader : 8 ≤ header.length) :
    Returns (env.finishGpdu headerDesc header (ofData packet) (.upHandlePdr pdr)) ↔
      (far.KeepsFirst → env.accEnv.sends = true) := by
  obtain ⟨uses, huses⟩ := @returns_upHandleBuffer_received pdr far packet header hfar
    headerDesc.type htype headerDesc.toGtp2HeaderDesc hheader env.headroom.toList
    env.headroom.length_toList
  obtain ⟨outcome, houtcome, hreport⟩ := upHandle_received hfar htype header.length
    headerDesc.toGtp2HeaderDesc (ofData packet)
  rw [finishGpdu, huses, ok_bind, houtcome, ok_bind, ← hreport]
  split_ifs with hreported
  · rw [returns_sendReport_iff, forall_prop_of_true hreported]
  · exact iff_of_true (returns_pure _) fun h => absurd h hreported

theorem returns_finishGpdu_tunWrite_iff {accounted : List UrrAcc} {dev : PfcpDev}
    {frame : List UInt8} :
    Returns (env.finishGpdu headerDesc header (ofData packet) (.tunWrite accounted dev frame)) ↔
      Accountable env.accEnv (.ofNat packet.length)
        (accounted.map fun acc => env.sessUrr acc.urr) env.urrAcc := by
  have hfinish : env.finishGpdu headerDesc header (ofData packet) (.tunWrite accounted dev frame) =
      (do return { uses := ← env.finish (ofData packet) (.tunWrite accounted dev frame) }) := rfl
  rw [hfinish, returns_bind, ← @returns_finish_tunWrite_iff _ packet accounted dev frame]
  simp only [returns_pure, and_true]
  rfl

/-- A frame is made for every packet with an Ethernet type. -/
theorem returns_frame (dev : PfcpDev) {ethType : UInt16} (heth : ethType ≠ 0) (data : List UInt8) :
    Returns (dev.frame ethType data) := by
  rw [PfcpDev.frame]
  split_ifs
  · exact returns_ok _
  · exact returns_ok _

theorem routeGpdu_of_dropped (hfar : pdr.far = some far) {pkbuf : Pkbuf}
    (hfound : sess.checkSource pdr far pkbuf = .ok none) : sess.routeGpdu pdr pkbuf = .ok .drop := by
  rw [UpfSess.routeGpdu, hfar]
  dsimp only
  rw [hfound]
  rfl

/-- What routing asks for once the source is allowed. -/
theorem returns_routeGpdu_of_source_iff (hfar : pdr.far = some far) (htype : headerDesc.type ≠ 0)
    (hheader : 8 ≤ header.length) {subnet : Option PfcpSubnet} {ethType : UInt16}
    (hfound : sess.checkSource pdr far (ofData packet) = .ok (some (subnet, ethType)))
    (heth : ethType = 0 → subnet = none) :
    Returns (sess.routeGpdu pdr (ofData packet) >>=
        env.finishGpdu headerDesc header (ofData packet)) ↔
      if far.dstIf = ogsPfcpInterfaceCore ∧ far.dstIfType = some ogsPfcp3gppInterfaceTypeN6 then
        ∀ s, subnet = some s → s.dev ≠ none ∧ Accountable env.accEnv (.ofNat packet.length)
          (pdr.urr.map env.sessUrr) env.urrAcc
      else far.KeepsFirst → env.accEnv.sends = true := by
  rw [UpfSess.routeGpdu, hfar]
  dsimp only
  rw [hfound, ok_bind]
  dsimp only
  by_cases hn6 : far.dstIf = ogsPfcpInterfaceCore ∧ far.dstIfType = some ogsPfcp3gppInterfaceTypeN6
  · rw [if_pos hn6, if_pos hn6]
    cases subnet with
    | none => exact iff_of_true (returns_ok _) fun s h => by cases h
    | some s =>
      have heth : ethType ≠ 0 := fun h => Option.some_ne_none s (heth h)
      simp only [Option.some.injEq, forall_eq']
      cases hdev : s.dev with
      | none => exact iff_of_false (not_returns_error _) fun h => h.1 rfl
      | some dev =>
        obtain ⟨frame, hframe⟩ := returns_frame dev heth packet
        have hdata : (ofData packet).data = packet := rfl
        simp only [hdata, hframe, bind_assoc, ok_bind, pure_bind]
        rw [returns_bind]
        simp only [account_eq_ok_iff, returns_finishGpdu_tunWrite_iff]
        constructor
        · rintro ⟨_, ⟨-, rfl⟩, h⟩
          rw [List.map_map] at h
          exact ⟨Option.some_ne_none dev, h⟩
        · rintro ⟨-, h⟩
          have hvalid (urr : Urr) (hurr : urr ∈ pdr.urr) : validUrrId urr.id = true :=
            h.valid _ (List.mem_map_of_mem hurr)
          refine ⟨_, ⟨hvalid, rfl⟩, ?_⟩
          rw [List.map_map]
          exact h
  · rw [if_neg hn6, if_neg hn6]
    exact returns_finishGpdu_upHandlePdr_iff hfar htype hheader

/-- A source that is tested has an Ethernet type. -/
theorem familyEthertype_ne_zero (version : UInt8) : familyEthertype version ≠ 0 := by
  rw [familyEthertype]
  split_ifs
  · decide
  · decide

/-- What is asked of the detection rule that takes a G-PDU. -/
theorem returns_logAndRouteGpdu_iff (hne : packet ≠ []) (htype : headerDesc.type ≠ 0)
    (hheader : 8 ≤ header.length) :
    Returns (sess.logAndRouteGpdu pdr (ofData packet) >>=
        env.finishGpdu headerDesc header (ofData packet)) ↔
      env.Routable sess pdr packet := by
  rw [UpfSess.logAndRouteGpdu, Routable]
  cases hfar : pdr.far with
  | none =>
    refine iff_of_false (not_returns_error _) ?_
    rintro ⟨far, ⟨⟩, -⟩
  | some far =>
    simp only [Option.some.injEq, exists_eq_left', bind_assoc]
    by_cases htests : pdr.TestsSource far
    · have hsource_iff (hinside : sess.SourceInside packet) (hsource : sess.HasSource packet) :=
        @returns_routeGpdu_of_source_iff env sess pdr far packet header headerDesc hfar htype
          hheader _ _ ((checkSource_ofData_iff htests hne hinside).mpr
            ⟨fun _ => rfl, fun hnot => absurd hsource hnot⟩)
          fun hzero => absurd hzero (familyEthertype_ne_zero _)
      rw [returns_bind]
      simp only [htests, forall_true_left]
      constructor
      · rintro ⟨_, hlog, h⟩
        have hinside := (returns_logSpoofing_iff htests hne).mp ⟨_, hlog⟩
        refine ⟨hinside, ?_⟩
        split_ifs with hn6
        · intro hsource
          have hrouted := (hsource_iff hinside hsource).mp h
          rwa [if_pos hn6] at hrouted
        · intro hsource
          have hrouted := (hsource_iff hinside hsource).mp h
          rwa [if_neg hn6] at hrouted
      · rintro ⟨hinside, h⟩
        obtain ⟨_, hlog⟩ := (returns_logSpoofing_iff htests hne).mpr hinside
        refine ⟨_, hlog, ?_⟩
        by_cases hsource : sess.HasSource packet
        · refine (hsource_iff hinside hsource).mpr ?_
          split_ifs at h ⊢
          · exact h hsource
          · exact h hsource
        · have hfound := (checkSource_ofData_iff htests hne hinside).mpr
            ⟨fun h => absurd h hsource, fun _ => rfl⟩
          rw [routeGpdu_of_dropped hfar hfound]
          exact returns_ok _
    · have hfound : sess.checkSource pdr far (ofData packet) = .ok (some (none, 0)) :=
        checkSource_of_not_testsSource htests (ofData packet)
      rw [logSpoofing_of_not_testsSource htests, ok_bind,
        returns_routeGpdu_of_source_iff hfar htype hheader hfound fun _ => rfl]
      simp only [htests, false_implies, true_and, forall_true_left]
      split_ifs
      · simp
      · exact Iff.rfl

/-- A G-PDU that no detection rule takes is dropped or answered. -/
theorem returns_finishGpdu_unmatched :
    Returns ((pure (if env.restartOver then .errorIndication else .drop) : Except Fault Uplink) >>=
      env.finishGpdu headerDesc header (ofData packet)) := by
  cases env.restartOver with
  | false => exact returns_ok _
  | true => exact returns_ok _

/-- What is asked of the session that has the TEID of a G-PDU. -/
theorem returns_recvGpdu_sess_iff (hsess : env.findByTeid headerDesc.teid = some (.sess sess))
    (hne : packet ≠ []) (htype : headerDesc.type ≠ 0) (hheader : 8 ≤ header.length) :
    Returns (env.recvGpdu headerDesc header (ofData packet)) ↔
      env.Selectable sess headerDesc.teid headerDesc.qosFlowIdentifier packet := by
  have htest (pdr : Pdr) (b : Bool) := @takesGpdu_ofData_iff pdr packet headerDesc.teid
    headerDesc.qosFlowIdentifier b
  simp only [recvGpdu, gtpuRouteGpdu, hsess, bind_assoc]
  rw [returns_findM?_bind_iff htest returns_finishGpdu_unmatched]
  simp only [returns_logAndRouteGpdu_iff hne htype hheader]
  rfl

/-- What is asked of what a TEID is registered for. -/
theorem returns_recvGpdu_iff (hne : packet ≠ []) (htype : headerDesc.type ≠ 0)
    (hheader : 8 ≤ header.length) :
    Returns (env.recvGpdu headerDesc header (ofData packet)) ↔
      (∀ pdr, env.findByTeid headerDesc.teid ≠ some (.pdr pdr)) ∧
        ∀ sess, env.findByTeid headerDesc.teid = some (.sess sess) →
          env.Selectable sess headerDesc.teid headerDesc.qosFlowIdentifier packet := by
  cases hobject : env.findByTeid headerDesc.teid with
  | none =>
    rw [recvGpdu, gtpuRouteGpdu, hobject]
    exact iff_of_true returns_finishGpdu_unmatched ⟨by simp, by simp⟩
  | some object =>
    cases object with
    | pdr pdr =>
      rw [recvGpdu, gtpuRouteGpdu, hobject]
      exact iff_of_false (not_returns_error _) fun h => h.1 pdr rfl
    | sess sess =>
      rw [returns_recvGpdu_sess_iff hobject hne htype hheader]
      simp

theorem returns_recvErrorIndication_iff :
    Returns (env.recvErrorIndication (ofData packet)) ↔
      ∃ key, ErrorIndication packet key ∧
        ∀ far, key = some far → env.farFTeidHash far = true → env.accEnv.sends = true := by
  rw [recvErrorIndication, returns_bind]
  simp only [farFindByGtpuErrorIndication_ofData_iff]
  constructor
  · rintro ⟨_, ⟨key, hkey, rfl⟩, h⟩
    refine ⟨key, hkey, ?_⟩
    rintro far rfl hset
    rw [Option.filter_some, if_pos hset] at h
    exact returns_sendReport_iff.mp h
  · rintro ⟨key, hkey, h⟩
    refine ⟨_, ⟨key, hkey, rfl⟩, ?_⟩
    cases key with
    | none => exact returns_pure _
    | some far =>
      rw [Option.filter_some]
      split_ifs with hset
      · exact returns_sendReport_iff.mpr (h far rfl hset)
      · exact returns_pure _

/-- What is asked of a message behind its header. -/
theorem returns_recvMessage_iff (hne : packet ≠ []) (hheader : 8 ≤ header.length) :
    Returns (env.recvMessage headerDesc header (ofData packet)) ↔
      env.MessageAdmissible headerDesc packet := by
  rw [recvMessage, MessageAdmissible]
  split_ifs with hend herr hgpdu
  · refine iff_of_true (returns_ok _) ⟨fun h => ?_, fun h => ?_⟩
    · exact absurd (hend.symm.trans h) (by decide)
    · exact absurd (hend.symm.trans h) (by decide)
  · rw [returns_recvErrorIndication_iff, forall_prop_of_true herr, and_iff_left]
    intro h
    exact absurd (herr.symm.trans h) (by decide)
  · have htype : headerDesc.type ≠ 0 := by
      rw [hgpdu]
      decide
    rw [returns_recvGpdu_iff hne htype hheader, forall_prop_of_true hgpdu]
    exact (and_iff_right fun h => absurd h herr).symm
  · exact iff_of_true (returns_ok _) ⟨fun h => absurd h herr, fun h => absurd h hgpdu⟩

/-- What is asked of what follows an accepted header. -/
theorem returns_recvParsed_iff {datagram : List UInt8} {parsed : Option Nat × FlaggedHeaderDesc}
    (hparsed : GtpuHeader datagram parsed) :
    Returns (env.recvParsed (ofData datagram) parsed) ↔
      ∀ len, parsed.1 = some len → datagram.drop len ≠ [] →
        env.MessageAdmissible parsed.2 (datagram.drop len) := by
  obtain ⟨found, headerDesc⟩ := parsed
  cases found with
  | none => exact iff_of_true (returns_ok _) fun len h => by cases h
  | some len =>
    obtain ⟨hmin, hmax⟩ := hparsed.bounds
    have hlen : (ofData datagram).len = datagram.length := rfl
    have hdrop : datagram.drop len ≠ [] ↔ ¬datagram.length ≤ len := by
      rw [Ne, List.drop_eq_nil_iff]
    simp only [Option.some.injEq, forall_eq']
    rw [recvParsed, hlen, hdrop]
    split_ifs with hecho hsmall
    · refine iff_of_true ?_ fun _ => ⟨fun h => ?_, fun h => ?_⟩
      · obtain ⟨answer, hanswer⟩ := hparsed.returns_handleEchoReq env.responseMemory
        exact returns_bind.mpr ⟨answer, hanswer, returns_pure _⟩
      · exact absurd (hecho.symm.trans h) (by decide)
      · exact absurd (hecho.symm.trans h) (by decide)
    · exact iff_of_true (returns_pure _) fun hlong => absurd hsmall.2 hlong
    · have hpull : pkbufPull len (ofData datagram) = .ok (ofData (datagram.drop len)) := by
        rw [pkbufPull, hlen, if_neg (Nat.not_lt.mpr hmax)]
        rfl
      have hdata : (ofData datagram).data = datagram := rfl
      rw [hpull, ok_bind, hdata]
      by_cases hlong : datagram.length ≤ len
      · -- an end marker may be a header only
        have hend : headerDesc.type = gtpuMsgtypeEndMarker := by tauto
        rw [recvMessage, if_pos hend]
        exact iff_of_true (returns_ok _) fun h => absurd hlong h
      · have hheader : 8 ≤ (datagram.take len).length := by
          rw [List.length_take]
          omega
        rw [returns_recvMessage_iff (hdrop.mpr hlong) hheader, forall_prop_of_true hlong]

end Routing

end GtpuEnv

/-! ## A datagram of one octet -/

def n3GtpuEnv : GtpuEnv where
  toUplinkEnv := n3Env
  restartOver := true
  responseMemory := true
  farFTeidHash := fun _ => false

end Quicup.Open5gs
