import Quicup.Open5gs.Upf.GtpPath

/-!
# The FAR of a downlink packet

The loop over the detection rules of a session keeps the rule it is at, the last rule
for downlink traffic, and the FAR of the rule it was at. A packet that no rule takes
is left with the last of the downlink rules and with the last of the FARs.
-/

namespace Quicup.Open5gs

open Pkbuf Fallible

/-! ## The loop -/

/-- All the tests of the loop on a detection rule. -/
def Pdr.takesDownlink (recvbuf : Pkbuf) (pdr : Pdr) : Except Fault Bool :=
  match pdr.far with
  | none => .error .assertion
  | some far =>
    if pdr.srcIf ≠ ogsPfcpInterfaceCore then .ok false
    else if far.dstIf ≠ ogsPfcpInterfaceAccess ∨ !far.outerHeaderCreation.isSet then .ok false
    else pdr.rulesAdmit recvbuf

/-- A detection rule for downlink traffic. -/
def Pdr.asDownlink : Pdr → Option Pdr := Option.guard fun pdr => pdr.srcIf = ogsPfcpInterfaceCore

theorem asDownlink_of_core {pdr : Pdr} (h : pdr.srcIf = ogsPfcpInterfaceCore) :
    pdr.asDownlink = some pdr := if_pos (decide_eq_true h)

theorem asDownlink_of_not_core {pdr : Pdr} (h : pdr.srcIf ≠ ogsPfcpInterfaceCore) :
    pdr.asDownlink = none := if_neg (by simpa using h)

/-- The loop leaves at the first detection rule that takes the packet. Otherwise its
variables hold what was written last. -/
theorem tunLoop_eq (recvbuf : Pkbuf) (pdrList : List Pdr) (v : TunLoop) :
    tunLoop recvbuf pdrList v =
      match pdrList.findM? (Pdr.takesDownlink recvbuf) with
      | .error fault => .error fault
      | .ok (some pdr) => .ok (some pdr, ⟨pdr.far, some pdr⟩)
      | .ok none => .ok (none, ⟨lastWrite Pdr.far pdrList v.far,
          lastWrite Pdr.asDownlink pdrList v.fallbackPdr⟩) := by
  induction pdrList generalizing v with
  | nil => rfl
  | cons pdr pdrList ih =>
    rw [tunLoop, findM?_cons, Pdr.takesDownlink, lastWrite_cons, lastWrite_cons]
    cases hfar : pdr.far with
    | none => rfl
    | some far =>
      dsimp only
      by_cases hcore : pdr.srcIf = ogsPfcpInterfaceCore
      · rw [if_neg (not_not.mpr hcore), if_neg (not_not.mpr hcore), asDownlink_of_core hcore]
        by_cases hdst : far.dstIf ≠ ogsPfcpInterfaceAccess ∨ !far.outerHeaderCreation.isSet
        · rw [if_pos hdst, if_pos hdst]
          exact ih _
        rw [if_neg hdst, if_neg hdst]
        rcases pdr.rulesAdmit recvbuf with fault | (_ | _)
        · rfl
        · exact ih _
        · exact hfar ▸ rfl
      · rw [if_pos hcore, if_pos hcore, asDownlink_of_not_core hcore]
        exact ih _

/-! ## The detection rule and the FAR of a packet -/

/-- The last detection rule for downlink traffic. -/
def UpfSess.lastDownlinkPdr (sess : UpfSess) : Option Pdr :=
  (sess.pdrList.filter fun pdr => pdr.srcIf = ogsPfcpInterfaceCore).getLast?

/-- The FAR of the last detection rule of all. -/
def UpfSess.lastFar (sess : UpfSess) : Option Far := sess.pdrList.getLast?.bind Pdr.far

/-- The detection rule of a packet is the first that takes it, or else the last for
downlink traffic. -/
def UpfSess.downlinkPdr (sess : UpfSess) (recvbuf : Pkbuf) : Except Fault (Option Pdr) := do
  match ← sess.pdrList.findM? (Pdr.takesDownlink recvbuf) with
  | some pdr => return some pdr
  | none => return sess.lastDownlinkPdr

/-- A packet that no detection rule takes, though each could be tried. -/
def UpfSess.Untaken (sess : UpfSess) (recvbuf : Pkbuf) : Prop :=
  ∀ pdr ∈ sess.pdrList, pdr.takesDownlink recvbuf = .ok false

variable {sess : UpfSess} {recvbuf : Pkbuf} {pdr : Pdr}

theorem far_ne_none {b : Bool} (h : pdr.takesDownlink recvbuf = .ok b) : pdr.far ≠ none := by
  intro hfar
  rw [Pdr.takesDownlink, hfar] at h
  exact nomatch h

theorem lastWrite_asDownlink :
    lastWrite Pdr.asDownlink sess.pdrList none = sess.lastDownlinkPdr := by
  rw [lastWrite, Pdr.asDownlink, List.filterMap_eq_filter, Option.or_none, UpfSess.lastDownlinkPdr]

theorem lastWrite_far (h : sess.Untaken recvbuf) :
    lastWrite Pdr.far sess.pdrList none = sess.lastFar :=
  lastWrite_eq_getLast? fun pdr hpdr => far_ne_none (h pdr hpdr)

theorem tunLoop_of_untaken (h : sess.Untaken recvbuf) :
    tunLoop recvbuf sess.pdrList {} = .ok (none, ⟨sess.lastFar, sess.lastDownlinkPdr⟩) := by
  rw [tunLoop_eq, findM?_eq_none_iff.mpr h]
  dsimp only
  rw [lastWrite_far h, lastWrite_asDownlink]

/-- What the loop leaves for a packet that it does not fault at. -/
theorem tunLoop_cases {found : Option Pdr} {v : TunLoop}
    (h : tunLoop recvbuf sess.pdrList {} = .ok (found, v)) :
    (∃ pdr, sess.downlinkPdr recvbuf = .ok (some pdr) ∧ found = some pdr ∧ v.far = pdr.far) ∨
      (sess.Untaken recvbuf ∧ found = none ∧ v = ⟨sess.lastFar, sess.lastDownlinkPdr⟩) := by
  cases hfound : sess.pdrList.findM? (Pdr.takesDownlink recvbuf) with
  | error fault =>
    rw [tunLoop_eq, hfound] at h
    exact nomatch h
  | ok taken =>
    cases taken with
    | some pdr =>
      rw [tunLoop_eq, hfound] at h
      obtain ⟨rfl, rfl⟩ := Prod.mk.inj (Except.ok.inj h)
      refine .inl ⟨pdr, ?_, rfl, rfl⟩
      rw [UpfSess.downlinkPdr, hfound]
      rfl
    | none =>
      have huntaken : sess.Untaken recvbuf := findM?_eq_none_iff.mp hfound
      rw [tunLoop_of_untaken huntaken] at h
      obtain ⟨rfl, rfl⟩ := Prod.mk.inj (Except.ok.inj h)
      exact .inr ⟨huntaken, rfl, rfl⟩

theorem downlinkPdr_of_untaken (h : sess.Untaken recvbuf) :
    sess.downlinkPdr recvbuf = .ok sess.lastDownlinkPdr := by
  rw [UpfSess.downlinkPdr, findM?_eq_none_iff.mpr h]
  rfl

/-! ## Sending -/

/-- The accounting of a packet that is routed over QUIC, the FAR it is routed with, and
the gNB and TEID it is sent to. -/
def TunDownlink.routing : TunDownlink → Option (List UrrAcc × Far × Option (IpString × UInt32))
  | .quic accounted far gnbIp teid _ => some (accounted, far, some (gnbIp, teid))
  | .noAddress accounted far => some (accounted, far, none)
  | _ => none

variable {upf : Upf}

/-- The gNB and the TEID of the outer header that a FAR creates. -/
def Far.tunnel (inetNtop : AddressFamily → List UInt8 → IpString) (far : Far) :
    Option (IpString × UInt32) :=
  (far.gnbIp inetNtop).map fun gnbIp => (gnbIp, far.outerHeaderCreation.teid)

theorem n3RouteDownlink_quic (hquic : upf.transportMode = .quic) (recvbuf : Pkbuf)
    (accounted : List UrrAcc) (far : Far) :
    ∃ routed, upf.n3RouteDownlink accounted far far.outerHeaderCreation.teid recvbuf =
        .ok (some routed) ∧
      routed.routing = some (accounted, far, far.tunnel upf.inetNtop) := by
  rw [Upf.n3RouteDownlink, hquic, Far.tunnel]
  cases far.gnbIp upf.inetNtop with
  | none => exact ⟨_, rfl, rfl⟩
  | some gnbIp =>
    obtain ⟨sent, hsent⟩ := upf.quicServer.exists_sendDownlink upf.msQuic upf.sendBuffer gnbIp
      far.outerHeaderCreation.teid recvbuf.data
    exact ⟨.quic accounted far gnbIp far.outerHeaderCreation.teid sent,
      bind_eq_ok.mpr ⟨sent, hsent, rfl⟩, rfl⟩

/-- A packet is routed with the detection rule and the FAR that the loop leaves. -/
theorem tunRecv_routing_iff (hquic : upf.transportMode = .quic)
    (hsess : upf.findByUeIpAddress recvbuf = .ok (some sess)) {accounted : List UrrAcc} {far : Far}
    {tunnel : Option (IpString × UInt32)} :
    (∃ outcome, upf.tunRecv recvbuf = .ok outcome ∧
        outcome.routing = some (accounted, far, tunnel)) ↔
      ∃ found v pdr, tunLoop recvbuf sess.pdrList {} = .ok (found, v) ∧
        found.or v.fallbackPdr = some pdr ∧ v.far = some far ∧
        pdr.account recvbuf.len false = .ok accounted ∧ tunnel = far.tunnel upf.inetNtop := by
  constructor
  · rintro ⟨outcome, h, hrouting⟩
    obtain ⟨sess', hsess', h⟩ := bind_eq_ok.mp h
    obtain rfl : some sess = sess' := Except.ok.inj (hsess.symm.trans hsess')
    obtain ⟨⟨found, v⟩, hloop, h⟩ := bind_eq_ok.mp h
    dsimp only at h
    split at h
    · rw [← Except.ok.inj h] at hrouting
      split at hrouting
      · exact nomatch hrouting
      · exact nomatch hrouting
    · rename_i pdr hpdr
      obtain ⟨accounted', haccounted, h⟩ := bind_eq_ok.mp h
      split at h
      · exact nomatch h
      rename_i far' hfar
      obtain ⟨routed, hrouted, hrouting'⟩ := n3RouteDownlink_quic hquic recvbuf accounted' far'
      rw [hrouted] at h
      cases h
      cases hrouting.symm.trans hrouting'
      exact ⟨found, v, pdr, hloop, hpdr, hfar, haccounted, rfl⟩
  · rintro ⟨found, v, pdr, hloop, hpdr, hfar, haccounted, rfl⟩
    obtain ⟨routed, hrouted, hrouting⟩ := n3RouteDownlink_quic hquic recvbuf accounted far
    refine ⟨routed, ?_, hrouting⟩
    refine bind_eq_ok.mpr ⟨some sess, hsess, bind_eq_ok.mpr ⟨(found, v), hloop, ?_⟩⟩
    simp only [hpdr, hfar]
    exact bind_eq_ok.mpr ⟨accounted, haccounted, bind_eq_ok.mpr ⟨some routed, hrouted, rfl⟩⟩

theorem routing_eq_none_of_gtpu {outcome : TunDownlink} (hgtpu : upf.transportMode = .gtpu)
    (h : upf.tunRecv recvbuf = .ok outcome) : outcome.routing = none := by
  obtain ⟨_ | sess, _, h⟩ := bind_eq_ok.mp h
  · cases h
    rfl
  obtain ⟨⟨found, v⟩, _, h⟩ := bind_eq_ok.mp h
  dsimp only at h
  split at h
  · rw [← Except.ok.inj h]
    split
    · rfl
    · rfl
  obtain ⟨accounted, _, h⟩ := bind_eq_ok.mp h
  split at h
  · exact nomatch h
  rename_i far _
  have hnone : upf.n3RouteDownlink accounted far far.outerHeaderCreation.teid recvbuf =
      .ok none := by rw [Upf.n3RouteDownlink, hgtpu]
  rw [hnone] at h
  cases h
  rfl

theorem exists_lastFar (huntaken : sess.Untaken recvbuf) (hpdr : sess.lastDownlinkPdr = some pdr) :
    ∃ far, sess.lastFar = some far := by
  rw [UpfSess.lastFar]
  cases hlast : sess.pdrList.getLast? with
  | none =>
    rw [UpfSess.lastDownlinkPdr, List.getLast?_eq_none_iff.mp hlast] at hpdr
    exact nomatch hpdr
  | some last =>
    exact Option.ne_none_iff_exists'.mp (far_ne_none (huntaken last (List.mem_of_getLast? hlast)))

/-! ## The rule that is charged and the FAR that is used -/

/-- A packet that leaves over QUIC is accounted to the URRs of its detection rule, and it
goes to the gNB and the TEID of the FAR of that rule. -/
def RoutedByPdr (upf : Upf) (recvbuf : Pkbuf) : Prop :=
  ∀ sess outcome accounted far tunnel, upf.findByUeIpAddress recvbuf = .ok (some sess) →
    upf.tunRecv recvbuf = .ok outcome → outcome.routing = some (accounted, far, tunnel) →
    ∃ pdr, sess.downlinkPdr recvbuf = .ok (some pdr) ∧ pdr.far = some far ∧
      pdr.account recvbuf.len false = .ok accounted ∧ tunnel = far.tunnel upf.inetNtop

/-- For a packet that no detection rule takes, the last rule of the session has the FAR
of the last rule for downlink traffic. -/
def FallbackFar (upf : Upf) (recvbuf : Pkbuf) : Prop :=
  upf.transportMode = .quic → ∀ sess, upf.findByUeIpAddress recvbuf = .ok (some sess) →
    sess.Untaken recvbuf → ∀ pdr accounted, sess.lastDownlinkPdr = some pdr →
      pdr.account recvbuf.len false = .ok accounted → sess.lastFar = pdr.far

/-- A detection rule and the FAR that is used belong together if and only if they do
where a packet falls back on the last downlink rule. -/
theorem routedByPdr_iff : RoutedByPdr upf recvbuf ↔ FallbackFar upf recvbuf := by
  constructor
  · intro hrouted hquic sess hsess huntaken pdr accounted hpdr haccounted
    obtain ⟨far, hfar⟩ := exists_lastFar huntaken hpdr
    obtain ⟨outcome, houtcome, hrouting⟩ := (tunRecv_routing_iff hquic hsess).mpr
      ⟨none, _, pdr, tunLoop_of_untaken huntaken, hpdr, hfar, haccounted, rfl⟩
    obtain ⟨pdr', hpdr', hfar', -⟩ := hrouted sess outcome _ _ _ hsess houtcome hrouting
    rw [downlinkPdr_of_untaken huntaken, hpdr] at hpdr'
    obtain rfl : pdr = pdr' := Option.some.inj (Except.ok.inj hpdr')
    rw [hfar, hfar']
  · intro hfallback sess outcome accounted far tunnel hsess houtcome hrouting
    cases hmode : upf.transportMode with
    | gtpu =>
      rw [routing_eq_none_of_gtpu hmode houtcome] at hrouting
      exact nomatch hrouting
    | quic =>
      obtain ⟨found, v, pdr, hloop, hpdr, hfar, haccounted, htunnel⟩ :=
        (tunRecv_routing_iff hmode hsess).mp ⟨outcome, houtcome, hrouting⟩
      rcases tunLoop_cases hloop with ⟨taken, htaken, rfl, hv⟩ | ⟨huntaken, rfl, rfl⟩
      · obtain rfl : taken = pdr := Option.some.inj hpdr
        exact ⟨taken, htaken, hv ▸ hfar, haccounted, htunnel⟩
      · refine ⟨pdr, ?_, ?_, haccounted, htunnel⟩
        · rw [downlinkPdr_of_untaken huntaken]
          exact congrArg Except.ok hpdr
        · rw [← hfallback hmode sess hsess huntaken pdr accounted hpdr haccounted]
          exact hfar

/-! ## A session under handover -/

/-- The FAR of a tunnel to the gNB 10.0.0.`host` under a TEID. -/
def accessFar (host : UInt8) (teid : UInt32) : Far :=
  { id                  := teid
    dstIf               := ogsPfcpInterfaceAccess
    outerHeaderCreation :=
      { gtpu4   := true
        teid
        address := #v[10, 0, 0, host, 0, 0, 0, 0, 0, 0, 0, 0, 0, 0, 0, 0, 0, 0, 0, 0] } }

/-- TCP from anywhere to anywhere. -/
def tcpRule : PfcpRule :=
  { ipfw :=
      { proto   := ipprotoTcp
        ipSrc   := ⟨#v[0, 0, 0, 0], #v[0, 0, 0, 0]⟩
        ipDst   := ⟨#v[0, 0, 0, 0], #v[0, 0, 0, 0]⟩
        portSrc := ⟨0, 0⟩
        portDst := ⟨0, 0⟩ } }

def tcpPdr : Pdr :=
  { id       := 1
    srcIf    := ogsPfcpInterfaceCore
    far      := some (accessFar 1 1)
    ruleList := [tcpRule] }

/-- Indirect forwarding of downlink traffic of a handover. -/
def forwardingPdr : Pdr :=
  { id    := 2
    srcIf := ogsPfcpInterfaceAccess
    far   := some (accessFar 2 2) }

/-- The text of the address 10.0.0.1 or 10.0.0.2. -/
def accessText (address : List UInt8) : IpString :=
  if address = [10, 0, 0, 1] then ⟨[49, 48, 46, 48, 46, 48, 46, 49], by decide, by simp, by decide⟩
  else ⟨[49, 48, 46, 48, 46, 48, 46, 50], by decide, by simp, by decide⟩

def handoverSess : UpfSess := { pdrList := [tcpPdr, forwardingPdr] }

/-- A server that the gNB 10.0.0.2 is connected to. -/
def handoverServer : QuicServer :=
  let server : QuicServer :=
    { node           := fun _ => ⟨0, []⟩
      quicClientHash := .make 0 }
  match server.onConnected 7 (accessText [10, 0, 0, 2]) with
  | .ok server => server
  | .error _ => server

def handoverUpf : Upf :=
  { transportMode     := .quic
    multicast         := false
    findByUeIpAddress := fun _ => .ok (some handoverSess)
    inetNtop          := fun _ => accessText
    quicServer        := handoverServer
    msQuic            := true
    sendBuffer        := true }

/-- A UDP datagram of four octets to the UE. -/
def udpPacket : Pkbuf :=
  .ofData [0x45, 0, 0, 32, 0, 0, 0, 0, 64, 17, 0, 0, 8, 8, 8, 8, 10, 45, 0, 2,
    0, 53, 0x30, 0x39, 0, 12, 0, 0, 1, 2, 3, 4]

/-- The packet falls back on the rule for TCP, and it is sent into the tunnel of the
handover. -/
theorem routedByPdr_handover : ¬RoutedByPdr handoverUpf udpPacket := by
  intro hrouted
  have houtcome : handoverUpf.tunRecv udpPacket =
    .ok (.quic [] (accessFar 2 2) (accessText [10, 0, 0, 2]) 2
      (.datagramSend 7 ([0, 0, 0, 2] ++ udpPacket.data))) := rfl
  obtain ⟨pdr, hpdr, hfar, -⟩ := hrouted handoverSess _ _ _ _ rfl houtcome rfl
  obtain rfl : tcpPdr = pdr := Option.some.inj (Except.ok.inj hpdr)
  exact absurd hfar (by decide)

end Quicup.Open5gs
