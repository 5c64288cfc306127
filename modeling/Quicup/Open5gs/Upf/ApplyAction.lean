import Quicup.Open5gs.Pfcp.Handler
import Quicup.Open5gs.Upf.Downlink

/-!
# The apply action of a FAR

Over GTP-U a downlink packet is forwarded by `ogs_pfcp_up_handle_pdr`, as the FAR
says. Over QUIC the apply action of the FAR is not read. The two have the same
effect on exactly the packets that QUIC sends for a FAR that forwards, and that it
fails to send for a FAR that drops them or has a full buffer.
-/

namespace Quicup.Open5gs

open Fallible

/-- What happens to a downlink packet: whether it is transmitted, the FAR with its
buffer afterwards, and whether downlink data is to be reported. -/
structure DownlinkEffect where
  transmitted : Bool
  far : Far
  downlinkDataReport : Bool
  deriving DecidableEq

def PdrOutcome.effect (outcome : PdrOutcome) : DownlinkEffect where
  transmitted := outcome.sent.isSome
  far := outcome.far
  downlinkDataReport := outcome.downlinkDataReport

def TunDownlink.transmitted : TunDownlink → Bool
  | .quic _ _ _ _ (.datagramSend _ _) => true
  | _ => false

/-- The effect of `upf_n3_route_downlink`, which has no access to the buffer of the FAR
and reports nothing. -/
def Upf.routeEffect (upf : Upf) (accounted : List UrrAcc) (far : Far) (recvbuf : Pkbuf) :
    Except Fault DownlinkEffect := do
  let routed ← upf.n3RouteDownlink accounted far far.outerHeaderCreation.teid recvbuf
  return ⟨routed.any TunDownlink.transmitted, far, false⟩

/-- The effect of `ogs_pfcp_up_handle_pdr` on a packet from the TUN device. -/
def Pdr.handleEffect (pdr : Pdr) (recvbuf : Pkbuf) : Except Fault DownlinkEffect := do
  let outcome ← pdr.upHandle ogsGtpuMsgtypeGpdu 0 none recvbuf
  return outcome.effect

/-- Whether QUIC can send a packet: the gNB of the FAR is known and connected, msquic and
the pool are there, and the datagram takes the packet. -/
def Upf.reaches (upf : Upf) (far : Far) (recvbuf : Pkbuf) : Bool :=
  match far.gnbIp upf.inetNtop with
  | none => false
  | some gnbIp =>
    (upf.quicServer.quicClientHash.findEntry upf.quicServer.mem gnbIp.chars).isSome &&
      upf.msQuic && upf.sendBuffer &&
      decide (1 ≤ recvbuf.len % 65536 ∧ recvbuf.len % 65536 ≤ 2044)

/-- What a FAR asks for is what QUIC does without it: forwarding of a packet that QUIC can
send, and dropping, or keeping in a full buffer, of a packet that it cannot. A FAR without
a destination does not forward. -/
def Upf.FollowsAction (upf : Upf) (far : Far) (recvbuf : Pkbuf) : Prop :=
  if far.forw then upf.reaches far recvbuf = decide (far.dstIf ≠ ogsPfcpInterfaceUnknown)
  else upf.reaches far recvbuf = false ∧
    (far.buff → ogsMaxNumOfGtpuBuffer ≤ far.bufferedGtpu.length)

variable {upf : Upf} {sess : UpfSess} {pdr : Pdr} {far : Far} {recvbuf : Pkbuf}

/-! ## QUIC -/

theorem sent_iff_reaches (gnbIp : IpString) (hgnb : far.gnbIp upf.inetNtop = some gnbIp)
    {sent : QuicServer.Downlink}
    (hsent : upf.quicServer.sendDownlink upf.msQuic upf.sendBuffer gnbIp.chars
      far.outerHeaderCreation.teid (some recvbuf.data) (UInt16.ofNat recvbuf.len) = .ok sent) :
    (∃ conn datagram, sent = .datagramSend conn datagram) ↔ upf.reaches far recvbuf = true := by
  have hlen : (UInt16.ofNat recvbuf.len).toNat = recvbuf.len % 65536 := UInt16.toNat_ofNat'
  have hreaches : upf.reaches far recvbuf = true ↔
      ((∃ n, upf.quicServer.find gnbIp.chars = .ok (some n)) ∧ upf.msQuic = true ∧
        upf.sendBuffer = true) ∧ 1 ≤ recvbuf.len % 65536 ∧ recvbuf.len % 65536 ≤ 2044 := by
    rw [QuicServer.find_eq, Upf.reaches, hgnb]
    simp [Option.isSome_iff_exists, and_assoc]
  rw [hreaches]
  constructor
  · rintro ⟨conn, datagram, rfl⟩
    obtain ⟨⟨n, hfind, -⟩, hserver, hbuffer, hbounds, -⟩ :=
      QuicServer.sendDownlink_datagramSend.mp hsent
    exact ⟨⟨⟨n, hfind⟩, hserver, hbuffer⟩, hlen ▸ hbounds⟩
  · rintro ⟨⟨⟨n, hfind⟩, hserver, hbuffer⟩, hbounds⟩
    have hdatagram := QuicServer.sendDownlink_datagramSend.mpr
      ⟨⟨n, hfind, rfl⟩, hserver, hbuffer, hlen ▸ hbounds, hlen ▸ Nat.mod_le recvbuf.len _,
        (rfl : _ = octetsBE 4 far.outerHeaderCreation.teid.toNat ++
          recvbuf.data.take (UInt16.ofNat recvbuf.len).toNat)⟩
    exact ⟨_, _, Except.ok.inj (hsent.symm.trans hdatagram)⟩

theorem routeEffect_eq (hquic : upf.transportMode = .quic) (accounted : List UrrAcc) (far : Far)
    (recvbuf : Pkbuf) :
    upf.routeEffect accounted far recvbuf = .ok ⟨upf.reaches far recvbuf, far, false⟩ := by
  rw [Upf.routeEffect, Upf.n3RouteDownlink, hquic]
  dsimp only
  cases hgnb : far.gnbIp upf.inetNtop with
  | none =>
    rw [Upf.reaches, hgnb]
    rfl
  | some gnbIp =>
    obtain ⟨sent, hsent⟩ := upf.quicServer.exists_sendDownlink upf.msQuic upf.sendBuffer gnbIp
      far.outerHeaderCreation.teid recvbuf.data
    dsimp only
    have hsent' : upf.quicServer.sendDownlink upf.msQuic upf.sendBuffer gnbIp.chars
      far.outerHeaderCreation.teid (some recvbuf.data) (UInt16.ofNat recvbuf.len) = .ok sent := hsent
    rw [hsent']
    have hiff := sent_iff_reaches gnbIp hgnb hsent'
    cases sent with
    | datagramSend conn datagram =>
      rw [hiff.mp ⟨_, _, rfl⟩]
      rfl
    | _ =>
      have hnot : upf.reaches far recvbuf = false := by
        rw [← Bool.not_eq_true, ← hiff]
        rintro ⟨_, _, ⟨⟩⟩
      rw [hnot]
      rfl

/-! ## PFCP -/

/-- A rule that is selected for a downlink packet is one for downlink traffic. -/
theorem srcIf_of_selected (hselected : sess.downlinkPdr recvbuf = .ok (some pdr)) :
    pdr.srcIf = ogsPfcpInterfaceCore := by
  obtain ⟨found, hfound, h⟩ := bind_eq_ok.mp hselected
  cases found with
  | some taken =>
    obtain rfl : taken = pdr := Option.some.inj (Except.ok.inj h)
    obtain ⟨_, _, -, -, htakes⟩ := findM?_eq_some_iff.mp hfound
    by_contra hcore
    rw [Pdr.takesDownlink] at htakes
    split at htakes
    · cases htakes
    · rw [if_pos hcore] at htakes
      cases htakes
  | none =>
    have hlast : sess.lastDownlinkPdr = some pdr := Except.ok.inj h
    have hmem := List.mem_of_getLast? hlast
    exact of_decide_eq_true (List.mem_filter.mp hmem).2

/-- A downlink packet without a header gets one. -/
theorem exists_encapsulate (hcore : pdr.srcIf = ogsPfcpInterfaceCore) (far : Far)
    (recvbuf : Pkbuf) : ∃ sendbuf, pdr.encapsulate far ogsGtpuMsgtypeGpdu 0 none recvbuf =
      .ok sendbuf := by
  have hqfi : ∃ qfi, pdr.sendQfi far none = .ok qfi := by
    have haccess : ¬(pdr.srcIf = ogsPfcpInterfaceAccess ∧ far.dstIf = ogsPfcpInterfaceAccess) := by
      rw [hcore]
      exact fun h => absurd h.1 (by decide)
    rw [Pdr.sendQfi]
    split
    · exact ⟨0, by rw [if_neg haccess]⟩
    · exact ⟨0, by rw [if_neg haccess]⟩
    · exact ⟨_, rfl⟩
  obtain ⟨qfi, hqfi⟩ := hqfi
  rw [Pdr.encapsulate, Pdr.sendhdr, hqfi]
  split
  · exact ⟨_, rfl⟩
  · exact ⟨_, rfl⟩

theorem handleEffect_eq (hcore : pdr.srcIf = ogsPfcpInterfaceCore) (hfar : pdr.far = some far)
    (hnode : far.gnode = some ⟨true⟩) (recvbuf : Pkbuf) : ∃ sendbuf, pdr.handleEffect recvbuf =
      .ok (if far.forw then ⟨decide (far.dstIf ≠ ogsPfcpInterfaceUnknown), far, false⟩
        else if far.buff then (far.buffering sendbuf).effect else ⟨false, far, false⟩) := by
  obtain ⟨sendbuf, hsendbuf⟩ := exists_encapsulate hcore far recvbuf
  refine ⟨sendbuf, ?_⟩
  have htype : ogsGtpuMsgtypeGpdu ≠ 0 := by decide
  rw [Pdr.handleEffect, Pdr.upHandle, if_neg htype, hfar]
  simp only [hsendbuf, ok_bind, hnode, reduceCtorEq, if_false]
  by_cases hforw : far.forw = true
  · simp only [hforw, if_true, PdrOutcome.effect, Far.sendGtpu, hnode]
    by_cases hdst : far.dstIf = ogsPfcpInterfaceUnknown
    · simp [hdst]
      rfl
    · simp [hdst]
      rfl
  · simp only [hforw]
    by_cases hbuff : far.buff = true
    · simp only [hbuff, if_true]
      rfl
    · simp only [hbuff]
      rfl

/-- Keeping a packet has no effect when the buffer is full, and only then. -/
theorem buffering_effect_iff (sendbuf : Gpdu) :
    (⟨false, far, false⟩ : DownlinkEffect) = (far.buffering sendbuf).effect ↔
      ogsMaxNumOfGtpuBuffer ≤ far.bufferedGtpu.length := by
  rw [PdrOutcome.effect, Far.buffering]
  by_cases hroom : far.bufferedGtpu.length < ogsMaxNumOfGtpuBuffer
  · simp only [if_pos hroom]
    refine ⟨fun h => ?_, fun h => absurd hroom (Nat.not_lt.mpr h)⟩
    have hlength := congrArg (fun effect => effect.far.bufferedGtpu.length) h
    simp at hlength
  · simp only [if_neg hroom]
    refine ⟨fun _ => Nat.not_lt.mp hroom, fun h => ?_⟩
    have hempty : far.bufferedGtpu.isEmpty = false := by
      cases hbuffer : far.bufferedGtpu with
      | nil =>
        rw [hbuffer] at h
        exact absurd h (by decide)
      | cons => rfl
    rw [hempty]
    rfl

/-- The FAR of the connected gNB 10.0.0.2, with its GTP node. -/
def actionFar (applyAction : UInt16) : Far :=
  { accessFar 2 2 with
    applyAction
    gnode := some ⟨true⟩ }

def actionPdr (applyAction : UInt16) : Pdr :=
  { id    := 1
    srcIf := ogsPfcpInterfaceCore
    far   := some (actionFar applyAction) }

end Quicup.Open5gs
