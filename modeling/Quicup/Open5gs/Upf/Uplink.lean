import Quicup.Open5gs.Upf.GtpPath

/-!
# The two uplink paths

A packet of a PDU session reaches its TUN device from QUIC and from GTP-U. Both paths
select the same detection rule for a packet, and they look up the same device. The
GTP-U path then asks for more than the QUIC path does.
-/

namespace Quicup.Open5gs

open Pkbuf Fallible

/-! ## Selection -/

theorem stable_takesUplink (teid : UInt32) (pdr : Pdr) :
    Stable fun pkbuf => pdr.takesUplink teid pkbuf :=
  stable_ite (stable_const _) (stable_rulesAdmit pdr)

variable {sess : UpfSess} {pdr : Pdr} {pkbuf : Pkbuf} {dev : PfcpDev} {ethType : UInt16}
  {qfi : UInt8} {subnet : PfcpSubnet} {far : Far}

/-- The detection rule that the QUIC path selects, which takes a QFI, is the one that
the GTP-U path selects for it. -/
theorem findM?_takesGpdu {teid : UInt32} {data room : List UInt8}
    (hqfi : pdr.qfi = 0 ∨ pdr.qfi = qfi)
    (h : sess.pdrList.findM? (Pdr.takesUplink teid (ofData data)) = .ok (some pdr)) :
    sess.pdrList.findM? (Pdr.takesGpdu teid qfi ⟨data, room⟩) = .ok (some pdr) := by
  obtain ⟨before, after, hlist, hbefore, hpdr⟩ := findM?_eq_some_iff.mp h
  refine findM?_eq_some_iff.mpr ⟨before, after, hlist, fun p hp => ?_, ?_⟩
  · have hfalse : p.takesUplink teid ⟨data, room⟩ = .ok false :=
      stable_takesUplink teid p data room false (hbefore p hp)
    rw [Pdr.takesGpdu]
    rw [Pdr.takesUplink] at hfalse
    by_cases hteid : teid ≠ p.teid
    · rw [if_pos hteid]
    rw [if_neg hteid] at hfalse ⊢
    by_cases hp : p.qfi ≠ 0 ∧ p.qfi ≠ qfi
    · rw [if_pos hp]
    · rw [if_neg hp]
      exact hfalse
  · have htrue : pdr.takesUplink teid ⟨data, room⟩ = .ok true :=
      stable_takesUplink teid pdr data room true hpdr
    have haccepted : ¬(pdr.qfi ≠ 0 ∧ pdr.qfi ≠ qfi) := by tauto
    rw [Pdr.takesGpdu, if_neg haccepted]
    exact htrue

/-! ## Forwarding -/

theorem stable_uplinkSubnet (sess : UpfSess) : Stable sess.uplinkSubnet := by
  refine stable_bind stable_ipV fun version => ?_
  split
  · exact stable_const _
  · exact stable_const _
  · exact stable_const _

/-- What leads a packet that is handed to a detection rule to a device. -/
structure LeadsToDevice (sess : UpfSess) (pdr : Pdr) (pkbuf : Pkbuf) (far : Far)
    (dev : PfcpDev) : Prop where
  forwards : pdr.far = some far
  core : far.dstIf = ogsPfcpInterfaceCore
  device : ∃ subnet, sess.uplinkSubnet pkbuf = .ok (some subnet) ∧ subnet.dev = some dev
  accounted : ∃ accounted, pdr.account pkbuf.len true = .ok accounted

theorem routeUplink_tunWrite_iff :
    (∃ accounted frame, sess.routeUplink pdr pkbuf = .ok (.tunWrite accounted dev frame)) ↔
      ∃ far, LeadsToDevice sess pdr pkbuf far dev := by
  constructor
  · rintro ⟨accounted, frame, h⟩
    rw [UpfSess.routeUplink] at h
    split at h
    · exact nomatch h
    rename_i far hfar
    split at h
    · rename_i hcore
      obtain ⟨subnet, hsubnet, h⟩ := bind_eq_ok.mp h
      split at h
      · exact nomatch h
      rename_i subnet
      split at h
      · exact nomatch h
      rename_i dev' hdev
      obtain ⟨accounted', haccounted, h⟩ := bind_eq_ok.mp h
      cases h
      exact ⟨far, hfar, hcore, ⟨subnet, hsubnet, hdev⟩, accounted, haccounted⟩
    · exact nomatch h
  · rintro ⟨far, hfar, hcore, ⟨subnet, hsubnet, hdev⟩, accounted, haccounted⟩
    refine ⟨accounted, pkbuf.data, ?_⟩
    simp only [UpfSess.routeUplink, hfar, if_pos hcore]
    refine bind_eq_ok.mpr ⟨some subnet, hsubnet, ?_⟩
    simp only [hdev]
    exact bind_eq_ok.mpr ⟨accounted, haccounted, rfl⟩

/-! ## Source addresses -/

/-- The source address of a packet is one that the UE may use. -/
def UpfSess.sourceAdmitted (sess : UpfSess) (pkbuf : Pkbuf) : Except Fault Bool := do
  match ← ipV pkbuf, sess.ipv4, sess.ipv6 with
  | 4, some ue, _ => sess.sourceIpv4 ue pkbuf
  | 6, _, some ue => sess.sourceIpv6 ue pkbuf
  | _, _, _ => return false

/-- What the GTP-U path asks beyond what leads a packet to a device. -/
structure GtpuAdmits (sess : UpfSess) (pdr : Pdr) (far : Far) (pkbuf : Pkbuf) : Prop where
  fromAccess : pdr.fromAccess = true
  n6 : far.dstIfType = some ogsPfcp3gppInterfaceTypeN6
  source : sess.sourceAdmitted pkbuf = .ok true

/-- The Ethernet type of a packet that passes the check. -/
def ethertype (pkbuf : Pkbuf) : UInt16 :=
  if ipV pkbuf matches .ok 4 then ethertypeIp else ethertypeIpv6

theorem ethertype_ne_zero (pkbuf : Pkbuf) : ethertype pkbuf ≠ 0 := by
  rw [ethertype]
  split
  · decide
  · decide

private theorem admitted_subnet_iff {admitted : Except Fault Bool} {ueSubnet : Option PfcpSubnet}
    {type : UInt16} :
    (do if ← admitted then return some (ueSubnet, type) else return none : Except Fault _) =
        .ok (some (some subnet, ethType)) ↔
      admitted = .ok true ∧ ueSubnet = some subnet ∧ type = ethType := by
  rcases admitted with fault | (_ | _)
  · exact ⟨fun h => (nomatch h), fun h => (nomatch h.1)⟩
  · exact ⟨fun h => (nomatch h), fun h => (nomatch h.1)⟩
  · constructor
    · intro h
      obtain ⟨hsubnet, htype⟩ := Prod.mk.inj (Option.some.inj (Except.ok.inj h))
      exact ⟨rfl, hsubnet, htype⟩
    · rintro ⟨-, rfl, rfl⟩
      rfl

/-- The check of a packet yields a subnet for N6 just when it is made and passed. -/
theorem checkSource_subnet_iff (hn6 : far.dstIfType = some ogsPfcp3gppInterfaceTypeN6) :
    sess.checkSource pdr far pkbuf = .ok (some (some subnet, ethType)) ↔
      pdr.fromAccess = true ∧ sess.sourceAdmitted pkbuf = .ok true ∧
        sess.uplinkSubnet pkbuf = .ok (some subnet) ∧
        ethertype pkbuf = ethType := by
  have hn9 : far.dstIfType ≠ some ogsPfcp3gppInterfaceTypeN9ForRoaming := by
    rw [hn6]
    decide
  rw [UpfSess.checkSource, UpfSess.sourceAdmitted, UpfSess.uplinkSubnet, ethertype]
  by_cases haccess : pdr.fromAccess = true
  · simp only [haccess, if_true, if_neg hn9, true_and]
    have hok (s : Option PfcpSubnet) : (pure s : Except Fault _) = .ok (some subnet) ↔
        s = some subnet := ⟨Except.ok.inj, congrArg Except.ok⟩
    cases hversion : ipV pkbuf with
    | error fault =>
      constructor
      · rintro ⟨⟩
      · rintro ⟨⟨⟩, -⟩
    | ok version =>
      simp only [ok_bind]
      split
      · rename_i ue hipv4
        simp only [hipv4, hok]
        exact admitted_subnet_iff
      · rename_i ue hnot4 hipv6
        simp only [hipv6, hok]
        exact admitted_subnet_iff
      · constructor
        · rintro ⟨⟩
        · rintro ⟨-, ⟨⟩, -⟩
  · rw [if_neg haccess]
    constructor
    · rintro ⟨⟩
    · exact fun h => absurd h.1 haccess

theorem frame_eq_ok (dev : PfcpDev) (htype : ethType ≠ 0) (data : List UInt8) :
    ∃ frame, dev.frame ethType data = .ok frame := by
  rw [PfcpDev.frame, if_neg htype]
  split
  · exact ⟨_, rfl⟩
  · exact ⟨data, rfl⟩

/-- The GTP-U path writes what is led to a device and admitted beyond that. -/
theorem routeGpdu_tunWrite_iff :
    (∃ accounted frame, sess.routeGpdu pdr pkbuf = .ok (.tunWrite accounted dev frame)) ↔
      ∃ far, LeadsToDevice sess pdr pkbuf far dev ∧ GtpuAdmits sess pdr far pkbuf := by
  constructor
  · rintro ⟨accounted, frame, h⟩
    rw [UpfSess.routeGpdu] at h
    split at h
    · exact nomatch h
    rename_i far hfar
    obtain ⟨checked, hchecked, h⟩ := bind_eq_ok.mp h
    split at h
    · exact nomatch h
    rename_i subnet ethType
    split at h
    · rename_i hn6
      obtain ⟨hcore, hn6⟩ := hn6
      split at h
      · exact nomatch h
      rename_i subnet
      split at h
      · exact nomatch h
      rename_i dev' hdev
      obtain ⟨accounted', haccounted, h⟩ := bind_eq_ok.mp h
      obtain ⟨frame', hframe, h⟩ := bind_eq_ok.mp h
      cases h
      obtain ⟨haccess, hsource, hsubnet, -⟩ := (checkSource_subnet_iff hn6).mp hchecked
      exact ⟨far, ⟨hfar, hcore, ⟨subnet, hsubnet, hdev⟩, accounted, haccounted⟩,
        haccess, hn6, hsource⟩
    · exact nomatch h
  · rintro ⟨far, ⟨hfar, hcore, ⟨subnet, hsubnet, hdev⟩, accounted, haccounted⟩, haccess, hn6, hsource⟩
    have hchecked := (checkSource_subnet_iff hn6).mpr ⟨haccess, hsource, hsubnet, rfl⟩
    obtain ⟨frame, hframe⟩ := frame_eq_ok dev (ethertype_ne_zero pkbuf) pkbuf.data
    refine ⟨accounted, frame, ?_⟩
    simp only [UpfSess.routeGpdu, hfar]
    refine bind_eq_ok.mpr ⟨_, hchecked, ?_⟩
    simp only [if_pos (And.intro hcore hn6), hdev]
    exact bind_eq_ok.mpr ⟨accounted, haccounted, bind_eq_ok.mpr ⟨frame, hframe, rfl⟩⟩

/-! ## The QUIC path against the GTP-U path -/

variable (findByTeid : UInt32 → Option PfcpObject) (teid : UInt32) (data room : List UInt8)

/-- What the QUIC path writes to a device, the GTP-U path writes to that device too. The
G-PDU has a QFI that the selected detection rule takes, and `room` is what stands in its
buffer behind the packet. -/
def UplinkRefines : Prop :=
  ∀ accounted dev frame,
    upfN3RouteUplink findByTeid teid (ofData data) = .ok (.tunWrite accounted dev frame) →
    ∀ sess pdr, findByTeid teid = some (.sess sess) →
      sess.pdrList.findM? (Pdr.takesUplink teid (ofData data)) = .ok (some pdr) →
    ∀ qfi, pdr.qfi = 0 ∨ pdr.qfi = qfi → ∀ restartOver, ∃ accounted' frame',
      gtpv1URecvGpdu findByTeid restartOver teid qfi ⟨data, room⟩ =
        .ok (.tunWrite accounted' dev frame')

/-- A detection rule that leads a packet to a device is for N3 or roaming traffic towards
N6, and the packet has a source address of the UE. -/
def UplinkGuarded : Prop :=
  ∀ sess pdr far dev, findByTeid teid = some (.sess sess) →
    sess.pdrList.findM? (Pdr.takesUplink teid (ofData data)) = .ok (some pdr) →
    LeadsToDevice sess pdr (ofData data) far dev → GtpuAdmits sess pdr far ⟨data, room⟩

variable {findByTeid teid data room}

theorem LeadsToDevice.of_ofData (h : LeadsToDevice sess pdr (ofData data) far dev) :
    LeadsToDevice sess pdr ⟨data, room⟩ far dev := by
  obtain ⟨subnet, hsubnet, hdev⟩ := h.device
  have hroom : sess.uplinkSubnet ⟨data, room⟩ = .ok (some subnet) :=
    stable_uplinkSubnet sess data room _ hsubnet
  exact ⟨h.forwards, h.core, ⟨subnet, hroom, hdev⟩, h.accounted⟩

theorem upfN3RouteUplink_eq (hsess : findByTeid teid = some (.sess sess))
    (hpdr : sess.pdrList.findM? (Pdr.takesUplink teid (ofData data)) = .ok (some pdr)) :
    upfN3RouteUplink findByTeid teid (ofData data) = sess.routeUplink pdr (ofData data) := by
  simp only [upfN3RouteUplink, hsess, hpdr, ok_bind]

theorem gtpv1URecvGpdu_eq (restartOver : Bool) (hsess : findByTeid teid = some (.sess sess))
    (hqfi : pdr.qfi = 0 ∨ pdr.qfi = qfi)
    (hpdr : sess.pdrList.findM? (Pdr.takesUplink teid (ofData data)) = .ok (some pdr)) :
    gtpv1URecvGpdu findByTeid restartOver teid qfi ⟨data, room⟩ =
      sess.routeGpdu pdr ⟨data, room⟩ := by
  simp only [gtpv1URecvGpdu, hsess, findM?_takesGpdu hqfi hpdr, ok_bind]

/-- The GTP-U path writes what the QUIC path writes if and only if what the GTP-U path
checks holds of every packet that the QUIC path leads to a device. -/
theorem uplinkRefines_iff :
    UplinkRefines findByTeid teid data room ↔ UplinkGuarded findByTeid teid data room := by
  constructor
  · intro hrefines sess pdr far dev hsess hpdr hleads
    obtain ⟨accounted, frame, hquic⟩ := routeUplink_tunWrite_iff.mpr ⟨far, hleads⟩
    rw [← upfN3RouteUplink_eq hsess hpdr] at hquic
    obtain ⟨accounted', frame', hgtpu⟩ :=
      hrefines accounted dev frame hquic sess pdr hsess hpdr pdr.qfi (.inr rfl) true
    rw [gtpv1URecvGpdu_eq true hsess (.inr rfl) hpdr] at hgtpu
    obtain ⟨far', hleads', hadmits⟩ := routeGpdu_tunWrite_iff.mp ⟨accounted', frame', hgtpu⟩
    obtain rfl : far = far' := Option.some.inj (hleads.forwards.symm.trans hleads'.forwards)
    exact hadmits
  · intro hguarded accounted dev frame hquic sess pdr hsess hpdr qfi hqfi restartOver
    rw [upfN3RouteUplink_eq hsess hpdr] at hquic
    obtain ⟨far, hleads⟩ := routeUplink_tunWrite_iff.mp ⟨accounted, frame, hquic⟩
    have hadmits := hguarded sess pdr far dev hsess hpdr hleads
    rw [gtpv1URecvGpdu_eq restartOver hsess hqfi hpdr]
    exact routeGpdu_tunWrite_iff.mpr ⟨far, hleads.of_ofData, hadmits⟩

/-! ## A spoofed source address -/

def n6Dev : PfcpDev :=
  { fd     := 3
    macAddr := #v[0x02, 0x00, 0x00, 0x00, 0x00, 0x01] }

/-- Uplink traffic from N3 to N6 under TEID 1. -/
def n3Pdr : Pdr :=
  { id        := 1
    srcIf     := ogsPfcpInterfaceAccess
    srcIfType := some ogsPfcp3gppInterfaceTypeN33gppAccess
    teid      := 1
    qfi       := 1
    far       := some
      { id                  := 1
        dstIf               := ogsPfcpInterfaceCore
        dstIfType           := some ogsPfcp3gppInterfaceTypeN6
        outerHeaderCreation := { address := Vector.replicate 20 0 } } }

/-- The UE has the address 10.45.0.2. -/
def n3Sess : UpfSess :=
  { pdrList := [n3Pdr]
    ipv4    := some ⟨#v[0x0a2d0002, 0, 0, 0], some ⟨some n6Dev⟩⟩ }

/-- An IPv4 header with the source address 10.45.0.3. -/
def spoofedPacket : List UInt8 :=
  [0x45, 0, 0, 20, 0, 0, 0, 0, 64, 17, 0, 0, 10, 45, 0, 3, 8, 8, 8, 8]

/-- What is registered for the TEIDs. -/
def n3Find (teid : UInt32) : Option PfcpObject := if teid = 1 then some (.sess n3Sess) else none

/-- Of a buffer of 2032 octets the header of the G-PDU takes 16. -/
def recvRoom : List UInt8 := List.replicate 1996 0

theorem uplinkRefines_spoofed : ¬UplinkRefines n3Find 1 spoofedPacket recvRoom := by
  intro hrefines
  obtain ⟨_, _, hgtpu⟩ :=
    hrefines [] n6Dev spoofedPacket rfl n3Sess n3Pdr rfl rfl 1 (.inr rfl) true
  have hdrop : gtpv1URecvGpdu n3Find true 1 1 ⟨spoofedPacket, recvRoom⟩ = .ok .drop := rfl
  rw [hdrop] at hgtpu
  exact nomatch hgtpu

end Quicup.Open5gs
