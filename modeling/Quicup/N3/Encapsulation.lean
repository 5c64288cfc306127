import Quicup.Open5gs.Upf.QuicServer
import Quicup.Ueransim.Gtp.Reception
import Quicup.Ueransim.Gtp.Sessions

/-!
# The QUIC encapsulation on N3

The UPF and the gNB each put four octets of TEID in front of a packet and take them
off on the other side. What one end encodes the other decodes, for every TEID and
at every length that the encoder accepts.
-/

namespace Quicup.N3

open Open5gs Ueransim

variable {ρ : Type} (limiter : IRateLimiter ρ) (task : GtpTask ρ)

/-- A downlink packet that the UPF sends under the downlink TEID of a session is
between 1 and 2044 octets long, and where the limiter allows it the gNB delivers
just these octets to the UE and the PDU session of the one session with that TEID. -/
def DownlinkInverse : Prop :=
  ∀ ind session, task.pduSessions.lookup ind = some session →
  ∀ (server : QuicServer) (msQuic sendBuffer : Bool) (destGnbIp data : List UInt8)
    (packetLen : UInt16) (conn : Nat) (datagram : List UInt8),
  server.sendDownlink msQuic sendBuffer destGnbIp session.downTunnel.teid (some data) packetLen =
    .ok (.datagramSend conn datagram) →
  let packet := data.take packetLen.toNat
  (packet.length = packetLen.toNat ∧ 1 ≤ packet.length ∧ packet.length ≤ 2044) ∧
  (∀ ind' session', task.pduSessions.lookup ind' = some session' →
    session'.downTunnel.teid = session.downTunnel.teid → session' = session) ∧
  ((limiter.allowDownlinkPacket ind (UInt64.ofNat packet.length) task.rateLimiter).1 = true →
    ∃ rateLimiter, task.handleQuicReceive limiter datagram =
      .ok ({ task with rateLimiter },
        some (.dataPduDelivery session.ueId session.psi packet)))

/-- An uplink packet that the gNB sends is handed to the routing of the UPF under the
uplink TEID of its session, if the UPF has memory for it. -/
def UplinkInverse : Prop :=
  ∀ (ueId psi : Int32) (pdu : OctetString) (t : GtpTask ρ) (ip : InetAddress)
    (datagram : OctetString),
  task.handleUplinkData limiter .quic ueId psi pdu = .ok (t, some (.gtpToQuic ip datagram)) →
  ∃ session, task.pduSessions.lookup (makeSessionResInd ueId psi) = some session ∧
    ∀ buffer : QuicBuffer, buffer.buffer = datagram →
      quicServerHandleUplink true buffer = some (session.upTunnel.teid, .ofData pdu)

variable {limiter task} {teid : UInt32}

/-- A TEID is written alike by `appendOctet4` and by `htonl` and `memcpy`. -/
theorem octetsOfInt_teid (teid : UInt32) : octetsOfInt 4 teid.toNat = octetsBE 4 teid.toNat :=
  octetsOfInt_natCast teid.toNat_lt

/-- The gNB takes a TEID off the front of a datagram. -/
theorem handleQuicReceive_datagram {packet : OctetString} (hpacket : packet ≠ [])
    (hsession : task.sessionTree.findByDownTeid teid ≠ 0) :
    task.handleQuicReceive limiter (octetsBE 4 teid.toNat ++ packet) =
      .ok (task.deliverDownlink limiter (task.sessionTree.findByDownTeid teid) packet) := by
  have hlength : ¬(octetsBE 4 teid.toNat ++ packet).length < 5 := by
    have hpos := List.length_pos_iff.mpr hpacket
    rw [List.length_append, length_octetsBE]
    omega
  have hread : read4UI (Cursor.start (octetsBE 4 teid.toNat ++ packet)) =
      .ok (teid, ⟨4, packet⟩) := by
    rw [← octetsOfInt_teid]
    exact read4UI_reads teid packet
  rw [GtpTask.handleQuicReceive, if_neg hlength, hread]
  change (if _ then _ else _) = _
  rw [if_neg hsession, List.drop_left' (length_octetsBE 4 _)]
  rfl

/-- The UPF takes a TEID off the front of a datagram. -/
theorem quicServerHandleUplink_datagram {packet : List UInt8} {buffer : QuicBuffer}
    (hbuffer : buffer.buffer = octetsBE 4 teid.toNat ++ packet) :
    quicServerHandleUplink true buffer = some (teid, .ofData packet) := by
  have hlength : ¬(octetsBE 4 teid.toNat ++ packet).length < 4 := by
    rw [List.length_append, length_octetsBE]
    omega
  have hteid : UInt32.ofNat (natBE (octetsBE 4 teid.toNat)) = teid := by
    have hlt : teid.toNat < 256 ^ 4 := teid.toNat_lt
    rw [natBE_octetsBE, Nat.mod_eq_of_lt hlt, UInt32.ofNat_toNat]
  rw [quicServerHandleUplink, hbuffer, if_neg hlength, List.take_left' (length_octetsBE 4 _),
    List.drop_left' (length_octetsBE 4 _), hteid]
  rfl

/-- What the gNB sends for an uplink packet is the TEID of its session and the packet. -/
theorem handleUplinkData_datagram {ueId psi : Int32} {pdu : OctetString} {t : GtpTask ρ}
    {ip : InetAddress} {datagram : OctetString}
    (hrun : task.handleUplinkData limiter .quic ueId psi pdu =
      .ok (t, some (.gtpToQuic ip datagram))) :
    ∃ session, task.pduSessions.lookup (makeSessionResInd ueId psi) = some session ∧
      datagram = octetsBE 4 session.upTunnel.teid.toNat ++ pdu := by
  rw [GtpTask.handleUplinkData.eq_def] at hrun
  cases pdu with
  | nil => cases hrun
  | cons data0 rest =>
    dsimp only at hrun
    split at hrun
    · cases hrun
    split at hrun
    · cases hrun
    rename_i session hsession
    split at hrun
    · cases hrun
    refine ⟨session, hsession, ?_⟩
    cases hip : InetAddress.ofOctets session.upTunnel.address InetAddress.quicPort with
    | error =>
      rw [hip] at hrun
      cases hrun
    | ok dest =>
      rw [hip] at hrun
      cases hrun
      exact congrArg (· ++ (data0 :: rest)) (octetsOfInt_teid session.upTunnel.teid)

end Quicup.N3
