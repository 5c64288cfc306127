import Quicup.Ueransim.Gtp.Layout
import Quicup.Ueransim.Gtp.Task

/-!
# Reception of UDP datagrams

The handler of GTP-U datagrams always comes to an end, but it returns only for
framed datagrams of consumed headers. For all others the decoder faults or the
handler uses its absent result.
-/

namespace Quicup.Ueransim

/-! ## The decoder halts -/

section Halting

/-- Every turn of the loop takes an octet, so more turns than octets are never used up. -/
private theorem decodeExtHeaders_halts {fuel : Nat} (type : Nat) {c : Cursor}
    (hfuel : c.rest.length < fuel) : decodeExtHeaders fuel type c ≠ .error .hang := by
  induction fuel generalizing type c with
  | zero => omega
  | succ fuel ih =>
    intro h
    cases type with
    | zero => cases h
    | succ type =>
      rw [decodeExtHeaders] at h
      rcases Read.bind_error h with h | ⟨position, u, hu, h⟩
      · cases h
      obtain ⟨-, rfl⟩ := Prod.mk.inj (Except.ok.inj hu)
      rcases Read.bind_error h with h | ⟨len, v, hv, h⟩
      · exact readI_regular.halts _ h
      obtain ⟨x, -, hx, -⟩ := readI_ok hv
      rcases Read.bind_error h with h | ⟨header, w, hw, h⟩
      · exact (decodeExtHeader_regular _ _).halts _ h
      obtain ⟨content, hcontent, -, -⟩ := (decodeExtHeader_regular _ _).owed _ _ _ _ hw
      cases header with
      | none => cases h
      | some header =>
        rcases Read.bind_error h with h | ⟨next, y, hy, h⟩
        · exact readI_regular.halts _ h
        obtain ⟨x', -, hx', -⟩ := readI_ok hy
        rcases Read.bind_error h with h | ⟨tail, z, -, h⟩
        · have hc : c.rest.length = 1 + content.length + 1 + y.rest.length := by
            rw [hx, hcontent, hx']
            simp only [List.length_cons, List.length_append]
            omega
          exact ih next (by omega) h
        · cases tail <;> cases h

private theorem decodeOptional_halts (message : GtpMessage) (flags : UInt8) :
    Halts (decodeOptional message flags) := by
  refine Halts.ite ?_ (Halts.pure _)
  refine (readBE_regular 2).halts.bind fun seq => readOctet_regular.halts.bind fun nPduNum => ?_
  intro c h
  rcases Read.bind_error h with h | ⟨next, u, hu, h⟩
  · exact readI_regular.halts _ h
  obtain ⟨x, -, -, hi⟩ := readI_ok hu
  by_cases h2 : bitAt 2 flags = true
  · simp only [if_pos h2] at h
    rcases Read.bind_error h with h | ⟨fuel, v, hv, h⟩
    · cases h
    obtain ⟨rfl, rfl⟩ := Prod.mk.inj (Except.ok.inj hv)
    rcases Read.bind_error h with h | ⟨r, w, -, h⟩
    · refine decodeExtHeaders_halts next ?_ h
      rw [Cursor.size]
      omega
    · cases r <;> cases h
  · simp only [if_neg h2] at h
    cases h

theorem decodeGtpMessage_halts : Halts decodeGtpMessage := by
  refine Halts.bind ?_ fun _ => Halts.pure _
  refine currentIndex_halts.bind fun first => readOctet_regular.halts.bind fun flags => ?_
  refine Halts.ite (Halts.pure _) (Halts.ite (Halts.pure _) ?_)
  refine readOctet_regular.halts.bind fun msgType => (readBE_regular 2).halts.bind fun gtpLen =>
    read4UI_regular.halts.bind fun teid => (decodeOptional_halts _ _).bind fun r => ?_
  cases r with
  | none => exact Halts.pure _
  | some r => exact currentIndex_halts.bind fun index =>
      (readOctetString_regular _).halts.bind fun payload => Halts.pure _

/-- Decoding comes to an end on every octet string. -/
theorem decode_ne_hang (octets : OctetString) : decode octets ≠ .error .hang := by
  intro h
  cases hr : decodeGtpMessage (Cursor.start octets) with
  | error e =>
    rw [decode, hr] at h
    cases h
    exact decodeGtpMessage_halts _ hr
  | ok r =>
    rw [decode, hr] at h
    cases h

end Halting

/-! ## The handler -/

namespace GtpTask

variable {ρ : Type} (limiter : IRateLimiter ρ) (task : GtpTask ρ)

/-- The answer to an echo request always has an encoding. -/
private theorem echoResponse_encodes (seq : Option UInt16) :
    ∃ octets, encodeGtpMessage (echoResponse seq) [] = .ok (some octets) := by
  cases seq <;> exact ⟨_, rfl⟩

private theorem udpSend_ne_hang (server : Option UdpServer) (dest : InetAddress)
    (packet : OctetString) : udpSend server dest packet ≠ .error .hang := by
  unfold udpSend
  cases server with
  | none => exact nofun
  | some server =>
    dsimp only
    split <;> exact nofun

section Cases

variable {packet : OctetString} (fromAddress : InetAddress) {gtp : GtpMessage}

private theorem handleUdpReceive_error {f : Fault} (h : decode packet = .error f) :
    task.handleUdpReceive limiter packet fromAddress = .error f := by
  rw [handleUdpReceive, h]
  rfl

private theorem handleUdpReceive_none (h : decode packet = .ok none) :
    task.handleUdpReceive limiter packet fromAddress = .error .nullDeref := by
  rw [handleUdpReceive, h]
  rfl

/-- A message that is no echo request is delivered, or leaves the task as it is. -/
private theorem handleUdpReceive_message (h : decode packet = .ok (some gtp))
    (hecho : gtp.msgType ≠ GtpMessage.mtEchoRequest) :
    task.handleUdpReceive limiter packet fromAddress = .ok
      (if gtp.msgType = GtpMessage.mtGPdu ∧ task.sessionTree.findByDownTeid gtp.teid ≠ 0 then
        task.deliverDownlink limiter (task.sessionTree.findByDownTeid gtp.teid) gtp.payload
      else (task, none)) := by
  rw [handleUdpReceive, h]
  change (if gtp.msgType = GtpMessage.mtGPdu then _ else _) = _
  by_cases hg : gtp.msgType = GtpMessage.mtGPdu
  · rw [if_pos hg]
    by_cases h0 : task.sessionTree.findByDownTeid gtp.teid = 0
    · simp only [hg, h0, ne_eq, not_true_eq_false, and_false, if_true, if_false]
      rfl
    · simp only [hg, h0, ne_eq, not_false_eq_true, and_self, if_true, if_false]
      rfl
  · simp only [hg, hecho, false_and, if_false]
    rfl

/-- An echo request is answered, or fails where the socket does. -/
private theorem handleUdpReceive_echo (h : decode packet = .ok (some gtp))
    (hecho : gtp.msgType = GtpMessage.mtEchoRequest) {octets : OctetString}
    (hoctets : encodeGtpMessage (echoResponse gtp.seq) [] = .ok (some octets)) :
    task.handleUdpReceive limiter packet fromAddress =
      (udpSend task.udpServer fromAddress octets).map
        fun _ => (task, some (.udp fromAddress octets)) := by
  rw [handleUdpReceive, h]
  change (if gtp.msgType = GtpMessage.mtGPdu then _ else _) = _
  rw [if_neg (by rw [hecho]; decide), if_pos hecho, hoctets]
  cases hs : udpSend task.udpServer fromAddress octets with
  | error f =>
    change (udpSend task.udpServer fromAddress octets >>= _) = _
    rw [hs]
    rfl
  | ok u =>
    change (udpSend task.udpServer fromAddress octets >>= _) = _
    rw [hs]
    rfl

end Cases

/-- Handling a datagram comes to an end. -/
theorem handleUdpReceive_ne_hang (packet : OctetString) (fromAddress : InetAddress) :
    task.handleUdpReceive limiter packet fromAddress ≠ .error .hang := by
  intro h
  cases hdec : decode packet with
  | error f =>
    rw [handleUdpReceive_error limiter task fromAddress hdec] at h
    cases h
    exact decode_ne_hang packet hdec
  | ok r =>
    cases r with
    | none =>
      rw [handleUdpReceive_none limiter task fromAddress hdec] at h
      cases h
    | some gtp =>
      by_cases hecho : gtp.msgType = GtpMessage.mtEchoRequest
      · obtain ⟨octets, hoctets⟩ := echoResponse_encodes gtp.seq
        rw [handleUdpReceive_echo limiter task fromAddress hdec hecho hoctets] at h
        cases hs : udpSend task.udpServer fromAddress octets with
        | error f =>
          rw [hs] at h
          exact udpSend_ne_hang _ _ _ (hs.trans (congrArg _ (Except.error.inj h)))
        | ok u =>
          rw [hs] at h
          cases h
      · rw [handleUdpReceive_message limiter task fromAddress hdec hecho] at h
        cases h

/-- The datagram carries no message, a G-PDU of no session, or a message of another type. -/
def Rejected (packet : OctetString) : Prop :=
  ∀ gtp, decode packet = .ok (some gtp) → gtp.msgType ≠ GtpMessage.mtEchoRequest ∧
    (gtp.msgType = GtpMessage.mtGPdu → task.sessionTree.findByDownTeid gtp.teid = 0)

/-- The handler returns, and leaves the task as it is when the datagram is rejected. -/
def Handled (packet : OctetString) (fromAddress : InetAddress) : Prop :=
  ∃ task' out, task.handleUdpReceive limiter packet fromAddress = .ok (task', out) ∧
    (task.Rejected packet → task' = task)

/-- A framed datagram of consumed headers, whose answer the socket takes if it is an
echo request. -/
def Receivable (packet : OctetString) (fromAddress : InetAddress) : Prop :=
  ∃ d : Datagram, d.Framed ∧ (∀ x ∈ d.chain, x.Consumed) ∧ packet = d.octets ∧
    (d.msgType = GtpMessage.mtEchoRequest → ∀ octets,
      encodeGtpMessage (echoResponse (if bitAt 1 d.flags then some d.seq else none)) [] =
        .ok (some octets) → udpSend task.udpServer fromAddress octets = .ok ())

/-- The datagrams that are handled are the receivable ones. -/
theorem handleUdpReceive_iff (packet : OctetString) (fromAddress : InetAddress) :
    task.Handled limiter packet fromAddress ↔ task.Receivable packet fromAddress := by
  constructor
  · rintro ⟨task', out, hrun, -⟩
    cases hdec : decode packet with
    | error f =>
      rw [handleUdpReceive_error limiter task fromAddress hdec] at hrun
      cases hrun
    | ok r =>
      cases r with
      | none =>
        rw [handleUdpReceive_none limiter task fromAddress hdec] at hrun
        cases hrun
      | some gtp =>
        obtain ⟨d, headers, hd, hchain, hs, rfl⟩ := decode_some hdec
        refine ⟨d, hd, hchain, hs, fun hecho octets hoctets => ?_⟩
        rw [handleUdpReceive_echo limiter task fromAddress hdec hecho hoctets] at hrun
        cases hsend : udpSend task.udpServer fromAddress octets with
        | error f =>
          rw [hsend] at hrun
          cases hrun
        | ok u => rfl
  · rintro ⟨d, hd, hchain, hs, hsend⟩
    obtain ⟨headers, hdec⟩ := hd.decode hchain
    rw [← hs] at hdec
    by_cases hecho : d.msgType = GtpMessage.mtEchoRequest
    · obtain ⟨octets, hoctets⟩ :=
        echoResponse_encodes (if bitAt 1 d.flags then some d.seq else none)
      refine ⟨task, some (.udp fromAddress octets), ?_, fun _ => rfl⟩
      rw [handleUdpReceive_echo limiter task fromAddress hdec hecho hoctets, hsend hecho octets hoctets]
      rfl
    · have hrun := handleUdpReceive_message limiter task fromAddress hdec hecho
      by_cases hn : (d.message headers).msgType = GtpMessage.mtGPdu ∧
          task.sessionTree.findByDownTeid (d.message headers).teid ≠ 0
      · rw [if_pos hn] at hrun
        exact ⟨_, _, hrun, fun hrej => absurd ((hrej _ hdec).2 hn.1) hn.2⟩
      · rw [if_neg hn] at hrun
        exact ⟨task, none, hrun, fun _ => rfl⟩

/-- A limiter that allows every packet. -/
def unlimited : IRateLimiter Unit where
  allowDownlinkPacket _ _ s := (true, s)
  allowUplinkPacket _ _ s := (true, s)
  updateUeUplinkLimit _ _ s := s
  updateUeDownlinkLimit _ _ s := s
  updateSessionUplinkLimit _ _ s := s
  updateSessionDownlinkLimit _ _ s := s

/-- A datagram of version zero, a truncated header, and a length field beyond the end. -/
theorem handleUdpReceive_faults :
    let task : GtpTask Unit := { rateLimiter := () }
    let peer : InetAddress := ⟨[10, 0, 0, 1], 2152⟩
    task.handleUdpReceive unlimited [0] peer = .error .nullDeref ∧
      task.handleUdpReceive unlimited [0x30, 255, 0] peer = .error .outOfBounds ∧
      task.handleUdpReceive unlimited [0x30, 255, 0, 9, 0, 0, 0, 1] peer = .error .exception ∧
      ¬ task.Handled unlimited [0] peer := by
  refine ⟨rfl, rfl, rfl, ?_⟩
  rintro ⟨task', out, hrun, -⟩
  cases hrun

end GtpTask

end Quicup.Ueransim
