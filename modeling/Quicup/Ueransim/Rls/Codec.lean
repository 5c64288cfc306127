import Quicup.Ueransim.Rls.Pdu

/-!
# The wire format of the radio link simulation

What `EncodeRlsMessage` writes and `DecodeRlsMessage` reads. The reads of the decoder are
unchecked, except for the octets of a PDU.
-/

namespace Quicup.Ueransim

namespace Cons

def major : UInt8 := 3
def minor : UInt8 := 2
def patch : UInt8 := 7

end Cons

inductive EMessageType
  | reserved
  | deprecated1
  | deprecated2
  | deprecated3
  | heartbeat
  | heartbeatAck
  | pduTransmission
  | pduTransmissionAck
  deriving DecidableEq

namespace EMessageType

def value : EMessageType → UInt8
  | reserved           => 0
  | deprecated1        => 1
  | deprecated2        => 2
  | deprecated3        => 3
  | heartbeat          => 4
  | heartbeatAck       => 5
  | pduTransmission    => 6
  | pduTransmissionAck => 7

@[simp] theorem value_inj {a b : EMessageType} : a.value = b.value ↔ a = b := by
  cases a <;> cases b <;> decide

end EMessageType

namespace EPduType

def value : EPduType → UInt8
  | reserved      => 0
  | rrc           => 1
  | data          => 2
  | unknown value => value

/-- The cast of an octet to the enumeration. -/
def ofOctet (octet : UInt8) : EPduType :=
  if octet = 0 then reserved
  else if octet = 1 then rrc
  else if octet = 2 then data
  else unknown octet

/-- A value that is named is given by its name. -/
def Canonical : EPduType → Prop
  | unknown value => value ≠ 0 ∧ value ≠ 1 ∧ value ≠ 2
  | _             => True

@[simp] theorem value_ofOctet (octet : UInt8) : (ofOctet octet).value = octet := by
  rw [ofOctet]
  split_ifs <;> simp_all [value]

theorem ofOctet_value {pduType : EPduType} (h : pduType.Canonical) :
    ofOctet pduType.value = pduType := by
  cases pduType with
  | reserved => rfl
  | rrc => rfl
  | data => rfl
  | unknown value => simp [ofOctet, EPduType.value, h.1, h.2.1, h.2.2]

end EPduType

/-! ## Encoding -/

namespace RlsMessage

def msgType : RlsMessage → EMessageType
  | heartBeat ..          => .heartbeat
  | heartBeatAck ..       => .heartbeatAck
  | pduTransmission ..    => .pduTransmission
  | pduTransmissionAck .. => .pduTransmissionAck

end RlsMessage

def encodeRlsMessage (msg : RlsMessage) (stream : OctetString) : OctetString :=
  let stream := stream.appendOctet 0x03
  let stream := stream.appendOctet Cons.major
  let stream := stream.appendOctet Cons.minor
  let stream := stream.appendOctet Cons.patch
  let stream := stream.appendOctet msg.msgType.value
  let stream := stream.appendOctet8 msg.sti.toNat
  match msg with
  | .heartBeat _ simPos =>
    let stream := stream.appendOctet4 simPos.x.toInt
    let stream := stream.appendOctet4 simPos.y.toInt
    stream.appendOctet4 simPos.z.toInt
  | .heartBeatAck _ dbm => stream.appendOctet4 dbm
  | .pduTransmission _ pduType pduId payload pdu =>
    let stream := stream.appendOctet pduType.value
    let stream := stream.appendOctet4 pduId.toNat
    let stream := stream.appendOctet4 payload.toNat
    let stream := stream.appendOctet4 pdu.length
    stream.append pdu
  | .pduTransmissionAck _ pduIds =>
    let stream := stream.appendOctet4 (UInt32.ofNat pduIds.length).toNat
    pduIds.foldl (fun stream pduId => stream.appendOctet4 pduId.toNat) stream

/-! ## Decoding -/

/-- Four octets as a two's complement number. -/
def read4I : Read Int := do
  let v ← readBE 4
  return Int.bmod v (2 ^ 32)

def read8UL : Read UInt64 := do
  let v ← readBE 8
  return UInt64.ofNat v

/-- The loop that fills the list of an acknowledgement. -/
def readPduIds : Nat → Read (List UInt32)
  | 0 => pure []
  | count + 1 => do
    let pduId ← read4UI
    let pduIds ← readPduIds count
    return pduId :: pduIds

/-- The octets behind the STI, by the type of the message. Other types have none, and no
message. -/
def decodeRlsBody (msgType : UInt8) (sti : UInt64) : Read (Option RlsMessage) := do
  if msgType = EMessageType.heartbeat.value then
    let x ← read4I
    let y ← read4I
    let z ← read4I
    return some (.heartBeat sti ⟨.ofInt x, .ofInt y, .ofInt z⟩)
  else if msgType = EMessageType.heartbeatAck.value then
    let dbm ← read4I
    return some (.heartBeatAck sti dbm)
  else if msgType = EMessageType.pduTransmission.value then
    let pduType ← readOctet
    let pduId ← read4UI
    let payload ← read4UI
    let pduLength ← read4I
    if pduLength > 16384 then
      return none
    let pdu ← readOctetString pduLength
    return some (.pduTransmission sti (.ofOctet pduType) pduId payload pdu)
  else if msgType = EMessageType.pduTransmissionAck.value then
    let count ← read4UI
    let pduIds ← readPduIds count.toNat
    return some (.pduTransmissionAck sti pduIds)
  else
    return none

def decodeRlsMessage : Read (Option RlsMessage) := do
  let first ← readI
  if first ≠ 3 then
    return none
  let major ← readOctet
  if major ≠ Cons.major then
    return none
  let minor ← readOctet
  if minor ≠ Cons.minor then
    return none
  let patch ← readOctet
  if patch ≠ Cons.patch then
    return none
  let msgType ← readI
  let sti ← read8UL
  decodeRlsBody (UInt8.ofNat msgType) sti

/-! ## What is encoded -/

/-- The octets of a message behind the STI. -/
def RlsMessage.body : RlsMessage → OctetString
  | .heartBeat _ simPos =>
    octetsOfInt 4 simPos.x.toInt ++ (octetsOfInt 4 simPos.y.toInt ++ octetsOfInt 4 simPos.z.toInt)
  | .heartBeatAck _ dbm => octetsOfInt 4 dbm
  | .pduTransmission _ pduType pduId payload pdu =>
    [pduType.value] ++ (octetsOfInt 4 pduId.toNat ++
      (octetsOfInt 4 payload.toNat ++ (octetsOfInt 4 pdu.length ++ pdu)))
  | .pduTransmissionAck _ pduIds =>
    octetsOfInt 4 (UInt32.ofNat pduIds.length).toNat ++
      pduIds.flatMap fun pduId => octetsOfInt 4 pduId.toNat

theorem foldl_appendOctet4 (pduIds : List UInt32) (stream : OctetString) :
    pduIds.foldl (fun stream pduId => stream.appendOctet4 pduId.toNat) stream =
      stream ++ pduIds.flatMap fun pduId => octetsOfInt 4 pduId.toNat := by
  induction pduIds generalizing stream with
  | nil => simp
  | cons pduId pduIds ih =>
    rw [List.foldl_cons, ih, List.flatMap_cons, OctetString.appendOctet4, List.append_assoc]

/-- The octets of a message: the preamble, the STI and the body of its type. -/
theorem encodeRlsMessage_eq (msg : RlsMessage) (stream : OctetString) :
    encodeRlsMessage msg stream = stream ++
      ([3] ++ ([Cons.major] ++ ([Cons.minor] ++ ([Cons.patch] ++ ([msg.msgType.value] ++
        (octetsOfInt 8 msg.sti.toNat ++ msg.body)))))) := by
  cases msg with
  | pduTransmissionAck sti pduIds =>
    rw [encodeRlsMessage, foldl_appendOctet4]
    simp [RlsMessage.body, OctetString.appendOctet, OctetString.appendOctet4,
      OctetString.appendOctet8]
  | _ =>
    simp [encodeRlsMessage, RlsMessage.body, OctetString.appendOctet, OctetString.appendOctet4,
      OctetString.appendOctet8, OctetString.append]

/-! ## Reading what was encoded -/

/-- The values of a message are values of their types in the source. -/
def RlsMessage.Live : RlsMessage → Prop
  | .heartBeat ..                    => True
  | .heartBeatAck _ dbm              => -2 ^ 31 ≤ dbm ∧ dbm < 2 ^ 31
  | .pduTransmission _ pduType _ _ pdu => pduType.Canonical ∧ pdu.length ≤ 16384
  | .pduTransmissionAck ..           => True

/-- An acknowledgement has as many ids as its count can tell. -/
def RlsMessage.Countable : RlsMessage → Prop
  | .pduTransmissionAck _ pduIds => pduIds.length < 2 ^ 32
  | _                            => True

section

variable {i : Nat} {msg : RlsMessage}

theorem read4I_reads {v : Int} (h0 : -2 ^ 31 ≤ v) (hv : v < 2 ^ 31) :
    Reads read4I i (octetsOfInt 4 v) v := by
  have h := (readBE_octetsOfInt (i := i) 4 v).bind_end
    (f := fun (v : Nat) => (Pure.pure (Int.bmod v (2 ^ 32)) : Read Int)) (Reads.pure _)
  have hb : Int.bmod (v % (256 ^ 4 : Nat)).toNat (2 ^ 32) = v := by
    rw [Int.toNat_of_nonneg (Int.emod_nonneg v (by norm_num)), Int.bmod_def]
    omega
  rwa [hb] at h

theorem read8UL_reads (v : UInt64) : Reads read8UL i (octetsOfInt 8 v.toNat) v := by
  have h := (readBE_octetsOfInt (i := i) 8 v.toNat).bind_end
    (f := fun v => Pure.pure (UInt64.ofNat v)) (Reads.pure _)
  have hv : ((v.toNat : Int) % (256 ^ 8 : Nat)).toNat = v.toNat := by
    have := v.toNat_lt
    omega
  rwa [hv, UInt64.ofNat_toNat] at h

theorem readPduIds_reads (pduIds : List UInt32) :
    Reads (readPduIds pduIds.length) i (pduIds.flatMap fun pduId => octetsOfInt 4 pduId.toNat)
      pduIds := by
  induction pduIds generalizing i with
  | nil => exact Reads.pure []
  | cons pduId pduIds ih => exact (read4UI_reads pduId).bind (ih.bind_end (Reads.pure _))

theorem read4I_reads_toInt (v : Int32) : Reads read4I i (octetsOfInt 4 v.toInt) v.toInt :=
  read4I_reads (by exact v.le_toInt) (by exact v.toInt_lt)

theorem decodeRlsBody_reads (hlive : msg.Live) (hcount : msg.Countable) :
    Reads (decodeRlsBody msg.msgType.value msg.sti) i msg.body (some msg) := by
  cases msg with
  | heartBeat sti simPos =>
    rw [decodeRlsBody, if_pos (by rfl)]
    refine (read4I_reads_toInt simPos.x).bind ?_
    refine (read4I_reads_toInt simPos.y).bind ?_
    refine (read4I_reads_toInt simPos.z).bind_end ?_
    simp only [Int32.ofInt_toInt]
    exact Reads.pure _
  | heartBeatAck sti dbm =>
    rw [decodeRlsBody, if_neg (by simp [RlsMessage.msgType]), if_pos (by rfl)]
    exact (read4I_reads hlive.1 hlive.2).bind_end (Reads.pure _)
  | pduTransmission sti pduType pduId payload pdu =>
    obtain ⟨hcanonical, hlength⟩ := hlive
    rw [decodeRlsBody, if_neg (by simp [RlsMessage.msgType]),
      if_neg (by simp [RlsMessage.msgType]), if_pos (by rfl)]
    refine (readOctet_reads pduType.value).bind ?_
    refine (read4UI_reads pduId).bind ?_
    refine (read4UI_reads payload).bind ?_
    refine (read4I_reads (by omega) (by omega)).bind ?_
    rw [if_neg (by omega)]
    refine (readOctetString_reads pdu).bind_end ?_
    rw [EPduType.ofOctet_value hcanonical]
    exact Reads.pure _
  | pduTransmissionAck sti pduIds =>
    have hcast : (UInt32.ofNat pduIds.length).toNat = pduIds.length := by
      rw [UInt32.toNat_ofNat', Nat.mod_eq_of_lt hcount]
    rw [decodeRlsBody, if_neg (by simp [RlsMessage.msgType]),
      if_neg (by simp [RlsMessage.msgType]), if_neg (by simp [RlsMessage.msgType]),
      if_pos (by rfl)]
    refine (read4UI_reads (UInt32.ofNat pduIds.length)).bind ?_
    rw [hcast]
    exact (readPduIds_reads pduIds).bind_end (Reads.pure _)

/-- A message with a count that fits is read back from its octets, whatever follows. -/
theorem decodeRlsMessage_reads (hlive : msg.Live) (hcount : msg.Countable) :
    Reads decodeRlsMessage i (encodeRlsMessage msg []) (some msg) := by
  rw [encodeRlsMessage_eq, List.nil_append]
  refine (readI_reads 3).bind ?_
  refine (readOctet_reads Cons.major).bind ?_
  refine (readOctet_reads Cons.minor).bind ?_
  refine (readOctet_reads Cons.patch).bind ?_
  refine (readI_reads msg.msgType.value).bind ?_
  refine (read8UL_reads msg.sti).bind ?_
  rw [UInt8.ofNat_toNat]
  exact decodeRlsBody_reads hlive hcount

end

/-! ## Writing what was read -/

section

variable {i : Nat} {s : List UInt8} {t : Cursor} {v : Int}

theorem octetsOfInt_four {n : Nat} (h : n < 256 ^ 4) (hv : v = Int.bmod n (2 ^ 32)) :
    octetsOfInt 4 v = octetsBE 4 n := by
  have hmod : (v % (256 ^ 4 : Nat)).toNat = n := by
    rw [hv, Int.bmod_def]
    omega
  rw [octetsOfInt, hmod]

theorem read4I_ok (h : read4I ⟨i, s⟩ = .ok (v, t)) :
    s = octetsOfInt 4 v ++ t.rest ∧ (Int32.ofInt v).toInt = v := by
  obtain ⟨n, u, hn, h⟩ := Read.bind_ok h
  obtain ⟨rfl, rfl⟩ := Prod.mk.inj (Except.ok.inj h)
  obtain ⟨hlt, hs, _⟩ := readBE_ok hn
  refine ⟨by rw [octetsOfInt_four hlt rfl, hs], ?_⟩
  rw [Int32.toInt_ofInt]
  exact Int.bmod_bmod

theorem read8UL_ok {v : UInt64} (h : read8UL ⟨i, s⟩ = .ok (v, t)) :
    s = octetsOfInt 8 v.toNat ++ t.rest := by
  obtain ⟨n, u, hn, h⟩ := Read.bind_ok h
  obtain ⟨rfl, rfl⟩ := Prod.mk.inj (Except.ok.inj h)
  obtain ⟨hlt, hs, _⟩ := readBE_ok hn
  have hv : (UInt64.ofNat n).toNat = n := by
    rw [UInt64.toNat_ofNat', Nat.mod_eq_of_lt (by omega)]
  rw [hv, octetsOfInt_natCast hlt, hs]

theorem read4UI_ok' {v : UInt32} (h : read4UI ⟨i, s⟩ = .ok (v, t)) :
    s = octetsOfInt 4 v.toNat ++ t.rest := by
  rw [octetsOfInt_natCast v.toNat_lt]
  exact (read4UI_ok h).1

theorem readPduIds_ok {count : Nat} {pduIds : List UInt32}
    (h : readPduIds count ⟨i, s⟩ = .ok (pduIds, t)) :
    pduIds.length = count ∧
      s = (pduIds.flatMap fun pduId => octetsOfInt 4 pduId.toNat) ++ t.rest := by
  induction count generalizing i s pduIds with
  | zero =>
    obtain ⟨rfl, rfl⟩ := Prod.mk.inj (Except.ok.inj h)
    exact ⟨rfl, rfl⟩
  | succ count ih =>
    obtain ⟨pduId, u, hfirst, h⟩ := Read.bind_ok h
    obtain ⟨rest, v, hrest, h⟩ := Read.bind_ok h
    obtain ⟨rfl, rfl⟩ := Prod.mk.inj (Except.ok.inj h)
    obtain ⟨hlength, hv⟩ := ih hrest
    refine ⟨by rw [List.length_cons, hlength], ?_⟩
    rw [read4UI_ok' hfirst, hv, List.flatMap_cons, List.append_assoc]

theorem decodeRlsBody_ok {msgType : UInt8} {sti : UInt64} {msg : RlsMessage}
    (h : decodeRlsBody msgType sti ⟨i, s⟩ = .ok (some msg, t)) :
    msgType = msg.msgType.value ∧ sti = msg.sti ∧ s = msg.body ++ t.rest := by
  unfold decodeRlsBody at h
  split_ifs at h with hheartbeat hack hpdu hpduAck
  · obtain ⟨x, u, hx, h⟩ := Read.bind_ok h
    obtain ⟨y, v, hy, h⟩ := Read.bind_ok h
    obtain ⟨z, w, hz, h⟩ := Read.bind_ok h
    obtain ⟨rfl, rfl⟩ := by simpa using Prod.mk.inj (Except.ok.inj h)
    obtain ⟨hs, hx⟩ := read4I_ok hx
    obtain ⟨hu, hy⟩ := read4I_ok hy
    obtain ⟨hv, hz⟩ := read4I_ok hz
    refine ⟨hheartbeat, rfl, ?_⟩
    simp only [RlsMessage.body, hx, hy, hz, hs, hu, hv, List.append_assoc]
  · obtain ⟨dbm, u, hdbm, h⟩ := Read.bind_ok h
    obtain ⟨rfl, rfl⟩ := by simpa using Prod.mk.inj (Except.ok.inj h)
    exact ⟨hack, rfl, (read4I_ok hdbm).1⟩
  · obtain ⟨pduType, u, htype, h⟩ := Read.bind_ok h
    obtain ⟨pduId, v, hid, h⟩ := Read.bind_ok h
    obtain ⟨payload, w, hpayload, h⟩ := Read.bind_ok h
    obtain ⟨pduLength, x, hlength, h⟩ := Read.bind_ok h
    split_ifs at h with hlong
    · cases (Prod.mk.inj (Except.ok.inj h)).1
    · obtain ⟨pdu, y, hread, h⟩ := Read.bind_ok h
      obtain ⟨rfl, rfl⟩ := by simpa using Prod.mk.inj (Except.ok.inj h)
      obtain ⟨_, hpdu', hx, _⟩ := readOctetString_ok hread
      refine ⟨hpdu, rfl, ?_⟩
      simp only [RlsMessage.body, EPduType.value_ofOctet, (readOctet_ok htype).1, read4UI_ok' hid,
        read4UI_ok' hpayload, (read4I_ok hlength).1, hx, hpdu', List.append_assoc,
        List.cons_append, List.nil_append]
  · obtain ⟨count, u, hcount, h⟩ := Read.bind_ok h
    obtain ⟨pduIds, v, hids, h⟩ := Read.bind_ok h
    obtain ⟨rfl, rfl⟩ := by simpa using Prod.mk.inj (Except.ok.inj h)
    obtain ⟨hlength, hu⟩ := readPduIds_ok hids
    refine ⟨hpduAck, rfl, ?_⟩
    rw [RlsMessage.body, hlength, UInt32.ofNat_toNat, read4UI_ok' hcount, hu, List.append_assoc]
  · cases (Prod.mk.inj (Except.ok.inj h)).1

/-- The octets that a message is read from are those of its encoding. -/
theorem decodeRlsMessage_ok {msg : RlsMessage}
    (h : decodeRlsMessage ⟨i, s⟩ = .ok (some msg, t)) : s = encodeRlsMessage msg [] ++ t.rest := by
  obtain ⟨first, c1, hfirst, h⟩ := Read.bind_ok h
  split_ifs at h with hthree
  · cases (Prod.mk.inj (Except.ok.inj h)).1
  obtain ⟨major, c2, hmajor, h⟩ := Read.bind_ok h
  split_ifs at h with hmajor'
  · cases (Prod.mk.inj (Except.ok.inj h)).1
  obtain ⟨minor, c3, hminor, h⟩ := Read.bind_ok h
  split_ifs at h with hminor'
  · cases (Prod.mk.inj (Except.ok.inj h)).1
  obtain ⟨patch, c4, hpatch, h⟩ := Read.bind_ok h
  split_ifs at h with hpatch'
  · cases (Prod.mk.inj (Except.ok.inj h)).1
  obtain ⟨msgType, c5, htype, h⟩ := Read.bind_ok h
  obtain ⟨sti, c6, hsti, h⟩ := Read.bind_ok h
  obtain ⟨x, hx, hs, _⟩ := readI_ok hfirst
  obtain ⟨y, rfl, h4, _⟩ := readI_ok htype
  have hx3 : x = 3 := UInt8.toNat_inj.mp (by simpa [hx] using not_not.mp hthree)
  obtain ⟨hvalue, hsame, h6⟩ := decodeRlsBody_ok h
  rw [UInt8.ofNat_toNat] at hvalue
  rw [encodeRlsMessage_eq, List.nil_append, hs, (readOctet_ok hmajor).1, (readOctet_ok hminor).1,
    (readOctet_ok hpatch).1, h4, read8UL_ok hsti, h6, hx3, not_not.mp hmajor', not_not.mp hminor',
    not_not.mp hpatch', hvalue, hsame]
  simp only [List.cons_append, List.nil_append, List.append_assoc]

end

/-! ## Round trips -/

/-- The decoder gives a message back from its encoding. -/
def RoundTrips (msg : RlsMessage) : Prop :=
  ∃ t, decodeRlsMessage (.start (encodeRlsMessage msg [])) = .ok (some msg, t)

/-- The message that is read instead of an acknowledgement: its count is a remainder. -/
def RlsMessage.counted : RlsMessage → RlsMessage
  | .pduTransmissionAck sti pduIds =>
    .pduTransmissionAck sti (pduIds.take (UInt32.ofNat pduIds.length).toNat)
  | msg => msg

theorem length_take_count (pduIds : List UInt32) :
    (pduIds.take (UInt32.ofNat pduIds.length).toNat).length =
      (UInt32.ofNat pduIds.length).toNat := by
  rw [List.length_take, UInt32.toNat_ofNat']
  exact min_eq_left (Nat.mod_le _ _)

/-- Every encoding begins with that of the message that is read from it. -/
theorem encodeRlsMessage_counted (msg : RlsMessage) :
    ∃ rest, encodeRlsMessage msg [] = encodeRlsMessage msg.counted [] ++ rest := by
  cases msg with
  | pduTransmissionAck sti pduIds =>
    refine ⟨(pduIds.drop (UInt32.ofNat pduIds.length).toNat).flatMap
      fun pduId => octetsOfInt 4 pduId.toNat, ?_⟩
    rw [encodeRlsMessage_eq, encodeRlsMessage_eq]
    simp only [RlsMessage.body, RlsMessage.counted, RlsMessage.msgType, RlsMessage.sti,
      length_take_count, UInt32.ofNat_toNat, List.append_assoc]
    rw [← List.flatMap_append, List.take_append_drop]
  | _ => exact ⟨[], by simp [RlsMessage.counted]⟩

variable {msg : RlsMessage}

theorem decodeRlsMessage_encode (hlive : msg.Live) :
    ∃ t, decodeRlsMessage (.start (encodeRlsMessage msg [])) = .ok (some msg.counted, t) := by
  have hlive' : msg.counted.Live := by
    cases msg with
    | pduTransmissionAck => trivial
    | _ => exact hlive
  have hcount : msg.counted.Countable := by
    cases msg with
    | pduTransmissionAck sti pduIds =>
      simp only [RlsMessage.counted, RlsMessage.Countable, length_take_count]
      exact UInt32.toNat_lt _
    | _ => trivial
  obtain ⟨rest, hrest⟩ := encodeRlsMessage_counted msg
  rw [hrest]
  exact ⟨_, decodeRlsMessage_reads hlive' hcount rest⟩

theorem counted_eq_iff : msg.counted = msg ↔ msg.Countable := by
  cases msg with
  | pduTransmissionAck sti pduIds =>
    have hlength := length_take_count pduIds
    rw [UInt32.toNat_ofNat'] at hlength
    simp only [RlsMessage.counted, RlsMessage.Countable, RlsMessage.pduTransmissionAck.injEq,
      true_and, UInt32.toNat_ofNat']
    constructor
    · intro h
      rw [h] at hlength
      omega
    · intro h
      exact List.take_of_length_le (by omega)
  | _ => simp [RlsMessage.counted, RlsMessage.Countable]

/-- A live message goes round, unless it acknowledges more than its count can tell; and what
is read without leaving the datagram is written as it was. -/
theorem rls_round_trips :
    (∀ msg : RlsMessage, msg.Live → (RoundTrips msg ↔ msg.Countable)) ∧
      ∀ (octets : OctetString) (msg : RlsMessage) (t : Cursor),
        decodeRlsMessage (.start octets) = .ok (some msg, t) →
          octets = encodeRlsMessage msg [] ++ t.rest := by
  refine ⟨fun msg hlive => ?_, fun octets msg t h => decodeRlsMessage_ok h⟩
  obtain ⟨t, ht⟩ := decodeRlsMessage_encode hlive
  rw [← counted_eq_iff, RoundTrips, ht]
  constructor
  · rintro ⟨u, hu⟩
    exact Option.some.inj (Prod.mk.inj (Except.ok.inj hu)).1
  · intro h
    exact ⟨t, by rw [h]⟩

theorem rls_round_trips_heartbeat :
    RoundTrips (.heartBeat 5 ⟨1, -2, 3⟩) ∧
      decodeRlsMessage (.start (encodeRlsMessage (.heartBeatAck 5 (-60)) [])) =
        .ok (some (.heartBeatAck 5 (-60)), ⟨17, []⟩) ∧
      encodeRlsMessage (.heartBeatAck 5 (-60)) [] =
        encodeRlsMessage (.heartBeatAck 5 (-60)) [] ++ [] :=
  have hread : decodeRlsMessage (.start (encodeRlsMessage (.heartBeatAck 5 (-60)) [])) =
      .ok (some (.heartBeatAck 5 (-60)), ⟨17, []⟩) := by
    decide +kernel
  ⟨(rls_round_trips.1 (.heartBeat 5 ⟨1, -2, 3⟩) trivial).mpr trivial, hread,
    rls_round_trips.2 _ _ _ hread⟩

/-- An acknowledgement of `2 ^ 32` PDUs is read as one of none. -/
theorem not_roundTrips_long :
    ¬ ∀ msg : RlsMessage, msg.Live → RoundTrips msg := by
  intro h
  have hlong := h (.pduTransmissionAck 1 (List.replicate (2 ^ 32) 7)) trivial
  obtain ⟨t, ht⟩ := hlong
  have hlive : (RlsMessage.pduTransmissionAck 1 (List.replicate (2 ^ 32) 7)).Live := trivial
  obtain ⟨u, hu⟩ := decodeRlsMessage_encode hlive
  have hsame := Option.some.inj (Prod.mk.inj (Except.ok.inj (hu.symm.trans ht))).1
  have hcount := counted_eq_iff.mp hsame
  simp only [RlsMessage.Countable, List.length_replicate, lt_irrefl] at hcount

end Quicup.Ueransim
