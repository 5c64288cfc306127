import Mathlib.Data.List.Forall2
import Quicup.Open5gs.Gtp.Header
import Quicup.Ueransim.Gtp.Layout
import Quicup.Ueransim.Gtp.RoundTrip

/-!
# The two GTP-U codecs on N3

The header parser of the UPF understands what the gNB encodes as long as the uplink
container has its two mandatory octets only: a longer one is more than the parser
has room for. The decoder of the gNB understands what the UPF sends for each QFI
that a container can carry. The UPF writes the TEID only when it sends the packet.
-/

namespace Quicup.N3

open Open5gs Ueransim

/-! ## Uplink -/

/-- A G-PDU with an uplink container. -/
def uplinkGPdu (teid : UInt32) (seq : Option UInt16) (nPduNum : Option UInt8)
    (ul : UlPduSessionInformation) (payload : OctetString) : GtpMessage where
  msgType := GtpMessage.mtGPdu
  teid := teid
  seq := seq
  nPduNum := nPduNum
  extHeaders := [.pduSessionContainerExtHeader (some (.ul ul))]
  payload := payload

/-- The container carries no time stamps, no delay results and no sequence number. -/
structure MandatoryOnly (ul : UlPduSessionInformation) : Prop where
  qmp : ul.qmp = false
  dlDelayResult : ul.dlDelayResult = none
  ulDelayResult : ul.ulDelayResult = none
  ulQfiSeq : ul.ulQfiSeq = none

/-- The UPF finds the type, the TEID and the QFI of a G-PDU of the gNB, and where its
payload begins, whatever lies behind the packet. -/
def UplinkAgrees (teid : UInt32) (seq : Option UInt16) (nPduNum : Option UInt8)
    (ul : UlPduSessionInformation) (payload : OctetString) : Prop :=
  ∃ header, encodeGtpMessage (uplinkGPdu teid seq nPduNum ul payload) [] =
      .ok (some (header ++ payload)) ∧
    ∀ room, ∃ headerDesc,
      gtpuParseHeader ⟨header ++ payload, room⟩ = .ok (some header.length, headerDesc) ∧
      headerDesc.type = GtpMessage.mtGPdu ∧ headerDesc.teid = teid ∧
      (headerDesc.qosFlowIdentifier.toNat : Int) = ul.qfi

/-- The first octet of an uplink container. -/
private def ulFirst (ul : UlPduSessionInformation) : UInt8 :=
  ranged8 [(4, 1), (1, ul.qmp.toInt), (1, ul.dlDelayResult.isSome.toInt),
    (1, ul.ulDelayResult.isSome.toInt), (1, ul.ulQfiSeq.isSome.toInt)]

/-- A container is its two mandatory octets and whole words behind them, none of these
exactly where nothing optional is carried. -/
private theorem encode_uplink (ul : UlPduSessionInformation) :
    ∃ tail, (PduSessionInformation.ul ul).encode [] =
        ulFirst ul :: ranged8 [(2, 0), (6, ul.qfi)] :: tail ∧
      tail.length ≤ 36 ∧ tail.length % 4 = 0 ∧ (tail.length = 0 ↔ MandatoryOnly ul) := by
  have hiff : MandatoryOnly ul ↔ ul.qmp = false ∧ ul.dlDelayResult = none ∧
      ul.ulDelayResult = none ∧ ul.ulQfiSeq = none :=
    ⟨fun h => ⟨h.qmp, h.dlDelayResult, h.ulDelayResult, h.ulQfiSeq⟩,
      fun ⟨h1, h2, h3, h4⟩ => ⟨h1, h2, h3, h4⟩⟩
  have hne4 : ∀ v, octetsOfInt 4 v ≠ [] := fun v => List.cons_ne_nil _ _
  have hne8 : ∀ v, octetsOfInt 8 v ≠ [] := fun v => List.cons_ne_nil _ _
  rw [hiff]
  obtain ⟨qmp, qfi, ts1, ts2, ts3, dlDelay, ulDelay, seq⟩ := ul
  cases qmp <;> cases dlDelay <;> cases ulDelay <;> cases seq <;>
    simp [PduSessionInformation.encode, UlPduSessionInformation.encode, ulFirst,
      OctetString.appendOctet, OctetString.appendOctet3, OctetString.appendOctet4,
      OctetString.appendOctet8, OctetString.appendPadding, paddingLength, hne4, hne8]

/-- The octets of a G-PDU of the gNB. -/
private theorem encode_uplinkGPdu (teid : UInt32) (seq : Option UInt16) (nPduNum : Option UInt8)
    (ul : UlPduSessionInformation) (payload : OctetString) :
    ∃ (flags a b c d : UInt8), flags &&& gtpuFlagsE ≠ 0 ∧
      encodeGtpMessage (uplinkGPdu teid seq nPduNum ul payload) [] =
        .ok (some (flags :: GtpMessage.mtGPdu :: a :: b :: (octetsBE 4 teid.toNat ++
          (c :: d :: nPduNum.getD 0 :: 0x85 ::
            UInt8.ofNat ((((PduSessionInformation.ul ul).encode []).length + 2) / 4) ::
              ((PduSessionInformation.ul ul).encode [] ++ 0 :: payload))))) := by
  have hwire : List.Forall₂ (fun header wire => ∀ stream, encodeExtensionHeader header stream =
      .ok (some (stream ++ wire))) (uplinkGPdu teid seq nPduNum ul payload).extHeaders
      [0x85 :: UInt8.ofNat ((((PduSessionInformation.ul ul).encode []).length + 2) / 4) ::
        (PduSessionInformation.ul ul).encode []] := by
    refine .cons (fun stream => ?_) .nil
    simp [encodeExtensionHeader, OctetString.appendOctet, OctetString.append]
  have hany : (uplinkGPdu teid seq nPduNum ul payload).any = true := by
    simp [GtpMessage.any, uplinkGPdu]
  have htwo : ∀ v : Int, ∃ a b, octetsOfInt 2 v = [a, b] := fun v => ⟨_, _, rfl⟩
  obtain ⟨c, d, hseq⟩ := htwo (seq.getD 0).toNat
  have hencode := encodeGtpMessage_chain hany hwire
  obtain ⟨a, b, hlength⟩ := htwo ((octetsOfInt 2 (seq.getD 0).toNat ++
    ([nPduNum.getD 0] ++ ([0x85 :: UInt8.ofNat
      ((((PduSessionInformation.ul ul).encode []).length + 2) / 4) ::
        (PduSessionInformation.ul ul).encode []].flatten ++ [0])) ++ payload).length : Nat)
  refine ⟨(uplinkGPdu teid seq nPduNum ul payload).flags, a, b, c, d, ?_, ?_⟩
  · cases hs : seq.isSome <;> cases hn : nPduNum.isSome <;>
      simp only [GtpMessage.flags, uplinkGPdu, hs, hn, List.isEmpty_cons] <;> decide
  · rw [hencode, GtpMessage.wire]
    simp only [uplinkGPdu] at hlength ⊢
    rw [hlength, hseq, octetsOfInt_natCast teid.toNat_lt]
    simp

/-- The parser on a packet whose first extension header is a container: a longer one is
refused, and one of four octets that ends the chain ends the header. -/
private theorem gtpuParseHeader_container {flags : UInt8} (hflags : flags &&& gtpuFlagsE ≠ 0)
    (type a b c d n units : UInt8) (teid : UInt32) (content rest room : List UInt8) :
    (units.toNat * 4 > 4 → ∃ headerDesc, gtpuParseHeader ⟨flags :: type :: a :: b ::
      (octetsBE 4 teid.toNat ++ (c :: d :: n :: 0x85 :: units :: content)), room⟩ =
        .ok (none, headerDesc)) ∧
    (∀ first second, units = 1 → content = first :: second :: 0 :: rest →
      gtpuParseHeader ⟨flags :: type :: a :: b ::
        (octetsBE 4 teid.toNat ++ (c :: d :: n :: 0x85 :: units :: content)), room⟩ =
          .ok (some 16, ({ flags, type, teid } : FlaggedHeaderDesc).extract 0x85 first second)) := by
  have hteid : UInt32.ofNat (natBE (octetsBE 4 teid.toNat)) = teid := by
    have hlt : teid.toNat < 256 ^ 4 := teid.toNat_lt
    rw [natBE_octetsBE, Nat.mod_eq_of_lt hlt, UInt32.ofNat_toNat]
  obtain ⟨t3, t2, t1, t0, hoctets⟩ : ∃ t3 t2 t1 t0, octetsBE 4 teid.toNat = [t3, t2, t1, t0] :=
    ⟨_, _, _, _, rfl⟩
  rw [hoctets] at hteid ⊢
  have hword : ∀ pkbuf : Pkbuf, pkbuf.octet 4 = .ok t3 → pkbuf.octet 5 = .ok t2 →
      pkbuf.octet 6 = .ok t1 → pkbuf.octet 7 = .ok t0 → pkbuf.word 4 = .ok teid := by
    intro pkbuf h4 h5 h6 h7
    rw [Pkbuf.word, h4, Fallible.ok_bind, h5, Fallible.ok_bind, h6, Fallible.ok_bind, h7,
      Fallible.ok_bind, hteid]
    rfl
  constructor
  · intro hunits
    refine ⟨{ flags, type, teid }, ?_⟩
    rw [gtpuParseHeader_extension rfl rfl (hword _ rfl rfl rfl rfl) hflags
      (by simp [Pkbuf.len]), gtpuParseExtensionHeaders_long rfl rfl (by decide) hunits]
    rfl
  · rintro first second rfl rfl
    rw [gtpuParseHeader_extension rfl rfl (hword _ rfl rfl rfl rfl) hflags (by simp [Pkbuf.len]),
      gtpuParseExtensionHeaders_step rfl rfl rfl rfl (by decide) (by simp [Pkbuf.len]),
      gtpuParseExtensionHeaders_end rfl, Fallible.ok_bind]
    have hfilter : ∀ n, 16 ≤ n → (some 16).filter (· ≤ n) = some 16 := fun n hn => by
      simp only [Option.filter_some, hn, decide_true, if_true]
    dsimp only
    rw [hfilter _ (by simp [Pkbuf.len])]
    rfl

/-- The QFI that the parser takes from a container without optional parts. -/
private theorem extract_mandatoryOnly {ul : UlPduSessionInformation} (h : MandatoryOnly ul)
    (headerDesc : FlaggedHeaderDesc) :
    let read := headerDesc.extract 0x85 (ulFirst ul) (ranged8 [(2, 0), (6, ul.qfi)])
    read.type = headerDesc.type ∧ read.teid = headerDesc.teid ∧
      (read.qosFlowIdentifier.toNat : Int) = ul.qfi % 2 ^ 6 := by
  have hfirst : ulFirst ul >>> 4 = ogsGtp2ExtensionHeaderPduTypeUlPduSessionInformation := by
    rw [ulFirst, h.qmp, h.dlDelayResult, h.ulDelayResult, h.ulQfiSeq]
    decide
  have hsecond : ((ranged8 [(2, 0), (6, ul.qfi)] &&& 0x3f).toNat : Int) = ul.qfi % 2 ^ 6 := by
    rw [UInt8.toNat_and, show (0x3f : UInt8).toNat = 2 ^ 6 - 1 from rfl,
      Nat.and_two_pow_sub_one_eq_mod]
    simp only [ranged8, List.foldl_cons, List.foldl_nil, ranged8_step, UInt8.toNat_ofNat']
    omega
  intro read
  have hread : read = { headerDesc with
      pduType := ulFirst ul >>> 4
      qosFlowIdentifier := ranged8 [(2, 0), (6, ul.qfi)] &&& 0x3f } :=
    (if_pos rfl).trans (if_pos hfirst)
  rw [hread]
  exact ⟨rfl, rfl, hsecond⟩

/-- The UPF understands a G-PDU of the gNB exactly when the container carries nothing
optional and its QFI has six bits. -/
theorem uplinkAgrees_iff (teid : UInt32) (seq : Option UInt16) (nPduNum : Option UInt8)
    (ul : UlPduSessionInformation) (payload : OctetString) :
    UplinkAgrees teid seq nPduNum ul payload ↔ MandatoryOnly ul ∧ 0 ≤ ul.qfi ∧ ul.qfi < 2 ^ 6 := by
  obtain ⟨flags, a, b, c, d, hflags, hencode⟩ := encode_uplinkGPdu teid seq nPduNum ul payload
  obtain ⟨tail, hinner, hmax, hwords, hmandatory⟩ := encode_uplink ul
  rw [hinner] at hencode
  set units := UInt8.ofNat
    (((ulFirst ul :: ranged8 [(2, 0), (6, ul.qfi)] :: tail).length + 2) / 4) with hunits
  have hunitsNat : units.toNat = (tail.length + 4) / 4 := by
    rw [hunits, UInt8.toNat_ofNat', List.length_cons, List.length_cons]
    omega
  have hcontainer := gtpuParseHeader_container hflags GtpMessage.mtGPdu a b c d
    (nPduNum.getD 0) units teid
    ((ulFirst ul :: ranged8 [(2, 0), (6, ul.qfi)] :: tail) ++ 0 :: payload) payload
  constructor
  · rintro ⟨header, hheader, hparse⟩
    obtain ⟨headerDesc, hrun, -, -, hqfi⟩ := hparse []
    rw [hencode] at hheader
    rw [← Option.some.inj (Except.ok.inj hheader)] at hrun
    obtain ⟨hlong, hshort⟩ := hcontainer []
    have htail : tail.length = 0 := by
      by_contra hne
      obtain ⟨_, hnone⟩ := hlong (by omega)
      rw [hnone] at hrun
      cases (Prod.mk.inj (Except.ok.inj hrun)).1
    have hm := hmandatory.mp htail
    have hone : units = 1 := UInt8.toNat_inj.mp (by rw [hunitsNat, htail]; rfl)
    rw [hshort _ _ hone (by rw [List.length_eq_zero_iff.mp htail]; rfl)] at hrun
    obtain ⟨-, -, hread⟩ := extract_mandatoryOnly hm
      { flags := flags, type := GtpMessage.mtGPdu, teid := teid }
    rw [← (Prod.mk.inj (Except.ok.inj hrun)).2, hread] at hqfi
    exact ⟨hm, by omega⟩
  · rintro ⟨hm, hqfi⟩
    obtain rfl := List.length_eq_zero_iff.mp (hmandatory.mpr hm)
    have hone : units = 1 := UInt8.toNat_inj.mp hunitsNat
    refine ⟨flags :: GtpMessage.mtGPdu :: a :: b :: (octetsBE 4 teid.toNat ++
      [c, d, nPduNum.getD 0, 0x85, units, ulFirst ul, ranged8 [(2, 0), (6, ul.qfi)], 0]), ?_,
      fun room => ?_⟩
    · rw [hencode]
      simp
    · obtain ⟨htype, hteid, hread⟩ := extract_mandatoryOnly hm
        { flags := flags, type := GtpMessage.mtGPdu, teid := teid }
      refine ⟨_, ?_, htype, hteid, by rw [hread]; omega⟩
      have hrun := (hcontainer room).2 _ _ hone rfl
      simpa using hrun

/-! ## Downlink -/

/-- The message that a descriptor stands for: a downlink container with its QFI, the
port and the number, and the packet. -/
def downlinkMessage (headerDesc : FlaggedHeaderDesc) (teid : UInt32) (payload : OctetString) :
    GtpMessage where
  msgType := headerDesc.type
  teid := teid
  extHeaders := [.pduSessionContainerExtHeader (some (.dl
      { qfi := headerDesc.qosFlowIdentifier.toNat }))] ++
    ((headerDesc.udpPort.map .udpPortExtHeader).toList ++
      (headerDesc.pdcpNumber.map .pdcpPduNumberExtHeader).toList)
  payload := payload

/-- The gNB reads the message of the descriptor from the packet sent under the TEID. -/
def DownlinkAgrees (headerDesc : FlaggedHeaderDesc) (teid : UInt32) (pkbuf packet : Pkbuf) :
    Prop :=
  ∃ sent, gtpSendWithTeid packet teid = .ok sent ∧
    decode sent.data = .ok (some (downlinkMessage headerDesc teid pkbuf.data))

/-- The message that is in the packet for every QFI: none gives no container, and a
container holds the six low bits. -/
private def sentMessage (headerDesc : FlaggedHeaderDesc) (teid : UInt32)
    (payload : OctetString) : GtpMessage where
  msgType := headerDesc.type
  teid := teid
  extHeaders := (if headerDesc.qosFlowIdentifier ≠ 0 then
      [.pduSessionContainerExtHeader (some (.dl
        { qfi := (headerDesc.qosFlowIdentifier.toNat % 2 ^ 6 : Nat) }))] else []) ++
    ((headerDesc.udpPort.map .udpPortExtHeader).toList ++
      (headerDesc.pdcpNumber.map .pdcpPduNumberExtHeader).toList)
  payload := payload

/-- The octets of an entry in the chain. -/
private def entryOctets (header : Gtp2ExtensionHeader) : OctetString :=
  [header.type, 1, header.first, header.second]

/-- The gNB writes a header as the UPF writes an entry. -/
private def SameOctets (header : GtpExtHeader) (entry : Gtp2ExtensionHeader) : Prop :=
  ∀ stream, encodeExtensionHeader header stream = .ok (some (stream ++ entryOctets entry))

private theorem sameOctets_number {make : UInt16 → GtpExtHeader} {type : UInt8}
    (h : ∀ n : UInt16, SameOctets (make n) ⟨type, UInt8.ofNat (n.toNat / 256), UInt8.ofNat n.toNat⟩)
    (number : Option UInt16) :
    List.Forall₂ SameOctets (number.map make).toList (numberExtension type number) := by
  cases number with
  | none => exact .nil
  | some n => exact .cons (h n) .nil

private theorem octetsOfInt_number (n : UInt16) :
    octetsOfInt 2 n.toNat = [UInt8.ofNat (n.toNat / 256), UInt8.ofNat n.toNat] := by
  rw [octetsOfInt_natCast n.toNat_lt, octetsBE, octetsBE, octetsBE, Nat.pow_one, Nat.pow_zero,
    Nat.div_one]

private theorem encode_dl (qfi : Int) : (PduSessionInformation.dl { qfi }).encode [] =
    [0, ranged8 [(1, 0), (1, 0), (6, qfi)]] := by
  have hfirst : ranged8 [(4, 0), (1, 0), (1, 0), (2, 0)] = 0 := by decide
  simp [PduSessionInformation.encode, DlPduSessionInformation.encode, OctetString.appendOctet,
    OctetString.appendPadding, paddingLength, Bool.toInt, hfirst]

variable {headerDesc : FlaggedHeaderDesc} {headroom : Nat} {pkbuf packet : Pkbuf} {teid : UInt32}
  {payload : OctetString}

private theorem sameOctets_container
    (hdl : headerDesc.pduType = ogsGtp2ExtensionHeaderPduTypeDlPduSessionInformation) :
    List.Forall₂ SameOctets (if headerDesc.qosFlowIdentifier ≠ 0 then
      [.pduSessionContainerExtHeader (some (.dl
        { qfi := (headerDesc.qosFlowIdentifier.toNat % 2 ^ 6 : Nat) }))] else [])
      headerDesc.container := by
  rw [Gtp2HeaderDesc.container]
  by_cases hqfi : headerDesc.qosFlowIdentifier ≠ 0
  · have hsecond : ranged8 [(1, 0), (1, 0),
        (6, ((headerDesc.qosFlowIdentifier.toNat % 2 ^ 6 : Nat) : Int))] =
          headerDesc.qosFlowIdentifier &&& 0x3f := by
      apply UInt8.toNat_inj.mp
      rw [UInt8.toNat_and, show (0x3f : UInt8).toNat = 2 ^ 6 - 1 from rfl,
        Nat.and_two_pow_sub_one_eq_mod]
      simp only [ranged8, List.foldl_cons, List.foldl_nil, ranged8_step, UInt8.toNat_ofNat']
      omega
    rw [if_pos hqfi, if_pos hqfi, hdl]
    refine .cons (fun stream => ?_) .nil
    have hunits : UInt8.ofNat (([0, headerDesc.qosFlowIdentifier &&& 0x3f].length + 2) / 4) = 1 := by
      simp only [List.length_cons, List.length_nil]
      decide
    simp only [encodeExtensionHeader, encode_dl, hsecond, hunits, OctetString.appendOctet,
      OctetString.append, entryOctets, List.append_assoc]
    rfl
  · rw [if_neg hqfi, if_neg hqfi]
    exact .nil

/-- The chain of the entries is what the gNB writes for the headers. -/
private theorem fillExtensionHeaders_eq (array : List Gtp2ExtensionHeader) :
    nextExtensionType array :: fillExtensionHeaders array =
      (array.map entryOctets).flatten ++ [0] := by
  induction array with
  | nil => rfl
  | cons header array ih =>
    rw [fillExtensionHeaders, ih, List.map_cons, List.flatten_cons]
    rfl

/-- The chain in front of a packet, empty without entries. -/
private def entriesOctets (array : List Gtp2ExtensionHeader) : OctetString :=
  if array = [] then [] else [0, 0, 0] ++ ((array.map entryOctets).flatten ++ [0])

private theorem length_entriesOctets_le (array : List Gtp2ExtensionHeader) :
    (entriesOctets array).length ≤ 4 + 4 * array.length := by
  have hflatten : (array.map entryOctets).flatten.length = 4 * array.length := by
    induction array with
    | nil => rfl
    | cons header array ih =>
      rw [List.map_cons, List.flatten_cons, List.length_append, ih, entryOctets, List.length_cons]
      simp only [List.length_cons, List.length_nil]
      omega
  rw [entriesOctets]
  split
  · exact Nat.zero_le _
  · simp only [List.length_append, hflatten, List.length_cons, List.length_nil]
    omega

private theorem fillOptional_eq (array : List Gtp2ExtensionHeader) :
    fillOptional (fillFlags 0 array) array = entriesOctets array := by
  cases array with
  | nil => rfl
  | cons header array =>
    have hflags : fillFlags 0 (header :: array) = 0x34 := if_neg (List.cons_ne_nil _ _)
    rw [hflags, fillOptional, if_pos (by decide), entriesOctets, if_neg (List.cons_ne_nil _ _),
      ← fillExtensionHeaders_eq]
    rfl

/-- What goes out is what the gNB would encode for the message in it. -/
private theorem encode_sent (hflags : headerDesc.flags = 0)
    (hdl : headerDesc.pduType = ogsGtp2ExtensionHeaderPduTypeDlPduSessionInformation)
    (h : gtp2EncapsulateHeader headerDesc headroom pkbuf = .ok packet) (teid : UInt32) :
    ∃ sent opt, gtpSendWithTeid packet teid = .ok sent ∧ opt.length < 2 ^ 16 ∧
      packet.len = 8 + (opt.length + pkbuf.len) ∧
      sent.data = (sentMessage headerDesc teid pkbuf.data).wire opt ∧
      encodeGtpMessage (sentMessage headerDesc teid pkbuf.data) [] = .ok (some sent.data) := by
  set m := sentMessage headerDesc teid pkbuf.data with hm
  set array := headerDesc.container ++ (numberExtension extensionTypeUdpPort headerDesc.udpPort ++
    numberExtension extensionTypePdcpNumber headerDesc.pdcpNumber) with harray
  have hsame : List.Forall₂ SameOctets m.extHeaders array := by
    refine List.rel_append (sameOctets_container hdl) (List.rel_append
      (sameOctets_number (fun n stream => ?_) _) (sameOctets_number (fun n stream => ?_) _))
    all_goals
      simp only [encodeExtensionHeader, OctetString.appendOctet, OctetString.appendOctet2,
        octetsOfInt_number, entryOctets, List.append_assoc]
      rfl
  have hseq : m.seq = none := rfl
  have hnum : m.nPduNum = none := rfl
  have hnil : m.extHeaders = [] ↔ array = [] := by
    rw [← List.length_eq_zero_iff, ← List.length_eq_zero_iff, hsame.length_eq]
  rw [gtp2EncapsulateHeader, hflags, ← harray] at h
  rw [gtp2FillHeader, fillOptional_eq] at h
  split at h
  · cases h
  cases h
  have hwire : fillFlags 0 array :: headerDesc.type ::
      (octetsBE 2 (UInt16.ofNat ((entriesOctets array).length + pkbuf.len)).toNat ++
        (octetsBE 4 teid.toNat ++ (entriesOctets array ++ pkbuf.data))) =
      m.wire (entriesOctets array) := by
    have hm : m.flags = fillFlags 0 array := by
      by_cases harray : array = []
      · rw [harray, GtpMessage.flags, hnil.mpr harray, hseq, hnum]
        decide
      · rw [fillFlags, if_neg harray, GtpMessage.flags, hseq, hnum,
          List.isEmpty_eq_false_iff.mpr (mt hnil.mp harray)]
        decide
    have hlength : octetsOfInt 2 ((entriesOctets array ++ pkbuf.data).length : Nat) =
        octetsBE 2 (UInt16.ofNat ((entriesOctets array).length + pkbuf.len)).toNat := by
      rw [octetsOfInt, UInt16.toNat_ofNat', List.length_append, Pkbuf.len]
      congr 1
    rw [GtpMessage.wire, hm]
    simp only [m, sentMessage] at hlength ⊢
    rw [hlength, octetsOfInt_natCast teid.toNat_lt]
    rfl
  refine ⟨_, entriesOctets array, gtpSendWithTeid_eq _ _ _ _ [0, 0, 0, 0] _ _ teid rfl, ?_, ?_,
    hwire, ?_⟩
  · have hentries := length_entriesOctets_le array
    have hcount : array.length ≤ 3 := by
      have hcontainer : headerDesc.container.length ≤ 1 := by
        rw [Gtp2HeaderDesc.container]
        split
        · exact Nat.le_refl 1
        · exact Nat.zero_le 1
      have hnumber : ∀ type number, (numberExtension type number).length ≤ 1 := by
        intro type number
        cases number with
        | none => exact Nat.zero_le 1
        | some n => exact Nat.le_refl 1
      have hport := hnumber extensionTypeUdpPort headerDesc.udpPort
      have hpdcp := hnumber extensionTypePdcpNumber headerDesc.pdcpNumber
      rw [harray, List.length_append, List.length_append]
      omega
    omega
  · simp only [Pkbuf.len, List.length_cons, List.length_append, length_octetsBE, List.length_nil]
    omega
  · refine Eq.trans ?_ (congrArg (fun octets => Except.ok (some octets)) hwire.symm)
    by_cases harray : array = []
    · have hany : m.any = false := by
        rw [GtpMessage.any, hseq, hnum, hnil.mpr harray]
        rfl
      rw [harray, encodeGtpMessage_bare hany]
      rfl
    · have hany : m.any = true := by
        rw [GtpMessage.any, List.isEmpty_eq_false_iff.mpr (mt hnil.mp harray)]
        exact Bool.or_true _
      have hzero : octetsOfInt 2 (0 : UInt16).toNat = [0, 0] := by decide
      rw [encodeGtpMessage_chain hany (List.forall₂_map_right_iff.mpr hsame), hseq, hnum,
        Option.getD_none, Option.getD_none, hzero, entriesOctets, if_neg harray]
      rfl

/-- A message that was decoded fills the datagram up to a length of sixteen bits. -/
private theorem length_of_decode {m read : GtpMessage} {opt : OctetString}
    (hopt : opt.length < 2 ^ 16) (h : decode (m.wire opt) = .ok (some read))
    (hpayload : read.payload = m.payload) : opt.length + m.payload.length < 2 ^ 16 := by
  obtain ⟨d, headers, hframed, -, hoctets, rfl⟩ := decode_some h
  have hd : d.payload = m.payload := hpayload
  have hlength := hframed.length
  rw [GtpMessage.wire, Datagram.octets, Datagram.announced, hd] at hoctets
  simp only [List.append_assoc] at hoctets
  obtain ⟨-, hoctets⟩ := List.append_inj hoctets rfl
  obtain ⟨-, hoctets⟩ := List.append_inj hoctets rfl
  obtain ⟨hfield, -⟩ := List.append_inj hoctets (by rw [length_octetsOfInt, length_octetsBE])
  have hnat := congrArg natBE hfield
  rw [octetsOfInt, natBE_octetsBE, natBE_octetsBE, List.length_append] at hnat
  rw [hd] at hlength
  omega

/-- The headers of a packet fit the wire, and none is an uplink container. -/
private theorem fits_of_mem_sentMessage {header : GtpExtHeader}
    (h : header ∈ (sentMessage headerDesc teid payload).extHeaders) :
    header.Fits ∧ header.asDecoded = header := by
  simp only [sentMessage, List.mem_append, Option.mem_toList,
    Option.map_eq_some_iff] at h
  rcases h with h | ⟨port, -, rfl⟩ | ⟨number, -, rfl⟩
  · split at h
    · rw [List.mem_singleton] at h
      subst h
      refine ⟨?_, rfl⟩
      constructor
      · dsimp only
        omega
      · exact fun ppi hppi => absurd hppi (Option.not_mem_none ppi)
      · rfl
      · exact fun ts hts => absurd hts (Option.not_mem_none ts)
      · exact fun seq hseq => absurd hseq (Option.not_mem_none seq)
    · cases h
  · exact ⟨trivial, rfl⟩
  · exact ⟨trivial, rfl⟩

/-- The message in the packet is that of the descriptor when the QFI is one that a
container can carry. -/
private theorem sentMessage_eq_iff :
    sentMessage headerDesc teid payload = downlinkMessage headerDesc teid payload ↔
      0 < headerDesc.qosFlowIdentifier.toNat ∧ headerDesc.qosFlowIdentifier.toNat < 2 ^ 6 := by
  have hzero : headerDesc.qosFlowIdentifier ≠ 0 ↔ 0 < headerDesc.qosFlowIdentifier.toNat := by
    rw [ne_eq, ← UInt8.toNat_inj]
    exact Nat.pos_iff_ne_zero.symm
  constructor
  · intro h
    have hheaders := List.append_cancel_right (congrArg GtpMessage.extHeaders h)
    by_cases hqfi : headerDesc.qosFlowIdentifier ≠ 0
    · rw [if_pos hqfi] at hheaders
      simp only [List.cons.injEq, GtpExtHeader.pduSessionContainerExtHeader.injEq,
        Option.some.injEq, PduSessionInformation.dl.injEq, DlPduSessionInformation.mk.injEq,
        true_and, and_true] at hheaders
      exact ⟨hzero.mp hqfi, by omega⟩
    · rw [if_neg hqfi] at hheaders
      cases hheaders
  · rintro ⟨hpos, hlt⟩
    rw [sentMessage, downlinkMessage, if_pos (hzero.mpr hpos), Nat.mod_eq_of_lt hlt]

/-- The gNB understands a packet of the UPF exactly when the QFI is a proper one of six
bits and the length field does not overflow. -/
theorem downlinkAgrees_iff (hflags : headerDesc.flags = 0)
    (hdl : headerDesc.pduType = ogsGtp2ExtensionHeaderPduTypeDlPduSessionInformation)
    (h : gtp2EncapsulateHeader headerDesc headroom pkbuf = .ok packet) (teid : UInt32) :
    DownlinkAgrees headerDesc teid pkbuf packet ↔
      0 < headerDesc.qosFlowIdentifier.toNat ∧ headerDesc.qosFlowIdentifier.toNat < 2 ^ 6 ∧
        packet.len < 2 ^ 16 + 8 := by
  obtain ⟨sent, opt, hsent, hopt, hlen, hwire, hencode⟩ := encode_sent hflags hdl h teid
  have hfits : (sentMessage headerDesc teid pkbuf.data).Fits :=
    fun header hheader => (fits_of_mem_sentMessage hheader).1
  have hsame : (sentMessage headerDesc teid pkbuf.data).asDecoded =
      sentMessage headerDesc teid pkbuf.data := by
    rw [GtpMessage.asDecoded, List.map_congr_left fun header hheader =>
      (fits_of_mem_sentMessage hheader).2, List.map_id']
  have hpayload : (sentMessage headerDesc teid pkbuf.data).payload.length = pkbuf.len := rfl
  have hsize : sent.data.length = packet.len := by
    rw [hwire, hlen, GtpMessage.wire]
    simp only [List.length_append, List.length_singleton, length_octetsOfInt]
    omega
  have hdecode : packet.len < 2 ^ 16 + 8 → decode sent.data =
      .ok (some (sentMessage headerDesc teid pkbuf.data)) := by
    intro hshort
    rw [decode_encoding hfits hencode (hsize ▸ hshort), hsame]
  constructor
  · rintro ⟨sent', hsent', hread⟩
    rw [hsent] at hsent'
    obtain rfl := Except.ok.inj hsent'
    have hshort : packet.len < 2 ^ 16 + 8 := by
      rw [hwire] at hread
      have hlength := length_of_decode hopt hread rfl
      omega
    rw [hdecode hshort] at hread
    obtain ⟨hpos, hlt⟩ := sentMessage_eq_iff.mp (Option.some.inj (Except.ok.inj hread))
    exact ⟨hpos, hlt, hshort⟩
  · rintro ⟨hpos, hlt, hshort⟩
    refine ⟨sent, hsent, ?_⟩
    rw [hdecode hshort, sentMessage_eq_iff.mpr ⟨hpos, hlt⟩]

/-- The codecs agree on the G-PDUs of the gNB whose container carries only its QFI, and
on the packets of the UPF that carry one and whose length field does not overflow. -/
theorem codecs_agree :
    (∀ teid seq nPduNum ul payload, UplinkAgrees teid seq nPduNum ul payload ↔
      MandatoryOnly ul ∧ 0 ≤ ul.qfi ∧ ul.qfi < 2 ^ 6) ∧
    ∀ (headerDesc : FlaggedHeaderDesc) (headroom : Nat) (pkbuf packet : Pkbuf) (teid : UInt32),
      headerDesc.flags = 0 →
      headerDesc.pduType = ogsGtp2ExtensionHeaderPduTypeDlPduSessionInformation →
      gtp2EncapsulateHeader headerDesc headroom pkbuf = .ok packet →
      (DownlinkAgrees headerDesc teid pkbuf packet ↔
        0 < headerDesc.qosFlowIdentifier.toNat ∧ headerDesc.qosFlowIdentifier.toNat < 2 ^ 6 ∧
          packet.len < 2 ^ 16 + 8) :=
  ⟨uplinkAgrees_iff, fun _ _ _ _ teid hflags hdl h => downlinkAgrees_iff hflags hdl h teid⟩

/-- The descriptor of a G-PDU to a flow, with a port and a PDCP number. -/
def downlinkDesc (qosFlowIdentifier : UInt8) : FlaggedHeaderDesc where
  type := 255
  teid := 7
  qosFlowIdentifier := qosFlowIdentifier
  udpPort := some 2152
  pdcpNumber := some 77

def downlinkPacket : Pkbuf :=
  ⟨[0x34, 255, 0, 17, 0, 0, 0, 0, 0, 0, 0, 133, 1, 0, 9, 64, 1, 8, 104, 192, 1, 0, 77, 0, 0x45], []⟩

theorem codecs_agree_flow : UplinkAgrees 7 none none { qfi := 9 } [0x45] ∧
    DownlinkAgrees (downlinkDesc 9) 7 (.ofData [0x45]) downlinkPacket :=
  ⟨(codecs_agree.1 7 none none { qfi := 9 } [0x45]).mpr
      ⟨⟨rfl, rfl, rfl, rfl⟩, by decide, by decide⟩,
    (codecs_agree.2 (downlinkDesc 9) 24 (.ofData [0x45]) downlinkPacket 7 rfl rfl
      (by decide)).mpr (by decide)⟩

/-- A container with a QFI sequence number is refused by the UPF, and the gNB finds no
container in a packet of the UPF with the QFI zero. -/
theorem codecs_disagree : ¬ UplinkAgrees 7 none none { qfi := 9, ulQfiSeq := some 0 } [0x45] ∧
    ∃ packet, gtp2EncapsulateHeader (downlinkDesc 0) 24 (.ofData [0x45]) = .ok packet ∧
      ¬ DownlinkAgrees (downlinkDesc 0) 7 (.ofData [0x45]) packet := by
  constructor
  · rw [uplinkAgrees_iff]
    exact fun h => absurd h.1.ulQfiSeq (by decide)
  · have hpacket : gtp2EncapsulateHeader (downlinkDesc 0) 24 (.ofData [0x45]) =
        .ok ⟨[0x34, 255, 0, 13, 0, 0, 0, 0, 0, 0, 0, 64, 1, 8, 104, 192, 1, 0, 77, 0, 0x45], []⟩ := by
      decide
    refine ⟨_, hpacket, ?_⟩
    rw [downlinkAgrees_iff rfl rfl hpacket]
    exact fun h => absurd h.1 (by decide)

end Quicup.N3
