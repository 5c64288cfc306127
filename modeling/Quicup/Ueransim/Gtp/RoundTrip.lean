import Quicup.Ueransim.Gtp.Proto

/-!
# Round trip of GTP-U messages

Each reader of the decoder returns what the encoder wrote on exactly the octets
it wrote, whatever follows them. The only field that is read from other bits
than it is written to is the QFI of an uplink container, so decoding an encoding
returns the message `asDecoded`.
-/

namespace Quicup.Ueransim

/-! ## Messages whose fields fit the wire -/

structure DlPduSessionInformation.Fits (dl : DlPduSessionInformation) : Prop where
  qfi : 0 ≤ dl.qfi ∧ dl.qfi < 2 ^ 6
  ppi : ∀ ppi ∈ dl.ppi, 0 ≤ ppi ∧ ppi < 2 ^ 3
  timeStamps : dl.dlSendingTs.isSome = dl.qmp
  dlSendingTs : ∀ ts ∈ dl.dlSendingTs, -2 ^ 63 ≤ ts ∧ ts < 2 ^ 63
  dlQfiSeq : ∀ seq ∈ dl.dlQfiSeq, 0 ≤ seq ∧ seq < 2 ^ 24

structure UlPduSessionInformation.Fits (ul : UlPduSessionInformation) : Prop where
  qfi : 0 ≤ ul.qfi ∧ ul.qfi < 2 ^ 6
  timeStamps : ul.dlSendingTsRepeated.isSome = ul.qmp ∧ ul.dlReceivedTs.isSome = ul.qmp ∧
    ul.ulSendingTs.isSome = ul.qmp
  dlSendingTsRepeated : ∀ ts ∈ ul.dlSendingTsRepeated, -2 ^ 63 ≤ ts ∧ ts < 2 ^ 63
  dlReceivedTs : ∀ ts ∈ ul.dlReceivedTs, -2 ^ 63 ≤ ts ∧ ts < 2 ^ 63
  ulSendingTs : ∀ ts ∈ ul.ulSendingTs, -2 ^ 63 ≤ ts ∧ ts < 2 ^ 63
  ulQfiSeq : ∀ seq ∈ ul.ulQfiSeq, 0 ≤ seq ∧ seq < 2 ^ 24

/-- The other number fields have the width of their type already. -/
def GtpExtHeader.Fits : GtpExtHeader → Prop
  | .longPdcpPduNumberExtHeader num => 0 ≤ num ∧ num < 2 ^ 18
  | .pduSessionContainerExtHeader (some (.dl dl)) => dl.Fits
  | .pduSessionContainerExtHeader (some (.ul ul)) => ul.Fits
  | _ => True

/-- Every field of the message fits its wire width. -/
def GtpMessage.Fits (m : GtpMessage) : Prop := ∀ header ∈ m.extHeaders, header.Fits

/-! ## What the decoder makes of an uplink QFI -/

/-- The three bits above bit five of the QFI octet, the lowest of them its own. -/
def UlPduSessionInformation.asDecoded (ul : UlPduSessionInformation) : UlPduSessionInformation :=
  { ul with qfi := ul.qfi / 2 ^ 5 }

def GtpExtHeader.asDecoded : GtpExtHeader → GtpExtHeader
  | .pduSessionContainerExtHeader (some (.ul ul)) =>
    .pduSessionContainerExtHeader (some (.ul ul.asDecoded))
  | header => header

def GtpMessage.asDecoded (m : GtpMessage) : GtpMessage :=
  { m with extHeaders := m.extHeaders.map GtpExtHeader.asDecoded }

/-! ## Optional fields and padding -/

section Fields

variable {i : Nat} {α β : Type}

/-- Octets of an optional field. -/
def optOctets (enc : β → List UInt8) (o : Option β) : List UInt8 := o.elim [] enc

/-- An optional field is read back when its flag is set exactly if it was written. -/
theorem readWhen_reads {present : Bool} (enc : β → List UInt8) {o : Option β} {p : Read β}
    (hpresent : present = o.isSome) (h : ∀ b ∈ o, Reads p i (enc b) b) :
    Reads (readWhen present p) i (optOctets enc o) o := by
  subst hpresent
  cases o with
  | none => exact Reads.pure none
  | some b => exact (h b rfl).bind_end (f := fun v => Pure.pure (some v)) (Reads.pure _)

/-- Octets of padding behind `n` octets of fields. -/
def padding (n : Nat) : List UInt8 := List.replicate (paddingLength n) 0

/-- The padding behind `n` octets of fields is what the decoder skips there. -/
theorem readPadding_reads {start n : Nat} (hn : i = start + n) :
    Reads (readPadding start) i (padding n) () := by
  subst hn
  refine currentIndex_reads.bind_nil ?_
  unfold padding paddingLength
  rw [Nat.add_sub_cancel_left]
  by_cases h : (n - 2) % 4 ≠ 0
  · rw [if_pos h, if_pos h]
    refine Reads.bind_end (a := List.replicate (4 - (n - 2) % 4) 0) ?_ (Reads.pure ())
    have hr := readOctetString_reads (i := start + n) (List.replicate (4 - (n - 2) % 4) 0)
    rwa [List.length_replicate] at hr
  · rw [if_neg h, if_neg h]
    exact Reads.pure ()

end Fields

/-! ## Bit fields of the containers -/

section BitFields

private theorem dl_flags (qmp snp : Bool) :
    let octet := ranged8 [(4, 0), (1, qmp.toInt), (1, snp.toInt), (2, 0)]
    bitRange8 4 7 octet = 0 ∧ bitAt 3 octet = qmp ∧ bitAt 2 octet = snp := by
  cases qmp <;> cases snp <;> decide

private theorem ul_flags (qmp dlDelay ulDelay snp : Bool) :
    let octet := ranged8 [(4, 1), (1, qmp.toInt), (1, dlDelay.toInt), (1, ulDelay.toInt),
      (1, snp.toInt)]
    bitRange8 4 7 octet = 1 ∧ bitAt 3 octet = qmp ∧ bitAt 2 octet = dlDelay ∧
      bitAt 1 octet = ulDelay ∧ bitAt 0 octet = snp := by
  cases qmp <;> cases dlDelay <;> cases ulDelay <;> cases snp <;> decide

variable {qfi : Int}

private theorem dl_qfi (ppp rqi : Bool) (h0 : 0 ≤ qfi) (h : qfi < 2 ^ 6) :
    let octet := ranged8 [(1, ppp.toInt), (1, rqi.toInt), (6, qfi)]
    (bitRange8 0 5 octet : Int) = qfi ∧ bitAt 6 octet = rqi ∧ bitAt 7 octet = ppp := by
  have hq : (qfi % (2 ^ 6 : Nat)).toNat = qfi.toNat := by omega
  have hb : ∀ b : Bool, (b.toInt % (2 ^ 1 : Nat)).toNat = b.toNat := by decide
  intro octet
  have ho : octet.toNat = ppp.toNat * 128 + rqi.toNat * 64 + qfi.toNat := by
    simp only [octet, ranged8, List.foldl_cons, List.foldl_nil, ranged8_step, hq, hb,
      UInt8.toNat_ofNat']
    have := Bool.toNat_le ppp
    have := Bool.toNat_le rqi
    omega
  simp only [bitRange8_eq, bitAt_eq, ho]
  cases ppp <;> cases rqi <;> simp only [Bool.toNat_false, Bool.toNat_true, decide_eq_false_iff_not,
    decide_eq_true_eq] <;> omega

private theorem dl_ppi {ppi : Int} (h0 : 0 ≤ ppi) (h : ppi < 2 ^ 3) :
    (bitRange8 5 7 (ranged8 [(3, ppi), (5, 0)]) : Int) = ppi := by
  have hp : (ppi % (2 ^ 3 : Nat)).toNat = ppi.toNat := by omega
  simp only [bitRange8_eq, ranged8, List.foldl_cons, List.foldl_nil, ranged8_step, hp,
    UInt8.toNat_ofNat']
  omega

private theorem ul_qfi (h0 : 0 ≤ qfi) (h : qfi < 2 ^ 6) :
    (bitRange8 5 7 (ranged8 [(2, 0), (6, qfi)]) : Int) = qfi / 2 ^ 5 := by
  have hq : (qfi % (2 ^ 6 : Nat)).toNat = qfi.toNat := by omega
  simp only [bitRange8_eq, ranged8, List.foldl_cons, List.foldl_nil, ranged8_step, hq,
    UInt8.toNat_ofNat']
  omega

end BitFields

/-! ## Containers -/

/-- The fields of a downlink container in front of the padding. -/
def DlPduSessionInformation.fields (dl : DlPduSessionInformation) : List UInt8 :=
  [ranged8 [(4, 0), (1, dl.qmp.toInt), (1, dl.dlQfiSeq.isSome.toInt), (2, 0)]] ++
    ([ranged8 [(1, dl.ppi.isSome.toInt), (1, dl.rqi.toInt), (6, dl.qfi)]] ++
      (optOctets (fun ppi => [ranged8 [(3, ppi), (5, 0)]]) dl.ppi ++
        (optOctets (octetsOfInt 8) dl.dlSendingTs ++ optOctets (octetsOfInt 3) dl.dlQfiSeq)))

/-- The fields of an uplink container in front of the padding. -/
def UlPduSessionInformation.fields (ul : UlPduSessionInformation) : List UInt8 :=
  [ranged8 [(4, 1), (1, ul.qmp.toInt), (1, ul.dlDelayResult.isSome.toInt),
      (1, ul.ulDelayResult.isSome.toInt), (1, ul.ulQfiSeq.isSome.toInt)]] ++
    ([ranged8 [(2, 0), (6, ul.qfi)]] ++
      (optOctets (octetsOfInt 8) ul.dlSendingTsRepeated ++
        (optOctets (octetsOfInt 8) ul.dlReceivedTs ++
          (optOctets (octetsOfInt 8) ul.ulSendingTs ++
            (optOctets (fun result => octetsOfInt 4 (UInt32.toNat result)) ul.dlDelayResult ++
              (optOctets (fun result => octetsOfInt 4 (UInt32.toNat result)) ul.ulDelayResult ++
                optOctets (octetsOfInt 3) ul.ulQfiSeq))))))

/-- A container is its fields and their padding. -/
theorem DlPduSessionInformation.Fits.encode_eq {dl : DlPduSessionInformation} (h : dl.Fits)
    (stream : OctetString) :
    dl.encode stream = stream ++ (dl.fields ++ padding dl.fields.length) := by
  have hts := h.timeStamps
  obtain ⟨qmp, qfi, rqi, ppi, ts, seq⟩ := dl
  simp only at hts
  subst hts
  cases ppi <;> cases ts <;> cases seq <;>
    simp [DlPduSessionInformation.encode, DlPduSessionInformation.fields, optOctets, padding,
      OctetString.appendOctet, OctetString.appendOctet3, OctetString.appendOctet8,
      OctetString.appendPadding]

theorem UlPduSessionInformation.Fits.encode_eq {ul : UlPduSessionInformation} (h : ul.Fits)
    (stream : OctetString) :
    ul.encode stream = stream ++ (ul.fields ++ padding ul.fields.length) := by
  obtain ⟨h1, h2, h3⟩ := h.timeStamps
  obtain ⟨qmp, qfi, ts1, ts2, ts3, dlDelay, ulDelay, seq⟩ := ul
  simp only at h1 h2 h3
  cases ts1 <;> cases ts2 <;> cases ts3 <;>
    simp only [Option.isSome_none, Option.isSome_some] at h1 h2 h3 <;> subst h1 <;>
    simp only [Bool.false_eq_true, reduceCtorEq] at h2 h3
  all_goals
    cases dlDelay <;> cases ulDelay <;> cases seq <;>
      simp [UlPduSessionInformation.encode, UlPduSessionInformation.fields, optOctets, padding,
        OctetString.appendOctet, OctetString.appendOctet3, OctetString.appendOctet4,
        OctetString.appendOctet8, OctetString.appendPadding]

section Containers

variable {i : Nat}

private theorem read3I_seq {seq : Int} (h : 0 ≤ seq ∧ seq < 2 ^ 24) :
    Reads (do let v ← read3I; return (v : Int)) i (octetsOfInt 3 seq) seq := by
  have hr := (read3I_reads (i := i) h.1 h.2).bind_end
    (f := fun (v : Nat) => (Pure.pure (v : Int) : Read Int)) (Reads.pure _)
  rwa [Int.toNat_of_nonneg h.1] at hr

/-- A downlink container is read back as it was written. -/
theorem DlPduSessionInformation.Fits.decode_reads {dl : DlPduSessionInformation} (h : dl.Fits) :
    Reads PduSessionInformation.decode i (dl.fields ++ padding dl.fields.length)
      (some (.dl dl)) := by
  obtain ⟨htype, hqmp, hsnp⟩ := dl_flags dl.qmp dl.dlQfiSeq.isSome
  obtain ⟨hqfi, hrqi, hppp⟩ := dl_qfi dl.ppi.isSome dl.rqi h.qfi.1 h.qfi.2
  generalize hn : dl.fields.length = n
  unfold PduSessionInformation.decode
  refine currentIndex_reads.bind_nil ?_
  rw [DlPduSessionInformation.fields, List.append_assoc]
  refine (readOctet_reads _).bind ?_
  simp only [htype, if_true]
  refine Reads.bind_end (a := dl) ?_ (Reads.pure _)
  unfold DlPduSessionInformation.decode
  simp only [hqmp, hsnp, List.append_assoc]
  refine (readOctet_reads _).bind ?_
  simp only [hqfi, hrqi, hppp]
  refine (readWhen_reads _ rfl fun ppi hppi => ?_).bind ?_
  · have hr := (readOctet_reads (i := i + 1 + 1) (ranged8 [(3, ppi), (5, 0)])).bind_end
      (f := fun octet => (Pure.pure (bitRange8 5 7 octet : Int) : Read Int)) (Reads.pure _)
    rwa [dl_ppi (h.ppi ppi hppi).1 (h.ppi ppi hppi).2] at hr
  refine (readWhen_reads _ h.timeStamps.symm fun ts hts => ?_).bind ?_
  · exact read8L_reads (h.dlSendingTs ts hts).1 (h.dlSendingTs ts hts).2
  refine (readWhen_reads (octetsOfInt 3) rfl fun seq hseq =>
    read3I_seq (h.dlQfiSeq seq hseq)).bind ?_
  refine Reads.bind_end (a := ()) (readPadding_reads ?_) (Reads.pure _)
  simp only [← hn, DlPduSessionInformation.fields, List.length_append, List.length_singleton]
  omega

/-- An uplink container is read back with the high bits of its QFI octet as QFI. -/
theorem UlPduSessionInformation.Fits.decode_reads {ul : UlPduSessionInformation} (h : ul.Fits) :
    Reads PduSessionInformation.decode i (ul.fields ++ padding ul.fields.length)
      (some (.ul ul.asDecoded)) := by
  obtain ⟨htype, hqmp, hdl, hul, hsnp⟩ :=
    ul_flags ul.qmp ul.dlDelayResult.isSome ul.ulDelayResult.isSome ul.ulQfiSeq.isSome
  have hqfi := ul_qfi h.qfi.1 h.qfi.2
  generalize hn : ul.fields.length = n
  unfold PduSessionInformation.decode
  refine currentIndex_reads.bind_nil ?_
  rw [UlPduSessionInformation.fields, List.append_assoc]
  refine (readOctet_reads _).bind ?_
  simp only [htype, Nat.one_ne_zero, if_false, if_true]
  refine Reads.bind_end (a := ul.asDecoded) ?_ (Reads.pure _)
  unfold UlPduSessionInformation.decode
  simp only [hqmp, hdl, hul, hsnp, List.append_assoc]
  refine (readOctet_reads _).bind ?_
  simp only [hqfi]
  refine (readWhen_reads _ h.timeStamps.1.symm fun ts hts => ?_).bind ?_
  · exact read8L_reads (h.dlSendingTsRepeated ts hts).1 (h.dlSendingTsRepeated ts hts).2
  refine (readWhen_reads _ h.timeStamps.2.1.symm fun ts hts => ?_).bind ?_
  · exact read8L_reads (h.dlReceivedTs ts hts).1 (h.dlReceivedTs ts hts).2
  refine (readWhen_reads _ h.timeStamps.2.2.symm fun ts hts => ?_).bind ?_
  · exact read8L_reads (h.ulSendingTs ts hts).1 (h.ulSendingTs ts hts).2
  refine (readWhen_reads _ rfl fun result _ => read4UI_reads result).bind ?_
  refine (readWhen_reads _ rfl fun result _ => read4UI_reads result).bind ?_
  refine (readWhen_reads (octetsOfInt 3) rfl fun seq hseq =>
    read3I_seq (h.ulQfiSeq seq hseq)).bind ?_
  refine Reads.bind_end (a := ()) (readPadding_reads ?_) (Reads.pure _)
  simp only [← hn, UlPduSessionInformation.fields, List.length_append, List.length_singleton]
  omega

end Containers

/-! ## Extension headers -/

section Headers

variable {num : Int} {header : GtpExtHeader} {headers : List GtpExtHeader}

private theorem longPdcp_octets (h0 : 0 ≤ num) (h : num < 2 ^ 18) :
    (((((UInt8.ofInt (num / 2 ^ 16 % 4)).toNat &&& 0b11) <<< 8 |||
      (UInt8.ofInt (num / 2 ^ 8)).toNat) <<< 8 ||| (UInt8.ofInt num).toNat : Nat) : Int) = num := by
  obtain ⟨n, rfl⟩ := Int.eq_ofNat_of_zero_le h0
  have ha : (UInt8.ofInt ((n : Int) / 2 ^ 16 % 4)).toNat = n / 2 ^ 16 := by
    rw [toNat_ofInt]
    omega
  have hb : (UInt8.ofInt ((n : Int) / 2 ^ 8)).toNat = n / 2 ^ 8 % 2 ^ 8 := by
    rw [toNat_ofInt]
    omega
  have hc : (UInt8.ofInt (n : Int)).toNat = n % 2 ^ 8 := by
    rw [toNat_ofInt]
    omega
  rw [ha, hb, hc, show (0b11 : Nat) = 2 ^ 2 - 1 from rfl, Nat.and_two_pow_sub_one_eq_mod,
    ← Nat.shiftLeft_add_eq_or_of_lt (Nat.mod_lt _ (by norm_num)),
    ← Nat.shiftLeft_add_eq_or_of_lt (Nat.mod_lt _ (by norm_num)), Nat.shiftLeft_eq,
    Nat.shiftLeft_eq]
  omega

variable {i : Nat} {stream out : OctetString}

private theorem longPdcp_reads (h0 : 0 ≤ num) (h : num < 2 ^ 18) :
    Reads (decodeLongPdcpPduNumberExtHeader 2) i
      [UInt8.ofInt (num / 2 ^ 16 % 4), UInt8.ofInt (num / 2 ^ 8), UInt8.ofInt num]
      (some (.longPdcpPduNumberExtHeader num)) := by
  unfold decodeLongPdcpPduNumberExtHeader
  rw [if_neg (by decide)]
  refine Reads.bind (d := [_, _]) (readI_reads _) ?_
  refine Reads.bind (d := [_]) (readI_reads _) ?_
  refine (readI_reads _).bind_end ?_
  rw [longPdcp_octets h0 h]
  exact Reads.pure _

private theorem pdcp_reads (num : UInt16) :
    Reads (decodePdcpPduNumberExtHeader 1) i (octetsOfInt 2 num.toNat)
      (some (.pdcpPduNumberExtHeader num)) := by
  unfold decodePdcpPduNumberExtHeader
  rw [if_neg (by decide)]
  exact (read2US_reads num).bind_end (Reads.pure _)

private theorem udpPort_reads (port : UInt16) :
    Reads (decodeUdpPortExtHeader 1) i (octetsOfInt 2 port.toNat)
      (some (.udpPortExtHeader port)) := by
  unfold decodeUdpPortExtHeader
  rw [if_neg (by decide)]
  exact (read2US_reads port).bind_end (Reads.pure _)

private theorem container_reads {info : PduSessionInformation}
    (h : (GtpExtHeader.pduSessionContainerExtHeader (some info)).Fits) {len : Nat} :
    Reads (decodePduSessionContainerExtHeader len) i (info.encode [])
      (some (GtpExtHeader.pduSessionContainerExtHeader (some info)).asDecoded) := by
  cases info with
  | dl dl =>
    have hd : dl.Fits := h
    rw [PduSessionInformation.encode, hd.encode_eq, List.nil_append]
    exact hd.decode_reads.bind_end (Reads.pure _)
  | ul ul =>
    have hu : ul.Fits := h
    rw [PduSessionInformation.encode, hu.encode_eq, List.nil_append]
    exact hu.decode_reads.bind_end (Reads.pure _)

/-- An accepted header is a type, a length and a content that decode to it. -/
theorem encodeExtensionHeader_reads (h : header.Fits)
    (he : encodeExtensionHeader header stream = .ok (some out)) :
    ∃ (type len : UInt8) (content : List UInt8), type ≠ 0 ∧
      out = stream ++ type :: len :: content ∧
      ∀ i, Reads (decodeExtHeader type.toNat len.toNat) i content (some (some header.asDecoded)) := by
  cases header with
  | longPdcpPduNumberExtHeader num =>
    refine ⟨0b10000010, 2, _, by decide, ?_, fun i => (longPdcp_reads h.1 h.2).map some⟩
    simpa [encodeExtensionHeader, OctetString.appendOctet] using he.symm
  | nrRanContainerExtHeader => cases he
  | pdcpPduNumberExtHeader num =>
    refine ⟨0b11000000, 1, _, by decide, ?_, fun i => (pdcp_reads num).map some⟩
    simpa [encodeExtensionHeader, OctetString.appendOctet, OctetString.appendOctet2] using he.symm
  | pduSessionContainerExtHeader info =>
    cases info with
    | none => cases he
    | some info =>
      refine ⟨0b10000101, UInt8.ofNat (((info.encode []).length + 2) / 4), info.encode [],
        by decide, ?_, fun i => (container_reads h).map some⟩
      simpa [encodeExtensionHeader, OctetString.appendOctet, OctetString.append] using he.symm
  | udpPortExtHeader port =>
    refine ⟨0b01000000, 1, _, by decide, ?_, fun i => (udpPort_reads port).map some⟩
    simpa [encodeExtensionHeader, OctetString.appendOctet, OctetString.appendOctet2] using he.symm

private theorem encodeExtensionHeaders_cons
    (he : encodeExtensionHeaders (header :: headers) stream = .ok (some out)) :
    ∃ mid, encodeExtensionHeader header stream = .ok (some mid) ∧
      encodeExtensionHeaders headers mid = .ok (some out) := by
  rw [encodeExtensionHeaders] at he
  cases hh : encodeExtensionHeader header stream with
  | error f =>
    rw [hh] at he
    cases he
  | ok r =>
    rw [hh] at he
    cases r with
    | none => cases he
    | some mid => exact ⟨mid, rfl, he⟩

/-- An accepted list of headers, closed by a zero type, is a chain that decodes to it. -/
theorem encodeExtensionHeaders_reads (h : ∀ x ∈ headers, x.Fits)
    (he : encodeExtensionHeaders headers stream = .ok (some out)) :
    ∃ (type : UInt8) (chain : List UInt8), out ++ [0] = stream ++ type :: chain ∧
      ∀ i, ∃ visited, ∀ fuel, chain.length ≤ fuel → Reads (decodeExtHeaders fuel type.toNat) i chain
        (some ⟨headers.map GtpExtHeader.asDecoded, visited⟩) := by
  induction headers generalizing stream with
  | nil =>
    obtain rfl : stream = out := by simpa [encodeExtensionHeaders] using he
    refine ⟨0, [], rfl, fun i => ⟨[], fun fuel _ => ?_⟩⟩
    cases fuel <;> exact Reads.pure _
  | cons header headers ih =>
    obtain ⟨mid, hmid, hout⟩ := encodeExtensionHeaders_cons he
    obtain ⟨type, len, content, htype, rfl, hread⟩ :=
      encodeExtensionHeader_reads (h header List.mem_cons_self) hmid
    obtain ⟨next, chain, hchain, hreads⟩ := ih (fun x hx => h x (List.mem_cons_of_mem _ hx)) hout
    refine ⟨type, len :: (content ++ next :: chain), by simp [hchain], fun i => ?_⟩
    obtain ⟨visited, hv⟩ := hreads (i + 1 + content.length + 1)
    refine ⟨(i, type.toNat) :: visited, fun fuel hfuel => ?_⟩
    rw [List.length_cons, List.length_append, List.length_cons] at hfuel
    obtain ⟨fuel, rfl⟩ : ∃ n, fuel = n + 1 := ⟨fuel - 1, by omega⟩
    obtain ⟨k, hk⟩ : ∃ k, type.toNat = k + 1 := Nat.exists_eq_succ_of_ne_zero
      fun h0 => htype (UInt8.toNat_inj.mp h0)
    rw [hk, decodeExtHeaders]
    refine currentIndex_reads.bind_nil (Reads.bind (c := [len]) (readI_reads len) ?_)
    rw [← hk]
    refine (hread (i + 1)).bind ?_
    refine Reads.bind (c := [next]) (readI_reads next) ?_
    exact (hv fuel (by omega)).bind_end (Reads.pure _)

end Headers

/-! ## Messages -/

section Messages

variable {i : Nat} {m : GtpMessage} {octets : OctetString} {wires : List OctetString}

/-- The first octet of a message. -/
def GtpMessage.flags (m : GtpMessage) : UInt8 :=
  ranged8 [(3, 1), (1, 1), (1, 0), (1, (!m.extHeaders.isEmpty).toInt), (1, m.seq.isSome.toInt),
    (1, m.nPduNum.isSome.toInt)]

private theorem message_flags (e s pn : Bool) :
    let octet := ranged8 [(3, 1), (1, 1), (1, 0), (1, e.toInt), (1, s.toInt), (1, pn.toInt)]
    bitRange8 5 7 octet = 1 ∧ bitRange8 4 4 octet = 1 ∧ bitAt 2 octet = e ∧ bitAt 1 octet = s ∧
      bitAt 0 octet = pn := by
  cases e <;> cases s <;> cases pn <;> decide

/-- Whether the optional word is written. -/
def GtpMessage.any (m : GtpMessage) : Bool :=
  m.nPduNum.isSome || m.seq.isSome || !m.extHeaders.isEmpty

/-- The mandatory header as it is before the length is patched in. -/
private def dummyHeader (m : GtpMessage) : OctetString :=
  m.flags :: m.msgType :: 0 :: 0 :: octetsOfInt 4 m.teid.toNat

/-- The two leading fields of the optional word. -/
private def optionalWord (m : GtpMessage) : OctetString :=
  octetsOfInt 2 (m.seq.getD 0).toNat ++ [m.nPduNum.getD 0]

private theorem octetsOfInt_two (n : Nat) :
    octetsOfInt 2 n = [UInt8.ofNat (n / 256), UInt8.ofNat n] := by
  have h1 : UInt8.ofNat (((n : Int) % (256 ^ 2 : Nat)).toNat / 256 ^ 1) = UInt8.ofNat (n / 256) := by
    apply UInt8.toNat_inj.mp
    rw [UInt8.toNat_ofNat', UInt8.toNat_ofNat']
    omega
  have h0 : UInt8.ofNat (((n : Int) % (256 ^ 2 : Nat)).toNat / 256 ^ 0) = UInt8.ofNat n := by
    apply UInt8.toNat_inj.mp
    rw [UInt8.toNat_ofNat', UInt8.toNat_ofNat']
    omega
  rw [octetsOfInt, octetsBE, octetsBE, octetsBE, h1, h0]

/-- The octets of a message around its optional part. -/
def GtpMessage.wire (m : GtpMessage) (opt : List UInt8) : List UInt8 :=
  [m.flags] ++ ([m.msgType] ++ (octetsOfInt 2 ((opt ++ m.payload).length : Nat) ++
    (octetsOfInt 4 m.teid.toNat ++ (opt ++ m.payload))))

/-- Patching the length into the dummy octets of the header. -/
private theorem patch_length (m : GtpMessage) (opt : List UInt8) :
    let stream := OctetString.append (dummyHeader m ++ opt) m.payload
    (stream.set 2 (UInt8.ofNat ((stream.length - 8) / 256))).set 3
      (UInt8.ofNat (stream.length - 8)) = m.wire opt := by
  have hl : (dummyHeader m ++ opt ++ m.payload).length - 8 = (opt ++ m.payload).length := by
    simp only [dummyHeader, List.length_append, List.length_cons, length_octetsOfInt]
    omega
  simp only [OctetString.append, hl, GtpMessage.wire, octetsOfInt_two]
  rw [List.append_assoc]
  rfl

private theorem optional_prefix (m : GtpMessage) :
    ((((((OctetString.appendOctet [] m.flags).appendOctet m.msgType).appendOctet2 0).appendOctet4
      m.teid.toNat).appendOctet2 (m.seq.getD 0).toNat).appendOctet (m.nPduNum.getD 0)) =
      dummyHeader m ++ optionalWord m := by
  have h0 : octetsOfInt 2 0 = [0, 0] := by decide
  simp [OctetString.appendOctet, OctetString.appendOctet2, OctetString.appendOctet4, dummyHeader,
    optionalWord, h0]

/-- What an encoding says about the optional part. -/
theorem encodeGtpMessage_eq (he : encodeGtpMessage m [] = .ok (some octets)) :
    (m.any = false → octets = m.wire []) ∧
      (m.any = true → ∃ out, encodeExtensionHeaders m.extHeaders
        (dummyHeader m ++ optionalWord m) = .ok (some out) ∧
          ∀ opt, out ++ [0] = dummyHeader m ++ opt → octets = m.wire opt) := by
  unfold encodeGtpMessage at he
  refine ⟨fun hany => ?_, fun hany => ?_⟩
  · rw [if_neg (by rw [← GtpMessage.any, hany]; decide)] at he
    have hp := patch_length m []
    rw [List.append_nil] at hp
    exact (Option.some.inj (Except.ok.inj he)).symm.trans hp
  · rw [if_pos (by rw [← GtpMessage.any, hany])] at he
    dsimp only at he
    rw [← GtpMessage.flags, optional_prefix] at he
    cases hx : encodeExtensionHeaders m.extHeaders (dummyHeader m ++ optionalWord m) with
    | error f =>
      rw [hx] at he
      cases he
    | ok r =>
      rw [hx] at he
      cases r with
      | none => cases he
      | some out =>
        refine ⟨out, rfl, fun opt hopt => ?_⟩
        have hp := patch_length m opt
        rw [← hopt] at hp
        exact (Option.some.inj (Except.ok.inj he)).symm.trans hp

/-- Headers that are all accepted are written one after the other. -/
theorem encodeExtensionHeaders_append {headers : List GtpExtHeader}
    (h : List.Forall₂ (fun header wire => ∀ stream, encodeExtensionHeader header stream =
      .ok (some (stream ++ wire))) headers wires) (stream : OctetString) :
    encodeExtensionHeaders headers stream = .ok (some (stream ++ wires.flatten)) := by
  induction h generalizing stream with
  | nil => rw [List.flatten_nil, List.append_nil, encodeExtensionHeaders]
  | @cons header wire headers wires hheader hheaders ih =>
    rw [encodeExtensionHeaders, hheader, List.flatten_cons, ← List.append_assoc]
    exact ih (stream ++ wire)

/-- A message without an optional part is its mandatory header and its payload. -/
theorem encodeGtpMessage_bare (hany : m.any = false) :
    encodeGtpMessage m [] = .ok (some (m.wire [])) := by
  have hp := patch_length m []
  rw [List.append_nil] at hp
  unfold encodeGtpMessage
  rw [if_neg (by rw [← GtpMessage.any, hany]; decide)]
  exact congrArg (fun octets => Except.ok (some octets)) hp

/-- The optional part of a message is its word, the headers and the closing type. -/
theorem encodeGtpMessage_chain (hany : m.any = true)
    (h : List.Forall₂ (fun header wire => ∀ stream, encodeExtensionHeader header stream =
      .ok (some (stream ++ wire))) m.extHeaders wires) :
    encodeGtpMessage m [] = .ok (some (m.wire (octetsOfInt 2 (m.seq.getD 0).toNat ++
      ([m.nPduNum.getD 0] ++ (wires.flatten ++ [0]))))) := by
  have hp := patch_length m (optionalWord m ++ (wires.flatten ++ [0]))
  rw [← List.append_assoc, ← List.append_assoc] at hp
  unfold encodeGtpMessage
  rw [if_pos (by rw [← GtpMessage.any, hany])]
  dsimp only
  rw [← GtpMessage.flags, optional_prefix, encodeExtensionHeaders_append h]
  rw [← List.append_assoc, ← optionalWord]
  exact congrArg (fun octets => Except.ok (some octets)) hp

/-- The message without what its optional part says. -/
private def bare (m : GtpMessage) : GtpMessage := { msgType := m.msgType, teid := m.teid }

/-- The optional part of an encoding is read back. -/
private theorem decodeOptional_reads (h : m.Fits) (he : encodeGtpMessage m [] = .ok (some octets)) :
    ∃ opt visited, octets = m.wire opt ∧ Reads (decodeOptional (bare m) m.flags) i opt
      (some ({ m.asDecoded with payload := [] }, visited)) := by
  obtain ⟨hnone, hsome⟩ := encodeGtpMessage_eq he
  obtain ⟨-, -, he2, he1, he0⟩ :=
    message_flags (!m.extHeaders.isEmpty) m.seq.isSome m.nPduNum.isSome
  rw [← GtpMessage.flags] at he2 he1 he0
  have hcond : (m.seq.isSome || m.nPduNum.isSome || !m.extHeaders.isEmpty) = m.any := by
    rw [GtpMessage.any, Bool.or_comm m.seq.isSome]
  have hseq : (if m.seq.isSome then some (UInt16.ofNat (m.seq.getD 0).toNat) else none) = m.seq := by
    cases m.seq <;> simp
  have hpn : (if m.nPduNum.isSome then some (m.nPduNum.getD 0) else none) = m.nPduNum := by
    cases m.nPduNum <;> simp
  cases hany : m.any with
  | false =>
    refine ⟨[], [], hnone hany, ?_⟩
    unfold decodeOptional
    simp only [he2, he1, he0, hcond, hany, Bool.false_eq_true, if_false]
    simp only [GtpMessage.any, Bool.or_eq_false_iff, Option.isSome_eq_false_iff,
      Option.isNone_iff_eq_none, Bool.not_eq_false', List.isEmpty_iff] at hany
    obtain ⟨⟨h1, h2⟩, h3⟩ := hany
    have hm : ({ m.asDecoded with payload := [] } : GtpMessage) = bare m := by
      simp only [GtpMessage.asDecoded, bare, h1, h2, h3, List.map_nil]
    rw [hm]
    exact Reads.pure _
  | true =>
    obtain ⟨out, hout, hwire⟩ := hsome hany
    obtain ⟨type, chain, hchain, hreads⟩ := encodeExtensionHeaders_reads h hout
    obtain ⟨visited, hv⟩ := hreads (i + 2 + 1 + 1)
    refine ⟨octetsOfInt 2 (m.seq.getD 0).toNat ++ ([m.nPduNum.getD 0] ++ ([type] ++ chain)),
      if m.extHeaders.isEmpty then [] else visited, hwire _ ?_, ?_⟩
    · rw [hchain, optionalWord]
      simp only [List.append_assoc, List.cons_append, List.nil_append]
    unfold decodeOptional
    simp only [he2, he1, he0, hcond, hany, if_true]
    refine (read2I_reads _).bind ((readOctet_reads _).bind ((readI_reads type).bind ?_))
    simp only [hseq, hpn]
    cases hx : m.extHeaders.isEmpty with
    | true =>
      have hnil := List.isEmpty_iff.mp hx
      rw [hnil] at hout
      have hs := Option.some.inj (Except.ok.inj hout)
      rw [← hs] at hchain
      obtain ⟨-, rfl⟩ := List.cons.inj (List.append_cancel_left hchain)
      have hm : ({ m.asDecoded with payload := [] } : GtpMessage) =
          { bare m with seq := m.seq, nPduNum := m.nPduNum } := by
        simp only [GtpMessage.asDecoded, bare, hnil, List.map_nil]
      rw [hm]
      exact Reads.pure _
    | false =>
      rw [length_octetsOfInt]
      refine Reads.bind_viewSize fun fuel hfuel => ?_
      exact (hv fuel (by omega)).bind_end (Reads.pure _)

/-- Every accepted message whose length field does not overflow is read back
`asDecoded`, header chain and payload included. -/
theorem encodeGtpMessage_reads (h : m.Fits) (he : encodeGtpMessage m [] = .ok (some octets))
    (hl : octets.length < 2 ^ 16 + 8) :
    ∃ visited, Reads decodeGtpMessageVisited i octets (some (m.asDecoded, visited)) := by
  obtain ⟨opt, visited, rfl, hopt⟩ := decodeOptional_reads (i := i + 1 + 1 + 2 + 4) h he
  obtain ⟨h57, h4, -⟩ := message_flags (!m.extHeaders.isEmpty) m.seq.isSome m.nPduNum.isSome
  rw [← GtpMessage.flags] at h57 h4
  have hlen : ((((opt ++ m.payload).length : Nat) : Int) % (256 ^ 2 : Nat)).toNat =
      opt.length + m.payload.length := by
    simp only [GtpMessage.wire, List.length_append, List.length_singleton,
      length_octetsOfInt] at hl ⊢
    omega
  refine ⟨visited, ?_⟩
  unfold decodeGtpMessageVisited GtpMessage.wire
  refine currentIndex_reads.bind_nil ((readOctet_reads _).bind ?_)
  simp only [h57, h4, ne_eq, not_true_eq_false, if_false]
  refine (readOctet_reads _).bind ((readBE_octetsOfInt 2 _).bind ((read4UI_reads _).bind ?_))
  rw [hlen]
  refine Reads.bind (c := opt) hopt ?_
  refine currentIndex_reads.bind_nil ?_
  simp only [length_octetsOfInt, List.length_singleton]
  have hrem : (((opt.length + m.payload.length : Nat) : Int) -
      (((i + 1 + 1 + 2 + 4 + opt.length - i : Nat) : Int) - 8)) = m.payload.length := by
    omega
  rw [hrem]
  exact (readOctetString_reads m.payload).bind_end (Reads.pure _)

/-- Decoding an encoding returns the message `asDecoded`. -/
theorem decode_encoding (h : m.Fits) (he : encodeGtpMessage m [] = .ok (some octets))
    (hl : octets.length < 2 ^ 16 + 8) : decode octets = .ok (some m.asDecoded) := by
  obtain ⟨visited, hr⟩ := encodeGtpMessage_reads (i := 0) h he hl
  have hm : Reads decodeGtpMessage 0 octets (some m.asDecoded) :=
    hr.bind_end (f := fun (r : Option (GtpMessage × List (Nat × Nat))) =>
      (Pure.pure (r.map Prod.fst) : Read (Option GtpMessage))) (Reads.pure _)
  have hrun := hm.run []
  rw [List.append_nil] at hrun
  rw [decode, Cursor.start, hrun]
  rfl

end Messages

/-! ## When the round trip is exact -/

/-- Every uplink container of the message carries the QFI zero. -/
def GtpMessage.UplinkQfiZero (m : GtpMessage) : Prop :=
  ∀ ul, .pduSessionContainerExtHeader (some (.ul ul)) ∈ m.extHeaders → ul.qfi = 0

private theorem UlPduSessionInformation.asDecoded_eq_iff {ul : UlPduSessionInformation}
    (h : ul.Fits) : ul.asDecoded = ul ↔ ul.qfi = 0 := by
  obtain ⟨h0, h6⟩ := h.qfi
  obtain ⟨qmp, qfi, ts1, ts2, ts3, dlDelay, ulDelay, seq⟩ := ul
  simp only [UlPduSessionInformation.asDecoded, UlPduSessionInformation.mk.injEq, true_and,
    and_true] at h0 h6 ⊢
  omega

private theorem GtpExtHeader.asDecoded_eq_iff {header : GtpExtHeader} (h : header.Fits) :
    header.asDecoded = header ↔
      ∀ ul, header = .pduSessionContainerExtHeader (some (.ul ul)) → ul.qfi = 0 := by
  rcases header with _ | _ | _ | (_ | dl | ul) | _
  case pduSessionContainerExtHeader.some.ul =>
    have hu : ul.Fits := h
    simp [GtpExtHeader.asDecoded, UlPduSessionInformation.asDecoded_eq_iff hu]
  all_goals simp [GtpExtHeader.asDecoded]

private theorem GtpMessage.asDecoded_eq_iff {m : GtpMessage} (h : m.Fits) :
    m.asDecoded = m ↔ m.UplinkQfiZero := by
  have hmap : m.asDecoded = m ↔ m.extHeaders.map GtpExtHeader.asDecoded = m.extHeaders.map id := by
    rw [List.map_id]
    obtain ⟨msgType, teid, seq, nPduNum, extHeaders, payload⟩ := m
    simp [GtpMessage.asDecoded]
  rw [hmap, List.map_inj_left]
  constructor
  · intro hid ul hul
    exact (GtpExtHeader.asDecoded_eq_iff (h _ hul)).mp (hid _ hul) ul rfl
  · intro hz header hheader
    refine (GtpExtHeader.asDecoded_eq_iff (h _ hheader)).mpr fun ul hul => hz ul ?_
    exact hul ▸ hheader

/-- Within the wire widths, the round trip is exact for the messages whose uplink
containers all carry the QFI zero and for no others. -/
theorem decode_encodeGtpMessage_iff (m : GtpMessage) (octets : OctetString) (h : m.Fits)
    (he : encodeGtpMessage m [] = .ok (some octets)) (hl : octets.length < 2 ^ 16) :
    decode octets = .ok (some m) ↔ m.UplinkQfiZero := by
  rw [decode_encoding h he (by omega), ← GtpMessage.asDecoded_eq_iff h]
  simp

/-- A message with a header of every kind the encoder accepts. -/
def mixedMessage : GtpMessage where
  msgType := GtpMessage.mtGPdu
  teid := 0x01020304
  seq := some 7
  extHeaders := [.udpPortExtHeader 2152, .longPdcpPduNumberExtHeader 0x3ffff,
    .pduSessionContainerExtHeader (some (.dl
      { qmp := true, qfi := 63, rqi := true, ppi := some 5, dlSendingTs := some (-3),
        dlQfiSeq := some 0xffffff })),
    .pduSessionContainerExtHeader (some (.ul { ulQfiSeq := some 5, ulDelayResult := some 9 })),
    .pdcpPduNumberExtHeader 77]
  payload := [1, 2, 3]

def mixedOctets : OctetString :=
  [54, 255, 0, 48, 1, 2, 3, 4, 0, 7, 0, 64, 1, 8, 104, 130, 2, 3, 255, 255, 133, 4, 12, 255, 160,
    255, 255, 255, 255, 255, 255, 255, 253, 255, 255, 255, 133, 3, 19, 0, 0, 0, 0, 9, 0, 0, 5, 0,
    192, 1, 0, 77, 0, 1, 2, 3]

private theorem mixedMessage_fits : mixedMessage.Fits := by
  intro header hheader
  simp only [mixedMessage, List.mem_cons, List.not_mem_nil, or_false] at hheader
  rcases hheader with rfl | rfl | rfl | rfl | rfl
  case inr.inr.inl => constructor <;> simp
  case inr.inr.inr.inl => constructor <;> simp
  all_goals simp [GtpExtHeader.Fits]

theorem decode_encodeGtpMessage_mixed :
    decode mixedOctets = .ok (some mixedMessage) ↔ mixedMessage.UplinkQfiZero :=
  decode_encodeGtpMessage_iff mixedMessage mixedOctets mixedMessage_fits (by decide) (by decide)

/-- A G-PDU as the gNB sends it, with the QFI nine. -/
def uplinkMessage : GtpMessage where
  msgType := GtpMessage.mtGPdu
  extHeaders := [.pduSessionContainerExtHeader (some (.ul { qfi := 9 }))]

theorem uplinkMessage_not_recovered :
    ∃ octets, uplinkMessage.Fits ∧ encodeGtpMessage uplinkMessage [] = .ok (some octets) ∧
      octets.length < 2 ^ 16 ∧ decode octets ≠ .ok (some uplinkMessage) := by
  refine ⟨[0x34, 255, 0, 8, 0, 0, 0, 0, 0, 0, 0, 133, 1, 16, 9, 0], ?_, by decide, by decide,
    by decide⟩
  intro header hheader
  simp only [uplinkMessage, List.mem_singleton] at hheader
  subst hheader
  constructor <;> simp

end Quicup.Ueransim
