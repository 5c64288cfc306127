import Quicup.Ueransim.Nas.Encode

/-!
# Messages that are decoded again

Every octet that an optional element may begin with finds the decoder of that element, in the table
of each message. So what is encoded is decoded to the same members, whatever the order of the
optional elements is.
-/

namespace Quicup.Ueransim

open Quicup.Fallible

/-! ## Half octets -/

section Halves

variable {i : Nat}

private theorem and_low (n : Nat) : n &&& 0xF = n % 16 := Nat.and_two_pow_sub_one_eq_mod n 4

theorem toNat_halfOctets (bigHalf littleHalf : Nat) :
    (halfOctets bigHalf littleHalf).toNat = bigHalf % 16 * 16 + littleHalf % 16 := by
  have hlittle : littleHalf % 16 < 2 ^ 4 := Nat.mod_lt _ (by decide)
  rw [halfOctets, and_low, and_low, ← Nat.shiftLeft_add_eq_or_of_lt hlittle, Nat.shiftLeft_eq,
    UInt8.toNat_ofNat']
  omega

theorem halfOctets_and (bigHalf littleHalf : Nat) :
    (halfOctets bigHalf littleHalf).toNat &&& 0xF = littleHalf &&& 0xF := by
  rw [toNat_halfOctets, and_low, and_low]
  omega

theorem halfOctets_shiftRight (bigHalf littleHalf : Nat) :
    (halfOctets bigHalf littleHalf).toNat >>> 4 &&& 0xF = bigHalf &&& 0xF := by
  rw [toNat_halfOctets, Nat.shiftRight_eq_div_pow, and_low, and_low]
  omega

private theorem and_and_low (n : Nat) : n &&& 0xF &&& 0xF = n &&& 0xF := by
  rw [and_low, and_low]
  omega

variable (encoders : IeEncoders)

theorem decodeIe1_reads (big : Nat) (ie : InformationElement1) (little : ie.Value)
    (h : encoders.Inverse ⟨.type1 ie, little⟩) :
    Reads (decodeIe1 ie.decode) i (encoders.encodeIe1 big ie little) little := by
  have hread := (readI_reads (i := i) (halfOctets big (encoders.encode1 ie little &&& 0xF))).bind_end
    (f := fun octet => Pure.pure (ie.decode (octet &&& 0xF))) (Reads.pure _)
  rw [halfOctets_and, and_and_low, h] at hread
  exact hread

end Halves

/-! ## Elements -/

section Elements

variable {encoders : IeEncoders} {i : Nat}

theorem IeEncoders.Inverse.reads {ie : InformationElement} {value : ie.Value}
    (h : encoders.Inverse ⟨ie, value⟩) : Reads ie.decode i (encoders.encode ie value) value := by
  cases ie with
  | type1 ie => exact decodeIe1_reads encoders 0 ie value h
  | type3 ie => exact h i
  | type4 ie => exact h i
  | type6 ie => exact h i

theorem MandatoryDecoder.decode_reads (decoder : MandatoryDecoder) (value : decoder.Value)
    (h : ∀ element ∈ decoder.elements value, encoders.Inverse element) :
    Reads decoder.decode i (decoder.encode encoders value) (decoder.elements value) := by
  cases decoder with
  | mandatoryIE1 ie =>
    have hvalue := h _ (List.mem_singleton_self _)
    exact (decodeIe1_reads encoders 0 ie value hvalue).bind_end (Reads.pure _)
  | mandatoryIE1Pair ie1 ie2 =>
    obtain ⟨value1, value2⟩ := value
    have hvalue1 : ie1.decode (encoders.encode1 ie1 value1 &&& 0xF) = value1 :=
      h _ List.mem_cons_self
    have hvalue2 : ie2.decode (encoders.encode1 ie2 value2 &&& 0xF) = value2 :=
      h _ (List.mem_cons_of_mem _ (List.mem_singleton_self _))
    have hread := (readI_reads (i := i) (halfOctets (encoders.encode1 ie1 value1 &&& 0xF)
      (encoders.encode1 ie2 value2 &&& 0xF))).bind_end
      (f := fun octet => Pure.pure [(⟨.type1 ie1, ie1.decode (octet >>> 4 &&& 0xF)⟩ : DecodedElement),
        ⟨.type1 ie2, ie2.decode (octet &&& 0xF)⟩]) (Reads.pure _)
    rw [halfOctets_and, halfOctets_shiftRight, and_and_low, and_and_low, hvalue1, hvalue2] at hread
    exact hread
  | mandatoryIE ie =>
    have hvalue := h _ (List.mem_singleton_self _)
    exact hvalue.reads.bind_end (Reads.pure _)

theorem decodeMandatory_reads (decoders : List MandatoryDecoder) (values : MandatoryValues decoders)
    (h : ∀ element ∈ values.elements decoders, encoders.Inverse element) :
    Reads (NasMessageBuilder.decodeMandatory decoders) i (values.encode encoders decoders)
      (values.elements decoders) := by
  induction decoders generalizing i with
  | nil => exact Reads.pure _
  | cons decoder decoders ih =>
    obtain ⟨value, values⟩ := values
    have hfirst := decoder.decode_reads (i := i) value fun element helement =>
      h element (List.mem_append_left _ helement)
    have hrest := ih values (i := i + (decoder.encode encoders value).length)
      fun element helement => h element (List.mem_append_right _ helement)
    exact hfirst.bind (hrest.bind_end (Reads.pure _))

theorem OptionalDecoder.decode_reads (decoder : OptionalDecoder) (value : decoder.ie.Value)
    (h : encoders.Inverse ⟨decoder.ie, value⟩) :
    Reads decoder.decode i (decoder.encode encoders value) ⟨decoder.ie, value⟩ := by
  obtain ⟨iei, ie⟩ := decoder
  cases ie with
  | type1 ie => exact (decodeIe1_reads encoders iei ie value h).bind_end (Reads.pure _)
  | type3 ie => exact (readI_reads _).bind (h.reads.bind_end (Reads.pure _))
  | type4 ie => exact (readI_reads _).bind (h.reads.bind_end (Reads.pure _))
  | type6 ie => exact (readI_reads _).bind (h.reads.bind_end (Reads.pure _))

end Elements

/-! ## Octets that begin an element -/

/-- The octets that an optional element may begin with. -/
def OptionalDecoder.firstOctets (decoder : OptionalDecoder) : List UInt8 :=
  match decoder.ie with
  | .type1 _ => (List.range 16).map (halfOctets decoder.iei)
  | _ => [.ofNat decoder.iei]

theorem OptionalDecoder.encode_eq_cons (encoders : IeEncoders) (decoder : OptionalDecoder)
    (value : decoder.ie.Value) :
    ∃ octet ∈ decoder.firstOctets, ∃ c, decoder.encode encoders value = octet :: c := by
  obtain ⟨iei, ie⟩ := decoder
  cases ie with
  | type1 ie =>
    refine ⟨_, List.mem_map_of_mem (List.mem_range.mpr ?_), [], rfl⟩
    rw [and_low]
    exact Nat.mod_lt _ (by decide)
  | type3 ie => exact ⟨_, List.mem_singleton_self _, _, rfl⟩
  | type4 ie => exact ⟨_, List.mem_singleton_self _, _, rfl⟩
  | type6 ie => exact ⟨_, List.mem_singleton_self _, _, rfl⟩

/-- No octet that begins an element is taken for the beginning of another one. -/
def NasMessageBuilder.Unambiguous (builder : NasMessageBuilder) : Prop :=
  ∀ decoder ∈ builder.optionalDecoders, ∀ octet ∈ decoder.firstOctets,
    builder.optionalDecoder octet.toNat = some decoder

instance NasMessageBuilder.decidableUnambiguous (builder : NasMessageBuilder) :
    Decidable builder.Unambiguous :=
  @List.decidableBAll _ _ (fun _ => List.decidableBAll _ _) _

theorem MmMessageType.unambiguous (messageType : MmMessageType) :
    messageType.onBuild.Unambiguous := by
  cases messageType <;> decide

theorem SmMessageType.unambiguous (messageType : SmMessageType) :
    messageType.onBuild.Unambiguous := by
  cases messageType <;> decide

/-! ## Optional elements in any order -/

namespace NasMessageBuilder.Members

variable {builder : NasMessageBuilder} {encoders : IeEncoders} {i : Nat}

theorem decodeOptional_reads (h : builder.Unambiguous) (entry : builder.Entry)
    (value : entry.val.ie.Value) (hvalue : encoders.Inverse ⟨entry.val.ie, value⟩) :
    Reads builder.decodeOptional i (entry.val.encode encoders value)
      (entry.val.iei, ⟨entry.val.ie, value⟩) := by
  obtain ⟨octet, hoctet, c, hencode⟩ := entry.val.encode_eq_cons encoders value
  have hfind := h entry.val entry.property octet hoctet
  have hread := (entry.val.decode_reads (i := i) value hvalue).bind_end
    (f := fun value => Pure.pure (entry.val.iei, value)) (Reads.pure _)
  rw [hencode] at hread ⊢
  intro rest
  rw [← hread rest]
  have hpeek : peekI ⟨i, octet :: c ++ rest⟩ = .ok (octet.toNat, ⟨i, octet :: c ++ rest⟩) := rfl
  simp only [decodeOptional, bind, StateT.bind, hpeek, Except.bind, hfind]

theorem decodeOptionals_cons {fuel : Nat} {s rest : OctetString} {t : Cursor}
    {value : Nat × DecodedElement} {others : List (Nat × DecodedElement)} {j : Nat} (hs : s ≠ [])
    (hvalue : builder.decodeOptional ⟨i, s⟩ = .ok (value, ⟨j, rest⟩))
    (hothers : builder.decodeOptionals fuel ⟨j, rest⟩ = .ok (others, t)) :
    builder.decodeOptionals (fuel + 1) ⟨i, s⟩ = .ok (value :: others, t) := by
  obtain ⟨octet, c, rfl⟩ := List.exists_cons_of_ne_nil hs
  change (builder.decodeOptional ⟨i, octet :: c⟩ >>= fun r =>
    builder.decodeOptionals fuel r.2 >>= fun others => .ok (r.1 :: others.1, others.2)) = _
  rw [hvalue, ok_bind, hothers, ok_bind]

variable (members : builder.Members)

/-- The loop takes the elements one by one, each for what it is. -/
theorem decodeOptionals_run (h : builder.Unambiguous) (order : List builder.Entry)
    (hinverse : ∀ element ∈ members.present order, encoders.Inverse element.2) (fuel : Nat)
    (hfuel : (order.flatMap (members.encodeOptional encoders)).length < fuel) :
    builder.decodeOptionals fuel ⟨i, order.flatMap (members.encodeOptional encoders)⟩ =
      .ok (members.present order,
        ⟨i + (order.flatMap (members.encodeOptional encoders)).length, []⟩) := by
  induction order generalizing i fuel with
  | nil =>
    obtain ⟨fuel, rfl⟩ := Nat.exists_eq_add_one.mpr hfuel
    rfl
  | cons entry order ih =>
    rw [List.flatMap_cons] at hfuel ⊢
    cases hvalue : members.optional entry with
    | none =>
      have hpresent : members.present (entry :: order) = members.present order := by
        rw [present, List.filterMap_cons, hvalue]
        rfl
      have hencode : members.encodeOptional encoders entry = [] := by
        rw [encodeOptional, hvalue]
        rfl
      rw [hpresent] at hinverse ⊢
      rw [hencode, List.nil_append] at hfuel ⊢
      exact ih hinverse fuel hfuel
    | some value =>
      have hpresent : members.present (entry :: order) =
          (entry.val.iei, ⟨entry.val.ie, value⟩) :: members.present order := by
        rw [present, List.filterMap_cons, hvalue]
        rfl
      have hencode : members.encodeOptional encoders entry = entry.val.encode encoders value := by
        rw [encodeOptional, hvalue]
        rfl
      rw [hpresent] at hinverse ⊢
      rw [hencode, List.length_append] at hfuel
      rw [hencode, List.length_append]
      have hread := decodeOptional_reads (i := i) h entry value (hinverse _ List.mem_cons_self)
      obtain ⟨octet, -, c, hcons⟩ := entry.val.encode_eq_cons encoders value
      have hpos : 0 < (entry.val.encode encoders value).length := by
        rw [hcons]
        exact Nat.succ_pos _
      obtain ⟨fuel, rfl⟩ := Nat.exists_eq_add_one.mpr (Nat.zero_lt_of_lt hfuel)
      have hrest := ih (i := i + (entry.val.encode encoders value).length)
        (fun element helement => hinverse element (List.mem_cons_of_mem _ helement)) fuel (by omega)
      have hsome : entry.val.encode encoders value ++
          order.flatMap (members.encodeOptional encoders) ≠ [] := by
        rw [hcons]
        exact List.cons_ne_nil _ _
      rw [decodeOptionals_cons hsome (hread _) hrest, Nat.add_assoc]

theorem decode_run (h : builder.Unambiguous) (order : List builder.Entry)
    (hmandatory : ∀ element ∈ members.mandatory.elements _, encoders.Inverse element)
    (hoptional : ∀ element ∈ members.present order, encoders.Inverse element.2) :
    builder.decode ⟨i, members.encode encoders order⟩ =
      .ok (⟨members.mandatory.elements _, members.present order⟩,
        ⟨i + (members.encode encoders order).length, []⟩) := by
  have hfirst := decodeMandatory_reads (i := i) _ members.mandatory hmandatory
    (order.flatMap (members.encodeOptional encoders))
  have hsecond := members.decodeOptionals_run h order hoptional
    (i := i + (members.mandatory.encode encoders _).length) _ (Nat.lt_succ_self _)
  change (NasMessageBuilder.decodeMandatory builder.mandatoryDecoders
      ⟨i, members.encode encoders order⟩ >>= fun mandatory =>
    builder.decodeOptionals (mandatory.2.rest.length + 1) mandatory.2 >>= fun optional =>
      .ok ((⟨mandatory.1, optional.1⟩ : DecodedBody), optional.2)) = _
  rw [encode, hfirst, ok_bind, hsecond, ok_bind, List.length_append, Nat.add_assoc]

end NasMessageBuilder.Members

/-! ## What the members are set to -/

/-- The value that an optional member is left with, which is the last one of its IEI. -/
def DecodedBody.member (body : DecodedBody) (iei : Nat) : Option DecodedElement :=
  lastWrite (fun element => if element.1 = iei then some element.2 else none) body.optional none

/-- The members are set as they are in a message. -/
structure DecodedBody.Holds {builder : NasMessageBuilder} (body : DecodedBody)
    (members : builder.Members) : Prop where
  mandatory : body.mandatory = members.mandatory.elements _
  optional : ∀ entry : builder.Entry,
    body.member entry.val.iei = (members.optional entry).map fun value => ⟨entry.val.ie, value⟩

namespace NasMessageBuilder.Members

variable {builder : NasMessageBuilder} (members : builder.Members)

/-- Elements with other IEIs do not set a member. -/
theorem filterMap_present_eq_nil (order : List builder.Entry) (iei : Nat)
    (h : ∀ entry ∈ order, entry.val.iei ≠ iei) :
    (members.present order).filterMap
      (fun element => if element.1 = iei then some element.2 else none) = [] := by
  rw [List.filterMap_eq_nil_iff]
  rintro element helement
  obtain ⟨entry, hentry, hvalue⟩ := List.mem_filterMap.mp helement
  obtain ⟨value, -, rfl⟩ := Option.map_eq_some_iff.mp hvalue
  exact if_neg (h entry hentry)

/-- An order of all entries has each IEI once. -/
theorem holds_present (hnodup : (builder.optionalDecoders.map OptionalDecoder.iei).Nodup)
    {order : List builder.Entry} (horder : order.Perm builder.optionalDecoders.attach) :
    DecodedBody.Holds ⟨members.mandatory.elements _, members.present order⟩ members where
  mandatory := rfl
  optional := by
    intro entry
    have hperm := horder.map fun entry => entry.val.iei
    rw [List.attach_map_val (f := OptionalDecoder.iei)] at hperm
    have hieis := hperm.nodup_iff.mpr hnodup
    have hmem : entry ∈ order := horder.mem_iff.mpr (List.mem_attach _ _)
    obtain ⟨before, after, rfl⟩ := List.append_of_mem hmem
    rw [List.map_append, List.map_cons, List.nodup_append, List.nodup_cons] at hieis
    obtain ⟨-, ⟨hafter, -⟩, hbefore⟩ := hieis
    have hnil := members.filterMap_present_eq_nil before entry.val.iei fun other hother =>
      hbefore _ (List.mem_map_of_mem hother) _ List.mem_cons_self
    have hnil' := members.filterMap_present_eq_nil after entry.val.iei fun other hother heq =>
      hafter (heq ▸ List.mem_map_of_mem hother)
    have hsplit : members.present (before ++ entry :: after) = members.present before ++
        (members.present [entry] ++ members.present after) := by
      rw [present, List.filterMap_append, ← List.singleton_append, List.filterMap_append]
      rfl
    rw [DecodedBody.member, lastWrite, hsplit, List.filterMap_append, List.filterMap_append, hnil,
      hnil', List.nil_append, List.append_nil, present]
    cases hvalue : members.optional entry with
    | none => simp [hvalue]
    | some value => simp [hvalue]

end NasMessageBuilder.Members

/-! ## Messages -/

/-- A decoded message that has the type and the members of a message. -/
def DecodedNasMessage.Is : DecodedNasMessage → PlainNasMessage → Prop
  | plainMm messageType body, .mm messageType' members =>
    messageType = messageType' ∧ body.Holds members
  | sm pduSessionId pti messageType body, .sm pduSessionId' pti' messageType' members =>
    pduSessionId = pduSessionId' ∧ pti = pti' ∧ messageType = messageType' ∧ body.Holds members
  | _, _ => False

namespace PlainNasMessage

variable (msg : PlainNasMessage)

/-- The elements that are there. -/
def elements : List DecodedElement :=
  msg.members.mandatory.elements _ ++
    (msg.members.present msg.builder.optionalDecoders.attach).map Prod.snd

/-- What is decoded of the octets in an order: each element for what it is. -/
def decodedIn : (msg : PlainNasMessage) → List msg.builder.Entry → DecodedNasMessage
  | mm messageType members, order =>
    .plainMm messageType ⟨members.mandatory.elements _, members.present order⟩
  | sm pduSessionId pti messageType members, order =>
    .sm pduSessionId pti messageType ⟨members.mandatory.elements _, members.present order⟩

theorem unambiguous : msg.builder.Unambiguous := by
  cases msg with
  | mm messageType members => exact messageType.unambiguous
  | sm pduSessionId pti messageType members => exact messageType.unambiguous

theorem iei_nodup : (msg.builder.optionalDecoders.map OptionalDecoder.iei).Nodup := by
  cases msg with
  | mm messageType members => exact messageType.iei_nodup
  | sm pduSessionId pti messageType members => exact messageType.iei_nodup

end PlainNasMessage

theorem MmMessageType.ofOctet_octet (messageType : MmMessageType) :
    ofOctet messageType.octet = some messageType := by
  cases messageType <;> rfl

theorem SmMessageType.ofOctet_octet (messageType : SmMessageType) :
    ofOctet messageType.octet = some messageType := by
  cases messageType <;> rfl

namespace PlainNasMessage

variable {encoders : IeEncoders} (msg : PlainNasMessage)

theorem decode_mm (octet : UInt8) (rest : OctetString) :
    DecodedNasMessage.decode ⟨0, mobilityManagementMessages :: notProtected :: octet :: rest⟩ =
      DecodedNasMessage.decodePlainMmMessage octet ⟨3, rest⟩ := rfl

theorem decode_sm (pduSessionId pti octet : UInt8) (rest : OctetString) :
    DecodedNasMessage.decode ⟨0, sessionManagementMessages :: pduSessionId :: pti :: octet :: rest⟩ =
      DecodedNasMessage.decodeSmMessage pduSessionId pti octet ⟨4, rest⟩ := rfl

theorem inverse_present (hinverse : ∀ element ∈ msg.elements, encoders.Inverse element)
    {order : List msg.builder.Entry} (horder : order.Perm msg.builder.optionalDecoders.attach) :
    ∀ element ∈ msg.members.present order, encoders.Inverse element.2 := by
  intro element helement
  have hperm : (msg.members.present order).Perm
      (msg.members.present msg.builder.optionalDecoders.attach) := horder.filterMap _
  exact hinverse _ (List.mem_append_right _ (List.mem_map_of_mem (hperm.mem_iff.mp helement)))

/-- In any order of the optional elements the octets are decoded to the members of the message. -/
theorem decode_encodeIn (hinverse : ∀ element ∈ msg.elements, encoders.Inverse element)
    (order : List msg.builder.Entry)
    (horder : order.Perm msg.builder.optionalDecoders.attach) :
    DecodedNasMessage.decode (.start (msg.encodeIn encoders order)) =
        .ok (msg.decodedIn order, ⟨(msg.encodeIn encoders order).length, []⟩) ∧
      (msg.decodedIn order).Is msg := by
  have hpresent := msg.inverse_present hinverse horder
  have hmandatory : ∀ element ∈ msg.members.mandatory.elements _, encoders.Inverse element :=
    fun element helement => hinverse element (List.mem_append_left _ helement)
  have hholds := msg.members.holds_present msg.iei_nodup horder
  have hunambiguous := msg.unambiguous
  cases msg with
  | mm messageType members =>
    refine ⟨?_, rfl, hholds⟩
    have hrun := members.decode_run (i := 3) hunambiguous order hmandatory hpresent
    change DecodedNasMessage.decode ⟨0, mobilityManagementMessages :: notProtected ::
      messageType.octet :: members.encode encoders order⟩ = _
    rw [decode_mm, DecodedNasMessage.decodePlainMmMessage, messageType.ofOctet_octet]
    change (messageType.onBuild.decode ⟨3, members.encode encoders order⟩ >>= fun r =>
      .ok (DecodedNasMessage.plainMm messageType r.1, r.2)) = _
    rw [hrun, ok_bind, encodeIn, List.length_append]
    rfl
  | sm pduSessionId pti messageType members =>
    refine ⟨?_, rfl, rfl, rfl, hholds⟩
    have hrun := members.decode_run (i := 4) hunambiguous order hmandatory hpresent
    change DecodedNasMessage.decode ⟨0, sessionManagementMessages :: pduSessionId :: pti ::
      messageType.octet :: members.encode encoders order⟩ = _
    rw [decode_sm, DecodedNasMessage.decodeSmMessage, messageType.ofOctet_octet]
    change (messageType.onBuild.decode ⟨4, members.encode encoders order⟩ >>= fun r =>
      .ok (DecodedNasMessage.sm pduSessionId pti messageType r.1, r.2)) = _
    rw [hrun, ok_bind, encodeIn, List.length_append]
    rfl

/-- `DecodeNasMessage` of what `EncodeNasMessage` writes is the message, with no octet left, and so
it is with the optional elements in any other order. Each element is decoded by its own decoder, in
the order in which the octets have them. -/
theorem decode_encode (encoders : IeEncoders) (msg : PlainNasMessage)
    (hinverse : ∀ element ∈ msg.elements, encoders.Inverse element) :
    (∃ decoded, DecodedNasMessage.decode (.start (msg.encode encoders)) =
        .ok (decoded, ⟨(msg.encode encoders).length, []⟩) ∧ decoded.Is msg) ∧
      ∀ order : List msg.builder.Entry, order.Perm msg.builder.optionalDecoders.attach →
        DecodedNasMessage.decode (.start (msg.encodeIn encoders order)) =
            .ok (msg.decodedIn order, ⟨(msg.encodeIn encoders order).length, []⟩) ∧
          (msg.decodedIn order).Is msg :=
  ⟨⟨_, msg.decode_encodeIn hinverse _ (.refl _)⟩, msg.decode_encodeIn hinverse⟩

/-- A request for a session of IPv4, and the classes that it takes to encode it. -/
def ipv4Request : PlainNasMessage :=
  .sm 1 1 .pduSessionEstablishmentRequest {
    mandatory := (⟨0xFF, 0xFF⟩, ())
    optional := fun entry => match entry.val with
      | ⟨_, .type1 .pduSessionType⟩ => some ⟨1⟩
      | _ => none }

def ipv4Encoders : IeEncoders where
  encode1 ie value := match ie, value with
    | .pduSessionType, value => value.pduSessionType &&& 7
    | _, _ => 0
  encode3 ie value := match ie, value with
    | .integrityProtectionMaximumDataRate, value =>
      [.ofNat value.maxRateUplink, .ofNat value.maxRateDownlink]
    | _, _ => []
  encode4 _ _ := []
  encode6 _ _ := []

theorem ipv4Encoders_inverse :
    ∀ element ∈ ipv4Request.elements, ipv4Encoders.Inverse element := by
  have helements : ipv4Request.elements =
      [⟨.type3 .integrityProtectionMaximumDataRate,
        (⟨0xFF, 0xFF⟩ : IEIntegrityProtectionMaximumDataRate)⟩,
        ⟨.type1 .pduSessionType, (⟨1⟩ : IEPduSessionType)⟩] := rfl
  rw [helements, List.forall_mem_cons, List.forall_mem_singleton]
  exact ⟨fun i rest => rfl, rfl⟩

theorem decode_encode_ipv4Request :
    (∃ decoded, DecodedNasMessage.decode (.start (ipv4Request.encode ipv4Encoders)) =
        .ok (decoded, ⟨(ipv4Request.encode ipv4Encoders).length, []⟩) ∧ decoded.Is ipv4Request) ∧
      ∀ order : List ipv4Request.builder.Entry,
        order.Perm ipv4Request.builder.optionalDecoders.attach →
        DecodedNasMessage.decode (.start (ipv4Request.encodeIn ipv4Encoders order)) =
            .ok (ipv4Request.decodedIn order,
              ⟨(ipv4Request.encodeIn ipv4Encoders order).length, []⟩) ∧
          (ipv4Request.decodedIn order).Is ipv4Request :=
  decode_encode ipv4Encoders ipv4Request ipv4Encoders_inverse

end PlainNasMessage

/-! ## Decoded messages are of one message -/

theorem MandatoryDecoder.elements_injective (decoder : MandatoryDecoder) :
    Function.Injective decoder.elements := by
  intro value value' h
  cases decoder with
  | mandatoryIE1 ie => exact eq_of_heq (Sigma.mk.inj (List.cons.inj h).1).2
  | mandatoryIE1Pair ie1 ie2 =>
    obtain ⟨h1, h2⟩ := List.cons.inj h
    have hvalue1 : value.1 = value'.1 := eq_of_heq (Sigma.mk.inj h1).2
    have hvalue2 : value.2 = value'.2 := eq_of_heq (Sigma.mk.inj (List.cons.inj h2).1).2
    exact Prod.ext hvalue1 hvalue2
  | mandatoryIE ie => exact eq_of_heq (Sigma.mk.inj (List.cons.inj h).1).2

theorem MandatoryDecoder.length_elements (decoder : MandatoryDecoder)
    (value value' : decoder.Value) :
    (decoder.elements value).length = (decoder.elements value').length := by
  cases decoder <;> rfl

theorem MandatoryValues.elements_injective (decoders : List MandatoryDecoder) :
    Function.Injective (MandatoryValues.elements decoders) := by
  intro values values' h
  induction decoders with
  | nil => rfl
  | cons decoder decoders ih =>
    obtain ⟨hfirst, hrest⟩ := List.append_inj h (decoder.length_elements _ _)
    exact Prod.ext (decoder.elements_injective hfirst) (ih hrest)

theorem DecodedBody.Holds.unique {builder : NasMessageBuilder} {body : DecodedBody}
    {members members' : builder.Members} (h : body.Holds members) (h' : body.Holds members') :
    members = members' := by
  obtain ⟨mandatory, optional⟩ := members
  obtain ⟨mandatory', optional'⟩ := members'
  obtain rfl : mandatory = mandatory' :=
    MandatoryValues.elements_injective _ (h.mandatory.symm.trans h'.mandatory)
  obtain rfl : optional = optional' := by
    funext entry
    have hvalue := (h.optional entry).symm.trans (h'.optional entry)
    refine Option.map_injective (fun value value' heq => ?_) hvalue
    exact eq_of_heq (Sigma.mk.inj heq).2
  rfl

/-- Two messages that are read out of the same decoded one are the same. -/
theorem DecodedNasMessage.Is.unique {decoded : DecodedNasMessage} {msg msg' : PlainNasMessage}
    (h : decoded.Is msg) (h' : decoded.Is msg') : msg = msg' := by
  cases decoded with
  | securedMm secured => cases msg <;> exact h.elim
  | plainMm messageType body =>
    cases msg with
    | sm => exact h.elim
    | mm =>
      cases msg' with
      | sm => exact h'.elim
      | mm =>
        obtain ⟨rfl, hbody⟩ := h
        obtain ⟨rfl, hbody'⟩ := h'
        rw [hbody.unique hbody']
  | sm pduSessionId pti messageType body =>
    cases msg with
    | mm => exact h.elim
    | sm =>
      cases msg' with
      | mm => exact h'.elim
      | sm =>
        obtain ⟨rfl, rfl, rfl, hbody⟩ := h
        obtain ⟨rfl, rfl, rfl, hbody'⟩ := h'
        rw [hbody.unique hbody']

end Quicup.Ueransim
