import Quicup.Ueransim.Nas.Termination

/-!
# Reads within a message

What has to be there of an element for its decoder to read nothing behind the message. A fixed field
is read with no check, and so are the fields before a length that is checked, the entries of a list,
and the strings of identities.
-/

namespace Quicup.Ueransim

open Span

variable {length : Nat} {s : OctetString}

/-! ## Values -/

/-- All octets of the entry, by its first one. -/
def VRejectedSNssai.Covered (s : OctetString) : Prop :=
  ∃ octet others, s = octet :: others ∧ size octet ≤ others.length

def VPartialServiceAreaList.Covered (s : OctetString) : Prop :=
  ∃ octet others, s = octet :: others ∧ size octet ≤ s.length

/-- A partial list of a type that has octets, and they are there. -/
def VPartialTrackingAreaIdentityList.Covered (s : OctetString) : Prop :=
  ∃ octet others, s = octet :: others ∧ listType octet ≠ endlessListType ∧ size octet ≤ s.length

/-- The octets before the parameters, and two for each parameter that is come to. -/
def VQoSFlowDescription.Covered (s : OctetString) : Prop :=
  ∃ qfi opCode flags parameters, s = qfi :: opCode :: flags :: parameters ∧
    ∀ k < flags.toNat &&& 0b111111, ∀ m, times VQoSFlowParameter.span k parameters = .ok m →
      m + 2 ≤ parameters.length

/-- The octet behind the criteria is read with no check. -/
def VOperatorDefinedAccessCategoryDefinition.Covered (s : OctetString) : Prop :=
  ∃ precedence flags standardised lengthOfCriteria criteria,
    s = precedence :: flags :: standardised :: lengthOfCriteria :: criteria ∧
      criteria.length ≠ lengthOfCriteria.toNat

/-- The entry of an NSSAI, with its length. -/
def IESNssai.Covered (s : OctetString) : Prop :=
  ∃ length value, s = length :: value ∧ size length.toNat ≤ value.length

/-- Every partial list below the length. -/
def IE5gsTrackingAreaIdentityList.Covered (length : Nat) (s : OctetString) : Prop :=
  ∀ k, Reaches VPartialTrackingAreaIdentityList.span length s k → k < length →
    VPartialTrackingAreaIdentityList.Covered (s.drop k)

/-- Behind a DNN that is there, the list of tracking area identities. -/
def VLadn.Covered (s : OctetString) : Prop :=
  ∃ dnnLength others, s = dnnLength :: others ∧ (dnnLength.toNat ≤ others.length →
    ∃ listLength list, others.drop dnnLength.toNat = listLength :: list ∧
      IE5gsTrackingAreaIdentityList.Covered listLength.toNat list)

theorem VRejectedSNssai.guarded_iff : Guarded VRejectedSNssai.span s ↔ Covered s := by
  simp only [span, head_guarded_iff, octets_guarded_iff, Covered]

theorem VPartialServiceAreaList.guarded_iff :
    Guarded VPartialServiceAreaList.span s ↔ Covered s := by
  simp only [span, look_guarded_iff, octets_guarded_iff, Covered]

theorem VPartialTrackingAreaIdentityList.guarded_iff :
    Guarded VPartialTrackingAreaIdentityList.span s ∧
      VPartialTrackingAreaIdentityList.span s ≠ .ok 0 ↔ Covered s := by
  simp only [span, look_guarded_iff, octets_guarded_iff, Covered]
  constructor
  · rintro ⟨⟨octet, others, rfl, hle⟩, hpos⟩
    refine ⟨octet, others, rfl, fun htype => hpos ?_, hle⟩
    exact octets_eq_ok.mpr ⟨hle, (size_eq_zero_iff octet).mpr htype⟩
  · rintro ⟨octet, others, rfl, htype, hle⟩
    refine ⟨⟨octet, others, rfl, hle⟩, fun hzero => htype ?_⟩
    exact (size_eq_zero_iff octet).mp (octets_eq_ok.mp hzero).2

theorem IE5gsTrackingAreaIdentityList.guarded_iff :
    Guarded (walk VPartialTrackingAreaIdentityList.span length) s ↔ Covered length s := by
  rw [walk_guarded_iff (@VPartialTrackingAreaIdentityList.decode_spans 0).bounded]
  simp only [VPartialTrackingAreaIdentityList.guarded_iff, Covered]

theorem VLadn.guarded_iff : Guarded VLadn.span s ↔ Covered s := by
  simp only [span, head_andThen, head_guarded_iff, checked_andThen_guarded_iff,
    IE5gsTrackingAreaIdentityList.guarded_iff, Covered]

theorem VQoSFlowParameter.guarded_iff : Guarded VQoSFlowParameter.span s ↔ 2 ≤ s.length := by
  simp only [span, head_guarded_iff, checked_guarded, and_true]
  constructor
  · rintro ⟨id, others, rfl, contentLength, content, rfl⟩
    exact Nat.le_add_left 2 content.length
  · intro h
    match s, h with
    | id :: contentLength :: content, _ =>
      exact ⟨id, _, rfl, contentLength, content, rfl⟩

theorem VQoSFlowDescription.guarded_iff : Guarded VQoSFlowDescription.span s ↔ Covered s := by
  simp only [span, octets_andThen_guarded_iff, head_guarded_iff, times_guarded_iff,
    VQoSFlowParameter.guarded_iff, List.length_drop]
  constructor
  · rintro ⟨htwo, flags, parameters, hd, hparameters⟩
    match s, htwo with
    | qfi :: opCode :: others, _ =>
      obtain rfl : others = flags :: parameters := hd
      refine ⟨qfi, opCode, flags, parameters, rfl, fun k hk m hm => ?_⟩
      have hle := hparameters k hk m hm
      omega
  · rintro ⟨qfi, opCode, flags, parameters, rfl, hparameters⟩
    refine ⟨by simp, flags, parameters, rfl, fun k hk m hm => ?_⟩
    have hle := hparameters k hk m hm
    omega

theorem VOperatorDefinedAccessCategoryDefinition.guarded_iff :
    Guarded VOperatorDefinedAccessCategoryDefinition.span s ↔ Covered s := by
  have hcriteria : ∀ (lengthOfCriteria : UInt8) (criteria : OctetString),
      Guarded ((Span.checked lengthOfCriteria.toNat).andThen (octets 1)) criteria ↔
        criteria.length ≠ lengthOfCriteria.toNat := by
    intro lengthOfCriteria criteria
    rw [checked_andThen_guarded_iff, octets_guarded_iff, List.length_drop]
    omega
  simp only [span, octets_andThen_guarded_iff, head_guarded_iff, hcriteria]
  constructor
  · rintro ⟨hthree, lengthOfCriteria, criteria, hd, hne⟩
    match s, hthree with
    | precedence :: flags :: standardised :: others, _ =>
      obtain rfl : others = lengthOfCriteria :: criteria := hd
      exact ⟨precedence, flags, standardised, lengthOfCriteria, criteria, rfl, hne⟩
  · rintro ⟨precedence, flags, standardised, lengthOfCriteria, criteria, rfl, hne⟩
    exact ⟨by simp, lengthOfCriteria, criteria, rfl, hne⟩

theorem IESNssai.guarded_iff :
    Guarded (.head fun length => .octets (IESNssai.size length.toNat)) s ↔ Covered s := by
  simp only [head_guarded_iff, octets_guarded_iff, Covered]

/-! ## Steering of roaming -/

/-- Header and, behind a MAC that is there, the counter with the entries that are come to. -/
def IESorTransparentContainer.Covered (length : Nat) (s : OctetString) : Prop :=
  ∃ header others, s = header :: others ∧
    (bitAt 0 header = false → 16 ≤ others.length → 18 ≤ others.length ∧
      (bitAt 2 header = true → ∀ k,
        Reaches (octets 5) (sizeT ((length : Int) - 19)) (others.drop 18) k →
          k < sizeT ((length : Int) - 19) → 18 + k + 5 ≤ others.length))

theorem IESorTransparentContainer.guarded_iff :
    Guarded (IESorTransparentContainer.span length) s ↔ Covered length s := by
  rw [IESorTransparentContainer.span, head_guarded_iff]
  refine exists_congr fun header => exists_congr fun others => and_congr_right fun _ => ?_
  by_cases hinfo : bitAt 0 header = false
  · rw [if_pos hinfo, forall_prop_of_true hinfo]
    have hmac : (16 : Int) = (16 : Nat) := rfl
    rw [hmac, checked_andThen_guarded_iff]
    refine forall_congr' fun hsixteen => ?_
    rw [octets_andThen_guarded_iff, List.length_drop, List.drop_drop]
    refine and_congr (by omega) ?_
    by_cases hpacket : bitAt 2 header = false
    · rw [if_pos hpacket]
      exact iff_of_true (checked_guarded _ _) fun habsurd => by
        rw [hpacket] at habsurd
        cases habsurd
    · rw [if_neg hpacket, walk_guarded_iff (octets_bounded 5),
        forall_prop_of_true (Bool.eq_true_of_not_eq_false hpacket)]
      refine forall_congr' fun k => forall_congr' fun hreach => forall_congr' fun hk => ?_
      rw [octets_guarded_iff, List.length_drop, List.length_drop,
        and_iff_left (octets_ne_zero (by decide) _)]
      omega
  · rw [if_neg hinfo]
    exact iff_of_true (checked_guarded _ _) fun habsurd => absurd habsurd hinfo

/-! ## Mobile identities -/

/-- PLMN, routing indicator, scheme and key, and a null scheme output of the length. -/
def ImsiMobileIdentity.Covered (length : Int) (s : OctetString) : Prop :=
  7 ≤ s.length ∧ ((s.getD 5 0).toNat &&& 0b1111 = 0 → length ≤ s.length)

/-- The octets of an identity, by the type in its first one. -/
def IE5gsMobileIdentity.Covered (length : Nat) (s : OctetString) : Prop :=
  ∃ flags others, s = flags :: others ∧
    if identityNumberOf flags = IdentityType.suci then
      if supiFormatOf flags = imsiSupiFormat then ImsiMobileIdentity.Covered (length - 1) others
      else length ≤ s.length
    else if identityNumberOf flags = IdentityType.guti then 11 ≤ s.length
    else if identityNumberOf flags = IdentityType.tmsi then 7 ≤ s.length
    else if identityNumberOf flags = IdentityType.imei ∨
        identityNumberOf flags = IdentityType.imeisv then length ≤ s.length
    else True

theorem ImsiMobileIdentity.guarded_iff {length : Int} :
    Guarded (ImsiMobileIdentity.span length) s ↔ Covered length s := by
  have houtput : ∀ (protectionSchemaId : UInt8) (output : OctetString),
      Guarded (if protectionSchemaId.toNat &&& 0b1111 = 0 then .string (length - 7)
        else .checked (length - 7)) output ↔
      (protectionSchemaId.toNat &&& 0b1111 = 0 → length ≤ output.length + 7) := by
    intro protectionSchemaId output
    by_cases hnull : protectionSchemaId.toNat &&& 0b1111 = 0
    · rw [if_pos hnull, string_guarded_iff, forall_prop_of_true hnull]
      omega
    · rw [if_neg hnull]
      exact iff_of_true (checked_guarded _ _) fun habsurd => absurd habsurd hnull
  simp only [span, octets_andThen_guarded_iff, head_guarded_iff, houtput, List.length_drop,
    List.drop_drop]
  constructor
  · rintro ⟨-, -, protectionSchemaId, others, hd, hkey, hoptional⟩
    have hlength := congrArg List.length hd
    have hget : s.getD 5 0 = protectionSchemaId := by
      rw [List.getD_eq_getElem?_getD, ← List.head?_drop, hd]
      rfl
    rw [List.length_drop, List.length_cons] at hlength
    refine ⟨by omega, fun hnull => ?_⟩
    rw [hget] at hnull
    have hle := hoptional hnull
    omega
  · rintro ⟨hseven, hoptional⟩
    refine ⟨by omega, by omega, s[5], s.drop 6, List.drop_eq_getElem_cons (by omega), ?_, ?_⟩
    · rw [List.length_drop]
      omega
    · intro hnull
      have hget : s.getD 5 0 = s[5] := by
        rw [List.getD_eq_getElem?_getD, List.getElem?_eq_getElem (by omega), Option.getD_some]
      have hle := hoptional (by rwa [hget])
      rw [List.length_drop]
      omega

theorem IE5gsMobileIdentity.guarded_iff :
    Guarded (IE5gsMobileIdentity.span length) s ↔ Covered length s := by
  rw [IE5gsMobileIdentity.span, look_guarded_iff]
  refine exists_congr fun flags => exists_congr fun others => and_congr_right fun hs => ?_
  subst hs
  split
  · rw [octets_andThen_guarded_iff]
    split
    · rw [ImsiMobileIdentity.guarded_iff]
      exact and_iff_right (Nat.le_add_left 1 others.length)
    · rw [string_guarded_iff, List.drop_succ_cons, List.length_cons]
      simp
      omega
  split
  · exact octets_guarded_iff
  split
  · exact octets_guarded_iff
  split
  · exact octets_guarded_iff
  · exact iff_of_true (octets_guarded_iff.mpr (Nat.zero_le _)) trivial

/-! ## EAP packets -/

namespace Eap

/-- At every attribute that is come to, its type and, where that is known, its length. -/
def AttributesCovered (bound : Int) (s : OctetString) : Prop :=
  ∀ k, Reaches attributeSpan bound.toNat s k → (k : Int) < bound →
    ∃ t others, s.drop k = t :: others ∧ (UnknownAttribute t ∨ others ≠ [])

/-- The octets behind the length of a packet. -/
def DataCovered (length : Nat) (s : OctetString) : Prop :=
  length = 4 ∨ ∃ type others, s = type :: others ∧ (type.toNat = akaPrimeType →
    ∃ subType body, others = subType :: body ∧ (UnknownSubType subType ∨
      2 ≤ body.length ∧ AttributesCovered ((length : Int) - 8) (body.drop 2)))

/-- The octets of a packet, of which an unknown code leaves the others out. -/
def Covered (s : OctetString) : Prop :=
  ∃ code others, s = code :: others ∧ (UnknownCode code ∨
    ∃ id x y data, others = id :: x :: y :: data ∧ DataCovered (x.toNat * 256 + y.toNat) data)

private theorem attribute_guarded_iff {k : Nat} :
    (leftAt s k = none → Guarded attributeSpan (s.drop k)) ↔
      ∃ t others, s.drop k = t :: others ∧ (UnknownAttribute t ∨ others ≠ []) := by
  unfold leftAt
  rcases s.drop k with _ | ⟨t, others⟩
  · exact iff_of_false (fun h => by cases h rfl _ rfl) fun ⟨_, _, h, _⟩ => by cases h
  by_cases ht : UnknownAttribute t
  · exact iff_of_true (fun h => by simp only [if_pos ht, reduceCtorEq] at h)
      ⟨t, others, rfl, .inl ht⟩
  rcases others with _ | ⟨attributeLength, others⟩
  · refine iff_of_false (fun h => ?_) ?_
    · have hguarded := h (by simp only [if_neg ht]) .outOfBounds
        (by simp only [attributeSpan, head, if_neg ht]; rfl)
      cases hguarded
    · rintro ⟨_, _, heq, hcovered⟩
      cases heq
      rcases hcovered with hcovered | hcovered
      · exact ht hcovered
      · exact hcovered rfl
  · refine iff_of_true (fun _ => ?_) ⟨t, _, rfl, .inr (List.cons_ne_nil _ _)⟩
    refine head_guarded_iff.mpr ⟨t, _, rfl, ?_⟩
    rw [if_neg ht]
    refine head_guarded_iff.mpr ⟨attributeLength, others, rfl, ?_⟩
    split
    · exact stop_guarded _
    · exact checked_guarded _ _

theorem attributes_guarded_iff {bound : Int} :
    Guarded (attributesSpan bound) s ↔ AttributesCovered bound s := by
  simp only [AttributesCovered, ← attribute_guarded_iff]
  constructor
  · intro h k hreach hk hleft f hf
    exact h f (attributesSpan_eq_error_iff.mpr ⟨k, hreach, .inr ⟨hk, hleft, hf⟩⟩)
  · intro h f hf
    obtain ⟨k, hreach, hends⟩ := attributesSpan_eq_error_iff.mp hf
    rcases hends with ⟨-, rfl⟩ | ⟨hk, hleft, hfail⟩
    · rfl
    · exact h k hreach hk hleft f hfail

theorem data_guarded_iff : Guarded (dataSpan length) s ↔ DataCovered length s := by
  unfold dataSpan DataCovered
  by_cases hfour : length = 4
  · rw [if_pos hfour]
    exact iff_of_true (octets_guarded_iff.mpr (Nat.zero_le _)) (.inl hfour)
  rw [if_neg hfour, or_iff_right hfour, head_guarded_iff]
  refine exists_congr fun type => exists_congr fun others => and_congr_right fun _ => ?_
  by_cases haka : type.toNat = akaPrimeType
  · rw [if_pos haka, forall_prop_of_true haka, head_guarded_iff]
    refine exists_congr fun subType => exists_congr fun body => and_congr_right fun _ => ?_
    by_cases hsub : UnknownSubType subType
    · rw [if_pos hsub]
      exact iff_of_true (octets_guarded_iff.mpr (Nat.zero_le _)) (.inl hsub)
    · rw [if_neg hsub, or_iff_right hsub, octets_andThen_guarded_iff, attributes_guarded_iff]
  · rw [if_neg haka]
    refine iff_of_true ?_ fun habsurd => absurd habsurd haka
    split
    · exact checked_guarded _ _
    · exact octets_guarded_iff.mpr (Nat.zero_le _)

theorem guarded_iff : Guarded span s ↔ Covered s := by
  rw [span, head_guarded_iff]
  refine exists_congr fun code => exists_congr fun others => and_congr_right fun _ => ?_
  by_cases hcode : UnknownCode code
  · rw [if_pos hcode]
    exact iff_of_true (octets_guarded_iff.mpr (Nat.zero_le _)) (.inl hcode)
  · rw [if_neg hcode, or_iff_right hcode]
    simp only [head_guarded_iff, data_guarded_iff]
    constructor
    · rintro ⟨id, _, rfl, x, _, rfl, y, data, rfl, hdata⟩
      exact ⟨id, x, y, data, rfl, hdata⟩
    · rintro ⟨id, x, y, data, rfl, hdata⟩
      exact ⟨id, _, rfl, x, _, rfl, y, data, rfl, hdata⟩

end Eap

/-! ## Elements -/

/-- What has to be there of the octets behind a length, and of an entry where they are a list. -/
def Layout.Covered (entry : OctetString → Prop) : Layout → Nat → OctetString → Prop
  | fixed size, _, s => size ≤ s.length
  | whole, _, _ => True
  | headed, _, s => 1 ≤ s.length
  | flags known, length, s => min length known ≤ s.length
  | selected size, length, s => size length ≤ s.length
  | list element _, length, s => ∀ k, Reaches element length s k → k < length → entry (s.drop k)
  | sorContainer, length, s => IESorTransparentContainer.Covered length s
  | mobileIdentity, length, s => IE5gsMobileIdentity.Covered length s
  | eap, _, s => Eap.Covered s

def InformationElement3.Covered (s : OctetString) : InformationElement3 → Prop
  | fivegsTrackingAreaIdentity => 6 ≤ s.length
  | authenticationParameterRand => True
  | integrityProtectionMaximumDataRate => 2 ≤ s.length
  | maximumNumberOfSupportedPacketFilters => 2 ≤ s.length
  | timeZoneAndTime => 7 ≤ s.length
  | _ => 1 ≤ s.length

/-- The entry of a list. -/
def InformationElement4.EntryCovered (s : OctetString) : InformationElement4 → Prop
  | nssai => IESNssai.Covered s
  | plmnList => 3 ≤ s.length
  | rejectedNssai => VRejectedSNssai.Covered s
  | serviceAreaList => VPartialServiceAreaList.Covered s
  | fivegsTrackingAreaIdentityList => VPartialTrackingAreaIdentityList.Covered s
  | _ => True

def InformationElement6.EntryCovered (s : OctetString) : InformationElement6 → Prop
  | qoSFlowDescriptions => VQoSFlowDescription.Covered s
  | pduSessionReactivationResultErrorCause => 2 ≤ s.length
  | ladnIndication => 1 ≤ s.length
  | ladnInformation => VLadn.Covered s
  | operatorDefinedAccessCategoryDefinitions =>
    VOperatorDefinedAccessCategoryDefinition.Covered s
  | _ => True

def InformationElement.Covered (s : OctetString) : InformationElement → Prop
  | type1 _ => 1 ≤ s.length
  | type3 ie => ie.Covered s
  | type4 ie => ∃ length value, s = length :: value ∧
      ie.layout.Covered (fun s => ie.EntryCovered s) length.toNat value
  | type6 ie => ∃ x y value, s = x :: y :: value ∧
      ie.layout.Covered (fun s => ie.EntryCovered s) (x.toNat * 256 + y.toNat) value

theorem Layout.guarded_iff {layout : Layout} {entry : OctetString → Prop}
    (h : ∀ element bounded, layout = .list element bounded →
      ∀ s, entry s ↔ Guarded element s ∧ element s ≠ .ok 0) :
    Guarded (layout.span length) s ↔ layout.Covered entry length s := by
  cases layout with
  | fixed size => exact octets_guarded_iff
  | whole => exact iff_of_true (checked_guarded _ _) trivial
  | headed =>
    rw [span, octets_andThen_guarded_iff, and_iff_left (checked_guarded _ _)]
    rfl
  | flags known =>
    rw [span, flagsSpan, octets_andThen_guarded_iff, and_iff_left (checked_guarded _ _)]
    rfl
  | selected size => exact octets_guarded_iff
  | list element bounded =>
    rw [span, walk_guarded_iff bounded]
    simp only [Covered, h element bounded rfl]
  | sorContainer => exact IESorTransparentContainer.guarded_iff
  | mobileIdentity => exact IE5gsMobileIdentity.guarded_iff
  | eap => exact Eap.guarded_iff

theorem InformationElement3.guarded_iff {ie : InformationElement3} :
    Guarded ie.span s ↔ ie.Covered s := by
  cases ie with
  | authenticationParameterRand => exact iff_of_true (checked_guarded 16 s) trivial
  | _ => exact octets_guarded_iff

theorem InformationElement4.guarded_iff {ie : InformationElement4} :
    Guarded (ie.layout.span length) s ↔ ie.layout.Covered (fun s => ie.EntryCovered s) length s := by
  refine Layout.guarded_iff fun element bounded hlist s => ?_
  cases ie with
  | nssai =>
    cases hlist
    exact IESNssai.guarded_iff.symm.trans (and_iff_left (head_ne_zero s)).symm
  | plmnList =>
    cases hlist
    rw [and_iff_left (octets_ne_zero (by decide) s)]
    exact octets_guarded_iff.symm
  | rejectedNssai =>
    cases hlist
    exact VRejectedSNssai.guarded_iff.symm.trans (and_iff_left (head_ne_zero s)).symm
  | serviceAreaList =>
    cases hlist
    rw [and_iff_left (VPartialServiceAreaList.span_ne_zero s)]
    exact VPartialServiceAreaList.guarded_iff.symm
  | fivegsTrackingAreaIdentityList =>
    cases hlist
    exact VPartialTrackingAreaIdentityList.guarded_iff.symm
  | _ => cases hlist

theorem InformationElement6.guarded_iff {ie : InformationElement6} :
    Guarded (ie.layout.span length) s ↔ ie.layout.Covered (fun s => ie.EntryCovered s) length s := by
  refine Layout.guarded_iff fun element bounded hlist s => ?_
  cases ie with
  | qoSFlowDescriptions =>
    cases hlist
    exact VQoSFlowDescription.guarded_iff.symm.trans
      (and_iff_left (andThen_ne_zero (octets_ne_zero Nat.two_pos) s)).symm
  | pduSessionReactivationResultErrorCause =>
    cases hlist
    rw [and_iff_left (octets_ne_zero (by decide) s)]
    exact octets_guarded_iff.symm
  | ladnIndication =>
    cases hlist
    rw [and_iff_left (head_ne_zero s), head_guarded_iff]
    cases s with
    | nil => exact iff_of_false (Nat.not_succ_le_zero 0) fun ⟨_, _, h, _⟩ => by cases h
    | cons length dnn =>
      exact iff_of_true (Nat.le_add_left 1 _) ⟨length, dnn, rfl, checked_guarded _ _⟩
  | ladnInformation =>
    cases hlist
    rw [and_iff_left (VLadn.span_ne_zero s)]
    exact VLadn.guarded_iff.symm
  | operatorDefinedAccessCategoryDefinitions =>
    cases hlist
    exact VOperatorDefinedAccessCategoryDefinition.guarded_iff.symm.trans
      (and_iff_left (andThen_ne_zero (octets_ne_zero (Nat.succ_pos 2)) s)).symm
  | _ => cases hlist

theorem InformationElement.guarded_iff {ie : InformationElement} :
    Guarded ie.span s ↔ ie.Covered s := by
  cases ie with
  | type1 ie => exact octets_guarded_iff
  | type3 ie => exact InformationElement3.guarded_iff
  | type4 ie =>
    simp only [InformationElement.span, head_guarded_iff, InformationElement4.guarded_iff,
      InformationElement.Covered]
  | type6 ie =>
    simp only [InformationElement.span, head_guarded_iff, InformationElement6.guarded_iff,
      InformationElement.Covered]
    constructor
    · rintro ⟨x, _, rfl, y, value, rfl, hcovered⟩
      exact ⟨x, y, value, rfl, hcovered⟩
    · rintro ⟨x, y, value, rfl, hcovered⟩
      exact ⟨x, _, rfl, y, value, rfl, hcovered⟩

/-! ## Messages -/

/-- A message is decoded, or an exception raised, if and only if its header is complete and what
has to be there of every element that is met is there. -/
theorem DecodedNasMessage.decode_reads_within_iff (stream : OctetString) :
    (∀ f, decode (.start stream) = .error f → f = .exception) ↔
      HeaderComplete stream ∧ ∀ ie s, Meets stream ie s → ie.Covered s := by
  have hspans : SpansFrom 0 decode span := decode_spans
  have herror : ∀ f, decode (.start stream) = .error f ↔ span stream = .error f := by
    intro f
    cases hs : span stream with
    | ok n =>
      obtain ⟨-, a, ha⟩ := hspans.passes (le_refl 0) hs
      have hok : decode (.start stream) = .ok (a, ⟨0 + n, stream.drop n⟩) := ha
      rw [hok]
      exact iff_of_false (fun h => by cases h) fun h => by cases h
    | error e =>
      have hstop : decode (.start stream) = .error e := hspans.stops (le_refl 0) hs
      rw [hstop, Except.error.injEq, Except.error.injEq]
  simp only [herror, ← InformationElement.guarded_iff]
  constructor
  · intro h
    have hcomplete : HeaderComplete stream := by
      by_contra hcut
      cases h _ ((span_eq_error_iff (by decide)).mpr (.inl ⟨rfl, hcut⟩))
    refine ⟨hcomplete, fun ie s hmeets f hfail => ?_⟩
    by_contra hf
    exact hf (h f ((span_eq_error_iff hf).mpr (.inr ⟨ie, s, hmeets, hfail⟩)))
  · rintro ⟨hcomplete, hmet⟩ f hfail
    by_contra hf
    rcases (span_eq_error_iff hf).mp hfail with ⟨-, hcut⟩ | ⟨ie, s, hmeets, hie⟩
    · exact hcut hcomplete
    · exact hf (hmet ie s hmeets f hie)

/-- An identity request that ends before the type of the identity. -/
theorem DecodedNasMessage.identityRequest_read_behind :
    ¬∀ stream f, decode (.start stream) = .error f → f = .exception := by
  intro hall
  have hfault := hall [0x7E, 0, 0x5B] .outOfBounds rfl
  cases hfault

end Quicup.Ueransim
