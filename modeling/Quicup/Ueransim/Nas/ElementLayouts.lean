import Quicup.Ueransim.Nas.EapLayout
import Quicup.Ueransim.Nas.Elements
import Quicup.Ueransim.Nas.Layouts

/-!
# How information elements are laid out

The ways in which the decoders of types 4 and 6 go over the octets of an element, with the table
of who goes which way, and the spans that follow.
-/

namespace Quicup.Ueransim

open Span

variable {lo length : Nat} {α : Type}

/-! ## Mobile identities -/

/-- The low bits of the first octet tell the type of an identity. -/
def identityNumberOf (flags : UInt8) : Nat := flags.toNat &&& 0b111

/-- The bits of the first octet that tell the format of a SUCI. -/
def supiFormatOf (flags : UInt8) : Nat := flags.toNat >>> 4 &&& 0b111

/-- PLMN, routing indicator, scheme and key, and the scheme output in what the length leaves. -/
def ImsiMobileIdentity.span (length : Int) : Span :=
  (octets 3).andThen ((octets 2).andThen (.head fun protectionSchemaId =>
    (octets 1).andThen (if protectionSchemaId.toNat &&& 0b1111 = 0 then .string (length - 7)
      else .checked (length - 7))))

def IE5gsMobileIdentity.span (length : Nat) : Span := .look fun flags =>
  if identityNumberOf flags = IdentityType.suci then
    (octets 1).andThen (if supiFormatOf flags = imsiSupiFormat then ImsiMobileIdentity.span (length - 1)
      else .string (length - 1))
  else if identityNumberOf flags = IdentityType.guti then .octets 11
  else if identityNumberOf flags = IdentityType.tmsi then .octets 7
  else if identityNumberOf flags = IdentityType.imei ∨ identityNumberOf flags = IdentityType.imeisv then
    .octets length
  else .octets 0

theorem VAmfSetId.decode_next {f : VAmfSetId → Read α} {τ : Span} {n : Nat} (hn : 0 < n)
    (hf : ∀ a, SpansFrom lo (f a) ((octets n).andThen τ)) :
    SpansFrom lo (VAmfSetId.decode >>= f) ((octets (1 + n)).andThen τ) := by
  have hrun : (VAmfSetId.decode >>= f) = readI >>= fun octet0 => peekI >>= fun octet1 =>
      f ⟨octet0 <<< 2 ||| (octet1 >>> 6 &&& 0b11)⟩ := by
    simp only [VAmfSetId.decode, bind_assoc, pure_bind]
  rw [hrun]
  refine .octets_bind_andThen .readI (fun octet0 => ?_) rfl
  have hlook : look (fun _ => (octets n).andThen τ) = (octets n).andThen τ := by
    have hahead := ahead_andThen hn τ
    rw [← hahead]
    ext1 s
    cases s <;> rfl
  rw [← hlook]
  exact .bind_peekI fun octet1 => hf _

theorem decodeRoutingIndicator_spans : SpansFrom lo decodeRoutingIndicator (.octets 2) := by
  rw [← ahead_octets Nat.one_lt_two]
  refine .bind_peekAt 1 fun second => ?_
  by_cases hsecond : second = 0xFF
  · rw [if_pos hsecond]
    exact .octets_bind (.decodeBcdString false (by decide)) (fun _ => .octets_bind .readOctet
      (fun _ => .pure _) rfl) rfl
  · rw [if_neg hsecond]
    exact .decodeBcdString false (by decide)

theorem ImsiMobileIdentity.decode_spans {length : Int} (hlo : 1 ≤ lo + length) :
    SpansFrom lo (ImsiMobileIdentity.decode length) (span length) := by
  refine .octets_bind_from VPlmn.decode_spans fun _ => ?_
  refine .octets_bind_from decodeRoutingIndicator_spans fun _ => ?_
  refine .bind_readI fun octet => .octets_bind_from .readOctet fun _ => .bind_pure ?_ _
  unfold decodeSchemeOutput
  refine .ite (fun _ => .decodeBcdString_string false ?_) fun _ => .map _ (.readOctetString _)
  push_cast
  omega

theorem GutiMobileIdentity.decodeTmsi_spans (plmn : VPlmn) (amfRegionId : UInt8) :
    SpansFrom lo (decodeTmsi plmn amfRegionId) (.octets 6) := by
  have hspan : SpansFrom lo (decodeTmsi plmn amfRegionId) ((octets (1 + 5)).andThen (octets 0)) :=
    VAmfSetId.decode_next (by decide) fun _ => .octets_bind_andThen .readI
      (fun _ => .bind .read4UI fun _ => .pure _) rfl
  exact hspan.congr (octets_andThen 6 0)

/-- Where a position is behind at least one octet, the octets of an identity are as told. -/
theorem IE5gsMobileIdentity.decode_spans (hlo : 1 ≤ lo) (length : Nat) :
    SpansFrom lo (IE5gsMobileIdentity.decode length) (span length) := by
  refine .bind_peekI fun flags => ?_
  refine .ite (fun _ => .octets_bind_from .readI fun _ => ?_) fun _ => ?_
  · refine .ite (fun _ => .bind_pure (ImsiMobileIdentity.decode_spans ?_) _)
      fun _ => .bind_pure (.readUtf8String _) _
    push_cast
    omega
  refine .ite (fun _ => ?_) fun _ => .ite (fun _ => ?_) fun _ => .ite (fun _ => ?_) fun _ => .pure _
  · exact .octets_bind .readOctet (fun _ => .octets_bind VPlmn.decode_spans (fun _ =>
      .octets_bind .readOctet (fun _ => .bind_pure (GutiMobileIdentity.decodeTmsi_spans _ _) _)
        rfl) rfl) rfl
  · exact .octets_bind .readOctet (fun _ =>
      .bind_pure (GutiMobileIdentity.decodeTmsi_spans _ _) _) rfl
  · exact .bind_pure (.decodeBcdString true (Int.natCast_nonneg length)) _

/-! ## Steering of roaming -/

/-- MAC and counter of the information, with the packet or the list in what the length leaves. -/
def IESorTransparentContainer.span (length : Nat) : Span := .head fun header =>
  if bitAt 0 header = false then
    (Span.checked 16).andThen ((octets 2).andThen (
      if bitAt 2 header = false then .checked (length - 19)
      else .walk (octets 5) (sizeT (length - 19))))
  else .checked 16

theorem IESorTransparentContainer.decode_spans (length : Nat) :
    SpansFrom lo (IESorTransparentContainer.decode length) (span length) := by
  refine .bind_octet fun header => .ite (fun _ => ?_) fun _ => .bind_pure (.readOctetString 16) _
  refine .bind (.readOctetString 16) fun _ => .bind .read2US fun _ => ?_
  exact .ite (fun _ => .bind_pure (.readOctetString _) _)
    fun _ => .bind_pure (.decodeListVal VPlmnIdAccessTech.decode_spans _) _

/-! ## Fields that the length selects -/

/-- A length that is reserved selects no octet. -/
def IESNssai.size (length : Nat) : Nat :=
  if length = 1 ∨ length = 2 ∨ length = 4 ∨ length = 5 ∨ length = 8 then length else 0

theorem IESNssai.decode_spans (length : Nat) :
    SpansFrom lo (IESNssai.decode length) (.octets (size length)) := by
  by_cases hknown : length = 1 ∨ length = 2 ∨ length = 4 ∨ length = 5 ∨ length = 8
  · rw [size, if_pos hknown]
    rcases hknown with rfl | rfl | rfl | rfl | rfl
    · exact .bind_pure .readOctet _
    · exact .octets_bind .readOctet (fun _ => .bind_pure .readOctet _) rfl
    · exact .octets_bind .readOctet (fun _ => .bind_pure .read3I _) rfl
    · exact .octets_bind .readOctet (fun _ => .octets_bind .read3I
        (fun _ => .bind_pure .readOctet _) rfl) rfl
    · exact .octets_bind .readOctet (fun _ => .octets_bind .read3I
        (fun _ => .octets_bind .readOctet (fun _ => .bind_pure .read3I _) rfl) rfl) rfl
  · rw [size, if_neg hknown, IESNssai.decode, if_neg (by omega), if_neg (by omega),
      if_neg (by omega), if_neg (by omega), if_neg (by omega)]
    exact .pure _

def IE5gsNetworkFeatureSupport.size (length : Nat) : Nat :=
  if length > 1 then if length > 2 then 3 else 2 else 1

theorem IE5gsNetworkFeatureSupport.decode_spans (length : Nat) :
    SpansFrom lo (IE5gsNetworkFeatureSupport.decode length) (.octets (size length)) := by
  have hspan : SpansFrom lo (IE5gsNetworkFeatureSupport.decode length) ((octets 1).andThen
      (if (length : Int) > 1 then (octets 1).andThen (if (length : Int) > 2 then octets 1 else octets 0)
        else octets 0)) := by
    refine .bind .readOctet fun _ => .ite (fun _ => .bind .readOctet fun _ => ?_) fun _ => .pure _
    exact .ite (fun _ => .bind_pure .readOctet _) fun _ => .pure _
  refine hspan.congr ?_
  unfold size
  by_cases hone : length > 1
  · by_cases htwo : length > 2
    · rw [if_pos (by omega), if_pos (by omega), if_pos hone, if_pos htwo, octets_andThen,
        octets_andThen]
    · rw [if_pos (by omega), if_neg (by omega), if_pos hone, if_neg htwo, octets_andThen,
        octets_andThen]
  · rw [if_neg (by omega), if_neg hone, octets_andThen]

def IES1ModeToN1ModeNasTransparentContainer.size (length : Nat) : Nat :=
  if length ≥ 9 then 10 else 8

theorem IES1ModeToN1ModeNasTransparentContainer.decode_spans (length : Nat) :
    SpansFrom lo (IES1ModeToN1ModeNasTransparentContainer.decode length) (.octets (size length)) := by
  have hspan : SpansFrom lo (IES1ModeToN1ModeNasTransparentContainer.decode length)
      ((octets 8).andThen (if (length : Int) ≥ 9 then octets 2 else octets 0)) := by
    refine .octets_bind_andThen .read4UI (fun _ => .octets_bind_andThen .readOctet (fun _ =>
      .octets_bind_andThen .readOctet (fun _ => .bind .read2US fun _ => ?_) rfl) rfl) rfl
    exact .ite (fun _ => .bind_pure .read2US _) fun _ => .pure _
  refine hspan.congr ?_
  unfold size
  by_cases hnine : length ≥ 9
  · rw [if_pos (by omega), if_pos hnine, octets_andThen]
  · rw [if_neg (by omega), if_neg hnine, octets_andThen]

theorem decodePsi_spans : SpansFrom lo decodePsi (.octets 2) :=
  .octets_bind .readOctet (fun _ => .bind_pure .readOctet _) rfl

theorem decodeFlags_spans (length number : Nat) :
    SpansFrom lo (decodeFlags length number) (.octets (if length ≥ number then 1 else 0)) := by
  unfold decodeFlags
  by_cases h : length ≥ number
  · rw [if_pos h, if_pos (by exact_mod_cast h)]
    exact .bind_pure .readOctet _
  · rw [if_neg h, if_neg (by exact_mod_cast h)]
    exact .pure _

/-- Octets of flags that are known, and spare ones behind them. -/
def flagsSpan (known length : Nat) : Span :=
  (octets (min length known)).andThen (.checked ((length - known : Nat) : Int))

private theorem spareOctets_spans (a : α) (known length : Nat) :
    SpansFrom lo (if (length : Int) ≥ (known + 1 : Nat) then do
        let _ ← readOctetString ((length : Int) - known)
        return a
      else return a) (.checked ((length - known : Nat) : Int)) := by
  by_cases h : length ≥ known + 1
  · rw [if_pos (by omega)]
    refine (SpansFrom.bind_pure (.readOctetString _) _).congr ?_
    rw [Int.ofNat_sub (by omega)]
  · rw [if_neg (by omega), Nat.sub_eq_zero_of_le (by omega)]
    exact (SpansFrom.pure a).congr checked_zero.symm

theorem IES1UeNetworkCapability.decode_spans (length : Nat) :
    SpansFrom lo (IES1UeNetworkCapability.decode length) (flagsSpan 7 length) := by
  have hsum : (if length ≥ 1 then 1 else 0) + ((if length ≥ 2 then 1 else 0) +
      ((if length ≥ 3 then 1 else 0) + ((if length ≥ 4 then 1 else 0) +
        ((if length ≥ 5 then 1 else 0) + ((if length ≥ 6 then 1 else 0) +
          if length ≥ 7 then 1 else 0))))) = min length 7 := by
    split_ifs <;> omega
  unfold flagsSpan
  rw [← hsum]
  exact .octets_bind_andThen (decodeFlags_spans length 1) (fun _ =>
    .octets_bind_andThen (decodeFlags_spans length 2) (fun _ =>
      .octets_bind_andThen (decodeFlags_spans length 3) (fun _ =>
        .octets_bind_andThen (decodeFlags_spans length 4) (fun _ =>
          .octets_bind_andThen (decodeFlags_spans length 5) (fun _ =>
            .octets_bind_andThen (decodeFlags_spans length 6) (fun _ =>
              .bind (decodeFlags_spans length 7) fun _ => spareOctets_spans _ 7 length)
                rfl) rfl) rfl) rfl) rfl) rfl

theorem IEUeSecurityCapability.decode_spans (length : Nat) :
    SpansFrom lo (IEUeSecurityCapability.decode length) (flagsSpan 4 length) := by
  have hsum : (if length ≥ 1 then 1 else 0) + ((if length ≥ 2 then 1 else 0) +
      ((if length ≥ 3 then 1 else 0) + if length ≥ 4 then 1 else 0)) = min length 4 := by
    split_ifs <;> omega
  unfold flagsSpan
  rw [← hsum]
  exact .octets_bind_andThen (decodeFlags_spans length 1) (fun _ =>
    .octets_bind_andThen (decodeFlags_spans length 2) (fun _ =>
      .octets_bind_andThen (decodeFlags_spans length 3) (fun _ =>
        .bind (decodeFlags_spans length 4) fun _ => spareOctets_spans _ 4 length) rfl) rfl) rfl

/-! ## Local area data networks -/

/-- A DNN and a list of tracking area identities, each of type 4. -/
def VLadn.span : Span :=
  (Span.head fun length => .checked length.toNat).andThen
    (.head fun length => .walk VPartialTrackingAreaIdentityList.span length.toNat)

theorem sizeT_natCast (h : length < 65536) : sizeT length = length := by
  unfold sizeT
  omega

theorem IE5gsTrackingAreaIdentityList.decode_spans (h : length < 65536) :
    SpansFrom lo (IE5gsTrackingAreaIdentityList.decode length)
      (.walk VPartialTrackingAreaIdentityList.span length) :=
  .bind_pure ((SpansFrom.decodeListVal VPartialTrackingAreaIdentityList.decode_spans _).congr
    (by rw [sizeT_natCast h])) _

theorem VLadn.decode_spans : SpansFrom lo VLadn.decode span :=
  .bind (.decodeIe4 fun _ _ => .readOctetString _) fun _ => .bind_pure
    (.decodeIe4 fun _ h => IE5gsTrackingAreaIdentityList.decode_spans (h.trans (by decide))) _

/-! ## The layouts -/

/-- How a decoder that is given a length goes over the octets. -/
inductive Layout
  /-- So many octets, whatever the length. -/
  | fixed (size : Nat)
  /-- The octets of the length, checked. -/
  | whole
  /-- An octet, and what the length leaves, checked. -/
  | headed
  /-- Octets of flags up to the length, and spare ones. -/
  | flags (known : Nat)
  /-- Fields that the length selects. -/
  | selected (size : Nat → Nat)
  /-- Elements until they reach the length. -/
  | list (element : Span) (bounded : element.Bounded)
  | sorContainer
  | mobileIdentity
  | eap

def Layout.span : Layout → Nat → Span
  | fixed size, _ => .octets size
  | whole, length => .checked length
  | headed, length => (octets 1).andThen (.checked (length - 1))
  | flags known, length => flagsSpan known length
  | selected size, length => .octets (size length)
  | list element _, length => .walk element length
  | sorContainer, length => IESorTransparentContainer.span length
  | mobileIdentity, length => IE5gsMobileIdentity.span length
  | eap, _ => Eap.span

def InformationElement4.layout : InformationElement4 → Layout
  | daylightSavingTime => .fixed 1
  | pduSessionReactivationResult => .fixed 2
  | pduAddress => .headed
  | sNssai => .selected IESNssai.size
  | additional5gSecurityInformation => .fixed 1
  | s1UeNetworkCapability => .flags 7
  | gprsTimer3 => .fixed 1
  | authenticationFailureParameter => .whole
  | abba => .whole
  | s1ModeToN1ModeNasTransparentContainer =>
    .selected IES1ModeToN1ModeNasTransparentContainer.size
  | gprsTimer2 => .fixed 1
  | fivegSmCapability => .headed
  | ueSecurityCapability => .flags 4
  | sessionAmbr => .fixed 6
  | authenticationParameterAutn => .whole
  | fivegsUpdateType => .fixed 1
  | uplinkDataStatus => .fixed 2
  | additionalInformation => .whole
  | authenticationResponseParameter => .whole
  | ueStatus => .fixed 1
  | fivegsRegistrationResult => .fixed 1
  | networkName => .headed
  | uesUsageSetting => .fixed 1
  | intraN1ModeNasTransparentContainer => .fixed 7
  | allowedPduSessionStatus => .fixed 2
  | pduSessionStatus => .fixed 2
  | fivegsDrxParameters => .fixed 1
  | fivegMmCapability => .fixed 1
  | smPduDnRequestContainer => .whole
  | fivegsNetworkFeatureSupport => .selected IE5gsNetworkFeatureSupport.size
  | dnn => .whole
  | nssai =>
    .list (.head fun length => .octets (IESNssai.size length.toNat))
      (head_bounded fun _ => octets_bounded _)
  | plmnList => .list (.octets 3) (octets_bounded 3)
  | emergencyNumberList => .whole
  | rejectedNssai => .list VRejectedSNssai.span (@VRejectedSNssai.decode_spans 0).bounded
  | serviceAreaList =>
    .list VPartialServiceAreaList.span (@VPartialServiceAreaList.decode_spans 0).bounded
  | fivegsTrackingAreaIdentityList =>
    .list VPartialTrackingAreaIdentityList.span
      (@VPartialTrackingAreaIdentityList.decode_spans 0).bounded

def InformationElement6.layout : InformationElement6 → Layout
  | qoSFlowDescriptions =>
    .list VQoSFlowDescription.span (@VQoSFlowDescription.decode_spans 0).bounded
  | payloadContainer => .whole
  | extendedEmergencyNumberList => .whole
  | epsNasMessageContainer => .whole
  | nasMessageContainer => .whole
  | extendedProtocolConfigurationOptions => .headed
  | pduSessionReactivationResultErrorCause => .list (.octets 2) (octets_bounded 2)
  | ladnIndication =>
    .list (.head fun length => .checked length.toNat) (head_bounded fun _ => checked_bounded _)
  | ladnInformation => .list VLadn.span (@VLadn.decode_spans 0).bounded
  | operatorDefinedAccessCategoryDefinitions =>
    .list VOperatorDefinedAccessCategoryDefinition.span
      (@VOperatorDefinedAccessCategoryDefinition.decode_spans 0).bounded
  | mappedEpsBearerContexts => .whole
  | qoSRules => .whole
  | sorTransparentContainer => .sorContainer
  | fivegsMobileIdentity => .mobileIdentity
  | eapMessage => .eap

private theorem decodeList_spans {β : Type} {p : Read α} {σ : Span} (f : List α → β)
    (hp : SpansFrom lo p σ) (h : length < 65536) :
    SpansFrom lo (do
      let (_, list) ← decodeListVal p length
      return f list) (.walk σ length) :=
  .bind_pure ((hp.decodeListVal _).congr (by rw [sizeT_natCast h])) _

/-- The decoders of type 4 go over the octets as the table tells. -/
theorem InformationElement4.decode_spans (ie : InformationElement4) (h : length < 65536) :
    SpansFrom lo (ie.decode length) (ie.layout.span length) := by
  cases ie with
  | daylightSavingTime => exact .bind_pure .readI _
  | pduSessionReactivationResult => exact .map _ decodePsi_spans
  | pduAddress => exact .bind .readI fun _ => .bind_pure (.readOctetString _) _
  | sNssai => exact IESNssai.decode_spans length
  | additional5gSecurityInformation => exact .bind_pure .readI _
  | s1UeNetworkCapability => exact IES1UeNetworkCapability.decode_spans length
  | gprsTimer3 => exact .bind_pure .readOctet _
  | authenticationFailureParameter => exact .readOctetString _
  | abba => exact .readOctetString _
  | s1ModeToN1ModeNasTransparentContainer =>
    exact IES1ModeToN1ModeNasTransparentContainer.decode_spans length
  | gprsTimer2 => exact .bind_pure .readOctet _
  | fivegSmCapability => exact .bind .readI fun _ => .bind_pure (.readOctetString _) _
  | ueSecurityCapability => exact IEUeSecurityCapability.decode_spans length
  | sessionAmbr =>
    exact .octets_bind .readI (fun _ => .octets_bind .read2US (fun _ => .octets_bind .readI
      (fun _ => .bind_pure .read2US _) rfl) rfl) rfl
  | authenticationParameterAutn => exact .readOctetString _
  | fivegsUpdateType => exact .bind_pure .readI _
  | uplinkDataStatus => exact .map _ decodePsi_spans
  | additionalInformation => exact .readOctetString _
  | authenticationResponseParameter => exact .readOctetString _
  | ueStatus => exact .bind_pure .readI _
  | fivegsRegistrationResult => exact .bind_pure .readI _
  | networkName => exact .bind .readI fun _ => .bind_pure (.readOctetString _) _
  | uesUsageSetting => exact .bind_pure .readI _
  | intraN1ModeNasTransparentContainer =>
    exact .octets_bind .read4UI (fun _ => .octets_bind .readOctet (fun _ => .octets_bind .readOctet
      (fun _ => .bind_pure .readOctet _) rfl) rfl) rfl
  | allowedPduSessionStatus => exact .map _ decodePsi_spans
  | pduSessionStatus => exact .map _ decodePsi_spans
  | fivegsDrxParameters => exact .bind_pure .readI _
  | fivegMmCapability => exact .bind_pure .readOctet _
  | smPduDnRequestContainer => exact .readOctetString _
  | fivegsNetworkFeatureSupport => exact IE5gsNetworkFeatureSupport.decode_spans length
  | dnn => exact .readOctetString _
  | nssai =>
    exact decodeList_spans IENssai.mk
      (.decodeIe4 fun size _ => IESNssai.decode_spans size) h
  | plmnList => exact decodeList_spans IEPlmnList.mk VPlmn.decode_spans h
  | emergencyNumberList => exact .readOctetString _
  | rejectedNssai => exact decodeList_spans IERejectedNssai.mk VRejectedSNssai.decode_spans h
  | serviceAreaList =>
    exact decodeList_spans IEServiceAreaList.mk VPartialServiceAreaList.decode_spans h
  | fivegsTrackingAreaIdentityList => exact IE5gsTrackingAreaIdentityList.decode_spans h

/-- The decoders of type 6 go over the octets as the table tells. -/
theorem InformationElement6.decode_spans (ie : InformationElement6)
    (hlo : ie = fivegsMobileIdentity → 1 ≤ lo) (h : length < 65536) :
    SpansFrom lo (ie.decode length) (ie.layout.span length) := by
  cases ie with
  | qoSFlowDescriptions =>
    exact decodeList_spans IEQoSFlowDescriptions.mk VQoSFlowDescription.decode_spans h
  | payloadContainer => exact .readOctetString _
  | extendedEmergencyNumberList => exact .readOctetString _
  | epsNasMessageContainer => exact .readOctetString _
  | nasMessageContainer => exact .readOctetString _
  | extendedProtocolConfigurationOptions =>
    exact .bind .readOctet fun _ => .bind_pure (.readOctetString _) _
  | pduSessionReactivationResultErrorCause =>
    exact decodeList_spans IEPduSessionReactivationResultErrorCause.mk
      VPduSessionReactivationResultErrorCause.decode_spans h
  | ladnIndication =>
    exact decodeList_spans IELadnIndication.mk (.decodeIe4 fun _ _ => .readOctetString _) h
  | ladnInformation => exact decodeList_spans IELadnInformation.mk VLadn.decode_spans h
  | operatorDefinedAccessCategoryDefinitions =>
    exact decodeList_spans IEOperatorDefinedAccessCategoryDefinitions.mk
      VOperatorDefinedAccessCategoryDefinition.decode_spans h
  | mappedEpsBearerContexts => exact .readOctetString _
  | qoSRules => exact .readOctetString _
  | sorTransparentContainer => exact IESorTransparentContainer.decode_spans length
  | fivegsMobileIdentity => exact IE5gsMobileIdentity.decode_spans (hlo rfl) length
  | eapMessage => exact decodeEapPdu_spans

end Quicup.Ueransim
