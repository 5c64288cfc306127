import Quicup.Ueransim.Nas.MessageLayouts

/-!
# Whether decoding ends

A partial list of tracking area identities of type 11 takes no octet, so that a list which comes to
one below its length never ends. Every other element and loop passes an octet at least.
-/

namespace Quicup.Ueransim

open Span

variable {length : Nat} {s : OctetString} {ie : InformationElement4}

/-! ## Lists without an end -/

/-- The type of partial list that takes no octets. -/
def endlessListType : Nat := 0b11

/-- Below the length, a partial list begins that takes no octets. -/
def IE5gsTrackingAreaIdentityList.Endless (length : Nat) (s : OctetString) : Prop :=
  ∃ k octet, Reaches VPartialTrackingAreaIdentityList.span length s k ∧ k < length ∧
    s[k]? = some octet ∧ listType octet = endlessListType

/-- The list of tracking area identities behind the DNN does not end. -/
def VLadn.Endless (s : OctetString) : Prop :=
  ∃ dnnLength dnn listLength list, s = dnnLength :: (dnn ++ listLength :: list) ∧
    dnn.length = dnnLength.toNat ∧
      IE5gsTrackingAreaIdentityList.Endless listLength.toNat list

/-- Below the length, an entry begins that does not end. -/
def IELadnInformation.Endless (length : Nat) (s : OctetString) : Prop :=
  ∃ k, Reaches VLadn.span length s k ∧ k < length ∧ VLadn.Endless (s.drop k)

/-- The value of the length has a list without an end. -/
def InformationElement4.Endless (ie : InformationElement4) (length : Nat) (s : OctetString) : Prop :=
  ie = fivegsTrackingAreaIdentityList ∧ IE5gsTrackingAreaIdentityList.Endless length s

def InformationElement6.Endless (ie : InformationElement6) (length : Nat) (s : OctetString) : Prop :=
  ie = ladnInformation ∧ IELadnInformation.Endless length s

/-- Behind its length, the element has a list without an end. -/
def InformationElement.Endless (s : OctetString) : InformationElement → Prop
  | type1 _ => False
  | type3 _ => False
  | type4 ie => ∃ length value, s = length :: value ∧ ie.Endless length.toNat value
  | type6 ie => ∃ x y value, s = x :: y :: value ∧ ie.Endless (x.toNat * 256 + y.toNat) value

theorem VPartialTrackingAreaIdentityList.span_terminates :
    VPartialTrackingAreaIdentityList.span.Terminates :=
  look_terminates fun _ => octets_terminates _

theorem VPartialTrackingAreaIdentityList.size_eq_zero_iff (octet : UInt8) :
    size octet = 0 ↔ listType octet = endlessListType := by
  have hle : listType octet ≤ endlessListType := Nat.and_le_right
  unfold size
  unfold endlessListType at hle ⊢
  generalize listType octet = type at hle ⊢
  rcases type with _ | _ | _ | type
  · simp
  · simp
  · simp
  · simp only [true_iff]
    omega

theorem VPartialTrackingAreaIdentityList.span_drop_eq_zero {k : Nat} :
    VPartialTrackingAreaIdentityList.span (s.drop k) = .ok 0 ↔
      ∃ octet, s[k]? = some octet ∧ listType octet = endlessListType := by
  rw [← List.head?_drop]
  cases s.drop k with
  | nil => simp [span, look]
  | cons octet others =>
    simp only [span, look, octets_eq_ok, List.head?_cons, Option.some.injEq, exists_eq_left',
      ← size_eq_zero_iff]
    exact ⟨fun h => h.2, fun h => ⟨by omega, h⟩⟩

theorem IE5gsTrackingAreaIdentityList.endless_iff :
    walk VPartialTrackingAreaIdentityList.span length s = .error .hang ↔ Endless length s := by
  rw [walk_eq_error_iff (@VPartialTrackingAreaIdentityList.decode_spans 0).bounded]
  constructor
  · rintro ⟨k, hreach, hk, hstep⟩
    rcases hstep with hhang | ⟨-, hzero⟩
    · exact absurd hhang (VPartialTrackingAreaIdentityList.span_terminates _)
    · obtain ⟨octet, hget, htype⟩ :=
        VPartialTrackingAreaIdentityList.span_drop_eq_zero.mp hzero
      exact ⟨k, octet, hreach, hk, hget, htype⟩
  · rintro ⟨k, octet, hreach, hk, hget, htype⟩
    exact ⟨k, hreach, hk, .inr ⟨rfl,
      VPartialTrackingAreaIdentityList.span_drop_eq_zero.mpr ⟨octet, hget, htype⟩⟩⟩

theorem VLadn.endless_iff : VLadn.span s = .error .hang ↔ Endless s := by
  constructor
  · intro h
    rcases andThen_eq_error.mp h with hdnn | ⟨n, hn, hlist⟩
    · exact absurd hdnn (head_terminates (fun _ => checked_terminates _) s)
    · obtain ⟨dnnLength, others, m, rfl, hm, rfl⟩ := head_eq_ok.mp hn
      obtain ⟨hsize, hle⟩ := checked_eq_ok.mp hm
      obtain rfl : dnnLength.toNat = m := by omega
      rcases head_eq_error.mp hlist with ⟨-, habsurd⟩ | ⟨listLength, list, hd, hendless⟩
      · cases habsurd
      · rw [List.drop_succ_cons] at hd
        refine ⟨dnnLength, others.take dnnLength.toNat, listLength, list, ?_, ?_,
          IE5gsTrackingAreaIdentityList.endless_iff.mp hendless⟩
        · rw [← hd, List.take_append_drop]
        · rw [List.length_take, Nat.min_eq_left hle]
  · rintro ⟨dnnLength, dnn, listLength, list, rfl, hdnn, hendless⟩
    have hfirst : head (fun length => checked length.toNat)
        (dnnLength :: (dnn ++ listLength :: list)) = .ok (dnn.length + 1) := by
      refine head_eq_ok.mpr ⟨dnnLength, _, dnn.length, rfl, checked_eq_ok.mpr ⟨?_, ?_⟩, rfl⟩
      · rw [hdnn]
      · simp
    refine andThen_eq_error.mpr (.inr ⟨dnn.length + 1, hfirst, ?_⟩)
    rw [List.drop_succ_cons, List.drop_left]
    exact head_eq_error.mpr (.inr ⟨listLength, list, rfl,
      IE5gsTrackingAreaIdentityList.endless_iff.mpr hendless⟩)

/-- An entry has the octets of two lengths. -/
theorem VLadn.span_ne_zero : ∀ s, VLadn.span s ≠ .ok 0 := andThen_ne_zero head_ne_zero

theorem IELadnInformation.endless_iff :
    walk VLadn.span length s = .error .hang ↔ Endless length s := by
  rw [walk_eq_error_iff (@VLadn.decode_spans 0).bounded]
  constructor
  · rintro ⟨k, hreach, hk, hstep⟩
    rcases hstep with hhang | ⟨-, hzero⟩
    · exact ⟨k, hreach, hk, VLadn.endless_iff.mp hhang⟩
    · exact absurd hzero (VLadn.span_ne_zero _)
  · rintro ⟨k, hreach, hk, hendless⟩
    exact ⟨k, hreach, hk, .inl (VLadn.endless_iff.mpr hendless)⟩

/-! ## Elements without a list of tracking area identities -/

theorem InformationElement3.span_terminates (ie : InformationElement3) : ie.span.Terminates := by
  cases ie with
  | authenticationParameterRand => exact checked_terminates 16
  | _ => exact octets_terminates _

theorem IESorTransparentContainer.span_terminates (length : Nat) :
    (IESorTransparentContainer.span length).Terminates := by
  refine head_terminates fun header => ?_
  split
  · refine andThen_terminates (checked_terminates 16) (andThen_terminates (octets_terminates 2) ?_)
    split
    · exact checked_terminates _
    · exact walk_terminates (octets_bounded 5) (octets_terminates 5) (octets_ne_zero (by decide))
  · exact checked_terminates 16

theorem ImsiMobileIdentity.span_terminates (length : Int) :
    (ImsiMobileIdentity.span length).Terminates := by
  refine andThen_terminates (octets_terminates 3) (andThen_terminates (octets_terminates 2) ?_)
  refine head_terminates fun scheme => andThen_terminates (octets_terminates 1) ?_
  split
  · exact string_terminates _
  · exact checked_terminates _

theorem IE5gsMobileIdentity.span_terminates (length : Nat) :
    (IE5gsMobileIdentity.span length).Terminates := by
  refine look_terminates fun flags => ?_
  split
  · refine andThen_terminates (octets_terminates 1) ?_
    split
    · exact ImsiMobileIdentity.span_terminates _
    · exact string_terminates _
  split
  · exact octets_terminates 11
  split
  · exact octets_terminates 7
  split
  · exact octets_terminates length
  · exact octets_terminates 0

theorem Eap.attributeSpan_terminates : Eap.attributeSpan.Terminates := by
  refine head_terminates fun t => ?_
  split
  · exact stop_terminates (by decide)
  refine head_terminates fun attributeLength => ?_
  split
  · exact stop_terminates (by decide)
  · exact checked_terminates _

theorem Eap.attributesSpan_terminates (bound : Int) : (Eap.attributesSpan bound).Terminates := by
  intro s h
  obtain ⟨k, -, hends⟩ := attributesSpan_eq_error_iff.mp h
  rcases hends with ⟨-, habsurd⟩ | ⟨-, -, hhang⟩
  · cases habsurd
  · exact attributeSpan_terminates _ hhang

theorem Eap.dataSpan_terminates (length : Nat) : (Eap.dataSpan length).Terminates := by
  unfold dataSpan
  split
  · exact octets_terminates 0
  refine head_terminates fun type => ?_
  split
  · refine head_terminates fun subType => ?_
    split
    · exact octets_terminates 0
    · exact andThen_terminates (octets_terminates 2) (attributesSpan_terminates _)
  split
  · exact checked_terminates _
  · exact octets_terminates 0

theorem Eap.span_terminates : Eap.span.Terminates := by
  refine head_terminates fun code => ?_
  split
  · exact octets_terminates 0
  · exact head_terminates fun _ => head_terminates fun _ => head_terminates fun _ =>
      dataSpan_terminates _

theorem flagsSpan_terminates (known length : Nat) : (flagsSpan known length).Terminates :=
  andThen_terminates (octets_terminates _) (checked_terminates _)

theorem VPartialServiceAreaList.span_ne_zero (s : OctetString) :
    VPartialServiceAreaList.span s ≠ .ok 0 := by
  cases s with
  | nil => exact fun h => by cases h
  | cons octet others =>
    refine octets_ne_zero ?_ _
    unfold size
    split <;> omega

theorem VQoSFlowDescription.span_terminates : VQoSFlowDescription.span.Terminates := by
  refine andThen_terminates (octets_terminates 2) (head_terminates fun flags => ?_)
  exact times_terminates (head_terminates fun _ => head_terminates fun _ => checked_terminates _) _

theorem VOperatorDefinedAccessCategoryDefinition.span_terminates :
    VOperatorDefinedAccessCategoryDefinition.span.Terminates := by
  refine andThen_terminates (octets_terminates 3) (head_terminates fun lengthOfCriteria => ?_)
  exact andThen_terminates (checked_terminates _) (octets_terminates 1)

/-- Where its elements end and take octets, a list ends, and what is no list does. -/
theorem Layout.span_terminates {layout : Layout} (length : Nat)
    (h : ∀ element bounded, layout = .list element bounded →
      element.Terminates ∧ ∀ s, element s ≠ .ok 0) : (layout.span length).Terminates := by
  cases layout with
  | fixed size => exact octets_terminates size
  | whole => exact checked_terminates length
  | headed => exact andThen_terminates (octets_terminates 1) (checked_terminates _)
  | flags known => exact flagsSpan_terminates known length
  | selected size => exact octets_terminates _
  | list element bounded =>
    obtain ⟨hends, hpos⟩ := h element bounded rfl
    exact walk_terminates bounded hends hpos
  | sorContainer => exact IESorTransparentContainer.span_terminates length
  | mobileIdentity => exact IE5gsMobileIdentity.span_terminates length
  | eap => exact Eap.span_terminates

/-- The elements of type 4 end, up to the list of tracking area identities. -/
theorem InformationElement4.span_terminates (h : ie ≠ fivegsTrackingAreaIdentityList)
    (length : Nat) : (ie.layout.span length).Terminates := by
  refine Layout.span_terminates length fun element bounded hlist => ?_
  cases ie with
  | nssai =>
    cases hlist
    exact ⟨head_terminates fun _ => octets_terminates _, head_ne_zero⟩
  | plmnList =>
    cases hlist
    exact ⟨octets_terminates 3, octets_ne_zero (by decide)⟩
  | rejectedNssai =>
    cases hlist
    exact ⟨head_terminates fun _ => octets_terminates _, head_ne_zero⟩
  | serviceAreaList =>
    cases hlist
    exact ⟨look_terminates fun _ => octets_terminates _, VPartialServiceAreaList.span_ne_zero⟩
  | fivegsTrackingAreaIdentityList => exact absurd rfl h
  | _ => cases hlist

/-- The elements of type 6 end, up to the information on local area data networks. -/
theorem InformationElement6.span_terminates {ie : InformationElement6} (h : ie ≠ ladnInformation)
    (length : Nat) : (ie.layout.span length).Terminates := by
  refine Layout.span_terminates length fun element bounded hlist => ?_
  cases ie with
  | qoSFlowDescriptions =>
    cases hlist
    exact ⟨VQoSFlowDescription.span_terminates, andThen_ne_zero (octets_ne_zero (by decide))⟩
  | pduSessionReactivationResultErrorCause =>
    cases hlist
    exact ⟨octets_terminates 2, octets_ne_zero (by decide)⟩
  | ladnIndication =>
    cases hlist
    exact ⟨head_terminates fun _ => checked_terminates _, head_ne_zero⟩
  | ladnInformation => exact absurd rfl h
  | operatorDefinedAccessCategoryDefinitions =>
    cases hlist
    exact ⟨VOperatorDefinedAccessCategoryDefinition.span_terminates,
      andThen_ne_zero (octets_ne_zero (by decide))⟩
  | _ => cases hlist

theorem InformationElement4.endless_iff :
    ie.layout.span length s = .error .hang ↔ ie.Endless length s := by
  by_cases h : ie = fivegsTrackingAreaIdentityList
  · subst h
    exact IE5gsTrackingAreaIdentityList.endless_iff.trans (and_iff_right rfl).symm
  · exact iff_of_false (span_terminates h length s) fun hendless => h hendless.1

theorem InformationElement6.endless_iff {ie : InformationElement6} :
    ie.layout.span length s = .error .hang ↔ ie.Endless length s := by
  by_cases h : ie = ladnInformation
  · subst h
    exact IELadnInformation.endless_iff.trans (and_iff_right rfl).symm
  · exact iff_of_false (span_terminates h length s) fun hendless => h hendless.1

/-- An element is decoded for ever exactly where a list in it has no end. -/
theorem InformationElement.endless_iff {ie : InformationElement} :
    ie.span s = .error .hang ↔ ie.Endless s := by
  cases ie with
  | type1 ie => exact iff_of_false (octets_terminates 1 s) id
  | type3 ie => exact iff_of_false (ie.span_terminates s) id
  | type4 ie =>
    rw [InformationElement.span, head_eq_error]
    simp only [reduceCtorEq, and_false, false_or, InformationElement4.endless_iff]
    rfl
  | type6 ie =>
    rw [InformationElement.span, head_eq_error]
    simp only [reduceCtorEq, and_false, false_or, head_eq_error, InformationElement6.endless_iff]
    constructor
    · rintro ⟨x, others, rfl, y, value, rfl, hendless⟩
      exact ⟨x, y, value, rfl, hendless⟩
    · rintro ⟨x, y, value, rfl, hendless⟩
      exact ⟨x, y :: value, rfl, y, value, rfl, hendless⟩

/-! ## Decoding -/

/-- A reader is never done exactly where its span says so. -/
private theorem decode_eq_hang_iff {α : Type} {p : Read α} {σ : Span} {i : Nat}
    (hp : SpansFrom 0 p σ) : p ⟨i, s⟩ = .error .hang ↔ σ s = .error .hang := by
  cases hs : σ s with
  | ok n =>
    obtain ⟨-, a, ha⟩ := hp.passes (Nat.zero_le i) hs
    rw [ha]
    exact iff_of_false (fun h => by cases h) fun h => by cases h
  | error f =>
    rw [hp.stops (Nat.zero_le i) hs, Except.error.injEq, Except.error.injEq]

/-- The decoding of a message, and of any element by itself, ends if and only if no list that it
comes to is without an end. -/
theorem decoding_ends_iff (stream : OctetString) (ie : InformationElement) (i : Nat)
    (s : OctetString) :
    (DecodedNasMessage.decode (.start stream) ≠ .error .hang ↔
      ∀ ie s, DecodedNasMessage.Meets stream ie s → ¬ie.Endless s) ∧
    (ie.decode ⟨i, s⟩ ≠ .error .hang ↔ ¬ie.Endless s) := by
  constructor
  · have hmessage : DecodedNasMessage.decode (.start stream) = .error .hang ↔
        DecodedNasMessage.span stream = .error .hang :=
      decode_eq_hang_iff DecodedNasMessage.decode_spans
    rw [ne_eq, hmessage, DecodedNasMessage.span_eq_error_iff (by decide)]
    simp only [reduceCtorEq, false_and, false_or, InformationElement.endless_iff, not_exists,
      not_and]
  · rw [ne_eq, decode_eq_hang_iff ie.decode_spans, InformationElement.endless_iff]

/-- A configuration update command with a list of one partial list, of type 11. -/
theorem configurationUpdateCommand_never_ends :
    (¬∀ stream, DecodedNasMessage.decode (.start stream) ≠ .error .hang) ∧
      ∀ fuel, decodeList VPartialTrackingAreaIdentityList.decode 1 fuel 0 ⟨0, [0x60]⟩ =
        .error .hang := by
  constructor
  · intro hall
    exact hall [0x7E, 0, 0x54, 0x54, 1, 0x60] rfl
  · have hspans : SpansFrom 0 VPartialTrackingAreaIdentityList.decode
        VPartialTrackingAreaIdentityList.span := VPartialTrackingAreaIdentityList.decode_spans
    exact (hspans.decodeListVal_eq_hang_iff le_rfl 1).mp rfl

end Quicup.Ueransim
