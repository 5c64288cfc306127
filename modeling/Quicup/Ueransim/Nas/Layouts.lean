import Quicup.Ueransim.Nas.Spans

/-!
# How values are laid out

The spans of the values of `values.cpp`, of which an octet of the value often tells the rest. A
partial list of tracking area identities of type 11 is no octet long.
-/

namespace Quicup.Ueransim

open Span

variable {lo : Nat} {α : Type}

theorem VPlmn.decode_spans : SpansFrom lo VPlmn.decode (.octets 3) :=
  .octets_bind .readI (fun _ => .octets_bind .readI (fun _ => .octets_bind .readI (fun _ =>
    (SpansFrom.ite (fun _ => .pure _) fun _ => .pure _).congr (ite_self _)) rfl) rfl) rfl

/-- The content tells its length. -/
def VQoSFlowParameter.span : Span :=
  .head fun _ => .head fun contentLength => .checked contentLength.toNat

theorem VQoSFlowParameter.decode_spans : SpansFrom lo VQoSFlowParameter.decode span :=
  .bind_octet fun _ => .bind_octet fun _ => .bind_pure (.readOctetString _) _

/-- The flags tell how many parameters there are. -/
def VQoSFlowDescription.span : Span :=
  (octets 2).andThen (.head fun flags => .times VQoSFlowParameter.span (flags.toNat &&& 0b111111))

theorem VQoSFlowDescription.decode_spans : SpansFrom lo VQoSFlowDescription.decode span :=
  .octets_bind_andThen .readI (fun _ => .bind .readI fun _ => .bind_octet fun _ =>
    .bind_pure (.decodeTimes VQoSFlowParameter.decode_spans _) _) rfl

theorem VTrackingAreaIdentity.decode_spans :
    SpansFrom lo VTrackingAreaIdentity.decode (.octets 6) :=
  .octets_bind VPlmn.decode_spans (fun _ => .bind_pure .read3I _) rfl

theorem VTime.decode_spans : SpansFrom lo VTime.decode (.octets 6) :=
  .octets_bind .readOctet (fun _ => .octets_bind .readOctet (fun _ => .octets_bind .readOctet
    (fun _ => .octets_bind .readOctet (fun _ => .octets_bind .readOctet
      (fun _ => .bind_pure .readOctet _) rfl) rfl) rfl) rfl) rfl

/-- The octets behind the first one, by its high half. -/
def VRejectedSNssai.size (octet : UInt8) : Nat :=
  let length := octet.toNat >>> 4 &&& 0xF
  if length ≥ 1 then if length ≥ 2 then 4 else 1 else 0

def VRejectedSNssai.span : Span := .head fun octet => .octets (size octet)

theorem VRejectedSNssai.decode_spans : SpansFrom lo VRejectedSNssai.decode span := by
  refine .bind_readI fun octet => ?_
  unfold size
  by_cases hsst : octet.toNat >>> 4 &&& 0xF ≥ 1
  · by_cases hsd : octet.toNat >>> 4 &&& 0xF ≥ 2
    · simp only [hsst, hsd, if_true]
      exact .octets_bind .readOctet (fun _ => .bind_pure .read3I _) rfl
    · simp only [hsst, hsd, if_true, if_false]
      exact .octets_bind .readOctet (fun _ => .pure _) rfl
  · simp only [hsst, if_false]
    exact .pure _

/-! ## Partial lists -/

/-- Bits 5 and 6 of the first octet tell the type of a partial list. -/
def listType (octet : UInt8) : Nat := bitRange8 5 6 octet

/-- The low bits of the first octet tell the number of elements, less one. -/
def listCount (octet : UInt8) : Nat := bitRange8 0 4 octet + 1

private theorem decodeTacs_spans (f : UInt8 → VPlmn → List Nat → α) :
    SpansFrom lo (do
      let octet ← readOctet
      let plmn ← VPlmn.decode
      let tacs ← decodeTimes read3I (bitRange8 0 4 octet + 1)
      return f octet plmn tacs) (.look fun octet => .octets (3 + listCount octet * 3 + 1)) := by
  rw [← head_octets fun octet => 3 + listCount octet * 3]
  exact .bind_octet fun _ => .octets_bind VPlmn.decode_spans (fun _ => .bind_pure
    ((SpansFrom.decodeTimes .read3I _).congr (times_octets _ _)) _) rfl

private theorem decodeTais_spans (f : UInt8 → List VTrackingAreaIdentity → α) :
    SpansFrom lo (do
      let octet ← readOctet
      let tais ← decodeTimes VTrackingAreaIdentity.decode (bitRange8 0 4 octet + 1)
      return f octet tais) (.look fun octet => .octets (listCount octet * 6 + 1)) := by
  rw [← head_octets fun octet => listCount octet * 6]
  exact .bind_octet fun _ => .bind_pure
    ((SpansFrom.decodeTimes VTrackingAreaIdentity.decode_spans _).congr (times_octets _ _)) _

private theorem decodeTai_spans (f : UInt8 → VPlmn → Nat → α) :
    SpansFrom lo (do
      let octet ← readOctet
      let plmn ← VPlmn.decode
      let tac ← read3I
      return f octet plmn tac) (.octets 7) :=
  .octets_bind .readOctet (fun _ => .octets_bind VPlmn.decode_spans
    (fun _ => .bind_pure .read3I _) rfl) rfl

/-- The octets of a partial list. -/
def VPartialServiceAreaList.size (octet : UInt8) : Nat :=
  match listType octet with
  | 0b00 => 3 + listCount octet * 3 + 1
  | 0b01 => 7
  | 0b10 => listCount octet * 6 + 1
  | _ => 4

def VPartialServiceAreaList.span : Span := .look fun octet => .octets (size octet)

theorem VPartialServiceAreaList.decode_spans : SpansFrom lo VPartialServiceAreaList.decode span := by
  have hspan : SpansFrom lo VPartialServiceAreaList.decode (.look fun octet =>
      match listType octet with
      | 0b00 => .look fun octet => .octets (3 + listCount octet * 3 + 1)
      | 0b01 => .octets 7
      | 0b10 => .look fun octet => .octets (listCount octet * 6 + 1)
      | _ => .octets 4) := by
    refine .bind_peek fun octet => ?_
    unfold listType
    generalize bitRange8 5 6 octet = type
    rcases type with _ | _ | _ | type
    · exact .map _ (decodeTacs_spans _)
    · exact .map _ (decodeTai_spans _)
    · exact .map _ (decodeTais_spans _)
    · exact .map _ (.octets_bind .readOctet (fun _ => .bind_pure VPlmn.decode_spans _) rfl)
  refine hspan.congr ?_
  ext1 s
  cases s with
  | nil => rfl
  | cons x xs =>
    simp only [span, look, size]
    generalize listType x = type
    rcases type with _ | _ | _ | type <;> rfl

/-- The octets of a partial list. The type 11 has none. -/
def VPartialTrackingAreaIdentityList.size (octet : UInt8) : Nat :=
  match listType octet with
  | 0b00 => 3 + listCount octet * 3 + 1
  | 0b01 => 7
  | 0b10 => listCount octet * 6 + 1
  | _ => 0

def VPartialTrackingAreaIdentityList.span : Span := .look fun octet => .octets (size octet)

theorem VPartialTrackingAreaIdentityList.decode_spans :
    SpansFrom lo VPartialTrackingAreaIdentityList.decode span := by
  have hspan : SpansFrom lo VPartialTrackingAreaIdentityList.decode (.look fun octet =>
      match listType octet with
      | 0b00 => .look fun octet => .octets (3 + listCount octet * 3 + 1)
      | 0b01 => .octets 7
      | 0b10 => .look fun octet => .octets (listCount octet * 6 + 1)
      | _ => .octets 0) := by
    refine .bind_peek fun octet => ?_
    unfold listType
    generalize bitRange8 5 6 octet = type
    rcases type with _ | _ | _ | type
    · exact .map _ (decodeTacs_spans fun _ => VPartialTrackingAreaIdentityList00.mk)
    · exact .map _ (decodeTai_spans fun _ => VPartialTrackingAreaIdentityList01.mk)
    · exact .map _ (decodeTais_spans fun _ => VPartialTrackingAreaIdentityList10.mk)
    · exact .pure _
  refine hspan.congr ?_
  ext1 s
  cases s with
  | nil => rfl
  | cons x xs =>
    simp only [span, look, size]
    generalize listType x = type
    rcases type with _ | _ | _ | type <;> rfl

/-! ## Other values -/

theorem VPduSessionReactivationResultErrorCause.decode_spans :
    SpansFrom lo VPduSessionReactivationResultErrorCause.decode (.octets 2) :=
  .octets_bind .readI (fun _ => .bind_pure .readI _) rfl

/-- The criteria tell their length. -/
def VOperatorDefinedAccessCategoryDefinition.span : Span :=
  (octets 3).andThen (.head fun lengthOfCriteria =>
    (Span.checked lengthOfCriteria.toNat).andThen (octets 1))

theorem VOperatorDefinedAccessCategoryDefinition.decode_spans :
    SpansFrom lo VOperatorDefinedAccessCategoryDefinition.decode span :=
  .octets_bind_andThen .readI (fun _ => .octets_bind_andThen .readOctet (fun _ => .bind .readI
    fun _ => .bind_readI fun _ => .bind (.readOctetString _) fun _ => .bind_pure .readI _) rfl) rfl

theorem VPlmnIdAccessTech.decode_spans : SpansFrom lo VPlmnIdAccessTech.decode (.octets 5) :=
  .octets_bind VPlmn.decode_spans (fun _ => .bind_pure .read2US _) rfl

end Quicup.Ueransim
