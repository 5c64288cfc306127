import Quicup.Ueransim.Nas.Decode
import Quicup.Ueransim.Nas.ElementLayouts

/-!
# The elements that a message is made of

The octets that the decoder of a message goes over are those of its header and of one element
after the other. A fault other than an exception is that of an element which is met, or of a header
that is cut off.
-/

namespace Quicup.Ueransim

open Span

variable {lo : Nat}

/-! ## Elements -/

def InformationElement3.span : InformationElement3 → Span
  | fivegsTrackingAreaIdentity => .octets 6
  | authenticationParameterRand => .checked 16
  | integrityProtectionMaximumDataRate => .octets 2
  | maximumNumberOfSupportedPacketFilters => .octets 2
  | timeZoneAndTime => .octets 7
  | _ => .octets 1

theorem InformationElement3.decode_spans (ie : InformationElement3) :
    SpansFrom lo ie.decode ie.span := by
  cases ie with
  | fivegMmCause => exact .bind_pure .readI _
  | fivegsTrackingAreaIdentity =>
    exact .octets_bind VPlmn.decode_spans (fun _ => .bind_pure .read3I _) rfl
  | authenticationParameterRand => exact .bind_pure (.readOctetString 16) _
  | epsNasSecurityAlgorithms => exact .bind_pure .readI _
  | gprsTimer => exact .bind_pure .readOctet _
  | integrityProtectionMaximumDataRate =>
    exact .octets_bind .readI (fun _ => .bind_pure .readI _) rfl
  | maximumNumberOfSupportedPacketFilters => exact .bind_pure .read2I _
  | n1ModeToS1ModeNasTransparentContainer => exact .bind_pure .readOctet _
  | nasSecurityAlgorithms => exact .bind_pure .readI _
  | pduSessionIdentity2 => exact .bind_pure .readOctet _
  | timeZone => exact .bind_pure .readOctet _
  | timeZoneAndTime =>
    exact .octets_bind VTime.decode_spans (fun _ => .bind_pure .readOctet _) rfl
  | fivegSmCause => exact .bind_pure .readI _

namespace InformationElement

def span : InformationElement → Span
  | type1 _ => .octets 1
  | type3 ie => ie.span
  | type4 ie => .head fun length => ie.layout.span length.toNat
  | type6 ie => .head fun x => .head fun y => ie.layout.span (x.toNat * 256 + y.toNat)

/-- Behind the octets of a length, every position is good for a mobile identity. -/
theorem decode_spans (ie : InformationElement) : SpansFrom lo ie.decode ie.span := by
  cases ie with
  | type1 ie => exact .bind_pure .readI _
  | type3 ie => exact ie.decode_spans
  | type4 ie => exact .decodeIe4 fun length h => ie.decode_spans (h.trans (by decide))
  | type6 ie =>
    exact .decodeIe6 (τ := ie.layout.span) fun length h => ie.decode_spans (fun _ => by omega) h

end InformationElement

/-! ## What a builder makes of a body -/

namespace MandatoryDecoder

/-- The element that takes the octets, which for a pair is any of the two. -/
def element : MandatoryDecoder → InformationElement
  | mandatoryIE1 ie => .type1 ie
  | mandatoryIE1Pair _ ie2 => .type1 ie2
  | mandatoryIE ie => ie

theorem decode_spans (decoder : MandatoryDecoder) :
    SpansFrom lo decoder.decode decoder.element.span := by
  cases decoder with
  | mandatoryIE1 ie => exact .bind_pure (InformationElement.decode_spans (.type1 ie)) _
  | mandatoryIE1Pair ie1 ie2 => exact .bind_pure .readI _
  | mandatoryIE ie => exact .bind_pure ie.decode_spans _

end MandatoryDecoder

namespace OptionalDecoder

/-- An element of type 1 has its IEI in its own octet. -/
def ieiSize (decoder : OptionalDecoder) : Nat :=
  match decoder.ie with
  | .type1 _ => 0
  | _ => 1

theorem ieiSize_le (decoder : OptionalDecoder) : decoder.ieiSize ≤ 1 := by
  unfold ieiSize
  split <;> decide

def span (decoder : OptionalDecoder) : Span :=
  (octets decoder.ieiSize).andThen decoder.ie.span

theorem decode_spans (decoder : OptionalDecoder) : SpansFrom lo decoder.decode decoder.span := by
  obtain ⟨iei, ie⟩ := decoder
  cases ie with
  | type1 ie =>
    have hspan : span ⟨iei, .type1 ie⟩ = octets 1 := octets_andThen 0 1
    rw [hspan]
    exact .bind_pure (InformationElement.decode_spans (.type1 ie)) _
  | type3 ie => exact .bind .readI fun _ => .bind_pure (InformationElement.decode_spans (.type3 ie)) _
  | type4 ie => exact .bind .readI fun _ => .bind_pure (InformationElement.decode_spans (.type4 ie)) _
  | type6 ie => exact .bind .readI fun _ => .bind_pure (InformationElement.decode_spans (.type6 ie)) _

/-- Every optional element takes an octet at least. -/
theorem span_ne_zero (decoder : OptionalDecoder) (s : OctetString) : decoder.span s ≠ .ok 0 := by
  intro h
  obtain ⟨m, n, hm, hn, hsum⟩ := andThen_eq_ok.mp h
  obtain ⟨-, hsize⟩ := octets_eq_ok.mp hm
  obtain ⟨iei, ie⟩ := decoder
  cases ie with
  | type1 ie =>
    obtain ⟨-, hone⟩ := octets_eq_ok.mp hn
    omega
  | type3 ie =>
    change 1 = m at hsize
    omega
  | type4 ie =>
    change 1 = m at hsize
    omega
  | type6 ie =>
    change 1 = m at hsize
    omega

end OptionalDecoder

namespace NasMessageBuilder

variable (builder : NasMessageBuilder) {s : OctetString} {f : Fault}

def mandatorySpan : List MandatoryDecoder → Span
  | [] => .octets 0
  | decoder :: decoders => decoder.element.span.andThen (mandatorySpan decoders)

def optionalSpan : Span := .look fun octet =>
  match builder.optionalDecoder octet.toNat with
  | some decoder => decoder.span
  | none => .stop .exception

def span : Span :=
  (mandatorySpan builder.mandatoryDecoders).andThen fun s => walk builder.optionalSpan s.length s

theorem decodeMandatory_spans (decoders : List MandatoryDecoder) :
    SpansFrom lo (decodeMandatory decoders) (mandatorySpan decoders) := by
  induction decoders with
  | nil => exact .pure []
  | cons decoder decoders ih => exact decoder.decode_spans.bind fun _ => ih.bind_pure _

theorem decodeOptional_spans : SpansFrom lo builder.decodeOptional builder.optionalSpan := by
  refine .bind_peekI fun octet => ?_
  cases builder.optionalDecoder octet.toNat with
  | none => exact .fault _
  | some decoder => exact .bind_pure decoder.decode_spans _

theorem optionalSpan_ne_zero (s : OctetString) : builder.optionalSpan s ≠ .ok 0 := by
  intro h
  cases s with
  | nil => cases h
  | cons octet others =>
    simp only [optionalSpan, look] at h
    cases hdecoder : builder.optionalDecoder octet.toNat with
    | none =>
      rw [hdecoder] at h
      cases h
    | some decoder =>
      rw [hdecoder] at h
      exact decoder.span_ne_zero _ h

section Loop

variable {i k fuel : Nat}

private theorem decodeOptionals_next (hk : k < s.length) :
    builder.decodeOptionals (fuel + 1) ⟨i + k, s.drop k⟩ =
      (do
        let r ← builder.decodeOptional ⟨i + k, s.drop k⟩
        let r' ← builder.decodeOptionals fuel r.2
        return (r.1 :: r'.1, r'.2)) := by
  obtain ⟨x, xs, hd⟩ : ∃ x xs, s.drop k = x :: xs :=
    List.exists_cons_of_ne_nil fun h => absurd (List.drop_eq_nil_iff.mp h) (by omega)
  rw [hd]
  rfl

private theorem decodeOptionals_end (hk : s.length ≤ k) :
    builder.decodeOptionals (fuel + 1) ⟨i, s.drop k⟩ = .ok ([], ⟨i, s.drop k⟩) := by
  rw [List.drop_eq_nil_of_le hk]
  rfl

/-- The loop goes over element after element to the end of the octets. -/
private theorem decodeOptionals_walk (fuel : Nat) (hk : k ≤ s.length) :
    (∀ n, walkFrom builder.optionalSpan s.length s fuel k = .ok n → n ≤ s.length ∧
      ∃ r, builder.decodeOptionals fuel ⟨i + k, s.drop k⟩ = .ok (r, ⟨i + n, s.drop n⟩)) ∧
    ∀ f, walkFrom builder.optionalSpan s.length s fuel k = .error f →
      builder.decodeOptionals fuel ⟨i + k, s.drop k⟩ = .error f := by
  have hspans : SpansFrom 0 builder.decodeOptional builder.optionalSpan :=
    builder.decodeOptional_spans
  induction fuel generalizing k with
  | zero =>
    refine ⟨fun n hn => ?_, fun f hf => ?_⟩
    · cases hn
    · cases hf
      rfl
  | succ fuel ih =>
    by_cases hbound : k < s.length
    · rw [walkFrom, if_pos hbound, builder.decodeOptionals_next hbound]
      cases hn : builder.optionalSpan (s.drop k) with
      | error e =>
        rw [hspans.stops (Nat.zero_le (i + k)) hn]
        refine ⟨fun n h => ?_, fun f h => ?_⟩
        · cases h
        · cases h
          rfl
      | ok n =>
        have hpos : n ≠ 0 := by
          rintro rfl
          exact builder.optionalSpan_ne_zero _ hn
        obtain ⟨hle, a, ha⟩ := hspans.passes (Nat.zero_le (i + k)) hn
        rw [List.length_drop] at hle
        rw [ha, List.drop_drop, Nat.add_assoc]
        have hnext : (do
            let n ← (Except.ok n : Except Fault Nat)
            if n = 0 then .error .hang
            else walkFrom builder.optionalSpan s.length s fuel (k + n)) =
              walkFrom builder.optionalSpan s.length s fuel (k + n) := if_neg hpos
        rw [hnext]
        obtain ⟨hok, herr⟩ := ih (k := k + n) (by omega)
        refine ⟨fun m hm => ?_, fun f hf => ?_⟩
        · obtain ⟨hle', r, hr⟩ := hok m hm
          refine ⟨hle', a :: r, ?_⟩
          change (builder.decodeOptionals fuel ⟨i + (k + n), s.drop (k + n)⟩ >>= fun r' =>
            Pure.pure (a :: r'.1, r'.2)) = _
          rw [hr]
          rfl
        · change (builder.decodeOptionals fuel ⟨i + (k + n), s.drop (k + n)⟩ >>= fun r' =>
            Pure.pure (a :: r'.1, r'.2)) = _
          rw [herr f hf]
          rfl
    · obtain rfl : k = s.length := by omega
      rw [walkFrom, if_neg hbound, builder.decodeOptionals_end le_rfl]
      refine ⟨fun n h => ?_, fun f h => ?_⟩
      · cases h
        exact ⟨le_rfl, [], rfl⟩
      · cases h

end Loop

theorem decode_spans : SpansFrom lo builder.decode builder.span := by
  refine .bind (decodeMandatory_spans _) fun mandatory => .bind_pure ?_ _
  constructor
  · intro i s n _ hn
    exact (builder.decodeOptionals_walk (i := i) (s.length + 1) (Nat.zero_le _)).1 n hn
  · intro i s f _ hf
    exact (builder.decodeOptionals_walk (i := i) (s.length + 1) (Nat.zero_le _)).2 f hf

/-! ## Elements that are met -/

/-- Decoding a body comes to an element, whose octets (without an IEI) start a rest of it. -/
inductive Meets (s : OctetString) : InformationElement → OctetString → Prop
  | mandatory {before after : List MandatoryDecoder} {decoder : MandatoryDecoder} {n : Nat}
      (listed : builder.mandatoryDecoders = before ++ decoder :: after)
      (passed : mandatorySpan before s = .ok n) : Meets s decoder.element (s.drop n)
  | optional {n k : Nat} {octet : UInt8} {decoder : OptionalDecoder}
      (passed : mandatorySpan builder.mandatoryDecoders s = .ok n)
      (reached : Reaches builder.optionalSpan (s.drop n).length (s.drop n) k)
      (next : (s.drop n)[k]? = some octet)
      (found : builder.optionalDecoder octet.toNat = some decoder) :
      Meets s decoder.ie (s.drop (n + k + decoder.ieiSize))

/-- A mandatory element fails behind those that pass. -/
private theorem mandatorySpan_eq_error {decoders : List MandatoryDecoder} :
    mandatorySpan decoders s = .error f ↔ ∃ before decoder after n,
      decoders = before ++ decoder :: after ∧ mandatorySpan before s = .ok n ∧
        decoder.element.span (s.drop n) = .error f := by
  induction decoders generalizing s with
  | nil =>
    constructor
    · intro h
      exact absurd (octets_eq_error.mp h).1 (Nat.not_lt_zero _)
    · rintro ⟨before, decoder, after, n, h, -⟩
      exact absurd h (List.append_ne_nil_of_right_ne_nil _ (List.cons_ne_nil _ _)).symm
  | cons decoder decoders ih =>
    constructor
    · intro h
      rcases andThen_eq_error.mp h with hfirst | ⟨n, hn, hothers⟩
      · exact ⟨[], decoder, decoders, 0, rfl, rfl, hfirst⟩
      · obtain ⟨before, failing, after, m, rfl, hm, hfail⟩ := ih.mp hothers
        refine ⟨decoder :: before, failing, after, n + m, rfl, ?_, ?_⟩
        · exact andThen_eq_ok.mpr ⟨n, m, hn, hm, rfl⟩
        · rwa [← List.drop_drop]
    · rintro ⟨before, failing, after, k, hlist, hk, hfail⟩
      cases before with
      | nil =>
        obtain ⟨rfl, -⟩ := List.cons.inj hlist
        obtain ⟨-, rfl⟩ := octets_eq_ok.mp hk
        exact andThen_eq_error.mpr (.inl hfail)
      | cons first before =>
        obtain ⟨rfl, rfl⟩ := List.cons.inj hlist
        obtain ⟨n, m, hn, hm, rfl⟩ := andThen_eq_ok.mp hk
        rw [← List.drop_drop] at hfail
        exact andThen_eq_error.mpr (.inr ⟨n, hn, ih.mpr ⟨before, failing, after, m, rfl, hm, hfail⟩⟩)

variable {builder} in
/-- Behind its IEI, an optional element fails as its own octets do. -/
private theorem optionalSpan_eq_error {k : Nat} (hk : k < s.length) (hf : f ≠ .exception) :
    builder.optionalSpan (s.drop k) = .error f ↔ ∃ octet decoder, s[k]? = some octet ∧
      builder.optionalDecoder octet.toNat = some decoder ∧
        decoder.ie.span (s.drop (k + decoder.ieiSize)) = .error f := by
  have hlook : builder.optionalSpan (s.drop k) =
      match builder.optionalDecoder s[k].toNat with
      | some decoder => decoder.span (s.drop k)
      | none => .error .exception := by
    rw [List.drop_eq_getElem_cons hk]
    simp only [optionalSpan, look]
    cases builder.optionalDecoder s[k].toNat <;> rfl
  rw [hlook, List.getElem?_eq_getElem hk]
  cases hdecoder : builder.optionalDecoder s[k].toNat with
  | none =>
    constructor
    · intro h
      cases h
      exact absurd rfl hf
    · rintro ⟨octet, decoder, hget, hfound, -⟩
      cases hget
      rw [hdecoder] at hfound
      cases hfound
  | some decoder =>
    have hiei : octets decoder.ieiSize (s.drop k) = .ok decoder.ieiSize := by
      have hle := decoder.ieiSize_le
      exact octets_eq_ok.mpr ⟨by rw [List.length_drop]; omega, rfl⟩
    constructor
    · intro h
      rcases andThen_eq_error.mp h with habsurd | ⟨n, hn, hfail⟩
      · rw [hiei] at habsurd
        cases habsurd
      · rw [hiei] at hn
        cases hn
        rw [List.drop_drop] at hfail
        exact ⟨s[k], decoder, rfl, hdecoder, hfail⟩
    · rintro ⟨octet, found, hget, hfound, hfail⟩
      cases hget
      rw [hdecoder] at hfound
      cases hfound
      refine andThen_eq_error.mpr (.inr ⟨decoder.ieiSize, hiei, ?_⟩)
      rwa [List.drop_drop]

/-- Any other fault than an exception comes from an element that is met. -/
theorem span_eq_error_iff (hf : f ≠ .exception) :
    builder.span s = .error f ↔ ∃ ie t, builder.Meets s ie t ∧ ie.span t = .error f := by
  have hspans : SpansFrom 0 builder.decodeOptional builder.optionalSpan :=
    builder.decodeOptional_spans
  have hbounded : builder.optionalSpan.Bounded := hspans.bounded
  constructor
  · intro h
    rcases andThen_eq_error.mp h with hmandatory | ⟨n, hn, hoptional⟩
    · obtain ⟨before, decoder, after, n, hlist, hn, hfail⟩ :=
        mandatorySpan_eq_error.mp hmandatory
      exact ⟨_, _, .mandatory hlist hn, hfail⟩
    · obtain ⟨k, hreach, hk, hstep⟩ := (walk_eq_error_iff hbounded).mp hoptional
      rcases hstep with hstep | ⟨-, hzero⟩
      · obtain ⟨octet, decoder, hget, hfound, hfail⟩ := (optionalSpan_eq_error hk hf).mp hstep
        rw [List.drop_drop, ← Nat.add_assoc] at hfail
        exact ⟨_, _, .optional hn hreach hget hfound, hfail⟩
      · exact absurd hzero (builder.optionalSpan_ne_zero _)
  · rintro ⟨ie, t, hmeets, hfail⟩
    cases hmeets with
    | mandatory listed passed =>
      exact andThen_eq_error.mpr
        (.inl (mandatorySpan_eq_error.mpr ⟨_, _, _, _, listed, passed, hfail⟩))
    | @optional n k octet decoder passed reached next found =>
      refine andThen_eq_error.mpr (.inr ⟨n, passed, (walk_eq_error_iff hbounded).mpr ?_⟩)
      obtain ⟨hk, -⟩ := List.getElem?_eq_some_iff.mp next
      refine ⟨k, reached, hk, .inl ((optionalSpan_eq_error hk hf).mpr ?_)⟩
      refine ⟨octet, decoder, next, found, ?_⟩
      rwa [List.drop_drop, ← Nat.add_assoc]

end NasMessageBuilder

/-! ## Messages -/

/-- The octets before the body of a message are all there. -/
def HeaderComplete : OctetString → Prop
  | [] => False
  | epd :: others =>
    if epd = mobilityManagementMessages then
      match others with
      | [] => False
      | sht :: others => if sht = notProtected then others ≠ [] else 5 ≤ others.length
    else 3 ≤ others.length

namespace DecodedNasMessage

/-- Behind a type that is not known, nothing is read. -/
def bodySpan (builder : Option NasMessageBuilder) : Span :=
  match builder with
  | some builder => builder.span
  | none => .stop .exception

def span : Span := .head fun epd =>
  if epd = mobilityManagementMessages then
    .head fun sht =>
      if sht = notProtected then
        .head fun messageType => bodySpan ((MmMessageType.ofOctet messageType).map (·.onBuild))
      else (octets 5).andThen fun s => .ok s.length
  else
    (octets 2).andThen (.head fun messageType =>
      bodySpan ((SmMessageType.ofOctet messageType).map (·.onBuild)))

theorem readRest_spans : SpansFrom lo readRest fun s => .ok s.length where
  passes := by
    intro i s n _ hn
    cases hn
    obtain ⟨hle, a, ha⟩ := (@SpansFrom.readOctetString 0 s.length).passes (Nat.zero_le i)
      (checked_eq_ok.mpr ⟨rfl, le_rfl⟩)
    refine ⟨le_rfl, a, ?_⟩
    have hsize : ((Cursor.size ⟨i, s⟩ : Nat) : Int) - i = s.length := by
      unfold Cursor.size
      push_cast
      omega
    have hrun : readRest ⟨i, s⟩ =
        readOctetString (((Cursor.size ⟨i, s⟩ : Nat) : Int) - i) ⟨i, s⟩ := rfl
    rw [hrun, hsize, ha]
  stops := by
    intro i s f _ hf
    cases hf

theorem decodeSecuredMmMessage_spans (sht : UInt8) :
    SpansFrom lo (decodeSecuredMmMessage sht) ((octets 5).andThen fun s => .ok s.length) :=
  .octets_bind_andThen .read4UI (fun _ => .bind .readOctet fun _ => .bind_pure readRest_spans _) rfl

theorem decodePlainMmMessage_spans (messageType : UInt8) :
    SpansFrom lo (decodePlainMmMessage messageType)
      (bodySpan ((MmMessageType.ofOctet messageType).map (·.onBuild))) := by
  unfold decodePlainMmMessage
  cases MmMessageType.ofOctet messageType with
  | none => exact .fault _
  | some type => exact .map _ type.onBuild.decode_spans

theorem decodeSmMessage_spans (pduSessionId pti messageType : UInt8) :
    SpansFrom lo (decodeSmMessage pduSessionId pti messageType)
      (bodySpan ((SmMessageType.ofOctet messageType).map (·.onBuild))) := by
  unfold decodeSmMessage
  cases SmMessageType.ofOctet messageType with
  | none => exact .fault _
  | some type => exact .map _ type.onBuild.decode_spans

theorem decode_spans : SpansFrom lo decode span := by
  refine .bind_octet fun epd => .ite (fun _ => .bind_octet fun sht => .ite (fun _ => ?_)
    fun _ => decodeSecuredMmMessage_spans sht) fun _ => ?_
  · exact .bind_octet decodePlainMmMessage_spans
  · exact .octets_bind_andThen .readOctet (fun pduSessionId => .bind .readOctet fun pti =>
      .bind_octet (decodeSmMessage_spans pduSessionId pti)) rfl

/-- The elements that are met in the body of a message. -/
inductive Meets : OctetString → InformationElement → OctetString → Prop
  | plainMm {messageType : UInt8} {type : MmMessageType} {body s : OctetString}
      {ie : InformationElement} (known : MmMessageType.ofOctet messageType = some type)
      (met : type.onBuild.Meets body ie s) :
      Meets (mobilityManagementMessages :: notProtected :: messageType :: body) ie s
  | sm {epd pduSessionId pti messageType : UInt8} {type : SmMessageType} {body s : OctetString}
      {ie : InformationElement} (other : epd ≠ mobilityManagementMessages)
      (known : SmMessageType.ofOctet messageType = some type)
      (met : type.onBuild.Meets body ie s) :
      Meets (epd :: pduSessionId :: pti :: messageType :: body) ie s

variable {s body : OctetString} {f : Fault} {messageType : UInt8}

private theorem bodySpan_eq_error {builder : Option NasMessageBuilder} (hf : f ≠ .exception) :
    bodySpan builder s = .error f ↔
      ∃ b ie t, builder = some b ∧ b.Meets s ie t ∧ ie.span t = .error f := by
  cases builder with
  | none =>
    constructor
    · intro h
      cases h
      exact absurd rfl hf
    · rintro ⟨b, ie, t, h, -⟩
      cases h
  | some builder =>
    constructor
    · intro h
      obtain ⟨ie, t, hmeets, hfail⟩ := (builder.span_eq_error_iff hf).mp h
      exact ⟨builder, ie, t, rfl, hmeets, hfail⟩
    · rintro ⟨b, ie, t, hb, hmeets, hfail⟩
      cases hb
      exact (builder.span_eq_error_iff hf).mpr ⟨ie, t, hmeets, hfail⟩

private theorem plainMm_eq_error (hf : f ≠ .exception) :
    bodySpan ((MmMessageType.ofOctet messageType).map (·.onBuild)) body = .error f ↔
      ∃ ie t, Meets (mobilityManagementMessages :: notProtected :: messageType :: body) ie t ∧
        ie.span t = .error f := by
  rw [bodySpan_eq_error hf]
  constructor
  · rintro ⟨b, ie, t, hb, hmeets, hfail⟩
    obtain ⟨type, htype, rfl⟩ := Option.map_eq_some_iff.mp hb
    exact ⟨ie, t, .plainMm htype hmeets, hfail⟩
  · rintro ⟨ie, t, hmeets, hfail⟩
    cases hmeets with
    | plainMm known met => exact ⟨_, ie, t, by rw [known]; rfl, met, hfail⟩
    | sm other known met => exact absurd rfl other

private theorem sm_eq_error {epd pduSessionId pti : UInt8} (hf : f ≠ .exception)
    (hepd : epd ≠ mobilityManagementMessages) :
    bodySpan ((SmMessageType.ofOctet messageType).map (·.onBuild)) body = .error f ↔
      ∃ ie t, Meets (epd :: pduSessionId :: pti :: messageType :: body) ie t ∧
        ie.span t = .error f := by
  rw [bodySpan_eq_error hf]
  constructor
  · rintro ⟨b, ie, t, hb, hmeets, hfail⟩
    obtain ⟨type, htype, rfl⟩ := Option.map_eq_some_iff.mp hb
    exact ⟨ie, t, .sm hepd htype hmeets, hfail⟩
  · rintro ⟨ie, t, hmeets, hfail⟩
    cases hmeets with
    | plainMm known met => exact absurd rfl hepd
    | sm other known met => exact ⟨_, ie, t, by rw [known]; rfl, met, hfail⟩

private theorem span_of_cut (h : ¬HeaderComplete s) : span s = .error .outOfBounds := by
  cases s with
  | nil => rfl
  | cons epd others =>
    refine head_eq_error.mpr (.inr ⟨epd, others, rfl, ?_⟩)
    simp only [HeaderComplete] at h
    by_cases hepd : epd = mobilityManagementMessages
    · rw [if_pos hepd] at h ⊢
      cases others with
      | nil => rfl
      | cons sht others =>
        refine head_eq_error.mpr (.inr ⟨sht, others, rfl, ?_⟩)
        simp only at h
        by_cases hsht : sht = notProtected
        · rw [if_pos hsht] at h ⊢
          rw [not_not.mp h]
          rfl
        · rw [if_neg hsht] at h ⊢
          exact andThen_eq_error.mpr (.inl (octets_eq_error.mpr ⟨by omega, rfl⟩))
    · rw [if_neg hepd] at h ⊢
      rw [andThen_eq_error]
      by_cases htwo : 2 ≤ others.length
      · refine .inr ⟨2, octets_eq_ok.mpr ⟨htwo, rfl⟩, head_eq_error.mpr (.inl ⟨?_, rfl⟩)⟩
        exact List.drop_eq_nil_of_le (by omega)
      · exact .inl (octets_eq_error.mpr ⟨by omega, rfl⟩)

private theorem Meets.span_eq_error {ie : InformationElement} {t : OctetString}
    (hf : f ≠ .exception) (h : Meets s ie t) (hfail : ie.span t = .error f) :
    span s = .error f := by
  cases h with
  | plainMm known met =>
    have hbody := (plainMm_eq_error hf).mpr ⟨ie, t, .plainMm known met, hfail⟩
    refine head_eq_error.mpr (.inr ⟨_, _, rfl, ?_⟩)
    rw [if_pos rfl]
    refine head_eq_error.mpr (.inr ⟨_, _, rfl, ?_⟩)
    rw [if_pos rfl]
    exact head_eq_error.mpr (.inr ⟨_, _, rfl, hbody⟩)
  | @sm epd pduSessionId pti messageType type body _ _ other known met =>
    have hbody := (sm_eq_error hf other).mpr
      ⟨ie, t, @Meets.sm epd pduSessionId pti _ _ _ _ _ other known met, hfail⟩
    refine head_eq_error.mpr (.inr ⟨_, _, rfl, ?_⟩)
    rw [if_neg other]
    have htwo : octets 2 (pduSessionId :: pti :: messageType :: body) = .ok 2 :=
      octets_eq_ok.mpr ⟨by simp only [List.length_cons]; omega, rfl⟩
    exact andThen_eq_error.mpr (.inr ⟨2, htwo, head_eq_error.mpr (.inr ⟨_, _, rfl, hbody⟩)⟩)

private theorem exists_meets (hf : f ≠ .exception) (hcomplete : HeaderComplete s)
    (h : span s = .error f) : ∃ ie t, Meets s ie t ∧ ie.span t = .error f := by
  rcases head_eq_error.mp h with ⟨rfl, -⟩ | ⟨epd, others, rfl, hothers⟩
  · cases hcomplete
  simp only [HeaderComplete] at hcomplete
  by_cases hepd : epd = mobilityManagementMessages
  · rw [if_pos hepd] at hothers hcomplete
    subst hepd
    rcases head_eq_error.mp hothers with ⟨rfl, -⟩ | ⟨sht, rest, rfl, hrest⟩
    · cases hcomplete
    simp only at hcomplete
    by_cases hsht : sht = notProtected
    · rw [if_pos hsht] at hrest hcomplete
      subst hsht
      rcases head_eq_error.mp hrest with ⟨rfl, -⟩ | ⟨messageType, body, rfl, hbody⟩
      · exact absurd rfl hcomplete
      · exact (plainMm_eq_error hf).mp hbody
    · rw [if_neg hsht] at hrest hcomplete
      rcases andThen_eq_error.mp hrest with hfive | ⟨n, -, habsurd⟩
      · obtain ⟨hshort, -⟩ := octets_eq_error.mp hfive
        omega
      · cases habsurd
  · rw [if_neg hepd] at hothers hcomplete
    obtain ⟨pduSessionId, pti, messageType, body, rfl⟩ :
        ∃ pduSessionId pti messageType body, others = pduSessionId :: pti :: messageType :: body := by
      rcases others with _ | ⟨pduSessionId, _ | ⟨pti, _ | ⟨messageType, body⟩⟩⟩
      · exact absurd hcomplete (by simp)
      · exact absurd hcomplete (by simp)
      · exact absurd hcomplete (by simp)
      · exact ⟨pduSessionId, pti, messageType, body, rfl⟩
    have hbody : bodySpan ((SmMessageType.ofOctet messageType).map (·.onBuild)) body = .error f := by
      rcases andThen_eq_error.mp hothers with htwo | ⟨n, hn, htype⟩
      · obtain ⟨hshort, -⟩ := octets_eq_error.mp htwo
        simp only [List.length_cons] at hshort
        omega
      · obtain ⟨-, rfl⟩ := octets_eq_ok.mp hn
        rcases head_eq_error.mp htype with ⟨habsurd, -⟩ | ⟨first, rest, heq, hbody⟩
        · cases habsurd
        · cases heq
          exact hbody
    exact (sm_eq_error hf hepd).mp hbody

/-- Any other fault than an exception comes from the header or from an element that is met. -/
theorem span_eq_error_iff (hf : f ≠ .exception) : span s = .error f ↔
    f = .outOfBounds ∧ ¬HeaderComplete s ∨ ∃ ie t, Meets s ie t ∧ ie.span t = .error f := by
  constructor
  · intro h
    by_cases hcomplete : HeaderComplete s
    · exact .inr (exists_meets hf hcomplete h)
    · rw [span_of_cut hcomplete] at h
      cases h
      exact .inl ⟨rfl, hcomplete⟩
  · rintro (⟨rfl, hcut⟩ | ⟨ie, t, hmeets, hfail⟩)
    · exact span_of_cut hcut
    · exact hmeets.span_eq_error hf hfail

end DecodedNasMessage

end Quicup.Ueransim
