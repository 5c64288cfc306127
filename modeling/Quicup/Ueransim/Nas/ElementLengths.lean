import Quicup.Ueransim.Nas.ElementLayouts

/-!
# Elements that are as long as they say

An element of format LV, TLV, LV-E or TLV-E declares the number of its octets. Its decoder hands
the stream on behind these octets exactly where they end with the last of its fields. Fixed
fields do so for their own size alone, a list does where an element of it ends at the length, and
an EAP packet where its own length, or the first octet that is not known, says the same.
-/

namespace Quicup.Ueransim

open Span

/-! ## Where the fields end at the length -/

/-- The list of access technologies has to fill the octets behind the counter. -/
def IESorTransparentContainer.Delimits (length : Nat) : OctetString → Prop
  | [] => True
  | header :: others =>
    if bitAt 0 header = false then
      bitAt 2 header = false ∨
        19 ≤ length ∧ Reaches (octets 5) (length - 19) (others.drop 18) (length - 19)
    else length = 17

/-- No octet is decoded of an identity of another type. -/
def IE5gsMobileIdentity.Delimits (length : Nat) : OctetString → Prop
  | [] => True
  | flags :: _ =>
    if identityNumberOf flags = IdentityType.guti then length = 11
    else if identityNumberOf flags = IdentityType.tmsi then length = 7
    else identityNumberOf flags = IdentityType.suci ∨ identityNumberOf flags = IdentityType.imei ∨
      identityNumberOf flags = IdentityType.imeisv ∨ length = 0

/-- The length of the packet in its header. -/
def Eap.packetLength (s : OctetString) : Nat := natBE ((s.drop 2).take 2)

/-- The packet ends at the length in its header, if not at an octet that is not known. -/
def Eap.Delimits (length : Nat) (s : OctetString) : Prop :=
  if UnknownCode (s.getD 0 0) then length = 1
  else if packetLength s = 4 then length = 4
  else if (s.getD 4 0).toNat = akaPrimeType then
    if UnknownSubType (s.getD 5 0) then length = 6
    else ∃ k, Reaches attributeSpan (packetLength s - 8) (s.drop 8) k ∧
      (k + 8 = packetLength s ∧ length = packetLength s ∨
        k + 8 < packetLength s ∧ ∃ n, leftAt (s.drop 8) k = some n ∧ length = n + 8)
  else if (s.getD 4 0).toNat = notificationType ∨ (s.getD 4 0).toNat = identityType then
    length = packetLength s
  else length = 5

def Layout.Delimits : Layout → Nat → OctetString → Prop
  | fixed size, length, _ => length = size
  | whole, _, _ => True
  | headed, _, _ => True
  | flags _, _, _ => True
  | selected size, length, _ => size length = length
  | list element _, length, s => Reaches element length s length
  | sorContainer, length, s => IESorTransparentContainer.Delimits length s
  | mobileIdentity, length, s => IE5gsMobileIdentity.Delimits length s
  | eap, length, s => Eap.Delimits length s

variable {length n : Nat} {s : OctetString}

/-- A walk that ends does so at its bound where it reaches the bound. -/
theorem walk_ends_at_bound {σ : Span} (hσ : σ.Bounded) {bound : Nat}
    (h : walk σ bound s = .ok n) : n = bound ↔ Reaches σ bound s bound := by
  constructor
  · rintro rfl
    exact ((walk_eq_ok_iff hσ).mp h).1
  · intro hreach
    have hbound := (walk_eq_ok_iff hσ).mpr ⟨hreach, le_refl bound⟩
    rw [hbound] at h
    exact (Except.ok.inj h).symm

theorem IESorTransparentContainer.delimits_iff (hlength : length < 65536)
    (h : IESorTransparentContainer.span length s = .ok n) : n = length ↔ Delimits length s := by
  obtain ⟨header, others, m, rfl, hm, rfl⟩ := head_eq_ok.mp h
  simp only [Delimits]
  by_cases hinfo : bitAt 0 header = false
  · rw [if_pos hinfo] at hm ⊢
    obtain ⟨mac, a, hmac, ha, rfl⟩ := andThen_eq_ok.mp hm
    obtain ⟨hsixteen, -⟩ := checked_eq_ok.mp hmac
    obtain ⟨counter, l, hcounter, hl, rfl⟩ := andThen_eq_ok.mp ha
    obtain ⟨-, rfl⟩ := octets_eq_ok.mp hcounter
    obtain rfl : mac = 16 := by omega
    by_cases hpacket : bitAt 2 header = false
    · rw [if_pos hpacket] at hl
      obtain ⟨hl, -⟩ := checked_eq_ok.mp hl
      exact ⟨fun _ => .inl hpacket, fun _ => by omega⟩
    · rw [if_neg hpacket, List.drop_drop] at hl
      have hends := (walk_eq_ok_iff (octets_bounded 5)).mp hl
      by_cases hle : 19 ≤ length
      · have hsize : sizeT ((length : Int) - 19) = length - 19 := by
          unfold sizeT
          omega
        rw [hsize] at hl
        have hexact := walk_ends_at_bound (octets_bounded 5) hl
        constructor
        · intro hn
          exact .inr ⟨hle, hexact.mp (by omega)⟩
        · rintro (habsurd | ⟨-, hreach⟩)
          · exact absurd habsurd hpacket
          · have hl' := hexact.mpr hreach
            omega
      · have hsize : length < sizeT ((length : Int) - 19) := by
          unfold sizeT
          omega
        constructor
        · intro hn
          omega
        · rintro (habsurd | ⟨habsurd, -⟩)
          · exact absurd habsurd hpacket
          · exact absurd habsurd hle
  · rw [if_neg hinfo] at hm ⊢
    obtain ⟨hsixteen, -⟩ := checked_eq_ok.mp hm
    omega

theorem string_eq_ok {length : Int} {n : Nat} (h : string length s = .ok n) : length = n := by
  unfold string at h
  split at h
  · cases h
  · obtain ⟨-, rfl⟩ := octets_eq_ok.mp h
    omega

theorem ImsiMobileIdentity.span_eq_ok {length : Int} (h : ImsiMobileIdentity.span length s = .ok n) :
    length = n := by
  obtain ⟨plmn, a, hplmn, ha, rfl⟩ := andThen_eq_ok.mp h
  obtain ⟨-, rfl⟩ := octets_eq_ok.mp hplmn
  obtain ⟨routing, b, hrouting, hb, rfl⟩ := andThen_eq_ok.mp ha
  obtain ⟨-, rfl⟩ := octets_eq_ok.mp hrouting
  obtain ⟨scheme, others, d, -, hd, rfl⟩ := head_eq_ok.mp hb
  obtain ⟨key, l, hkey, hl, rfl⟩ := andThen_eq_ok.mp hd
  obtain ⟨-, rfl⟩ := octets_eq_ok.mp hkey
  have hlength : length - 7 = l := by
    split at hl
    · exact string_eq_ok hl
    · exact (checked_eq_ok.mp hl).1
  push_cast
  omega

theorem IE5gsMobileIdentity.delimits_iff (h : IE5gsMobileIdentity.span length s = .ok n) :
    n = length ↔ Delimits length s := by
  cases s with
  | nil => cases h
  | cons flags others =>
    simp only [span, look] at h
    simp only [Delimits]
    generalize identityNumberOf flags = type at h ⊢
    by_cases hsuci : type = IdentityType.suci
    · subst hsuci
      rw [if_pos rfl] at h
      obtain ⟨a, b, ha, hb, rfl⟩ := andThen_eq_ok.mp h
      obtain ⟨-, rfl⟩ := octets_eq_ok.mp ha
      have hlength : (length : Int) - 1 = b := by
        split at hb
        · exact ImsiMobileIdentity.span_eq_ok hb
        · exact string_eq_ok hb
      rw [if_neg (by decide), if_neg (by decide)]
      exact ⟨fun _ => .inl rfl, fun _ => by omega⟩
    rw [if_neg hsuci] at h
    by_cases hguti : type = IdentityType.guti
    · rw [if_pos hguti] at h ⊢
      obtain ⟨-, rfl⟩ := octets_eq_ok.mp h
      exact eq_comm
    rw [if_neg hguti] at h ⊢
    by_cases htmsi : type = IdentityType.tmsi
    · rw [if_pos htmsi] at h ⊢
      obtain ⟨-, rfl⟩ := octets_eq_ok.mp h
      exact eq_comm
    rw [if_neg htmsi] at h ⊢
    by_cases himei : type = IdentityType.imei ∨ type = IdentityType.imeisv
    · rw [if_pos himei] at h
      obtain ⟨-, rfl⟩ := octets_eq_ok.mp h
      exact ⟨fun _ => .inr (himei.imp_right .inl), fun _ => rfl⟩
    · rw [if_neg himei] at h
      obtain ⟨-, rfl⟩ := octets_eq_ok.mp h
      tauto

/-- The octets before the data of a packet whose code is known. -/
private theorem Eap.fields {code id x y : UInt8} {others : OctetString} :
    packetLength (code :: id :: x :: y :: others) = x.toNat * 256 + y.toNat := by
  simp [packetLength, natBE]

theorem Eap.delimits_iff (h : Eap.span s = .ok n) : n = length ↔ Delimits length s := by
  obtain ⟨code, others, m, rfl, hm, rfl⟩ := head_eq_ok.mp h
  unfold Delimits
  by_cases hcode : UnknownCode code
  · rw [if_pos hcode] at hm
    obtain ⟨-, rfl⟩ := octets_eq_ok.mp hm
    rw [List.getD_cons_zero, if_pos hcode]
    exact eq_comm
  rw [if_neg hcode] at hm
  rw [List.getD_cons_zero, if_neg hcode]
  obtain ⟨id, afterId, a, rfl, ha, rfl⟩ := head_eq_ok.mp hm
  obtain ⟨x, afterX, b, rfl, hb, rfl⟩ := head_eq_ok.mp ha
  obtain ⟨y, others, d, rfl, hd, rfl⟩ := head_eq_ok.mp hb
  rw [fields]
  clear h hm ha hb
  generalize x.toNat * 256 + y.toNat = size at hd ⊢
  unfold dataSpan at hd
  by_cases hfour : size = 4
  · rw [if_pos hfour] at hd ⊢
    obtain ⟨-, rfl⟩ := octets_eq_ok.mp hd
    omega
  rw [if_neg hfour] at hd ⊢
  obtain ⟨type, others, m, rfl, hm, rfl⟩ := head_eq_ok.mp hd
  have htype : (code :: id :: x :: y :: type :: others).getD 4 0 = type := rfl
  rw [htype]
  by_cases haka : type.toNat = akaPrimeType
  · rw [if_pos haka] at hm ⊢
    obtain ⟨subType, others, l, rfl, hl, rfl⟩ := head_eq_ok.mp hm
    have hsub : (code :: id :: x :: y :: type :: subType :: others).getD 5 0 = subType := rfl
    rw [hsub]
    by_cases hunknown : UnknownSubType subType
    · rw [if_pos hunknown] at hl ⊢
      obtain ⟨-, rfl⟩ := octets_eq_ok.mp hl
      omega
    rw [if_neg hunknown] at hl ⊢
    obtain ⟨reserved, j, hreserved, hj, rfl⟩ := andThen_eq_ok.mp hl
    obtain ⟨-, rfl⟩ := octets_eq_ok.mp hreserved
    have hdrop : (code :: id :: x :: y :: type :: subType :: others).drop 8 = others.drop 2 := rfl
    have hbound : ((size : Int) - 8).toNat = size - 8 := by omega
    rw [hdrop, ← hbound]
    constructor
    · intro hn
      obtain ⟨k, hreach, hends⟩ := attributesSpan_eq_ok_iff.mp hj
      refine ⟨k, hreach, ?_⟩
      rcases hends with ⟨hk, rfl⟩ | ⟨hk, hleft⟩
      · exact .inl ⟨by omega, by omega⟩
      · exact .inr ⟨by omega, j, hleft, by omega⟩
    · rintro ⟨k, hreach, hends⟩
      have hle : 8 ≤ length := by
        rcases hends with ⟨hk, rfl⟩ | ⟨hk, l, hleft, rfl⟩ <;> omega
      have hlength : attributesSpan ((size : Int) - 8) (others.drop 2) = .ok (length - 8) := by
        rw [attributesSpan_eq_ok_iff]
        refine ⟨k, hreach, ?_⟩
        rcases hends with ⟨hk, rfl⟩ | ⟨hk, l, hleft, rfl⟩
        · exact .inl ⟨by omega, by omega⟩
        · exact .inr ⟨by omega, hleft⟩
      rw [hlength] at hj
      have hlast := Except.ok.inj hj
      omega
  rw [if_neg haka] at hm ⊢
  by_cases hraw : type.toNat = notificationType ∨ type.toNat = identityType
  · rw [if_pos hraw] at hm ⊢
    obtain ⟨hsize, -⟩ := checked_eq_ok.mp hm
    omega
  · rw [if_neg hraw] at hm ⊢
    obtain ⟨-, rfl⟩ := octets_eq_ok.mp hm
    omega

/-- A decoder that returns is done at the declared length exactly where the layout says so. -/
theorem Layout.delimits_iff (layout : Layout) (hlength : length < 65536)
    (h : layout.span length s = .ok n) : n = length ↔ layout.Delimits length s := by
  cases layout with
  | fixed size =>
    obtain ⟨-, rfl⟩ := octets_eq_ok.mp h
    exact eq_comm
  | whole =>
    obtain ⟨hn, -⟩ := checked_eq_ok.mp h
    exact ⟨fun _ => trivial, fun _ => by omega⟩
  | headed =>
    obtain ⟨first, m, hfirst, hm, rfl⟩ := andThen_eq_ok.mp h
    obtain ⟨-, rfl⟩ := octets_eq_ok.mp hfirst
    obtain ⟨hrest, -⟩ := checked_eq_ok.mp hm
    exact ⟨fun _ => trivial, fun _ => by omega⟩
  | flags known =>
    obtain ⟨first, m, hfirst, hm, rfl⟩ := andThen_eq_ok.mp h
    obtain ⟨-, rfl⟩ := octets_eq_ok.mp hfirst
    obtain ⟨hrest, -⟩ := checked_eq_ok.mp hm
    exact ⟨fun _ => trivial, fun _ => by omega⟩
  | selected size =>
    obtain ⟨-, rfl⟩ := octets_eq_ok.mp h
    exact Iff.rfl
  | list element bounded => exact walk_ends_at_bound bounded h
  | sorContainer => exact IESorTransparentContainer.delimits_iff hlength h
  | mobileIdentity => exact IE5gsMobileIdentity.delimits_iff h
  | eap => exact Eap.delimits_iff h

/-! ## Handing the stream on -/

/-- An element that is told its length, by one octet or by two. -/
inductive LengthElement
  | type4 (ie : InformationElement4)
  | type6 (ie : InformationElement6)
  deriving DecidableEq

namespace LengthElement

def element : LengthElement → InformationElement
  | type4 ie => .type4 ie
  | type6 ie => .type6 ie

/-- The octets of the length. -/
def lengthSize : LengthElement → Nat
  | type4 _ => 1
  | type6 _ => 2

def layout : LengthElement → Layout
  | type4 ie => ie.layout
  | type6 ie => ie.layout

/-- The octets of the value, behind those of the length. -/
private theorem decode_value {α : Type} {p : Read Nat} {decode : Int → Read α} {k length i : Nat}
    {octets : OctetString} (hp : Reads p i (octetsBE k length) length) :
    (p >>= fun length => decode length) ⟨i, octetsBE k length ++ octets⟩ =
      decode length ⟨i + k, octets⟩ := by
  have hrun : (p >>= fun length => decode length) ⟨i, octetsBE k length ++ octets⟩ =
      (p ⟨i, octetsBE k length ++ octets⟩ >>= fun r => decode r.1 r.2) := rfl
  rw [hrun, hp octets, length_octetsBE]
  rfl

/-- Behind the octets of the length, the decoder goes over those that the layout tells. -/
private theorem decode_spans (ie : LengthElement) {length i : Nat} {octets : OctetString}
    (hlength : length < 256 ^ ie.lengthSize) :
    ∃ decode : Read ie.element.Value, SpansFrom 1 decode (ie.layout.span length) ∧
      ie.element.decode ⟨i, octetsBE ie.lengthSize length ++ octets⟩ =
        decode ⟨i + ie.lengthSize, octets⟩ := by
  cases ie with
  | type4 ie =>
    have hbyte : length < 256 := hlength
    have hread : Reads readI i (octetsBE 1 length) length := by
      have hoctet := readI_reads (i := i) (UInt8.ofNat length)
      have htoNat : (UInt8.ofNat length).toNat = length := by
        rw [UInt8.toNat_ofNat']
        omega
      rw [htoNat] at hoctet
      simpa [octetsBE] using hoctet
    exact ⟨ie.decode length, ie.decode_spans (by omega),
      @decode_value _ _ ie.decode _ _ _ _ hread⟩
  | type6 ie =>
    have hword : length < 65536 := hlength
    have hread : Reads read2I i (octetsBE 2 length) length := by
      have hoctets := readBE_reads (i := i) 2 length
      rwa [Nat.mod_eq_of_lt (show length < 256 ^ 2 from hlength)] at hoctets
    exact ⟨ie.decode length, ie.decode_spans (fun _ => le_refl 1) hword,
      @decode_value _ _ ie.decode _ _ _ _ hread⟩

/-- A decoder that returns from the octets of a value is where they end if and only if its fields
end at the declared length. -/
theorem hands_on_iff (ie : LengthElement) {length i : Nat} {octets : OctetString}
    {value : ie.element.Value} {c : Cursor} (hlength : length < 256 ^ ie.lengthSize)
    (h : ie.element.decode ⟨i, octetsBE ie.lengthSize length ++ octets⟩ = .ok (value, c)) :
    c = ⟨i + ie.lengthSize + length, octets.drop length⟩ ↔ ie.layout.Delimits length octets := by
  obtain ⟨decode, hspan, hrun⟩ := @decode_spans ie length i octets hlength
  have hsize : 1 ≤ ie.lengthSize ∧ length < 65536 := by
    cases ie with
    | type4 ie => exact ⟨le_refl 1, lt_trans (show length < 256 from hlength) (by decide)⟩
    | type6 ie => exact ⟨Nat.le_succ 1, hlength⟩
  rw [hrun] at h
  cases hn : ie.layout.span length octets with
  | error f =>
    rw [hspan.stops (by omega) hn] at h
    cases h
  | ok n =>
    obtain ⟨-, a, ha⟩ := hspan.passes (i := i + ie.lengthSize) (by omega) hn
    rw [ha] at h
    cases h
    rw [← ie.layout.delimits_iff hsize.2 hn]
    constructor
    · intro hc
      have hindex := congrArg Cursor.index hc
      simp only at hindex
      omega
    · rintro rfl
      rfl

/-- An octet of registration result is all of it. -/
theorem hands_on_iff_fivegsRegistrationResult :
    let ie : LengthElement := .type4 .fivegsRegistrationResult
    ∃ (value : ie.element.Value) (c : Cursor),
      ie.element.decode ⟨0, octetsBE ie.lengthSize 1 ++ [0x09, 0x54]⟩ = .ok (value, c) ∧
      (c = ⟨2, [0x54]⟩ ↔ ie.layout.Delimits 1 [0x09, 0x54]) :=
  ⟨_, _, rfl,
    @hands_on_iff (.type4 .fivegsRegistrationResult) 1 0 [0x09, 0x54] _ _ (by decide) rfl⟩

/-- A PDU session status with a spare octet is left before it. -/
theorem pduSessionStatus_left_early :
    ¬∀ (ie : LengthElement) (length i : Nat) (octets : OctetString) (value : ie.element.Value)
      (c : Cursor), length < 256 ^ ie.lengthSize →
      ie.element.decode ⟨i, octetsBE ie.lengthSize length ++ octets⟩ = .ok (value, c) →
      c = ⟨i + ie.lengthSize + length, octets.drop length⟩ := by
  intro hall
  have hspare := hall (.type4 .pduSessionStatus) 3 0 [0x20, 0, 0] _ _ (by decide) rfl
  have hrest := congrArg Cursor.rest hspare
  cases hrest

end LengthElement

end Quicup.Ueransim
