import Mathlib.Data.List.Induction
import Quicup.Ueransim.Nas.TaiList

/-!
# Mobile identities there and back

`IE5gsMobileIdentity::Encode` with `EncodeBcdString` of `base.cpp` and `HexStringToVector` of
`common.cpp`. What the decoder makes of the octets is the identity for the layouts that begin with
flags of their own; an IMEI, whose flags share an octet with its first digit, gains a digit.
-/

namespace Quicup.Ueransim

/-! ## Decimal digits -/

/-- A character from `0` to `9`. -/
def DecimalDigit (c : UInt8) : Prop := 48 ≤ c.toNat ∧ c.toNat ≤ 57

instance (c : UInt8) : Decidable (DecimalDigit c) := inferInstanceAs (Decidable (_ ∧ _))

/-- Two half octets an octet, the first of them in the low bits. -/
def packHalfOctets : List Nat → OctetString
  | little :: big :: others => nibbles big little :: packHalfOctets others
  | _ => []

/-- The half octets of the digits, filled up to whole octets. -/
def bcdHalfOctets (skipped : List Nat) (bcd : OctetString) : List Nat :=
  let halfOctets := skipped ++ bcd.map fun c => c.toNat - 48
  halfOctets ++ List.replicate (halfOctets.length % 2) 0xF

/-- `EncodeBcdString`. Without an `octetLength` (`~0`) there is no bound, since no string has so
many characters. -/
def encodeBcdString (stream bcd : OctetString) (octetLength : Option Nat) (skipped : List Nat) :
    Except Fault OctetString :=
  let halfOctets := bcdHalfOctets skipped bcd
  if octetLength.any (· < halfOctets.length / 2) then .error .exception
  else if ∃ c ∈ bcd, ¬ DecimalDigit c then .error .exception
  else .ok (stream ++ packHalfOctets halfOctets)

/-- `EncodeRoutingIndicator`. Less than two octets are followed by an octet of ones. -/
def encodeRoutingIndicator (stream bcd : OctetString) : Except Fault OctetString := do
  let written ← encodeBcdString [] bcd (some 2) []
  return stream ++ written ++ if written.length < 2 then [0xFF] else []

/-! ## Hexadecimal digits -/

def hexValue (c : UInt8) : Option Nat :=
  if 48 ≤ c.toNat ∧ c.toNat ≤ 57 then some (c.toNat - 48)
  else if 97 ≤ c.toNat ∧ c.toNat ≤ 102 then some (c.toNat - 87)
  else if 65 ≤ c.toNat ∧ c.toNat ≤ 70 then some (c.toNat - 55)
  else none

/-- `HexStringToVector` -/
def fromHex : OctetString → Except Fault OctetString
  | [] => .ok []
  | [_] => .error .exception
  | c :: d :: others => do
    let octets ← fromHex others
    match hexValue c, hexValue d with
    | some high, some low => .ok (.ofNat (16 * high + low) :: octets)
    | _, _ => .error .exception

/-! ## The identities -/

namespace IdentityType

def noIdentity : Nat := 0b000

end IdentityType

/-- `ESupiFormat::NETWORK_SPECIFIC_IDENTIFIER` -/
def networkSpecificSupiFormat : Nat := 0b001

def ImsiMobileIdentity.encodeSchemeOutput (imsi : ImsiMobileIdentity) (stream : OctetString) :
    Except Fault OctetString :=
  if imsi.protectionSchemaId = 0 then encodeBcdString stream imsi.schemeOutput none []
  else do
    let octets ← fromHex imsi.schemeOutput
    return stream ++ octets

def ImsiMobileIdentity.encode (imsi : ImsiMobileIdentity) (stream : OctetString) :
    Except Fault OctetString := do
  let stream ← encodeRoutingIndicator (stream ++ imsi.plmn.encode) imsi.routingIndicator
  imsi.encodeSchemeOutput
    (stream ++ [.ofNat imsi.protectionSchemaId, imsi.homeNetworkPublicKeyIdentifier])

/-- The octets of the AMF set, the AMF pointer and the TMSI. -/
def GutiMobileIdentity.encodeTmsi (guti : GutiMobileIdentity) : OctetString :=
  .ofNat (guti.amfSetId >>> 2) :: .ofNat ((guti.amfSetId &&& 0b11) <<< 6 ||| guti.amfPointer) ::
    octetsOfInt 4 guti.tmsi.toNat

/-- The flags of an IMEI tell whether its number of digits is odd. -/
def imeiFlag (flag : Nat) (value : OctetString) : Nat :=
  if value.length % 2 ≠ 0 then flag ||| 0b1000 else flag

def IE5gsMobileIdentity.encode (ie : IE5gsMobileIdentity) (stream : OctetString) :
    Except Fault OctetString :=
  if ie.type = IdentityType.suci then
    if ie.supiFormat = networkSpecificSupiFormat then .ok (stream ++ 0b00010001 :: ie.value)
    else ie.imsi.encode (stream ++ [0x01])
  else if ie.type = IdentityType.guti then
    .ok (stream ++ 0xF2 :: ie.gutiOrTmsi.plmn.encode ++
      ie.gutiOrTmsi.amfRegionId :: ie.gutiOrTmsi.encodeTmsi)
  else if ie.type = IdentityType.imei then
    encodeBcdString stream ie.value none [imeiFlag 0b0011 ie.value &&& 0xF]
  else if ie.type = IdentityType.tmsi then
    .ok (stream ++ 0xF4 :: ie.gutiOrTmsi.encodeTmsi)
  else if ie.type = IdentityType.imeisv then
    encodeBcdString stream ie.value none [imeiFlag 0b0101 ie.value &&& 0xF]
  else if ie.type = IdentityType.noIdentity then .ok (stream ++ [0x00])
  else .ok stream

/-! ## Identities that a message carries -/

structure ImsiMobileIdentity.Proper (imsi : ImsiMobileIdentity) : Prop where
  plmn : imsi.plmn.Valid
  routingIndicator : ∀ c ∈ imsi.routingIndicator, DecimalDigit c
  routingLength : 1 ≤ imsi.routingIndicator.length ∧ imsi.routingIndicator.length ≤ 4
  protectionSchemaId : imsi.protectionSchemaId < 16
  nullScheme : imsi.protectionSchemaId = 0 → ∀ c ∈ imsi.schemeOutput, DecimalDigit c
  protectedScheme : imsi.protectionSchemaId ≠ 0 →
    imsi.schemeOutput.length % 2 = 0 ∧ ∀ c ∈ imsi.schemeOutput, (hexValue c).isSome

structure GutiMobileIdentity.Proper (guti : GutiMobileIdentity) : Prop where
  amfSetId : guti.amfSetId < 2 ^ 10
  amfPointer : guti.amfPointer < 2 ^ 6

/-- An identity of one of the types, with the members of that type only. -/
inductive IE5gsMobileIdentity.Proper : IE5gsMobileIdentity → Prop
  | suci {imsi : ImsiMobileIdentity} : imsi.Proper →
    Proper { type := IdentityType.suci, supiFormat := imsiSupiFormat, imsi }
  | networkSpecific (value : OctetString) :
    Proper { type := IdentityType.suci, supiFormat := networkSpecificSupiFormat, value }
  | guti {gutiOrTmsi : GutiMobileIdentity} : gutiOrTmsi.Proper → gutiOrTmsi.plmn.Valid →
    Proper { type := IdentityType.guti, gutiOrTmsi }
  | tmsi {amfSetId amfPointer : Nat} {tmsi : UInt32} :
    (⟨{}, 0, amfSetId, amfPointer, tmsi⟩ : GutiMobileIdentity).Proper →
    Proper { type := IdentityType.tmsi, gutiOrTmsi := ⟨{}, 0, amfSetId, amfPointer, tmsi⟩ }
  | imei {value : OctetString} : (∀ c ∈ value, DecimalDigit c) →
    Proper { type := IdentityType.imei, value }
  | imeisv {value : OctetString} : (∀ c ∈ value, DecimalDigit c) →
    Proper { type := IdentityType.imeisv, value }
  | noIdentity : Proper { type := IdentityType.noIdentity }

/-- The octets written are decoded to the identity, and all of them are. -/
def IE5gsMobileIdentity.ReadBack (ie : IE5gsMobileIdentity) : Prop :=
  ∃ octets, ie.encode [] = .ok octets ∧
    ∀ i, Reads (IE5gsMobileIdentity.decode octets.length) i octets ie

/-- A digit from `a` to `f`. -/
def LowerCase (c : UInt8) : Prop := 97 ≤ c.toNat ∧ c.toNat ≤ 102

/-- A SUCI, a GUTI or a TMSI, without small letters in a protected scheme output. -/
def IE5gsMobileIdentity.Preserved (ie : IE5gsMobileIdentity) : Prop :=
  (ie.type = IdentityType.suci ∨ ie.type = IdentityType.guti ∨ ie.type = IdentityType.tmsi) ∧
    ∀ c ∈ ie.imsi.schemeOutput, ¬ LowerCase c

/-! ## Digits there and back -/

section Digits

variable {bcd : OctetString} {i high low : Nat}

@[simp] theorem packHalfOctets_cons (little big : Nat) (others : List Nat) :
    packHalfOctets (little :: big :: others) = nibbles big little :: packHalfOctets others := rfl

theorem nibbles_low (hhigh : high < 16) (hlow : low < 16) :
    (nibbles high low).toNat &&& 0xF = low := by
  rw [nibbles_toNat high low hhigh hlow, Nat.and_two_pow_sub_one_eq_mod _ 4]
  omega

theorem nibbles_high (hhigh : high < 16) (hlow : low < 16) :
    (nibbles high low).toNat >>> 4 = high := by
  rw [nibbles_toNat high low hhigh hlow, Nat.shiftRight_eq_div_pow]
  omega

/-- Digits behind a half octet are read as they were packed, and the filler is left out. -/
theorem bcdChars_pack {digits : List Nat} (h : ∀ d ∈ digits, d < 10) :
    ∀ x < 16, bcdChars false (packHalfOctets
      (x :: digits ++ List.replicate ((digits.length + 1) % 2) 0xF)) =
        digit x :: digits.map digit := by
  induction digits using List.twoStepInduction with
  | nil =>
    intro x hx
    have hchars : bcdChars false [nibbles 0xF x] = [digit x] := by
      rw [bcdChars, nibbles_high (by decide) hx, nibbles_low (by decide) hx]
      rfl
    exact hchars
  | singleton d =>
    intro x hx
    have hd : d < 10 := h d (List.mem_singleton_self d)
    have hchars : bcdChars false [nibbles d x] = [digit x, digit d] := by
      rw [bcdChars, nibbles_high (by omega) hx, nibbles_low (by omega) hx, if_neg (by omega)]
      rfl
    simpa [packHalfOctets] using hchars
  | cons_cons d e digits ih _ =>
    intro x hx
    have hd : d < 10 := h d (by simp)
    have he : e < 10 := h e (by simp)
    have hlen : (d :: e :: digits).length + 1 = digits.length + 1 + 2 := rfl
    have hrest := ih (fun f hf => h f (by simp [hf])) e (by omega)
    have hne : packHalfOctets (e :: digits ++ List.replicate ((digits.length + 1) % 2) 0xF) ≠ [] := by
      intro hnil
      rw [hnil] at hrest
      cases hrest
    rw [hlen, Nat.add_mod_right, List.cons_append, List.cons_append, packHalfOctets_cons, bcdChars,
      nibbles_high (by omega) hx, nibbles_low (by omega) hx, if_neg (fun hlast => hne hlast.1), hrest]
    rfl

/-- The first character comes before the others. -/
theorem bcdChars_false (octet : UInt8) (others : OctetString) :
    bcdChars false (octet :: others) =
      digit (octet.toNat &&& 0xF) :: bcdChars true (octet :: others) := by
  by_cases hlast : others = [] ∧ octet.toNat >>> 4 = 0xF
  · simp [bcdChars, hlast]
  · simp [bcdChars, hlast]

/-- The room for the characters is filled when the first one is not skipped. -/
theorem length_bcdChars (octets : OctetString) (h : octets ≠ []) :
    (bcdChars false octets).length =
      2 * octets.length - if (octets.getLast h) >>> 4 = 0xF then 1 else 0 := by
  have hshift (x : UInt8) : x >>> 4 = 0xF ↔ x.toNat >>> 4 = 0xF := by
    rw [← UInt8.toNat_inj, UInt8.toNat_shiftRight]
    rfl
  induction octets with
  | nil => exact absurd rfl h
  | cons octet others ih =>
    cases others with
    | nil =>
      by_cases hbig : octet.toNat >>> 4 = 0xF
      · simp [bcdChars, hbig, hshift]
      · simp [bcdChars, hbig, hshift]
    | cons next others =>
      have hrest := ih (List.cons_ne_nil _ _)
      have hcons : bcdChars false (octet :: next :: others) = digit (octet.toNat &&& 0xF) ::
          digit (octet.toNat >>> 4) :: bcdChars false (next :: others) := by
        rw [bcdChars, if_neg (fun hlast => List.cons_ne_nil _ _ hlast.1)]
        rfl
      rw [hcons, List.length_cons, List.length_cons, hrest,
        List.getLast_cons (List.cons_ne_nil next others)]
      simp only [List.length_cons]
      split <;> omega

/-- What a string of digits is read as; a place is left over where the first one is skipped. -/
def bcdString (skipFirst : Bool) (octets : OctetString) : OctetString :=
  bcdChars skipFirst octets ++ if skipFirst ∧ octets ≠ [] then [48] else []

theorem decodeBcdString_reads (skipFirst : Bool) (octets : OctetString) :
    Reads (decodeBcdString octets.length skipFirst) i octets (bcdString skipFirst octets) := by
  by_cases hnil : octets = []
  · subst hnil
    cases skipFirst <;> exact .pure _
  have hpos := List.length_pos_iff.mpr hnil
  intro rest
  have hlast : (octets ++ rest)[octets.length - 1]? = some (octets.getLast hnil) := by
    rw [List.getElem?_append_left (by omega), List.getLast_eq_getElem,
      List.getElem?_eq_getElem (by omega)]
  have hindex : ((octets.length : Int) - 1).toNat = octets.length - 1 := by omega
  have hpeek : peekAt ((octets.length : Int) - 1).toNat ⟨i, octets ++ rest⟩ =
      .ok (octets.getLast hnil, ⟨i, octets ++ rest⟩) := by
    rw [hindex, peekAt]
    simp only [hlast]
  have hread := readOctets_reads (i := i) octets rest
  have hroom := length_bcdChars octets hnil
  obtain ⟨octet, others, rfl⟩ := List.exists_cons_of_ne_nil hnil
  have hspare : 2 * (octet :: others).length -
      (if (octet :: others).getLast hnil >>> 4 = 0xF then 1 else 0) -
        (bcdChars skipFirst (octet :: others)).length = if skipFirst then 1 else 0 := by
    cases skipFirst with
    | false => simp only [hroom, Nat.sub_self, Bool.false_eq_true, if_false]
    | true =>
      have hskipped := congrArg List.length (bcdChars_false octet others)
      rw [List.length_cons] at hskipped
      simp only [if_true]
      omega
  rw [decodeBcdString, if_neg (by omega), if_neg (by omega)]
  change (peekAt _ ⟨i, octet :: others ++ rest⟩ >>= fun r => _) = _
  rw [hpeek]
  change (readOctets _ ⟨i, octet :: others ++ rest⟩ >>= fun r => _) = _
  rw [Int.toNat_natCast, hread]
  change Except.ok (bcdChars skipFirst (octet :: others) ++ List.replicate _ 48, _) = _
  rw [hspare, bcdString]
  cases skipFirst <;> rfl

theorem digit_sub {c : UInt8} (h : DecimalDigit c) : digit (c.toNat - 48) = c := by
  obtain ⟨hlow, hhigh⟩ := h
  rw [digit, if_pos (by omega), Nat.add_sub_cancel' hlow, UInt8.ofNat_toNat]

theorem map_digit_sub (h : ∀ c ∈ bcd, DecimalDigit c) :
    (bcd.map fun c => c.toNat - 48).map digit = bcd := by
  rw [List.map_map]
  conv_rhs => rw [← List.map_id bcd]
  exact List.map_congr_left fun c hc => digit_sub (h c hc)

theorem length_packHalfOctets (halfOctets : List Nat) :
    (packHalfOctets halfOctets).length = halfOctets.length / 2 := by
  induction halfOctets using List.twoStepInduction with
  | nil => rfl
  | singleton x => simp [packHalfOctets]
  | cons_cons x y others ih _ =>
    rw [packHalfOctets_cons, List.length_cons, ih]
    simp only [List.length_cons]
    omega

/-- Digits that begin an octet are read as they were written. -/
theorem bcdString_digits (h : ∀ c ∈ bcd, DecimalDigit c) :
    bcdString false (packHalfOctets (bcdHalfOctets [] bcd)) = bcd := by
  cases bcd with
  | nil => rfl
  | cons c bcd =>
    obtain ⟨hc, hrest⟩ := List.forall_mem_cons.mp h
    have hdigits : ∀ d ∈ bcd.map fun c => c.toNat - 48, d < 10 := by
      intro d hd
      obtain ⟨e, he, rfl⟩ := List.mem_map.mp hd
      have hhigh := (hrest e he).2
      omega
    have hchars := bcdChars_pack hdigits (c.toNat - 48) (by have hhigh := hc.2; omega)
    rw [List.length_map, map_digit_sub hrest, digit_sub hc] at hchars
    simpa [bcdString, bcdHalfOctets] using hchars

/-- Digits behind a half octet that is skipped are followed by a zero. -/
theorem bcdString_skipped (h : ∀ c ∈ bcd, DecimalDigit c) {x : Nat} (hx : x < 16) :
    bcdString true (packHalfOctets (bcdHalfOctets [x] bcd)) = bcd ++ [48] := by
  have hdigits : ∀ d ∈ bcd.map fun c => c.toNat - 48, d < 10 := by
    intro d hd
    obtain ⟨e, he, rfl⟩ := List.mem_map.mp hd
    have hhigh := (h e he).2
    omega
  have hchars := bcdChars_pack hdigits x hx
  rw [List.length_map, map_digit_sub h] at hchars
  have hoctets : bcdHalfOctets [x] bcd = x :: (bcd.map fun c => c.toNat - 48) ++
      List.replicate ((bcd.length + 1) % 2) 0xF := by
    simp [bcdHalfOctets]
  rw [← hoctets] at hchars
  cases hpack : packHalfOctets (bcdHalfOctets [x] bcd) with
  | nil =>
    rw [hpack] at hchars
    cases hchars
  | cons octet others =>
    rw [hpack, bcdChars_false] at hchars
    rw [bcdString, (List.cons.inj hchars).2, if_pos ⟨rfl, List.cons_ne_nil _ _⟩]

theorem encodeBcdString_digits (h : ∀ c ∈ bcd, DecimalDigit c) (stream : OctetString)
    (skipped : List Nat) : encodeBcdString stream bcd none skipped =
      .ok (stream ++ packHalfOctets (bcdHalfOctets skipped bcd)) := by
  have hdigits : ¬ ∃ c ∈ bcd, ¬ DecimalDigit c := fun ⟨c, hc, hnot⟩ => hnot (h c hc)
  rw [encodeBcdString, if_neg (by simp), if_neg hdigits]

/-- One to four digits take two octets, which are told apart by the second. -/
theorem routingIndicator_reads (h : ∀ c ∈ bcd, DecimalDigit c)
    (hlength : 1 ≤ bcd.length ∧ bcd.length ≤ 4) :
    ∃ octets, octets.length = 2 ∧
      (∀ stream, encodeRoutingIndicator stream bcd = .ok (stream ++ octets)) ∧
      ∀ i, Reads decodeRoutingIndicator i octets bcd := by
  have hdigits : ¬ ∃ c ∈ bcd, ¬ DecimalDigit c := fun ⟨c, hc, hnot⟩ => hnot (h c hc)
  have hstring := bcdString_digits h
  have hhalf : (bcdHalfOctets [] bcd).length = bcd.length + bcd.length % 2 := by
    simp [bcdHalfOctets]
  have hlen := length_packHalfOctets (bcdHalfOctets [] bcd)
  have hencode (stream : OctetString) : encodeRoutingIndicator stream bcd =
      .ok (stream ++ packHalfOctets (bcdHalfOctets [] bcd) ++
        if (packHalfOctets (bcdHalfOctets [] bcd)).length < 2 then [0xFF] else []) := by
    have hroom : ¬ (some 2).any (· < (bcdHalfOctets [] bcd).length / 2) := by
      simp
      omega
    rw [encodeRoutingIndicator, encodeBcdString, if_neg hroom, if_neg hdigits]
    rfl
  have hrun (i : Nat) (o x : UInt8) (rest : OctetString) :
      decodeRoutingIndicator ⟨i, o :: x :: rest⟩ = (if x = 0xFF then do
        let routingIndicator ← decodeBcdString 1 false
        let _ ← readOctet
        return routingIndicator
      else decodeBcdString 2 false) ⟨i, o :: x :: rest⟩ := rfl
  rcases Nat.lt_or_ge bcd.length 3 with hshort | hlong
  · obtain ⟨o, ho⟩ : ∃ o, packHalfOctets (bcdHalfOctets [] bcd) = [o] :=
      List.length_eq_one_iff.mp (by omega)
    refine ⟨[o, 0xFF], rfl, fun stream => ?_, fun i rest => ?_⟩
    · rw [hencode, ho]
      simp
    · rw [ho] at hstring
      have hread := decodeBcdString_reads (i := i) false [o]
      rw [hstring] at hread
      rw [List.cons_append, List.cons_append, hrun, if_pos rfl]
      have hboth : Reads (do
          let routingIndicator ← decodeBcdString 1 false
          let _ ← readOctet
          return routingIndicator) i ([o] ++ [0xFF]) bcd :=
        hread.bind ((readOctet_reads 0xFF).bind_end (.pure bcd))
      exact hboth rest
  · obtain ⟨o, x, ho⟩ : ∃ o x, packHalfOctets (bcdHalfOctets [] bcd) = [o, x] :=
      List.length_eq_two.mp (by omega)
    -- the third digit stands in the low bits of the second octet
    have hx : x ≠ 0xFF := by
      rintro rfl
      obtain ⟨c, d, e, others, rfl⟩ : ∃ c d e others, bcd = c :: d :: e :: others := by
        rcases bcd with _ | ⟨c, _ | ⟨d, _ | ⟨e, others⟩⟩⟩
        · simp at hlong
        · simp at hlong
        · simp at hlong
        · exact ⟨c, d, e, others, rfl⟩
      have hchars : bcdString false [o, 0xFF] =
          [digit (o.toNat &&& 0xF), digit (o.toNat >>> 4), 63] := by
        simp [bcdString, bcdChars, digit]
      rw [ho, hchars] at hstring
      obtain ⟨-, -, rfl, -⟩ : _ ∧ _ ∧ 63 = e ∧ [] = others := by
        simpa only [List.cons.injEq] using hstring
      have he := (h 63 (by simp)).2
      exact absurd he (by decide)
    refine ⟨[o, x], rfl, fun stream => ?_, fun i rest => ?_⟩
    · rw [hencode, ho]
      simp
    · rw [ho] at hstring
      have hread := decodeBcdString_reads (i := i) false [o, x]
      rw [hstring] at hread
      rw [List.cons_append, List.cons_append, hrun, if_neg hx]
      exact hread rest

end Digits

/-! ## Hexadecimal digits there and back -/

variable {c : UInt8} {v : Nat}

theorem hexValue_lt (h : hexValue c = some v) : v < 16 := by
  unfold hexValue at h
  split_ifs at h <;> cases h <;> omega

/-- A digit comes back if it is no small letter. -/
theorem hexDigit_eq_iff (h : hexValue c = some v) : hexDigit v = c ↔ ¬ LowerCase c := by
  unfold hexValue at h
  unfold LowerCase hexDigit
  rw [← UInt8.toNat_inj]
  split_ifs at h with hdigit hlower hupper <;> cases h
  · rw [if_pos (by omega), UInt8.toNat_ofNat']
    omega
  · rw [if_neg (by omega), UInt8.toNat_ofNat']
    omega
  · rw [if_neg (by omega), UInt8.toNat_ofNat']
    omega

/-- Two digits an octet; the digits come back if none is a small letter. -/
theorem fromHex_digits {hex : OctetString} (heven : hex.length % 2 = 0)
    (h : ∀ c ∈ hex, (hexValue c).isSome) :
    ∃ octets, fromHex hex = .ok octets ∧ octets.length = hex.length / 2 ∧
      (toHexString octets = hex ↔ ∀ c ∈ hex, ¬ LowerCase c) := by
  induction hex using List.twoStepInduction with
  | nil => exact ⟨[], rfl, rfl, by simp [toHexString]⟩
  | singleton c => simp at heven
  | cons_cons c d hex ih _ =>
    obtain ⟨hc, hrest⟩ := List.forall_mem_cons.mp h
    obtain ⟨hd, hrest⟩ := List.forall_mem_cons.mp hrest
    obtain ⟨high, hhigh⟩ := Option.isSome_iff_exists.mp hc
    obtain ⟨low, hlow⟩ := Option.isSome_iff_exists.mp hd
    simp only [List.length_cons] at heven
    obtain ⟨octets, hoctets, hlength, hback⟩ := ih (by omega) hrest
    have hh := hexValue_lt hhigh
    have hl := hexValue_lt hlow
    refine ⟨.ofNat (16 * high + low) :: octets, ?_, ?_, ?_⟩
    · rw [fromHex, hoctets, hhigh, hlow]
      rfl
    · simp only [List.length_cons, hlength]
      omega
    · have hvalue : (16 * high + low) % 256 = 16 * high + low := by omega
      have hfirst : (16 * high + low) >>> 4 = high := by
        rw [Nat.shiftRight_eq_div_pow]
        omega
      have hsecond : 16 * high + low &&& 0xF = low := by
        rw [Nat.and_two_pow_sub_one_eq_mod _ 4]
        omega
      have hcons : toHexString (.ofNat (16 * high + low) :: octets) =
          hexDigit high :: hexDigit low :: toHexString octets := by
        simp [toHexString, hvalue, hfirst, hsecond]
      rw [hcons, List.cons.injEq, List.cons.injEq, hback, hexDigit_eq_iff hhigh,
        hexDigit_eq_iff hlow]
      simp

/-! ## Identities there and back -/

section Identities

variable {i flag : Nat} {imsi : ImsiMobileIdentity} {value : OctetString}

/-- A scheme output of digits, or of hexadecimal ones for which the capitals are used. -/
theorem ImsiMobileIdentity.Proper.schemeOutput_octets (h : imsi.Proper) : ∃ octets back,
      (∀ stream, imsi.encodeSchemeOutput stream = .ok (stream ++ octets)) ∧
      (∀ i, Reads (decodeSchemeOutput imsi.protectionSchemaId octets.length) i octets back) ∧
      (back = imsi.schemeOutput ↔ ∀ c ∈ imsi.schemeOutput, ¬ LowerCase c) := by
  by_cases hnull : imsi.protectionSchemaId = 0
  · have hdigits := h.nullScheme hnull
    refine ⟨packHalfOctets (bcdHalfOctets [] imsi.schemeOutput), imsi.schemeOutput,
      fun stream => ?_, fun i => ?_, iff_of_true rfl fun c hc hlower => ?_⟩
    · rw [encodeSchemeOutput, if_pos hnull, encodeBcdString_digits hdigits]
    · have hread := decodeBcdString_reads (i := i) false
        (packHalfOctets (bcdHalfOctets [] imsi.schemeOutput))
      rw [bcdString_digits hdigits] at hread
      rw [decodeSchemeOutput, if_pos hnull]
      exact hread
    · have hc' := (hdigits c hc).2
      have hlow := hlower.1
      omega
  · obtain ⟨heven, hhex⟩ := h.protectedScheme hnull
    obtain ⟨octets, hoctets, -, hback⟩ := fromHex_digits heven hhex
    refine ⟨octets, toHexString octets, fun stream => ?_, fun i => ?_, hback⟩
    · rw [encodeSchemeOutput, if_neg hnull, hoctets]
      rfl
    · rw [decodeSchemeOutput, if_neg hnull]
      exact (readOctetString_reads octets).map toHexString

theorem ImsiMobileIdentity.Proper.octets (h : imsi.Proper) :
    ∃ octets back, (∀ stream, imsi.encode stream = .ok (stream ++ octets)) ∧
      (∀ i, Reads (ImsiMobileIdentity.decode octets.length) i octets back) ∧
      (back = imsi ↔ ∀ c ∈ imsi.schemeOutput, ¬ LowerCase c) := by
  obtain ⟨routing, hrouting, hwritten, hindicator⟩ :=
    routingIndicator_reads h.routingIndicator h.routingLength
  obtain ⟨scheme, output, hscheme, houtput, hback⟩ := h.schemeOutput_octets
  have hid : (UInt8.ofNat imsi.protectionSchemaId).toNat &&& 0b1111 = imsi.protectionSchemaId := by
    have hlt := h.protectionSchemaId
    rw [Nat.and_two_pow_sub_one_eq_mod _ 4, UInt8.toNat_ofNat']
    omega
  refine ⟨imsi.plmn.encode ++ (routing ++ .ofNat imsi.protectionSchemaId ::
    imsi.homeNetworkPublicKeyIdentifier :: scheme), { imsi with schemeOutput := output },
    fun stream => ?_, fun i => ?_, ?_⟩
  · rw [encode, hwritten]
    refine (hscheme _).trans ?_
    simp
  · have hlength : ((imsi.plmn.encode ++ (routing ++ .ofNat imsi.protectionSchemaId ::
        imsi.homeNetworkPublicKeyIdentifier :: scheme)).length : Int) - 7 = scheme.length := by
      simp [VPlmn.encode, plmnOctets, hrouting]
      omega
    rw [ImsiMobileIdentity.decode, hlength]
    refine (VPlmn.encode_reads h.plmn i).bind ((hindicator _).bind ?_)
    refine (readI_reads _).bind ?_
    rw [hid]
    exact (readOctet_reads _).bind ((houtput _).bind_end (.pure _))
  · rw [← hback]
    obtain ⟨plmn, routingIndicator, protectionSchemaId, key, schemeOutput⟩ := imsi
    simp

/-- The AMF set and pointer are read back from the octets that they share. -/
theorem GutiMobileIdentity.Proper.decodeTmsi_reads {guti : GutiMobileIdentity} (h : guti.Proper) :
    Reads (GutiMobileIdentity.decodeTmsi guti.plmn guti.amfRegionId) i guti.encodeTmsi guti := by
  obtain ⟨plmn, amfRegionId, amfSetId, amfPointer, tmsi⟩ := guti
  obtain ⟨hset, hpointer⟩ := h
  dsimp only at hset hpointer
  have hlow : (amfSetId &&& 0b11) <<< 6 ||| amfPointer = 64 * (amfSetId % 4) + amfPointer := by
    rw [Nat.and_two_pow_sub_one_eq_mod _ 2, ← Nat.shiftLeft_add_eq_or_of_lt hpointer,
      Nat.shiftLeft_eq]
    omega
  have hfirst : (UInt8.ofNat (amfSetId >>> 2)).toNat = amfSetId / 4 := by
    rw [Nat.shiftRight_eq_div_pow, UInt8.toNat_ofNat']
    omega
  have hsecond : (UInt8.ofNat ((amfSetId &&& 0b11) <<< 6 ||| amfPointer)).toNat =
      64 * (amfSetId % 4) + amfPointer := by
    rw [hlow, UInt8.toNat_ofNat']
    omega
  have hset' : (amfSetId / 4) <<< 2 ||| ((64 * (amfSetId % 4) + amfPointer) >>> 6 &&& 0b11) =
      amfSetId := by
    rw [Nat.shiftRight_eq_div_pow, Nat.and_two_pow_sub_one_eq_mod _ 2,
      ← Nat.shiftLeft_add_eq_or_of_lt (Nat.mod_lt _ (by decide)), Nat.shiftLeft_eq]
    omega
  have hpointer' : (64 * (amfSetId % 4) + amfPointer) &&& 0b111111 = amfPointer := by
    rw [Nat.and_two_pow_sub_one_eq_mod _ 6]
    omega
  have hrun (a b : UInt8) (rest : OctetString) :
      GutiMobileIdentity.decodeTmsi plmn amfRegionId ⟨i, a :: b :: rest⟩ = (do
        let tmsi ← read4UI
        return ⟨plmn, amfRegionId, a.toNat <<< 2 ||| (b.toNat >>> 6 &&& 0b11),
          b.toNat &&& 0b111111, tmsi⟩ : Read GutiMobileIdentity) ⟨i + 2, rest⟩ := rfl
  have htmsi : Reads (do
      let tmsi ← read4UI
      return ⟨plmn, amfRegionId, amfSetId, amfPointer, tmsi⟩ : Read GutiMobileIdentity) (i + 2)
      (octetsOfInt 4 tmsi.toNat) ⟨plmn, amfRegionId, amfSetId, amfPointer, tmsi⟩ :=
    (read4UI_reads tmsi).bind_end (.pure _)
  intro rest
  rw [encodeTmsi, List.cons_append, List.cons_append, hrun, hfirst, hsecond, hset', hpointer',
    htmsi rest]
  simp [Nat.add_assoc, Nat.add_comm]

theorem readBack_iff {ie back : IE5gsMobileIdentity} {octets : OctetString}
    (hencode : ie.encode [] = .ok octets)
    (h : ∀ i, Reads (IE5gsMobileIdentity.decode octets.length) i octets back) :
    ie.ReadBack ↔ back = ie := by
  constructor
  · rintro ⟨octets', hencode', hread⟩
    obtain rfl := Except.ok.inj (hencode.symm.trans hencode')
    exact (h 0).det (hread 0)
  · rintro rfl
    exact ⟨octets, hencode, h⟩

theorem suci_reads {octets : OctetString}
    (h : ∀ i, Reads (ImsiMobileIdentity.decode octets.length) i octets imsi) :
    Reads (IE5gsMobileIdentity.decode (0x01 :: octets).length) i (0x01 :: octets)
      { type := IdentityType.suci, supiFormat := imsiSupiFormat, imsi } := by
  have hlength : (((0x01 : UInt8) :: octets).length : Int) - 1 = octets.length := by simp
  have hrun (length : Int) (rest : OctetString) :
      IE5gsMobileIdentity.decode length ⟨i, 0x01 :: rest⟩ = (do
        let imsi ← ImsiMobileIdentity.decode (length - 1)
        return { type := IdentityType.suci, supiFormat := imsiSupiFormat, imsi } :
        Read IE5gsMobileIdentity) ⟨i + 1, rest⟩ := rfl
  have hbody : Reads (do
      let imsi ← ImsiMobileIdentity.decode octets.length
      return { type := IdentityType.suci, supiFormat := imsiSupiFormat, imsi } :
      Read IE5gsMobileIdentity) (i + 1) octets
      { type := IdentityType.suci, supiFormat := imsiSupiFormat, imsi } :=
    (h (i + 1)).bind_end (.pure _)
  intro rest
  rw [List.cons_append, hrun, hlength, hbody rest, List.length_cons, Nat.add_assoc, Nat.add_comm 1]

theorem networkSpecific_reads (value : OctetString) :
    Reads (IE5gsMobileIdentity.decode (0b00010001 :: value).length) i (0b00010001 :: value)
      { type := IdentityType.suci, supiFormat := networkSpecificSupiFormat, value } := by
  have hlength : (((0b00010001 : UInt8) :: value).length : Int) - 1 = value.length := by simp
  have hrun (length : Int) (rest : OctetString) :
      IE5gsMobileIdentity.decode length ⟨i, 0b00010001 :: rest⟩ = (do
        let value ← readUtf8String (length - 1)
        return { type := IdentityType.suci, supiFormat := networkSpecificSupiFormat, value } :
        Read IE5gsMobileIdentity) ⟨i + 1, rest⟩ := rfl
  have hstring : readUtf8String value.length = readOctets value.length := by
    rw [readUtf8String, if_neg (by omega), Int.toNat_natCast]
  have hbody : Reads (do
      let value ← readOctets value.length
      return { type := IdentityType.suci, supiFormat := networkSpecificSupiFormat, value } :
      Read IE5gsMobileIdentity) (i + 1) value
      { type := IdentityType.suci, supiFormat := networkSpecificSupiFormat, value } :=
    (readOctets_reads value).bind_end (.pure _)
  intro rest
  rw [List.cons_append, hrun, hlength, hstring, hbody rest, List.length_cons, Nat.add_assoc,
    Nat.add_comm 1]

theorem guti_reads {gutiOrTmsi : GutiMobileIdentity} (h : gutiOrTmsi.Proper)
    (hplmn : gutiOrTmsi.plmn.Valid) (length : Int) :
    Reads (IE5gsMobileIdentity.decode length) i (0xF2 :: (gutiOrTmsi.plmn.encode ++
      gutiOrTmsi.amfRegionId :: gutiOrTmsi.encodeTmsi)) { type := IdentityType.guti, gutiOrTmsi } := by
  have hrun (rest : OctetString) : IE5gsMobileIdentity.decode length ⟨i, 0xF2 :: rest⟩ = (do
      let plmn ← VPlmn.decode
      let amfRegionId ← readOctet
      let gutiOrTmsi ← GutiMobileIdentity.decodeTmsi plmn amfRegionId
      return { type := IdentityType.guti, gutiOrTmsi } : Read IE5gsMobileIdentity)
        ⟨i + 1, rest⟩ := rfl
  have hbody : Reads (do
      let plmn ← VPlmn.decode
      let amfRegionId ← readOctet
      let gutiOrTmsi ← GutiMobileIdentity.decodeTmsi plmn amfRegionId
      return { type := IdentityType.guti, gutiOrTmsi } : Read IE5gsMobileIdentity) (i + 1)
      (gutiOrTmsi.plmn.encode ++ gutiOrTmsi.amfRegionId :: gutiOrTmsi.encodeTmsi)
      { type := IdentityType.guti, gutiOrTmsi } :=
    (VPlmn.encode_reads hplmn _).bind
      ((readOctet_reads _).bind (h.decodeTmsi_reads.bind_end (.pure _)))
  intro rest
  rw [List.cons_append, hrun, hbody rest, List.length_cons, Nat.add_assoc, Nat.add_comm 1]

theorem tmsi_reads {amfSetId amfPointer : Nat} {tmsi : UInt32}
    (h : (⟨{}, 0, amfSetId, amfPointer, tmsi⟩ : GutiMobileIdentity).Proper) (length : Int) :
    Reads (IE5gsMobileIdentity.decode length) i
      (0xF4 :: (⟨{}, 0, amfSetId, amfPointer, tmsi⟩ : GutiMobileIdentity).encodeTmsi)
      { type := IdentityType.tmsi, gutiOrTmsi := ⟨{}, 0, amfSetId, amfPointer, tmsi⟩ } := by
  have hrun (rest : OctetString) : IE5gsMobileIdentity.decode length ⟨i, 0xF4 :: rest⟩ = (do
      let gutiOrTmsi ← GutiMobileIdentity.decodeTmsi {} 0
      return { type := IdentityType.tmsi, gutiOrTmsi } : Read IE5gsMobileIdentity)
        ⟨i + 1, rest⟩ := rfl
  have hbody : Reads (do
      let gutiOrTmsi ← GutiMobileIdentity.decodeTmsi {} 0
      return { type := IdentityType.tmsi, gutiOrTmsi } : Read IE5gsMobileIdentity) (i + 1)
      (⟨{}, 0, amfSetId, amfPointer, tmsi⟩ : GutiMobileIdentity).encodeTmsi
      { type := IdentityType.tmsi, gutiOrTmsi := ⟨{}, 0, amfSetId, amfPointer, tmsi⟩ } :=
    h.decodeTmsi_reads.bind_end (.pure _)
  intro rest
  rw [List.cons_append, hrun, hbody rest, List.length_cons, Nat.add_assoc, Nat.add_comm 1]

/-- An IMEI gains a zero, whichever its type. -/
theorem imei_not_readBack {type : Nat} (h : ∀ c ∈ value, DecimalDigit c)
    (htype : type = IdentityType.imei ∨ type = IdentityType.imeisv)
    (hflag : flag < 16 ∧ flag % 8 = type)
    (hencode : IE5gsMobileIdentity.encode { type, value } [] = encodeBcdString [] value none [flag])
    :
    ¬ IE5gsMobileIdentity.ReadBack { type, value } := by
  rw [encodeBcdString_digits h, List.nil_append] at hencode
  have hread := decodeBcdString_reads (i := 0) true
    (packHalfOctets (bcdHalfOctets [flag] value))
  rw [bcdString_skipped h hflag.1] at hread
  rintro ⟨octets, hoctets, hback⟩
  obtain rfl := Except.ok.inj (hencode.symm.trans hoctets)
  obtain ⟨y, hy, others, hhalf⟩ : ∃ y < 16, ∃ others,
      bcdHalfOctets [flag] value = flag :: y :: others := by
    cases value with
    | nil => exact ⟨0xF, by decide, [], rfl⟩
    | cons c value =>
      have hc := (h c List.mem_cons_self).2
      exact ⟨c.toNat - 48, by omega, _, rfl⟩
  rw [hhalf, packHalfOctets_cons] at hread hback
  have hlow : (nibbles y flag).toNat &&& 0b111 = type := by
    rw [nibbles_toNat y flag hy hflag.1, Nat.and_two_pow_sub_one_eq_mod _ 3]
    omega
  have hother : ¬ (type = IdentityType.suci ∨ type = IdentityType.guti ∨
      type = IdentityType.tmsi) := by
    rcases htype with rfl | rfl <;> decide
  have hrun (length : Int) (rest : OctetString) :
      IE5gsMobileIdentity.decode length ⟨0, nibbles y flag :: rest⟩ = (do
        let value ← decodeBcdString length true
        return { type, value } : Read IE5gsMobileIdentity) ⟨0, nibbles y flag :: rest⟩ := by
    change (if (nibbles y flag).toNat &&& 0b111 = IdentityType.suci then _ else _ : Read _)
      ⟨0, nibbles y flag :: rest⟩ = _
    rw [hlow, if_neg (fun hsuci => hother (.inl hsuci)),
      if_neg (fun hguti => hother (.inr (.inl hguti))),
      if_neg (fun htmsi => hother (.inr (.inr htmsi))), if_pos htype]
  have hwhole : Reads (do
      let value ← decodeBcdString (nibbles y flag :: packHalfOctets others).length true
      return { type, value } : Read IE5gsMobileIdentity) 0 (nibbles y flag :: packHalfOctets others)
      { type, value := value ++ [48] } := hread.bind_end (.pure _)
  have hsame := (hback 0 []).symm.trans ((hrun _ _).trans (hwhole []))
  have hvalue := congrArg IE5gsMobileIdentity.value (Prod.mk.inj (Except.ok.inj hsame)).1
  have hlen := congrArg List.length hvalue
  simp at hlen

theorem imeiFlag_type (h : flag < 8) :
    imeiFlag flag value &&& 0xF < 16 ∧ (imeiFlag flag value &&& 0xF) % 8 = flag := by
  have hall : ∀ flag < 8, (flag &&& 0xF < 16 ∧ (flag &&& 0xF) % 8 = flag) ∧
      ((flag ||| 0b1000) &&& 0xF < 16 ∧ ((flag ||| 0b1000) &&& 0xF) % 8 = flag) := by
    decide
  unfold imeiFlag
  split
  · exact (hall flag h).2
  · exact (hall flag h).1

/-- No octet is consumed for the flags of no identity. -/
theorem noIdentity_not_readBack :
    ¬ IE5gsMobileIdentity.ReadBack { type := IdentityType.noIdentity } := by
  rintro ⟨octets, hoctets, hback⟩
  obtain rfl := Except.ok.inj hoctets
  have hrun := (hback 0 []).symm.trans (rfl : _ = Except.ok (_, (⟨0, [0x00]⟩ : Cursor)))
  cases hrun

/-- An identity is decoded from its octets if and only if it is a SUCI, a GUTI or a TMSI, with the
capitals in the protected scheme output. -/
theorem IE5gsMobileIdentity.identity_kept_iff (ie : IE5gsMobileIdentity) (h : ie.Proper) :
    ie.ReadBack ↔ ie.Preserved := by
  have hkinds : (∀ type ∈ [IdentityType.imei, IdentityType.imeisv, IdentityType.noIdentity],
      ¬ (type = IdentityType.suci ∨ type = IdentityType.guti ∨ type = IdentityType.tmsi)) := by
    decide
  cases h with
  | @suci imsi h =>
    obtain ⟨octets, back, hencode, hread, hback⟩ := h.octets
    have hwritten : IE5gsMobileIdentity.encode
        { type := IdentityType.suci, supiFormat := imsiSupiFormat, imsi } [] =
          .ok (0x01 :: octets) := hencode [0x01]
    rw [readBack_iff hwritten fun i => suci_reads hread, Preserved]
    simp [hback]
  | networkSpecific value =>
    refine iff_of_true ?_ ⟨.inl rfl, by simp⟩
    exact (readBack_iff rfl fun i => networkSpecific_reads value).mpr rfl
  | guti h hplmn =>
    refine iff_of_true ?_ ⟨.inr (.inl rfl), by simp⟩
    exact (readBack_iff rfl fun i => guti_reads h hplmn _).mpr rfl
  | tmsi h =>
    refine iff_of_true ?_ ⟨.inr (.inr rfl), by simp⟩
    exact (readBack_iff rfl fun i => tmsi_reads h _).mpr rfl
  | imei h =>
    refine iff_of_false ?_ fun hkept => hkinds _ (by simp) hkept.1
    exact imei_not_readBack h (.inl rfl) (imeiFlag_type (by decide)) rfl
  | imeisv h =>
    refine iff_of_false ?_ fun hkept => hkinds _ (by simp) hkept.1
    exact imei_not_readBack h (.inr rfl) (imeiFlag_type (by decide)) rfl
  | noIdentity => exact iff_of_false noIdentity_not_readBack fun hkept => hkinds _ (by simp) hkept.1

theorem IE5gsMobileIdentity.identity_kept_networkSpecific :
    IE5gsMobileIdentity.ReadBack
      { type := IdentityType.suci, supiFormat := networkSpecificSupiFormat, value := [117, 101] } ↔
    IE5gsMobileIdentity.Preserved
      { type := IdentityType.suci, supiFormat := networkSpecificSupiFormat, value := [117, 101] } :=
  identity_kept_iff _ (.networkSpecific _)

/-- The IMEI of one digit comes back with two, and no identity leaves its octet. -/
theorem IE5gsMobileIdentity.not_identity_kept :
    (Proper { type := IdentityType.imei, value := [49] } ∧
      ¬ ReadBack { type := IdentityType.imei, value := [49] }) ∧
    Proper { type := IdentityType.noIdentity } ∧ ¬ ReadBack { type := IdentityType.noIdentity } := by
  have hdigit : ∀ c ∈ ([49] : OctetString), DecimalDigit c := by
    intro c hc
    rw [List.mem_singleton.mp hc]
    exact ⟨by decide, by decide⟩
  exact ⟨⟨.imei hdigit, imei_not_readBack hdigit (.inl rfl)
    (imeiFlag_type (by decide)) rfl⟩, .noIdentity, noIdentity_not_readBack⟩

end Identities

end Quicup.Ueransim
