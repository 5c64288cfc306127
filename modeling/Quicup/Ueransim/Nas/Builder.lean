import Quicup.Core.Fallible
import Quicup.Ueransim.Utils.Octets

/-!
# Information elements and the builder of NAS messages

The part of a message behind its type: mandatory elements, and optional ones that an IEI tells.
An element is given by the octets that its `Encode` writes, so the codecs of single elements are
left out, up to the one of the mobile identity, which does not take the octets of no identity. A
half octet is given as an octet.
-/

namespace Quicup.Ueransim

/-! ## Formats -/

/-- The bits of the first octet of a mobile identity that tell its type. -/
def identityTypeOf (flags : UInt8) : UInt8 := flags &&& 7

def noIdentityType : UInt8 := 0

/-- `EIdentityType::IMEISV`, the last type that there is. -/
def imeisvType : UInt8 := 5

/-- `NO_IDENTITY`, encoded. -/
def noIdentity : OctetString := [0]

/-- `EncodeIe1` of two half octets. -/
def encodeHalves (big little : UInt8) : UInt8 := big <<< 4 ||| little

/-- `InformationElement1` to `InformationElement6`, with `IE5gsMobileIdentity` of type 6 apart. -/
inductive IeFormat
  | type1
  | type3 (length : Nat)
  | type4
  | type6
  | mobileIdentity
  deriving DecidableEq

namespace IeFormat

/-- The octets that an element of a format can have. -/
def Fits (value : OctetString) : IeFormat → Prop
  | type1 => ∃ half : UInt8, half < 16 ∧ value = [half]
  | type3 length => value.length = length
  | type4 => value.length < 256
  | type6 => value.length < 65536
  | mobileIdentity => value.length < 65536 ∧ ∃ flags ∈ value.head?,
      noIdentityType < identityTypeOf flags ∧ identityTypeOf flags ≤ imeisvType

/-- `Encode2346`, and `EncodeIe1` without an IEI. -/
def encode (value : OctetString) : IeFormat → OctetString
  | type1 => value
  | type3 _ => value
  | type4 => UInt8.ofNat value.length :: value
  | type6 => octetsBE 2 value.length ++ value
  | mobileIdentity => octetsBE 2 value.length ++ value

/-- `DecodeIe2346` and `DecodeIe1` -/
def decode : IeFormat → Read OctetString
  | type1 => do
    let octet ← readOctet
    return [octet &&& 0xF]
  | type3 length => readOctets length
  | type4 => do
    let length ← readOctet
    readOctets length.toNat
  | type6 => do
    let length ← read2I
    readOctets length
  | mobileIdentity => do
    let length ← read2I
    let flags ← peek
    -- the octets of a type that is not known are left in the stream
    if identityTypeOf flags = noIdentityType then return noIdentity
    else if imeisvType < identityTypeOf flags then return []
    else readOctets length

/-- The octets that an optional element may begin with. -/
def firstOctets (iei : UInt8) : IeFormat → List UInt8
  | type1 => (List.range 16).map fun half => encodeHalves iei (UInt8.ofNat half)
  | _ => [iei]

end IeFormat

/-! ## Optional elements -/

/-- `optionalIE1` or `optionalIE` -/
structure OptionalIe where
  iei : UInt8
  format : IeFormat
  deriving DecidableEq

namespace OptionalIe

def encode (ie : OptionalIe) (value : OctetString) : OctetString :=
  match ie.format with
  | .type1 => value.map (encodeHalves ie.iei)
  | format => ie.iei :: format.encode value

def decode (ie : OptionalIe) : Read OctetString :=
  match ie.format with
  | .type1 => IeFormat.type1.decode
  | format => do
    let _ ← readOctet
    format.decode

end OptionalIe

/-- The decoder for an octet, which is an IEI or has one in its high half. -/
def findDecoder (optionalDecoders : List OptionalIe) (octet : UInt8) : Option OptionalIe :=
  (optionalDecoders.find? fun ie => ie.iei = octet).or
    (optionalDecoders.find? fun ie => ie.iei = octet >>> 4)

/-- The elements with IEIs that are left in a stream. Each takes an octet at least. -/
def decodeOptionals (optionalDecoders : List OptionalIe) : Nat → Read (List (UInt8 × OctetString))
  | 0 => Read.fault .hang
  | bound + 1 => do
    if ← hasNext then
      let octet ← peek
      match findDecoder optionalDecoders octet with
      | none => Read.fault .exception
      | some ie => do
        let value ← ie.decode
        let others ← decodeOptionals optionalDecoders bound
        return (ie.iei, value) :: others
    else return []

/-- An optional element of a message, with its value where it is present. -/
structure IeField where
  ie : OptionalIe
  value : Option OctetString
  deriving DecidableEq

def IeField.encode (field : IeField) : OctetString := field.value.elim [] field.ie.encode

/-- The elements that are present, in order. -/
def presentIes (fields : List IeField) : List (UInt8 × OctetString) :=
  fields.filterMap fun field => field.value.map (field.ie.iei, ·)

/-- The value of an element behind the decoders: the last one with the IEI. -/
def valueOf (iei : UInt8) (ies : List (UInt8 × OctetString)) : Option OctetString :=
  Fallible.lastWrite (fun ie => if ie.1 = iei then some ie.2 else none) ies none

/-- Each octet that an element begins with finds its own decoder. -/
def Unambiguous (optionalDecoders : List OptionalIe) : Prop :=
  ∀ ie ∈ optionalDecoders, ∀ octet ∈ ie.format.firstOctets ie.iei,
    findDecoder optionalDecoders octet = some ie

instance (optionalDecoders : List OptionalIe) : Decidable (Unambiguous optionalDecoders) :=
  @List.decidableBAll _ _ (fun _ => List.decidableBAll _ _) _

/-! ## Reading back -/

section ReadBack

variable {i : Nat} {value : OctetString} {big little : UInt8} {ie : OptionalIe}

theorem IeFormat.Fits.decode_reads {format : IeFormat} (h : format.Fits value) :
    Reads format.decode i (format.encode value) value := by
  cases format with
  | type1 =>
    obtain ⟨half, hhalf, rfl⟩ := h
    have hlow : half &&& 0xF = half := by
      have hmod : half &&& 0xF = half % 16 := by
        apply UInt8.toNat_inj.mp
        rw [UInt8.toNat_and, UInt8.toNat_mod]
        exact Nat.and_two_pow_sub_one_eq_mod _ 4
      rw [hmod]
      exact UInt8.mod_eq_of_lt hhalf
    have hread := (readOctet_reads (i := i) half).bind_end
      (f := fun octet => Pure.pure [octet &&& 0xF]) (Reads.pure _)
    rwa [hlow] at hread
  | type3 length =>
    obtain rfl : value.length = length := h
    exact readOctets_reads value
  | type4 =>
    have hlength : (UInt8.ofNat value.length).toNat = value.length := UInt8.toNat_ofNat_of_lt' h
    apply (readOctet_reads _).bind
    rw [hlength]
    exact readOctets_reads value
  | type6 =>
    have hlength := readBE_reads (i := i) 2 value.length
    have hlt : value.length < 256 ^ 2 := h
    rw [Nat.mod_eq_of_lt hlt] at hlength
    exact hlength.bind (readOctets_reads value)
  | mobileIdentity =>
    obtain ⟨hlt, flags, hflags, hknown, hlast⟩ := h
    obtain ⟨others, rfl⟩ := List.head?_eq_some_iff.mp hflags
    have hlength := readBE_reads (i := i) 2 (flags :: others).length
    have hlt' : (flags :: others).length < 256 ^ 2 := hlt
    rw [Nat.mod_eq_of_lt hlt'] at hlength
    have hne : identityTypeOf flags ≠ noIdentityType := fun heq => by
      rw [heq] at hknown
      exact absurd hknown (by decide)
    apply hlength.bind
    intro rest
    change (if identityTypeOf flags = noIdentityType then Pure.pure noIdentity
      else if imeisvType < identityTypeOf flags then Pure.pure []
      else readOctets (flags :: others).length : Read OctetString) _ = _
    rw [if_neg hne, if_neg (UInt8.not_lt.mpr hlast)]
    exact readOctets_reads (flags :: others) rest

private theorem toNat_encodeHalves (h : little < 16) :
    (encodeHalves big little).toNat = big.toNat % 16 * 16 + little.toNat := by
  have hlittle : little.toNat < 2 ^ 4 := h
  have hshift : (big <<< 4).toNat = (big.toNat % 16) <<< 4 := by
    rw [UInt8.toNat_shiftLeft, Nat.shiftLeft_eq, Nat.shiftLeft_eq]
    change big.toNat * 2 ^ 4 % 2 ^ 8 = _
    omega
  rw [encodeHalves, UInt8.toNat_or, hshift, ← Nat.shiftLeft_add_eq_or_of_lt hlittle,
    Nat.shiftLeft_eq]

theorem encodeHalves_and (h : little < 16) : encodeHalves big little &&& 0xF = little := by
  apply UInt8.toNat_inj.mp
  have hlt : little.toNat < 16 := h
  rw [UInt8.toNat_and, toNat_encodeHalves h]
  change _ &&& (2 ^ 4 - 1) = _
  rw [Nat.and_two_pow_sub_one_eq_mod]
  omega

theorem encodeHalves_shiftRight (hbig : big < 16) (h : little < 16) :
    encodeHalves big little >>> 4 = big := by
  apply UInt8.toNat_inj.mp
  have hlt : little.toNat < 16 := h
  have hlt' : big.toNat < 16 := hbig
  rw [UInt8.toNat_shiftRight, toNat_encodeHalves h]
  change _ >>> 4 = _
  rw [Nat.shiftRight_eq_div_pow]
  omega

theorem OptionalIe.decode_reads (h : ie.format.Fits value) :
    Reads ie.decode i (ie.encode value) value := by
  obtain ⟨iei, format⟩ := ie
  cases format with
  | type1 =>
    obtain ⟨half, hhalf, rfl⟩ := h
    have hread := (readOctet_reads (i := i) (encodeHalves iei half)).bind_end
      (f := fun octet => Pure.pure [octet &&& 0xF]) (Reads.pure _)
    rwa [encodeHalves_and hhalf] at hread
  | type3 _ | type4 | type6 | mobileIdentity =>
    exact (readOctet_reads iei).bind (IeFormat.Fits.decode_reads h)

theorem OptionalIe.encode_eq_cons (h : ie.format.Fits value) :
    ∃ octet rest, ie.encode value = octet :: rest ∧ octet ∈ ie.format.firstOctets ie.iei := by
  obtain ⟨iei, format⟩ := ie
  cases format with
  | type1 =>
    obtain ⟨half, hhalf, rfl⟩ := h
    refine ⟨encodeHalves iei half, [], rfl, List.mem_map.mpr ⟨half.toNat, ?_, ?_⟩⟩
    · exact List.mem_range.mpr hhalf
    · rw [UInt8.ofNat_toNat]
  | type3 length => exact ⟨iei, value, rfl, List.mem_singleton_self _⟩
  | type4 => exact ⟨iei, _, rfl, List.mem_singleton_self _⟩
  | type6 => exact ⟨iei, _, rfl, List.mem_singleton_self _⟩
  | mobileIdentity => exact ⟨iei, _, rfl, List.mem_singleton_self _⟩

variable {optionalDecoders : List OptionalIe} {bound : Nat} {octet : UInt8} {c : OctetString}
  {fields : List IeField}

theorem decodeOptionals_nil (bound : Nat) :
    decodeOptionals optionalDecoders (bound + 1) ⟨i, []⟩ = .ok ([], ⟨i, []⟩) := rfl

theorem decodeOptionals_cons {rest : OctetString} {others : List (UInt8 × OctetString)} {t : Cursor}
    (hfind : findDecoder optionalDecoders octet = some ie)
    (hread : Reads ie.decode i (octet :: c) value)
    (hothers : decodeOptionals optionalDecoders bound ⟨i + (octet :: c).length, rest⟩ =
      .ok (others, t)) :
    decodeOptionals optionalDecoders (bound + 1) ⟨i, octet :: c ++ rest⟩ =
      .ok ((ie.iei, value) :: others, t) := by
  have hstep : decodeOptionals optionalDecoders (bound + 1) ⟨i, octet :: c ++ rest⟩ =
      (match findDecoder optionalDecoders octet with
        | none => Read.fault .exception
        | some ie => do
          let value ← ie.decode
          let others ← decodeOptionals optionalDecoders bound
          return (ie.iei, value) :: others : Read _) ⟨i, octet :: c ++ rest⟩ := rfl
  rw [hstep, hfind]
  change (ie.decode ⟨i, octet :: c ++ rest⟩ >>= fun r =>
    decodeOptionals optionalDecoders bound r.2 >>= fun others =>
      .ok ((ie.iei, r.1) :: others.1, others.2)) = _
  rw [hread rest, Fallible.ok_bind, hothers, Fallible.ok_bind]

theorem decodeOptionals_of_none (bound : Nat) (hfind : findDecoder optionalDecoders octet = none) :
    decodeOptionals optionalDecoders (bound + 1) ⟨i, octet :: c⟩ = .error .exception := by
  simp [decodeOptionals, hasNext, peek, hfind, Read.fault, Bind.bind, StateT.bind, Except.bind]

/-- The optional elements of a message are read back, and no other ones. -/
theorem decodeOptionals_fields (h : Unambiguous optionalDecoders)
    (hmem : ∀ field ∈ fields, field.ie ∈ optionalDecoders)
    (hfits : ∀ field ∈ fields, ∀ value ∈ field.value, field.ie.format.Fits value)
    (hbound : (fields.flatMap IeField.encode).length < bound) :
    decodeOptionals optionalDecoders bound ⟨i, fields.flatMap IeField.encode⟩ =
      .ok (presentIes fields, ⟨i + (fields.flatMap IeField.encode).length, []⟩) := by
  induction fields generalizing i bound with
  | nil =>
    obtain ⟨bound, rfl⟩ := Nat.exists_eq_add_one_of_ne_zero (Nat.ne_of_gt hbound)
    exact decodeOptionals_nil bound
  | cons field fields ih =>
    rw [List.flatMap_cons] at hbound ⊢
    have hmem' : ∀ field ∈ fields, field.ie ∈ optionalDecoders :=
      fun field hfield => hmem field (List.mem_cons_of_mem _ hfield)
    have hfits' : ∀ field ∈ fields, ∀ value ∈ field.value, field.ie.format.Fits value :=
      fun field hfield => hfits field (List.mem_cons_of_mem _ hfield)
    obtain ⟨ie, value⟩ := field
    cases value with
    | none => exact ih hmem' hfits' hbound
    | some value =>
      have hvalue : ie.format.Fits value := hfits _ (List.mem_cons_self ..) value rfl
      obtain ⟨octet, c, hencode, hfirst⟩ := OptionalIe.encode_eq_cons hvalue
      have hread := OptionalIe.decode_reads (i := i) hvalue
      have hfield : (IeField.mk ie (some value)).encode = octet :: c := hencode
      rw [hencode] at hread
      rw [hfield, List.length_append] at hbound ⊢
      obtain ⟨bound, rfl⟩ := Nat.exists_eq_add_one_of_ne_zero (Nat.ne_zero_of_lt hbound)
      have hlength : (octet :: c).length = c.length + 1 := rfl
      apply decodeOptionals_cons (h ie (hmem _ (List.mem_cons_self ..)) octet hfirst) hread
      rw [← Nat.add_assoc]
      exact ih hmem' hfits' (by omega)

/-- What is read back has the values of the fields. -/
theorem valueOf_presentIes (h : (fields.map fun field => field.ie.iei).Nodup) {field : IeField}
    (hfield : field ∈ fields) : valueOf field.ie.iei (presentIes fields) = field.value := by
  obtain ⟨before, after, rfl⟩ := List.append_of_mem hfield
  rw [List.map_append, List.map_cons, List.nodup_append, List.nodup_cons] at h
  obtain ⟨-, ⟨hafter, -⟩, hbefore⟩ := h
  have hother {fields : List IeField} (hne : ∀ other ∈ fields, other.ie.iei ≠ field.ie.iei) :
      (presentIes fields).filterMap
        (fun ie => if ie.1 = field.ie.iei then some ie.2 else none) = [] := by
    rw [presentIes, List.filterMap_filterMap, List.filterMap_eq_nil_iff]
    intro other hmem
    cases hvalue : other.value with
    | none => rfl
    | some value => simp [hne other hmem]
  have hnone := hother fun other hmem =>
    hbefore _ (List.mem_map_of_mem hmem) _ (List.mem_cons_self ..)
  have hne (other : IeField) (hmem : other ∈ after) : other.ie.iei ≠ field.ie.iei := fun heq =>
    hafter (heq ▸ List.mem_map_of_mem hmem)
  have hnone' := hother hne
  have hsplit : presentIes (before ++ field :: after) =
      presentIes before ++ (field.value.map (field.ie.iei, ·)).toList ++ presentIes after := by
    cases hvalue : field.value <;> simp [presentIes, hvalue]
  rw [valueOf, Fallible.lastWrite, hsplit, List.filterMap_append, List.filterMap_append, hnone,
    hnone']
  cases field.value <;> simp

end ReadBack

/-! ## What is read -/

/-- A length field of two octets tells the length of a value at most. -/
def IeFormat.Short : IeFormat → Prop
  | type3 length => length < 65536
  | _ => True

instance : DecidablePred IeFormat.Short
  | .type1 => inferInstanceAs (Decidable True)
  | .type3 length => inferInstanceAs (Decidable (length < 65536))
  | .type4 => inferInstanceAs (Decidable True)
  | .type6 => inferInstanceAs (Decidable True)
  | .mobileIdentity => inferInstanceAs (Decidable True)

section Read

variable {c t : Cursor} {value : OctetString} {ie : OptionalIe} {optionalDecoders : List OptionalIe}
  {ies : List (UInt8 × OctetString)}

theorem IeFormat.Short.length_lt {format : IeFormat} (hshort : format.Short)
    (h : format.decode c = .ok (value, t)) : value.length < 65536 := by
  cases format with
  | type1 =>
    obtain ⟨octet, u, -, h⟩ := Read.bind_ok h
    obtain ⟨rfl, -⟩ := Prod.mk.inj (Except.ok.inj h)
    exact (by decide : 1 < 65536)
  | type3 length =>
    obtain ⟨hlength, -⟩ := readOctets_ok h
    exact hlength ▸ hshort
  | type4 =>
    obtain ⟨length, u, -, h⟩ := Read.bind_ok h
    obtain ⟨hlength, -⟩ := readOctets_ok h
    have hlt := length.toNat_lt
    omega
  | type6 =>
    obtain ⟨length, u, hread, h⟩ := Read.bind_ok h
    obtain ⟨hlength, -⟩ := readOctets_ok h
    obtain ⟨hlt, -⟩ := readBE_ok hread
    omega
  | mobileIdentity =>
    obtain ⟨length, u, hread, h⟩ := Read.bind_ok h
    obtain ⟨flags, v, -, h⟩ := Read.bind_ok h
    obtain ⟨hlt, -⟩ := readBE_ok hread
    split at h
    · obtain ⟨rfl, -⟩ := Prod.mk.inj (Except.ok.inj h)
      exact (by decide : 1 < 65536)
    · split at h
      · obtain ⟨rfl, -⟩ := Prod.mk.inj (Except.ok.inj h)
        exact (by decide : 0 < 65536)
      · obtain ⟨hlength, -⟩ := readOctets_ok h
        omega

theorem OptionalIe.length_lt (hshort : ie.format.Short) (h : ie.decode c = .ok (value, t)) :
    value.length < 65536 := by
  obtain ⟨iei, format⟩ := ie
  cases format with
  | type1 => exact IeFormat.Short.length_lt hshort h
  | type3 length =>
    obtain ⟨octet, u, -, h⟩ := Read.bind_ok h
    exact hshort.length_lt h
  | type4 =>
    obtain ⟨octet, u, -, h⟩ := Read.bind_ok h
    exact hshort.length_lt h
  | type6 =>
    obtain ⟨octet, u, -, h⟩ := Read.bind_ok h
    exact hshort.length_lt h
  | mobileIdentity =>
    obtain ⟨octet, u, -, h⟩ := Read.bind_ok h
    exact hshort.length_lt h

theorem mem_of_findDecoder {octet : UInt8} (h : findDecoder optionalDecoders octet = some ie) :
    ie ∈ optionalDecoders := by
  rcases Option.or_eq_some_iff.mp h with h | ⟨-, h⟩
  · exact List.mem_of_find?_eq_some h
  · exact List.mem_of_find?_eq_some h

theorem length_lt_of_decodeOptionals (hshort : ∀ ie ∈ optionalDecoders, ie.format.Short)
    {bound : Nat} (h : decodeOptionals optionalDecoders bound c = .ok (ies, t)) :
    ∀ ie ∈ ies, ie.2.length < 65536 := by
  induction bound generalizing c t ies with
  | zero => cases h
  | succ bound ih =>
    obtain ⟨next, u, -, h⟩ := Read.bind_ok h
    cases next with
    | false =>
      obtain ⟨rfl, -⟩ := Prod.mk.inj (Except.ok.inj h)
      nofun
    | true =>
      obtain ⟨octet, v, -, h⟩ := Read.bind_ok h
      cases hfind : findDecoder optionalDecoders octet with
      | none =>
        rw [hfind] at h
        cases h
      | some ie =>
        rw [hfind] at h
        obtain ⟨value, w, hvalue, h⟩ := Read.bind_ok h
        obtain ⟨others, x, hothers, h⟩ := Read.bind_ok h
        obtain ⟨rfl, -⟩ := Prod.mk.inj (Except.ok.inj h)
        intro other hmem
        rcases List.mem_cons.mp hmem with rfl | hmem
        · exact OptionalIe.length_lt (hshort ie (mem_of_findDecoder hfind)) hvalue
        · exact ih hothers other hmem

theorem mem_of_valueOf {iei : UInt8} (h : valueOf iei ies = some value) :
    ∃ ie ∈ ies, ie.2 = value := by
  rw [valueOf, Fallible.lastWrite, Option.or_none] at h
  obtain ⟨ie, hmem, hie⟩ := List.mem_filterMap.mp (List.mem_of_getLast? h)
  split at hie
  · exact ⟨ie, hmem, Option.some.inj hie⟩
  · cases hie

end Read

end Quicup.Ueransim
