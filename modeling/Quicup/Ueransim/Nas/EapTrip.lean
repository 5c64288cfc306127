import Mathlib.Data.List.Nodup
import Quicup.Ueransim.Nas.Bounds

/-!
# EAP packets there and back

`EncodeEapPdu` of `eap.cpp` beside `DecodeEapPdu`. The decoder asks for two words at least in an
attribute, so attributes of one word, which are written as any other, are not read back.
-/

namespace Quicup.Ueransim

/-! ## Writing a packet -/

namespace Eap

/-- What `forEachEntryOrdered` comes to: the types in the order in which they were put, each with
the value that was put last. -/
def forEachEntryOrdered (attributes : List (Nat × OctetString)) : List (Nat × OctetString) :=
  attributes.map fun a =>
    (a.1, ((attributes.reverse.find? fun b => b.1 = a.1).map Prod.snd).getD [])

/-- The length of an attribute is counted in words, type and length included. -/
def encodeAttribute (a : Nat × OctetString) : OctetString :=
  .ofNat a.1 :: .ofNat ((a.2.length + 2) / 4) :: a.2

end Eap

def EapData.eapType : EapData → Nat
  | .noType => Eap.noType
  | .akaPrime _ _ => Eap.akaPrimeType
  | .notification _ => Eap.notificationType
  | .identity _ => Eap.identityType

/-- The octets behind the type. -/
def EapData.encode : EapData → OctetString
  | .noType => []
  | .akaPrime subType attributes =>
    .ofNat subType :: octetsOfInt 2 0 ++
      (Eap.forEachEntryOrdered attributes).flatMap Eap.encodeAttribute
  | .notification rawData => rawData
  | .identity rawData => rawData

def encodeEapPdu (stream : OctetString) (pdu : Eap) : OctetString :=
  if pdu.data.eapType = Eap.noType then
    stream ++ [.ofNat pdu.code, .ofNat pdu.id] ++ octetsOfInt 2 4
  else
    -- the length is written into its place once the octets behind it are there
    let realLength : Int := 5 + pdu.data.encode.length
    stream ++ [.ofNat pdu.code, .ofNat pdu.id] ++ octetsOfInt 2 realLength ++
      .ofNat pdu.data.eapType :: pdu.data.encode

/-! ## Packets that are built -/

/-- One of each attribute, and attributes that fill words. -/
def EapData.Buildable : EapData → Prop
  | .akaPrime subType attributes =>
    Eap.firstSubType ≤ subType ∧ subType ≤ Eap.lastSubType ∧ (attributes.map Prod.fst).Nodup ∧
      ∀ a ∈ attributes, Eap.firstAttribute ≤ a.1 ∧ a.1 ≤ Eap.lastAttribute ∧ a.2.length % 4 = 2
  | _ => True

structure Eap.Buildable (pdu : Eap) : Prop where
  code : Eap.firstCode ≤ pdu.code ∧ pdu.code ≤ Eap.lastCode
  id : pdu.id < 256
  data : pdu.data.Buildable

/-- The octets of the attributes, their types and lengths included. -/
def Eap.attributesSize (attributes : List (Nat × OctetString)) : Nat :=
  (attributes.map fun a => a.2.length + 2).sum

/-- Every attribute has two words at least and no more than its length can tell, and the packet
has no more octets than its own can. -/
def EapData.Fits : EapData → Prop
  | .noType => True
  | .akaPrime _ attributes =>
    (∀ a ∈ attributes, 8 ≤ a.2.length + 2 ∧ a.2.length + 2 ≤ 4 * 255) ∧
      8 + Eap.attributesSize attributes < 2 ^ 16
  | .notification rawData => 5 + rawData.length < 2 ^ 16
  | .identity rawData => 5 + rawData.length < 2 ^ 16

/-- The packet is read back. -/
def Eap.ReadBack (pdu : Eap) : Prop :=
  ∃ c, decodeEapPdu (.start (encodeEapPdu [] pdu)) = .ok (some pdu, c)

/-- The number in the two octets behind code and identifier. -/
def Eap.lengthField (s : OctetString) : Nat := natBE ((s.drop 2).take 2)

/-- A packet takes the octets its length tells, or there is none. -/
def Eap.ConsumesOrFails (s : OctetString) : Prop :=
  match decodeEapPdu (.start s) with
  | .ok (some _, c) => c.index = Eap.lengthField s
  | .ok (none, _) => True
  | .error f => f = .exception

/-! ## Attributes -/

namespace Eap

section Attributes

variable {attributes : List (Nat × OctetString)} {innerLength readBytes : Int} {fuel i : Nat}

/-- With one of each attribute the last one put is the one put there. -/
theorem forEachEntryOrdered_eq (h : (attributes.map Prod.fst).Nodup) :
    forEachEntryOrdered attributes = attributes := by
  have hput : ∀ a ∈ attributes, (attributes.reverse.find? fun b => b.1 = a.1) = some a := by
    intro a ha
    obtain ⟨b, hb⟩ : ∃ b, (attributes.reverse.find? fun b => b.1 = a.1) = some b := by
      rw [← Option.isSome_iff_exists, List.find?_isSome]
      exact ⟨a, List.mem_reverse.mpr ha, decide_eq_true rfl⟩
    have hmem := List.mem_reverse.mp (List.mem_of_find?_eq_some hb)
    have hkey : b.1 = a.1 := by simpa using List.find?_some hb
    rw [hb, List.inj_on_of_nodup_map h hmem ha hkey]
  rw [forEachEntryOrdered]
  conv_rhs => rw [← List.map_id attributes]
  refine List.map_congr_left fun a ha => ?_
  rw [hput a ha]
  rfl

@[simp] theorem length_encodeAttribute (a : Nat × OctetString) :
    (encodeAttribute a).length = a.2.length + 2 := rfl

theorem length_encodeAttributes :
    (attributes.flatMap encodeAttribute).length = attributesSize attributes := by
  simp [attributesSize, List.length_flatMap]

theorem attributesSize_cons (a : Nat × OctetString) :
    attributesSize (a :: attributes) = a.2.length + 2 + attributesSize attributes := by
  simp [attributesSize]

theorem length_le_attributesSize : attributes.length ≤ attributesSize attributes := by
  induction attributes with
  | nil => exact Nat.zero_le _
  | cons a attributes ih =>
    rw [attributesSize_cons, List.length_cons]
    omega

/-- Attributes of some words each are read back in their order. -/
theorem decodeEapAttributes_reads
    (h : ∀ a ∈ attributes, firstAttribute ≤ a.1 ∧ a.1 ≤ lastAttribute ∧ a.2.length % 4 = 2)
    (hfit : ∀ a ∈ attributes, 8 ≤ a.2.length + 2 ∧ a.2.length + 2 ≤ 4 * 255)
    (hinner : readBytes + attributesSize attributes = innerLength)
    (hfuel : attributes.length < fuel) :
    Reads (decodeEapAttributes innerLength fuel readBytes) i (attributes.flatMap encodeAttribute)
      (some attributes) := by
  induction attributes generalizing readBytes fuel i with
  | nil =>
    obtain ⟨fuel, rfl⟩ := Nat.exists_eq_add_of_lt hfuel
    have hends : readBytes = innerLength := by
      simpa [attributesSize] using hinner
    rw [List.length_nil, Nat.zero_add, decodeEapAttributes, if_neg (by omega), if_neg (by omega)]
    exact .pure _
  | cons a attributes ih =>
    obtain ⟨fuel, rfl⟩ : ∃ fuel', fuel = fuel' + 1 := ⟨fuel - 1, by omega⟩
    obtain ⟨⟨hfirst, hlast, hwords⟩, h⟩ := List.forall_mem_cons.mp h
    obtain ⟨⟨hlow, hhigh⟩, hfit⟩ := List.forall_mem_cons.mp hfit
    rw [attributesSize_cons] at hinner
    rw [List.length_cons] at hfuel
    have hkey : (UInt8.ofNat a.1).toNat = a.1 := by
      rw [UInt8.toNat_ofNat']
      unfold lastAttribute at hlast
      omega
    have hlength : (UInt8.ofNat ((a.2.length + 2) / 4)).toNat = (a.2.length + 2) / 4 := by
      rw [UInt8.toNat_ofNat']
      omega
    have hvalue : (4 * (((a.2.length + 2) / 4 : Nat) : Int) - 2) = (a.2.length : Int) := by omega
    rw [decodeEapAttributes, if_pos (by push_cast at hinner; omega), List.flatMap_cons,
      encodeAttribute, List.cons_append, List.cons_append]
    refine (readI_reads _).bind ?_
    rw [hkey, if_neg (by omega)]
    refine (readI_reads _).bind ?_
    rw [hlength, if_neg (by omega), hvalue]
    refine (readOctetString_reads a.2).bind ?_
    refine (ih h hfit ?_ (by omega)).bind_end (.pure _)
    push_cast at hinner
    omega

theorem decodeAttributes_reads
    (h : ∀ a ∈ attributes, firstAttribute ≤ a.1 ∧ a.1 ≤ lastAttribute ∧ a.2.length % 4 = 2)
    (hfit : ∀ a ∈ attributes, 8 ≤ a.2.length + 2 ∧ a.2.length + 2 ≤ 4 * 255)
    (hinner : 3 + attributesSize attributes = innerLength) :
    Reads (fun c => decodeEapAttributes innerLength (c.rest.length + 1) 3 c) i
      (attributes.flatMap encodeAttribute) (some attributes) := by
  intro rest
  -- each attribute has an octet at least for a turn of the loop
  have hfuel : attributes.length ≤ attributesSize attributes := length_le_attributesSize
  refine decodeEapAttributes_reads h hfit (by exact_mod_cast hinner) ?_ rest
  rw [List.length_append, length_encodeAttributes]
  omega

/-- What the attributes that were read have in common, and where they end. -/
theorem decodeEapAttributes_ok {s : OctetString} {t : Cursor}
    (h : decodeEapAttributes innerLength fuel readBytes ⟨i, s⟩ = .ok (some attributes, t)) :
    (∀ a ∈ attributes, 8 ≤ a.2.length + 2 ∧ a.2.length + 2 ≤ 4 * 255) ∧
      readBytes + attributesSize attributes = innerLength ∧
      t.index = i + attributesSize attributes := by
  induction fuel generalizing readBytes i s attributes with
  | zero => cases h
  | succ fuel ih =>
    rw [decodeEapAttributes] at h
    by_cases hmore : readBytes < innerLength
    · rw [if_pos hmore] at h
      obtain ⟨key, u, hkey, h⟩ := Read.bind_ok h
      obtain ⟨x, -, -, hu⟩ := readI_ok hkey
      by_cases hknown : key < firstAttribute ∨ key > lastAttribute
      · rw [if_pos hknown] at h
        cases h
      rw [if_neg hknown] at h
      obtain ⟨attributeLength, v, hlength, h⟩ := Read.bind_ok h
      obtain ⟨y, rfl, -, hv⟩ := readI_ok hlength
      by_cases hshort : y.toNat < 2
      · rw [if_pos hshort] at h
        cases h
      rw [if_neg hshort] at h
      obtain ⟨value, w, hvalue, h⟩ := Read.bind_ok h
      obtain ⟨-, hsize, -, hw⟩ := readOctetString_ok hvalue
      obtain ⟨found, r, hfound, h⟩ := Read.bind_ok h
      obtain ⟨hsome, rfl⟩ := Prod.mk.inj (Except.ok.inj h)
      obtain ⟨others, rfl, rfl⟩ := Option.map_eq_some_iff.mp hsome
      obtain ⟨hfit, hsum, hends⟩ := ih hfound
      have hy := y.toNat_lt
      rw [attributesSize_cons]
      dsimp only at hsum hends ⊢
      refine ⟨List.forall_mem_cons.mpr ⟨?_, hfit⟩, ?_, ?_⟩
      · dsimp only
        omega
      · push_cast
        omega
      · omega
    · rw [if_neg hmore] at h
      by_cases hends : readBytes = innerLength
      · rw [if_neg (by omega)] at h
        obtain ⟨hnil, rfl⟩ := Prod.mk.inj (Except.ok.inj h)
        obtain rfl := Option.some.inj hnil
        exact ⟨by simp, by simpa [attributesSize] using hends, rfl⟩
      · rw [if_pos hends] at h
        cases h

end Attributes

end Eap

/-! ## Packets -/

section Packets

variable {pdu : Eap} {s : OctetString}

/-- A packet with a body is written with the length of all of it. -/
theorem encodeEapPdu_body (h : pdu.data.eapType ≠ Eap.noType)
    (hsize : 5 + pdu.data.encode.length < 2 ^ 16) :
    encodeEapPdu [] pdu = UInt8.ofNat pdu.code :: UInt8.ofNat pdu.id ::
      (octetsBE 2 (5 + pdu.data.encode.length) ++
        UInt8.ofNat pdu.data.eapType :: pdu.data.encode) := by
  have hlength : octetsOfInt 2 (5 + (pdu.data.encode.length : Int)) =
      octetsBE 2 (5 + pdu.data.encode.length) := by
    exact_mod_cast octetsOfInt_natCast (n := 2) hsize
  rw [encodeEapPdu, if_neg h]
  simp only [hlength, List.nil_append, List.cons_append]

theorem EapData.Buildable.encode_length {data : EapData} (h : data.Buildable) (hfit : data.Fits)
    (htype : data.eapType ≠ Eap.noType) : 5 + data.encode.length < 2 ^ 16 := by
  cases data with
  | noType => exact absurd rfl htype
  | akaPrime subType attributes =>
    rw [EapData.encode, Eap.forEachEntryOrdered_eq h.2.2.1, List.cons_append, List.length_cons,
      List.length_append, length_octetsOfInt, Eap.length_encodeAttributes]
    have hsize := hfit.2
    omega
  | notification rawData => exact hfit
  | identity rawData => exact hfit

theorem EapData.eapType_lt (data : EapData) : data.eapType < 256 := by
  cases data <;> simp [EapData.eapType, Eap.noType, Eap.akaPrimeType, Eap.notificationType,
    Eap.identityType]

/-- What is built and fits is read back. -/
theorem Eap.Buildable.encode_reads (h : pdu.Buildable) (hfit : pdu.data.Fits) :
    Reads decodeEapPdu 0 (encodeEapPdu [] pdu) (some pdu) := by
  have hcode : (UInt8.ofNat pdu.code).toNat = pdu.code := by
    have hlast := h.code.2
    unfold Eap.lastCode at hlast
    rw [UInt8.toNat_ofNat']
    omega
  have hident : (UInt8.ofNat pdu.id).toNat = pdu.id := by
    rw [UInt8.toNat_ofNat', Nat.mod_eq_of_lt h.id]
  have htype : (UInt8.ofNat pdu.data.eapType).toNat = pdu.data.eapType := by
    rw [UInt8.toNat_ofNat', Nat.mod_eq_of_lt pdu.data.eapType_lt]
  have hknown : ¬ (pdu.code < Eap.firstCode ∨ pdu.code > Eap.lastCode) :=
    not_or.mpr ⟨Nat.not_lt.mpr h.code.1, Nat.not_lt.mpr h.code.2⟩
  by_cases hno : pdu.data.eapType = Eap.noType
  · obtain ⟨code, id, data⟩ := pdu
    cases data <;> cases hno
    refine (readI_reads (.ofNat code)).bind ?_
    rw [hcode, if_neg hknown]
    refine (readI_reads (.ofNat id)).bind ?_
    rw [hident]
    exact (readBE_reads 2 4).bind_end (.pure _)
  have hsize := h.data.encode_length hfit hno
  rw [encodeEapPdu_body hno hsize]
  refine (readI_reads _).bind ?_
  rw [hcode, if_neg hknown]
  refine (readI_reads _).bind ?_
  rw [hident]
  refine (readBE_reads 2 _).bind ?_
  have hfour : 5 + pdu.data.encode.length ≠ 4 := by omega
  rw [Nat.mod_eq_of_lt (b := 256 ^ 2) hsize, if_neg hfour]
  refine (readI_reads _).bind ?_
  rw [htype]
  have hinner : ((5 + pdu.data.encode.length : Nat) : Int) - 1 - 1 - 2 - 1 =
      pdu.data.encode.length := by
    omega
  simp only [hinner]
  obtain ⟨code, id, data⟩ := pdu
  cases data with
  | noType => exact absurd rfl hno
  | akaPrime subType attributes =>
    obtain ⟨hfirst, hlast, hnodup, hattributes⟩ := h.data
    have hsub : (UInt8.ofNat subType).toNat = subType := by
      unfold Eap.lastSubType at hlast
      rw [UInt8.toNat_ofNat']
      omega
    dsimp only
    rw [EapData.eapType, if_pos rfl, EapData.encode, Eap.forEachEntryOrdered_eq hnodup,
      List.cons_append]
    refine (readI_reads _).bind ?_
    rw [hsub, if_neg (not_or.mpr ⟨Nat.not_lt.mpr hfirst, Nat.not_lt.mpr hlast⟩)]
    refine (read2I_reads 0).bind ?_
    have hlength : 3 + (Eap.attributesSize attributes : Int) = ((UInt8.ofNat subType ::
        (octetsOfInt 2 0 ++ attributes.flatMap Eap.encodeAttribute)).length : Nat) := by
      rw [List.length_cons, List.length_append, length_octetsOfInt, Eap.length_encodeAttributes]
      push_cast
      ring
    have hbounds : ∀ a ∈ attributes, 8 ≤ a.2.length + 2 ∧ a.2.length + 2 ≤ 4 * 255 := hfit.1
    exact (Eap.decodeAttributes_reads hattributes hbounds hlength).bind_end (.pure _)
  | notification rawData =>
    rw [EapData.eapType, if_neg (by decide), if_pos rfl]
    exact (readOctetString_reads rawData).bind_end (.pure _)
  | identity rawData =>
    rw [EapData.eapType, if_neg (by decide), if_neg (by decide), if_pos rfl]
    exact (readOctetString_reads rawData).bind_end (.pure _)

/-- What was read fits, and takes as many octets as its length tells. -/
theorem decodeEapPdu_ok {t : Cursor} (h : decodeEapPdu (.start s) = .ok (some pdu, t)) :
    pdu.data.Fits ∧ t.index = Eap.lengthField s := by
  obtain ⟨code, u, hcode, h⟩ := Read.bind_ok h
  obtain ⟨x, rfl, hstart, hu⟩ := readI_ok hcode
  by_cases hknown : x.toNat < Eap.firstCode ∨ x.toNat > Eap.lastCode
  · rw [if_pos hknown] at h
    cases h
  rw [if_neg hknown] at h
  obtain ⟨id, v, hid, h⟩ := Read.bind_ok h
  obtain ⟨y, rfl, hrest, hv⟩ := readI_ok hid
  obtain ⟨length, w, hlength, h⟩ := Read.bind_ok h
  obtain ⟨hlt, hrest', hw⟩ := readBE_ok hlength
  have hfield : Eap.lengthField s = length := by
    rw [hstart, hrest, hrest', Eap.lengthField, List.drop_succ_cons, List.drop_succ_cons, List.drop_zero,
      List.take_left' (length_octetsBE 2 length), natBE_octetsBE, Nat.mod_eq_of_lt hlt]
  rw [hfield]
  by_cases hfour : length = 4
  · rw [if_pos hfour] at h
    obtain ⟨hpdu, rfl⟩ := Prod.mk.inj (Except.ok.inj h)
    obtain rfl := Option.some.inj hpdu
    exact ⟨trivial, by omega⟩
  rw [if_neg hfour] at h
  obtain ⟨type, r, htype, h⟩ := Read.bind_ok h
  obtain ⟨z, rfl, -, hr⟩ := readI_ok htype
  have hdata {rawData : OctetString}
      (hraw : readOctetString ((length : Int) - 1 - 1 - 2 - 1) r = .ok (rawData, t)) :
      5 + rawData.length < 2 ^ 16 ∧ t.index = length := by
    obtain ⟨-, hsize, -, hends⟩ := readOctetString_ok hraw
    omega
  by_cases haka : z.toNat = Eap.akaPrimeType
  · rw [if_pos haka] at h
    obtain ⟨subType, q, hsub, h⟩ := Read.bind_ok h
    obtain ⟨k, rfl, -, hq⟩ := readI_ok hsub
    by_cases hsubType : k.toNat < Eap.firstSubType ∨ k.toNat > Eap.lastSubType
    · rw [if_pos hsubType] at h
      cases h
    rw [if_neg hsubType] at h
    obtain ⟨reserved, q', hreserved, h⟩ := Read.bind_ok h
    obtain ⟨-, -, hq'⟩ := readBE_ok hreserved
    obtain ⟨found, q'', hfound, h⟩ := Read.bind_ok h
    obtain ⟨hsome, rfl⟩ := Prod.mk.inj (Except.ok.inj h)
    obtain ⟨attributes, rfl, rfl⟩ := Option.map_eq_some_iff.mp hsome
    obtain ⟨hfit, hsum, hends⟩ := Eap.decodeEapAttributes_ok hfound
    refine ⟨⟨hfit, ?_⟩, ?_⟩ <;> omega
  rw [if_neg haka] at h
  by_cases hnotification : z.toNat = Eap.notificationType
  · rw [if_pos hnotification] at h
    obtain ⟨rawData, q, hraw, h⟩ := Read.bind_ok h
    obtain ⟨hpdu, rfl⟩ := Prod.mk.inj (Except.ok.inj h)
    obtain rfl := Option.some.inj hpdu
    exact hdata hraw
  rw [if_neg hnotification] at h
  by_cases hidentity : z.toNat = Eap.identityType
  · rw [if_pos hidentity] at h
    obtain ⟨rawData, q, hraw, h⟩ := Read.bind_ok h
    obtain ⟨hpdu, rfl⟩ := Prod.mk.inj (Except.ok.inj h)
    obtain rfl := Option.some.inj hpdu
    exact hdata hraw
  · rw [if_neg hidentity] at h
    cases h

/-- A string that covers its packet is taken up to the length, or answered with no packet. -/
theorem Eap.consumesOrFails_iff : Eap.ConsumesOrFails s ↔ Eap.Covered s := by
  rw [← Eap.guarded_iff, Eap.ConsumesOrFails]
  have hspan : SpansFrom 0 decodeEapPdu Eap.span := decodeEapPdu_spans
  cases hwalk : Eap.span s with
  | ok n =>
    obtain ⟨-, found, hrun⟩ := hspan.passes (i := 0) (le_refl 0) hwalk
    have hstart : decodeEapPdu (.start s) = .ok (found, ⟨0 + n, s.drop n⟩) := hrun
    refine iff_of_true ?_ (Span.guarded_of_eq_ok hwalk)
    rw [hstart]
    cases found with
    | none => trivial
    | some pdu => exact (decodeEapPdu_ok hstart).2
  | error f =>
    have hstart : decodeEapPdu (.start s) = .error f := hspan.stops (i := 0) (le_refl 0) hwalk
    rw [hstart]
    constructor
    · intro h f' hf'
      rw [hwalk] at hf'
      cases hf'
      exact h
    · intro h
      exact h f hwalk

/-- A packet that is built is read back if and only if its attributes have two words at least and
the lengths their places, and a string is taken up to its length if and only if it covers its
packet. -/
theorem Eap.read_back_iff (pdu : Eap) (h : pdu.Buildable) (s : OctetString) :
    (pdu.ReadBack ↔ pdu.data.Fits) ∧ (Eap.ConsumesOrFails s ↔ Eap.Covered s) := by
  refine ⟨⟨?_, ?_⟩, Eap.consumesOrFails_iff⟩
  · rintro ⟨c, hread⟩
    exact (decodeEapPdu_ok hread).1
  · intro hfit
    have hread := h.encode_reads hfit []
    rw [List.append_nil] at hread
    exact ⟨_, hread⟩

/-- EAP-Response/AKA'-Challenge with the attributes given. -/
def Eap.challengeResponse (attributes : List (Nat × OctetString)) : Eap :=
  ⟨2, 7, .akaPrime 1 attributes⟩

theorem Eap.read_back_res :
    ((Eap.challengeResponse [(3, [0, 32, 1, 2, 3, 4])]).ReadBack ↔
      (Eap.challengeResponse [(3, [0, 32, 1, 2, 3, 4])]).data.Fits) ∧
      (Eap.ConsumesOrFails [3, 7, 0, 4] ↔ Eap.Covered [3, 7, 0, 4]) :=
  Eap.read_back_iff _ ⟨by decide, by decide, by simp [Eap.challengeResponse, EapData.Buildable,
    Eap.firstSubType, Eap.lastSubType, Eap.firstAttribute, Eap.lastAttribute]⟩ _

/-- AT_KDF has one word, and a string may end before the length of its packet. -/
theorem Eap.not_read_back :
    (Eap.challengeResponse [(24, [0, 1])]).Buildable ∧
      ¬ (Eap.challengeResponse [(24, [0, 1])]).ReadBack ∧ ¬ Eap.ConsumesOrFails [3, 7, 0] := by
  refine ⟨⟨by decide, by decide, by simp [Eap.challengeResponse, EapData.Buildable,
    Eap.firstSubType, Eap.lastSubType, Eap.firstAttribute, Eap.lastAttribute]⟩, ?_, ?_⟩
  · rintro ⟨c, hread⟩
    have hfit := (decodeEapPdu_ok hread).1.1 (24, [0, 1]) (by simp)
    simp at hfit
  · intro h
    cases h

end Packets

end Quicup.Ueransim
