import Mathlib.Data.List.TakeWhile
import Quicup.Open5gs.Nas.TaiList
import Quicup.Ueransim.Nas.TaiList

/-!
# The registration area

The AMF sends the TAIs of the registration area as a list of partial lists, and the UE looks its
TAI up in what it decoded. A partial list of type 1 stands for consecutive TACs, of which the UE
keeps the first one.
-/

namespace Quicup.N1

open Quicup.Open5gs Quicup.Ueransim

/-! ## The area -/

/-- The PLMN as the UE has it. -/
def plmnOf (p : OgsPlmnId) : VPlmn :=
  if p.mnc1 = 0xf then
    ⟨100 * p.mcc1 + 10 * p.mcc2 + p.mcc3, 10 * p.mnc2 + p.mnc3, false⟩
  else ⟨100 * p.mcc1 + 10 * p.mcc2 + p.mcc3, 100 * p.mnc1 + 10 * p.mnc2 + p.mnc3, true⟩

/-- The sources of a TAI list. -/
structure AreaSources where
  source0 : Option (TaiArray Tai0)
  source1 : Option (TaiArray Tai1)
  source2 : Option Tai2List

namespace AreaSources

variable (a : AreaSources)

def entries0 : List Tai0 := TaiArray.entries Tai0.num a.source0
def entries1 : List Tai1 := TaiArray.entries Tai1.num a.source1
def lists2 : List Tai2List := Tai2List.lists a.source2

/-- The TAI is written out in an entry of type 0 or in the list of type 2. -/
def Lists (tai : VTrackingAreaIdentity) : Prop :=
  (∃ e ∈ a.entries0, tai.plmn = plmnOf e.plmnId ∧ ∃ tac ∈ e.tac.toList.take e.num, tai.tac = tac) ∨
    ∃ l ∈ a.lists2, ∃ t ∈ l.tai.toList.take l.num, tai = ⟨plmnOf t.plmnId, t.tac⟩

/-- The TAI is one of the consecutive ones of an entry of type 1. -/
def Covers (tai : VTrackingAreaIdentity) : Prop :=
  ∃ e ∈ a.entries1, ∃ k < e.num.val, tai = ⟨plmnOf e.plmnId, e.tac + k⟩

/-- The TAI is the first one of an entry of type 1. -/
def Starts (tai : VTrackingAreaIdentity) : Prop :=
  ∃ e ∈ a.entries1, tai = ⟨plmnOf e.plmnId, e.tac⟩

/-- The TAIs of an entry of type 1 behind the first one are written out elsewhere, or first ones
themselves. -/
def WrittenOut : Prop :=
  ∀ e ∈ a.entries1, ∀ k < e.num.val, 0 < k → e.tac + k < 2 ^ 24 →
    a.Lists ⟨plmnOf e.plmnId, e.tac + k⟩ ∨ a.Starts ⟨plmnOf e.plmnId, e.tac + k⟩

/-- The TAI belongs to the area. -/
def Contains (tai : VTrackingAreaIdentity) : Prop := a.Lists tai ∨ a.Covers tai

end AreaSources

/-! ## Identities -/

theorem plmnOf_valid (p : OgsPlmnId) : (plmnOf p).Valid := by
  obtain ⟨h₁, h₂, h₃⟩ := p.mcc_lt
  obtain ⟨h₅, h₆⟩ := p.mnc_lt
  have h₄ := p.mnc1_lt
  rw [plmnOf]
  split_ifs with hshort
  · exact ⟨by dsimp only; omega, by dsimp only; rw [if_neg Bool.false_ne_true]; omega⟩
  · exact ⟨by dsimp only; omega, by dsimp only; rw [if_pos rfl]; omega⟩

/-- The octets of the AMF are the PLMN for the UE. -/
theorem ogsNasFromPlmnId_reads (p : OgsPlmnId) (i : Nat) :
    Reads VPlmn.decode i (ogsNasFromPlmnId p) (plmnOf p) := by
  obtain ⟨h₁, h₂, h₃⟩ := p.mcc_lt
  obtain ⟨h₅, h₆⟩ := p.mnc_lt
  rw [ogsNasFromPlmnId, plmnOf]
  by_cases hshort : p.mnc1 = 0xf
  · rw [if_neg (not_not.mpr hshort), if_pos hshort]
    have hread := plmnOctets_reads (i := i) h₁ h₂ h₃ h₅ h₆ (.inr hshort)
    rw [if_pos hshort] at hread
    exact hread
  · have hread := plmnOctets_reads (i := i) h₁ h₂ h₃ (p.mnc1_lt.resolve_right hshort) h₅ (.inl h₆)
    rw [if_neg (by omega)] at hread
    rw [if_pos hshort, if_neg hshort]
    exact hread

theorem tac_reads (tac : Uint24) (i : Nat) :
    Reads read3I i (uint24Octets (htobe24 tac)) tac := by
  have hread := readBE_reads (i := i) 3 tac.val
  rw [Nat.mod_eq_of_lt (show tac.val < 256 ^ 3 from tac.isLt)] at hread
  rw [uint24Octets_htobe24]
  exact hread

theorem tai_reads (t : OgsTai) (i : Nat) :
    Reads VTrackingAreaIdentity.decode i
      (ogsNasFromPlmnId t.plmnId ++ uint24Octets (htobe24 t.tac)) ⟨plmnOf t.plmnId, t.tac⟩ :=
  (ogsNasFromPlmnId_reads t.plmnId i).bind ((tac_reads t.tac _).bind_end (.pure _))

theorem tai_valid (p : OgsPlmnId) (tac : Uint24) :
    (⟨plmnOf p, tac⟩ : VTrackingAreaIdentity).Valid :=
  ⟨plmnOf_valid p, tac.isLt⟩

/-! ## Partial lists -/

def value0 (e : Tai0) : VPartialTrackingAreaIdentityList :=
  .list00 ⟨plmnOf e.plmnId, (e.tac.toList.take e.num).map Fin.val⟩

def value1 (e : Tai1) : VPartialTrackingAreaIdentityList := .list01 ⟨plmnOf e.plmnId, e.tac⟩

def value2 (l : Tai2List) : VPartialTrackingAreaIdentityList :=
  .list10 ⟨(l.tai.toList.take l.num).map fun t => ⟨plmnOf t.plmnId, t.tac⟩⟩

variable {type : Fin 4} {num : Fin 32}

/-- The type and the number of elements are read from the first octet. -/
theorem partialHeader_bits (hnum : num ≠ 0) :
    bitRange8 5 6 (partialHeader type num) = type ∧
      bitRange8 0 4 (partialHeader type num) + 1 = num := by
  have hpos : 0 < num.val := Nat.pos_of_ne_zero fun h => hnum (Fin.ext h)
  have hlow : num.val - 1 < 2 ^ 5 := by omega
  have hoctet : (partialHeader type num).toNat = 32 * type + (num - 1) := by
    rw [partialHeader, ← Nat.shiftLeft_add_eq_or_of_lt hlow, Nat.shiftLeft_eq, UInt8.toNat_ofNat']
    omega
  rw [bitRange8_eq, bitRange8_eq, hoctet]
  omega

/-- The decoder is that of the type in the first octet. -/
theorem decode_eq_of_bits {octet : UInt8} {type : Nat} (htype : bitRange8 5 6 octet = type)
    (i : Nat) (rest : List UInt8) :
    VPartialTrackingAreaIdentityList.decode ⟨i, octet :: rest⟩ =
      (match type with
        | 0b00 => VPartialTrackingAreaIdentityList.list00 <$>
            VPartialTrackingAreaIdentityList00.decode
        | 0b01 => VPartialTrackingAreaIdentityList.list01 <$>
            VPartialTrackingAreaIdentityList01.decode
        | 0b10 => VPartialTrackingAreaIdentityList.list10 <$>
            VPartialTrackingAreaIdentityList10.decode
        | _ => pure .absent) ⟨i, octet :: rest⟩ := by
  rw [← htype]
  rfl

/-- As many elements are read as there are. -/
theorem take_length {α : Type} (hnum : num ≠ 0) (hle : num ≤ maxNumOfTai)
    (elements : Vector α maxNumOfTai) :
    (elements.toList.take num).length = bitRange8 0 4 (partialHeader type num) + 1 := by
  rw [(partialHeader_bits hnum).2, List.length_take, Vector.length_toList]
  exact Nat.min_eq_left hle

theorem value0_reads {e : Tai0} (htype : e.type = 0) (hnum : e.num ≠ 0)
    (hle : e.num ≤ maxNumOfTai) (i : Nat) :
    Reads VPartialTrackingAreaIdentityList.decode i e.octets (value0 e) := by
  have htacs (j : Nat) := decodeTimes_reads
    (fun tac (_ : tac ∈ e.tac.toList.take e.num) => tac_reads tac) j
  rw [take_length hnum hle] at htacs
  have hlist : Reads VPartialTrackingAreaIdentityList00.decode i e.octets
      ⟨plmnOf e.plmnId, (e.tac.toList.take e.num).map Fin.val⟩ :=
    (readOctet_reads (partialHeader e.type e.num)).bind
      ((ogsNasFromPlmnId_reads e.plmnId _).bind ((htacs _).bind_end (.pure _)))
  have hbits : bitRange8 5 6 (partialHeader e.type e.num) = 0 := by
    rw [(partialHeader_bits hnum).1, htype]
    rfl
  exact fun rest => (decode_eq_of_bits hbits i _).trans (hlist.map _ rest)

theorem value1_reads {e : Tai1} (htype : e.type = 1) (hnum : e.num ≠ 0) (i : Nat) :
    Reads VPartialTrackingAreaIdentityList.decode i e.octets (value1 e) := by
  have hlist : Reads VPartialTrackingAreaIdentityList01.decode i e.octets
      ⟨plmnOf e.plmnId, e.tac⟩ :=
    (readOctet_reads (partialHeader e.type e.num)).bind
      ((ogsNasFromPlmnId_reads e.plmnId _).bind ((tac_reads e.tac _).bind_end (.pure _)))
  have hbits : bitRange8 5 6 (partialHeader e.type e.num) = 1 := by
    rw [(partialHeader_bits hnum).1, htype]
    rfl
  exact fun rest => (decode_eq_of_bits hbits i _).trans (hlist.map _ rest)

theorem value2_reads {l : Tai2List} (htype : l.type = 2) (hnum : l.num ≠ 0)
    (hle : l.num ≤ maxNumOfTai) (i : Nat) :
    Reads VPartialTrackingAreaIdentityList.decode i l.octets (value2 l) := by
  have htais (j : Nat) := decodeTimes_reads
    (fun t (_ : t ∈ l.tai.toList.take l.num) => tai_reads t) j
  rw [take_length hnum hle] at htais
  have hlist : Reads VPartialTrackingAreaIdentityList10.decode i l.octets
      ⟨(l.tai.toList.take l.num).map fun t => ⟨plmnOf t.plmnId, t.tac⟩⟩ :=
    (readOctet_reads (partialHeader l.type l.num)).bind ((htais _).bind_end (.pure _))
  have hbits : bitRange8 5 6 (partialHeader l.type l.num) = 2 := by
    rw [(partialHeader_bits hnum).1, htype]
    rfl
  exact fun rest => (decode_eq_of_bits hbits i _).trans (hlist.map _ rest)

section

variable {tai : VTrackingAreaIdentity} (htai : tai.Valid)
include htai

theorem value0_contains (e : Tai0) :
    (value0 e).contains tai = true ↔
      tai.plmn = plmnOf e.plmnId ∧ ∃ tac ∈ e.tac.toList.take e.num, tai.tac = tac := by
  rw [value0, VPartialTrackingAreaIdentityList.contains, Bool.and_eq_true,
    deepEqualsV_plmn_iff (plmnOf_valid e.plmnId) htai.plmn, List.any_map, List.any_eq_true]
  simp only [Function.comp, decide_eq_true_iff]
  exact and_congr eq_comm (exists_congr fun tac => and_congr_right fun _ => eq_comm)

theorem value1_contains (e : Tai1) :
    (value1 e).contains tai = true ↔ tai = ⟨plmnOf e.plmnId, e.tac⟩ := by
  obtain ⟨plmn, tac⟩ := tai
  rw [value1, VPartialTrackingAreaIdentityList.contains, Bool.and_eq_true,
    deepEqualsV_plmn_iff (plmnOf_valid e.plmnId) htai.plmn, decide_eq_true_iff,
    VTrackingAreaIdentity.mk.injEq]
  exact and_congr eq_comm eq_comm

theorem value2_contains (l : Tai2List) :
    (value2 l).contains tai = true ↔
      ∃ t ∈ l.tai.toList.take l.num, tai = ⟨plmnOf t.plmnId, t.tac⟩ := by
  rw [value2, VPartialTrackingAreaIdentityList.contains, List.any_map, List.any_eq_true]
  refine exists_congr fun t => and_congr_right fun _ => ?_
  rw [Function.comp, deepEqualsV_tai_iff (tai_valid t.plmnId t.tac) htai]
  exact eq_comm

end

/-! ## What the UE has of the area -/

namespace AreaSources

variable {a : AreaSources} {target : List UInt8}

/-- The partial lists of the area, with what the UE makes of them. -/
def partials (a : AreaSources) : List (List UInt8 × VPartialTrackingAreaIdentityList) :=
  a.entries0.map (fun e => (e.octets, value0 e)) ++
    a.entries1.map (fun e => (e.octets, value1 e)) ++
    a.lists2.map fun l => (l.octets, value2 l)

/-- The list that the UE decodes. -/
def decoded (a : AreaSources) : IE5gsTrackingAreaIdentityList := ⟨a.partials.map Prod.snd⟩

theorem decoded_contains {tai : VTrackingAreaIdentity} (htai : tai.Valid) :
    a.decoded.contains tai = true ↔ a.Lists tai ∨ a.Starts tai := by
  have hzero : (a.entries0.any fun e => (value0 e).contains tai) = true ↔
      ∃ e ∈ a.entries0, tai.plmn = plmnOf e.plmnId ∧
        ∃ tac ∈ e.tac.toList.take e.num, tai.tac = tac := by
    simp only [List.any_eq_true, value0_contains htai]
  have hone : (a.entries1.any fun e => (value1 e).contains tai) = true ↔ a.Starts tai := by
    simp only [List.any_eq_true, value1_contains htai, Starts]
  have htwo : (a.lists2.any fun l => (value2 l).contains tai) = true ↔
      ∃ l ∈ a.lists2, ∃ t ∈ l.tai.toList.take l.num, tai = ⟨plmnOf t.plmnId, t.tac⟩ := by
    simp only [List.any_eq_true, value2_contains htai]
  have hsplit : a.decoded.contains tai =
      ((a.entries0.any fun e => (value0 e).contains tai) ||
        (a.entries1.any fun e => (value1 e).contains tai) ||
        a.lists2.any fun l => (value2 l).contains tai) := by
    simp only [IE5gsTrackingAreaIdentityList.contains, decoded, partials, List.map_append,
      List.map_map, List.any_append, List.any_map]
    rfl
  rw [hsplit, Bool.or_eq_true, Bool.or_eq_true, hzero, hone, htwo, Lists]
  exact or_right_comm

theorem num_ne_zero {ε : Type} {num : ε → Fin 32} {source : Option (TaiArray ε)} {e : ε}
    (he : e ∈ TaiArray.entries num source) : num e ≠ 0 := by
  cases source with
  | none => cases he
  | some source => simpa using List.mem_takeWhile_imp he

/-- Every partial list is read as what the UE makes of it. -/
theorem partials_read (h : taiListBuild a.source0 a.source1 a.source2 = .ok (some target)) :
    ∀ item ∈ a.partials, (∀ i, Reads VPartialTrackingAreaIdentityList.decode i item.1 item.2) ∧
      0 < item.1.length := by
  obtain ⟨hgood0, hgood1, hgood2, _, _⟩ := taiListBuild_ok h
  intro item hitem
  simp only [partials, List.mem_append, List.mem_map] at hitem
  rcases hitem with (⟨e, he, rfl⟩ | ⟨e, he, rfl⟩) | ⟨l, hl, rfl⟩
  · obtain ⟨htype, hle⟩ := hgood0 e he
    exact ⟨value0_reads htype (num_ne_zero he) hle, Nat.succ_pos _⟩
  · obtain ⟨htype, _⟩ := hgood1 e he
    exact ⟨value1_reads htype (num_ne_zero he), Nat.succ_pos _⟩
  · obtain ⟨htype, hle⟩ := hgood2 l hl
    have hnum : l.num ≠ 0 := by simpa using (List.mem_filter.mp hl).2
    exact ⟨value2_reads htype hnum hle, Nat.succ_pos _⟩

/-- The UE reads the whole list, and no more. -/
theorem decode_taiList (h : taiListBuild a.source0 a.source1 a.source2 = .ok (some target))
    (i : Nat) : Reads (IE5gsTrackingAreaIdentityList.decode target.length) i target a.decoded := by
  obtain ⟨_, _, _, hlength, hresult⟩ := taiListBuild_ok h
  have htarget : a.partials.flatMap Prod.fst = target := by
    rw [hresult]
    simp only [partials, List.flatMap_append, List.flatMap_map]
    rfl
  have hsize : (a.partials.flatMap Prod.fst).length < 2 ^ 64 := by
    rw [maxTaiListLen] at hlength
    rw [htarget]
    omega
  have hreads := partials_read h
  have hread := decodeListVal_reads (fun item hitem => (hreads item hitem).1)
    (fun item hitem => (hreads item hitem).2) hsize i
  rw [htarget] at hread
  exact hread.bind_end (.pure _)

/-- A list that is built is read as it was built. The UE finds the TAIs of the area and no
others in it if and only if the TAIs behind the first ones of the entries of type 1 are written
out. -/
theorem area_kept_iff (a : AreaSources) {target : List UInt8}
    (h : taiListBuild a.source0 a.source1 a.source2 = .ok (some target)) :
    (∃ list, (∀ i, Reads (IE5gsTrackingAreaIdentityList.decode target.length) i target list) ∧
      ∀ tai : VTrackingAreaIdentity, tai.Valid → (list.contains tai = true ↔ a.Contains tai)) ↔
    a.WrittenOut := by
  constructor
  · rintro ⟨list, hread, hcontains⟩ e he k hk _ htac
    obtain rfl : list = a.decoded := (hread 0).det (decode_taiList h 0)
    have hvalid : VTrackingAreaIdentity.Valid ⟨plmnOf e.plmnId, e.tac + k⟩ :=
      ⟨plmnOf_valid e.plmnId, htac⟩
    exact (decoded_contains hvalid).mp ((hcontains _ hvalid).mpr (.inr ⟨e, he, k, hk, rfl⟩))
  · intro hwritten
    refine ⟨a.decoded, decode_taiList h, fun tai htai => (decoded_contains htai).trans ⟨?_, ?_⟩⟩
    · rintro (hlists | ⟨e, he, rfl⟩)
      · exact .inl hlists
      · have hpos : 0 < e.num.val := Nat.pos_of_ne_zero fun hzero => num_ne_zero he (Fin.ext hzero)
        exact .inr ⟨e, he, 0, hpos, rfl⟩
    · rintro (hlists | ⟨e, he, k, hk, rfl⟩)
      · exact .inl hlists
      · rcases Nat.eq_zero_or_pos k with rfl | hpos
        · exact .inr ⟨e, he, rfl⟩
        · exact hwritten e he k hk hpos htai.tac_lt

/-! ### A range of two TACs -/

theorem rangeType_lt : 1 < 4 := by decide

theorem rangeNum_lt : 2 < 32 := by decide

theorem unusedNum_lt : 0 < 32 := by decide

theorem firstTac_lt : 1 < 2 ^ 24 := by decide

/-- An entry of type 1 for the TACs 1 and 2 of the PLMN 001 01, and nothing behind it. -/
def twoTacs : AreaSources where
  source0 := none
  source1 := some
    { tai := .ofFn fun i =>
        { type := ⟨1, rangeType_lt⟩
          num := if i.val = 0 then ⟨2, rangeNum_lt⟩ else ⟨0, unusedNum_lt⟩
          plmnId := ogsPlmnIdBuild 1 1 2
          tac := ⟨1, firstTac_lt⟩ }
      numBehind := 0 }
  source2 := none

def secondTac : VTrackingAreaIdentity := ⟨⟨1, 1, false⟩, 2⟩

theorem taiListBuild_twoTacs :
    taiListBuild twoTacs.source0 twoTacs.source1 twoTacs.source2 =
      .ok (some [0x21, 0x00, 0xf1, 0x10, 0x00, 0x00, 0x01]) := by
  decide

/-- One TAC of the range is written out. -/
theorem area_kept_iff_twoTacs :
    (∃ list, (∀ i, Reads (IE5gsTrackingAreaIdentityList.decode
          [0x21, 0x00, 0xf1, 0x10, 0x00, 0x00, (0x01 : UInt8)].length) i
          [0x21, 0x00, 0xf1, 0x10, 0x00, 0x00, 0x01] list) ∧
      ∀ tai : VTrackingAreaIdentity, tai.Valid →
        (list.contains tai = true ↔ twoTacs.Contains tai)) ↔
    twoTacs.WrittenOut :=
  area_kept_iff twoTacs taiListBuild_twoTacs

/-- The UE does not find the second TAC in the list. -/
theorem area_not_kept :
    ∃ (a : AreaSources) (target : List UInt8),
      taiListBuild a.source0 a.source1 a.source2 = .ok (some target) ∧
      ¬∃ list, (∀ i, Reads (IE5gsTrackingAreaIdentityList.decode target.length) i target list) ∧
        ∀ tai : VTrackingAreaIdentity, tai.Valid →
          (list.contains tai = true ↔ a.Contains tai) := by
  refine ⟨twoTacs, _, taiListBuild_twoTacs, ?_⟩
  rintro ⟨list, hread, hcontains⟩
  obtain rfl : list = twoTacs.decoded := (hread 0).det (decode_taiList taiListBuild_twoTacs 0)
  have hvalid : secondTac.Valid := ⟨⟨by decide, by decide⟩, by decide⟩
  have hin : twoTacs.Contains secondTac :=
    .inr ⟨⟨1, 2, ogsPlmnIdBuild 1 1 2, 1⟩, by decide, 1, by decide, by decide⟩
  exact absurd ((hcontains secondTac hvalid).mpr hin) (by decide)

end AreaSources

end Quicup.N1
