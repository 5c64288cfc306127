import Mathlib.Algebra.Order.BigOperators.Group.List
import Quicup.Ueransim.Nas.Spans

/-!
# Tracking areas of the UE

Whether a TAI is on a TAI list, in `utils.cpp`. Values are compared by their encodings, which
tell them apart as long as every decimal digit has its place.
-/

namespace Quicup.Ueransim

/-! ## Encodings -/

/-- `high << 4 | low`, as an octet. -/
def nibbles (high low : Nat) : UInt8 := .ofNat (high <<< 4 ||| low)

theorem nibbles_toNat (high low : Nat) (hhigh : high < 16) (hlow : low < 16) :
    (nibbles high low).toNat = 16 * high + low := by
  rw [nibbles, ← Nat.shiftLeft_add_eq_or_of_lt (i := 4) hlow, Nat.shiftLeft_eq,
    UInt8.toNat_ofNat']
  omega

/-- The octets of a PLMN with the digits given. The digit `mnc3` may be the filler. -/
def plmnOctets (mcc1 mcc2 mcc3 mnc1 mnc2 mnc3 : Nat) : OctetString :=
  [nibbles mcc2 mcc1, nibbles mnc3 mcc3, nibbles mnc2 mnc1]

def VPlmn.encode (value : VPlmn) : OctetString :=
  plmnOctets (value.mcc % 1000 / 100) (value.mcc % 100 / 10) (value.mcc % 10)
    (if value.isLongMnc then value.mnc % 1000 / 100 else value.mnc % 100 / 10)
    (if value.isLongMnc then value.mnc % 100 / 10 else value.mnc % 10)
    (if value.isLongMnc then value.mnc % 10 else 0xF)

def VTrackingAreaIdentity.encode (value : VTrackingAreaIdentity) : OctetString :=
  value.plmn.encode ++ octetsBE 3 value.tac

/-- `DeepEqualsV`. -/
def deepEqualsV {α : Type} (encode : α → OctetString) (a b : α) : Bool := encode a = encode b

/-! ## Contained TAIs -/

def VPartialTrackingAreaIdentityList.contains :
    VPartialTrackingAreaIdentityList → VTrackingAreaIdentity → Bool
  | list00 list, tai =>
    deepEqualsV VPlmn.encode list.plmn tai.plmn && list.tacs.any fun i => i = tai.tac
  | list01 list, tai => deepEqualsV VPlmn.encode list.plmn tai.plmn && list.tac = tai.tac
  | list10 list, tai => list.tais.any fun i => deepEqualsV VTrackingAreaIdentity.encode i tai
  | absent, _ => false

/-- `TaiListContains`. -/
def IE5gsTrackingAreaIdentityList.contains (list : IE5gsTrackingAreaIdentityList)
    (tai : VTrackingAreaIdentity) : Bool :=
  list.list.any fun i => i.contains tai

/-! ## Values that have encodings of their own -/

/-- The numbers have as many digits as there is room for. -/
structure VPlmn.Valid (value : VPlmn) : Prop where
  mcc_lt : value.mcc < 1000
  mnc_lt : value.mnc < if value.isLongMnc then 1000 else 100

structure VTrackingAreaIdentity.Valid (value : VTrackingAreaIdentity) : Prop where
  plmn : value.plmn.Valid
  tac_lt : value.tac < 256 ^ 3

/-- The digits of a PLMN are read back. -/
theorem plmnOctets_reads {i mcc1 mcc2 mcc3 mnc1 mnc2 mnc3 : Nat} (hmcc1 : mcc1 < 10)
    (hmcc2 : mcc2 < 10) (hmcc3 : mcc3 < 10) (hmnc1 : mnc1 < 10) (hmnc2 : mnc2 < 10)
    (hmnc3 : mnc3 < 10 ∨ mnc3 = 0xF) :
    Reads VPlmn.decode i (plmnOctets mcc1 mcc2 mcc3 mnc1 mnc2 mnc3)
      (if mnc3 = 0xF then ⟨100 * mcc1 + 10 * mcc2 + mcc3, 10 * mnc1 + mnc2, false⟩
        else ⟨100 * mcc1 + 10 * mcc2 + mcc3, 100 * mnc1 + 10 * mnc2 + mnc3, true⟩) := by
  intro rest
  have hlow (n : Nat) : n &&& 0b1111 = n % 16 := Nat.and_two_pow_sub_one_eq_mod n 4
  have hhigh (n : Nat) : n >>> 4 = n / 16 := Nat.shiftRight_eq_div_pow n 4
  have hfirst := nibbles_toNat mcc2 mcc1 (by omega) (by omega)
  have hsecond := nibbles_toNat mnc3 mcc3 (by omega) (by omega)
  have hthird := nibbles_toNat mnc2 mnc1 (by omega) (by omega)
  have hrun (a b d : UInt8) : VPlmn.decode ⟨i, a :: b :: d :: rest⟩ =
      (if b.toNat >>> 4 &&& 0b1111 ≠ 0xF ∨ (a.toNat = 0xFF ∧ b.toNat = 0xFF ∧ d.toNat = 0xFF) then
        (pure ⟨100 * (a.toNat &&& 0b1111) + 10 * (a.toNat >>> 4 &&& 0b1111) + (b.toNat &&& 0b1111),
          10 * (10 * (d.toNat &&& 0b1111) + (d.toNat >>> 4 &&& 0b1111)) +
            (b.toNat >>> 4 &&& 0b1111), true⟩ : Read VPlmn)
        else pure ⟨100 * (a.toNat &&& 0b1111) + 10 * (a.toNat >>> 4 &&& 0b1111) +
            (b.toNat &&& 0b1111),
          10 * (d.toNat &&& 0b1111) + (d.toNat >>> 4 &&& 0b1111), false⟩) ⟨i + 3, rest⟩ := rfl
  refine (hrun _ _ _).trans ?_
  simp only [hlow, hhigh, hfirst, hsecond, hthird]
  have hnum : (16 * mcc2 + mcc1) % 16 = mcc1 ∧ (16 * mcc2 + mcc1) / 16 % 16 = mcc2 ∧
      (16 * mnc3 + mcc3) % 16 = mcc3 ∧ (16 * mnc3 + mcc3) / 16 % 16 = mnc3 ∧
      (16 * mnc2 + mnc1) % 16 = mnc1 ∧ (16 * mnc2 + mnc1) / 16 % 16 = mnc2 := by
    omega
  obtain ⟨h₁, h₂, h₃, h₄, h₅, h₆⟩ := hnum
  rw [h₁, h₂, h₃, h₄, h₅, h₆]
  have hfiller : (mnc3 ≠ 0xF ∨ 16 * mcc2 + mcc1 = 0xFF ∧ 16 * mnc3 + mcc3 = 0xFF ∧
      16 * mnc2 + mnc1 = 0xFF) ↔ ¬ mnc3 = 0xF := by
    omega
  by_cases h : mnc3 = 0xF
  · rw [if_neg (fun hlong => hfiller.mp hlong h), if_pos h]
    rfl
  · have hlong : 100 * mnc1 + 10 * mnc2 = 10 * (10 * mnc1 + mnc2) := by ring
    rw [if_pos (hfiller.mpr h), if_neg h, hlong]
    rfl

theorem VPlmn.encode_reads {value : VPlmn} (h : value.Valid) (i : Nat) :
    Reads VPlmn.decode i value.encode value := by
  obtain ⟨mcc, mnc, isLongMnc⟩ := value
  obtain ⟨hmcc, hmnc⟩ := h
  have hmcc' : 100 * (mcc % 1000 / 100) + 10 * (mcc % 100 / 10) + mcc % 10 = mcc := by
    dsimp only at hmcc
    omega
  cases isLongMnc with
  | false =>
    have hmnc' : 10 * (mnc % 100 / 10) + mnc % 10 = mnc := by
      simp only [Bool.false_eq_true, if_false] at hmnc
      omega
    have hread : Reads VPlmn.decode i (plmnOctets (mcc % 1000 / 100) (mcc % 100 / 10) (mcc % 10)
        (mnc % 100 / 10) (mnc % 10) 0xF) _ :=
      plmnOctets_reads (by omega) (by omega) (by omega) (by omega) (by omega) (.inr rfl)
    rwa [if_pos rfl, hmcc', hmnc'] at hread
  | true =>
    have hmnc' : 100 * (mnc % 1000 / 100) + 10 * (mnc % 100 / 10) + mnc % 10 = mnc := by
      simp only [if_true] at hmnc
      omega
    have hdigit : mnc % 10 < 10 := by omega
    have hread : Reads VPlmn.decode i (plmnOctets (mcc % 1000 / 100) (mcc % 100 / 10) (mcc % 10)
        (mnc % 1000 / 100) (mnc % 100 / 10) (mnc % 10)) _ :=
      plmnOctets_reads (by omega) (by omega) (by omega) (by omega) (by omega) (.inl hdigit)
    rwa [if_neg (by omega), hmcc', hmnc'] at hread

theorem VTrackingAreaIdentity.encode_reads {value : VTrackingAreaIdentity} (h : value.Valid)
    (i : Nat) : Reads VTrackingAreaIdentity.decode i value.encode value := by
  have htac := readBE_reads (i := i + value.plmn.encode.length) 3 value.tac
  rw [Nat.mod_eq_of_lt h.tac_lt] at htac
  exact (VPlmn.encode_reads h.plmn i).bind (htac.bind_end (.pure _))

variable {α β : Type} {decode : Read α} {octets : β → OctetString} {value : β → α} {items : List β}

/-- Values that are read back from their encodings are equal if these are. -/
theorem deepEqualsV_iff {encode : α → OctetString} {a b : α} (ha : Reads decode 0 (encode a) a)
    (hb : Reads decode 0 (encode b) b) : deepEqualsV encode a b = true ↔ a = b := by
  rw [deepEqualsV, decide_eq_true_iff]
  constructor
  · intro h
    rw [h] at ha
    exact ha.det hb
  · exact congrArg encode

theorem deepEqualsV_plmn_iff {a b : VPlmn} (ha : a.Valid) (hb : b.Valid) :
    deepEqualsV VPlmn.encode a b = true ↔ a = b :=
  deepEqualsV_iff (VPlmn.encode_reads ha 0) (VPlmn.encode_reads hb 0)

theorem deepEqualsV_tai_iff {a b : VTrackingAreaIdentity} (ha : a.Valid) (hb : b.Valid) :
    deepEqualsV VTrackingAreaIdentity.encode a b = true ↔ a = b :=
  deepEqualsV_iff (VTrackingAreaIdentity.encode_reads ha 0)
    (VTrackingAreaIdentity.encode_reads hb 0)

/-! ## Lists that are read -/

/-- Values that follow each other are read one by one. -/
theorem decodeTimes_reads (h : ∀ item ∈ items, ∀ i, Reads decode i (octets item) (value item))
    (i : Nat) :
    Reads (decodeTimes decode items.length) i (items.flatMap octets) (items.map value) := by
  induction items generalizing i with
  | nil => exact .pure []
  | cons item rest ih =>
    obtain ⟨hitem, hrest⟩ := List.forall_mem_cons.mp h
    exact (hitem i).bind ((ih hrest _).bind_end (.pure _))

/-- A list of values none of which is empty is read up to its length. -/
theorem decodeList_run (h : ∀ item ∈ items, ∀ i, Reads decode i (octets item) (value item))
    (hpos : ∀ item ∈ items, 0 < (octets item).length) {length readLen fuel : Nat}
    (hlength : readLen + (items.flatMap octets).length = length) (hfuel : items.length < fuel)
    (i : Nat) (rest : OctetString) :
    decodeList decode length fuel readLen ⟨i, items.flatMap octets ++ rest⟩ =
      .ok ((true, items.map value), ⟨i + (items.flatMap octets).length, rest⟩) := by
  induction items generalizing readLen fuel i with
  | nil =>
    obtain ⟨fuel, rfl⟩ := Nat.exists_eq_add_of_lt hfuel
    rw [List.flatMap_nil, List.length_nil, Nat.add_zero] at hlength
    rw [List.length_nil, Nat.zero_add, decodeList, if_neg (by omega), hlength]
    simp
    rfl
  | cons item items ih =>
    obtain ⟨hitem, hitems⟩ := List.forall_mem_cons.mp h
    obtain ⟨hfirst, hpos⟩ := List.forall_mem_cons.mp hpos
    rw [List.flatMap_cons, List.length_append] at hlength
    obtain ⟨fuel, rfl⟩ := Nat.exists_eq_add_of_lt hfuel
    have hread : decode ⟨i, octets item ++ (items.flatMap octets ++ rest)⟩ = .ok (value item,
        ⟨i + (octets item).length,
          (octets item ++ (items.flatMap octets ++ rest)).drop (octets item).length⟩) := by
      rw [List.drop_left]
      exact hitem i _
    have hmore : readLen < length := by omega
    rw [List.flatMap_cons, List.append_assoc, List.length_cons,
      SpansFrom.decodeList_succ hmore hread, List.drop_left,
      ih hitems hpos (by omega) (by omega), List.length_append, Nat.add_assoc]
    rfl

/-- A list of values none of which is empty is read back from its octets. -/
theorem decodeListVal_reads (h : ∀ item ∈ items, ∀ i, Reads decode i (octets item) (value item))
    (hpos : ∀ item ∈ items, 0 < (octets item).length)
    (hlength : (items.flatMap octets).length < 2 ^ 64) (i : Nat) :
    Reads (decodeListVal decode (items.flatMap octets).length) i (items.flatMap octets)
      (true, items.map value) := by
  have hsize : sizeT (items.flatMap octets).length = (items.flatMap octets).length := by
    unfold sizeT
    omega
  have hcount : items.length ≤ (items.flatMap octets).length := by
    rw [List.length_flatMap, ← List.length_map (f := fun item => (octets item).length)]
    refine List.length_le_sum_of_one_le _ fun n hn => ?_
    obtain ⟨item, hitem, rfl⟩ := List.mem_map.mp hn
    exact hpos item hitem
  intro rest
  have hfuel : items.length < (items.flatMap octets ++ rest).length + 1 := by
    rw [List.length_append]
    omega
  rw [decodeListVal, hsize]
  exact decodeList_run h hpos (Nat.zero_add _) hfuel i rest

/-! ## Adding and removing TAIs -/

/-- The TAIs that the program takes for one. -/
def SameTai (a b : VTrackingAreaIdentity) : Prop :=
  deepEqualsV VTrackingAreaIdentity.encode a b = true

instance (a b : VTrackingAreaIdentity) : Decidable (SameTai a b) :=
  inferInstanceAs (Decidable (_ = true))

/-- `AddToTaiList` -/
def addToTaiList (list : IE5gsTrackingAreaIdentityList) (tai : VTrackingAreaIdentity) :
    IE5gsTrackingAreaIdentityList :=
  if list.contains tai then list else ⟨list.list ++ [.list01 ⟨tai.plmn, tai.tac⟩]⟩

namespace VPartialTrackingAreaIdentityList

/-- The one TAI of the list is the one given. -/
def isTai : VPartialTrackingAreaIdentityList → VTrackingAreaIdentity → Bool
  | list01 list, tai => deepEqualsV VPlmn.encode list.plmn tai.plmn && list.tac = tai.tac
  | _, _ => false

def removeTai : VPartialTrackingAreaIdentityList → VTrackingAreaIdentity →
    VPartialTrackingAreaIdentityList
  | list00 list, tai =>
    list00 { list with
      tacs := if deepEqualsV VPlmn.encode list.plmn tai.plmn then
          list.tacs.filter fun tac => tac ≠ tai.tac
        else list.tacs }
  | list10 list, tai =>
    list10 ⟨list.tais.filter fun i => !deepEqualsV VTrackingAreaIdentity.encode i tai⟩
  | list, _ => list

def hasNoTacs : VPartialTrackingAreaIdentityList → Bool
  | list00 list => list.tacs.isEmpty
  | _ => false

def hasNoTais : VPartialTrackingAreaIdentityList → Bool
  | list10 list => list.tais.isEmpty
  | _ => false

/-- A list for which there is no encoding. -/
def isEmpty (list : VPartialTrackingAreaIdentityList) : Bool := list.hasNoTacs || list.hasNoTais

end VPartialTrackingAreaIdentityList

/-- `RemoveFromTaiList` -/
def removeFromTaiList (list : IE5gsTrackingAreaIdentityList) (tai : VTrackingAreaIdentity) :
    IE5gsTrackingAreaIdentityList :=
  let others := list.list.filter fun itemList => !itemList.isTai tai
  let removed := others.map fun itemList => itemList.removeTai tai
  ⟨(removed.filter fun itemList => !itemList.hasNoTacs).filter fun itemList => !itemList.hasNoTais⟩

/-! ## Service areas -/

namespace VPartialServiceAreaList

/-- `ServiceAreaListForbidsPlmn` of one list. The allowed type is set for the areas that are not. -/
def forbidsPlmn : VPartialServiceAreaList → VPlmn → Bool
  | list11 list, plmn => list.allowedType && deepEqualsV VPlmn.encode list.plmn plmn
  | _, _ => false

def allowsPlmn : VPartialServiceAreaList → VPlmn → Bool
  | list11 list, plmn => !list.allowedType && deepEqualsV VPlmn.encode list.plmn plmn
  | _, _ => false

/-- The TAI is one of those of the list. -/
def names : VPartialServiceAreaList → VTrackingAreaIdentity → Bool
  | list00 list, tai =>
    deepEqualsV VPlmn.encode list.plmn tai.plmn && list.tacs.any fun i => i = tai.tac
  | list01 list, tai => deepEqualsV VPlmn.encode list.plmn tai.plmn && list.tac = tai.tac
  | list10 list, tai => list.tais.any fun i => deepEqualsV VTrackingAreaIdentity.encode i tai
  | list11 _, _ => false

def allowedType : VPartialServiceAreaList → Bool
  | list00 list => list.allowedType
  | list01 list => list.allowedType
  | list10 list => list.allowedType
  | list11 list => list.allowedType

/-- `ServiceAreaListForbidsTai` of one list. -/
def forbidsTai (list : VPartialServiceAreaList) (tai : VTrackingAreaIdentity) : Bool :=
  list.forbidsPlmn tai.plmn || (list.allowedType && list.names tai)

/-- `ServiceAreaListAllowsTai` of one list. -/
def allowsTai (list : VPartialServiceAreaList) (tai : VTrackingAreaIdentity) : Bool :=
  !list.allowedType && list.names tai

def removeTai : VPartialServiceAreaList → VTrackingAreaIdentity → VPartialServiceAreaList
  | list00 list, tai =>
    list00 { list with
      tacs := if deepEqualsV VPlmn.encode list.plmn tai.plmn then
          list.tacs.filter fun tac => tac ≠ tai.tac
        else list.tacs }
  | list10 list, tai =>
    list10 { list with
      tais := list.tais.filter fun i => !deepEqualsV VTrackingAreaIdentity.encode i tai }
  | list, _ => list

/-- Whether the list is deleted once the TAI is removed. -/
def isDeleted : VPartialServiceAreaList → VTrackingAreaIdentity → Bool
  | list00 list, _ => list.tacs.isEmpty
  | list01 list, tai => deepEqualsV VPlmn.encode list.plmn tai.plmn && tai.tac = list.tac
  | list10 list, _ => list.tais.isEmpty
  | list11 _, _ => false

def isEmpty : VPartialServiceAreaList → Bool
  | list00 list => list.tacs.isEmpty
  | list10 list => list.tais.isEmpty
  | _ => false

end VPartialServiceAreaList

namespace IEServiceAreaList

def forbidsPlmn (list : IEServiceAreaList) (plmn : VPlmn) : Bool :=
  list.list.any fun i => i.forbidsPlmn plmn

def forbidsTai (list : IEServiceAreaList) (tai : VTrackingAreaIdentity) : Bool :=
  list.list.any fun i => i.forbidsTai tai

def allowsPlmn (list : IEServiceAreaList) (plmn : VPlmn) : Bool :=
  list.list.any fun i => i.allowsPlmn plmn

def allowsTai (list : IEServiceAreaList) (tai : VTrackingAreaIdentity) : Bool :=
  list.list.any fun i => i.allowsTai tai

end IEServiceAreaList

/-- The indexes of the elements to delete, of which the first is `index`. -/
def deletedIndexes {α : Type} (isDeleted : α → Bool) : List α → Nat → List Nat
  | [], _ => []
  | a :: as, index =>
    if isDeleted a then index :: deletedIndexes isDeleted as (index + 1)
    else deletedIndexes isDeleted as (index + 1)

/-- The loop that deletes them, each as many places in front as were deleted so far. -/
def deleteIndexes {α : Type} (list : List α) : List Nat → Nat → List α
  | [], _ => list
  | i :: is, deletedSoFar => deleteIndexes (list.eraseIdx (i - deletedSoFar)) is (deletedSoFar + 1)

/-- `RemoveFromServiceAreaList` -/
def removeFromServiceAreaList (list : IEServiceAreaList) (tai : VTrackingAreaIdentity) :
    IEServiceAreaList :=
  let sublists := list.list.map fun sublist => sublist.removeTai tai
  let deletedSubLists := deletedIndexes (fun sublist => sublist.isDeleted tai) sublists 0
  ⟨deleteIndexes sublists deletedSubLists 0⟩

/-! ## What the lists name afterwards -/

/-- The elements deleted by their indexes are those that are to go. -/
theorem deleteIndexes_eq_filter {α : Type} (isDeleted : α → Bool) (kept list : List α) (n : Nat) :
    deleteIndexes (kept ++ list) (deletedIndexes isDeleted list (kept.length + n)) n =
      kept ++ list.filter fun a => !isDeleted a := by
  induction list generalizing kept n with
  | nil => rfl
  | cons a list ih =>
    by_cases ha : isDeleted a
    · have hidx : kept.length + n - n = kept.length := by omega
      rw [deletedIndexes, if_pos ha, deleteIndexes, hidx,
        List.eraseIdx_append_of_length_le (le_refl _), Nat.sub_self, List.eraseIdx_cons_zero,
        Nat.add_assoc, ih, List.filter_cons_of_neg (by simp [ha])]
    · have hkept := ih (kept ++ [a]) n
      rw [List.append_assoc, List.length_append, List.length_singleton, Nat.add_assoc,
        Nat.add_comm 1, ← Nat.add_assoc, List.singleton_append] at hkept
      rw [deletedIndexes, if_neg ha, hkept, List.append_assoc,
        List.filter_cons_of_pos (by simp [ha])]
      rfl

section Names

variable {t u : VTrackingAreaIdentity}

theorem deepEqualsV_eq_true {α : Type} {encode : α → OctetString} {a b : α} :
    deepEqualsV encode a b = true ↔ encode a = encode b := decide_eq_true_iff

theorem deepEqualsV_eq_false {α : Type} {encode : α → OctetString} {a b : α} :
    deepEqualsV encode a b = false ↔ encode a ≠ encode b := decide_eq_false_iff_not

/-- TAIs are told apart by their PLMNs and their TACs. -/
theorem sameTai_iff (ht : t.tac < 256 ^ 3) (hu : u.tac < 256 ^ 3) :
    SameTai u t ↔ u.plmn.encode = t.plmn.encode ∧ u.tac = t.tac := by
  rw [SameTai, deepEqualsV_eq_true, VTrackingAreaIdentity.encode, VTrackingAreaIdentity.encode]
  constructor
  · intro h
    obtain ⟨hplmn, htac⟩ := List.append_inj h rfl
    have hnat := congrArg natBE htac
    rw [natBE_octetsBE, natBE_octetsBE, Nat.mod_eq_of_lt hu, Nat.mod_eq_of_lt ht] at hnat
    exact ⟨hplmn, hnat⟩
  · rintro ⟨hplmn, htac⟩
    rw [hplmn, htac]

namespace VPartialTrackingAreaIdentityList

variable {item : VPartialTrackingAreaIdentityList}

theorem sameTai_of_isTai (ht : t.tac < 256 ^ 3) (hu : u.tac < 256 ^ 3) (h : item.isTai t = true)
    (hcontains : item.contains u = true) : SameTai u t := by
  cases item with
  | list01 list =>
    simp only [isTai, Bool.and_eq_true, deepEqualsV_eq_true, decide_eq_true_eq] at h
    simp only [contains, Bool.and_eq_true, deepEqualsV_eq_true, decide_eq_true_eq] at hcontains
    exact (sameTai_iff ht hu).mpr ⟨hcontains.1.symm.trans h.1, hcontains.2.symm.trans h.2⟩
  | list00 list => cases h
  | list10 list => cases h
  | absent => cases h

theorem not_contains_of_isEmpty (h : item.isEmpty = true) : item.contains u = false := by
  cases item with
  | list00 list =>
    have hnone : list.tacs = [] := by simpa [isEmpty, hasNoTacs, hasNoTais] using h
    simp [contains, hnone]
  | list10 list =>
    have hnone : list.tais = [] := by simpa [isEmpty, hasNoTacs, hasNoTais] using h
    simp [contains, hnone]
  | list01 list => cases h
  | absent => rfl

theorem contains_congr (ht : t.tac < 256 ^ 3) (hu : u.tac < 256 ^ 3) (h : SameTai u t) :
    item.contains u = item.contains t := by
  obtain ⟨hplmn, htac⟩ := (sameTai_iff ht hu).mp h
  have htai : u.encode = t.encode := deepEqualsV_eq_true.mp h
  cases item with
  | list00 list => simp [contains, deepEqualsV, hplmn, htac]
  | list01 list => simp [contains, deepEqualsV, hplmn, htac]
  | list10 list => simp [contains, deepEqualsV, htai]
  | absent => rfl

/-- A list with other TAIs than the one removed has those still. -/
theorem contains_removeTai (ht : t.tac < 256 ^ 3) (hu : u.tac < 256 ^ 3)
    (h : item.isTai t = false) :
    (item.removeTai t).contains u = true ↔ ¬ SameTai u t ∧ item.contains u = true := by
  cases item with
  | list00 list =>
    simp only [removeTai, contains, sameTai_iff ht hu, Bool.and_eq_true, deepEqualsV_eq_true,
      List.any_eq_true, decide_eq_true_eq]
    by_cases hplmn : list.plmn.encode = t.plmn.encode
    · rw [if_pos hplmn]
      simp only [List.mem_filter, decide_eq_true_eq]
      grind
    · rw [if_neg hplmn]
      grind
  | list01 list =>
    have hother : ¬ (list.plmn.encode = t.plmn.encode ∧ list.tac = t.tac) := by
      simpa [isTai, deepEqualsV] using h
    simp only [removeTai, contains, sameTai_iff ht hu, Bool.and_eq_true, deepEqualsV_eq_true,
      decide_eq_true_eq]
    grind
  | list10 list =>
    simp only [removeTai, contains, SameTai, List.any_eq_true, List.mem_filter,
      deepEqualsV_eq_true, deepEqualsV_eq_false, Bool.not_eq_true']
    grind
  | absent => simp [removeTai, contains]

/-- A list that neither goes nor gets empty has the TAIs that it had, without the one removed. -/
theorem stays_iff (ht : t.tac < 256 ^ 3) (hu : u.tac < 256 ^ 3) :
    (item.isTai t = false ∧ (item.removeTai t).isEmpty = false) ∧
        (item.removeTai t).contains u = true ↔
      ¬ SameTai u t ∧ item.contains u = true := by
  constructor
  · rintro ⟨⟨hother, -⟩, hafter⟩
    exact (contains_removeTai ht hu hother).mp hafter
  · rintro ⟨hdiff, hcontains⟩
    have hother : item.isTai t = false := by
      by_contra his
      rw [Bool.not_eq_false] at his
      exact hdiff (sameTai_of_isTai ht hu his hcontains)
    have hafter := (contains_removeTai ht hu hother).mpr ⟨hdiff, hcontains⟩
    refine ⟨⟨hother, ?_⟩, hafter⟩
    by_contra hempty
    rw [Bool.not_eq_false] at hempty
    rw [not_contains_of_isEmpty hempty] at hafter
    cases hafter

end VPartialTrackingAreaIdentityList

theorem contains_addToTaiList (list : IE5gsTrackingAreaIdentityList) (ht : t.tac < 256 ^ 3)
    (hu : u.tac < 256 ^ 3) :
    (addToTaiList list t).contains u = true ↔ SameTai u t ∨ list.contains u = true := by
  have hnew : VPartialTrackingAreaIdentityList.contains (.list01 ⟨t.plmn, t.tac⟩) u = true ↔
      SameTai u t := by
    rw [sameTai_iff ht hu]
    simp only [VPartialTrackingAreaIdentityList.contains, Bool.and_eq_true, deepEqualsV_eq_true,
      decide_eq_true_eq]
    exact and_congr eq_comm eq_comm
  rw [addToTaiList]
  by_cases h : list.contains t
  · rw [if_pos h]
    refine ⟨.inr, ?_⟩
    rintro (hsame | hcontains)
    · simpa only [IE5gsTrackingAreaIdentityList.contains,
        VPartialTrackingAreaIdentityList.contains_congr ht hu hsame] using h
    · exact hcontains
  · rw [if_neg h, IE5gsTrackingAreaIdentityList.contains, List.any_append, Bool.or_eq_true,
      List.any_cons, List.any_nil, Bool.or_false, hnew]
    exact or_comm

/-- A list without a TAI has the others that it had. -/
theorem contains_removeFromTaiList (list : IE5gsTrackingAreaIdentityList) (ht : t.tac < 256 ^ 3)
    (hu : u.tac < 256 ^ 3) :
    (removeFromTaiList list t).contains u = true ↔ ¬ SameTai u t ∧ list.contains u = true := by
  simp only [removeFromTaiList, IE5gsTrackingAreaIdentityList.contains, List.any_eq_true,
    List.mem_filter, List.mem_map, Bool.not_eq_true']
  constructor
  · rintro ⟨item, ⟨⟨⟨before, ⟨hmem, hother⟩, rfl⟩, -⟩, -⟩, hcontains⟩
    obtain ⟨hdiff, hbefore⟩ :=
      (VPartialTrackingAreaIdentityList.contains_removeTai ht hu hother).mp hcontains
    exact ⟨hdiff, before, hmem, hbefore⟩
  · rintro ⟨hdiff, item, hmem, hcontains⟩
    obtain ⟨⟨hother, hnonempty⟩, hafter⟩ :=
      (VPartialTrackingAreaIdentityList.stays_iff ht hu).mpr ⟨hdiff, hcontains⟩
    rw [VPartialTrackingAreaIdentityList.isEmpty, Bool.or_eq_false_iff] at hnonempty
    exact ⟨item.removeTai t, ⟨⟨⟨item, ⟨hmem, hother⟩, rfl⟩, hnonempty.1⟩, hnonempty.2⟩, hafter⟩

/-- No list is left for which there is no encoding. -/
theorem removeFromTaiList_nonempty (list : IE5gsTrackingAreaIdentityList) :
    ∀ item ∈ (removeFromTaiList list t).list, item.isEmpty = false := by
  intro item hitem
  simp only [removeFromTaiList, List.mem_filter, Bool.not_eq_true'] at hitem
  rw [VPartialTrackingAreaIdentityList.isEmpty, hitem.1.2, hitem.2]
  rfl

namespace VPartialServiceAreaList

variable {list : VPartialServiceAreaList}

/-- The TAIs of the list, without what they are allowed for. -/
def tais : VPartialServiceAreaList → VPartialTrackingAreaIdentityList
  | list00 list => .list00 ⟨list.plmn, list.tacs⟩
  | list01 list => .list01 ⟨list.plmn, list.tac⟩
  | list10 list => .list10 ⟨list.tais⟩
  | list11 _ => .absent

theorem names_eq : list.names u = list.tais.contains u := by
  cases list <;> rfl

theorem removeTai_tais : (list.removeTai t).tais = list.tais.removeTai t := by
  cases list <;> rfl

@[simp] theorem removeTai_allowedType : (list.removeTai t).allowedType = list.allowedType := by
  cases list <;> rfl

@[simp] theorem removeTai_forbidsPlmn (plmn : VPlmn) :
    (list.removeTai t).forbidsPlmn plmn = list.forbidsPlmn plmn := by
  cases list <;> rfl

@[simp] theorem removeTai_allowsPlmn (plmn : VPlmn) :
    (list.removeTai t).allowsPlmn plmn = list.allowsPlmn plmn := by
  cases list <;> rfl

/-- The lists that are deleted are those of the TAI alone and those that have got empty. -/
theorem isDeleted_removeTai : (list.removeTai t).isDeleted t =
    (list.tais.isTai t || (list.removeTai t).isEmpty) := by
  cases list with
  | list00 list => rfl
  | list01 list =>
    simp [removeTai, tais, isDeleted, isEmpty, VPartialTrackingAreaIdentityList.isTai, eq_comm]
  | list10 list => rfl
  | list11 list => rfl

theorem isEmpty_tais : list.tais.isEmpty = list.isEmpty := by
  cases list with
  | list00 list => exact Bool.or_false _
  | list01 list => rfl
  | list10 list => rfl
  | list11 list => rfl

/-- A list that stays names the TAIs that it named, without the one removed. -/
theorem names_removeTai (ht : t.tac < 256 ^ 3) (hu : u.tac < 256 ^ 3) :
    (list.removeTai t).isDeleted t = false ∧ (list.removeTai t).names u = true ↔
      ¬ SameTai u t ∧ list.names u = true := by
  rw [isDeleted_removeTai, Bool.or_eq_false_iff, ← isEmpty_tais, names_eq, names_eq, removeTai_tais]
  exact VPartialTrackingAreaIdentityList.stays_iff ht hu

/-- A list that is deleted tells of no whole PLMN. -/
theorem not_isDeleted_of_allowsPlmn {plmn : VPlmn}
    (h : list.allowsPlmn plmn = true ∨ list.forbidsPlmn plmn = true) :
    (list.removeTai t).isDeleted t = false := by
  cases list with
  | list11 list => rfl
  | list00 list => rcases h with h | h <;> cases h
  | list01 list => rcases h with h | h <;> cases h
  | list10 list => rcases h with h | h <;> cases h

end VPartialServiceAreaList

section ServiceAreas

variable (list : IEServiceAreaList)

theorem removeFromServiceAreaList_eq : (removeFromServiceAreaList list t).list =
    (list.list.map fun sublist => sublist.removeTai t).filter
      fun sublist => !sublist.isDeleted t := by
  have hfilter := deleteIndexes_eq_filter (fun sublist => VPartialServiceAreaList.isDeleted sublist t)
    [] (list.list.map fun sublist => sublist.removeTai t) 0
  exact hfilter

/-- What holds of some list that stays held of it before. -/
theorem any_removeFromServiceAreaList {p q : VPartialServiceAreaList → Bool}
    (h : ∀ sublist, (sublist.removeTai t).isDeleted t = false ∧ p (sublist.removeTai t) = true ↔
      q sublist = true) :
    (removeFromServiceAreaList list t).list.any p = list.list.any q := by
  rw [removeFromServiceAreaList_eq, Bool.eq_iff_iff]
  simp only [List.any_eq_true, List.mem_filter, List.mem_map, Bool.not_eq_true']
  constructor
  · rintro ⟨after, ⟨⟨sublist, hmem, rfl⟩, hstays⟩, hp⟩
    exact ⟨sublist, hmem, (h sublist).mp ⟨hstays, hp⟩⟩
  · rintro ⟨sublist, hmem, hq⟩
    obtain ⟨hstays, hp⟩ := (h sublist).mpr hq
    exact ⟨_, ⟨⟨sublist, hmem, rfl⟩, hstays⟩, hp⟩

theorem removeFromServiceAreaList_nonempty :
    ∀ sublist ∈ (removeFromServiceAreaList list t).list, sublist.isEmpty = false := by
  intro sublist hmem
  rw [removeFromServiceAreaList_eq] at hmem
  simp only [List.mem_filter, List.mem_map, Bool.not_eq_true'] at hmem
  obtain ⟨⟨before, -, rfl⟩, hstays⟩ := hmem
  rw [VPartialServiceAreaList.isDeleted_removeTai, Bool.or_eq_false_iff] at hstays
  exact hstays.2

theorem removeFromServiceAreaList_names (ht : t.tac < 256 ^ 3) :
    ∀ sublist ∈ (removeFromServiceAreaList list t).list, sublist.names t = false := by
  intro sublist hmem
  rw [removeFromServiceAreaList_eq] at hmem
  simp only [List.mem_filter, List.mem_map, Bool.not_eq_true'] at hmem
  obtain ⟨⟨before, -, rfl⟩, hstays⟩ := hmem
  by_contra hnames
  rw [Bool.not_eq_false] at hnames
  exact ((VPartialServiceAreaList.names_removeTai ht ht).mp ⟨hstays, hnames⟩).1
    (deepEqualsV_eq_true.mpr rfl)

theorem removeFromServiceAreaList_plmn (plmn : VPlmn) :
    (removeFromServiceAreaList list t).allowsPlmn plmn = list.allowsPlmn plmn ∧
      (removeFromServiceAreaList list t).forbidsPlmn plmn = list.forbidsPlmn plmn := by
  constructor
  · refine any_removeFromServiceAreaList list fun sublist => ?_
    rw [VPartialServiceAreaList.removeTai_allowsPlmn, and_iff_right_iff_imp]
    exact fun h => VPartialServiceAreaList.not_isDeleted_of_allowsPlmn (.inl h)
  · refine any_removeFromServiceAreaList list fun sublist => ?_
    rw [VPartialServiceAreaList.removeTai_forbidsPlmn, and_iff_right_iff_imp]
    exact fun h => VPartialServiceAreaList.not_isDeleted_of_allowsPlmn (.inr h)

theorem removeFromServiceAreaList_tai (ht : t.tac < 256 ^ 3) (hu : u.tac < 256 ^ 3)
    (hdiff : ¬ SameTai u t) :
    (removeFromServiceAreaList list t).allowsTai u = list.allowsTai u ∧
      (removeFromServiceAreaList list t).forbidsTai u = list.forbidsTai u := by
  have hnames (sublist : VPartialServiceAreaList) :
      (sublist.removeTai t).isDeleted t = false ∧ (sublist.removeTai t).names u = true ↔
        sublist.names u = true :=
    (VPartialServiceAreaList.names_removeTai ht hu).trans (and_iff_right hdiff)
  constructor
  · refine any_removeFromServiceAreaList list fun sublist => ?_
    simp only [VPartialServiceAreaList.allowsTai, VPartialServiceAreaList.removeTai_allowedType,
      Bool.and_eq_true, Bool.not_eq_true', ← hnames sublist]
    exact and_left_comm
  · refine any_removeFromServiceAreaList list fun sublist => ?_
    have hplmn (h : sublist.forbidsPlmn u.plmn = true) :=
      VPartialServiceAreaList.not_isDeleted_of_allowsPlmn (t := t) (.inr h)
    simp only [VPartialServiceAreaList.forbidsTai, VPartialServiceAreaList.removeTai_allowedType,
      VPartialServiceAreaList.removeTai_forbidsPlmn, Bool.and_eq_true, Bool.or_eq_true,
      ← hnames sublist]
    tauto

end ServiceAreas

end Names

/-- Adding and removing a TAI is felt by the lists in that TAI alone, a service area list keeps its
whole PLMNs, and no list gets empty. The TAIs are those that the program takes for one, which for
proper ones are equal. -/
theorem tai_lists_updated (list : IE5gsTrackingAreaIdentityList) (areas : IEServiceAreaList)
    (t u : VTrackingAreaIdentity) (ht : t.tac < 256 ^ 3) (hu : u.tac < 256 ^ 3) :
    ((addToTaiList list t).contains u = true ↔ SameTai u t ∨ list.contains u = true) ∧
    ((removeFromTaiList list t).contains u = true ↔ ¬ SameTai u t ∧ list.contains u = true) ∧
    (∀ sublist ∈ (removeFromServiceAreaList areas t).list, sublist.names t = false) ∧
    (¬ SameTai u t → (removeFromServiceAreaList areas t).allowsTai u = areas.allowsTai u ∧
      (removeFromServiceAreaList areas t).forbidsTai u = areas.forbidsTai u) ∧
    (∀ plmn, (removeFromServiceAreaList areas t).allowsPlmn plmn = areas.allowsPlmn plmn ∧
      (removeFromServiceAreaList areas t).forbidsPlmn plmn = areas.forbidsPlmn plmn) ∧
    ((∀ item ∈ (addToTaiList list t).list, item.isEmpty = true → item ∈ list.list) ∧
      (∀ item ∈ (removeFromTaiList list t).list, item.isEmpty = false) ∧
      ∀ sublist ∈ (removeFromServiceAreaList areas t).list, sublist.isEmpty = false) ∧
    (t.Valid → u.Valid → (SameTai u t ↔ u = t)) := by
  refine ⟨contains_addToTaiList list ht hu, contains_removeFromTaiList list ht hu,
    removeFromServiceAreaList_names areas ht, removeFromServiceAreaList_tai areas ht hu,
    removeFromServiceAreaList_plmn areas, ⟨?_, removeFromTaiList_nonempty list,
      removeFromServiceAreaList_nonempty areas⟩, fun htv huv => deepEqualsV_tai_iff huv htv⟩
  intro item hmem hempty
  rw [addToTaiList] at hmem
  split at hmem
  · exact hmem
  · rcases List.mem_append.mp hmem with hmem | hnew
    · exact hmem
    · obtain rfl := List.mem_singleton.mp hnew
      cases hempty

theorem tai_lists_updated_lastTac :
    (removeFromTaiList ⟨[.list00 ⟨⟨1, 1, false⟩, [7]⟩, .list01 ⟨⟨1, 1, false⟩, 8⟩]⟩
        ⟨⟨1, 1, false⟩, 7⟩).contains ⟨⟨1, 1, false⟩, 8⟩ = true ↔
      ¬ SameTai ⟨⟨1, 1, false⟩, 8⟩ ⟨⟨1, 1, false⟩, 7⟩ ∧
        IE5gsTrackingAreaIdentityList.contains
          ⟨[.list00 ⟨⟨1, 1, false⟩, [7]⟩, .list01 ⟨⟨1, 1, false⟩, 8⟩]⟩
          ⟨⟨1, 1, false⟩, 8⟩ = true :=
  (tai_lists_updated _ ⟨[]⟩ _ _ (by norm_num) (by norm_num)).2.1

end Quicup.Ueransim
