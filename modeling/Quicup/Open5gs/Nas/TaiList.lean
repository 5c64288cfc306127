import Quicup.Core.ByteOrder
import Quicup.Core.Cursor
import Quicup.Core.Fallible

/-!
# TAI lists of the AMF

`ogs_nas_5gs_tai_list_build` of `types.c`, with the tracking areas that are served. A number of
24 bits is kept in the order of the host, which is that of the lowest octet first.
-/

namespace Quicup.Open5gs

/-! ## Identities -/

/-- `ogs_uint24_t`. -/
abbrev Uint24 := Fin (2 ^ 24)

/-- The octets of a number in memory. -/
def uint24Octets (x : Nat) : List UInt8 := [.ofNat x, .ofNat (x / 2 ^ 8), .ofNat (x / 2 ^ 16)]

def htobe24 (x : Uint24) : Nat := (swap32 (.ofNat x)).toNat >>> 8

/-- A swapped number has the highest octet first in memory. -/
theorem uint24Octets_htobe24 (x : Uint24) : uint24Octets (htobe24 x) = octetsBE 3 x := by
  obtain ⟨x, hx⟩ := x
  obtain ⟨a, b, d, rfl, ha, hb, hd⟩ : ∃ a b d, x = a + 2 ^ 8 * b + 2 ^ 16 * d ∧ a < 256 ∧ b < 256 ∧
      d < 256 :=
    ⟨x % 256, x / 256 % 256, x / 65536, by omega⟩
  -- both numbers have the same octets in the other order
  have hdigits {a b d : Nat} (ha : a < 256) (hb : b < 256) (hd : d < 256) :
      (a + 2 ^ 8 * b + 2 ^ 16 * d) / 256 ^ 0 % 256 = a ∧
        (a + 2 ^ 8 * b + 2 ^ 16 * d) / 256 ^ 1 % 256 = b ∧
        (a + 2 ^ 8 * b + 2 ^ 16 * d) / 256 ^ 2 % 256 = d := by
    refine ⟨?_, ?_, ?_⟩ <;> omega
  have hword : (UInt32.ofNat (a + 2 ^ 8 * b + 2 ^ 16 * d)).toNat =
      a + 2 ^ 8 * b + 2 ^ 16 * d + 2 ^ 24 * 0 := by
    rw [UInt32.toNat_ofNat']
    omega
  have htobe : htobe24 ⟨a + 2 ^ 8 * b + 2 ^ 16 * d, hx⟩ = d + 2 ^ 8 * b + 2 ^ 16 * a := by
    rw [htobe24, toNat_swap32 hword ha hb hd (by decide), Nat.shiftRight_eq_div_pow]
    omega
  obtain ⟨h₀, h₁, h₂⟩ := hdigits ha hb hd
  obtain ⟨k₀, k₁, k₂⟩ := hdigits hd hb ha
  have hoctet {v w : Nat} (h : v % 256 = w % 256) : UInt8.ofNat v = UInt8.ofNat w := by
    apply UInt8.toNat_inj.mp
    rwa [UInt8.toNat_ofNat', UInt8.toNat_ofNat']
  have hhigh : UInt8.ofNat ((d + 2 ^ 8 * b + 2 ^ 16 * a) / 256 ^ 0) =
      UInt8.ofNat ((a + 2 ^ 8 * b + 2 ^ 16 * d) / 256 ^ 2) := hoctet (k₀.trans h₂.symm)
  have hmiddle : UInt8.ofNat ((d + 2 ^ 8 * b + 2 ^ 16 * a) / 256 ^ 1) =
      UInt8.ofNat ((a + 2 ^ 8 * b + 2 ^ 16 * d) / 256 ^ 1) := hoctet (k₁.trans h₁.symm)
  have hlow : UInt8.ofNat ((d + 2 ^ 8 * b + 2 ^ 16 * a) / 256 ^ 2) =
      UInt8.ofNat ((a + 2 ^ 8 * b + 2 ^ 16 * d) / 256 ^ 0) := hoctet (k₂.trans h₀.symm)
  rw [htobe]
  exact congrArg₂ List.cons (by simpa using hhigh)
    (congrArg₂ List.cons hmiddle (congrArg₂ List.cons hlow rfl))

/-- `ogs_plmn_id_t` as `ogs_plmn_id_build` makes it. An MNC of two digits has the filler in
front. -/
structure OgsPlmnId where
  mcc1 : Nat
  mcc2 : Nat
  mcc3 : Nat
  mnc1 : Nat
  mnc2 : Nat
  mnc3 : Nat
  mcc_lt : mcc1 < 10 ∧ mcc2 < 10 ∧ mcc3 < 10
  mnc1_lt : mnc1 < 10 ∨ mnc1 = 0xf
  mnc_lt : mnc2 < 10 ∧ mnc3 < 10
  deriving DecidableEq

def plmnIdDigit1 (x : Nat) : Nat := x / 100 % 10
def plmnIdDigit2 (x : Nat) : Nat := x / 10 % 10
def plmnIdDigit3 (x : Nat) : Nat := x % 10

def ogsPlmnIdBuild (mcc mnc mncLen : Nat) : OgsPlmnId where
  mcc1 := plmnIdDigit1 mcc
  mcc2 := plmnIdDigit2 mcc
  mcc3 := plmnIdDigit3 mcc
  mnc1 := if mncLen = 2 then 0xf else plmnIdDigit1 mnc
  mnc2 := plmnIdDigit2 mnc
  mnc3 := plmnIdDigit3 mnc
  mcc_lt := ⟨Nat.mod_lt _ (by decide), Nat.mod_lt _ (by decide), Nat.mod_lt _ (by decide)⟩
  mnc1_lt := by
    split_ifs
    · exact .inr rfl
    · exact .inl (Nat.mod_lt _ (by decide))
  mnc_lt := ⟨Nat.mod_lt _ (by decide), Nat.mod_lt _ (by decide)⟩

/-- Two fields of four bits, the lower one first. -/
def ed2 (low high : Nat) : UInt8 := .ofNat (high <<< 4 ||| low)

/-- The octets of an `ogs_plmn_id_t`. -/
def OgsPlmnId.octets (p : OgsPlmnId) : List UInt8 :=
  [ed2 p.mcc1 p.mcc2, ed2 p.mcc3 p.mnc1, ed2 p.mnc2 p.mnc3]

/-- The octets of the `ogs_nas_plmn_id_t`, where the digits of the MNC have other places. -/
def ogsNasFromPlmnId (p : OgsPlmnId) : List UInt8 :=
  if p.mnc1 ≠ 0xf then [ed2 p.mcc1 p.mcc2, ed2 p.mcc3 p.mnc3, ed2 p.mnc1 p.mnc2]
  else p.octets

/-! ## Lists -/

def maxNumOfTai : Nat := 16
def maxTaiListLen : Nat := 114

/-- An entry of type 0: some TACs of a PLMN. -/
structure Tai0 where
  type : Fin 4
  num : Fin 32
  plmnId : OgsPlmnId
  tac : Vector Uint24 maxNumOfTai
  deriving DecidableEq

/-- An entry of type 1: `num` TACs of a PLMN from `tac` on. -/
structure Tai1 where
  type : Fin 4
  num : Fin 32
  plmnId : OgsPlmnId
  tac : Uint24
  deriving DecidableEq

/-- `ogs_5gs_tai_t`. -/
structure OgsTai where
  plmnId : OgsPlmnId
  tac : Uint24
  deriving DecidableEq

/-- The list of type 2: some TAIs. -/
structure Tai2List where
  type : Fin 4
  num : Fin 32
  tai : Vector OgsTai maxNumOfTai
  deriving DecidableEq

/-- An array of entries. The loop that looks for an entry without elements may come to what is
behind the array. -/
structure TaiArray (ε : Type) where
  tai : Vector ε maxNumOfTai
  numBehind : Nat
  deriving DecidableEq

/-- The first octet of a partial list, with the number less one. -/
def partialHeader (type : Fin 4) (num : Fin 32) : UInt8 := .ofNat (type.val <<< 5 ||| (num.val - 1))

/-- What is copied of the entry: no more than the TACs that there are. -/
def Tai0.octets (e : Tai0) : List UInt8 :=
  partialHeader e.type e.num :: ogsNasFromPlmnId e.plmnId ++
    (e.tac.toList.take e.num).flatMap fun tac => uint24Octets (htobe24 tac)

def Tai0.build (e : Tai0) : Except Fault (List UInt8) :=
  if e.type ≠ 0 ∨ e.num > maxNumOfTai then .error .assertion else .ok e.octets

def Tai1.octets (e : Tai1) : List UInt8 :=
  partialHeader e.type e.num :: ogsNasFromPlmnId e.plmnId ++ uint24Octets (htobe24 e.tac)

def Tai1.build (e : Tai1) : Except Fault (List UInt8) :=
  if e.type ≠ 1 ∨ e.num > maxNumOfTai then .error .assertion else .ok e.octets

def Tai2List.octets (l : Tai2List) : List UInt8 :=
  partialHeader l.type l.num :: (l.tai.toList.take l.num).flatMap fun tai =>
    ogsNasFromPlmnId tai.plmnId ++ uint24Octets (htobe24 tai.tac)

def Tai2List.build (l : Tai2List) : Except Fault (List UInt8) :=
  if l.type ≠ 2 ∨ l.num > maxNumOfTai then .error .assertion else .ok l.octets

/-- Append to the buffer of the target, where there is room. -/
def appendPartial (target octets : List UInt8) : Option (List UInt8) :=
  if target.length + octets.length > maxTaiListLen then none else some (target ++ octets)

/-- `for (i = 0; source->tai[i].num; i++)`. The result is `none` for an error. -/
def appendEntries {ε : Type} (num : ε → Fin 32) (build : ε → Except Fault (List UInt8))
    (numBehind : Nat) : List ε → List UInt8 → Except Fault (Option (List UInt8))
  | [], target => if numBehind = 0 then .ok (some target) else .error .outOfBounds
  | e :: rest, target =>
    if num e = 0 then .ok (some target)
    else do
      let octets ← build e
      match appendPartial target octets with
      | none => return none
      | some target => appendEntries num build numBehind rest target

/-- The entries of one list, if it is there. -/
def appendList {ε : Type} (num : ε → Fin 32) (build : ε → Except Fault (List UInt8))
    (source : Option (TaiArray ε)) (target : List UInt8) : Except Fault (Option (List UInt8)) :=
  match source with
  | none => .ok (some target)
  | some source => appendEntries num build source.numBehind source.tai.toList target

def appendTai2 (source : Option Tai2List) (target : List UInt8) :
    Except Fault (Option (List UInt8)) :=
  match source with
  | none => .ok (some target)
  | some source =>
    if source.num = 0 then .ok (some target)
    else do
      let octets ← source.build
      return appendPartial target octets

/-- `ogs_nas_5gs_tai_list_build`. -/
def taiListBuild (source0 : Option (TaiArray Tai0)) (source1 : Option (TaiArray Tai1))
    (source2 : Option Tai2List) : Except Fault (Option (List UInt8)) := do
  match ← appendList Tai0.num Tai0.build source0 [] with
  | none => return none
  | some target =>
    match ← appendList Tai1.num Tai1.build source1 target with
    | none => return none
    | some target => appendTai2 source2 target

/-! ## What is built -/

variable {ε : Type} {num : ε → Fin 32} {build : ε → Except Fault (List UInt8)}
  {octets : ε → List UInt8} {good : ε → Prop} {target result : List UInt8}

/-- The entries that the loop comes to. -/
def TaiArray.entries (num : ε → Fin 32) (source : Option (TaiArray ε)) : List ε :=
  source.elim [] fun source => source.tai.toList.takeWhile fun e => num e ≠ 0

/-- The target behind a list: the octets of its entries follow, all of which meet the
assertions. -/
theorem appendEntries_ok
    (hbuild : ∀ e out, build e = .ok out → good e ∧ out = octets e) {numBehind : Nat}
    {list : List ε} (htarget : target.length ≤ maxTaiListLen)
    (h : appendEntries num build numBehind list target = .ok (some result)) :
    (∀ e ∈ list.takeWhile fun e => num e ≠ 0, good e) ∧ result.length ≤ maxTaiListLen ∧
      result = target ++ (list.takeWhile fun e => num e ≠ 0).flatMap octets := by
  induction list generalizing target with
  | nil =>
    rw [appendEntries] at h
    split_ifs at h
    obtain rfl := Option.some.inj (Except.ok.inj h)
    simpa using htarget
  | cons e rest ih =>
    rw [appendEntries] at h
    split_ifs at h with hnum
    · obtain rfl := Option.some.inj (Except.ok.inj h)
      simpa [hnum] using htarget
    · obtain ⟨out, hout, h⟩ := Fallible.bind_eq_ok.mp h
      obtain ⟨hgood, rfl⟩ := hbuild e out hout
      rw [appendPartial] at h
      split_ifs at h with hroom
      · cases h
      · obtain ⟨hall, hlength, hresult⟩ := ih (by rw [List.length_append]; omega) h
        rw [List.takeWhile_cons_of_pos (by simpa using hnum)]
        refine ⟨List.forall_mem_cons.mpr ⟨hgood, hall⟩, hlength, ?_⟩
        rw [hresult, List.flatMap_cons, List.append_assoc]

theorem appendList_ok (hbuild : ∀ e out, build e = .ok out → good e ∧ out = octets e)
    {source : Option (TaiArray ε)} (htarget : target.length ≤ maxTaiListLen)
    (h : appendList num build source target = .ok (some result)) :
    (∀ e ∈ TaiArray.entries num source, good e) ∧ result.length ≤ maxTaiListLen ∧
      result = target ++ (TaiArray.entries num source).flatMap octets := by
  cases source with
  | none =>
    obtain rfl := Option.some.inj (Except.ok.inj h)
    simpa [TaiArray.entries] using htarget
  | some source => exact appendEntries_ok hbuild htarget h

/-- The list of type 2, if it has elements. -/
def Tai2List.lists (source : Option Tai2List) : List Tai2List :=
  source.toList.filter fun l => l.num ≠ 0

theorem appendTai2_ok {source : Option Tai2List} (htarget : target.length ≤ maxTaiListLen)
    (h : appendTai2 source target = .ok (some result)) :
    (∀ l ∈ Tai2List.lists source, l.type = 2 ∧ l.num ≤ maxNumOfTai) ∧
      result.length ≤ maxTaiListLen ∧
      result = target ++ (Tai2List.lists source).flatMap Tai2List.octets := by
  cases source with
  | none =>
    obtain rfl := Option.some.inj (Except.ok.inj h)
    simpa [Tai2List.lists] using htarget
  | some l =>
    rw [appendTai2] at h
    split_ifs at h with hnum
    · obtain rfl := Option.some.inj (Except.ok.inj h)
      simpa [Tai2List.lists, hnum] using htarget
    · obtain ⟨out, hout, h⟩ := Fallible.bind_eq_ok.mp h
      have h := Except.ok.inj h
      rw [Tai2List.build] at hout
      split_ifs at hout with hbad
      obtain rfl := Except.ok.inj hout
      rw [appendPartial] at h
      split_ifs at h with hroom
      obtain rfl := Option.some.inj h
      rw [not_or, not_not, not_lt] at hbad
      have hlists : Tai2List.lists (some l) = [l] := by simp [Tai2List.lists, hnum]
      rw [hlists, List.flatMap_singleton, List.length_append]
      exact ⟨fun other hother => List.mem_singleton.mp hother ▸ hbad, by omega, rfl⟩

/-- A list that is built has the partial lists of the area one behind the other. -/
theorem taiListBuild_ok {source0 : Option (TaiArray Tai0)} {source1 : Option (TaiArray Tai1)}
    {source2 : Option Tai2List} (h : taiListBuild source0 source1 source2 = .ok (some result)) :
    (∀ e ∈ TaiArray.entries Tai0.num source0, e.type = 0 ∧ e.num ≤ maxNumOfTai) ∧
    (∀ e ∈ TaiArray.entries Tai1.num source1, e.type = 1 ∧ e.num ≤ maxNumOfTai) ∧
    (∀ l ∈ Tai2List.lists source2, l.type = 2 ∧ l.num ≤ maxNumOfTai) ∧
    result.length ≤ maxTaiListLen ∧
    result = (TaiArray.entries Tai0.num source0).flatMap Tai0.octets ++
      (TaiArray.entries Tai1.num source1).flatMap Tai1.octets ++
      (Tai2List.lists source2).flatMap Tai2List.octets := by
  have hbuild0 (e : Tai0) (out : List UInt8) (hout : e.build = .ok out) :
      (e.type = 0 ∧ e.num ≤ maxNumOfTai) ∧ out = e.octets := by
    rw [Tai0.build] at hout
    split_ifs at hout with hbad
    rw [not_or, not_not, not_lt] at hbad
    exact ⟨hbad, (Except.ok.inj hout).symm⟩
  have hbuild1 (e : Tai1) (out : List UInt8) (hout : e.build = .ok out) :
      (e.type = 1 ∧ e.num ≤ maxNumOfTai) ∧ out = e.octets := by
    rw [Tai1.build] at hout
    split_ifs at hout with hbad
    rw [not_or, not_not, not_lt] at hbad
    exact ⟨hbad, (Except.ok.inj hout).symm⟩
  obtain ⟨first, hfirst, h⟩ := Fallible.bind_eq_ok.mp h
  cases first with
  | none => cases h
  | some first =>
    obtain ⟨second, hsecond, h⟩ := Fallible.bind_eq_ok.mp h
    cases second with
    | none => cases h
    | some second =>
      obtain ⟨hgood0, hlength0, rfl⟩ := appendList_ok hbuild0 (Nat.zero_le _) hfirst
      obtain ⟨hgood1, hlength1, rfl⟩ := appendList_ok hbuild1 hlength0 hsecond
      obtain ⟨hgood2, hlength2, rfl⟩ := appendTai2_ok hlength1 h
      exact ⟨hgood0, hgood1, hgood2, hlength2, rfl⟩

end Quicup.Open5gs
