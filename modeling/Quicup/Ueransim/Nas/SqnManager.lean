import Mathlib.Data.Nat.Bitwise
import Quicup.Core.System
import Quicup.Ueransim.Utils.Octets

/-!
# Sequence numbers of authentications

`sqn_mng.cpp`: the USIM keeps the last SQN that it has accepted for each index. An SQN is
fresh when its SEQ is greater than the one that is kept for its index, and not too far from
the greatest one that is kept.
-/

namespace Quicup.Ueransim

/-- An SQN of 48 bits. -/
abbrev Sqn := Vector UInt8 6

/-- The number of an SQN, behind two zero octets. -/
def Sqn.value (sqn : Sqn) : UInt64 := .ofNat (natBE (0 :: 0 :: sqn.toList))

/-- `SqnManager`. It keeps an SQN for each index. -/
structure SqnManager where
  indBitLen : UInt64
  wrappingDelta : UInt64
  sqnArr : List UInt64
  bounds : 2 ≤ indBitLen ∧ indBitLen ≤ 16
  length : sqnArr.length = 2 ^ indBitLen.toNat
  deriving DecidableEq

namespace SqnManager

/-- The constructor, which throws where the length of the index is out of range. -/
def make (indBitLen wrappingDelta : UInt64) : Except Fault SqnManager :=
  if h : indBitLen < 2 ∨ 16 < indBitLen then .error .exception
  else
    .ok
      { indBitLen
        wrappingDelta
        sqnArr := List.replicate (2 ^ indBitLen.toNat) 0
        bounds := by simpa [not_or] using h
        length := List.length_replicate }

variable (m : SqnManager)

/-- The ones below an SEQ. -/
def mask : UInt64 := (1 <<< m.indBitLen) - 1

def getSeqFromSqn (sqn : UInt64) : UInt64 :=
  ((sqn &&& ~~~m.mask) >>> m.indBitLen) &&& (((1 : UInt64) <<< (48 : UInt64)) - 1)

def getIndFromSqn (sqn : UInt64) : UInt64 := sqn &&& m.mask

/-- The greatest SQN that is kept. -/
def getSqnMs : UInt64 := m.sqnArr.foldl max 0

def getSeqMs : UInt64 := m.getSeqFromSqn m.getSqnMs

/-- The SQN that is kept for an index. -/
def stored (ind : UInt64) : UInt64 := m.sqnArr.getD ind.toNat 0

/-- An SQN is kept for its index. -/
def store (ind sqn : UInt64) : SqnManager :=
  { m with
    sqnArr := m.sqnArr.set ind.toNat sqn
    length := by rw [List.length_set, m.length] }

/-- The tests of `checkSqn`. The difference is one of unsigned numbers. -/
def isFresh (sqn : UInt64) : Bool :=
  let seq := m.getSeqFromSqn sqn
  !(decide (m.wrappingDelta < seq - m.getSeqMs)) &&
    !(decide (seq ≤ m.getSeqFromSqn (m.stored (m.getIndFromSqn sqn))))

/-- `checkSqn` -/
def checkSqn (sqn : Sqn) : Bool × SqnManager :=
  if m.isFresh sqn.value then (true, m.store (m.getIndFromSqn sqn.value) sqn.value) else (false, m)

/-- `getSqn` -/
def getSqn : Sqn := ⟨⟨octetsBE 6 m.getSqnMs.toNat⟩, length_octetsBE 6 _⟩

/-! ## Numbers -/

variable {m} {sqn : UInt64}

theorem indBitLen_toNat (m : SqnManager) : 2 ≤ m.indBitLen.toNat ∧ m.indBitLen.toNat ≤ 16 :=
  m.bounds

theorem toNat_mask (m : SqnManager) : m.mask.toNat = 2 ^ m.indBitLen.toNat - 1 := by
  have hle := m.indBitLen_toNat.2
  have hlt : 2 ^ m.indBitLen.toNat ≤ 2 ^ 16 := Nat.pow_le_pow_right (by decide) hle
  have hpos := Nat.two_pow_pos m.indBitLen.toNat
  have hshift : ((1 : UInt64) <<< m.indBitLen).toNat = 2 ^ m.indBitLen.toNat := by
    rw [UInt64.toNat_shiftLeft, Nat.mod_eq_of_lt (show m.indBitLen.toNat < 64 by omega),
      Nat.shiftLeft_eq]
    change 1 * 2 ^ m.indBitLen.toNat % 2 ^ 64 = _
    rw [Nat.one_mul, Nat.mod_eq_of_lt (by omega)]
  rw [mask, UInt64.toNat_sub_of_le]
  · rw [hshift]
    rfl
  · rw [UInt64.le_iff_toNat_le, hshift]
    exact hpos

theorem toNat_getIndFromSqn (m : SqnManager) (sqn : UInt64) :
    (m.getIndFromSqn sqn).toNat = sqn.toNat % 2 ^ m.indBitLen.toNat := by
  rw [getIndFromSqn, UInt64.toNat_and, toNat_mask, Nat.and_two_pow_sub_one_eq_mod]

theorem toNat_getSeqFromSqn (m : SqnManager) (hsqn : sqn.toNat < 2 ^ 48) :
    (m.getSeqFromSqn sqn).toNat = sqn.toNat / 2 ^ m.indBitLen.toNat := by
  have hle := m.indBitLen_toNat.2
  have hmask : 2 ^ m.indBitLen.toNat - 1 < 2 ^ 64 :=
    (Nat.sub_le _ _).trans_lt (Nat.pow_lt_pow_right (by decide) (by omega))
  have hshift : ((sqn &&& ~~~m.mask) >>> m.indBitLen).toNat = sqn.toNat >>> m.indBitLen.toNat := by
    rw [UInt64.toNat_shiftRight, Nat.mod_eq_of_lt (show m.indBitLen.toNat < 64 by omega),
      UInt64.toNat_and, UInt64.toNat_not, toNat_mask]
    apply Nat.eq_of_testBit_eq
    intro i
    have hcompl : UInt64.size - 1 - (2 ^ m.indBitLen.toNat - 1) =
        2 ^ 64 - (2 ^ m.indBitLen.toNat - 1 + 1) := by
      rw [Nat.sub_sub, Nat.add_comm 1]
      rfl
    rw [Nat.testBit_shiftRight, Nat.testBit_shiftRight, Nat.testBit_and, hcompl,
      Nat.testBit_two_pow_sub_succ hmask, Nat.testBit_two_pow_sub_one]
    by_cases hi : m.indBitLen.toNat + i < 64
    · simp [hi]
    · rw [Nat.testBit_lt_two_pow (hsqn.trans_le (Nat.pow_le_pow_right (by decide) (by omega)))]
      rfl
  rw [getSeqFromSqn, UInt64.toNat_and, hshift,
    show ((1 : UInt64) <<< (48 : UInt64) - 1).toNat = 2 ^ 48 - 1 from rfl, Nat.and_two_pow_sub_one_eq_mod,
    Nat.shiftRight_eq_div_pow, Nat.mod_eq_of_lt ((Nat.div_le_self _ _).trans_lt hsqn)]

end SqnManager

theorem Sqn.toNat_value (sqn : Sqn) : sqn.value.toNat = natBE sqn.toList := by
  have hlt := natBE_lt sqn.toList
  rw [Vector.length_toList] at hlt
  rw [Sqn.value, natBE_cons, natBE_cons]
  change (UInt64.ofNat (0 * _ + (0 * _ + natBE sqn.toList))).toNat = _
  rw [Nat.zero_mul, Nat.zero_mul, Nat.zero_add, Nat.zero_add]
  exact UInt64.toNat_ofNat_of_lt' (by change _ < 2 ^ 64; omega)

theorem Sqn.value_lt (sqn : Sqn) : sqn.value.toNat < 2 ^ 48 := by
  have hlt := natBE_lt sqn.toList
  rw [Vector.length_toList] at hlt
  rw [toNat_value]
  exact hlt

namespace SqnManager

variable {m : SqnManager} {sqn : Sqn} {n : Nat}

/-- What is kept are SQNs. -/
def Kept (m : SqnManager) : Prop := ∀ sqn ∈ m.sqnArr, sqn.toNat < 2 ^ 48

theorem toNat_max (v w : UInt64) : (max v w).toNat = max v.toNat w.toNat := by
  change (if v ≤ w then w else v).toNat = _
  split
  · next h => exact (Nat.max_eq_right (UInt64.le_iff_toNat_le.mp h)).symm
  · next h => exact (Nat.max_eq_left (Nat.le_of_not_le (h <| UInt64.le_iff_toNat_le.mpr ·))).symm

/-- The number of the greatest SQN that is kept. -/
theorem toNat_getSqnMs (m : SqnManager) :
    m.getSqnMs.toNat = (m.sqnArr.map UInt64.toNat).foldl max 0 := by
  suffices h : ∀ (l : List UInt64) (v : UInt64),
      (l.foldl max v).toNat = (l.map UInt64.toNat).foldl max v.toNat from h m.sqnArr 0
  intro l
  induction l with
  | nil => exact fun v => rfl
  | cons w l ih =>
    intro v
    rw [List.foldl_cons, ih, toNat_max, List.map_cons, List.foldl_cons]

theorem foldl_max_le_iff {l : List Nat} {a : Nat} : l.foldl max a ≤ n ↔ a ≤ n ∧ ∀ b ∈ l, b ≤ n := by
  induction l generalizing a with
  | nil => simp
  | cons b l ih => simp [ih, and_assoc]

theorem getSqnMs_le_iff : m.getSqnMs.toNat ≤ n ↔ ∀ sqn ∈ m.sqnArr, sqn.toNat ≤ n := by
  rw [toNat_getSqnMs, foldl_max_le_iff]
  simp

theorem Kept.getSqnMs_lt (h : m.Kept) : m.getSqnMs.toNat < 2 ^ 48 :=
  Nat.lt_of_le_pred (Nat.two_pow_pos 48) (getSqnMs_le_iff.mpr fun sqn hsqn => Nat.le_pred_of_lt (h sqn hsqn))

theorem ind_lt (m : SqnManager) (sqn : UInt64) :
    (m.getIndFromSqn sqn).toNat < m.sqnArr.length := by
  rw [m.length, toNat_getIndFromSqn]
  exact Nat.mod_lt _ (Nat.two_pow_pos _)

theorem stored_mem (m : SqnManager) (sqn : UInt64) : m.stored (m.getIndFromSqn sqn) ∈ m.sqnArr := by
  rw [stored, List.getD_eq_getElem _ _ (m.ind_lt sqn)]
  exact List.getElem_mem _

theorem Kept.store (h : m.Kept) (ind : UInt64) (sqn : Sqn) : (m.store ind sqn.value).Kept := by
  intro v hv
  rcases List.mem_or_eq_of_mem_set hv with hv | rfl
  · exact h v hv
  · exact sqn.value_lt

theorem stored_store (m : SqnManager) (sqn other : UInt64) :
    (m.store (m.getIndFromSqn sqn) other).stored (m.getIndFromSqn sqn) = other := by
  change (m.sqnArr.set _ other).getD _ 0 = other
  rw [List.getD_eq_getElem _ _ (by rw [List.length_set]; exact m.ind_lt sqn), List.getElem_set_self]

theorem stored_store_of_ne {ind ind' sqn : UInt64} (h : ind' ≠ ind) :
    (m.store ind sqn).stored ind' = m.stored ind' := by
  change (m.sqnArr.set _ sqn).getD _ 0 = m.sqnArr.getD _ 0
  rw [List.getD_eq_getElem?_getD, List.getElem?_set_ne fun heq => h (UInt64.toNat_inj.mp heq).symm,
    List.getD_eq_getElem?_getD]

/-! ## Freshness -/

/-- The SEQ of an SQN and the one that is kept for its index, as numbers. -/
def seq (m : SqnManager) (sqn : Sqn) : Nat := (m.getSeqFromSqn sqn.value).toNat

def ind (m : SqnManager) (sqn : Sqn) : UInt64 := m.getIndFromSqn sqn.value

def storedSeq (m : SqnManager) (sqn : Sqn) : Nat := (m.getSeqFromSqn (m.stored (m.ind sqn))).toNat

def seqMs (m : SqnManager) : Nat := m.getSeqMs.toNat

/-- An SQN is fresh when its SEQ is greater than the one that is kept for its index, and its
distance from the greatest SEQ is small, around the greatest number of 64 bits. -/
theorem isFresh_iff : m.isFresh sqn.value = true ↔
    m.storedSeq sqn < m.seq sqn ∧
      if m.seqMs ≤ m.seq sqn then m.seq sqn ≤ m.seqMs + m.wrappingDelta.toNat
      else 2 ^ 64 ≤ m.wrappingDelta.toNat + (m.seqMs - m.seq sqn) := by
  have hsub := UInt64.toNat_sub (m.getSeqFromSqn sqn.value) m.getSeqMs
  have hseq := (m.getSeqFromSqn sqn.value).toNat_lt
  have hms := m.getSeqMs.toNat_lt
  rw [isFresh, Bool.and_eq_true, Bool.not_eq_true', Bool.not_eq_true', decide_eq_false_iff_not,
    decide_eq_false_iff_not, UInt64.lt_iff_toNat_lt, UInt64.le_iff_toNat_le, hsub, and_comm]
  change ¬_ ≤ m.storedSeq sqn ∧ _ ↔ _
  unfold seqMs seq
  split <;> omega

/-- What a call leaves for an index. -/
theorem seq_stored_checkSqn (other : Sqn) :
    (m.checkSqn sqn).2.storedSeq other =
      if (m.checkSqn sqn).1 = true ∧ m.ind other = m.ind sqn then m.seq sqn
      else m.storedSeq other := by
  unfold checkSqn
  by_cases hfresh : m.isFresh sqn.value = true
  · rw [if_pos hfresh]
    by_cases hind : m.ind other = m.ind sqn
    · rw [if_pos ⟨rfl, hind⟩]
      change (m.getSeqFromSqn ((m.store _ _).stored (m.ind other))).toNat = _
      rw [hind]
      exact congrArg (fun v => (m.getSeqFromSqn v).toNat) (stored_store m sqn.value sqn.value)
    · rw [if_neg fun h => hind h.2]
      exact congrArg (fun v => (m.getSeqFromSqn v).toNat) (stored_store_of_ne hind)
  · rw [if_neg hfresh, if_neg fun h => nomatch h.1]

theorem Kept.checkSqn (h : m.Kept) (sqn : Sqn) : (m.checkSqn sqn).2.Kept := by
  unfold SqnManager.checkSqn
  split
  · exact h.store _ sqn
  · exact h

/-- The greatest SQN that is kept, in octets. -/
theorem Kept.getSqn_eq_iff (h : m.Kept) : m.getSqn = sqn ↔ m.getSqnMs.toNat = sqn.value.toNat := by
  rw [← Vector.toList_inj, Sqn.toNat_value]
  change octetsBE 6 m.getSqnMs.toNat = sqn.toList ↔ _
  constructor
  · intro heq
    rw [← heq, natBE_octetsBE]
    exact (Nat.mod_eq_of_lt h.getSqnMs_lt).symm
  · intro heq
    have hoctets := octetsBE_natBE sqn.toList
    rw [Vector.length_toList] at hoctets
    rw [heq, hoctets]

theorem mem_store (sqn : UInt64) : sqn ∈ (m.store (m.getIndFromSqn sqn) sqn).sqnArr :=
  List.mem_set (m.ind_lt sqn) sqn

/-- What is kept stays, except for what was kept for the index. -/
theorem mem_sqnArr {ind sqn other : UInt64} (h : other ∈ m.sqnArr) :
    other = m.stored ind ∨ other ∈ (m.store ind sqn).sqnArr := by
  obtain ⟨i, hi, rfl⟩ := List.mem_iff_getElem.mp h
  by_cases hind : i = ind.toNat
  · left
    rw [stored, ← hind, List.getD_eq_getElem]
  · right
    have hkept : (m.sqnArr.set ind.toNat sqn)[i]? = some m.sqnArr[i] := by
      rw [List.getElem?_set_ne (Ne.symm hind), List.getElem?_eq_getElem hi]
    exact List.mem_of_getElem? hkept

/-- What is kept for the index of a fresh SQN is below it. -/
theorem Kept.stored_lt (h : m.Kept) (hfresh : m.isFresh sqn.value = true) :
    (m.stored (m.getIndFromSqn sqn.value)).toNat < sqn.value.toNat := by
  have hlt := (isFresh_iff.mp hfresh).1
  have hstored := h _ (m.stored_mem sqn.value)
  unfold storedSeq seq ind at hlt
  rw [toNat_getSeqFromSqn m hstored, toNat_getSeqFromSqn m sqn.value_lt] at hlt
  by_contra hle
  exact absurd (Nat.div_le_div_right (Nat.le_of_not_lt hle)) (Nat.not_le.mpr hlt)

/-- An SQN that is accepted is the greatest one that is kept, unless a greater one has been. -/
theorem Kept.getSqn_checkSqn_eq_iff (h : m.Kept) (hcheck : (m.checkSqn sqn).1 = true) :
    (m.checkSqn sqn).2.getSqn = sqn ↔ m.getSqnMs.toNat ≤ sqn.value.toNat := by
  rw [(h.checkSqn sqn).getSqn_eq_iff]
  unfold SqnManager.checkSqn at hcheck ⊢
  split at hcheck
  · next hfresh =>
    rw [if_pos hfresh]
    change (m.store _ sqn.value).getSqnMs.toNat = _ ↔ _
    constructor
    · intro heq
      rw [getSqnMs_le_iff]
      intro other hother
      rcases mem_sqnArr hother with hstored | hother
      · rw [hstored]
        exact (h.stored_lt hfresh).le
      · exact getSqnMs_le_iff.mp heq.le other hother
    · intro hle
      apply Nat.le_antisymm
      · rw [getSqnMs_le_iff]
        intro other hother
        rcases List.mem_or_eq_of_mem_set hother with hother | rfl
        · exact getSqnMs_le_iff.mp hle other hother
        · exact Nat.le_refl _
      · exact getSqnMs_le_iff.mp (Nat.le_refl _) _ (mem_store sqn.value)
  · cases hcheck

/-- A call does not change how SQNs are read. -/
theorem checkSqn_indBitLen : (m.checkSqn sqn).2.indBitLen = m.indBitLen := by
  unfold checkSqn
  split <;> rfl

end SqnManager

/-! ## Runs -/

/-- A manager with the SQNs that it has accepted. -/
structure SqnCalls where
  mng : SqnManager
  accepted : List Sqn

def SqnCalls.call (s : SqnCalls) (sqn : Sqn) : SqnCalls where
  mng := (s.mng.checkSqn sqn).2
  accepted := if (s.mng.checkSqn sqn).1 then sqn :: s.accepted else s.accepted

/-- Any sequence of calls on a new manager. -/
def sqnSystem : System SqnCalls Sqn where
  init s := (∃ indBitLen wrappingDelta, SqnManager.make indBitLen wrappingDelta = .ok s.mng) ∧
    s.accepted = []
  step s sqn t := t = s.call sqn

/-- A call that is refused changes nothing, one that is accepted has a greater SEQ than those
that were accepted for its index, and an SQN is accepted whose SEQ is greater than the one that
is kept for its index and not too far above the greatest one. -/
structure SqnCalls.Sound (s : SqnCalls) (sqn : Sqn) (t : SqnCalls) : Prop where
  refused : (s.mng.checkSqn sqn).1 = false → t = s
  increasing : (s.mng.checkSqn sqn).1 = true → ∀ other ∈ s.accepted,
    s.mng.ind other = s.mng.ind sqn → s.mng.seq other < s.mng.seq sqn
  once : (s.mng.checkSqn sqn).1 = true → sqn ∉ s.accepted
  complete : s.mng.storedSeq sqn < s.mng.seq sqn →
    s.mng.seq sqn ≤ s.mng.seqMs + s.mng.wrappingDelta.toNat → (s.mng.checkSqn sqn).1 = true

/-- An SEQ is not between the one that is kept for its index and the greatest one, except where
the limit lets differences below zero pass. -/
def SqnCalls.InOrder (s : SqnCalls) (sqn : Sqn) : Prop :=
  s.mng.seq sqn ≤ s.mng.storedSeq sqn ∨ s.mng.seqMs ≤ s.mng.seq sqn ∨
    2 ^ 64 ≤ s.mng.wrappingDelta.toNat + (s.mng.seqMs - s.mng.seq sqn)

/-- No SEQ that was accepted is greater than the one that is kept for its index. -/
def SqnCalls.Bounded (s : SqnCalls) : Prop :=
  ∀ sqn ∈ s.accepted, s.mng.seq sqn ≤ s.mng.storedSeq sqn

namespace SqnCalls

variable {s : SqnCalls} {sqn : Sqn}

theorem checkSqn_fst : (s.mng.checkSqn sqn).1 = s.mng.isFresh sqn.value := by
  unfold SqnManager.checkSqn
  split
  · next h => exact h.symm
  · next h => exact (Bool.not_eq_true _ ▸ h).symm

/-- An SQN that is accepted has a greater SEQ than the one that is kept. -/
theorem storedSeq_lt (h : (s.mng.checkSqn sqn).1 = true) : s.mng.storedSeq sqn < s.mng.seq sqn := by
  rw [checkSqn_fst] at h
  exact (SqnManager.isFresh_iff.mp h).1

theorem seq_call (other : Sqn) : (s.call sqn).mng.seq other = s.mng.seq other := by
  unfold SqnManager.seq SqnManager.getSeqFromSqn SqnManager.mask call
  rw [SqnManager.checkSqn_indBitLen]

/-- A call keeps the bound. -/
theorem Bounded.call (h : s.Bounded) (sqn : Sqn) : (s.call sqn).Bounded := by
  intro other hother
  rw [seq_call]
  change _ ≤ (s.mng.checkSqn sqn).2.storedSeq other
  rw [SqnManager.seq_stored_checkSqn]
  cases hcheck : (s.mng.checkSqn sqn).1 with
  | false =>
    rw [SqnCalls.call, hcheck] at hother
    rw [if_neg (by simp)]
    exact h other hother
  | true =>
    rw [SqnCalls.call, hcheck, if_pos rfl] at hother
    rcases List.mem_cons.mp hother with rfl | hother
    · rw [if_pos ⟨rfl, rfl⟩]
    · split
      · next hind =>
        have hle := h other hother
        have hlt := storedSeq_lt hcheck
        rw [SqnManager.storedSeq, hind.2] at hle
        exact hle.trans hlt.le
      · exact h other hother

theorem bounded_of_run {P : SqnCalls → Sqn → Prop} {calls : List Sqn}
    (h : sqnSystem.Run P calls s) : s.Bounded := by
  apply h.invariant
  · rintro s ⟨-, hnone⟩ sqn hsqn
    rw [hnone] at hsqn
    cases hsqn
  · intro s sqn t hbounded _ hstep
    rw [show t = s.call sqn from hstep]
    exact hbounded.call sqn

/-- A call is sound exactly where its SEQ is in order. -/
theorem Bounded.sound_iff (h : s.Bounded) (sqn : Sqn) : s.Sound sqn (s.call sqn) ↔ s.InOrder sqn := by
  constructor
  · intro hsound
    by_contra hnot
    unfold InOrder at hnot
    have hfresh := hsound.complete (by omega) (by omega)
    rw [checkSqn_fst] at hfresh
    have hcases := (SqnManager.isFresh_iff.mp hfresh).2
    rw [if_neg (by omega)] at hcases
    omega
  · intro horder
    have hincreasing (hcheck : (s.mng.checkSqn sqn).1 = true) (other : Sqn)
        (hother : other ∈ s.accepted) (hind : s.mng.ind other = s.mng.ind sqn) :
        s.mng.seq other < s.mng.seq sqn := by
      have hle := h other hother
      rw [SqnManager.storedSeq, hind] at hle
      exact hle.trans_lt (storedSeq_lt hcheck)
    refine ⟨fun hcheck => ?_, hincreasing, fun hcheck hmem => ?_, fun hstored hdelta => ?_⟩
    · rw [SqnCalls.call, hcheck]
      rw [checkSqn_fst] at hcheck
      rw [SqnManager.checkSqn, hcheck]
      rfl
    · exact absurd (hincreasing hcheck sqn hmem rfl) (Nat.lt_irrefl _)
    · rw [checkSqn_fst, SqnManager.isFresh_iff]
      refine ⟨hstored, ?_⟩
      unfold InOrder at horder
      split <;> omega

end SqnCalls

/-- All calls of a sequence are sound if and only if all its SEQs are in order. -/
theorem sqns_sound_iff (calls : List Sqn) (s : SqnCalls) :
    sqnSystem.StepsRun SqnCalls.Sound calls s ↔ sqnSystem.Run SqnCalls.InOrder calls s := by
  refine System.stepsRun_iff SqnCalls.bounded_of_run ?_
  intro s sqn t hbounded hstep
  rw [show t = s.call sqn from hstep]
  exact hbounded.sound_iff sqn

/-- The manager of the USIM, with indexes of 5 bits. -/
def usimSqnMng : SqnManager where
  indBitLen := 5
  wrappingDelta := (1 : UInt64) <<< (28 : UInt64)
  sqnArr := List.replicate 32 0
  bounds := by decide
  length := by decide

/-- Behind an SQN with SEQ 3 and index 0, one with SEQ 2 and index 1 is refused, for which no SQN
is kept. -/
theorem sqn_behind_greatest :
    ∃ s, sqnSystem.Run System.unrestricted [⟨#[0, 0, 0, 0, 0, 96], rfl⟩] s ∧
      ∃ sqn t, sqnSystem.step s sqn t ∧ ¬s.Sound sqn t := by
  refine ⟨SqnCalls.call ⟨usimSqnMng, []⟩ ⟨#[0, 0, 0, 0, 0, 96], rfl⟩, ?_,
    ⟨#[0, 0, 0, 0, 0, 65], rfl⟩, _, rfl, fun hsound => ?_⟩
  · exact .single ⟨⟨5, _, rfl⟩, rfl⟩ trivial rfl
  · have hcomplete := hsound.complete (by decide +kernel) (by decide +kernel)
    exact absurd hcomplete (by decide +kernel)

end Quicup.Ueransim
