import Mathlib.Data.Nat.Bitwise
import Mathlib.Order.Basic

/-!
# Counts of which an octet is sent

A count of 24 bits whose low octet is a sequence number that goes along with each message,
and whose high octets are kept on both sides. The side that receives estimates the count as the
first one with the sequence number that is not below the count it has.
-/

namespace Quicup

structure SplitCount where
  overflow : UInt16 := 0
  sqn : UInt8 := 0
  deriving DecidableEq

namespace SplitCount

def toUInt32 (count : SplitCount) : UInt32 := (count.overflow.toUInt32 <<< 8) ||| count.sqn.toUInt32

/-- The number of 24 bits. -/
def toNat (count : SplitCount) : Nat := count.overflow.toNat * 256 + count.sqn.toNat

/-- The count behind another one. -/
def next (count : SplitCount) : SplitCount :=
  let sqn := count.sqn + 1
  { overflow := if sqn = 0 then count.overflow + 1 else count.overflow, sqn }

/-- The count before another one. -/
def back (count : SplitCount) : SplitCount :=
  if count.sqn = 0 then
    { overflow := if count.overflow = 0 then 0xFFFF else count.overflow - 1, sqn := 0xFF }
  else { count with sqn := count.sqn - 1 }

/-- The count with a sequence number that is not below another count. -/
def estimate (count : SplitCount) (sequenceNumber : UInt8) : SplitCount where
  overflow := if sequenceNumber < count.sqn then count.overflow + 1 else count.overflow
  sqn := sequenceNumber

/-- The last count. -/
def last : SplitCount := ⟨0xFFFF, 0xFF⟩

theorem toNat_lt (count : SplitCount) : count.toNat < 2 ^ 24 := by
  have hoverflow := count.overflow.toNat_lt
  have hsqn := count.sqn.toNat_lt
  unfold toNat
  omega

theorem toNat_le_last (count : SplitCount) : count.toNat ≤ last.toNat := by
  have hlast : last.toNat = 2 ^ 24 - 1 := by decide
  have hlt := count.toNat_lt
  omega

variable {count other : SplitCount} {sequenceNumber : UInt8}

theorem toNat_inj : count.toNat = other.toNat ↔ count = other := by
  constructor
  · intro h
    have hsqn := count.sqn.toNat_lt
    have hsqn' := other.sqn.toNat_lt
    unfold toNat at h
    have hoverflow : count.overflow = other.overflow := UInt16.toNat_inj.mp (by omega)
    have hsame : count.sqn = other.sqn := UInt8.toNat_inj.mp (by omega)
    cases count
    cases other
    simp_all
  · rintro rfl
    rfl

theorem toNat_toUInt32 (count : SplitCount) : count.toUInt32.toNat = count.toNat := by
  have hoverflow := count.overflow.toNat_lt
  have hsqn := count.sqn.toNat_lt
  have hshift : (count.overflow.toUInt32 <<< 8).toNat = count.overflow.toNat <<< 8 := by
    rw [UInt32.toNat_shiftLeft, UInt16.toNat_toUInt32, Nat.shiftLeft_eq]
    change count.overflow.toNat * 2 ^ 8 % 2 ^ 32 = _
    rw [Nat.shiftLeft_eq, Nat.mod_eq_of_lt (by omega)]
  rw [toUInt32, UInt32.toNat_or, hshift, UInt8.toNat_toUInt32,
    ← Nat.shiftLeft_add_eq_or_of_lt hsqn, Nat.shiftLeft_eq, toNat]

private theorem sqn_add_one (sqn : UInt8) :
    (sqn + 1 = 0 ∧ sqn.toNat = 255) ∨
      (sqn + 1 ≠ 0 ∧ sqn.toNat < 255 ∧ (sqn + 1).toNat = sqn.toNat + 1) := by
  have hlt := sqn.toNat_lt
  have hadd : (sqn + 1).toNat = (sqn.toNat + 1) % 256 := UInt8.toNat_add ..
  have hzero : sqn + 1 = 0 ↔ (sqn + 1).toNat = 0 := UInt8.toNat_inj.symm
  rw [ne_eq, hzero]
  omega

private theorem overflow_add_one {overflow : UInt16} (h : overflow ≠ 0xFFFF) :
    (overflow + 1).toNat = overflow.toNat + 1 := by
  have hlt := overflow.toNat_lt
  have hadd : (overflow + 1).toNat = (overflow.toNat + 1) % 65536 := UInt16.toNat_add ..
  have hlast : overflow.toNat ≠ 65535 := fun heq => h (UInt16.toNat_inj.mp heq)
  omega

theorem toNat_next (h : count ≠ last) : count.next.toNat = count.toNat + 1 := by
  unfold next toNat
  rcases sqn_add_one count.sqn with ⟨hzero, hsqn⟩ | ⟨hzero, hsqn, hadd⟩
  · have hoverflow : count.overflow ≠ 0xFFFF := by
      intro heq
      apply h
      rw [← toNat_inj, toNat, heq, hsqn]
      rfl
    simp only [hzero, if_true]
    rw [overflow_add_one hoverflow, hsqn]
    change (count.overflow.toNat + 1) * 256 + 0 = _
    omega
  · simp only [hzero, if_false]
    rw [hadd, Nat.add_assoc]

theorem back_next (count : SplitCount) : count.next.back = count := by
  unfold next back
  rcases sqn_add_one count.sqn with ⟨hzero, hsqn⟩ | ⟨hzero, hsqn, hadd⟩
  · have hsqn' : count.sqn = 0xFF := UInt8.toNat_inj.mp hsqn
    have hoverflow : (if count.overflow + 1 = 0 then 0xFFFF else count.overflow + 1 - 1) =
        count.overflow := by
      split
      · next h =>
        have hback : count.overflow + 1 - 1 = 0 - 1 := congrArg (· - 1) h
        rw [UInt16.add_sub_cancel] at hback
        exact hback.symm
      · exact UInt16.add_sub_cancel ..
    simp only [hzero, if_true]
    rw [hoverflow, ← hsqn']
  · simp [hzero]

/-- The estimated count is the first one with the sequence number that is not below. -/
theorem toNat_estimate (h : sequenceNumber < count.sqn → count.overflow ≠ 0xFFFF) :
    (count.estimate sequenceNumber).toNat =
      count.toNat + (sequenceNumber.toNat + 256 - count.sqn.toNat) % 256 := by
  have hsqn := count.sqn.toNat_lt
  have hseq := sequenceNumber.toNat_lt
  unfold estimate toNat
  by_cases hlt : sequenceNumber < count.sqn
  · simp only [hlt, if_true]
    rw [overflow_add_one (h hlt)]
    rw [UInt8.lt_iff_toNat_lt] at hlt
    omega
  · simp only [hlt, if_false]
    rw [UInt8.lt_iff_toNat_lt] at hlt
    omega

theorem estimate_eq_self_iff :
    count.estimate sequenceNumber = count ↔ sequenceNumber = count.sqn := by
  constructor
  · exact congrArg sqn
  · rintro rfl
    simp [estimate]

/-- The estimated count is above another one unless the number is the same or the counts wrap. -/
theorem toNat_lt_estimate_iff :
    count.toNat < (count.estimate sequenceNumber).toNat ↔
      sequenceNumber ≠ count.sqn ∧ (sequenceNumber < count.sqn → count.overflow ≠ 0xFFFF) := by
  have hsqn := count.sqn.toNat_lt
  have hseq := sequenceNumber.toNat_lt
  constructor
  · intro hlt
    refine ⟨fun heq => ?_, fun hbelow hlast => ?_⟩
    · rw [estimate_eq_self_iff.mpr heq] at hlt
      omega
    · unfold estimate toNat at hlt
      have hwraps : (0xFFFF + 1 : UInt16).toNat = 0 := rfl
      have hgreatest : (0xFFFF : UInt16).toNat = 65535 := rfl
      simp only [if_pos hbelow, hlast, hwraps, hgreatest] at hlt
      omega
  · rintro ⟨hne, hlast⟩
    have hne' : sequenceNumber.toNat ≠ count.sqn.toNat := fun heq => hne (UInt8.toNat_inj.mp heq)
    rw [toNat_estimate hlast]
    omega

/-- A count of which an octet was sent is the estimated one, unless 256 counts have passed. -/
theorem estimate_eq (hlt : count.toNat < other.toNat) (hle : other.toNat ≤ count.toNat + 255) :
    count.estimate other.sqn = other := by
  have hsqn := count.sqn.toNat_lt
  have hsqn' := other.sqn.toNat_lt
  have hother := other.overflow.toNat_lt
  have hlast : other.sqn < count.sqn → count.overflow ≠ 0xFFFF := by
    intro hbelow heq
    have hoverflow : count.overflow.toNat = 65535 := congrArg UInt16.toNat heq
    rw [UInt8.lt_iff_toNat_lt] at hbelow
    unfold toNat at hlt
    omega
  rw [← toNat_inj, toNat_estimate hlast]
  unfold toNat at hlt hle ⊢
  omega

/-! ## Numbers as counts -/

def ofNat (n : Nat) : SplitCount := ⟨.ofNat (n / 256), .ofNat n⟩

theorem toNat_ofNat {n : Nat} (h : n < 2 ^ 24) : (ofNat n).toNat = n := by
  rw [toNat, ofNat, UInt16.toNat_ofNat', UInt8.toNat_ofNat']
  omega

theorem sqn_ofNat (n : UInt32) : (ofNat n.toNat).sqn = (n &&& 0xFF).toUInt8 := by
  have hand : (n &&& 0xFF).toNat = n.toNat % 256 := Nat.and_two_pow_sub_one_eq_mod n.toNat 8
  rw [← UInt8.toNat_inj, UInt32.toNat_toUInt8, hand, ofNat, UInt8.toNat_ofNat']
  omega

theorem toUInt32_ofNat {n : UInt32} (h : n.toNat < 2 ^ 24) : (ofNat n.toNat).toUInt32 = n := by
  rw [← UInt32.toNat_inj, toNat_toUInt32, toNat_ofNat h]

/-! ## The first counts -/

theorem first_estimate (sequenceNumber : UInt8) :
    ({} : SplitCount).estimate sequenceNumber = ⟨0, sequenceNumber⟩ := by
  have hnot : ¬sequenceNumber < 0 := by simp
  simp only [estimate, if_neg hnot]

theorem first_estimate_eq_iff :
    ({} : SplitCount).estimate sequenceNumber = count ↔
      count.overflow = 0 ∧ sequenceNumber = count.sqn := by
  rw [first_estimate]
  cases count
  simp [eq_comm]

theorem toNat_lt_first_estimate_iff :
    count.toNat < (({} : SplitCount).estimate sequenceNumber).toNat ↔
      count.overflow = 0 ∧ count.sqn < sequenceNumber := by
  have hseq := sequenceNumber.toNat_lt
  have hzero : count.overflow = 0 ↔ count.overflow.toNat = 0 := UInt16.toNat_inj.symm
  have hnumber : (⟨0, sequenceNumber⟩ : SplitCount).toNat = sequenceNumber.toNat := by simp [toNat]
  rw [first_estimate, hzero, UInt8.lt_iff_toNat_lt, hnumber]
  unfold toNat
  omega

end SplitCount

end Quicup
