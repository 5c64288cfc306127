import Mathlib.Data.Nat.Bitwise
import Quicup.Core.Cursor

/-!
# Octet strings as strings of bits

An octet holds eight bits, the most significant one first. Bits are written over the bits that
stand at a position, one by one and wherever an octet ends.
-/

namespace Quicup.BitString

/-! ## Single bits -/

/-- The bit at a position. -/
def bitOf (octets : List UInt8) (i : Nat) : Bool := (octets.getD (i / 8) 0).toNat.testBit (7 - i % 8)

/-- An octet with its bit of weight `2 ^ k` replaced. -/
def replaceBit (x : UInt8) (k : Nat) (b : Bool) : UInt8 :=
  .ofNat (if b then x.toNat ||| 2 ^ k else x.toNat &&& (255 ^^^ 2 ^ k))

/-- The octets with one bit replaced. -/
def setBit (octets : List UInt8) (i : Nat) (b : Bool) : List UInt8 :=
  octets.modify (i / 8) (replaceBit · (7 - i % 8) b)

variable {octets : List UInt8} {i j n : Nat} {b : Bool} {bits : List Bool}

theorem testBit_replaceBit (x : UInt8) {k j : Nat} (hj : j < 8) :
    (replaceBit x k b).toNat.testBit j = if j = k then b else x.toNat.testBit j := by
  have hoctet : (255 : Nat).testBit j = true := by
    rw [show (255 : Nat) = 2 ^ 8 - 1 from rfl, Nat.testBit_two_pow_sub_one, decide_eq_true hj]
  rw [replaceBit, UInt8.toNat_ofNat', Nat.testBit_mod_two_pow, decide_eq_true hj, Bool.true_and]
  cases b with
  | true =>
    rw [if_pos rfl, Nat.testBit_or, Nat.testBit_two_pow]
    by_cases hjk : j = k
    · simp [hjk]
    · simp [hjk, Ne.symm hjk]
  | false =>
    rw [if_neg Bool.false_ne_true, Nat.testBit_and, Nat.testBit_xor, hoctet, Nat.testBit_two_pow]
    by_cases hjk : j = k
    · simp [hjk]
    · simp [hjk, Ne.symm hjk]

@[simp] theorem length_setBit : (setBit octets i b).length = octets.length := List.length_modify ..

/-- Only the bit at the position changes. -/
theorem bitOf_setBit (hi : i / 8 < octets.length) :
    bitOf (setBit octets i b) j = if j = i then b else bitOf octets j := by
  have hposition : j = i ↔ j / 8 = i / 8 ∧ 7 - j % 8 = 7 - i % 8 := by omega
  rw [bitOf, bitOf, setBit, List.getD_eq_getElem?_getD, List.getD_eq_getElem?_getD]
  by_cases hoctet : i / 8 = j / 8
  · rw [← hoctet, List.getElem?_modify_eq, List.getElem?_eq_getElem hi, Option.map_eq_map,
      Option.map_some, Option.getD_some, testBit_replaceBit _ (by omega)]
    by_cases hbit : 7 - j % 8 = 7 - i % 8
    · rw [if_pos hbit, if_pos (hposition.mpr ⟨hoctet.symm, hbit⟩)]
    · rw [if_neg hbit, if_neg fun h => hbit (hposition.mp h).2]
      rfl
  · rw [List.getElem?_modify_ne _ _ hoctet, if_neg fun h => hoctet (hposition.mp h).1.symm]

/-- The octets behind the one that a bit stands in are left as they are. -/
theorem drop_setBit (hi : i / 8 < n) : (setBit octets i b).drop n = octets.drop n := by
  apply List.ext_getElem?
  intro k
  rw [List.getElem?_drop, List.getElem?_drop, setBit, List.getElem?_modify_ne _ _ (by omega)]

theorem bitOf_take (hi : i / 8 < n) : bitOf (octets.take n) i = bitOf octets i := by
  rw [bitOf, bitOf, List.getD_eq_getElem?_getD, List.getD_eq_getElem?_getD,
    List.getElem?_take_of_lt hi]

/-! ## Strings of bits -/

/-- Bits written from a position on. -/
def overwrite (octets : List UInt8) : Nat → List Bool → List UInt8
  | _, [] => octets
  | i, b :: bits => overwrite (setBit octets i b) (i + 1) bits

/-- The octets have the bits from a position on. -/
def Spells (octets : List UInt8) : Nat → List Bool → Prop
  | _, [] => True
  | i, b :: bits => i / 8 < octets.length ∧ bitOf octets i = b ∧ Spells octets (i + 1) bits

@[simp] theorem length_overwrite : (overwrite octets i bits).length = octets.length := by
  induction bits generalizing octets i with
  | nil => rfl
  | cons b bits ih => rw [overwrite, ih, length_setBit]

theorem overwrite_append (more : List Bool) :
    overwrite octets i (bits ++ more) =
      overwrite (overwrite octets i bits) (i + bits.length) more := by
  induction bits generalizing octets i with
  | nil => rfl
  | cons b bits ih =>
    rw [List.cons_append, overwrite, ih, overwrite, List.length_cons, Nat.add_right_comm,
      Nat.add_assoc]

/-- The bits in front of a position are left as they are. -/
theorem bitOf_overwrite_of_lt (hroom : i + bits.length ≤ 8 * octets.length) (hj : j < i) :
    bitOf (overwrite octets i bits) j = bitOf octets j := by
  induction bits generalizing octets i with
  | nil => rfl
  | cons b bits ih =>
    rw [List.length_cons] at hroom
    rw [overwrite, ih (by rw [length_setBit]; omega) (by omega), bitOf_setBit (by omega),
      if_neg (by omega)]

/-- What is written stands there. -/
theorem spells_overwrite (hroom : i + bits.length ≤ 8 * octets.length) :
    Spells (overwrite octets i bits) i bits := by
  induction bits generalizing octets i with
  | nil => trivial
  | cons b bits ih =>
    rw [List.length_cons] at hroom
    have hrest : i + 1 + bits.length ≤ 8 * (setBit octets i b).length := by
      rw [length_setBit]
      omega
    refine ⟨?_, ?_, ih hrest⟩
    · rw [length_overwrite]
      omega
    · rw [overwrite, bitOf_overwrite_of_lt hrest (Nat.lt_succ_self i), bitOf_setBit (by omega),
        if_pos rfl]

theorem drop_overwrite (hn : i + bits.length ≤ 8 * n) :
    (overwrite octets i bits).drop n = octets.drop n := by
  induction bits generalizing octets i with
  | nil => rfl
  | cons b bits ih =>
    rw [List.length_cons] at hn
    rw [overwrite, ih (by omega), drop_setBit (by omega)]

theorem spells_append {more : List Bool} :
    Spells octets i (bits ++ more) ↔ Spells octets i bits ∧ Spells octets (i + bits.length) more := by
  induction bits generalizing i with
  | nil => exact (iff_of_eq (true_and _)).symm
  | cons b bits ih =>
    rw [List.cons_append, Spells, Spells, ih, List.length_cons, Nat.add_right_comm, and_assoc,
      and_assoc, Nat.add_assoc]

/-- The bits stand in the first octets already. -/
theorem Spells.take (h : Spells octets i bits) (hn : i + bits.length ≤ 8 * n) :
    Spells (octets.take n) i bits := by
  induction bits generalizing i with
  | nil => trivial
  | cons b bits ih =>
    rw [List.length_cons] at hn
    obtain ⟨hlt, hbit, hrest⟩ := h
    refine ⟨?_, ?_, ih hrest (by omega)⟩
    · rw [List.length_take]
      omega
    · rw [bitOf_take (by omega), hbit]

/-! ## Numbers -/

/-- The `n` low bits of a number, the most significant one first. -/
def bitsBE : Nat → Nat → List Bool
  | 0, _ => []
  | n + 1, v => v.testBit n :: bitsBE n v

/-- A number that further bits are shifted into. -/
def shiftIn (acc : Nat) (bits : List Bool) : Nat :=
  bits.foldl (fun acc b => acc <<< 1 ||| b.toNat) acc

@[simp] theorem length_bitsBE (n v : Nat) : (bitsBE n v).length = n := by
  induction n with
  | zero => rfl
  | succ n ih => rw [bitsBE, List.length_cons, ih]

/-- The bits of a number are shifted in behind what was there before. -/
theorem shiftIn_bitsBE (acc n v : Nat) : shiftIn acc (bitsBE n v) = acc * 2 ^ n + v % 2 ^ n := by
  induction n generalizing acc with
  | zero => rw [bitsBE, Nat.pow_zero, Nat.mul_one, Nat.mod_one]; rfl
  | succ n ih =>
    have hbit : (v.testBit n).toNat < 2 ^ 1 := by cases v.testBit n <;> decide
    have hweight : (v.testBit n).toNat = v / 2 ^ n % 2 := Nat.toNat_testBit v n
    change shiftIn (acc <<< 1 ||| (v.testBit n).toNat) (bitsBE n v) = _
    rw [ih, ← Nat.shiftLeft_add_eq_or_of_lt hbit, Nat.shiftLeft_eq, hweight, Nat.mod_pow_succ]
    ring

end Quicup.BitString
