import Quicup.Core.Cursor
import Quicup.Core.Memory

/-!
# Digits in octets

`ogs_bcd_to_buffer`, its variant with the other order of digits, and `ogs_buffer_to_bcd`, with
the buffers that they write.
-/

namespace Quicup.Open5gs

open Fallible Memory

variable {first second : UInt8 → UInt8}

/-! ## The functions -/

def lowDigit (c : UInt8) : UInt8 := (c - 0x30) &&& 0x0F

def highDigit (c : UInt8) : UInt8 := ((c - 0x30) <<< 4) &&& 0xF0

/-- The loop of both orders from character `i` on: an even character is written, an odd one is
put into the same octet. -/
def bcdLoop (first second : UInt8 → UInt8) :
    List UInt8 → Nat → List UInt8 → Except Fault (List UInt8)
  | [], _, out => return out
  | c :: rest, i, out =>
    match out[i / 2]? with
    | none => .error .outOfBounds
    | some octet => bcdLoop first second rest (i + 1)
        (out.set (i / 2) (if i % 2 = 1 then octet ||| second c else first c))

/-- The filler behind an odd number of characters. -/
def bcdFill (length : Nat) (out : List UInt8) : Except Fault (List UInt8) :=
  if length % 2 = 1 then
    match out[(length + 1) / 2 - 1]? with
    | none => .error .outOfBounds
    | some octet => return out.set ((length + 1) / 2 - 1) (octet ||| 0xF0)
  else return out

/-- The buffer behind both orders, with `out_len`. -/
def bcdPack (first second : UInt8 → UInt8) (str out : List UInt8) :
    Except Fault (List UInt8 × Nat) := do
  let out ← bcdLoop first second str 0 out
  let out ← bcdFill str.length out
  return (out, (str.length + 1) / 2)

/-- `ogs_bcd_to_buffer` -/
def ogsBcdToBuffer : List UInt8 → List UInt8 → Except Fault (List UInt8 × Nat) :=
  bcdPack lowDigit highDigit

/-- `ogs_bcd_to_buffer_reverse_order` -/
def ogsBcdToBufferReverseOrder : List UInt8 → List UInt8 → Except Fault (List UInt8 × Nat) :=
  bcdPack highDigit lowDigit

def lowChar (octet : UInt8) : UInt8 := (octet &&& 0x0F) + 0x30

def highChar (octet : UInt8) : UInt8 := ((octet &&& 0xF0) >>> 4) + 0x30

/-- The loop of `ogs_buffer_to_bcd` over so many octets from octet `i` on. -/
def bcdUnpackLoop (octets : List UInt8) : Nat → Nat → List UInt8 → Except Fault (List UInt8)
  | 0, _, out => return out
  | n + 1, i, out =>
    match octets[i]? with
    | none => .error .outOfBounds
    | some octet => do
      let out ← store .outOfBounds out (i * 2) [lowChar octet, highChar octet]
      bcdUnpackLoop octets n (i + 1) out

/-- The last octet, with the zero behind the characters. -/
def bcdUnpackLast (octets : List UInt8) (i : Nat) (out : List UInt8) : Except Fault (List UInt8) :=
  match octets[i]? with
  | none => .error .outOfBounds
  | some octet =>
    if octet &&& 0xF0 = 0xF0 then store .outOfBounds out (i * 2) [lowChar octet, 0]
    else store .outOfBounds out (i * 2) [lowChar octet, highChar octet, 0]

/-- `ogs_buffer_to_bcd` -/
def ogsBufferToBcd (octets : List UInt8) (inLen : Nat) (out : List UInt8) :
    Except Fault (List UInt8) :=
  bcdUnpackLoop octets (inLen - 1) 0 out >>= bcdUnpackLast octets (inLen - 1)

/-- The characters in front of the first zero. -/
def untilNul (out : List UInt8) : List UInt8 := out.takeWhile (· ≠ 0)

/-! ## Packing -/

/-- The octets for a string of characters. -/
def packed (first second : UInt8 → UInt8) : List UInt8 → List UInt8
  | [] => []
  | [a] => [first a ||| 0xF0]
  | a :: b :: rest => (first a ||| second b) :: packed first second rest

theorem length_packed (str : List UInt8) :
    (packed first second str).length = (str.length + 1) / 2 := by
  induction str using packed.induct with
  | case1 => rfl
  | case2 a => simp [packed]
  | case3 a b rest ih =>
    simp only [packed, List.length_cons, ih]
    omega

theorem set_middle (pre post : List UInt8) (x y : UInt8) :
    (pre ++ x :: post).set pre.length y = pre ++ y :: post := by
  rw [List.set_append_right _ _ (Nat.le_refl _), Nat.sub_self]
  rfl

theorem getElem?_middle (pre post : List UInt8) (x : UInt8) :
    (pre ++ x :: post)[pre.length]? = some x := by simp

theorem bcdLoop_eq (str : List UInt8) : ∀ pre tail : List UInt8, (str.length + 1) / 2 ≤ tail.length →
    (bcdLoop first second str (2 * pre.length) (pre ++ tail) >>=
        bcdFill (2 * pre.length + str.length)) =
      .ok (pre ++ (packed first second str ++ tail.drop ((str.length + 1) / 2))) := by
  induction str using packed.induct with
  | case1 =>
    intro pre tail _
    rw [bcdLoop, pure_bind, bcdFill, List.length_nil, if_neg (by omega)]
    rfl
  | case2 a =>
    intro pre tail htail
    rw [List.length_singleton] at htail
    obtain ⟨x, tail, rfl⟩ := List.exists_cons_of_length_pos (Nat.lt_of_lt_of_le Nat.one_pos htail)
    have hhalf : 2 * pre.length / 2 = pre.length := by omega
    have hlast : (2 * pre.length + 1 + 1) / 2 - 1 = pre.length := by omega
    rw [bcdLoop, hhalf, getElem?_middle]
    simp only
    rw [set_middle, if_neg (by omega), bcdLoop, pure_bind, bcdFill, List.length_singleton, hlast,
      if_pos (by omega), getElem?_middle]
    simp only
    rw [set_middle]
    rfl
  | case3 a b rest ih =>
    intro pre tail htail
    rw [List.length_cons, List.length_cons] at htail
    have hpos : 0 < tail.length := by omega
    obtain ⟨x, tail, rfl⟩ := List.exists_cons_of_length_pos hpos
    rw [List.length_cons] at htail
    have hhalf : 2 * pre.length / 2 = pre.length := by omega
    have hodd : (2 * pre.length + 1) / 2 = pre.length := by omega
    have hih := ih (pre ++ [first a ||| second b]) tail (by omega)
    rw [List.length_append, List.length_singleton, List.append_assoc, List.append_assoc, Nat.mul_add_one,
      Nat.add_assoc, Nat.add_comm 2 rest.length] at hih
    rw [bcdLoop, hhalf, getElem?_middle]
    simp only
    rw [set_middle, if_neg (by omega), bcdLoop, hodd, getElem?_middle]
    simp only
    rw [set_middle, if_pos (by omega)]
    have hdrop : (rest.length + 2 + 1) / 2 = (rest.length + 1) / 2 + 1 := by omega
    rw [packed, List.length_cons, List.length_cons, hdrop]
    exact hih

/-- Both orders write the octets to the front of a buffer that has room for them. -/
theorem bcdPack_eq {str out : List UInt8} (h : (str.length + 1) / 2 ≤ out.length) :
    bcdPack first second str out = .ok (packed first second str ++
      out.drop ((str.length + 1) / 2), (str.length + 1) / 2) := by
  have hloop := @bcdLoop_eq first second str [] out h
  rw [List.length_nil, Nat.mul_zero, Nat.zero_add, List.nil_append, List.nil_append] at hloop
  obtain ⟨looped, hlooped, hfill⟩ := bind_eq_ok.mp hloop
  rw [bcdPack, hlooped, ok_bind, hfill]
  rfl

/-! ## Digits -/

def digitChar (d : Fin 10) : UInt8 := 0x30 + .ofNat d.val

def digitString (ds : List (Fin 10)) : List UInt8 := ds.map digitChar

def swapNibbles (octet : UInt8) : UInt8 := octet <<< 4 ||| octet >>> 4

theorem unpack_pair (a b : Fin 10) :
    let octet := lowDigit (digitChar a) ||| highDigit (digitChar b)
    lowChar octet = digitChar a ∧ highChar octet = digitChar b ∧ octet &&& 0xF0 ≠ 0xF0 := by
  revert a b
  decide

theorem unpack_filled (a : Fin 10) :
    let octet := lowDigit (digitChar a) ||| 0xF0
    lowChar octet = digitChar a ∧ octet &&& 0xF0 = 0xF0 := by
  revert a
  decide

theorem digitChar_ne_zero (a : Fin 10) : digitChar a ≠ 0 := by
  revert a
  decide

theorem swapNibbles_pair (a b : Fin 10) :
    swapNibbles (lowDigit (digitChar a) ||| highDigit (digitChar b)) =
      (highDigit (digitChar a) ||| lowDigit (digitChar b)) := by
  revert a b
  decide

theorem swapNibbles_filled (a : Fin 10) :
    swapNibbles (lowDigit (digitChar a) ||| 0xF0) ≠ (highDigit (digitChar a) ||| 0xF0) := by
  revert a
  decide

/-- The other order exchanges the half octets of pairs, but not those of a last single digit. -/
theorem packed_swapped_iff : ∀ ds : List (Fin 10),
    packed highDigit lowDigit (digitString ds) =
        (packed lowDigit highDigit (digitString ds)).map swapNibbles ↔ ds.length % 2 = 0
  | [] => iff_of_true rfl rfl
  | [a] => by
    refine iff_of_false (fun h => ?_) Nat.one_ne_zero
    exact swapNibbles_filled a (List.head_eq_of_cons_eq h).symm
  | a :: b :: rest => by
    have ih := packed_swapped_iff rest
    have hlen : (rest.length + 1 + 1) % 2 = rest.length % 2 := by omega
    simp only [digitString, List.map_cons, packed, swapNibbles_pair, List.cons.injEq, true_and,
      List.length_cons, hlen]
    exact ih

/-! ## Unpacking -/

/-- The digits of an octet string are written behind those of the octets in front. -/
theorem bcdUnpack_eq : ∀ (ds : List (Fin 10)) (front back pre tail : List UInt8), ds ≠ [] →
    pre.length = front.length * 2 → ds.length + 1 ≤ tail.length →
    ∃ post, (bcdUnpackLoop (front ++ (packed lowDigit highDigit (digitString ds) ++ back))
          ((ds.length + 1) / 2 - 1) front.length (pre ++ tail) >>=
        bcdUnpackLast (front ++ (packed lowDigit highDigit (digitString ds) ++ back))
          (front.length + (ds.length + 1) / 2 - 1)) = .ok (pre ++ (digitString ds ++ 0 :: post))
  | [], _, _, _, _, hne, _, _ => absurd rfl hne
  | [a], front, back, pre, tail, _, hpre, htail => by
    obtain ⟨hlow, hfill⟩ := unpack_filled a
    obtain ⟨post, hstore, -⟩ := exists_store Fault.outOfBounds pre tail [digitChar a, 0] hpre htail
    refine ⟨post, ?_⟩
    have hat : (front ++ (packed lowDigit highDigit (digitString [a]) ++ back))[front.length]? =
        some (lowDigit (digitChar a) ||| 0xF0) := getElem?_middle front back _
    simp only [List.length_singleton, Nat.reduceAdd, Nat.reduceDiv, Nat.sub_self, bcdUnpackLoop,
      pure_bind, Nat.add_sub_cancel, bcdUnpackLast, hat, if_pos hfill, hlow]
    exact hstore
  | [a, b], front, back, pre, tail, _, hpre, htail => by
    obtain ⟨hlow, hhigh, hfill⟩ := unpack_pair a b
    obtain ⟨post, hstore, -⟩ :=
      exists_store Fault.outOfBounds pre tail [digitChar a, digitChar b, 0] hpre htail
    refine ⟨post, ?_⟩
    have hat : (front ++ (packed lowDigit highDigit (digitString [a, b]) ++ back))[front.length]? =
        some (lowDigit (digitChar a) ||| highDigit (digitChar b)) := getElem?_middle front back _
    simp only [List.length_cons, List.length_nil, Nat.zero_add, Nat.reduceAdd, Nat.reduceDiv,
      Nat.sub_self, bcdUnpackLoop, pure_bind, Nat.add_sub_cancel, bcdUnpackLast, hat, if_neg hfill,
      hlow, hhigh]
    exact hstore
  | a :: b :: c :: rest, front, back, pre, tail, _, hpre, htail => by
    obtain ⟨hlow, hhigh, -⟩ := unpack_pair a b
    rw [List.length_cons, List.length_cons] at htail
    obtain ⟨tail', hstore, hroom⟩ := exists_store Fault.outOfBounds pre tail
      [digitChar a, digitChar b] hpre (by simp only [List.length_cons, List.length_nil]; omega)
    simp only [List.length_cons, List.length_nil] at hroom htail
    obtain ⟨post, hih⟩ := bcdUnpack_eq (c :: rest)
      (front ++ [lowDigit (digitChar a) ||| highDigit (digitChar b)]) back
      (pre ++ [digitChar a, digitChar b]) tail' (List.cons_ne_nil c rest)
      (by simp only [List.length_append, List.length_cons, List.length_nil]; omega)
      (by rw [List.length_cons]; omega)
    refine ⟨post, ?_⟩
    have hat : (front ++ (packed lowDigit highDigit (digitString (a :: b :: c :: rest)) ++
        back))[front.length]? = some (lowDigit (digitChar a) ||| highDigit (digitChar b)) :=
      getElem?_middle front _ _
    have hcount : ((a :: b :: c :: rest).length + 1) / 2 - 1 =
        ((c :: rest).length + 1) / 2 - 1 + 1 := by
      simp only [List.length_cons]
      omega
    have hlast : front.length + ((a :: b :: c :: rest).length + 1) / 2 - 1 =
        front.length + 1 + ((c :: rest).length + 1) / 2 - 1 := by
      simp only [List.length_cons]
      omega
    rw [hcount, hlast, bcdUnpackLoop, hat]
    simp only [hlow, hhigh, hstore, ok_bind]
    rw [List.length_append, List.length_singleton, List.append_assoc, List.append_assoc,
      List.append_assoc] at hih
    exact hih

/-! ## The law -/

/-- The octets for the digits, in a buffer that has room for them, are read as the digits. -/
def BcdReturns (ds : List (Fin 10)) : Prop :=
  ∀ out str : List UInt8, (ds.length + 1) / 2 ≤ out.length → ds.length + 1 ≤ str.length →
    ∃ octets n filled, ogsBcdToBuffer (digitString ds) out = .ok (octets, n) ∧
      ogsBufferToBcd octets n str = .ok filled ∧ untilNul filled = digitString ds

/-- The two orders give octets that differ in the order of their half octets. -/
def BcdSwapped (ds : List (Fin 10)) : Prop :=
  ∀ out out' : List UInt8, (ds.length + 1) / 2 ≤ out.length → (ds.length + 1) / 2 ≤ out'.length →
    ∃ octets octets' n, ogsBcdToBuffer (digitString ds) out = .ok (octets, n) ∧
      ogsBcdToBufferReverseOrder (digitString ds) out' = .ok (octets', n) ∧
      octets'.take n = (octets.take n).map swapNibbles

theorem length_digitString (ds : List (Fin 10)) : (digitString ds).length = ds.length :=
  List.length_map _

theorem pack_digits {ds : List (Fin 10)} {out : List UInt8}
    (h : (ds.length + 1) / 2 ≤ out.length) :
    bcdPack first second (digitString ds) out = .ok (packed first second (digitString ds) ++
      out.drop ((ds.length + 1) / 2), (ds.length + 1) / 2) := by
  have hpack := @bcdPack_eq first second (digitString ds) out (by rwa [length_digitString])
  rwa [length_digitString] at hpack

theorem not_bcdReturns_nil : ¬BcdReturns [] := by
  intro h
  obtain ⟨octets, n, filled, hpack, hunpack, hstr⟩ := h [0] [0, 0, 0] (by decide) (by decide)
  cases hpack
  cases hunpack
  exact absurd hstr (by decide)

theorem bcdReturns_iff (ds : List (Fin 10)) : BcdReturns ds ↔ ds ≠ [] := by
  constructor
  · rintro h rfl
    exact not_bcdReturns_nil h
  · intro hds out str hout hstr
    obtain ⟨post, hunpack⟩ := bcdUnpack_eq ds [] (out.drop ((ds.length + 1) / 2)) [] str hds rfl hstr
    refine ⟨_, _, digitString ds ++ 0 :: post, pack_digits hout, ?_, ?_⟩
    · rw [List.length_nil, List.nil_append, List.nil_append, List.nil_append, Nat.zero_add] at hunpack
      exact hunpack
    · have hdigits : ∀ c ∈ digitString ds, decide (c ≠ 0) = true := by
        intro c hc
        obtain ⟨d, -, rfl⟩ := List.mem_map.mp hc
        exact decide_eq_true (digitChar_ne_zero d)
      rw [untilNul, List.takeWhile_append_of_pos hdigits]
      simp

theorem bcdSwapped_iff (ds : List (Fin 10)) : BcdSwapped ds ↔ ds.length % 2 = 0 := by
  have htake (f g : UInt8 → UInt8) (rest : List UInt8) :
      (packed f g (digitString ds) ++ rest).take ((ds.length + 1) / 2) =
        packed f g (digitString ds) :=
    List.take_left' (by rw [length_packed, length_digitString])
  rw [← packed_swapped_iff]
  constructor
  · intro h
    obtain ⟨octets, octets', n, hpack, hpack', hswap⟩ :=
      h (.replicate ((ds.length + 1) / 2) 0) (.replicate ((ds.length + 1) / 2) 0)
        (by rw [List.length_replicate]) (by rw [List.length_replicate])
    have hroom : (ds.length + 1) / 2 ≤ (List.replicate ((ds.length + 1) / 2) (0 : UInt8)).length := by
      rw [List.length_replicate]
    obtain ⟨rfl, rfl⟩ := Prod.mk.inj (Except.ok.inj ((pack_digits hroom).symm.trans hpack))
    obtain ⟨rfl, -⟩ := Prod.mk.inj (Except.ok.inj ((pack_digits hroom).symm.trans hpack'))
    rwa [htake, htake] at hswap
  · intro h out out' hout hout'
    refine ⟨_, _, _, pack_digits hout, pack_digits hout', ?_⟩
    rw [htake, htake, h]

/-- What is packed is unpacked again unless it is empty, and the other order exchanges the half
octets of each octet just for an even number of digits. -/
theorem bcd_orders_iff (ds : List (Fin 10)) :
    (BcdReturns ds ↔ ds ≠ []) ∧ (BcdSwapped ds ↔ ds.length % 2 = 0) :=
  ⟨bcdReturns_iff ds, bcdSwapped_iff ds⟩

/-- No digit, and a single one. -/
theorem not_bcd_orders : ¬BcdReturns [] ∧ ¬BcdSwapped [7] := by
  refine ⟨not_bcdReturns_nil, fun h => ?_⟩
  exact absurd ((bcdSwapped_iff [7]).mp h) (by decide)

end Quicup.Open5gs
