import Mathlib.Data.Nat.Bitwise

/-!
# Byte order

Words whose octets are swapped, as a host does with numbers that come from the network,
and single bits of words as facts of arithmetic.
-/

namespace Quicup

/-- The two octets of a word in the other order. -/
def swap16 (w : UInt16) : UInt16 := .ofNat (w.toNat % 256 * 256 + w.toNat / 256)

variable {a b c d l k n x y z v i e f g h s0 s1 s2 s3 : Nat} {w : UInt32}

/-- The octets of a word, the lowest first. -/
theorem toNat_swap16 {w : UInt16} (hw : w.toNat = a + 256 * b) (ha : a < 256) (hb : b < 256) :
    (swap16 w).toNat = b + 256 * a := by
  have hlow : w.toNat % 256 = a := by omega
  have hhigh : w.toNat / 256 = b := by omega
  rw [swap16, hlow, hhigh, UInt16.toNat_ofNat']
  omega

theorem swap16_swap16 (w : UInt16) : swap16 (swap16 w) = w := by
  have hw := w.toNat_lt
  have hdigits : w.toNat = w.toNat % 256 + 256 * (w.toNat / 256) := by omega
  apply UInt16.toNat.inj
  have hswap := toNat_swap16 hdigits (by omega) (by omega)
  rw [toNat_swap16 hswap (by omega) (by omega)]
  exact hdigits.symm

/-- The four octets of a word in the other order. -/
def swap32 (w : UInt32) : UInt32 :=
  .ofNat (w.toNat % 256 * 2 ^ 24 + w.toNat / 2 ^ 8 % 256 * 2 ^ 16 + w.toNat / 2 ^ 16 % 256 * 2 ^ 8 +
    w.toNat / 2 ^ 24)

theorem toNat_swap32 (hw : w.toNat = a + 2 ^ 8 * b + 2 ^ 16 * c + 2 ^ 24 * d) (ha : a < 256)
    (hb : b < 256) (hc : c < 256) (hd : d < 256) :
    (swap32 w).toNat = d + 2 ^ 8 * c + 2 ^ 16 * b + 2 ^ 24 * a := by
  have h₀ : w.toNat % 256 = a := by omega
  have h₁ : w.toNat / 2 ^ 8 % 256 = b := by omega
  have h₂ : w.toNat / 2 ^ 16 % 256 = c := by omega
  have h₃ : w.toNat / 2 ^ 24 = d := by omega
  rw [swap32, h₀, h₁, h₂, h₃, UInt32.toNat_ofNat']
  omega

/-- Every word has four octets. -/
theorem exists_octets (w : UInt32) :
    ∃ a b c d, w.toNat = a + 2 ^ 8 * b + 2 ^ 16 * c + 2 ^ 24 * d ∧ a < 256 ∧ b < 256 ∧ c < 256 ∧
      d < 256 := by
  have hw := w.toNat_lt
  refine ⟨w.toNat % 256, w.toNat / 2 ^ 8 % 256, w.toNat / 2 ^ 16 % 256, w.toNat / 2 ^ 24, ?_⟩
  omega

theorem swap32_swap32 (w : UInt32) : swap32 (swap32 w) = w := by
  obtain ⟨a, b, c, d, hw, ha, hb, hc, hd⟩ := exists_octets w
  apply UInt32.toNat.inj
  rw [toNat_swap32 (toNat_swap32 hw ha hb hc hd) hd hc hb ha, hw]

theorem toNat_swap32_not (w : UInt32) :
    (swap32 (~~~w)).toNat = 2 ^ 32 - 1 - (swap32 w).toNat := by
  obtain ⟨a, b, c, d, hw, ha, hb, hc, hd⟩ := exists_octets w
  have hnot : (~~~w).toNat = (255 - a) + 2 ^ 8 * (255 - b) + 2 ^ 16 * (255 - c) +
      2 ^ 24 * (255 - d) := by
    rw [UInt32.toNat_not, show UInt32.size = 2 ^ 32 from rfl, hw]
    omega
  rw [toNat_swap32 hnot (by omega) (by omega) (by omega) (by omega), toNat_swap32 hw ha hb hc hd]
  omega

/-! ## Sums of swapped words

A swapped number that is added to a swapped number carries from the high octets to the
low ones. The sum is that of the numbers as long as no octet carries. -/

/-- No octet of the sum carries. -/
def CarryFree (l k : Nat) : Prop := ∀ i < 4, l / 256 ^ i % 256 + k / 256 ^ i % 256 < 256

/-- The numbers agree in the octets left of the last nonzero octet of the first. -/
def AgreeLeft (l h : Nat) : Prop :=
  ∀ i < 4, l % 256 ^ (i + 1) ≠ 0 → l / 256 ^ (i + 1) = h / 256 ^ (i + 1)

instance (l k : Nat) : Decidable (CarryFree l k) :=
  inferInstanceAs (Decidable (∀ i < 4, l / 256 ^ i % 256 + k / 256 ^ i % 256 < 256))

instance (l h : Nat) : Decidable (AgreeLeft l h) :=
  inferInstanceAs (Decidable (∀ i < 4, l % 256 ^ (i + 1) ≠ 0 →
    l / 256 ^ (i + 1) = h / 256 ^ (i + 1)))

theorem carryFree_iff : CarryFree l k ↔
    l % 256 + k % 256 < 256 ∧ l / 2 ^ 8 % 256 + k / 2 ^ 8 % 256 < 256 ∧
      l / 2 ^ 16 % 256 + k / 2 ^ 16 % 256 < 256 ∧ l / 2 ^ 24 % 256 + k / 2 ^ 24 % 256 < 256 := by
  constructor
  · intro h
    have h0 := h 0 (by decide)
    rw [Nat.pow_zero, Nat.div_one, Nat.div_one] at h0
    exact ⟨h0, h 1 (by decide), h 2 (by decide), h 3 (by decide)⟩
  · rintro ⟨h0, h1, h2, h3⟩ i hi
    match i with
    | 0 => rwa [Nat.pow_zero, Nat.div_one, Nat.div_one]
    | 1 => exact h1
    | 2 => exact h2
    | 3 => exact h3

/-- The octets of a number. -/
theorem octets_eq (hn : n = a + 2 ^ 8 * b + 2 ^ 16 * c + 2 ^ 24 * d) (ha : a < 256) (hb : b < 256)
    (hc : c < 256) (hd : d < 256) :
    n % 256 = a ∧ n / 2 ^ 8 % 256 = b ∧ n / 2 ^ 16 % 256 = c ∧ n / 2 ^ 24 % 256 = d := by
  omega

/-- A sum is an octet and a carry. -/
private theorem exists_carry (n : Nat) : ∃ s y, n = s + 256 * y ∧ s < 256 :=
  ⟨n % 256, n / 256, (Nat.mod_add_div _ _).symm, Nat.mod_lt _ (by decide)⟩

private theorem sum_octets (hs0 : d + h = s0 + 256 * x) (hs1 : c + g + x = s1 + 256 * y)
    (hs2 : b + f + y = s2 + 256 * z) (hs3 : a + e + z = s3 + 256 * v) :
    d + 2 ^ 8 * c + 2 ^ 16 * b + 2 ^ 24 * a + (h + 2 ^ 8 * g + 2 ^ 16 * f + 2 ^ 24 * e) =
      s0 + 2 ^ 8 * s1 + 2 ^ 16 * s2 + 2 ^ 24 * s3 + 2 ^ 32 * v := by
  omega

private theorem octets_lt (ha : a < 256) (hb : b < 256) (hc : c < 256) (hd : d < 256) :
    a + 2 ^ 8 * b + 2 ^ 16 * c + 2 ^ 24 * d < 2 ^ 32 := by
  omega

private theorem carries_zero (h : 256 * v + 65535 * z + 16776960 * y + 4294901760 * x = 0) :
    x = 0 ∧ y = 0 ∧ z = 0 ∧ v = 0 := by omega

/-- The octets of a sum from the other end are those of the sum of the numbers exactly
when there is no carry. -/
private theorem sum_eq_iff (hs0 : d + h = s0 + 256 * x) (hs1 : c + g + x = s1 + 256 * y)
    (hs2 : b + f + y = s2 + 256 * z) (hs3 : a + e + z = s3 + 256 * v) (hb0 : s0 < 256)
    (hb1 : s1 < 256) (hb2 : s2 < 256) (hb3 : s3 < 256) :
    s3 + 2 ^ 8 * s2 + 2 ^ 16 * s1 + 2 ^ 24 * s0 =
        a + 2 ^ 8 * b + 2 ^ 16 * c + 2 ^ 24 * d + (e + 2 ^ 8 * f + 2 ^ 16 * g + 2 ^ 24 * h) ↔
      a + e < 256 ∧ b + f < 256 ∧ c + g < 256 ∧ d + h < 256 := by
  constructor
  · intro heq
    have hzero : 256 * v + 65535 * z + 16776960 * y + 4294901760 * x = 0 := by omega
    obtain ⟨rfl, rfl, rfl, rfl⟩ := carries_zero hzero
    clear heq hzero
    exact ⟨by omega, by omega, by omega, by omega⟩
  · rintro ⟨h0, h1, h2, h3⟩
    obtain rfl : x = 0 := by omega
    obtain rfl : y = 0 := by omega
    obtain rfl : z = 0 := by omega
    obtain rfl : v = 0 := by omega
    omega

/-- The sum is that of the numbers exactly when no octet carries. -/
theorem toNat_swap32_add_eq_iff {k : UInt32} :
    (swap32 (w + swap32 k)).toNat = (swap32 w).toNat + k.toNat ↔
      CarryFree (swap32 w).toNat k.toNat := by
  obtain ⟨a, b, c, d, hw, ha, hb, hc, hd⟩ := exists_octets (swap32 w)
  obtain ⟨e, f, g, h, hk, he, hf, hg, hh⟩ := exists_octets k
  have hback := toNat_swap32 hw ha hb hc hd
  rw [swap32_swap32] at hback
  -- the carries run from the high octets of the numbers to the low ones
  obtain ⟨s0, x, hs0, hs0'⟩ := exists_carry (d + h)
  obtain ⟨s1, y, hs1, hs1'⟩ := exists_carry (c + g + x)
  obtain ⟨s2, z, hs2, hs2'⟩ := exists_carry (b + f + y)
  obtain ⟨s3, v, hs3, hs3'⟩ := exists_carry (a + e + z)
  have hsum : (w + swap32 k).toNat = s0 + 2 ^ 8 * s1 + 2 ^ 16 * s2 + 2 ^ 24 * s3 := by
    rw [UInt32.toNat_add, hback, toNat_swap32 hk he hf hg hh, sum_octets hs0 hs1 hs2 hs3,
      Nat.add_mul_mod_self_left]
    exact Nat.mod_eq_of_lt (octets_lt hs0' hs1' hs2' hs3')
  obtain ⟨w0, w1, w2, w3⟩ := octets_eq hw ha hb hc hd
  obtain ⟨k0, k1, k2, k3⟩ := octets_eq hk he hf hg hh
  rw [carryFree_iff, w0, w1, w2, w3, k0, k1, k2, k3, toNat_swap32 hsum hs0' hs1' hs2' hs3', hw, hk]
  exact sum_eq_iff hs0 hs1 hs2 hs3 hs0' hs1' hs2' hs3'

/-- The sum of numbers without a carry stays below the next octet. -/
private theorem CarryFree.mod_add_lt (h : CarryFree l k) (hi : i ≤ 4) :
    l % 256 ^ i + k % 256 ^ i < 256 ^ i := by
  induction i with
  | zero => rw [Nat.pow_zero, Nat.mod_one, Nat.mod_one]; decide
  | succ i ih =>
    have hlow := ih (Nat.le_of_succ_le hi)
    have hoctet := Nat.mul_le_mul_left (256 ^ i) (Nat.le_of_lt_succ (h i hi))
    rw [Nat.mul_add] at hoctet
    rw [Nat.mod_pow_succ, Nat.mod_pow_succ, Nat.pow_succ]
    omega

private theorem div_eq_add_div_iff {p : Nat} (hp : 0 < p) :
    l / p = (l + n) / p ↔ l % p + n < p := by
  have hsum : (l + n) / p = (l % p + n) / p + l / p := by
    conv_lhs => rw [← Nat.mod_add_div l p]
    rw [Nat.add_right_comm, Nat.add_mul_div_left _ _ hp]
  rw [hsum, ← Nat.div_eq_zero_iff_lt hp]
  omega

private theorem octet_add_lt {q : Nat} (h : l % (q * 256) ≠ 0 → l % (q * 256) + k < q * 256) :
    l / q % 256 + k / q % 256 < 256 := by
  rw [← Nat.mod_mul_right_div_self]
  by_cases hzero : l % (q * 256) = 0
  · rw [hzero, Nat.zero_div, Nat.zero_add]
    exact Nat.mod_lt _ (by decide)
  · calc l % (q * 256) / q + k / q % 256
        ≤ l % (q * 256) / q + k / q := Nat.add_le_add_left (Nat.mod_le _ _) _
      _ ≤ (l % (q * 256) + k) / q := Nat.div_add_div_le_add_div
      _ < 256 := Nat.div_lt_of_lt_mul (h hzero)

/-- A step of any length up to `n` is without a carry exactly when the numbers agree left
of the last nonzero octet of the first. -/
theorem carryFree_forall_iff : (∀ k ≤ n, CarryFree l k) ↔ AgreeLeft l (l + n) := by
  constructor
  · intro h i hi hne
    have hpos : 0 < 256 ^ (i + 1) := Nat.pow_pos (by decide)
    rw [div_eq_add_div_iff hpos]
    by_contra hlong
    have hcarry := (h (256 ^ (i + 1) - l % 256 ^ (i + 1)) (by omega)).mod_add_lt
      (Nat.succ_le_of_lt hi)
    rw [Nat.succ_eq_add_one, Nat.mod_eq_of_lt (Nat.sub_lt hpos (Nat.pos_of_ne_zero hne))] at hcarry
    have hlt := Nat.mod_lt l hpos
    omega
  · intro h k hk i hi
    refine octet_add_lt fun hne => ?_
    rw [← Nat.pow_succ] at hne ⊢
    have hends := (div_eq_add_div_iff (Nat.pow_pos (by decide))).mp (h i hi hne)
    exact Nat.lt_of_le_of_lt (Nat.add_le_add_left hk _) hends

/-- A number whose low bits are clear does not carry with one of these bits. -/
theorem agreeLeft_of_aligned {s j : Nat} (hs : s % 2 ^ j = 0) (hk : k < 2 ^ j) :
    AgreeLeft s (s + k) := by
  intro i _ hne
  have hpos : 0 < 256 ^ (i + 1) := Nat.pow_pos (by decide)
  rw [div_eq_add_div_iff hpos]
  rw [show (256 : Nat) = 2 ^ 8 from rfl, ← Nat.pow_mul] at hne hpos ⊢
  rcases Nat.le_total (8 * (i + 1)) j with hle | hle
  · exact absurd (Nat.mod_eq_zero_of_dvd
      ((Nat.pow_dvd_pow 2 hle).trans (Nat.dvd_of_mod_eq_zero hs))) hne
  · obtain ⟨q, hq⟩ := Nat.pow_dvd_pow 2 hle
    obtain ⟨t, ht⟩ : 2 ^ j ∣ s % 2 ^ (8 * (i + 1)) := by
      rw [Nat.dvd_iff_mod_eq_zero, Nat.mod_mod_of_dvd _ (Nat.pow_dvd_pow 2 hle)]
      exact hs
    have hlt := Nat.mod_lt s hpos
    rw [ht, hq] at hlt ⊢
    have hstep := Nat.mul_le_mul_left (2 ^ j) (Nat.succ_le_of_lt (Nat.lt_of_mul_lt_mul_left hlt))
    rw [Nat.mul_succ] at hstep
    omega

/-- A lowest octet that overflows is zero afterwards, and nothing else changes. -/
theorem toNat_swap32_add_wrap {k : UInt32} (h : (swap32 w).toNat % 256 + k.toNat = 256)
    (hk : k.toNat < 256) :
    (swap32 (w + swap32 k)).toNat = (swap32 w).toNat - (swap32 w).toNat % 256 := by
  obtain ⟨a, b, c, d, hw, ha, hb, hc, hd⟩ := exists_octets (swap32 w)
  have hback := toNat_swap32 hw ha hb hc hd
  rw [swap32_swap32] at hback
  have hk' : k.toNat = k.toNat + 2 ^ 8 * 0 + 2 ^ 16 * 0 + 2 ^ 24 * 0 := rfl
  have ha' : (swap32 w).toNat % 256 = a := (octets_eq hw ha hb hc hd).1
  have hsum : (w + swap32 k).toNat = d + 2 ^ 8 * c + 2 ^ 16 * b + 2 ^ 24 * 0 := by
    rw [UInt32.toNat_add, hback, toNat_swap32 hk' hk (by decide) (by decide) (by decide)]
    omega
  rw [toNat_swap32 hsum hd hc hb (by decide), ha', hw]
  omega

/-! ## Single bits -/

/-- A bit of a number is set if its digit is odd. -/
theorem and_two_pow_ne_zero : n &&& 2 ^ i ≠ 0 ↔ n / 2 ^ i % 2 = 1 := by
  rw [Nat.and_two_pow, Nat.testBit_eq_decide_div_mod_eq]
  by_cases h : n / 2 ^ i % 2 = 1
  · simp [h]
  · simp [h]

/-- A bit above a number is added to it. -/
theorem or_two_pow_of_lt (h : n < 2 ^ i) : n ||| 2 ^ i = n + 2 ^ i := by
  have hadd := Nat.two_pow_add_eq_or_of_lt h 1
  rw [Nat.mul_one] at hadd
  rw [Nat.or_comm, ← hadd, Nat.add_comm]

end Quicup
