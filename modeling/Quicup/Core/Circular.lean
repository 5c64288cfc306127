import Mathlib.Data.Int.ModEq
import Mathlib.Tactic.Linarith

/-!
# Positions on a circle

A circle of `m` positions, numbered from zero. Positions are compared by their distance
forward from a base, and the base moves. A step that does not pass the base changes the
distances by its length.
-/

namespace Quicup.Circular

/-- The positions of a circle of `m`. -/
def On (m a : Int) : Prop := 0 ≤ a ∧ a < m

instance (m a : Int) : Decidable (On m a) := inferInstanceAs (Decidable (_ ∧ _))

/-- How far `a` lies ahead of `base`. -/
def distance (m base a : Int) : Int :=
  if a - base < 0 then a - base + m else a - base

variable {m base a b k : Int}

theorem On.pos (h : On m a) : 0 < m := h.1.trans_lt h.2

theorem On.advance (hm : 0 < m) (a k : Int) : On m ((a + k) % m) :=
  ⟨Int.emod_nonneg _ hm.ne', Int.emod_lt_of_pos _ hm⟩

theorem distance_nonneg (hbase : On m base) (ha : On m a) : 0 ≤ distance m base a := by
  unfold distance On at *
  split <;> omega

theorem distance_lt (hbase : On m base) (ha : On m a) : distance m base a < m := by
  unfold distance On at *
  split <;> omega

theorem distance_of_le (h : base ≤ a) : distance m base a = a - base :=
  if_neg (by omega)

@[simp] theorem distance_self (m base : Int) : distance m base base = 0 := by
  simp [distance]

theorem distance_inj (ha : On m a) (hb : On m b) :
    distance m base a = distance m base b ↔ a = b := by
  unfold distance On at *
  constructor
  · split <;> split <;> omega
  · rintro rfl
    rfl

theorem distance_eq_zero (hbase : On m base) (ha : On m a) :
    distance m base a = 0 ↔ a = base := by
  rw [← distance_self m base, distance_inj ha hbase]

/-- The distance is the remainder of the difference. -/
theorem distance_eq_emod (hbase : On m base) (ha : On m a) :
    distance m base a = (a - base) % m := by
  have hm := hbase.pos
  unfold distance On at *
  split
  · rw [← Int.add_emod_right, Int.emod_eq_of_lt (by omega) (by omega)]
  · rw [Int.emod_eq_of_lt (by omega) (by omega)]

/-- A position is reached from the base by its distance. -/
theorem add_distance (hbase : On m base) (ha : On m a) :
    (base + distance m base a) % m = a := by
  rw [distance_eq_emod hbase ha, Int.add_emod_emod, add_sub_cancel, Int.emod_eq_of_lt ha.1 ha.2]

/-- A step that does not pass the base. -/
theorem distance_advance (hbase : On m base) (ha : On m a) (hk : 0 ≤ k)
    (hlt : distance m base a + k < m) :
    distance m base ((a + k) % m) = distance m base a + k := by
  have hpos := distance_nonneg hbase ha
  rw [distance_eq_emod hbase (.advance hbase.pos a k), Int.emod_sub_emod, add_sub_right_comm,
    ← Int.emod_add_emod, ← distance_eq_emod hbase ha, Int.emod_eq_of_lt (by omega) hlt]

theorem distance_base_advance (hbase : On m base) (hk : 0 ≤ k) (hlt : k < m) :
    distance m base ((base + k) % m) = k := by
  rw [distance_advance hbase hbase hk (by rwa [distance_self, zero_add]), distance_self, zero_add]

/-- The base moves towards a position. -/
theorem distance_of_base_advance (hbase : On m base) (ha : On m a) (hk : 0 ≤ k)
    (hle : k ≤ distance m base a) :
    distance m ((base + k) % m) a = distance m base a - k := by
  have hlt := distance_lt hbase ha
  rw [distance_eq_emod (.advance hbase.pos base k) ha, Int.sub_emod_emod, ← sub_sub,
    ← Int.emod_sub_emod, ← distance_eq_emod hbase ha, Int.emod_eq_of_lt (by omega) (by omega)]

/-- The base moves past a position. -/
theorem distance_of_base_passed (hbase : On m base) (ha : On m a)
    (hlt : distance m base a < k) (hk : k ≤ m) :
    distance m ((base + k) % m) a = distance m base a - k + m := by
  have hpos := distance_nonneg hbase ha
  rw [distance_eq_emod (.advance hbase.pos base k) ha, Int.sub_emod_emod, ← sub_sub,
    ← Int.emod_sub_emod, ← distance_eq_emod hbase ha, ← Int.add_emod_right,
    Int.emod_eq_of_lt (by omega) (by omega)]

/-- Steps of one are steps of their number. -/
theorem advance_advance (m a j k : Int) : ((a + j) % m + k) % m = (a + (j + k)) % m := by
  rw [Int.emod_add_emod, add_assoc]

theorem advance_zero (ha : On m a) : (a + 0) % m = a := by
  rw [add_zero, Int.emod_eq_of_lt ha.1 ha.2]

end Quicup.Circular
