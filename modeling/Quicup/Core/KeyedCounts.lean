import Mathlib.Data.List.Nodup

/-!
# Counts under keys

Numbers are used under keys, each number once under each key. It is enough to know of the key
in force that the next number is above all that were used under it.
-/

namespace Quicup

namespace KeyedCounts

variable {κ : Type} {used : List (κ × Nat)} {key : κ} {n m : Nat}

/-- All that was used under a key is below a number. -/
def Below (used : List (κ × Nat)) (key : κ) (n : Nat) : Prop :=
  ∀ k, (key, k) ∈ used → k < n

theorem below_nil : Below [] key n := fun _ h => absurd h List.not_mem_nil

/-- What was used last is below the next number. -/
theorem Below.use (h : Below used key n) : Below (used ++ [(key, n)]) key (n + 1) := by
  intro k hk
  rcases List.mem_append.mp hk with hbefore | hlast
  · exact Nat.lt_succ_of_lt (h k hbefore)
  · obtain ⟨-, rfl⟩ := Prod.mk.inj (List.mem_singleton.mp hlast)
    exact Nat.lt_succ_self k

/-- The next number is used for the first time. -/
theorem Below.nodup_use (h : Below used key n) (hused : used.Nodup) :
    (used ++ [(key, n)]).Nodup := by
  apply hused.append (List.nodup_singleton _)
  intro pair hpair hlast
  obtain rfl := List.mem_singleton.mp hlast
  exact Nat.lt_irrefl n (h n hpair)

end KeyedCounts

end Quicup
