import Mathlib.Data.List.Basic

/-!
# Recent entries

A list that remembers so many entries at most, the oldest one first. An entry that is there
already is not taken again.
-/

namespace Quicup

namespace Recent

variable {α : Type} {bound : Nat} {xs ys : List α} {x y : α}

/-- The last entries of a list. -/
def lastOf (bound : Nat) (xs : List α) : List α := xs.drop (xs.length - bound)

/-- The last entry is among them. -/
theorem mem_lastOf_append (hbound : 0 < bound) : x ∈ lastOf bound (xs ++ [x]) := by
  have hlength : (xs ++ [x]).length = xs.length + 1 := List.length_append
  rw [lastOf, List.drop_append_of_le_length (by omega)]
  exact List.mem_append_right _ (List.mem_singleton_self x)

variable [DecidableEq α]

/-- An entry that is new goes to the end. -/
def note (bound : Nat) (xs : List α) (x : α) : List α :=
  if x ∈ xs then xs else lastOf bound (xs ++ [x])

/-- Entries that are noted one after the other. -/
def noteAll (bound : Nat) (xs ys : List α) : List α := ys.foldl (note bound) xs

/-- How many of the entries are new when they are noted. -/
def newCount (bound : Nat) : List α → List α → Nat
  | _, [] => 0
  | xs, y :: ys => (if y ∈ xs then 0 else 1) + newCount bound (note bound xs y) ys

theorem note_of_mem (h : x ∈ xs) : note bound xs x = xs := if_pos h

theorem note_of_not_mem (h : x ∉ xs) : note bound xs x = lastOf bound (xs ++ [x]) := if_neg h

/-- An entry is there once it is noted. -/
theorem mem_note (hbound : 0 < bound) : x ∈ note bound xs x := by
  by_cases h : x ∈ xs
  · rwa [note_of_mem h]
  · rw [note_of_not_mem h]
    exact mem_lastOf_append hbound

/-- Noting an entry changes the list if and only if the entry is new. -/
theorem note_eq_self_iff (hbound : 0 < bound) : note bound xs x = xs ↔ x ∈ xs := by
  constructor
  · intro h
    rw [← h]
    exact mem_note hbound
  · exact note_of_mem

end Recent

end Quicup
