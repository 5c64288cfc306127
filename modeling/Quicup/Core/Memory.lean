import Quicup.Core.Fallible

/-!
# Reads and writes of memory

Cells are read and written from a place on. What is not all inside the memory faults.
-/

namespace Quicup.Memory

open Fallible

variable {ε α : Type} {fault : ε} {mem xs pre : List α} {pos n : Nat}

/-- So many cells from a place on. -/
def load (fault : ε) (mem : List α) (pos n : Nat) : Except ε (List α) :=
  if pos + n ≤ mem.length then .ok ((mem.drop pos).take n) else .error fault

/-- The memory with other cells from a place on. -/
def store (fault : ε) (mem : List α) (pos : Nat) (xs : List α) : Except ε (List α) :=
  if pos + xs.length ≤ mem.length then .ok (mem.take pos ++ (xs ++ mem.drop (pos + xs.length)))
  else .error fault

theorem load_append (fault : ε) (xs post : List α) (hpos : pre.length = pos) (hn : xs.length = n) :
    load fault (pre ++ (xs ++ post)) pos n = .ok xs := by
  subst hpos hn
  rw [load, if_pos (by simp only [List.length_append]; omega), List.drop_left' rfl,
    List.take_left' rfl]

theorem load_of_lt (h : ¬pos + n ≤ mem.length) : load fault mem pos n = .error fault := if_neg h

theorem store_append (fault : ε) {old : List α} (xs post : List α) (hpos : pre.length = pos)
    (hold : old.length = xs.length) :
    store fault (pre ++ (old ++ post)) pos xs = .ok (pre ++ (xs ++ post)) := by
  subst hpos
  have hdrop : (pre ++ (old ++ post)).drop (pre.length + xs.length) = post := by
    rw [← List.drop_drop, List.drop_left' rfl, List.drop_left' hold]
  rw [store, if_pos (by simp only [List.length_append]; omega), List.take_left' rfl, hdrop]

/-- A memory that is large enough is written behind what stands in front of the place. -/
theorem exists_store (fault : ε) (pre rest xs : List α) (hpos : pre.length = pos)
    (hroom : xs.length ≤ rest.length) :
    ∃ rest', store fault (pre ++ rest) pos xs = .ok (pre ++ (xs ++ rest')) ∧
      xs.length + rest'.length = rest.length := by
  refine ⟨rest.drop xs.length, ?_, ?_⟩
  · conv_lhs => rw [← List.take_append_drop xs.length rest]
    exact store_append fault xs _ hpos (List.length_take_of_le hroom)
  · rw [List.length_drop]
    omega

end Quicup.Memory
