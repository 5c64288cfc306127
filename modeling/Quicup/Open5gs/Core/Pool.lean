import Mathlib.Data.List.Perm.Basic
import Mathlib.Data.List.Nodup

/-!
# Pools

`ogs-pool.h`: the free slots of an array stand in a ring. A slot is taken from its head
and given back behind its tail.
-/

namespace Quicup.Open5gs

/-- A pool with its free slots from the head of the ring on. `avail` is their number. -/
structure OgsPool where
  size : Nat
  free : List Nat
  deriving DecidableEq

namespace OgsPool

variable {pool : OgsPool} {used : List Nat} {n : Nat}

/-- `ogs_pool_init` -/
def init (size : Nat) : OgsPool := ⟨size, List.range size⟩

/-- `ogs_pool_alloc` -/
def alloc (pool : OgsPool) : Option Nat × OgsPool :=
  match pool.free with
  | [] => (none, pool)
  | n :: free => (some n, { pool with free })

/-- `ogs_pool_free`, which does nothing when all slots are free. -/
def release (pool : OgsPool) (n : Nat) : OgsPool :=
  if pool.free.length < pool.size then { pool with free := pool.free ++ [n] } else pool

@[simp] theorem size_alloc (pool : OgsPool) : pool.alloc.2.size = pool.size := by
  unfold alloc
  split <;> rfl

@[simp] theorem size_release (pool : OgsPool) (n : Nat) : (pool.release n).size = pool.size := by
  unfold release
  split <;> rfl

/-- The slot that is taken stood at the head. -/
theorem free_of_alloc (h : pool.alloc.1 = some n) : pool.free = n :: pool.alloc.2.free := by
  unfold alloc at h ⊢
  cases hfree : pool.free with
  | nil =>
    rw [hfree] at h
    cases h
  | cons first free =>
    rw [hfree] at h
    obtain rfl := Option.some.inj h
    rfl

/-- Each slot is either free or in use, and once. -/
def Holds (pool : OgsPool) (used : List Nat) : Prop :=
  (pool.free ++ used).Perm (List.range pool.size)

theorem init_holds (size : Nat) : (init size).Holds [] := by
  rw [Holds, List.append_nil]
  exact .refl _

theorem Holds.nodup (h : pool.Holds used) : (pool.free ++ used).Nodup :=
  h.nodup_iff.mpr List.nodup_range

theorem Holds.perm {used' : List Nat} (h : pool.Holds used) (hperm : used.Perm used') :
    pool.Holds used' := (hperm.symm.append_left pool.free).trans h

/-- The slot that is taken was not in use. -/
theorem Holds.alloc (h : pool.Holds used) (hn : pool.alloc.1 = some n) :
    pool.alloc.2.Holds (n :: used) ∧ n ∉ used := by
  have hnodup := h.nodup
  unfold OgsPool.alloc at hn ⊢
  unfold Holds at h ⊢
  cases hfree : pool.free with
  | nil => rw [hfree] at hn; cases hn
  | cons first free =>
    rw [hfree] at hn h hnodup
    obtain rfl := Option.some.inj hn
    refine ⟨List.perm_middle.trans h, fun hused => ?_⟩
    have hnot := (List.nodup_cons.mp hnodup).1
    exact hnot (List.mem_append_right free hused)

/-- A slot in use is free again. -/
theorem Holds.release (h : pool.Holds (n :: used)) : (pool.release n).Holds used := by
  have hlen := h.length_eq
  rw [List.length_append, List.length_cons, List.length_range] at hlen
  rw [OgsPool.release, if_pos (by omega), Holds, List.append_assoc]
  exact h

theorem Holds.length_release (h : pool.Holds (n :: used)) :
    (pool.release n).free.length = pool.free.length + 1 := by
  have hlen := h.length_eq
  rw [List.length_append, List.length_cons, List.length_range] at hlen
  rw [OgsPool.release, if_pos (by omega), List.length_append]
  rfl

/-- A slot of the pool is free exactly if it is not in use. -/
theorem Holds.mem_free_iff (h : pool.Holds used) (hn : n < pool.size) :
    n ∈ pool.free ↔ n ∉ used := by
  constructor
  · exact fun hfree hused => List.disjoint_of_nodup_append h.nodup hfree hused
  · intro hnot
    have hmem := h.mem_iff.mpr (List.mem_range.mpr hn)
    exact (List.mem_append.mp hmem).resolve_right hnot

theorem Holds.lt_size (h : pool.Holds used) (hn : n ∈ used) : n < pool.size :=
  List.mem_range.mp (h.mem_iff.mp (List.mem_append_right _ hn))

theorem alloc_of_ne_nil (h : pool.free ≠ []) :
    ∃ n rest, pool.alloc = (some n, { pool with free := rest }) ∧ pool.free = n :: rest := by
  obtain ⟨n, rest, hfree⟩ := List.exists_cons_of_ne_nil h
  exact ⟨n, rest, by rw [OgsPool.alloc, hfree], hfree⟩

end OgsPool

end Quicup.Open5gs
