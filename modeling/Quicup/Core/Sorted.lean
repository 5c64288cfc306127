import Mathlib.Data.List.Basic
import Mathlib.Algebra.Order.Group.Nat

/-!
# Sorted lists

Insertion behind the elements that are not greater, as a comparator that returns an
integer says. In a list that is sorted by a key the elements of one key are consecutive.
-/

namespace Quicup.Sorted

variable {α : Type} {compare : α → α → Int} {item x : α} {xs : List α} {R : α → α → Prop}

/-- Insert in front of the first element that is greater. -/
def insert (compare : α → α → Int) (item : α) : List α → List α
  | [] => [item]
  | x :: xs => if 0 < compare x item then item :: x :: xs else x :: insert compare item xs

theorem perm_insert (compare : α → α → Int) (item : α) (xs : List α) :
    (insert compare item xs).Perm (item :: xs) := by
  induction xs with
  | nil => exact .refl _
  | cons x xs ih =>
    rw [insert]
    split
    · exact .refl _
    · exact (ih.cons x).trans (.swap item x xs)

@[simp] theorem mem_insert : x ∈ insert compare item xs ↔ x = item ∨ x ∈ xs := by
  rw [(perm_insert compare item xs).mem_iff, List.mem_cons]

/-- A list stays sorted by a relation that the comparator decides. -/
theorem pairwise_insert (htrans : ∀ {a b c}, R a b → R b c → R a c)
    (hgreater : ∀ x ∈ xs, 0 < compare x item → R item x)
    (hless : ∀ x ∈ xs, ¬ 0 < compare x item → R x item) (h : xs.Pairwise R) :
    (insert compare item xs).Pairwise R := by
  induction xs with
  | nil => exact List.pairwise_singleton R item
  | cons x xs ih =>
    obtain ⟨hx, hxs⟩ := List.pairwise_cons.mp h
    rw [insert]
    split
    · next hcompare =>
      have hitem : R item x := hgreater x (List.mem_cons_self ..) hcompare
      refine List.pairwise_cons.mpr ⟨List.forall_mem_cons.mpr ⟨hitem, fun y hy => ?_⟩, h⟩
      exact htrans hitem (hx y hy)
    · next hcompare =>
      have hrest := ih (fun y hy => hgreater y (List.mem_cons_of_mem _ hy))
        (fun y hy => hless y (List.mem_cons_of_mem _ hy)) hxs
      refine List.pairwise_cons.mpr ⟨fun y hy => ?_, hrest⟩
      rcases mem_insert.mp hy with rfl | hy
      · exact hless x (List.mem_cons_self ..) hcompare
      · exact hx y hy

/-! ## Elements of one key -/

variable {key : α → Int} {k : Int} {q : α → Bool}

/-- The elements of the least key stand in front. -/
theorem takeWhile_eq_filter (h : xs.Pairwise fun a b => key a ≤ key b)
    (hq : ∀ x ∈ xs, q x = true ↔ key x = k) (hk : ∀ x ∈ xs, k ≤ key x) :
    xs.takeWhile q = xs.filter q := by
  induction xs with
  | nil => rfl
  | cons x xs ih =>
    obtain ⟨hx, hxs⟩ := List.pairwise_cons.mp h
    have hq' := fun y hy => hq y (List.mem_cons_of_mem x hy)
    by_cases hkey : q x = true
    · rw [List.takeWhile_cons_of_pos hkey, List.filter_cons_of_pos hkey,
        ih hxs hq' fun y hy => hk y (List.mem_cons_of_mem x hy)]
    · have hlt : k < key x :=
        lt_of_le_of_ne (hk x (List.mem_cons_self ..))
          fun he => hkey ((hq x (List.mem_cons_self ..)).mpr he.symm)
      have hnone : xs.filter q = [] := by
        refine List.filter_eq_nil_iff.mpr fun y hy hqy => ?_
        have := hx y hy
        have := (hq' y hy).mp hqy
        omega
      rw [List.takeWhile_cons_of_neg hkey, List.filter_cons_of_neg hkey, hnone]

/-- What stands behind the elements of the least key. -/
theorem dropWhile_eq_filter (h : xs.Pairwise fun a b => key a ≤ key b)
    (hq : ∀ x ∈ xs, q x = true ↔ key x = k) (hk : ∀ x ∈ xs, k ≤ key x) :
    xs.dropWhile q = xs.filter fun x => !q x := by
  have hsplit : xs.takeWhile q ++ xs.dropWhile q = xs := List.takeWhile_append_dropWhile
  have hfront : ∀ x ∈ xs.takeWhile q, q x = true := List.all_eq_true.mp List.all_takeWhile
  have hbehind : (xs.dropWhile q).filter q = [] := by
    have hall := takeWhile_eq_filter h hq hk
    conv_rhs at hall => rw [← hsplit, List.filter_append, List.filter_eq_self.mpr hfront]
    exact List.self_eq_append_right.mp hall
  conv_rhs => rw [← hsplit, List.filter_append]
  rw [List.filter_eq_nil_iff.mpr fun x hx => by simp [hfront x hx], List.nil_append,
    List.filter_eq_self.mpr fun x hx => by simpa using List.filter_eq_nil_iff.mp hbehind x hx]

/-- The elements of a key are consecutive. -/
theorem takeWhile_dropWhile_eq_filter (h : xs.Pairwise fun a b => key a ≤ key b)
    (hq : ∀ x ∈ xs, q x = true ↔ key x = k) :
    (xs.dropWhile fun x => !q x).takeWhile q = xs.filter q := by
  induction xs with
  | nil => rfl
  | cons x xs ih =>
    obtain ⟨hx, hxs⟩ := List.pairwise_cons.mp h
    have hq' := fun y hy => hq y (List.mem_cons_of_mem x hy)
    by_cases hkey : q x = true
    · have hxk : key x = k := (hq x (List.mem_cons_self ..)).mp hkey
      rw [List.dropWhile_cons_of_neg (by simp [hkey])]
      refine takeWhile_eq_filter h hq fun y hy => ?_
      rcases List.mem_cons.mp hy with rfl | hy
      · exact hxk.ge
      · exact hxk.symm.trans_le (hx y hy)
    · rw [List.dropWhile_cons_of_pos (by simp [hkey]), List.filter_cons_of_neg hkey, ih hxs hq']

/-- A change of the elements of a key is a change of consecutive elements. -/
theorem map_block (f : α → α) (h : xs.Pairwise fun a b => key a ≤ key b)
    (hq : ∀ x ∈ xs, q x = true ↔ key x = k) :
    (xs.takeWhile fun x => !q x) ++ ((xs.dropWhile fun x => !q x).takeWhile q).map f ++
      (xs.dropWhile fun x => !q x).dropWhile q = xs.map fun x => if q x then f x else x := by
  induction xs with
  | nil => rfl
  | cons x xs ih =>
    obtain ⟨hx, hxs⟩ := List.pairwise_cons.mp h
    have hq' := fun y hy => hq y (List.mem_cons_of_mem x hy)
    by_cases hkey : q x = true
    · have hxk : key x = k := (hq x (List.mem_cons_self ..)).mp hkey
      have hleast : ∀ y ∈ x :: xs, k ≤ key y := by
        intro y hy
        rcases List.mem_cons.mp hy with rfl | hy
        · exact hxk.ge
        · exact hxk.symm.trans_le (hx y hy)
      rw [List.takeWhile_cons_of_neg (by simp [hkey]), List.dropWhile_cons_of_neg (by simp [hkey]),
        List.nil_append]
      conv_rhs => rw [← List.takeWhile_append_dropWhile (p := q) (l := x :: xs)]
      rw [List.map_append]
      congr 1
      · refine List.map_congr_left fun y hy => ?_
        rw [takeWhile_eq_filter h hq hleast] at hy
        rw [if_pos (List.mem_filter.mp hy).2]
      · rw [dropWhile_eq_filter h hq hleast]
        refine (List.map_id _).symm.trans (List.map_congr_left fun y hy => ?_)
        have hne := (List.mem_filter.mp hy).2
        rw [if_neg (by simpa using hne), id]
    · rw [List.takeWhile_cons_of_pos (by simp [hkey]), List.dropWhile_cons_of_pos (by simp [hkey]),
        List.cons_append, List.cons_append, ih hxs hq', List.map_cons, if_neg hkey]

/-- Insertion among the elements of a key is insertion among them. -/
theorem filter_insert (h : xs.Pairwise R)
    (hR : ∀ a b, R a b → 0 < compare a item → 0 < compare b item) :
    (insert compare item xs).filter q =
      if q item then insert compare item (xs.filter q) else xs.filter q := by
  induction xs with
  | nil => cases hitem : q item <;> simp [insert, hitem]
  | cons x xs ih =>
    obtain ⟨hx, hxs⟩ := List.pairwise_cons.mp h
    rw [insert]
    by_cases hcompare : 0 < compare x item
    · have hfront : insert compare item ((x :: xs).filter q) = item :: (x :: xs).filter q := by
        rcases hfilter : (x :: xs).filter q with _ | ⟨y, ys⟩
        · rfl
        · have hy : y ∈ (x :: xs).filter q := hfilter ▸ List.mem_cons_self ..
          have hgreater : 0 < compare y item := by
            rcases List.mem_cons.mp (List.mem_filter.mp hy).1 with rfl | hmem
            · exact hcompare
            · exact hR x y (hx y hmem) hcompare
          rw [insert, if_pos hgreater]
      rw [if_pos hcompare, List.filter_cons, hfront]
    · rw [if_neg hcompare, List.filter_cons, List.filter_cons, ih hxs]
      by_cases hkey : q x = true
      · rw [if_pos hkey, if_pos hkey, insert, if_neg hcompare]
        split <;> rfl
      · rw [if_neg hkey, if_neg hkey]

end Quicup.Sorted
