import Mathlib.Data.List.Basic
import Mathlib.Order.Basic

/-!
# Binary tries

A trie maps paths of bits to values. Removal prunes the nodes that hold no value and
have no child. The longest match of a word is the value at its longest prefix that
has one.
-/

namespace Quicup

inductive BitTrie (α : Type)
  | nil
  | node (left : BitTrie α) (value : Option α) (right : BitTrie α)
  deriving DecidableEq

namespace BitTrie

variable {α : Type} {a b : α} {t : BitTrie α} {path path' bits : List Bool} {bit : Bool}

/-- The value at the end of a path. -/
def get : BitTrie α → List Bool → Option α
  | nil, _ => none
  | node _ value _, [] => value
  | node left _ right, bit :: path => if bit then right.get path else left.get path

/-- Put a value at the end of a path. The nodes on the way are made. -/
def insert (a : α) : BitTrie α → List Bool → BitTrie α
  | nil, [] => node nil (some a) nil
  | node left _ right, [] => node left (some a) right
  | nil, bit :: path =>
    if bit then node nil none (insert a nil path) else node (insert a nil path) none nil
  | node left value right, bit :: path =>
    if bit then node left value (insert a right path) else node (insert a left path) value right

/-- A node, unless it would hold no value and have no child. -/
def prune : BitTrie α → Option α → BitTrie α → BitTrie α
  | nil, none, nil => nil
  | left, value, right => node left value right

/-- Remove the value at the end of a path, and the nodes that this leaves useless. -/
def erase : BitTrie α → List Bool → BitTrie α
  | nil, _ => nil
  | node left _ right, [] => prune left none right
  | node left value right, bit :: path =>
    if bit then prune left value (right.erase path) else prune (left.erase path) value right

/-- The value at the longest prefix of a word that has one, else the given one. -/
def longest (best : Option α) : BitTrie α → List Bool → Option α
  | nil, _ => best
  | node _ value _, [] => value.or best
  | node left value right, bit :: bits =>
    if bit then right.longest (value.or best) bits else left.longest (value.or best) bits

/-! ## Values after an update -/

theorem node_ne_nil (left : BitTrie α) (value : Option α) (right : BitTrie α) :
    node left value right ≠ nil := by
  rintro ⟨⟩

@[simp] theorem get_nil : (nil : BitTrie α).get path = none := by cases path <;> rfl

@[simp] theorem get_prune {left right : BitTrie α} {value : Option α} :
    (prune left value right).get path = (node left value right).get path := by
  cases left <;> cases value <;> cases right <;> cases path <;> simp [prune, get]

theorem get_insert : (t.insert a path).get path' = if path' = path then some a else t.get path' := by
  induction path generalizing t path' with
  | nil => cases t <;> cases path' <;> simp [insert, get]
  | cons bit path ih =>
    cases t <;> cases path' with
    | nil => cases bit <;> simp [insert, get]
    | cons bit' path' => cases bit <;> cases bit' <;> simp [insert, get, ih]

theorem get_erase : (t.erase path).get path' = if path' = path then none else t.get path' := by
  induction path generalizing t path' with
  | nil => cases t <;> cases path' <;> simp [erase, get]
  | cons bit path ih =>
    cases t with
    | nil => simp [erase]
    | node left value right =>
      cases path' with
      | nil => cases bit <;> simp [erase, get]
      | cons bit' path' => cases bit <;> cases bit' <;> simp [erase, get, ih]

/-! ## The longest match -/

/-- The longest prefix of a word that has a value. -/
structure IsLongest (t : BitTrie α) (bits path : List Bool) (a : α) : Prop where
  isPrefix : path.IsPrefix bits
  get : t.get path = some a
  longest : ∀ p b, p.IsPrefix bits → t.get p = some b → p.length ≤ path.length

/-- The subtrie that a bit leads to. -/
def child : BitTrie α → Bool → BitTrie α
  | nil, _ => nil
  | node left _ right, bit => if bit then right else left

theorem get_cons : t.get (bit :: path) = (t.child bit).get path := by
  cases t <;> cases bit <;> simp [get, child]

theorem longest_cons {best : Option α} :
    t.longest best (bit :: bits) = (t.child bit).longest ((t.get []).or best) bits := by
  cases t <;> cases bit <;> cases bits <;> simp [longest, child, get]

theorem longest_or (best : Option α) :
    t.longest best bits = (t.longest none bits).or best := by
  induction bits generalizing t best with
  | nil => cases t <;> simp [longest]
  | cons bit bits ih =>
    rw [longest_cons, longest_cons, ih, ih ((t.get []).or none)]
    cases (t.child bit).longest none bits <;> simp

/-- No value is found exactly if no prefix of the word has one. -/
theorem longest_eq_none_iff :
    t.longest none bits = none ↔ ∀ path, path.IsPrefix bits → t.get path = none := by
  induction bits generalizing t with
  | nil => cases t <;> simp [longest, get]
  | cons bit bits ih =>
    rw [longest_cons, longest_or, Option.or_eq_none_iff, Option.or_none, ih]
    constructor
    · rintro ⟨hnone, hvalue⟩ path hpath
      cases path with
      | nil => exact hvalue
      | cons bit' path =>
        obtain ⟨rfl, hrest⟩ := List.cons_prefix_cons.mp hpath
        rw [get_cons]
        exact hnone path hrest
    · intro hnone
      refine ⟨fun path hpath => ?_, hnone [] (List.nil_prefix ..)⟩
      rw [← get_cons]
      exact hnone _ (List.cons_prefix_cons.mpr ⟨rfl, hpath⟩)

/-- What is found is the value at the longest prefix of the word that has one. -/
theorem longest_eq_some (h : t.longest none bits = some a) : ∃ path, t.IsLongest bits path a := by
  induction bits generalizing t with
  | nil =>
    refine ⟨[], List.nil_prefix .., ?_, fun p b hp _ => hp.length_le⟩
    cases t with
    | nil => cases h
    | node left value right => simpa [longest, get] using h
  | cons bit bits ih =>
    rw [longest_cons, longest_or, Option.or_none] at h
    cases hsub : (t.child bit).longest none bits with
    | some c =>
      obtain rfl : c = a := by simpa [hsub] using h
      obtain ⟨path, hpath, hc, hmax⟩ := ih hsub
      refine ⟨bit :: path, List.cons_prefix_cons.mpr ⟨rfl, hpath⟩, by rw [get_cons, hc],
        fun p b hp hb => ?_⟩
      cases p with
      | nil => exact Nat.zero_le _
      | cons bit' p =>
        obtain ⟨rfl, hrest⟩ := List.cons_prefix_cons.mp hp
        exact Nat.succ_le_succ (hmax p b hrest (by rwa [get_cons] at hb))
    | none =>
      refine ⟨[], List.nil_prefix .., by simpa [hsub] using h, fun p b hp hb => ?_⟩
      cases p with
      | nil => exact Nat.le_refl _
      | cons bit' p =>
        obtain ⟨rfl, hrest⟩ := List.cons_prefix_cons.mp hp
        rw [get_cons, longest_eq_none_iff.mp hsub p hrest] at hb
        cases hb

end BitTrie

end Quicup
