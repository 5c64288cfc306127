import Mathlib.Data.List.TakeWhile
import Quicup.Open5gs.Pfcp.Types

/-!
# Names as labels

`ogs_fqdn_build` and `ogs_fqdn_parse`: a name is read back unless it ends in a dot or is as long as
the most that is read of it.
-/

namespace Quicup.Open5gs.Pfcp

open Fallible

/-- The octet of a dot. -/
abbrev dot : UInt8 := '.'.toUInt8

/-- Each label behind its length. -/
def labelOctets (labels : List (List UInt8)) : List UInt8 :=
  labels.flatMap fun label => .ofNat label.length :: label

theorem fqdnBuild_eq (name : List UInt8) : fqdnBuild name = labelOctets (name.splitOn dot) := rfl

theorem labelOctets_cons (label : List UInt8) (labels : List (List UInt8)) :
    labelOctets (label :: labels) = .ofNat label.length :: (label ++ labelOctets labels) := rfl

theorem length_labelOctets_cons (label : List UInt8) (labels : List (List UInt8)) :
    (labelOctets (label :: labels)).length = label.length + 1 + (labelOctets labels).length := by
  rw [labelOctets_cons, List.length_cons, List.length_append]
  omega

variable {labels : List (List UInt8)} {length : Nat} {src name label dst : List UInt8}

/-- There is one octet more than in the name. -/
theorem length_labelOctets (h : labels ≠ []) :
    (labelOctets labels).length = ([dot].intercalate labels).length + 1 := by
  induction labels with
  | nil => exact absurd rfl h
  | cons label labels ih =>
    rw [length_labelOctets_cons]
    cases labels with
    | nil => rw [List.intercalate_singleton]; rfl
    | cons next labels =>
      rw [ih (List.cons_ne_nil next labels), List.intercalate_cons_cons, List.length_append,
        List.length_append, List.length_singleton]
      omega

theorem length_fqdnBuild (name : List UInt8) : (fqdnBuild name).length = name.length + 1 := by
  rw [fqdnBuild_eq, length_labelOctets (List.splitOn_ne_nil dot name), List.intercalate_splitOn]

/-- One pass reads one label. -/
theorem fqdnParseFrom_label {pre rest : List UInt8} (fuel : Nat) (hlabel : label.length < 256)
    (hdst : dst.length ≤ pre.length) (hlength : pre.length + 1 + label.length ≤ length) :
    fqdnParseFrom (pre ++ (.ofNat label.length :: (label ++ rest))) length (fuel + 1) pre.length dst =
      fqdnParseFrom (pre ++ (.ofNat label.length :: (label ++ rest))) length fuel
        (pre.length + 1 + label.length)
        (if pre.length + 1 + label.length + 1 < length then dst ++ label ++ [dot]
          else dst ++ label) := by
  have hget : (pre ++ (.ofNat label.length :: (label ++ rest)))[pre.length]? =
      some (.ofNat label.length : UInt8) := by
    rw [List.getElem?_append_right (Nat.le_refl _), Nat.sub_self]
    rfl
  have hnat : (UInt8.ofNat label.length).toNat = label.length := by
    rw [UInt8.toNat_ofNat', Nat.mod_eq_of_lt hlabel]
  have hsplit : pre ++ (.ofNat label.length :: (label ++ rest)) =
      (pre ++ [.ofNat label.length]) ++ (label ++ rest) := by
    rw [List.append_assoc]
    rfl
  have hpart : ((pre ++ (.ofNat label.length :: (label ++ rest))).drop (pre.length + 1)).take
      label.length = label := by
    rw [hsplit, List.drop_left' (by rw [List.length_append]; rfl), List.take_left' rfl]
  have hwhole : pre.length + 1 + label.length ≤
      (pre ++ (.ofNat label.length :: (label ++ rest))).length := by
    rw [List.length_append, List.length_cons, List.length_append]
    omega
  conv_lhs => rw [fqdnParseFrom]
  rw [if_neg (by omega), hget]
  simp only [hnat, hpart]
  rw [if_neg (by omega), if_neg (by omega)]

theorem fqdnParseFrom_end (length fuel : Nat) :
    fqdnParseFrom src length fuel length dst = .ok (some dst) := by
  cases fuel with
  | zero => rfl
  | succ fuel => rw [fqdnParseFrom, if_pos (Nat.lt_succ_self _)]

/-- The labels with dots between them, but no dot in front of a last label that is empty. -/
def joined : List (List UInt8) → List UInt8
  | [] => []
  | [label] => label
  | label :: labels =>
    if (labelOctets labels).length ≤ 1 then label else label ++ dot :: joined labels

theorem joined_cons_cons (label next : List UInt8) (labels : List (List UInt8)) :
    joined (label :: next :: labels) =
      if (labelOctets (next :: labels)).length ≤ 1 then label
      else label ++ dot :: joined (next :: labels) := rfl

theorem labelOctets_length_pos (h : labels ≠ []) : 0 < (labelOctets labels).length := by
  rw [length_labelOctets h]
  omega

/-- One octet is that of an empty label. -/
theorem labels_of_length_le (hne : labels ≠ []) (h : (labelOctets labels).length ≤ 1) :
    labels = [[]] := by
  obtain ⟨label, labels, rfl⟩ := List.exists_cons_of_ne_nil hne
  rw [length_labelOctets_cons] at h
  have hlabel : label = [] := List.eq_nil_of_length_eq_zero (by omega)
  have hlabels : labels = [] := by
    by_contra hlabels
    have := labelOctets_length_pos hlabels
    omega
  rw [hlabel, hlabels]

/-- The loop reads labels as `joined`. -/
theorem fqdnParseFrom_labels (rest : List UInt8) (hne : labels ≠ [])
    (hshort : ∀ label ∈ labels, label.length < 256) :
    ∀ (pre dst : List UInt8) {fuel length : Nat}, dst.length ≤ pre.length →
      length = pre.length + (labelOctets labels).length → (labelOctets labels).length ≤ fuel →
      fqdnParseFrom (pre ++ (labelOctets labels ++ rest)) length fuel pre.length dst =
        .ok (some (dst ++ joined labels)) := by
  induction labels with
  | nil => exact absurd rfl hne
  | cons label labels ih =>
    intro pre dst fuel length hdst hlength hfuel
    rw [length_labelOctets_cons] at hlength hfuel
    obtain ⟨hlabel, hlabels⟩ := List.forall_mem_cons.mp hshort
    obtain ⟨fuel, rfl⟩ : ∃ n, fuel = n + 1 := ⟨fuel - 1, by omega⟩
    rw [labelOctets_cons, List.cons_append, List.append_assoc,
      fqdnParseFrom_label fuel hlabel hdst (by omega)]
    cases labels with
    | nil =>
      have hend : length = pre.length + 1 + label.length := by
        have hnil : (labelOctets []).length = 0 := rfl
        omega
      rw [if_neg (by omega), ← hend]
      exact fqdnParseFrom_end length fuel
    | cons next labels =>
      have hcons := List.cons_ne_nil next labels
      have hpos := labelOctets_length_pos hcons
      have hnext : pre ++ (.ofNat label.length :: (label ++ (labelOctets (next :: labels) ++ rest))) =
          (pre ++ .ofNat label.length :: label) ++ (labelOctets (next :: labels) ++ rest) := by
        rw [List.append_assoc, List.cons_append]
      have hpre : (pre ++ .ofNat label.length :: label).length = pre.length + 1 + label.length := by
        rw [List.length_append, List.length_cons]
        omega
      rw [joined_cons_cons, hnext, ← hpre]
      by_cases hone : (labelOctets (next :: labels)).length ≤ 1
      · have hdst' : (dst ++ label).length ≤ (pre ++ .ofNat label.length :: label).length := by
          rw [hpre, List.length_append]
          omega
        rw [if_pos hone, if_neg (by omega), ih hcons hlabels _ _ hdst' (by omega) (by omega),
          labels_of_length_le hcons hone]
        rw [joined, List.append_nil]
      · have hdst' : (dst ++ label ++ [dot]).length ≤
            (pre ++ .ofNat label.length :: label).length := by
          rw [hpre, List.length_append, List.length_append, List.length_singleton]
          omega
        rw [if_neg hone, if_pos (by omega), ih hcons hlabels _ _ hdst' (by omega) (by omega)]
        simp only [List.append_assoc, List.singleton_append]

/-- All that is lost is a dot at the end. -/
theorem intercalate_eq_joined (labels : List (List UInt8)) :
    [dot].intercalate labels = joined labels ∨ [dot].intercalate labels = joined labels ++ [dot] := by
  induction labels with
  | nil => exact .inl rfl
  | cons label labels ih =>
    cases labels with
    | nil => exact .inl List.intercalate_singleton
    | cons next labels =>
      rw [List.intercalate_cons_cons, joined_cons_cons]
      split_ifs with hone
      · rw [labels_of_length_le (List.cons_ne_nil next labels) hone, List.intercalate_singleton,
          List.append_nil]
        exact .inr rfl
      · rcases ih with ih | ih
        · rw [ih]
          left
          rw [List.append_assoc, List.singleton_append]
        · rw [ih]
          right
          simp only [List.append_assoc, List.cons_append, List.nil_append]

/-- Behind other labels an empty one at the end is a dot that is lost. -/
theorem length_joined_append (hne : labels ≠ []) :
    (joined (labels ++ [[]])).length < ([dot].intercalate (labels ++ [[]])).length := by
  induction labels with
  | nil => exact absurd rfl hne
  | cons label labels ih =>
    cases labels with
    | nil =>
      rw [List.singleton_append, List.intercalate_cons_cons, joined_cons_cons,
        if_pos (by decide), List.length_append, List.length_append]
      exact Nat.lt_add_right _ (Nat.lt_succ_self _)
    | cons next labels =>
      have hcons := List.cons_ne_nil next labels
      have ih := ih hcons
      simp only [List.cons_append] at ih ⊢
      rw [List.intercalate_cons_cons, joined_cons_cons]
      split_ifs with hone
      · simp only [List.length_append, List.length_singleton]
        omega
      · simp only [List.length_append, List.length_cons]
        omega

/-- A name is joined again from its labels unless it ends in a dot. -/
theorem joined_splitOn_iff (name : List UInt8) :
    joined (name.splitOn dot) = name ↔ name.getLast? ≠ some dot := by
  constructor
  · intro h hlast
    obtain ⟨front, rfl⟩ := List.getLast?_eq_some_iff.mp hlast
    have hsplit : (front ++ [dot]).splitOn dot = front.splitOn dot ++ [[]] :=
      List.splitOn_append_cons_self front []
    have hlt := length_joined_append (List.splitOn_ne_nil dot front)
    rw [← hsplit, List.intercalate_splitOn, h] at hlt
    exact Nat.lt_irrefl _ hlt
  · intro hlast
    have h := intercalate_eq_joined (name.splitOn dot)
    rw [List.intercalate_splitOn] at h
    rcases h with h | h
    · exact h.symm
    · rw [h, List.getLast?_concat] at hlast
      exact absurd rfl hlast

theorem not_mem_joined (h : (0 : UInt8) ∉ name) : (0 : UInt8) ∉ joined (name.splitOn dot) := by
  have hname := intercalate_eq_joined (name.splitOn dot)
  rw [List.intercalate_splitOn] at hname
  rcases hname with hname | hname
  · rwa [← hname]
  · intro hmem
    rw [hname] at h
    exact h (List.mem_append_left _ hmem)

/-- A label is no longer than its name. -/
theorem length_label_le (h : label ∈ name.splitOn dot) : label.length ≤ name.length := by
  have hlength := length_fqdnBuild name
  obtain ⟨before, after, hsplit⟩ := List.append_of_mem h
  rw [fqdnBuild_eq, hsplit, labelOctets, List.flatMap_append, List.flatMap_cons, List.length_append,
    List.length_append, List.length_cons] at hlength
  omega

/-- What is read of the octets of a name that fits. -/
theorem fqdnParse_fqdnBuild (rest : List UInt8) (hzero : (0 : UInt8) ∉ name)
    (hshort : name.length < 256) :
    ∃ found, fqdnParse (fqdnBuild name ++ rest) (name.length + 1) = .ok found ∧
      found.getD [] = joined (name.splitOn dot) := by
  have hlength := length_fqdnBuild name
  have hrun : fqdnParseFrom (fqdnBuild name ++ rest) (name.length + 1) (name.length + 1) 0 [] =
      .ok (some (joined (name.splitOn dot))) :=
    fqdnParseFrom_labels rest (List.splitOn_ne_nil dot name)
      (fun label hlabel => (length_label_le hlabel).trans_lt hshort) [] [] (Nat.le_refl _)
      (by rw [← fqdnBuild_eq, hlength]; simp) (by rw [← fqdnBuild_eq, hlength])
  have hwhole : (joined (name.splitOn dot)).takeWhile (· ≠ 0) = joined (name.splitOn dot) := by
    rw [List.takeWhile_eq_self_iff]
    intro x hx
    exact decide_eq_true fun hx0 => not_mem_joined hzero (hx0 ▸ hx)
  rw [fqdnParse, hrun]
  refine ⟨_, rfl, ?_⟩
  rw [hwhole]
  split_ifs with hpos
  · rfl
  · exact (List.eq_nil_of_length_eq_zero (by omega)).symm

/-- What is written stays behind what is read. -/
theorem length_fqdnParseFrom :
    ∀ {fuel i : Nat} {dst found : List UInt8},
      fqdnParseFrom src length fuel i dst = .ok (some found) → dst.length ≤ i →
      dst.length < length → found.length < length := by
  intro fuel
  induction fuel with
  | zero =>
    intro i dst found h _ hlt
    obtain rfl : dst = found := Option.some.inj (Except.ok.inj h)
    exact hlt
  | succ fuel ih =>
    intro i dst found h hi hlt
    rw [fqdnParseFrom] at h
    split_ifs at h with hend
    · obtain rfl : dst = found := Option.some.inj (Except.ok.inj h)
      exact hlt
    · cases hget : src[i]? with
      | none => rw [hget] at h; cases h
      | some len =>
        simp only [hget] at h
        split_ifs at h with hlong hsrc hdot
        · exact nomatch Except.ok.inj h
        all_goals
          have htake : ((src.drop (i + 1)).take len.toNat).length ≤ len.toNat :=
            List.length_take_le ..
          refine ih h ?_ ?_
          all_goals
            simp only [List.length_append, List.length_singleton]
            omega

theorem length_fqdnParse {found : List UInt8} (hpos : 0 < length)
    (h : fqdnParse src length = .ok (some found)) : found.length < length := by
  obtain ⟨dst, hdst, h⟩ := bind_eq_ok.mp h
  cases dst with
  | none => exact nomatch Except.ok.inj h
  | some dst =>
    have hlt := length_fqdnParseFrom hdst (Nat.zero_le _) hpos
    have hfound := Except.ok.inj h
    split_ifs at hfound with hsome
    obtain rfl := Option.some.inj hfound
    exact (List.takeWhile_sublist _).length_le.trans_lt hlt

/-- A name comes back from its octets if it is shorter than the most that is read and does not end
in a dot. -/
theorem fqdnParse_fqdnBuild_iff (rest : List UInt8) (hzero : (0 : UInt8) ∉ name)
    (hlong : name.length ≤ maxDnnLen) :
    (∃ found, fqdnParse (fqdnBuild name ++ rest) (min (name.length + 1) maxDnnLen) = .ok found ∧
      found.getD [] = name) ↔ name.length < maxDnnLen ∧ name.getLast? ≠ some dot := by
  by_cases hshort : name.length < maxDnnLen
  · rw [Nat.min_eq_left hshort, ← joined_splitOn_iff]
    obtain ⟨found, hfound, hjoined⟩ := fqdnParse_fqdnBuild rest hzero (hshort.trans (by decide))
    constructor
    · rintro ⟨found', hfound', hname⟩
      obtain rfl := Except.ok.inj (hfound.symm.trans hfound')
      exact ⟨hshort, hjoined.symm.trans hname⟩
    · rintro ⟨-, hname⟩
      exact ⟨found, hfound, hjoined.trans hname⟩
  · constructor
    · rintro ⟨found, hfound, rfl⟩
      rw [Nat.min_eq_right (by omega)] at hfound
      cases found with
      | none => exact absurd (Nat.zero_lt_of_ne_zero (by decide)) hshort
      | some found => exact absurd (length_fqdnParse (by decide) hfound) hshort
    · rintro ⟨h, -⟩
      exact absurd h hshort

end Quicup.Open5gs.Pfcp
