import Mathlib.Data.List.Basic
import Mathlib.Tactic.SplitIfs

/-!
# Runs that may fault

What a run has done that returns: each of its steps has returned. A loop over a list
that leaves at the first element that passes a test, where the test itself may end
the run, has run the test on the elements up to the one it found.
-/

namespace Quicup.Fallible

variable {ε α β : Type} {run : Except ε α} {a : α} {rest : α → Except ε β} {b : β}

@[simp] theorem ok_bind (a : α) (rest : α → Except ε β) : (Except.ok a >>= rest) = rest a := rfl

theorem bind_eq_ok : run >>= rest = .ok b ↔ ∃ a, run = .ok a ∧ rest a = .ok b := by
  constructor
  · intro h
    cases run with
    | error fault => exact nomatch h
    | ok a => exact ⟨a, rfl, h⟩
  · rintro ⟨a, rfl, h⟩
    exact h

theorem map_eq_ok {f : α → β} : run.map f = .ok b ↔ ∃ a, run = .ok a ∧ f a = b := by
  cases run with
  | error fault => simp [Except.map]
  | ok a => simp [Except.map]

theorem toOption_eq_some : run.toOption = some a ↔ run = .ok a := by
  cases run with
  | error fault => simp [Except.toOption]
  | ok b => simp [Except.toOption]

/-- A run that ends without a fault. -/
def Returns (run : Except ε α) : Prop := ∃ a, run = .ok a

@[simp] theorem returns_ok (a : α) : Returns (.ok a : Except ε α) := ⟨a, rfl⟩

@[simp] theorem returns_pure (a : α) : Returns (pure a : Except ε α) := ⟨a, rfl⟩

@[simp] theorem not_returns_error (fault : ε) : ¬Returns (.error fault : Except ε α) :=
  fun ⟨_, h⟩ => by cases h

theorem returns_bind : Returns (run >>= rest) ↔ ∃ a, run = .ok a ∧ Returns (rest a) := by
  constructor
  · rintro ⟨b, h⟩
    obtain ⟨a, hrun, hrest⟩ := bind_eq_ok.mp h
    exact ⟨a, hrun, b, hrest⟩
  · rintro ⟨a, hrun, b, hrest⟩
    exact ⟨b, bind_eq_ok.mpr ⟨a, hrun, hrest⟩⟩

theorem pure_eq_ok_iff {b : α} : (pure a : Except ε α) = .ok b ↔ a = b :=
  ⟨Except.ok.inj, congrArg Except.ok⟩

/-- A test that is run only after another has passed. -/
theorem andM_eq_ok_iff {first second : Except ε Bool} {b : Bool} :
    (first <&&> second) = .ok b ↔
      (first = .ok false ∧ b = false) ∨ (first = .ok true ∧ second = .ok b) := by
  rcases first with fault | (_ | _)
  · simp [andM, bind, Except.bind]
  · simp [andM, bind, Except.bind, toBool, pure, Except.pure, eq_comm]
  · simp [andM, bind, Except.bind, toBool]

/-- A branch on a test that may fault. -/
theorem branch_eq_ok_iff {test : Except ε Bool} {yes no : Except ε α} {defined passes : Prop}
    (htest : ∀ b, test = .ok b ↔ defined ∧ (b = true ↔ passes)) :
    (do if ← test then yes else no) = .ok a ↔
      defined ∧ (passes → yes = .ok a) ∧ (¬passes → no = .ok a) := by
  rw [bind_eq_ok]
  simp only [htest]
  constructor
  · rintro ⟨b, ⟨hdefined, hb⟩, h⟩
    split_ifs at h with htrue
    · exact ⟨hdefined, fun _ => h, fun hnot => absurd (hb.mp htrue) hnot⟩
    · exact ⟨hdefined, fun hpasses => absurd (hb.mpr hpasses) htrue, fun _ => h⟩
  · rintro ⟨hdefined, hyes, hno⟩
    by_cases hpasses : passes
    · exact ⟨true, ⟨hdefined, iff_of_true rfl hpasses⟩, hyes hpasses⟩
    · exact ⟨false, ⟨hdefined, iff_of_false Bool.false_ne_true hpasses⟩, hno hpasses⟩

/-! ## Searches -/

variable {test test' : α → Except ε Bool} {xs : List α} {x : α}

theorem findM?_cons (test : α → Except ε Bool) (y : α) (ys : List α) :
    (y :: ys).findM? test =
      match test y with
      | .error fault => .error fault
      | .ok true => .ok (some y)
      | .ok false => ys.findM? test := by
  rw [List.findM?]
  rcases test y with fault | (_ | _) <;> rfl

/-- A search finds the first element that passes. -/
theorem findM?_eq_some_iff :
    xs.findM? test = .ok (some x) ↔
      ∃ before after, xs = before ++ x :: after ∧ (∀ y ∈ before, test y = .ok false) ∧
        test x = .ok true := by
  induction xs with
  | nil =>
    refine ⟨nofun, fun ⟨before, after, hxs, _⟩ => ?_⟩
    exact absurd hxs.symm (List.append_ne_nil_of_right_ne_nil _ (List.cons_ne_nil _ _))
  | cons y ys ih =>
    rw [findM?_cons]
    constructor
    · intro h
      rcases hy : test y with fault | (_ | _) <;> rw [hy] at h
      · exact nomatch h
      · obtain ⟨before, after, rfl, hbefore, hx⟩ := ih.mp h
        refine ⟨y :: before, after, rfl, ?_, hx⟩
        exact List.forall_mem_cons.mpr ⟨hy, hbefore⟩
      · obtain rfl : y = x := Option.some.inj (Except.ok.inj h)
        exact ⟨[], ys, rfl, nofun, hy⟩
    · rintro ⟨before, after, hxs, hbefore, hx⟩
      rcases before with _ | ⟨z, before⟩
      · obtain ⟨rfl, rfl⟩ := List.cons.inj hxs
        rw [hx]
      · obtain ⟨rfl, rfl⟩ := List.cons.inj hxs
        obtain ⟨hy, hbefore⟩ := List.forall_mem_cons.mp hbefore
        rw [hy]
        exact ih.mpr ⟨before, after, rfl, hbefore, hx⟩

/-- A search finds nothing when every element is turned down. -/
theorem findM?_eq_none_iff : xs.findM? test = .ok none ↔ ∀ y ∈ xs, test y = .ok false := by
  induction xs with
  | nil => exact ⟨nofun, fun _ => rfl⟩
  | cons y ys ih =>
    rw [findM?_cons, List.forall_mem_cons]
    constructor
    · intro h
      rcases hy : test y with fault | (_ | _) <;> rw [hy] at h
      · exact nomatch h
      · exact ⟨rfl, ih.mp h⟩
      · exact nomatch h
    · rintro ⟨hy, hys⟩
      rw [hy]
      exact ih.mpr hys

/-- A search whose tests all answer finds what the search with the answers finds. -/
theorem findM?_eq_find? {p : α → Bool} (h : ∀ y ∈ xs, test y = .ok (p y)) :
    xs.findM? test = .ok (xs.find? p) := by
  induction xs with
  | nil => rfl
  | cons y ys ih =>
    obtain ⟨hy, hys⟩ := List.forall_mem_cons.mp h
    rw [findM?_cons, hy, List.find?_cons]
    cases p y with
    | true => rfl
    | false => exact ih hys

theorem findM?_map {α' : Type} (f : α' → α) (ys : List α') :
    (ys.map f).findM? test = (ys.findM? fun y => test (f y)).map (Option.map f) := by
  induction ys with
  | nil => rfl
  | cons y ys ih =>
    rw [List.map_cons, findM?_cons, findM?_cons, ih]
    rcases test (f y) with fault | (_ | _) <;> rfl

section Tested

variable {defined passes : α → Prop}

/-- A search returns when the test is defined at each element up to the first that passes. -/
theorem returns_findM?_iff
    (htest : ∀ x b, test x = .ok b ↔ defined x ∧ (b = true ↔ passes x)) :
    Returns (xs.findM? test) ↔ ∀ before x after, xs = before ++ x :: after →
      (∀ y ∈ before, ¬passes y) → defined x := by
  induction xs with
  | nil =>
    refine ⟨fun _ before x after hxs => ?_, fun _ => ⟨none, rfl⟩⟩
    exact absurd hxs.symm (List.append_ne_nil_of_right_ne_nil _ (List.cons_ne_nil _ _))
  | cons y ys ih =>
    rw [findM?_cons]
    constructor
    · intro h before x after hxs hbefore
      cases hy : test y with
      | error fault =>
        rw [hy] at h
        exact absurd h (not_returns_error fault)
      | ok b =>
        obtain ⟨hdefined, hb⟩ := (htest y b).mp hy
        rcases before with _ | ⟨z, before⟩
        · obtain ⟨rfl, rfl⟩ := List.cons.inj hxs
          exact hdefined
        · obtain ⟨rfl, rfl⟩ := List.cons.inj hxs
          obtain ⟨hnot, hbefore⟩ := List.forall_mem_cons.mp hbefore
          obtain rfl : b = false := Bool.eq_false_iff.mpr fun htrue => hnot (hb.mp htrue)
          rw [hy] at h
          exact ih.mp h before x after rfl hbefore
    · intro h
      have hdefined : defined y := h [] y ys rfl (List.forall_mem_nil _)
      by_cases hpasses : passes y
      · have hy : test y = .ok true := (htest y true).mpr ⟨hdefined, iff_of_true rfl hpasses⟩
        rw [hy]
        exact returns_ok _
      · have hy : test y = .ok false :=
          (htest y false).mpr ⟨hdefined, iff_of_false Bool.false_ne_true hpasses⟩
        rw [hy]
        refine ih.mpr fun before x after hxs hbefore => ?_
        refine h (y :: before) x after (congrArg (y :: ·) hxs) ?_
        exact List.forall_mem_cons.mpr ⟨hpasses, hbefore⟩

/-- A search that returns finds something when some element passes. -/
theorem isSome_of_findM?_iff
    (htest : ∀ x b, test x = .ok b ↔ defined x ∧ (b = true ↔ passes x)) {found : Option α}
    (h : xs.findM? test = .ok found) : found.isSome = true ↔ ∃ x ∈ xs, passes x := by
  cases found with
  | none =>
    refine iff_of_false Bool.false_ne_true ?_
    rintro ⟨x, hx, hpasses⟩
    have hfalse := ((htest x false).mp (findM?_eq_none_iff.mp h x hx)).2
    exact Bool.false_ne_true (hfalse.mpr hpasses)
  | some x =>
    obtain ⟨before, after, rfl, -, hx⟩ := findM?_eq_some_iff.mp h
    refine iff_of_true rfl ⟨x, List.mem_append_right _ (List.mem_cons_self ..), ?_⟩
    exact ((htest x true).mp hx).2.mp rfl

/-- A search that returns finds the first element that passes. -/
theorem findM?_of_passes
    (htest : ∀ x b, test x = .ok b ↔ defined x ∧ (b = true ↔ passes x)) {before after : List α}
    (h : Returns ((before ++ x :: after).findM? test)) (hbefore : ∀ y ∈ before, ¬passes y)
    (hx : passes x) : (before ++ x :: after).findM? test = .ok (some x) := by
  have hreturns := (returns_findM?_iff htest).mp h
  refine findM?_eq_some_iff.mpr ⟨before, after, rfl, fun y hy => ?_, ?_⟩
  · obtain ⟨front, back, rfl⟩ := List.append_of_mem hy
    have hdefined : defined y := by
      refine hreturns front y (back ++ x :: after) (by simp) fun z hz => ?_
      exact hbefore z (List.mem_append_left _ hz)
    exact (htest y false).mpr ⟨hdefined, iff_of_false Bool.false_ne_true (hbefore y hy)⟩
  · exact (htest x true).mpr ⟨hreturns before x after rfl hbefore, iff_of_true rfl hx⟩

/-- A search that is gone on from: the test is defined up to the first element that passes, and
what follows returns for that element. -/
theorem returns_findM?_bind_iff
    (htest : ∀ x b, test x = .ok b ↔ defined x ∧ (b = true ↔ passes x))
    {rest : Option α → Except ε β} (hnone : Returns (rest none)) :
    Returns (xs.findM? test >>= rest) ↔ ∀ before x after, xs = before ++ x :: after →
      (∀ y ∈ before, ¬passes y) → defined x ∧ (passes x → Returns (rest (some x))) := by
  rw [returns_bind]
  constructor
  · rintro ⟨found, hfound, h⟩ before x after hlist hbefore
    refine ⟨(returns_findM?_iff htest).mp ⟨found, hfound⟩ before x after hlist hbefore, ?_⟩
    intro hpasses
    rw [hlist] at hfound
    have hx := findM?_of_passes htest ⟨found, hfound⟩ hbefore hpasses
    obtain rfl := Except.ok.inj (hfound.symm.trans hx)
    exact h
  · intro h
    have hreturns : Returns (xs.findM? test) :=
      (returns_findM?_iff htest).mpr fun before x after hlist hbefore =>
        (h before x after hlist hbefore).1
    obtain ⟨found, hfound⟩ := hreturns
    refine ⟨found, hfound, ?_⟩
    cases found with
    | none => exact hnone
    | some x =>
      obtain ⟨before, after, hlist, hbefore, hx⟩ := findM?_eq_some_iff.mp hfound
      refine (h before x after hlist fun y hy hpasses => ?_).2 (((htest x true).mp hx).2.mp rfl)
      exact Bool.false_ne_true (((htest y false).mp (hbefore y hy)).2.mpr hpasses)

end Tested

/-- A search returns the same under every test that answers as its own test does. -/
theorem findM?_mono (htest : ∀ y b, test y = .ok b → test' y = .ok b) {found : Option α}
    (h : xs.findM? test = .ok found) : xs.findM? test' = .ok found := by
  cases found with
  | none =>
    refine findM?_eq_none_iff.mpr fun y hy => htest y false ?_
    exact findM?_eq_none_iff.mp h y hy
  | some x =>
    obtain ⟨before, after, hxs, hbefore, hx⟩ := findM?_eq_some_iff.mp h
    exact findM?_eq_some_iff.mpr
      ⟨before, after, hxs, fun y hy => htest y false (hbefore y hy), htest x true hx⟩

/-! ## Variables of a loop -/

/-- What a variable holds behind a loop over a list that may write it at each element. -/
def lastWrite (write : α → Option β) (xs : List α) (initial : Option β) : Option β :=
  (xs.filterMap write).getLast?.or initial

theorem lastWrite_cons (write : α → Option β) (x : α) (xs : List α) (initial : Option β) :
    lastWrite write (x :: xs) initial = lastWrite write xs ((write x).or initial) := by
  rw [lastWrite, lastWrite]
  cases hx : write x with
  | none => rw [List.filterMap_cons_none hx, Option.none_or]
  | some y =>
    rw [List.filterMap_cons_some hx, List.getLast?_cons, Option.some_or, Option.some_or]
    cases (xs.filterMap write).getLast? with
    | none => rfl
    | some z => rfl

/-- A variable that every element writes holds what the last element wrote. -/
theorem lastWrite_eq_getLast? {write : α → Option β} (h : ∀ x ∈ xs, write x ≠ none) :
    lastWrite write xs none = xs.getLast?.bind write := by
  rw [lastWrite, Option.or_none]
  rcases List.eq_nil_or_concat xs with rfl | ⟨ys, x, rfl⟩
  · rfl
  · obtain ⟨y, hy⟩ := Option.ne_none_iff_exists'.mp (h x (by simp))
    simp [List.filterMap_append, hy]

end Quicup.Fallible
