import Quicup.Core.Cursor

/-!
# The octets that a reader goes over

A span tells, from the octets at hand alone, how many of them a reader goes over before it
returns, or the fault that stops it. `SpansFrom` ties a reader to its span. A loop of readers
visits the positions that its steps lead to, and every end of the loop is told by one of them.
-/

namespace Quicup

/-- The number of octets gone over, or the fault on the way. -/
abbrev Span := List UInt8 → Except Fault Nat

namespace Span

def stop (f : Fault) : Span := fun _ => .error f

/-- `n` octets, with no bound check. -/
def octets (n : Nat) : Span := fun s => if n ≤ s.length then .ok n else .error .outOfBounds

def andThen (σ τ : Span) : Span := fun s => do
  let n ← σ s
  let m ← τ (s.drop n)
  return n + m

/-- One octet, which decides over those behind it. -/
def head (τ : UInt8 → Span) : Span
  | [] => .error .outOfBounds
  | x :: xs => (τ x xs).map (· + 1)

/-- An octet that stays decides. -/
def look (τ : UInt8 → Span) : Span
  | [] => .error .outOfBounds
  | x :: xs => τ x (x :: xs)

def times (σ : Span) : Nat → Span
  | 0 => octets 0
  | n + 1 => σ.andThen (times σ n)

/-- Step after step from position `k`, while that is below the bound. A step over no octet
is made for ever. -/
def walkFrom (σ : Span) (bound : Nat) (s : List UInt8) : Nat → Nat → Except Fault Nat
  | 0, _ => .error .hang
  | fuel + 1, k =>
    if k < bound then do
      let n ← σ (s.drop k)
      if n = 0 then .error .hang else walkFrom σ bound s fuel (k + n)
    else .ok k

def walk (σ : Span) (bound : Nat) : Span := fun s => walkFrom σ bound s (s.length + 1) 0

/-- A span does not leave the octets at hand. -/
def Bounded (σ : Span) : Prop := ∀ {s n}, σ s = .ok n → n ≤ s.length

/-- The positions that steps from the front lead to. -/
inductive Reaches (σ : Span) (bound : Nat) (s : List UInt8) : Nat → Prop
  | start : Reaches σ bound s 0
  | step {k n : Nat} (before : Reaches σ bound s k) (below : k < bound)
      (passed : σ (s.drop k) = .ok n) : Reaches σ bound s (k + n)

variable {σ τ : Span} {s : List UInt8} {n k : Nat} {f : Fault}

@[simp] theorem octets_eq_ok : octets n s = .ok k ↔ n ≤ s.length ∧ n = k := by
  unfold octets
  split <;> simp [*]

@[simp] theorem octets_eq_error : octets n s = .error f ↔ s.length < n ∧ f = .outOfBounds := by
  unfold octets
  split
  · simp only [reduceCtorEq, false_iff]
    omega
  · rw [Except.error.injEq, eq_comm]
    exact ⟨fun h => ⟨by omega, h⟩, fun h => h.2⟩

theorem andThen_eq_ok : σ.andThen τ s = .ok k ↔
    ∃ n m, σ s = .ok n ∧ τ (s.drop n) = .ok m ∧ n + m = k := by
  unfold andThen
  cases hσ : σ s with
  | error e => simp [bind, Except.bind]
  | ok n => cases hτ : τ (s.drop n) <;> simp [bind, Except.bind, pure, Except.pure, hτ]

theorem andThen_eq_error : σ.andThen τ s = .error f ↔
    σ s = .error f ∨ ∃ n, σ s = .ok n ∧ τ (s.drop n) = .error f := by
  unfold andThen
  cases hσ : σ s with
  | error e => simp [bind, Except.bind]
  | ok n => cases hτ : τ (s.drop n) <;> simp [bind, Except.bind, pure, Except.pure, hτ]

/-- Octets counted together. -/
theorem octets_andThen (m n : Nat) : (octets m).andThen (octets n) = octets (m + n) := by
  ext1 s
  unfold andThen octets
  by_cases hm : m ≤ s.length
  · simp only [hm, if_true, List.length_drop, bind, Except.bind]
    by_cases hn : n ≤ s.length - m
    · rw [if_pos hn, if_pos (by omega)]
      rfl
    · rw [if_neg hn, if_neg (by omega)]
  · rw [if_neg hm, if_neg (by omega)]
    rfl

theorem andThen_assoc (σ τ υ : Span) : (σ.andThen τ).andThen υ = σ.andThen (τ.andThen υ) := by
  ext1 s
  unfold andThen
  cases σ s with
  | error f => rfl
  | ok n =>
    simp only [bind, Except.bind, pure, Except.pure, List.drop_drop]
    cases τ (s.drop n) with
    | error f => rfl
    | ok m =>
      simp only
      cases υ (s.drop (n + m)) with
      | error f => rfl
      | ok k => exact congrArg Except.ok (Nat.add_assoc n m k)

theorem times_octets (m n : Nat) : times (octets m) n = octets (n * m) := by
  induction n with
  | zero => rw [Nat.zero_mul, times]
  | succ n ih => rw [times, ih, octets_andThen, Nat.succ_mul, Nat.add_comm]

theorem head_eq_ok {τ : UInt8 → Span} :
    head τ s = .ok k ↔ ∃ x xs n, s = x :: xs ∧ τ x xs = .ok n ∧ n + 1 = k := by
  cases s with
  | nil => simp [head]
  | cons x xs => cases hτ : τ x xs <;> simp [head, Except.map, hτ]

theorem head_eq_error {τ : UInt8 → Span} :
    head τ s = .error f ↔ s = [] ∧ f = .outOfBounds ∨ ∃ x xs, s = x :: xs ∧ τ x xs = .error f := by
  cases s with
  | nil => simp [head, eq_comm]
  | cons x xs => cases hτ : τ x xs <;> simp [head, Except.map, hτ]

theorem head_bounded {τ : UInt8 → Span} (hτ : ∀ x, (τ x).Bounded) : (head τ).Bounded := by
  intro s n hn
  obtain ⟨x, xs, m, rfl, hm, rfl⟩ := head_eq_ok.mp hn
  exact Nat.succ_le_succ (hτ x hm)

theorem stop_bounded (f : Fault) : (stop f).Bounded := fun h => by cases h

theorem octets_bounded (n : Nat) : (octets n).Bounded := fun h => by
  obtain ⟨hle, rfl⟩ := octets_eq_ok.mp h
  exact hle

/-- An octet counted with those behind it. -/
theorem head_octets (size : UInt8 → Nat) :
    head (fun x => octets (size x)) = look fun x => octets (size x + 1) := by
  ext1 s
  cases s with
  | nil => rfl
  | cons x xs =>
    simp only [head, look, octets, List.length_cons, Nat.add_le_add_iff_right]
    split <;> rfl

/-- What is behind a deciding octet and its others is decided as well. -/
theorem head_andThen (τ : UInt8 → Span) (υ : Span) :
    (head τ).andThen υ = head fun x => (τ x).andThen υ := by
  ext1 s
  cases s with
  | nil => rfl
  | cons x xs =>
    simp only [andThen, head]
    cases τ x xs with
    | error f => rfl
    | ok n =>
      simp only [Except.map, bind, Except.bind, pure, Except.pure, List.drop_succ_cons]
      cases υ (xs.drop n) with
      | error f => rfl
      | ok m => exact congrArg Except.ok (Nat.add_right_comm n 1 m)

/-! ## Where a walk ends -/

variable {bound : Nat}

theorem Reaches.le (hσ : σ.Bounded) (h : Reaches σ bound s k) : k ≤ s.length := by
  induction h with
  | start => exact Nat.zero_le _
  | step _ _ hn ih =>
    have hle := hσ hn
    rw [List.length_drop] at hle
    omega

/-- From every position reached, the walk is what is left of it, with steps to spare. -/
private theorem Reaches.walk_eq (hσ : σ.Bounded) (h : Reaches σ bound s k) :
    ∃ fuel, s.length < fuel + k ∧ walk σ bound s = walkFrom σ bound s fuel k := by
  induction h with
  | start => exact ⟨s.length + 1, by omega, rfl⟩
  | @step k n before below passed ih =>
    obtain ⟨fuel, hfuel, heq⟩ := ih
    have hle := before.le hσ
    rcases Nat.eq_zero_or_pos n with rfl | hpos
    · exact ⟨fuel, hfuel, heq⟩
    · obtain ⟨fuel, rfl⟩ : ∃ fuel', fuel = fuel' + 1 := ⟨fuel - 1, by omega⟩
      refine ⟨fuel, by omega, ?_⟩
      rw [heq, walkFrom, if_pos below, passed]
      exact if_neg (by omega)

private theorem walkFrom_ends (hσ : σ.Bounded) (fuel : Nat) (h : Reaches σ bound s k)
    (hfuel : s.length < fuel + k) :
    (∀ n, walkFrom σ bound s fuel k = .ok n → Reaches σ bound s n ∧ bound ≤ n) ∧
      ∀ f, walkFrom σ bound s fuel k = .error f → ∃ k, Reaches σ bound s k ∧ k < bound ∧
        (σ (s.drop k) = .error f ∨ f = .hang ∧ σ (s.drop k) = .ok 0) := by
  induction fuel generalizing k with
  | zero =>
    have hle := h.le hσ
    omega
  | succ fuel ih =>
    by_cases hk : k < bound
    · rw [walkFrom, if_pos hk]
      cases hn : σ (s.drop k) with
      | error e =>
        refine ⟨fun n hr => ?_, fun f hr => ?_⟩
        · cases hr
        · cases hr
          exact ⟨k, h, hk, .inl hn⟩
      | ok n =>
        rcases Nat.eq_zero_or_pos n with rfl | hpos
        · refine ⟨fun n hr => ?_, fun f hr => ?_⟩
          · cases hr
          · cases hr
            exact ⟨k, h, hk, .inr ⟨rfl, hn⟩⟩
        · have hnext : (do
              let n ← (Except.ok n : Except Fault Nat)
              if n = 0 then .error .hang else walkFrom σ bound s fuel (k + n)) =
                walkFrom σ bound s fuel (k + n) := if_neg (by omega)
          rw [hnext]
          exact ih (h.step hk hn) (by omega)
    · rw [walkFrom, if_neg hk]
      refine ⟨fun n hr => ?_, fun f hr => ?_⟩
      · cases hr
        exact ⟨h, by omega⟩
      · cases hr

/-- A walk ends where it reaches its bound. -/
theorem walk_eq_ok_iff (hσ : σ.Bounded) :
    walk σ bound s = .ok n ↔ Reaches σ bound s n ∧ bound ≤ n := by
  constructor
  · intro h
    exact (walkFrom_ends hσ (s.length + 1) .start (by omega)).1 n h
  · rintro ⟨h, hbound⟩
    obtain ⟨fuel, hfuel, heq⟩ := h.walk_eq hσ
    have hle := h.le hσ
    obtain ⟨fuel, rfl⟩ : ∃ fuel', fuel = fuel' + 1 := ⟨fuel - 1, by omega⟩
    rw [heq, walkFrom, if_neg (by omega)]

/-- A walk fails at a position where the next step fails or passes nothing. -/
theorem walk_eq_error_iff (hσ : σ.Bounded) :
    walk σ bound s = .error f ↔ ∃ k, Reaches σ bound s k ∧ k < bound ∧
      (σ (s.drop k) = .error f ∨ f = .hang ∧ σ (s.drop k) = .ok 0) := by
  constructor
  · intro h
    exact (walkFrom_ends hσ (s.length + 1) .start (by omega)).2 f h
  · rintro ⟨k, h, hk, hstep⟩
    obtain ⟨fuel, hfuel, heq⟩ := h.walk_eq hσ
    have hle := h.le hσ
    obtain ⟨fuel, rfl⟩ : ∃ fuel', fuel = fuel' + 1 := ⟨fuel - 1, by omega⟩
    rw [heq, walkFrom, if_pos hk]
    rcases hstep with hstep | ⟨rfl, hstep⟩
    · rw [hstep]
      rfl
    · rw [hstep]
      rfl

/-- A walk that is not over ends as well with an iteration more. -/
private theorem walkFrom_succ {fuel : Nat} (h : walkFrom σ bound s fuel k ≠ .error .hang) :
    walkFrom σ bound s (fuel + 1) k = walkFrom σ bound s fuel k := by
  induction fuel generalizing k with
  | zero => exact absurd rfl h
  | succ fuel ih =>
    rw [walkFrom] at h ⊢
    conv_rhs => rw [walkFrom]
    by_cases hk : k < bound
    · rw [if_pos hk] at h ⊢
      rw [if_pos hk]
      cases hn : σ (s.drop k) with
      | error e => rfl
      | ok n =>
        rw [hn] at h
        by_cases hzero : n = 0
        · subst hzero
          rfl
        · have hnext : ∀ fuel, (do
              let n ← (Except.ok n : Except Fault Nat)
              if n = 0 then .error .hang else walkFrom σ bound s fuel (k + n)) =
                walkFrom σ bound s fuel (k + n) := fun _ => if_neg hzero
          rw [hnext] at h
          rw [hnext, hnext]
          exact ih h
    · rw [if_neg hk, if_neg hk]

/-- What has no end within the octets has none after any number of iterations. -/
theorem walkFrom_eq_hang (hσ : σ.Bounded) (h : walk σ bound s = .error .hang) (fuel : Nat) :
    walkFrom σ bound s fuel 0 = .error .hang := by
  by_cases hle : fuel ≤ s.length + 1
  · by_contra hends
    have hsame : ∀ more, walkFrom σ bound s (fuel + more) 0 = walkFrom σ bound s fuel 0 := by
      intro more
      induction more with
      | zero => rfl
      | succ more ih => rw [← Nat.add_assoc, walkFrom_succ (by rwa [ih]), ih]
    have hwalk := hsame (s.length + 1 - fuel)
    rw [Nat.add_sub_cancel' hle] at hwalk
    exact hends (hwalk.symm.trans h)
  · obtain ⟨hok, herror⟩ := @walkFrom_ends σ s 0 bound hσ fuel .start (by omega)
    cases hr : walkFrom σ bound s fuel 0 with
    | ok n =>
      have hwalk := (walk_eq_ok_iff hσ).mpr (hok n hr)
      rw [h] at hwalk
      cases hwalk
    | error f =>
      have hwalk := (walk_eq_error_iff hσ).mpr (herror f hr)
      rw [h] at hwalk
      exact congrArg Except.error (Except.error.inj hwalk).symm

/-! ## Spans without endless loops -/

/-- The octets are gone over in the end. -/
def Terminates (σ : Span) : Prop := ∀ s, σ s ≠ .error .hang

theorem stop_terminates (hf : f ≠ .hang) : (stop f).Terminates :=
  fun _ h => hf (Except.error.inj h)

theorem octets_terminates (n : Nat) : (octets n).Terminates := fun s h => by
  obtain ⟨-, habsurd⟩ := octets_eq_error.mp h
  cases habsurd

theorem andThen_terminates (hσ : σ.Terminates) (hτ : τ.Terminates) :
    (σ.andThen τ).Terminates := fun s h => by
  rcases andThen_eq_error.mp h with hfirst | ⟨n, -, hsecond⟩
  · exact hσ s hfirst
  · exact hτ _ hsecond

theorem head_terminates {τ : UInt8 → Span} (hτ : ∀ x, (τ x).Terminates) :
    (head τ).Terminates := fun s h => by
  rcases head_eq_error.mp h with ⟨-, habsurd⟩ | ⟨x, xs, -, hrest⟩
  · cases habsurd
  · exact hτ x xs hrest

theorem look_terminates {τ : UInt8 → Span} (hτ : ∀ x, (τ x).Terminates) :
    (look τ).Terminates := fun s h => by
  cases s with
  | nil => cases h
  | cons x xs => exact hτ x _ h

theorem times_terminates (hσ : σ.Terminates) (n : Nat) : (times σ n).Terminates := by
  induction n with
  | zero => exact octets_terminates 0
  | succ n ih => exact andThen_terminates hσ ih

theorem octets_ne_zero (hn : 0 < n) (s : List UInt8) : octets n s ≠ .ok 0 := fun h => by
  obtain ⟨-, rfl⟩ := octets_eq_ok.mp h
  exact absurd hn (Nat.lt_irrefl 0)

theorem head_ne_zero {τ : UInt8 → Span} (s : List UInt8) : head τ s ≠ .ok 0 := fun h => by
  obtain ⟨x, xs, m, -, -, habsurd⟩ := head_eq_ok.mp h
  exact absurd habsurd (Nat.succ_ne_zero m)

theorem andThen_ne_zero (hσ : ∀ s, σ s ≠ .ok 0) (s : List UInt8) : σ.andThen τ s ≠ .ok 0 :=
  fun h => by
    obtain ⟨m, l, hm, -, hsum⟩ := andThen_eq_ok.mp h
    obtain rfl : m = 0 := Nat.eq_zero_of_add_eq_zero_right hsum
    exact hσ s hm

/-- A walk ends where every step ends and passes an octet. -/
theorem walk_terminates (hσ : σ.Bounded) (hends : σ.Terminates) (hpos : ∀ s, σ s ≠ .ok 0) :
    (walk σ bound).Terminates := fun s h => by
  obtain ⟨k, -, -, hstep⟩ := (walk_eq_error_iff hσ).mp h
  rcases hstep with hhang | ⟨-, hzero⟩
  · exact hends _ hhang
  · exact hpos _ hzero

/-! ## Octets that are enough -/

/-- There is no way to go over the octets, if any, but an exception. -/
def Guarded (σ : Span) (s : List UInt8) : Prop := ∀ f, σ s = .error f → f = .exception

theorem guarded_of_eq_ok (h : σ s = .ok n) : Guarded σ s := fun f hf => by
  rw [h] at hf
  cases hf

theorem stop_guarded (s : List UInt8) : Guarded (stop .exception) s :=
  fun _ h => (Except.error.inj h).symm

theorem octets_guarded_iff : Guarded (octets n) s ↔ n ≤ s.length := by
  constructor
  · intro h
    by_contra hshort
    cases h _ (octets_eq_error.mpr ⟨Nat.lt_of_not_le hshort, rfl⟩)
  · exact fun h => guarded_of_eq_ok (octets_eq_ok.mpr ⟨h, rfl⟩)

theorem head_guarded_iff {τ : UInt8 → Span} :
    Guarded (head τ) s ↔ ∃ x xs, s = x :: xs ∧ Guarded (τ x) xs := by
  constructor
  · intro h
    cases s with
    | nil => cases h _ rfl
    | cons x xs => exact ⟨x, xs, rfl, fun f hf => h f (head_eq_error.mpr (.inr ⟨x, xs, rfl, hf⟩))⟩
  · rintro ⟨x, xs, rfl, h⟩ f hf
    rcases head_eq_error.mp hf with ⟨habsurd, -⟩ | ⟨y, ys, heq, hrest⟩
    · cases habsurd
    · cases heq
      exact h f hrest

theorem look_guarded_iff {τ : UInt8 → Span} :
    Guarded (look τ) s ↔ ∃ x xs, s = x :: xs ∧ Guarded (τ x) s := by
  cases s with
  | nil => exact iff_of_false (fun h => by cases h _ rfl) fun ⟨_, _, h, _⟩ => by cases h
  | cons x xs => exact ⟨fun h => ⟨x, xs, rfl, h⟩, fun ⟨_, _, heq, h⟩ => by cases heq; exact h⟩

theorem andThen_guarded_iff : Guarded (σ.andThen τ) s ↔
    Guarded σ s ∧ ∀ n, σ s = .ok n → Guarded τ (s.drop n) := by
  constructor
  · intro h
    exact ⟨fun f hf => h f (andThen_eq_error.mpr (.inl hf)),
      fun n hn f hf => h f (andThen_eq_error.mpr (.inr ⟨n, hn, hf⟩))⟩
  · rintro ⟨hfirst, hsecond⟩ f hf
    rcases andThen_eq_error.mp hf with hf | ⟨n, hn, hf⟩
    · exact hfirst f hf
    · exact hsecond n hn f hf

/-- Behind a fixed number of octets. -/
theorem octets_andThen_guarded_iff : Guarded ((octets n).andThen τ) s ↔
    n ≤ s.length ∧ Guarded τ (s.drop n) := by
  rw [andThen_guarded_iff, octets_guarded_iff]
  constructor
  · rintro ⟨hle, hsecond⟩
    exact ⟨hle, hsecond n (octets_eq_ok.mpr ⟨hle, rfl⟩)⟩
  · rintro ⟨hle, hsecond⟩
    refine ⟨hle, fun m hm => ?_⟩
    obtain ⟨-, rfl⟩ := octets_eq_ok.mp hm
    exact hsecond

theorem times_guarded_iff : Guarded (times σ n) s ↔
    ∀ k < n, ∀ m, times σ k s = .ok m → Guarded σ (s.drop m) := by
  induction n generalizing s with
  | zero =>
    refine iff_of_true ?_ fun k hk => absurd hk (Nat.not_lt_zero k)
    exact guarded_of_eq_ok (octets_eq_ok.mpr ⟨Nat.zero_le _, rfl⟩)
  | succ n ih =>
    rw [times, andThen_guarded_iff]
    constructor
    · rintro ⟨hfirst, hothers⟩ k hk m hm
      cases k with
      | zero =>
        obtain ⟨-, rfl⟩ := octets_eq_ok.mp hm
        exact hfirst
      | succ k =>
        obtain ⟨a, b, ha, hb, rfl⟩ := andThen_eq_ok.mp hm
        rw [← List.drop_drop]
        exact ih.mp (hothers a ha) k (Nat.lt_of_succ_lt_succ hk) b hb
    · intro h
      refine ⟨h 0 (Nat.succ_pos n) 0 (octets_eq_ok.mpr ⟨Nat.zero_le _, rfl⟩), fun a ha => ?_⟩
      refine ih.mpr fun k hk b hb => ?_
      rw [List.drop_drop]
      exact h (k + 1) (Nat.succ_lt_succ hk) (a + b) (andThen_eq_ok.mpr ⟨a, b, ha, hb, rfl⟩)

/-- Every step that a walk makes goes over octets at hand, one at least. -/
theorem walk_guarded_iff (hσ : σ.Bounded) : Guarded (walk σ bound) s ↔
    ∀ k, Reaches σ bound s k → k < bound → Guarded σ (s.drop k) ∧ σ (s.drop k) ≠ .ok 0 := by
  constructor
  · intro h k hreach hk
    refine ⟨fun f hf => h f ((walk_eq_error_iff hσ).mpr ⟨k, hreach, hk, .inl hf⟩), fun hzero => ?_⟩
    cases h _ ((walk_eq_error_iff hσ).mpr ⟨k, hreach, hk, .inr ⟨rfl, hzero⟩⟩)
  · intro h f hf
    obtain ⟨k, hreach, hk, hstep⟩ := (walk_eq_error_iff hσ).mp hf
    obtain ⟨hguarded, hpos⟩ := h k hreach hk
    rcases hstep with hstep | ⟨-, hzero⟩
    · exact hguarded f hstep
    · exact absurd hzero hpos

end Span

/-! ## Readers and their spans -/

/-- From position `lo` on, the reader goes over the octets of the span and stops with its
faults. -/
structure SpansFrom {α : Type} (lo : Nat) (p : Read α) (σ : Span) : Prop where
  passes : ∀ {i s n}, lo ≤ i → σ s = .ok n →
    n ≤ s.length ∧ ∃ a, p ⟨i, s⟩ = .ok (a, ⟨i + n, s.drop n⟩)
  stops : ∀ {i s f}, lo ≤ i → σ s = .error f → p ⟨i, s⟩ = .error f

namespace SpansFrom

variable {α β : Type} {lo m n k : Nat} {p : Read α} {f : α → Read β} {σ τ : Span}

theorem congr (h : SpansFrom lo p σ) (hσ : σ = τ) : SpansFrom lo p τ := hσ ▸ h

theorem bounded (h : SpansFrom lo p σ) : σ.Bounded := fun hn => (h.passes (le_refl lo) hn).1

theorem pure (a : α) : SpansFrom lo (Pure.pure a) (.octets 0) where
  passes := by
    intro i s n _ hn
    obtain ⟨-, rfl⟩ := Span.octets_eq_ok.mp hn
    exact ⟨Nat.zero_le _, a, rfl⟩
  stops := by
    intro i s f _ hf
    exact absurd (Span.octets_eq_error.mp hf).1 (Nat.not_lt_zero _)

theorem fault (e : Fault) : SpansFrom lo (Read.fault e : Read α) (.stop e) where
  passes _ hn := by cases hn
  stops _ hf := by
    cases hf
    rfl

/-- What follows at least so many octets starts behind them. -/
theorem bind_from (hp : SpansFrom lo p σ) (hm : ∀ {s n}, σ s = .ok n → m ≤ n)
    (hf : ∀ a, SpansFrom (lo + m) (f a) τ) : SpansFrom lo (p >>= f) (σ.andThen τ) where
  passes := by
    intro i s k hi hk
    obtain ⟨n, l, hn, hl, rfl⟩ := Span.andThen_eq_ok.mp hk
    obtain ⟨hle, a, ha⟩ := hp.passes hi hn
    have hmn := hm hn
    obtain ⟨hle', b, hb⟩ := (hf a).passes (i := i + n) (by omega) hl
    rw [List.length_drop] at hle'
    refine ⟨by omega, b, ?_⟩
    have he : (p >>= f) ⟨i, s⟩ = (p ⟨i, s⟩ >>= fun r => f r.1 r.2) := rfl
    rw [he, ha, ← Nat.add_assoc, ← List.drop_drop]
    exact hb
  stops := by
    intro i s e hi he
    have hrun : (p >>= f) ⟨i, s⟩ = (p ⟨i, s⟩ >>= fun r => f r.1 r.2) := rfl
    rcases Span.andThen_eq_error.mp he with he | ⟨n, hn, he⟩
    · rw [hrun, hp.stops hi he]
      rfl
    · obtain ⟨-, a, ha⟩ := hp.passes hi hn
      have hmn := hm hn
      rw [hrun, ha]
      exact (hf a).stops (by omega) he

theorem bind (hp : SpansFrom lo p σ) (hf : ∀ a, SpansFrom lo (f a) τ) :
    SpansFrom lo (p >>= f) (σ.andThen τ) :=
  hp.bind_from (m := 0) (fun _ => Nat.zero_le _) hf

/-- What follows a fixed number of octets starts behind them. -/
theorem octets_bind_from (hp : SpansFrom lo p (.octets m)) (hf : ∀ a, SpansFrom (lo + m) (f a) τ) :
    SpansFrom lo (p >>= f) ((Span.octets m).andThen τ) :=
  hp.bind_from (fun hn => (Span.octets_eq_ok.mp hn).2.le) hf

/-- Fixed numbers of octets add up. -/
theorem octets_bind (hp : SpansFrom lo p (.octets m)) (hf : ∀ a, SpansFrom lo (f a) (.octets n))
    (hk : m + n = k) : SpansFrom lo (p >>= f) (.octets k) :=
  (hp.bind hf).congr (by rw [Span.octets_andThen, hk])

/-- Fixed numbers of octets add up before others. -/
theorem octets_bind_andThen (hp : SpansFrom lo p (.octets m))
    (hf : ∀ a, SpansFrom lo (f a) ((Span.octets n).andThen τ)) (hk : m + n = k) :
    SpansFrom lo (p >>= f) ((Span.octets k).andThen τ) :=
  (hp.bind hf).congr (by rw [← Span.andThen_assoc, Span.octets_andThen, hk])

/-- What is made of the value takes no octets. -/
theorem bind_pure (hp : SpansFrom lo p σ) (g : α → β) :
    SpansFrom lo (p >>= fun a => Pure.pure (g a)) σ where
  passes := by
    intro i s n hi hn
    obtain ⟨hle, a, ha⟩ := hp.passes hi hn
    have he : (p >>= fun a => Pure.pure (g a)) ⟨i, s⟩ =
        (p ⟨i, s⟩ >>= fun r => Pure.pure (g r.1, r.2)) := rfl
    exact ⟨hle, g a, by rw [he, ha]; rfl⟩
  stops := by
    intro i s e hi hf
    have he : (p >>= fun a => Pure.pure (g a)) ⟨i, s⟩ =
        (p ⟨i, s⟩ >>= fun r => Pure.pure (g r.1, r.2)) := rfl
    rw [he, hp.stops hi hf]
    rfl

theorem ite {P : Prop} [Decidable P] {q : Read α} (hp : P → SpansFrom lo p σ)
    (hq : ¬P → SpansFrom lo q τ) :
    SpansFrom lo (if P then p else q) (if P then σ else τ) := by
  split
  · exact hp ‹_›
  · exact hq ‹_›

theorem readOctet : SpansFrom lo readOctet (.octets 1) where
  passes := by
    intro i s n _ hn
    obtain ⟨hle, rfl⟩ := Span.octets_eq_ok.mp hn
    cases s with
    | nil => exact absurd hle (Nat.not_succ_le_zero 0)
    | cons x xs => exact ⟨hle, x, rfl⟩
  stops := by
    intro i s f _ hf
    obtain ⟨hlt, rfl⟩ := Span.octets_eq_error.mp hf
    obtain rfl : s = [] := List.length_eq_zero_iff.mp (by omega)
    rfl

theorem readOctets (n : Nat) : SpansFrom lo (readOctets n) (.octets n) := by
  induction n with
  | zero => exact .pure []
  | succ n ih => exact readOctet.octets_bind (fun x => ih.bind_pure (x :: ·)) (Nat.add_comm 1 n)

theorem readBE (n : Nat) : SpansFrom lo (readBE n) (.octets n) := (readOctets n).bind_pure natBE

/-- An octet decides how to go on. -/
theorem bind_octet {f : UInt8 → Read β} {τ : UInt8 → Span}
    (hf : ∀ x, SpansFrom (lo + 1) (f x) (τ x)) :
    SpansFrom lo (Quicup.readOctet >>= f) (.head τ) where
  passes := by
    intro i s n hi hn
    cases s with
    | nil => cases hn
    | cons x xs =>
      obtain ⟨m, hm, rfl⟩ : ∃ m, τ x xs = .ok m ∧ m + 1 = n := by
        cases hm : τ x xs with
        | error e =>
          rw [Span.head, hm] at hn
          cases hn
        | ok m =>
          rw [Span.head, hm] at hn
          exact ⟨m, rfl, Except.ok.inj hn⟩
      obtain ⟨hle, b, hb⟩ := (hf x).passes (i := i + 1) (by omega) hm
      refine ⟨by rw [List.length_cons]; omega, b, ?_⟩
      rw [List.drop_succ_cons, Nat.add_comm m 1, ← Nat.add_assoc]
      exact hb
  stops := by
    intro i s e hi he
    cases s with
    | nil =>
      cases he
      rfl
    | cons x xs =>
      cases hm : τ x xs with
      | error e' =>
        rw [Span.head, hm] at he
        cases he
        exact (hf x).stops (i := i + 1) (by omega) hm
      | ok m =>
        rw [Span.head, hm] at he
        cases he

end SpansFrom

end Quicup
