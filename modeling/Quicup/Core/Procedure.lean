import Mathlib.Logic.Relation
import Quicup.Core.Fallible
import Quicup.Core.Cursor

/-!
# Procedures that may refuse

A procedure works on a state. It returns a value, refuses with a reason, or faults. A
refusal keeps what was done to the state before it, and a fault ends the run. Runs that do
not fault go along the writes of which the procedure consists.
-/

namespace Quicup

def Procedure (ρ σ α : Type) : Type := σ → Except Fault (Except ρ α × σ)

namespace Procedure

open Relation

variable {ρ σ τ α β γ : Type} {x : Procedure ρ σ α} {s s' : σ} {f : α → Procedure ρ σ β}
  {result : Except ρ β} {p : Bool} {reason : ρ}

/-- A step and, if it returns, what follows it. -/
def andThen (x : Procedure ρ σ α) (f : α → Procedure ρ σ β) : Procedure ρ σ β := fun s =>
  match x s with
  | .error fault => .error fault
  | .ok (.error reason, s') => .ok (.error reason, s')
  | .ok (.ok a, s') => f a s'

instance : Monad (Procedure ρ σ) where
  pure a s := .ok (.ok a, s)
  bind := andThen

/-- The state. -/
def get : Procedure ρ σ σ := fun s => .ok (.ok s, s)

def modify (f : σ → σ) : Procedure ρ σ Unit := fun s => .ok (.ok (), f s)

/-- A step that always returns. -/
def state (f : σ → α × σ) : Procedure ρ σ α := fun s => .ok (.ok (f s).1, (f s).2)

def refuse (reason : ρ) : Procedure ρ σ α := fun s => .ok (.error reason, s)

def fault (f : Fault) : Procedure ρ σ α := fun _ => .error f

/-- A computation without a state. -/
def lift (x : Except Fault α) : Procedure ρ σ α
  | s => x.map fun a => (.ok a, s)

/-- An assertion of the program. -/
def assert (p : Bool) : Procedure ρ σ Unit := if p then pure () else fault .assertion

/-- A mandatory value. -/
def require (value : Option α) (reason : ρ) : Procedure ρ σ α :=
  match value with
  | some a => pure a
  | none => refuse reason

/-- A test of the program that refuses. -/
def check (p : Bool) (reason : ρ) : Procedure ρ σ Unit := if p then pure () else refuse reason

/-- What is done with a value that may be absent. -/
def whenSome (value : Option α) (f : α → Procedure ρ σ Unit) : Procedure ρ σ Unit :=
  match value with
  | none => pure ()
  | some a => f a

/-- A procedure on a part of the state. -/
def zoom (view : σ → τ) (put : τ → σ → σ) (x : Procedure ρ τ α) : Procedure ρ σ α := fun s =>
  (x (view s)).map fun (result, t) => (result, put t s)

/-! ## Runs -/

@[simp] theorem pure_run (a : α) (s : σ) : (pure a : Procedure ρ σ α) s = .ok (.ok a, s) := rfl

@[simp] theorem get_run (s : σ) : (get : Procedure ρ σ σ) s = .ok (.ok s, s) := rfl

@[simp] theorem modify_run (f : σ → σ) (s : σ) :
    (modify f : Procedure ρ σ Unit) s = .ok (.ok (), f s) := rfl

@[simp] theorem state_run (f : σ → α × σ) (s : σ) :
    (state f : Procedure ρ σ α) s = .ok (.ok (f s).1, (f s).2) := rfl

@[simp] theorem refuse_run (reason : ρ) (s : σ) :
    (refuse reason : Procedure ρ σ α) s = .ok (.error reason, s) := rfl

@[simp] theorem fault_run (f : Fault) (s : σ) : (fault f : Procedure ρ σ α) s = .error f := rfl

/-- A run goes on behind a step that returns. -/
theorem bind_run {a : α} (h : x s = .ok (.ok a, s')) (f : α → Procedure ρ σ β) :
    (x >>= f) s = f a s' := by
  change andThen x f s = _
  rw [andThen, h]

theorem bind_assoc (x : Procedure ρ σ α) (f : α → Procedure ρ σ β) (g : β → Procedure ρ σ γ) :
    (x >>= f) >>= g = x >>= fun a => f a >>= g := by
  funext s
  change andThen (andThen x f) g s = andThen x (fun a => andThen (f a) g) s
  unfold andThen
  rcases x s with fl | ⟨reason | a, t⟩ <;> rfl

@[simp] theorem pure_bind_run (a : α) (f : α → Procedure ρ σ β) (s : σ) :
    (pure a >>= f : Procedure ρ σ β) s = f a s := rfl

@[simp] theorem get_bind_run (f : σ → Procedure ρ σ β) (s : σ) :
    (get >>= f : Procedure ρ σ β) s = f s s := rfl

@[simp] theorem modify_bind_run (g : σ → σ) (f : Unit → Procedure ρ σ β) (s : σ) :
    (modify g >>= f : Procedure ρ σ β) s = f () (g s) := rfl

@[simp] theorem state_bind_run (g : σ → α × σ) (f : α → Procedure ρ σ β) (s : σ) :
    (state g >>= f : Procedure ρ σ β) s = f (g s).1 (g s).2 := rfl

@[simp] theorem refuse_bind_run (reason : ρ) (f : α → Procedure ρ σ β) (s : σ) :
    (refuse reason >>= f : Procedure ρ σ β) s = .ok (.error reason, s) := rfl

@[simp] theorem fault_bind_run (fl : Fault) (f : α → Procedure ρ σ β) (s : σ) :
    (fault fl >>= f : Procedure ρ σ β) s = .error fl := rfl

/-- What a run has done that ends: its first step has refused, or has returned. -/
theorem bind_run_eq_ok :
    (x >>= f) s = .ok (result, s') ↔
      (∃ reason, result = .error reason ∧ x s = .ok (.error reason, s')) ∨
      ∃ a t, x s = .ok (.ok a, t) ∧ f a t = .ok (result, s') := by
  change andThen x f s = _ ↔ _
  rw [andThen]
  rcases x s with fl | ⟨reason | a, t⟩
  · simp
  · simp [eq_comm]
  · simp

/-- A run goes on behind an assertion that holds. -/
theorem assert_bind_eq_ok {f : Unit → Procedure ρ σ β} :
    (assert p >>= f) s = .ok (result, s') ↔ p = true ∧ f () s = .ok (result, s') := by
  cases p with
  | false => simp [assert]
  | true => simp [assert]

/-- A run goes on behind a value that is there. -/
theorem require_bind_eq_ok {value : Option α} :
    (require value reason >>= f) s = .ok (result, s') ↔
      (value = none ∧ result = .error reason ∧ s' = s) ∨
        ∃ a, value = some a ∧ f a s = .ok (result, s') := by
  cases value with
  | none => simp [require, eq_comm]
  | some a => simp [require]

/-- A run goes on behind a check that passes. -/
theorem check_bind_eq_ok {f : Unit → Procedure ρ σ β} :
    (check p reason >>= f) s = .ok (result, s') ↔
      (p = false ∧ result = .error reason ∧ s' = s) ∨ p = true ∧ f () s = .ok (result, s') := by
  cases p with
  | false => simp [check, eq_comm]
  | true => simp [check]

/-! ## Steps -/

/-- The runs of a procedure from a state go along steps, and refuse only for some reasons. -/
def AlongFrom (step : σ → σ → Prop) (reasons : ρ → Prop) (x : Procedure ρ σ α) (s : σ) : Prop :=
  ∀ result s', x s = .ok (result, s') →
    ReflTransGen step s s' ∧ ∀ reason, result = .error reason → reasons reason

/-- All runs of a procedure do. Instances follow the procedure down to the writes that it
consists of. -/
class Along (step : σ → σ → Prop) (reasons : ρ → Prop) (x : Procedure ρ σ α) : Prop where
  along : ∀ s, AlongFrom step reasons x s

/-- A reason is one of those that are looked at. -/
class Permits (reasons : ρ → Prop) (reason : ρ) : Prop where
  permitted : reasons reason

instance (reason : ρ) : Permits (fun _ => True) reason := ⟨trivial⟩

/-- A value that is written is the one that was there. -/
class Same {γ : Sort*} (a b : γ) : Prop where
  eq : a = b

instance {γ : Sort*} (a : γ) : Same a a := ⟨rfl⟩

/-- What follows a step may rely on what the step has returned. -/
theorem AlongFrom.bind {step : σ → σ → Prop} {reasons : ρ → Prop} (hx : AlongFrom step reasons x s)
    (hf : ∀ a t, x s = .ok (.ok a, t) → AlongFrom step reasons (f a) t) :
    AlongFrom step reasons (x >>= f) s := by
  intro result s' hrun
  rcases bind_run_eq_ok.mp hrun with ⟨reason, rfl, hrefused⟩ | ⟨a, t, hreturned, hrest⟩
  · obtain ⟨hsteps, hreasons⟩ := hx _ s' hrefused
    exact ⟨hsteps, fun _ h => hreasons _ (Except.error.inj h ▸ rfl)⟩
  · obtain ⟨hsteps, hreasons⟩ := hf a t hreturned result s' hrest
    exact ⟨(hx _ t hreturned).1.trans hsteps, hreasons⟩

namespace Along

variable {step : σ → σ → Prop} {reasons : ρ → Prop} {x y : Procedure ρ σ α}

theorem modify {g : σ → σ} (h : ∀ s, ReflTransGen step s (g s)) :
    Along step reasons (.modify g : Procedure ρ σ Unit) where
  along s result s' hrun := by
    cases hrun
    exact ⟨h s, nofun⟩

theorem state {g : σ → α × σ} (h : ∀ s, ReflTransGen step s (g s).2) :
    Along step reasons (.state g : Procedure ρ σ α) where
  along s result s' hrun := by
    cases hrun
    exact ⟨h s, nofun⟩

instance (a : α) : Along step reasons (pure a : Procedure ρ σ α) where
  along s result s' hrun := by
    cases hrun
    exact ⟨.refl, nofun⟩

instance : Along step reasons (.get : Procedure ρ σ σ) where
  along s result s' hrun := by
    cases hrun
    exact ⟨.refl, nofun⟩

instance (reason : ρ) [Permits reasons reason] :
    Along step reasons (.refuse reason : Procedure ρ σ α) where
  along s result s' hrun := by
    cases hrun
    exact ⟨.refl, fun _ h => Except.error.inj h ▸ Permits.permitted⟩

instance (fl : Fault) : Along step reasons (.fault fl : Procedure ρ σ α) where
  along s result s' hrun := by cases hrun

instance (run : Except Fault α) : Along step reasons (.lift run : Procedure ρ σ α) where
  along s result s' hrun := by
    cases run <;> cases hrun
    exact ⟨.refl, nofun⟩

theorem bind [hx : Along step reasons x] {f : α → Procedure ρ σ β}
    (hf : ∀ a, Along step reasons (f a)) : Along step reasons (x >>= f) :=
  ⟨fun s => (hx.along s).bind fun a t _ => (hf a).along t⟩

instance {f : α → Procedure ρ σ β} [Along step reasons x] [∀ a, Along step reasons (f a)] :
    Along step reasons (x >>= f) :=
  .bind fun _ => inferInstance

instance {p : Prop} [Decidable p] [Along step reasons x] [Along step reasons y] :
    Along step reasons (if p then x else y) := by
  split <;> infer_instance

instance (value : Option α) (reason : ρ) [Permits reasons reason] :
    Along step reasons (.require value reason : Procedure ρ σ α) := by
  unfold require
  split <;> infer_instance

instance (p : Bool) (reason : ρ) [Permits reasons reason] :
    Along step reasons (.check p reason : Procedure ρ σ Unit) := by
  unfold check
  infer_instance

instance (p : Bool) : Along step reasons (.assert p : Procedure ρ σ Unit) := by
  unfold assert
  infer_instance

instance {value : Option β} {g : β → Procedure ρ σ Unit} [∀ b, Along step reasons (g b)] :
    Along step reasons (.whenSome value g) := by
  unfold whenSome
  split <;> infer_instance

instance {g : γ → Procedure ρ σ PUnit} (xs : List γ) [∀ c, Along step reasons (g c)] :
    Along step reasons (xs.forM g) := by
  induction xs with
  | nil => exact inferInstanceAs (Along step reasons (pure _))
  | cons c cs ih => exact inferInstanceAs (Along step reasons (g c >>= fun _ => cs.forM g))

/-- A refusal for another reason is that of the only step which has other reasons. -/
theorem refused_iff {y : α → Procedure ρ σ β} {z : α → β → Procedure ρ σ γ} {s s' : σ} {reason : ρ}
    (hx : Along step reasons x) (hy : ∀ a, Along step (fun reason => ¬reasons reason) (y a))
    (hz : ∀ a b, Along step reasons (z a b))
    (hrun : (x >>= fun a => y a >>= z a) s = .ok (.error reason, s')) :
    ¬reasons reason ↔
      ∃ a t other t', x s = .ok (.ok a, t) ∧ y a t = .ok (.error other, t') := by
  rcases bind_run_eq_ok.mp hrun with ⟨_, ⟨⟩, hrefused⟩ | ⟨a, t, hreturned, hrest⟩
  · refine iff_of_false (not_not.mpr ((hx.along s _ s' hrefused).2 reason rfl)) ?_
    rintro ⟨a, t, other, t', hok, -⟩
    cases hrefused.symm.trans hok
  · rcases bind_run_eq_ok.mp hrest with ⟨_, ⟨⟩, hrefused⟩ | ⟨b, u, hmid, hlast⟩
    · exact iff_of_true (((hy a).along t _ s' hrefused).2 reason rfl) ⟨a, t, reason, s', hreturned, hrefused⟩
    · refine iff_of_false (not_not.mpr (((hz a b).along u _ s' hlast).2 reason rfl)) ?_
      rintro ⟨a', t', other, u', hok, hrefused⟩
      cases hreturned.symm.trans hok
      cases hmid.symm.trans hrefused

/-- Steps that keep a property keep it over a run. -/
theorem keeps (hx : Along step reasons x) {inv : σ → Prop} {s s' : σ} {result : Except ρ α}
    (hstep : ∀ s s', step s s' → inv s → inv s') (hrun : x s = .ok (result, s')) (hs : inv s) :
    inv s' := by
  obtain ⟨hsteps, -⟩ := hx.along s result s' hrun
  clear hrun
  induction hsteps with
  | refl => exact hs
  | tail _ hlast ih => exact hstep _ _ hlast ih

end Along

end Procedure

end Quicup
