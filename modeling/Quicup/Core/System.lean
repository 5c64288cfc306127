import Mathlib.Data.List.Induction

/-!
# Labelled transition systems

Runs of a system whose steps all meet a condition on the state before and the
event. The condition is how a guarded property of a system is stated: it holds
in every state that a run under the condition reaches.
-/

namespace Quicup

/-- Initial states, and steps labelled with events. -/
structure System (σ ε : Type) where
  init : σ → Prop
  step : σ → ε → σ → Prop

namespace System

variable {σ ε : Type} {S : System σ ε} {P Q : σ → ε → Prop}

/-- The states reached by the events of a run under the condition `P`. -/
inductive Run (S : System σ ε) (P : σ → ε → Prop) : List ε → σ → Prop
  | nil {s} : S.init s → Run S P [] s
  | snoc {events s e t} : Run S P events s → P s e → S.step s e t → Run S P (events ++ [e]) t

/-- A run of one step. -/
theorem Run.single {s t : σ} {e : ε} (hinit : S.init s) (hp : P s e) (hs : S.step s e t) :
    Run S P [e] t := by
  rw [← List.nil_append [e]]
  exact .snoc (.nil hinit) hp hs

/-- The condition of unrestricted runs. -/
def unrestricted (_ : σ) (_ : ε) : Prop := True

/-- What holds initially and is preserved by every step under the condition holds
wherever a run under the condition leads. -/
theorem Run.invariant {Inv : σ → Prop} (hinit : ∀ s, S.init s → Inv s)
    (hstep : ∀ s e t, Inv s → P s e → S.step s e t → Inv t) {events : List ε} {s : σ}
    (h : Run S P events s) : Inv s := by
  induction h with
  | nil h => exact hinit _ h
  | snoc _ hp hs ih => exact hstep _ _ _ ih hp hs

/-- A step may rely on an invariant known already. -/
theorem Run.invariant_with {Inv Known : σ → Prop}
    (hknown : ∀ {events s}, Run S P events s → Known s) (hinit : ∀ s, S.init s → Inv s)
    (hstep : ∀ s e t, Known s → Inv s → P s e → S.step s e t → Inv t) {events : List ε} {s : σ}
    (h : Run S P events s) : Inv s := by
  induction h with
  | nil h => exact hinit _ h
  | snoc hr hp hs ih => exact hstep _ _ _ (hknown hr) ih hp hs

/-- A run under a condition is one under any weaker condition. -/
theorem Run.mono (hPQ : ∀ s e, P s e → Q s e) {events : List ε} {s : σ} (h : Run S P events s) :
    Run S Q events s := by
  induction h with
  | nil h => exact .nil h
  | snoc _ hp hs ih => exact .snoc ih (hPQ _ _ hp) hs

/-- Conditions that agree on the states of runs have the same runs. -/
theorem Run.congr {Known : σ → Prop}
    (hknown : ∀ {events s}, Run S unrestricted events s → Known s)
    (hPQ : ∀ s e, Known s → (P s e ↔ Q s e)) {events : List ε} {s : σ} :
    Run S P events s ↔ Run S Q events s := by
  have htrue (R : σ → ε → Prop) {events : List ε} {s : σ} (h : Run S R events s) : Known s :=
    hknown (h.mono fun _ _ _ => trivial)
  constructor
  · intro h
    induction h with
    | nil h => exact .nil h
    | snoc hr hp hs ih => exact .snoc ih ((hPQ _ _ (htrue P hr)).mp hp) hs
  · intro h
    induction h with
    | nil h => exact .nil h
    | snoc hr hq hs ih => exact .snoc ih ((hPQ _ _ (htrue Q hr)).mpr hq) hs

/-- A system that does the same at every event has a run of all events. -/
theorem run_foldl {f : σ → ε → σ} (hstep : ∀ s e, S.step s e (f s e)) {s : σ} (hinit : S.init s)
    (events : List ε) : Run S unrestricted events (events.foldl f s) := by
  induction events using List.reverseRecOn with
  | nil => exact .nil hinit
  | append_singleton events e ih =>
    rw [List.foldl_append]
    exact .snoc ih trivial (hstep _ e)

/-- Where a partial function takes steps of a system under a condition, it goes along a run. -/
theorem run_foldlM {f : σ → ε → Option σ} (hstep : ∀ s e t, f s e = some t → P s e ∧ S.step s e t)
    {s t : σ} (hinit : S.init s) {events : List ε} (h : events.foldlM f s = some t) :
    Run S P events t := by
  induction events using List.reverseRecOn generalizing t with
  | nil =>
    obtain rfl := Option.some.inj h
    exact .nil hinit
  | append_singleton events e ih =>
    rw [List.foldlM_append] at h
    obtain ⟨s', hbefore, hlast⟩ := Option.bind_eq_some_iff.mp h
    have hlast' : f s' e = some t := by simpa using hlast
    obtain ⟨hp, hs⟩ := hstep s' e t hlast'
    exact .snoc (ih hbefore) hp hs

/-- When every step keeps a property exactly if it meets a condition, a run ends in
the property exactly if it is a run under the condition. -/
theorem Run.good_iff {Good Known : σ → Prop}
    (hknown : ∀ {events s}, Run S unrestricted events s → Known s)
    (hinit : ∀ s, S.init s → Good s)
    (hstep : ∀ s e t, Known s → S.step s e t → (Good t ↔ Good s ∧ P s e)) {events : List ε} {s : σ}
    (h : Run S unrestricted events s) : Good s ↔ Run S P events s := by
  constructor
  · intro hgood
    induction h with
    | nil h => exact .nil h
    | snoc hr _ hs ih =>
      obtain ⟨hbefore, hp⟩ := (hstep _ _ _ (hknown hr) hs).mp hgood
      exact .snoc (ih hbefore) hp hs
  · intro hrun
    exact hrun.invariant_with (fun hr => hknown (hr.mono fun _ _ _ => trivial)) hinit
      fun s e t hk hbefore hp hs => (hstep s e t hk hs).mpr ⟨hbefore, hp⟩

/-- A run all of whose states are good, the last one included. -/
def RunWithin (S : System σ ε) (Good : σ → Prop) (events : List ε) (s : σ) : Prop :=
  Run S (fun s _ => Good s) events s ∧ Good s

/-- When an invariant of the runs under a condition makes their states good, and a
step that does not meet the condition leads out of the good states, the runs within
the good states are the runs under the condition. -/
theorem Run.within_iff {Good Inv : σ → Prop} (hinit : ∀ s, S.init s → Inv s)
    (hgood : ∀ s, Inv s → Good s)
    (hstep : ∀ s e t, Inv s → P s e → S.step s e t → Inv t)
    (hbreaks : ∀ s e t, Inv s → S.step s e t → Good t → P s e) {events : List ε} {s : σ} :
    RunWithin S Good events s ↔ Run S P events s := by
  have hinv {events : List ε} {s : σ} (h : Run S P events s) : Inv s := h.invariant hinit hstep
  constructor
  · rintro ⟨hrun, hlast⟩
    induction hrun with
    | nil h => exact .nil h
    | snoc _ hp hs ih =>
      have hbefore := ih hp
      exact .snoc hbefore (hbreaks _ _ _ (hinv hbefore) hs hlast) hs
  · intro hrun
    refine ⟨?_, hgood s (hinv hrun)⟩
    induction hrun with
    | nil h => exact .nil h
    | snoc hr _ hs ih => exact .snoc ih (hgood _ (hinv hr)) hs

/-- Runs whose steps all have a property of the state before, the event and the state
behind. -/
inductive StepsRun (S : System σ ε) (Q : σ → ε → σ → Prop) : List ε → σ → Prop
  | nil {s} : S.init s → StepsRun S Q [] s
  | snoc {events s e t} : StepsRun S Q events s → S.step s e t → Q s e t →
      StepsRun S Q (events ++ [e]) t

/-- When on the runs under a condition every step has a property, they are runs of such steps. -/
theorem Run.stepsRun {Q : σ → ε → σ → Prop} {Known : σ → Prop}
    (hknown : ∀ {events s}, Run S P events s → Known s)
    (hstep : ∀ s e t, Known s → P s e → S.step s e t → Q s e t) {events : List ε} {s : σ}
    (h : Run S P events s) : StepsRun S Q events s := by
  induction h with
  | nil h => exact .nil h
  | snoc hr hp hs ih => exact .snoc ih hs (hstep _ _ _ (hknown hr) hp hs)

/-- When on the runs under a condition a step has a property exactly if it meets the condition,
the runs whose steps have the property are the runs under the condition. -/
theorem stepsRun_iff {Q : σ → ε → σ → Prop} {Known : σ → Prop}
    (hknown : ∀ {events s}, Run S P events s → Known s)
    (hstep : ∀ s e t, Known s → S.step s e t → (Q s e t ↔ P s e)) {events : List ε} {s : σ} :
    StepsRun S Q events s ↔ Run S P events s := by
  constructor
  · intro h
    induction h with
    | nil h => exact .nil h
    | snoc _ hs hq ih => exact .snoc ih ((hstep _ _ _ (hknown ih) hs).mp hq) hs
  · exact Run.stepsRun hknown fun s e t hk hp hs => (hstep s e t hk hs).mpr hp

end System

end Quicup
