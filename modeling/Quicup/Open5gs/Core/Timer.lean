import Mathlib.Logic.Function.Basic
import Quicup.Core.Sorted
import Quicup.Core.System
import Quicup.Open5gs.Core.Pool

/-!
# Timers

`ogs-timer.c`. A manager keeps its running timers in a tree, which is a list here, sorted by when
they are due. A pass lists the timers that are due before it calls back the first of them, and
goes through the list whatever the callbacks do to the timers on it.
-/

namespace Quicup.Open5gs

open Function

/-- A timer, and whether `lnode` is as a pass has linked it. -/
structure OgsTimer where
  cb : Option Nat := none
  data : Nat := 0
  running : Bool := false
  timeout : Int := 0
  linked : Bool := false
  deriving DecidableEq

structure TimerMgr where
  pool : OgsPool
  tree : List Nat := []
  timers : Nat → OgsTimer := fun _ => {}

namespace TimerMgr

variable (mgr : TimerMgr)

/-- `ogs_timer_mgr_create` -/
def create (capacity : Nat) : TimerMgr := { pool := .init capacity }

/-- `add_timer_node`, which stands behind the timers that are due at the same time. -/
def addTimerNode (timer : Nat) (now duration : Int) : TimerMgr :=
  let timers := update mgr.timers timer
    { mgr.timers timer with timeout := now + duration }
  { mgr with
    timers
    tree := Sorted.insert (fun a b => (timers a).timeout - (timers b).timeout) timer mgr.tree }

/-- `ogs_timer_add` -/
def add (cb : Option Nat) (data : Nat) : TimerMgr × Option Nat :=
  match mgr.pool.alloc with
  | (none, _) => (mgr, none)
  | (some timer, pool) =>
    ({ mgr with pool, timers := update mgr.timers timer { cb, data } }, some timer)

/-- `ogs_timer_stop_debug` -/
def stop (timer : Nat) : TimerMgr :=
  if (mgr.timers timer).running then
    { mgr with
      timers := update mgr.timers timer { mgr.timers timer with running := false }
      tree := mgr.tree.erase timer }
  else mgr

/-- `ogs_timer_delete_debug` -/
def delete (timer : Nat) : TimerMgr :=
  { mgr.stop timer with pool := (mgr.stop timer).pool.release timer }

/-- `ogs_timer_start_debug` -/
def start (timer : Nat) (now duration : Int) : TimerMgr :=
  let tree := if (mgr.timers timer).running then mgr.tree.erase timer else mgr.tree
  addTimerNode { mgr with
    tree
    timers := update mgr.timers timer { mgr.timers timer with running := true } }
    timer now duration

/-- The timers that a pass lists. -/
def due (current : Int) : List Nat :=
  mgr.tree.takeWhile fun timer => (mgr.timers timer).timeout ≤ current

/-- A timer that was added and not deleted. -/
def Live (timer : Nat) : Prop := timer < mgr.pool.size ∧ timer ∉ mgr.pool.free

end TimerMgr

/-- What a callback does to the timers of its manager. -/
inductive TimerOp
  | start (timer : Nat) (now duration : Int)
  | stop (timer : Nat)
  | add (cb : Option Nat) (data : Nat)
  | delete (timer : Nat)
  deriving DecidableEq

namespace TimerOp

/-- The timer is there, and a duration is not zero, as `ogs_timer_start_debug` asserts. -/
def Valid (mgr : TimerMgr) : TimerOp → Prop
  | start timer _ duration => mgr.Live timer ∧ duration ≠ 0
  | stop timer => mgr.Live timer
  | add _ _ => True
  | delete timer => mgr.Live timer

/-- A timer is not to fire any more in a pass. -/
def Bars (timer : Nat) : TimerOp → Prop
  | start other _ duration => other = timer ∧ 0 < duration
  | stop other => other = timer
  | add _ _ => False
  | delete other => other = timer

def Touches (timer : Nat) : TimerOp → Prop
  | start other _ _ => other = timer
  | stop other => other = timer
  | add _ _ => False
  | delete other => other = timer

/-- The timer was stopped, deleted or restarted. -/
def Barred (ops : List TimerOp) (timer : Nat) : Prop := ∃ op ∈ ops, op.Bars timer

def Touched (ops : List TimerOp) (timer : Nat) : Prop := ∃ op ∈ ops, op.Touches timer

/-- The timer was started, and neither stopped nor deleted since. -/
def Restarted (ops : List TimerOp) (timer : Nat) : Prop :=
  ∃ before now duration behind, ops = before ++ start timer now duration :: behind ∧
    0 < duration ∧ ∀ op ∈ behind, op ≠ stop timer ∧ op ≠ delete timer

variable {ops : List TimerOp} {timer : Nat}

theorem Restarted.barred (h : Restarted ops timer) : Barred ops timer := by
  obtain ⟨before, now, duration, behind, rfl, hduration, -⟩ := h
  exact ⟨.start timer now duration, List.mem_append_right _ (List.mem_cons_self ..), rfl, hduration⟩

theorem Restarted.of_append {op : TimerOp} (h : Restarted (ops ++ [op]) timer) :
    (∃ now duration, op = .start timer now duration) ∨
      Restarted ops timer ∧ op ≠ .stop timer ∧ op ≠ .delete timer := by
  obtain ⟨before, now, duration, behind, heq, hduration, hbehind⟩ := h
  rcases List.eq_nil_or_concat behind with rfl | ⟨behind, last, rfl⟩
  · obtain ⟨-, hop⟩ := List.append_inj' heq rfl
    exact .inl ⟨now, duration, List.head_eq_of_cons_eq hop⟩
  · rw [List.concat_eq_append] at heq hbehind
    rw [← List.cons_append, ← List.append_assoc] at heq
    obtain ⟨rfl, hop⟩ := List.append_inj' heq rfl
    obtain rfl := List.head_eq_of_cons_eq hop
    refine .inr ⟨⟨before, now, duration, behind, rfl, hduration, fun op hop => ?_⟩, ?_⟩
    · exact hbehind op (List.mem_append_left _ hop)
    · exact hbehind op (List.mem_append_right _ (List.mem_singleton_self _))

theorem not_barred_append {ops' : List TimerOp} :
    ¬ Barred (ops ++ ops') timer ↔ ¬ Barred ops timer ∧ ∀ op ∈ ops', ¬ op.Bars timer := by
  simp [Barred, or_imp, forall_and]

end TimerOp

namespace TimerMgr

def perform (mgr : TimerMgr) : TimerOp → TimerMgr
  | .start timer now duration => mgr.start timer now duration
  | .stop timer => mgr.stop timer
  | .add cb data => (mgr.add cb data).1
  | .delete timer => mgr.delete timer

/-- Each step of a callback is valid when it is taken. -/
def ValidAll : TimerMgr → List TimerOp → Prop
  | _, [] => True
  | mgr, op :: ops => op.Valid mgr ∧ ValidAll (mgr.perform op) ops

/-- The slot of a timer is handed out to a new one. -/
def Reuses (timer : Nat) : TimerMgr → List TimerOp → Prop
  | _, [] => False
  | mgr, op :: ops =>
    (∃ cb data, op = .add cb data ∧ mgr.pool.alloc.1 = some timer) ∨
      Reuses timer (mgr.perform op) ops

/-- The tree has the running timers, by when they are due. -/
structure Wf (mgr : TimerMgr) : Prop where
  held : ∃ used, mgr.pool.Holds used
  nodup : mgr.tree.Nodup
  mem_tree : ∀ timer, timer ∈ mgr.tree ↔ (mgr.timers timer).running = true
  live : ∀ timer, (mgr.timers timer).running = true → mgr.Live timer
  sorted : mgr.tree.Pairwise fun a b => (mgr.timers a).timeout ≤ (mgr.timers b).timeout

/-! ### The tree -/

variable {mgr : TimerMgr} {timer other : Nat} {now duration : Int} {op : TimerOp}

/-- Another sort of timers by the same times. -/
theorem Wf.congr (h : mgr.Wf) {timers : Nat → OgsTimer}
    (hrunning : ∀ timer, (timers timer).running = (mgr.timers timer).running)
    (htimeout : ∀ timer, (timers timer).timeout = (mgr.timers timer).timeout) :
    Wf { mgr with timers } where
  held := h.held
  nodup := h.nodup
  mem_tree timer := by
    simp only [hrunning]
    exact h.mem_tree timer
  live timer hrunning' := h.live timer ((hrunning timer).symm.trans hrunning')
  sorted := by
    simp only [htimeout]
    exact h.sorted

theorem Wf.create (capacity : Nat) : Wf (create capacity) where
  held := ⟨[], OgsPool.init_holds capacity⟩
  nodup := List.nodup_nil
  mem_tree _ := iff_of_false List.not_mem_nil Bool.false_ne_true
  live _ hrunning := absurd hrunning Bool.false_ne_true
  sorted := List.Pairwise.nil

@[simp] theorem pool_stop (mgr : TimerMgr) (timer : Nat) : (mgr.stop timer).pool = mgr.pool := by
  unfold stop
  split <;> rfl

theorem live_stop : (mgr.stop timer).Live other ↔ mgr.Live other := by
  rw [Live, Live, pool_stop]

@[simp] theorem linked_stop :
    ((mgr.stop timer).timers other).linked = (mgr.timers other).linked := by
  unfold stop
  split
  · by_cases heq : other = timer <;> simp [heq]
  · rfl

@[simp] theorem linked_start :
    ((mgr.start timer now duration).timers other).linked = (mgr.timers other).linked := by
  by_cases heq : other = timer <;> simp [start, addTimerNode, heq]

theorem timeout_stop : ((mgr.stop timer).timers other).timeout = (mgr.timers other).timeout := by
  unfold stop
  split
  · by_cases heq : other = timer <;> simp [heq]
  · rfl

/-- Other timers outlive one that is deleted. -/
theorem live_delete (hne : other ≠ timer) (h : mgr.Live other) : (mgr.delete timer).Live other := by
  obtain ⟨hlt, hnot⟩ := h
  constructor
  · simpa [delete] using hlt
  · simp only [delete, pool_stop, OgsPool.release]
    split
    · rw [List.mem_append, List.mem_singleton, not_or]
      exact ⟨hnot, hne⟩
    · exact hnot

/-- What a new timer changes. -/
theorem add_eq (mgr : TimerMgr) (cb : Option Nat) (data : Nat) :
    (mgr.pool.free = [] ∧ mgr.add cb data = (mgr, none)) ∨
      ∃ timer rest, mgr.pool.free = timer :: rest ∧ mgr.pool.alloc.1 = some timer ∧
        mgr.add cb data = ({ mgr with
          pool := { mgr.pool with free := rest }
          timers := update mgr.timers timer { cb, data } }, some timer) := by
  by_cases hfree : mgr.pool.free = []
  · exact .inl ⟨hfree, by simp [add, OgsPool.alloc, hfree]⟩
  · obtain ⟨timer, rest, htake, hcons⟩ := OgsPool.alloc_of_ne_nil hfree
    exact .inr ⟨timer, rest, hcons, congrArg Prod.fst htake, by rw [add, htake]⟩

theorem Wf.running_stop (h : mgr.Wf) :
    ((mgr.stop timer).timers other).running = true ↔ other ≠ timer ∧ other ∈ mgr.tree := by
  rw [h.mem_tree, stop]
  split
  · by_cases heq : other = timer <;> simp [heq]
  · next hnot =>
    constructor
    · intro hrunning
      exact ⟨fun heq => hnot (heq ▸ hrunning), hrunning⟩
    · exact And.right

theorem Wf.mem_stop (h : mgr.Wf) :
    other ∈ (mgr.stop timer).tree ↔ other ≠ timer ∧ other ∈ mgr.tree := by
  rw [stop]
  split
  · exact h.nodup.mem_erase_iff
  · next hnot =>
    constructor
    · intro hmem
      exact ⟨fun heq => hnot (heq ▸ (h.mem_tree other).mp hmem), hmem⟩
    · exact And.right

theorem Wf.stop (h : mgr.Wf) (timer : Nat) : (mgr.stop timer).Wf where
  held := by
    rw [pool_stop]
    exact h.held
  nodup := by
    rw [TimerMgr.stop]
    split
    · exact h.nodup.erase timer
    · exact h.nodup
  mem_tree other := by rw [h.mem_stop, h.running_stop]
  live other hrunning := by
    rw [live_stop]
    exact h.live other ((h.mem_tree other).mp (h.running_stop.mp hrunning).2)
  sorted := by
    rw [TimerMgr.stop]
    split
    · refine (h.sorted.sublist List.erase_sublist).imp ?_
      intro a b hab
      by_cases ha : a = timer <;> by_cases hb : b = timer <;> simp_all
    · exact h.sorted

theorem timeout_start (hne : other ≠ timer) :
    ((mgr.start timer now duration).timers other).timeout = (mgr.timers other).timeout := by
  simp [start, addTimerNode, hne]

/-- A timer that is started stands where its time says, among the others. -/
theorem tree_start (mgr : TimerMgr) (timer : Nat) (now duration : Int) :
    (mgr.start timer now duration).tree = Sorted.insert
      (fun a b => ((mgr.start timer now duration).timers a).timeout -
        ((mgr.start timer now duration).timers b).timeout) timer (mgr.stop timer).tree := by
  rw [stop]
  split
  · next hrunning => simp [start, addTimerNode, hrunning]
  · next hnot => simp [start, addTimerNode, hnot]

theorem Wf.mem_start (h : mgr.Wf) :
    other ∈ (mgr.start timer now duration).tree ↔ other = timer ∨ other ∈ mgr.tree := by
  rw [tree_start, Sorted.mem_insert, h.mem_stop]
  by_cases heq : other = timer <;> simp [heq]

theorem Wf.start (h : mgr.Wf) (hlive : mgr.Live timer) (now duration : Int) :
    (mgr.start timer now duration).Wf := by
  have hstop := h.stop timer
  have hnot : timer ∉ (mgr.stop timer).tree := fun hmem => (h.mem_stop.mp hmem).1 rfl
  have hsame {other : Nat} (hother : other ∈ (mgr.stop timer).tree) :
      ((mgr.start timer now duration).timers other).timeout =
        ((mgr.stop timer).timers other).timeout := by
    rw [timeout_start (h.mem_stop.mp hother).1, timeout_stop]
  have hrunning (other : Nat) :
      ((mgr.start timer now duration).timers other).running = true ↔
        other = timer ∨ (mgr.timers other).running = true := by
    by_cases heq : other = timer <;> simp [TimerMgr.start, addTimerNode, heq]
  refine ⟨h.held, ?_, fun other => ?_, fun other hother => ?_, ?_⟩
  · rw [tree_start, (Sorted.perm_insert ..).nodup_iff]
    exact List.nodup_cons.mpr ⟨hnot, hstop.nodup⟩
  · rw [h.mem_start, hrunning, h.mem_tree]
  · rcases (hrunning other).mp hother with rfl | hother
    · exact hlive
    · exact h.live other hother
  · rw [tree_start]
    refine Sorted.pairwise_insert Int.le_trans (fun x hx hgreater => ?_) (fun x hx hless => ?_) ?_
    · exact Int.le_of_lt (Int.sub_pos.mp hgreater)
    · exact Int.not_lt.mp fun hlt => hless (Int.sub_pos.mpr hlt)
    · refine hstop.sorted.imp_of_mem fun ha hb hab => ?_
      rw [hsame ha, hsame hb]
      exact hab

theorem Wf.delete (h : mgr.Wf) (hlive : mgr.Live timer) : (mgr.delete timer).Wf := by
  have hstop := h.stop timer
  obtain ⟨used, hheld⟩ := hstop.held
  have hlive' : (mgr.stop timer).Live timer := live_stop.mpr hlive
  have hused : timer ∈ used := by
    by_contra hnot
    exact hlive'.2 ((hheld.mem_free_iff hlive'.1).mpr hnot)
  have hrelease := (hheld.perm (List.perm_cons_erase hused)).release
  refine ⟨⟨_, hrelease⟩, hstop.nodup, hstop.mem_tree, fun other hother => ?_, hstop.sorted⟩
  have hbefore := hstop.live other hother
  have hne : other ≠ timer := (h.running_stop.mp hother).1
  exact live_delete hne (live_stop.mp hbefore)

theorem Wf.add (h : mgr.Wf) (cb : Option Nat) (data : Nat) : (mgr.add cb data).1.Wf := by
  rcases mgr.add_eq cb data with ⟨-, hadd⟩ | ⟨timer, rest, hfree, htake, hadd⟩
  · rw [hadd]
    exact h
  · obtain ⟨used, hheld⟩ := h.held
    have halloc : mgr.pool.alloc.2 = { mgr.pool with free := rest } := by
      simp [OgsPool.alloc, hfree]
    have hholds := halloc ▸ (hheld.alloc htake).1
    have hidle : (mgr.timers timer).running = false := by
      by_contra hrunning
      have hlive := h.live timer (by simpa using hrunning)
      exact hlive.2 (hfree ▸ List.mem_cons_self ..)
    have hrunning (other : Nat) :
        (update mgr.timers timer { cb, data } other).running =
          (mgr.timers other).running := by
      by_cases heq : other = timer
      · rw [heq, update_self, hidle]
      · rw [update_of_ne heq]
    have hne {other : Nat} (hother : other ∈ mgr.tree) : other ≠ timer := by
      rintro rfl
      rw [h.mem_tree, hidle] at hother
      exact Bool.false_ne_true hother
    rw [hadd]
    refine ⟨⟨_, hholds⟩, h.nodup, fun other => ?_, fun other hother => ?_, ?_⟩
    · simp only [hrunning]
      exact h.mem_tree other
    · simp only [hrunning] at hother
      obtain ⟨hlt, hnot⟩ := h.live other hother
      exact ⟨hlt, fun hmem => hnot (hfree ▸ List.mem_cons_of_mem _ hmem)⟩
    · refine h.sorted.imp_of_mem fun ha hb hab => ?_
      simp only [update_of_ne (hne ha), update_of_ne (hne hb)]
      exact hab

theorem Wf.perform (h : mgr.Wf) (hvalid : op.Valid mgr) : (mgr.perform op).Wf := by
  cases op with
  | start timer now duration => exact h.start hvalid.1 now duration
  | stop timer => exact h.stop timer
  | add cb data => exact h.add cb data
  | delete timer => exact h.delete hvalid

/-! ### The steps of a callback -/

variable {ops : List TimerOp} {waiting : List Nat}

/-- Only a new timer in its slot loses the link of a timer. -/
theorem linked_perform :
    ((mgr.perform op).timers timer).linked = true ↔ (mgr.timers timer).linked = true ∧
      ¬ ∃ cb data, op = .add cb data ∧ mgr.pool.alloc.1 = some timer := by
  cases op with
  | start other now duration => simp [perform]
  | stop other => simp [perform]
  | delete other => simp [perform, delete]
  | add cb data =>
    rcases mgr.add_eq cb data with ⟨hfree, hadd⟩ | ⟨other, rest, hfree, htake, hadd⟩
    · simp [perform, hadd, OgsPool.alloc, hfree]
    · by_cases heq : timer = other
      · simp [perform, hadd, htake, heq]
      · simp [perform, hadd, htake, heq, Ne.symm heq]

theorem linked_foldl : ((ops.foldl perform mgr).timers timer).linked = true ↔
    (mgr.timers timer).linked = true ∧ ¬ Reuses timer mgr ops := by
  induction ops generalizing mgr with
  | nil => simp [Reuses]
  | cons op ops ih =>
    rw [List.foldl_cons, ih, linked_perform, Reuses, not_or, and_assoc]

/-- What is known of a manager and of the timers that wait, behind some steps. -/
structure Carries (waiting : List Nat) (mgr : TimerMgr) (ops : List TimerOp) : Prop where
  wf : mgr.Wf
  fresh : ∀ timer ∈ waiting, ¬ TimerOp.Barred ops timer →
    mgr.Live timer ∧ (mgr.timers timer).linked = true
  scheduled : ∀ timer, TimerOp.Restarted ops timer → timer ∈ mgr.tree

theorem Wf.foldl (h : mgr.Wf) (hvalid : mgr.ValidAll ops) :
    (ops.foldl TimerMgr.perform mgr).Wf := by
  induction ops generalizing mgr with
  | nil => exact h
  | cons op ops ih => exact ih (h.perform hvalid.1) hvalid.2

/-- A timer that a step does not bar is still there, and linked. -/
theorem live_perform (hlive : mgr.Live timer) (hbars : ¬ op.Bars timer) :
    (mgr.perform op).Live timer ∧ ((mgr.perform op).timers timer).linked =
      (mgr.timers timer).linked := by
  cases op with
  | start other now duration => exact ⟨hlive, linked_start⟩
  | stop other => exact ⟨live_stop.mpr hlive, linked_stop⟩
  | delete other => exact ⟨live_delete (fun heq => hbars heq.symm) hlive, linked_stop⟩
  | add cb data =>
    rcases mgr.add_eq cb data with ⟨-, hadd⟩ | ⟨other, rest, hfree, -, hadd⟩
    · rw [perform, hadd]
      exact ⟨hlive, rfl⟩
    · have hne : timer ≠ other := fun heq => hlive.2 (hfree ▸ heq ▸ List.mem_cons_self ..)
      rw [perform, hadd]
      refine ⟨⟨hlive.1, fun hmem => hlive.2 (hfree ▸ List.mem_cons_of_mem _ hmem)⟩, ?_⟩
      simp [hne]

/-- A running timer leaves the tree where it is stopped or deleted. -/
theorem Wf.mem_perform (h : mgr.Wf) (hmem : timer ∈ mgr.tree) (hstop : op ≠ .stop timer)
    (hdelete : op ≠ .delete timer) : timer ∈ (mgr.perform op).tree := by
  cases op with
  | start other now duration => exact h.mem_start.mpr (.inr hmem)
  | stop other => exact h.mem_stop.mpr ⟨fun heq => hstop (heq ▸ rfl), hmem⟩
  | delete other => exact h.mem_stop.mpr ⟨fun heq => hdelete (heq ▸ rfl), hmem⟩
  | add cb data =>
    rcases mgr.add_eq cb data with ⟨-, hadd⟩ | ⟨other, rest, -, -, hadd⟩ <;>
      rw [TimerMgr.perform, hadd] <;> exact hmem

theorem Carries.perform (h : mgr.Carries waiting ops) (hvalid : op.Valid mgr) :
    (mgr.perform op).Carries waiting (ops ++ [op]) where
  wf := h.wf.perform hvalid
  fresh timer hmem hbarred := by
    obtain ⟨hbefore, hop⟩ := TimerOp.not_barred_append.mp hbarred
    obtain ⟨hlive, hlinked⟩ := h.fresh timer hmem hbefore
    obtain ⟨hlive', hlinked'⟩ := live_perform hlive (hop op (List.mem_singleton_self _))
    exact ⟨hlive', hlinked'.trans hlinked⟩
  scheduled timer hrestarted := by
    rcases hrestarted.of_append with ⟨now, duration, rfl⟩ | ⟨hbefore, hstop, hdelete⟩
    · exact h.wf.mem_start.mpr (.inl rfl)
    · exact h.wf.mem_perform (h.scheduled timer hbefore) hstop hdelete

theorem Carries.foldl (h : mgr.Carries waiting ops) {ops' : List TimerOp}
    (hvalid : mgr.ValidAll ops') :
    (ops'.foldl TimerMgr.perform mgr).Carries waiting (ops ++ ops') := by
  induction ops' generalizing mgr ops with
  | nil => rwa [List.append_nil]
  | cons op ops' ih =>
    rw [List.append_cons]
    exact ih (h.perform hvalid.1) hvalid.2

/-- The timer whose turn it is stops, where no callback has barred it. -/
theorem Carries.stop (h : mgr.Carries (timer :: waiting) ops) (hnot : timer ∉ waiting)
    (hbarred : ¬ TimerOp.Barred ops timer) : (mgr.stop timer).Carries waiting ops where
  wf := h.wf.stop timer
  fresh other hmem hother := by
    obtain ⟨hlive, hlinked⟩ := h.fresh other (List.mem_cons_of_mem _ hmem) hother
    exact ⟨live_stop.mpr hlive, linked_stop.trans hlinked⟩
  scheduled other hrestarted := by
    refine h.wf.mem_stop.mpr ⟨?_, h.scheduled other hrestarted⟩
    rintro rfl
    exact hbarred hrestarted.barred

end TimerMgr

/-! ## Passes -/

/-- A pass of `ogs_timer_mgr_expire`: the manager it has found and the one there is, the timers of
the list that wait and those that have fired, and what callbacks have done. -/
structure TimerPass where
  found : TimerMgr
  current : Int
  mgr : TimerMgr
  waiting : List Nat
  fired : List Nat := []
  ops : List TimerOp := []

namespace TimerPass

variable (s : TimerPass)

/-- The list of the timers that are due. -/
def begin (mgr : TimerMgr) (current : Int) : TimerPass where
  found := mgr
  current := current
  mgr := { mgr with timers := fun timer =>
    { mgr.timers timer with linked := timer ∈ mgr.due current } }
  waiting := mgr.due current

/-- A timer of the list fires. Behind its callback the loop follows the link of the timer, which
`ogs_timer_add` clears with the rest of its slot. -/
def fire (ops : List TimerOp) : TimerPass :=
  match s.waiting with
  | [] => s
  | this :: rest =>
    let mgr := ops.foldl TimerMgr.perform (s.mgr.stop this)
    { s with
      mgr
      waiting := if (mgr.timers this).linked then rest else []
      fired := s.fired ++ [this]
      ops := s.ops ++ ops }

/-- What a callback may do. A timer without one does nothing. -/
def Valid (ops : List TimerOp) : Prop :=
  ∀ this rest, s.waiting = this :: rest →
    (s.mgr.stop this).ValidAll ops ∧ ((s.mgr.timers this).cb = none → ops = [])

/-- A pass from any manager, with one step for each timer that fires. -/
def system : System TimerPass (List TimerOp) where
  init s := ∃ mgr current, TimerMgr.Wf mgr ∧ s = begin mgr current
  step s ops t := s.waiting ≠ [] ∧ s.Valid ops ∧ t = s.fire ops

/-- What is demanded of a pass where a timer fires. -/
structure Lawful (t : TimerPass) : Prop where
  unbarred : ∀ timer, t.fired = s.fired ++ [timer] → ¬ TimerOp.Barred s.ops timer
  scheduled : ∀ timer, TimerOp.Restarted t.ops timer → timer ∈ t.mgr.tree
  once : t.fired.Nodup
  all : t.waiting = [] → ∀ timer ∈ t.found.due t.current,
    timer ∈ t.fired ∨ TimerOp.Touched t.ops timer
  ordered : t.fired.Pairwise fun a b =>
    (t.found.timers a).timeout ≤ (t.found.timers b).timeout

/-- No callback has barred the timer whose turn it is, and its own callback does not hand out its
slot while others wait that none has touched. -/
def Undisturbed (s : TimerPass) (ops : List TimerOp) : Prop :=
  ∀ this rest, s.waiting = this :: rest → ¬ TimerOp.Barred s.ops this ∧
    (TimerMgr.Reuses this (s.mgr.stop this) ops →
      ∀ timer ∈ rest, TimerOp.Touched (s.ops ++ ops) timer)

/-! ### Runs -/

variable {s t : TimerPass} {ops : List TimerOp} {this : Nat} {rest : List Nat} {mgr : TimerMgr}

structure Kept (s : TimerPass) : Prop where
  found : s.found.Wf
  carries : s.mgr.Carries s.waiting s.ops
  split : ∃ dropped, s.found.due s.current = s.fired ++ s.waiting ++ dropped ∧
    (dropped ≠ [] → s.waiting = []) ∧ ∀ timer ∈ dropped, TimerOp.Touched s.ops timer

theorem due_nodup (h : mgr.Wf) (current : Int) : (mgr.due current).Nodup :=
  h.nodup.sublist (List.takeWhile_sublist _)

theorem Kept.begin (h : mgr.Wf) (current : Int) :
    Kept (TimerPass.begin mgr current) where
  found := h
  carries :=
    { wf := h.congr (fun _ => rfl) fun _ => rfl
      fresh := fun timer hmem _ => by
        have hrunning := (h.mem_tree timer).mp ((List.takeWhile_sublist _).subset hmem)
        exact ⟨h.live timer hrunning, decide_eq_true hmem⟩
      scheduled := fun timer hrestarted => by
        obtain ⟨op, hop, -⟩ := hrestarted.barred
        cases hop }
  split := ⟨[], by simp [TimerPass.begin], fun hne => absurd rfl hne, List.forall_mem_nil _⟩

theorem fire_of_cons (hwaiting : s.waiting = this :: rest) : s.fire ops =
      let mgr := ops.foldl TimerMgr.perform (s.mgr.stop this)
      { s with
        mgr
        waiting := if (mgr.timers this).linked then rest else []
        fired := s.fired ++ [this]
        ops := s.ops ++ ops } := by
  rw [fire, hwaiting]

/-- What waits, and what has fired, are different timers. -/
theorem Kept.disjoint (h : s.Kept) (hwaiting : s.waiting = this :: rest) :
    this ∉ rest ∧ ∀ timer ∈ rest, timer ∉ s.fired ++ [this] := by
  obtain ⟨dropped, hdue, -⟩ := h.split
  have hnodup := due_nodup h.found s.current
  have hsplit : s.found.due s.current = (s.fired ++ [this]) ++ (rest ++ dropped) := by
    simp [hdue, hwaiting]
  rw [hsplit] at hnodup
  have hdisjoint {timer : Nat} (hrest : timer ∈ rest) : timer ∉ s.fired ++ [this] :=
    fun hfired => List.disjoint_of_nodup_append hnodup hfired (List.mem_append_left _ hrest)
  refine ⟨fun hmem => hdisjoint hmem ?_, fun timer hmem => hdisjoint hmem⟩
  exact List.mem_append_right _ (List.mem_singleton_self _)

/-- A turn of a pass where nothing bars the timer. -/
theorem Kept.fire (h : s.Kept) (hwaiting : s.waiting = this :: rest) (hvalid : s.Valid ops)
    (hundisturbed : s.Undisturbed ops) : (s.fire ops).Kept := by
  obtain ⟨hbarred, hreuses⟩ := hundisturbed this rest hwaiting
  obtain ⟨dropped, hdue, hdropped, -⟩ := h.split
  have hnone : dropped = [] := by
    by_contra hne
    exact absurd (hwaiting.symm.trans (hdropped hne)) (List.cons_ne_nil _ _)
  have hcarries : s.mgr.Carries (this :: rest) s.ops := hwaiting ▸ h.carries
  obtain ⟨-, hlinked⟩ := hcarries.fresh this (List.mem_cons_self ..) hbarred
  have hstop := hcarries.stop (h.disjoint hwaiting).1 hbarred
  have hbehind := hstop.foldl (hvalid this rest hwaiting).1
  have hlink := @TimerMgr.linked_foldl (s.mgr.stop this) this ops
  rw [TimerMgr.linked_stop] at hlink
  rw [hwaiting, hnone, List.append_nil] at hdue
  rw [fire_of_cons hwaiting]
  by_cases hreuse : TimerMgr.Reuses this (s.mgr.stop this) ops
  · have hcut : ((ops.foldl TimerMgr.perform (s.mgr.stop this)).timers this).linked = false :=
      Bool.eq_false_iff.mpr fun hsome => (hlink.mp hsome).2 hreuse
    simp only [hcut]
    refine ⟨h.found, ⟨hbehind.wf, List.forall_mem_nil _, hbehind.scheduled⟩, rest, ?_,
      fun _ => rfl, hreuses hreuse⟩
    simp [hdue]
  · have hstays := hlink.mpr ⟨hlinked, hreuse⟩
    simp only [hstays]
    refine ⟨h.found, hbehind, [], ?_, fun hne => absurd rfl hne, List.forall_mem_nil _⟩
    simp [hdue]

theorem Kept.run {callbacks : List (List TimerOp)} (h : system.Run Undisturbed callbacks s) :
    s.Kept := by
  apply h.invariant
  · rintro s ⟨mgr, current, hwf, rfl⟩
    exact .begin hwf current
  · rintro s ops t hkept hundisturbed ⟨hne, hvalid, rfl⟩
    obtain ⟨this, rest, hwaiting⟩ := List.exists_cons_of_ne_nil hne
    exact hkept.fire hwaiting hvalid hundisturbed

/-- A turn is lawful where nothing bars the timer. -/
theorem Kept.lawful (h : s.Kept) (hwaiting : s.waiting = this :: rest) (hvalid : s.Valid ops)
    (hundisturbed : s.Undisturbed ops) : s.Lawful (s.fire ops) := by
  have ht := h.fire hwaiting hvalid hundisturbed
  obtain ⟨dropped, hdue, -, hdropped⟩ := ht.split
  have hsublist : (s.fire ops).fired.Sublist ((s.fire ops).found.due (s.fire ops).current) := by
    rw [hdue, List.append_assoc]
    exact List.sublist_append_left _ _
  have hsorted : ((s.fire ops).found.due (s.fire ops).current).Pairwise fun a b =>
      ((s.fire ops).found.timers a).timeout ≤ ((s.fire ops).found.timers b).timeout :=
    ht.found.sorted.sublist (List.takeWhile_sublist _)
  refine ⟨fun timer hfired => ?_, ht.carries.scheduled, (due_nodup ht.found _).sublist hsublist,
    fun hend timer hmem => ?_, hsorted.sublist hsublist⟩
  · rw [fire_of_cons hwaiting] at hfired
    obtain rfl := List.head_eq_of_cons_eq (List.append_inj' hfired rfl).2
    exact (hundisturbed this rest hwaiting).1
  · rw [hdue, hend, List.append_nil] at hmem
    exact (List.mem_append.mp hmem).imp_right (hdropped timer)

theorem Kept.undisturbed (h : s.Kept) (hlawful : s.Lawful (s.fire ops)) : s.Undisturbed ops := by
  intro this rest hwaiting
  have hfire := @fire_of_cons s ops this rest hwaiting
  refine ⟨hlawful.unbarred this (by rw [hfire]), fun hreuse timer hmem => ?_⟩
  have hcut : ((ops.foldl TimerMgr.perform (s.mgr.stop this)).timers this).linked = false :=
    Bool.eq_false_iff.mpr fun hsome => (TimerMgr.linked_foldl.mp hsome).2 hreuse
  have hall := hlawful.all (by simp [hfire, hcut]) timer
  rw [hfire] at hall
  obtain ⟨dropped, hdue, -⟩ := h.split
  have hmem' : timer ∈ s.found.due s.current := by
    rw [hdue, hwaiting]
    exact List.mem_append_left _ (List.mem_append_right _ (List.mem_cons_of_mem _ hmem))
  exact (hall hmem').resolve_left ((h.disjoint hwaiting).2 timer hmem)

/-- The passes that keep to the law are those in which nothing bars a timer that waits. -/
theorem pass_lawful_iff {callbacks : List (List TimerOp)} :
    system.StepsRun (fun s _ t => s.Lawful t) callbacks s ↔
      system.Run Undisturbed callbacks s := by
  apply System.stepsRun_iff Kept.run
  rintro s ops t hkept ⟨hne, hvalid, rfl⟩
  obtain ⟨this, rest, hwaiting⟩ := List.exists_cons_of_ne_nil hne
  exact ⟨hkept.undisturbed, hkept.lawful hwaiting hvalid⟩

/-- Two timers are due at the times 10 and 20. -/
private def twoTimers : TimerMgr :=
  [.add (some 1) 0, .add (some 2) 0, .start 0 0 10, .start 1 0 20].foldl TimerMgr.perform
    (TimerMgr.create 2)

/-- The callback of the first timer stops the second one, which fires all the same. -/
theorem stopped_fires : ¬ ∀ (callbacks : List (List TimerOp)) (s t : TimerPass)
    (ops : List TimerOp), system.Run System.unrestricted callbacks s → system.step s ops t →
      s.Lawful t := by
  intro h
  have hwf : twoTimers.Wf := (TimerMgr.Wf.create 2).foldl
    ⟨trivial, trivial, ⟨⟨by decide, by decide⟩, by decide⟩, ⟨⟨by decide, by decide⟩, by decide⟩,
      trivial⟩
  let first := begin twoTimers 100
  have hvalid : first.Valid [.stop 1] := by
    intro this rest hwaiting
    obtain ⟨rfl, rfl⟩ := List.cons.inj (show [0, 1] = this :: rest from hwaiting)
    exact ⟨⟨⟨by decide, by decide⟩, trivial⟩, fun hnone => absurd hnone (Option.some_ne_none _)⟩
  have hrun : system.Run System.unrestricted [[.stop 1]] (first.fire [.stop 1]) :=
    .single ⟨twoTimers, 100, hwf, rfl⟩ trivial ⟨List.cons_ne_nil 0 [1], hvalid, rfl⟩
  have hlawful := h _ _ _ [] hrun ⟨List.cons_ne_nil 1 [], fun _ _ _ => ⟨trivial, fun _ => rfl⟩, rfl⟩
  exact hlawful.unbarred 1 rfl ⟨.stop 1, List.mem_singleton_self _, rfl⟩

end TimerPass

end Quicup.Open5gs
