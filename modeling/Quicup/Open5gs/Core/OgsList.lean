import Mathlib.Logic.Function.Basic
import Mathlib.Tactic.SplitIfs

/-!
# Lists of linked nodes

`ogs-list.h`: a node carries the links of the list it stands in, and a list is a head with the first
and the last node. Several lists share the memory of their nodes. Nothing says whether a node stands
in a list, so that removing one that does not writes over the head.
-/

namespace Quicup.Open5gs

open Function

/-- `ogs_list_t`: the links of a node, or the first and the last node of a list. -/
@[ext] structure OgsList (α : Type) where
  next : Option α := none
  prev : Option α := none
  deriving DecidableEq

/-- The heads of lists and the links of all nodes. -/
structure ListMemory (κ α : Type) where
  cell : κ ⊕ α → OgsList α := fun _ => {}

namespace ListMemory

variable {κ α : Type}

/-- The cell of a node, or of the head where there is no node. -/
def place (k : κ) (node : Option α) : κ ⊕ α := node.elim (.inl k) .inr

section

variable (mem : ListMemory κ α)

def head (k : κ) : OgsList α := mem.cell (.inl k)

def link (n : α) : OgsList α := mem.cell (.inr n)

/-- The nodes from one on, so many at most. -/
def walk : Nat → Option α → List α
  | 0, _ => []
  | _, none => []
  | count + 1, some n => n :: walk count (mem.link n).next

/-- The first nodes of a list, so many at most. -/
def contents (k : κ) (count : Nat) : List α := mem.walk count (mem.head k).next

variable [DecidableEq κ] [DecidableEq α]

def setNext (c : κ ⊕ α) (next : Option α) : ListMemory κ α where
  cell := update mem.cell c { mem.cell c with next }

def setPrev (c : κ ⊕ α) (prev : Option α) : ListMemory κ α where
  cell := update mem.cell c { mem.cell c with prev }

/-- The memory of a node is set to zero. -/
def clear (n : α) : ListMemory κ α where
  cell := update mem.cell (.inr n) {}

/-- `ogs_list_add` -/
def add (k : κ) (n : α) : ListMemory κ α :=
  let last := (mem.head k).prev
  (((mem.setPrev (.inr n) last).setNext (.inr n) none).setNext (place k last) (some n)).setPrev
    (.inl k) (some n)

/-- `ogs_list_remove` -/
def remove (k : κ) (n : α) : ListMemory κ α :=
  let prev := (mem.link n).prev
  let next := (mem.link n).next
  (mem.setNext (place k prev) next).setPrev (place k next) prev

end

/-- The nodes that are live are linked in chains, each within the nodes of one list. The first and
the last node of a list are ends of chains. They need not be of the same chain, and a chain need not
be in reach of its head. -/
structure Wf (mem : ListMemory κ α) (live : α → Prop) (key : α → κ) : Prop where
  next : ∀ {n m}, live n → (mem.link n).next = some m →
    live m ∧ (mem.link m).prev = some n ∧ key m = key n
  prev : ∀ {n m}, live n → (mem.link n).prev = some m →
    live m ∧ (mem.link m).next = some n ∧ key m = key n
  first : ∀ {k m}, (mem.head k).next = some m → live m ∧ (mem.link m).prev = none ∧ key m = k
  last : ∀ {k m}, (mem.head k).prev = some m → live m ∧ (mem.link m).next = none ∧ key m = k

variable {mem mem' : ListMemory κ α} {live : α → Prop} {key : α → κ} {k : κ} {n : α} {p : Option α}

theorem Wf.empty (live : α → Prop) (key : α → κ) : Wf (κ := κ) {} live key where
  next _ h := nomatch h
  prev _ h := nomatch h
  first h := nomatch h
  last h := nomatch h

theorem Wf.congr (h : mem.Wf live key) {live' : α → Prop} {key' : α → κ}
    (hlive : ∀ n, live' n ↔ live n) (hkey : ∀ n, live n → key' n = key n) : mem.Wf live' key' := by
  constructor
  · intro a m ha hm
    obtain ⟨hm', hprev, hk⟩ := h.next ((hlive a).mp ha) hm
    exact ⟨(hlive m).mpr hm', hprev, by rw [hkey m hm', hkey a ((hlive a).mp ha), hk]⟩
  · intro a m ha hm
    obtain ⟨hm', hnext, hk⟩ := h.prev ((hlive a).mp ha) hm
    exact ⟨(hlive m).mpr hm', hnext, by rw [hkey m hm', hkey a ((hlive a).mp ha), hk]⟩
  · intro k m hm
    obtain ⟨hm', hprev, hk⟩ := h.first hm
    exact ⟨(hlive m).mpr hm', hprev, (hkey m hm').trans hk⟩
  · intro k m hm
    obtain ⟨hm', hnext, hk⟩ := h.last hm
    exact ⟨(hlive m).mpr hm', hnext, (hkey m hm').trans hk⟩

/-! ## Walks -/

/-- A walk reads the links of live nodes only. -/
theorem Wf.walk_eq (h : mem.Wf live key)
    (hlink : ∀ m, live m → (mem'.link m).next = (mem.link m).next) (count : Nat) {start : Option α}
    (hstart : ∀ m, start = some m → live m) : mem'.walk count start = mem.walk count start := by
  induction count generalizing start with
  | zero => cases start <;> rfl
  | succ count ih =>
    cases start with
    | none => rfl
    | some m =>
      have hlive := hstart m rfl
      rw [walk, walk, hlink m hlive]
      exact congrArg (m :: ·) (ih fun next hnext => (h.next hlive hnext).1)

/-- A list whose head stays has the same nodes if no link of a live node changes. -/
theorem Wf.contents_eq (h : mem.Wf live key)
    (hlink : ∀ m, live m → (mem'.link m).next = (mem.link m).next)
    (hhead : (mem'.head k).next = (mem.head k).next) (count : Nat) :
    mem'.contents k count = mem.contents k count := by
  rw [contents, hhead]
  exact h.walk_eq hlink count fun m hm => (h.first hm).1

/-- A list without a first node. -/
theorem contents_eq_nil (h : (mem.head k).next = none) (count : Nat) : mem.contents k count = [] := by
  rw [contents, h]
  cases count <;> rfl

theorem head_of_contents (h : mem.contents k 1 = []) : (mem.head k).next = none := by
  rw [contents] at h
  cases hhead : (mem.head k).next with
  | none => rfl
  | some n => rw [hhead] at h; exact nomatch h

/-! ## What the operations write -/

theorem place_eq_inl {k' : κ} : Sum.inl k' = place k p ↔ p = none ∧ k' = k := by
  cases p <;> simp [place]

theorem place_eq_inr {m : α} : Sum.inr m = place k p ↔ p = some m := by
  cases p <;> simp [place, eq_comm]

section

variable [DecidableEq κ] [DecidableEq α]

theorem next_setNext (c c' : κ ⊕ α) (value : Option α) :
    ((mem.setNext c value).cell c').next = if c' = c then value else (mem.cell c').next := by
  simp only [setNext, update_apply]
  split_ifs <;> rfl

theorem prev_setNext (c c' : κ ⊕ α) (value : Option α) :
    ((mem.setNext c value).cell c').prev = (mem.cell c').prev := by
  simp only [setNext, update_apply]
  split_ifs with hc
  · rw [hc]
  · rfl

theorem prev_setPrev (c c' : κ ⊕ α) (value : Option α) :
    ((mem.setPrev c value).cell c').prev = if c' = c then value else (mem.cell c').prev := by
  simp only [setPrev, update_apply]
  split_ifs <;> rfl

theorem next_setPrev (c c' : κ ⊕ α) (value : Option α) :
    ((mem.setPrev c value).cell c').next = (mem.cell c').next := by
  simp only [setPrev, update_apply]
  split_ifs with hc
  · rw [hc]
  · rfl

variable (mem k n)

theorem link_next_add (m : α) :
    ((mem.add k n).link m).next =
      if (mem.head k).prev = some m then some n else if m = n then none else (mem.link m).next := by
  simp only [add, link, next_setPrev, next_setNext, place_eq_inr, Sum.inr.injEq]

theorem link_prev_add (m : α) :
    ((mem.add k n).link m).prev = if m = n then (mem.head k).prev else (mem.link m).prev := by
  simp only [add, link, prev_setPrev, prev_setNext, reduceCtorEq, Sum.inr.injEq, if_false]

theorem head_next_add (k' : κ) :
    ((mem.add k n).head k').next =
      if (mem.head k).prev = none ∧ k' = k then some n else (mem.head k').next := by
  simp only [add, head, next_setPrev, next_setNext, place_eq_inl, reduceCtorEq, if_false]
  rfl

theorem head_prev_add (k' : κ) :
    ((mem.add k n).head k').prev = if k' = k then some n else (mem.head k').prev := by
  simp only [add, head, prev_setPrev, prev_setNext, reduceCtorEq, Sum.inl.injEq, if_false]

theorem link_next_remove (m : α) :
    ((mem.remove k n).link m).next =
      if (mem.link n).prev = some m then (mem.link n).next else (mem.link m).next := by
  simp only [remove, link, next_setPrev, next_setNext, place_eq_inr]
  rfl

theorem link_prev_remove (m : α) :
    ((mem.remove k n).link m).prev =
      if (mem.link n).next = some m then (mem.link n).prev else (mem.link m).prev := by
  simp only [remove, link, prev_setPrev, prev_setNext, place_eq_inr]
  rfl

theorem head_next_remove (k' : κ) :
    ((mem.remove k n).head k').next =
      if (mem.link n).prev = none ∧ k' = k then (mem.link n).next else (mem.head k').next := by
  simp only [remove, head, next_setPrev, next_setNext, place_eq_inl]

theorem head_prev_remove (k' : κ) :
    ((mem.remove k n).head k').prev =
      if (mem.link n).next = none ∧ k' = k then (mem.link n).prev else (mem.head k').prev := by
  simp only [remove, head, prev_setPrev, prev_setNext, place_eq_inl]

variable {mem k n}

theorem cell_clear (c : κ ⊕ α) :
    (mem.clear n).cell c = if c = .inr n then {} else mem.cell c := update_apply ..

end

/-! ## Chains -/

section

variable [DecidableEq κ] [DecidableEq α] {m : α}

theorem link_clear (h : m ≠ n) : (mem.clear n).link m = mem.link m := by
  rw [link, cell_clear, if_neg (mt Sum.inr.inj h)]
  rfl

theorem head_clear : (mem.clear n).head k = mem.head k := by
  rw [head, cell_clear, if_neg Sum.inl_ne_inr]
  rfl

theorem Wf.clear (h : mem.Wf live key) (hn : ¬live n) : (mem.clear n).Wf live key := by
  have hlink {m : α} (hm : live m) : (mem.clear n).link m = mem.link m :=
    link_clear fun heq => hn (heq ▸ hm)
  constructor
  · intro a m ha hm
    rw [hlink ha] at hm
    obtain ⟨hlive, hprev, hkey⟩ := h.next ha hm
    exact ⟨hlive, by rw [hlink hlive, hprev], hkey⟩
  · intro a m ha hm
    rw [hlink ha] at hm
    obtain ⟨hlive, hnext, hkey⟩ := h.prev ha hm
    exact ⟨hlive, by rw [hlink hlive, hnext], hkey⟩
  · intro k m hm
    rw [head_clear] at hm
    obtain ⟨hlive, hprev, hkey⟩ := h.first hm
    exact ⟨hlive, by rw [hlink hlive, hprev], hkey⟩
  · intro k m hm
    rw [head_clear] at hm
    obtain ⟨hlive, hnext, hkey⟩ := h.last hm
    exact ⟨hlive, by rw [hlink hlive, hnext], hkey⟩

/-- A node that was not live is linked behind the last one. -/
theorem Wf.add (h : mem.Wf live key) (hn : ¬live n) (hk : key n = k) :
    (mem.add k n).Wf (fun m => live m ∨ m = n) key := by
  have hlast {m : α} (hm : (mem.head k).prev = some m) := h.last hm
  constructor
  · intro a m ha hm
    rw [link_next_add] at hm
    rw [link_prev_add]
    split_ifs at hm with hend hnew
    · obtain rfl := Option.some.inj hm
      rw [if_pos rfl]
      exact ⟨.inr rfl, hend, hk.trans (hlast hend).2.2.symm⟩
    · obtain ⟨hlive, hprev, hkey⟩ := h.next (ha.resolve_right hnew) hm
      have hne : m ≠ n := fun heq => hn (heq ▸ hlive)
      rw [if_neg hne]
      exact ⟨.inl hlive, hprev, hkey⟩
  · intro a m ha hm
    rw [link_prev_add] at hm
    rw [link_next_add]
    split_ifs at hm with hnew
    · rw [if_pos hm, hnew]
      exact ⟨.inl (hlast hm).1, rfl, (hlast hm).2.2.trans hk.symm⟩
    · obtain ⟨hlive, hnext, hkey⟩ := h.prev (ha.resolve_right hnew) hm
      have hend : (mem.head k).prev ≠ some m := fun heq => by
        rw [(hlast heq).2.1] at hnext
        exact nomatch hnext
      have hne : m ≠ n := fun heq => hn (heq ▸ hlive)
      rw [if_neg hend, if_neg hne]
      exact ⟨.inl hlive, hnext, hkey⟩
  · intro k' m hm
    rw [head_next_add] at hm
    rw [link_prev_add]
    split_ifs at hm with hempty
    · obtain rfl := Option.some.inj hm
      rw [if_pos rfl]
      exact ⟨.inr rfl, hempty.1, hk.trans hempty.2.symm⟩
    · obtain ⟨hlive, hprev, hkey⟩ := h.first hm
      have hne : m ≠ n := fun heq => hn (heq ▸ hlive)
      rw [if_neg hne]
      exact ⟨.inl hlive, hprev, hkey⟩
  · intro k' m hm
    rw [head_prev_add] at hm
    rw [link_next_add]
    split_ifs at hm with hhead
    · obtain rfl := Option.some.inj hm
      have hend : (mem.head k).prev ≠ some n := fun heq => hn (hlast heq).1
      rw [if_neg hend, if_pos rfl]
      exact ⟨.inr rfl, rfl, hk.trans hhead.symm⟩
    · obtain ⟨hlive, hnext, hkey⟩ := h.last hm
      have hend : (mem.head k).prev ≠ some m := fun heq => hhead (hkey.symm.trans (hlast heq).2.2)
      have hne : m ≠ n := fun heq => hn (heq ▸ hlive)
      rw [if_neg hend, if_neg hne]
      exact ⟨.inl hlive, hnext, hkey⟩

/-- A live node of a list is taken out of its chain. -/
theorem Wf.remove (h : mem.Wf live key) (hn : live n) (hk : key n = k) :
    (mem.remove k n).Wf (fun m => live m ∧ m ≠ n) key := by
  constructor
  · intro a m ha hm
    rw [link_next_remove] at hm
    rw [link_prev_remove]
    split_ifs at hm with hbefore
    · obtain ⟨hlive, -, hkey⟩ := h.next hn hm
      have hkey' := (h.prev hn hbefore).2.2
      have hne : m ≠ n := fun heq => by
        rw [heq] at hm
        have hself := (h.next hn hm).2.1
        exact ha.2 (Option.some.inj (hbefore.symm.trans hself))
      rw [if_pos hm]
      exact ⟨⟨hlive, hne⟩, hbefore, hkey.trans hkey'.symm⟩
    · obtain ⟨hlive, hprev, hkey⟩ := h.next ha.1 hm
      have hne : m ≠ n := fun heq => hbefore (heq ▸ hprev)
      have hafter : (mem.link n).next ≠ some m := fun heq => by
        have hself := (h.next hn heq).2.1
        exact ha.2 (Option.some.inj (hprev.symm.trans hself))
      rw [if_neg hafter]
      exact ⟨⟨hlive, hne⟩, hprev, hkey⟩
  · intro a m ha hm
    rw [link_prev_remove] at hm
    rw [link_next_remove]
    split_ifs at hm with hafter
    · obtain ⟨hlive, -, hkey⟩ := h.prev hn hm
      have hkey' := (h.next hn hafter).2.2
      have hne : m ≠ n := fun heq => by
        rw [heq] at hm
        have hself := (h.prev hn hm).2.1
        exact ha.2 (Option.some.inj (hafter.symm.trans hself))
      rw [if_pos hm]
      exact ⟨⟨hlive, hne⟩, hafter, hkey.trans hkey'.symm⟩
    · obtain ⟨hlive, hnext, hkey⟩ := h.prev ha.1 hm
      have hne : m ≠ n := fun heq => hafter (heq ▸ hnext)
      have hbefore : (mem.link n).prev ≠ some m := fun heq => by
        have hself := (h.prev hn heq).2.1
        exact ha.2 (Option.some.inj (hnext.symm.trans hself))
      rw [if_neg hbefore]
      exact ⟨⟨hlive, hne⟩, hnext, hkey⟩
  · intro k' m hm
    rw [head_next_remove] at hm
    rw [link_prev_remove]
    split_ifs at hm with hfirst
    · obtain ⟨hlive, hprev, hkey⟩ := h.next hn hm
      have hne : m ≠ n := fun heq => by
        rw [heq, hfirst.1] at hprev
        exact nomatch hprev
      rw [if_pos hm]
      exact ⟨⟨hlive, hne⟩, hfirst.1, hkey.trans (hk.trans hfirst.2.symm)⟩
    · obtain ⟨hlive, hprev, hkey⟩ := h.first hm
      have hne : m ≠ n := fun heq => hfirst ⟨heq ▸ hprev, (heq ▸ hkey).symm.trans hk⟩
      have hafter : (mem.link n).next ≠ some m := fun heq => by
        rw [(h.next hn heq).2.1] at hprev
        exact nomatch hprev
      rw [if_neg hafter]
      exact ⟨⟨hlive, hne⟩, hprev, hkey⟩
  · intro k' m hm
    rw [head_prev_remove] at hm
    rw [link_next_remove]
    split_ifs at hm with hlast
    · obtain ⟨hlive, hnext, hkey⟩ := h.prev hn hm
      have hne : m ≠ n := fun heq => by
        rw [heq, hlast.1] at hnext
        exact nomatch hnext
      rw [if_pos hm]
      exact ⟨⟨hlive, hne⟩, hlast.1, hkey.trans (hk.trans hlast.2.symm)⟩
    · obtain ⟨hlive, hnext, hkey⟩ := h.last hm
      have hne : m ≠ n := fun heq => hlast ⟨heq ▸ hnext, (heq ▸ hkey).symm.trans hk⟩
      have hbefore : (mem.link n).prev ≠ some m := fun heq => by
        rw [(h.prev hn heq).2.1] at hnext
        exact nomatch hnext
      rw [if_neg hbefore]
      exact ⟨⟨hlive, hne⟩, hnext, hkey⟩

/-! ## Nodes without links -/

/-- Removing a node without links empties the head. -/
theorem head_remove_unlinked (hlink : mem.link n = {}) (k' : κ) :
    (mem.remove k n).head k' = if k' = k then {} else mem.head k' := by
  have hnext := head_next_remove mem k n k'
  have hprev := head_prev_remove mem k n k'
  rw [hlink] at hnext hprev
  simp only [true_and] at hnext hprev
  by_cases hk : k' = k
  · rw [if_pos hk] at hnext hprev ⊢
    exact OgsList.ext hnext hprev
  · rw [if_neg hk] at hnext hprev ⊢
    exact OgsList.ext hnext hprev

theorem link_remove_unlinked (hlink : mem.link n = {}) (m : α) :
    (mem.remove k n).link m = mem.link m := by
  have hnext := link_next_remove mem k n m
  have hprev := link_prev_remove mem k n m
  rw [hlink, if_neg (nomatch ·)] at hnext hprev
  exact OgsList.ext hnext hprev

theorem Wf.remove_unlinked (h : mem.Wf live key) (hlink : mem.link n = {}) :
    (mem.remove k n).Wf live key := by
  constructor
  · intro a m ha hm
    rw [link_remove_unlinked hlink] at hm ⊢
    exact h.next ha hm
  · intro a m ha hm
    rw [link_remove_unlinked hlink] at hm ⊢
    exact h.prev ha hm
  · intro k' m hm
    rw [head_remove_unlinked hlink] at hm
    rw [link_remove_unlinked hlink]
    split_ifs at hm
    exact h.first hm
  · intro k' m hm
    rw [head_remove_unlinked hlink] at hm
    rw [link_remove_unlinked hlink]
    split_ifs at hm
    exact h.last hm

/-! ## A node that is linked and taken out again -/

/-- The links of live nodes are as before. -/
theorem Wf.link_remove_add (h : mem.Wf live key) (hn : ¬live n) (hm : live m) :
    ((mem.add k n).remove k n).link m = mem.link m := by
  have hne : m ≠ n := fun heq => hn (heq ▸ hm)
  have hend : (mem.head k).prev ≠ some n := fun heq => hn (h.last heq).1
  have hself : ((mem.add k n).link n).next = none := by rw [link_next_add, if_neg hend, if_pos rfl]
  have hself' : ((mem.add k n).link n).prev = (mem.head k).prev := by rw [link_prev_add, if_pos rfl]
  ext1
  · rw [link_next_remove, hself, hself', link_next_add, if_neg hne]
    split_ifs with hlast
    · exact (h.last hlast).2.1.symm
    · rfl
  · rw [link_prev_remove, hself, if_neg (nomatch ·), link_prev_add, if_neg hne]

/-- So is the first node of each list, unless one has a first node without having a last one. -/
theorem Wf.head_remove_add (h : mem.Wf live key) (hn : ¬live n) (k' : κ) :
    (((mem.add k n).remove k n).head k').next =
      if (mem.head k).prev = none ∧ k' = k then none else (mem.head k').next := by
  have hend : (mem.head k).prev ≠ some n := fun heq => hn (h.last heq).1
  have hself : ((mem.add k n).link n).next = none := by rw [link_next_add, if_neg hend, if_pos rfl]
  have hself' : ((mem.add k n).link n).prev = (mem.head k).prev := by rw [link_prev_add, if_pos rfl]
  rw [head_next_remove, hself, hself', head_next_add]
  split_ifs <;> rfl

end

end ListMemory

end Quicup.Open5gs
