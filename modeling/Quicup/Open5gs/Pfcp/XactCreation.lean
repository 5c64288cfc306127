import Quicup.Open5gs.Core.OgsList
import Quicup.Open5gs.Core.Timer
import Quicup.Open5gs.Pfcp.Xact

/-!
# Creation of transactions

`xact.c` of the PFCP and of the GTP library: a transaction is taken from a pool, gets its timers, and
is put on one of the lists of its node. Where a timer is missing it is deleted as one that stands on
a list.
-/

namespace Quicup.Open5gs

open Pfcp (XactOrg)

/-- `tm_response`, `tm_holding`, and `tm_delayed_commit` of PFCP or `tm_peer` of GTP. -/
inductive XactTimer
  | response
  | holding
  | delayedCommit
  | peer
  deriving DecidableEq

/-- The callback of a timer. -/
def XactTimer.cb : XactTimer → Nat
  | response => 0
  | holding => 1
  | delayedCommit => 2
  | peer => 3

/-- `ogs_pfcp_xact_t` or `ogs_gtp_xact_t`, as far as its creation and its deletion depend on it, with
the timers that it has in the order of their fields. One that is not yet whole has no messages, and
is associated with none. -/
structure Xact where
  id : Nat := 0
  node : Nat := 0
  org : XactOrg := .localOriginator
  timers : List (XactTimer × Nat) := []
  deriving DecidableEq

/-- The list of a node that a transaction belongs on. -/
def Xact.list (xact : Xact) : Nat × XactOrg := (xact.node, xact.org)

def gtp1RanInformationRelayType : UInt8 := 70

/-- What creates a transaction. -/
inductive XactKind
  | pfcpLocal
  | pfcpRemote
  | gtp1Local (type : UInt8)
  | gtpLocal
  | gtpRemote
  deriving DecidableEq

namespace XactKind

def org : XactKind → XactOrg
  | pfcpLocal | gtp1Local _ | gtpLocal => .localOriginator
  | pfcpRemote | gtpRemote => .remoteOriginator

/-- The timers, in the order in which they are added. -/
def timers : XactKind → List XactTimer
  | pfcpLocal | pfcpRemote => [.response, .holding, .delayedCommit]
  | gtp1Local type => if type ≠ gtp1RanInformationRelayType then [.response, .holding] else [.holding]
  | gtpLocal | gtpRemote => [.response, .holding, .peer]

/-- The message is given to `update_tx` at once. -/
def sends : XactKind → Bool
  | gtp1Local _ | gtpLocal => true
  | pfcpLocal | pfcpRemote | gtpRemote => false

end XactKind

/-- A call for a transaction, with whether `update_tx` takes its message. -/
structure XactCall where
  kind : XactKind
  node : Nat
  accepted : Bool := true
  deriving DecidableEq

def XactCall.list (call : XactCall) : Nat × XactOrg := (call.node, call.kind.org)

/-- A library with its pool of transactions, the timers of the process, and the lists of the nodes. -/
structure XactLib where
  pool : OgsPool
  poolId : Nat := 0
  timers : TimerMgr
  xacts : Nat → Xact := fun _ => {}
  lists : ListMemory (Nat × XactOrg) Nat := {}

def maxPoolId : Nat := 0x7fffffff

/-- Timers are added until one is missing, as those that were added and whether all were. -/
def takeTimers (id : Nat) : List XactTimer → TimerMgr → TimerMgr × List (XactTimer × Nat) × Bool
  | [], mgr => (mgr, [], true)
  | timer :: rest, mgr =>
    match mgr.add (some timer.cb) id with
    | (_, none) => (mgr, [], false)
    | (mgr, some tm) =>
      let (mgr, taken, whole) := takeTimers id rest mgr
      (mgr, (timer, tm) :: taken, whole)

namespace XactLib

/-- `ogs_pfcp_xact_delete` and `ogs_gtp_xact_delete` -/
def delete (slot : Nat) (st : XactLib) : XactLib :=
  let xact := st.xacts slot
  { st with
    timers := xact.timers.foldl (fun mgr tm => mgr.delete tm.2) st.timers
    lists := st.lists.remove xact.list slot
    pool := st.pool.release slot }

/-- `ogs_pfcp_xact_local_create`, `ogs_pfcp_xact_remote_create`, `ogs_gtp1_xact_local_create`,
`ogs_gtp_xact_local_create` and `ogs_gtp_xact_remote_create` -/
def create (call : XactCall) (st : XactLib) : XactLib × Option Nat :=
  match st.pool.alloc with
  | (none, _) => (st, none)
  | (some slot, pool) =>
    let poolId := if st.poolId = maxPoolId then 1 else st.poolId + 1
    let (timers, taken, whole) := takeTimers poolId call.kind.timers st.timers
    let xact : Xact := { id := poolId, node := call.node, org := call.kind.org, timers := taken }
    let st := { st with
      pool
      poolId
      timers
      xacts := Function.update st.xacts slot xact
      lists := st.lists.clear slot }
    if whole then
      let st := { st with lists := st.lists.add xact.list slot }
      if call.kind.sends ∧ ¬call.accepted then (st.delete slot, none) else (st, some slot)
    else (st.delete slot, none)

/-- A transaction that was created and not deleted. -/
def Live (st : XactLib) (slot : Nat) : Prop := slot < st.pool.size ∧ slot ∉ st.pool.free

end XactLib

/-- A transaction is created or deleted, or something is done with the timers of the process. -/
inductive XactEvent
  | create (call : XactCall)
  | delete (slot : Nat)
  | timer (op : TimerOp)
  deriving DecidableEq

/-- A process in which nodes have transactions. -/
def xactLibSystem : System XactLib XactEvent where
  init st := ∃ xacts timers, st = { pool := .init xacts, timers := .create timers }
  step st event st' :=
    match event with
    | .create call => st' = (st.create call).1
    | .delete slot => st.Live slot ∧ st' = st.delete slot
    | .timer op => st' = { st with timers := st.timers.perform op }

namespace XactLib

/-! ## Pools -/

theorem takeTimers_spec (id : Nat) (kinds : List XactTimer) (mgr : TimerMgr) :
    mgr.pool.free = (takeTimers id kinds mgr).2.1.map Prod.snd ++ (takeTimers id kinds mgr).1.pool.free ∧
      (takeTimers id kinds mgr).1.pool.size = mgr.pool.size ∧
      ((takeTimers id kinds mgr).2.2 = true ↔ kinds.length ≤ mgr.pool.free.length) := by
  induction kinds generalizing mgr with
  | nil => exact ⟨rfl, rfl, iff_of_true rfl (Nat.zero_le _)⟩
  | cons timer kinds ih =>
    rw [takeTimers, TimerMgr.add, OgsPool.alloc]
    cases hfree : mgr.pool.free with
    | nil => exact ⟨hfree.symm, rfl, iff_of_false Bool.false_ne_true (Nat.not_succ_le_zero _)⟩
    | cons tm free =>
      obtain ⟨htaken, hsize, hwhole⟩ := ih { mgr with
        pool := { mgr.pool with free }
        timers := Function.update mgr.timers tm { cb := some timer.cb, data := id } }
      refine ⟨congrArg (tm :: ·) htaken, hsize, hwhole.trans ?_⟩
      exact (Nat.succ_le_succ_iff).symm

theorem pool_deleteTimers (taken : List (XactTimer × Nat)) (mgr : TimerMgr) :
    (taken.foldl (fun mgr tm => mgr.delete tm.2) mgr).pool =
      (taken.map Prod.snd).foldl OgsPool.release mgr.pool := by
  induction taken generalizing mgr with
  | nil => rfl
  | cons tm taken ih =>
    rw [List.foldl_cons, ih, List.map_cons, List.foldl_cons, TimerMgr.delete, TimerMgr.pool_stop]

variable {pool : OgsPool} {mgr : TimerMgr}

/-- Slots that a pool has room for stand behind its free ones. -/
theorem foldl_release (slots : List Nat) (hroom : pool.free.length + slots.length ≤ pool.size) :
    slots.foldl OgsPool.release pool = { pool with free := pool.free ++ slots } := by
  induction slots generalizing pool with
  | nil => rw [List.append_nil]; rfl
  | cons slot slots ih =>
    rw [List.length_cons] at hroom
    have hrelease : pool.release slot = { pool with free := pool.free ++ [slot] } :=
      if_pos (by omega)
    rw [List.foldl_cons, hrelease, ih (by simp only [List.length_append, List.length_singleton]; omega)]
    simp only [List.append_assoc, List.singleton_append]

/-- There are no more free slots than slots. -/
def Bounded (pool : OgsPool) : Prop := pool.free.length ≤ pool.size

theorem Bounded.alloc (h : Bounded pool) : Bounded pool.alloc.2 := by
  unfold Bounded OgsPool.alloc at *
  cases hfree : pool.free with
  | nil => rwa [hfree] at h ⊢
  | cons n free =>
    rw [hfree] at h
    exact (Nat.le_succ _).trans h

theorem Bounded.release (h : Bounded pool) (n : Nat) : Bounded (pool.release n) := by
  unfold OgsPool.release
  split_ifs with hroom
  · rw [Bounded, List.length_append]
    exact hroom
  · exact h

theorem Bounded.perform (h : Bounded mgr.pool) (op : TimerOp) : Bounded (mgr.perform op).pool := by
  cases op with
  | start timer now duration => exact h
  | stop timer =>
    rw [TimerMgr.perform, TimerMgr.pool_stop]
    exact h
  | add cb data =>
    rw [TimerMgr.perform, TimerMgr.add]
    have halloc := h.alloc
    revert halloc
    rcases mgr.pool.alloc with ⟨_ | timer, pool⟩
    · exact fun _ => h
    · exact fun halloc => halloc
  | delete timer =>
    rw [TimerMgr.perform, TimerMgr.delete, TimerMgr.pool_stop]
    exact h.release timer

theorem Bounded.deleteTimers (h : Bounded mgr.pool) (taken : List (XactTimer × Nat)) :
    Bounded (taken.foldl (fun mgr tm => mgr.delete tm.2) mgr).pool := by
  induction taken generalizing mgr with
  | nil => exact h
  | cons tm taken ih => exact ih (h.perform (.delete tm.2))

theorem Bounded.takeTimers (h : Bounded mgr.pool) (id : Nat) (kinds : List XactTimer) :
    Bounded (takeTimers id kinds mgr).1.pool := by
  obtain ⟨htaken, hsize, -⟩ := takeTimers_spec id kinds mgr
  have hlength := congrArg List.length htaken
  rw [List.length_append] at hlength
  unfold Bounded at *
  omega

/-- Timers that were just taken are free again. -/
theorem pool_deleteTimers_takeTimers (h : Bounded mgr.pool) (id : Nat) (kinds : List XactTimer) :
    ∃ free, ((takeTimers id kinds mgr).2.1.foldl (fun mgr tm => mgr.delete tm.2)
      (takeTimers id kinds mgr).1).pool = { mgr.pool with free } ∧ free.Perm mgr.pool.free := by
  obtain ⟨htaken, hsize, -⟩ := takeTimers_spec id kinds mgr
  have hlength := congrArg List.length htaken
  rw [List.length_append] at hlength
  unfold Bounded at h
  refine ⟨(takeTimers id kinds mgr).1.pool.free ++ (takeTimers id kinds mgr).2.1.map Prod.snd, ?_, ?_⟩
  · rw [pool_deleteTimers, foldl_release _ (by omega), hsize]
  · rw [htaken]
    exact List.perm_append_comm

/-! ## Runs -/

/-- The list that the memory of a transaction says. -/
def listOf (st : XactLib) (slot : Nat) : Nat × XactOrg := (st.xacts slot).list

/-- The slots of the pool are free once at most, and what is on lists or linked with it is live. -/
structure Wf (st : XactLib) : Prop where
  nodup : st.pool.free.Nodup
  lt : ∀ slot ∈ st.pool.free, slot < st.pool.size
  bounded : Bounded st.timers.pool
  lists : st.lists.Wf st.Live st.listOf

theorem Wf.init (xacts timers : Nat) :
    Wf { pool := .init xacts, timers := .create timers } where
  nodup := List.nodup_range
  lt _ := List.mem_range.mp
  bounded := (List.length_range ..).le
  lists := .empty _ _

/-- There is room for a live slot behind the free ones. -/
theorem Wf.room {st : XactLib} {slot : Nat} (h : st.Wf) (hlive : st.Live slot) :
    st.pool.free.length < st.pool.size := by
  have hnodup : (slot :: st.pool.free).Nodup := List.nodup_cons.mpr ⟨hlive.2, h.nodup⟩
  have hsubset : slot :: st.pool.free ⊆ List.range st.pool.size := by
    intro n hn
    rcases List.mem_cons.mp hn with rfl | hn
    · exact List.mem_range.mpr hlive.1
    · exact List.mem_range.mpr (h.lt n hn)
  have hle := (List.subperm_of_subset hnodup hsubset).length_le
  rw [List.length_cons, List.length_range] at hle
  exact hle

theorem Wf.delete {st : XactLib} {slot : Nat} (h : st.Wf) (hlive : st.Live slot) :
    (st.delete slot).Wf := by
  have hpool : (st.delete slot).pool = { st.pool with free := st.pool.free ++ [slot] } :=
    if_pos (h.room hlive)
  have hlive' (n : Nat) : (st.delete slot).Live n ↔ st.Live n ∧ n ≠ slot := by
    rw [Live, hpool, List.mem_append, List.mem_singleton, not_or, ← and_assoc]
    rfl
  constructor
  · rw [hpool]
    refine List.nodup_append.mpr ⟨h.nodup, List.nodup_singleton _, fun n hn m hm => ?_⟩
    rw [List.mem_singleton.mp hm]
    exact fun heq => hlive.2 (heq ▸ hn)
  · rw [hpool]
    intro n hn
    rcases List.mem_append.mp hn with hn | hn
    · exact h.lt n hn
    · exact List.mem_singleton.mp hn ▸ hlive.1
  · exact h.bounded.deleteTimers _
  · exact (h.lists.remove hlive rfl).congr hlive' fun _ _ => rfl

/-! ## Creation -/

/-- The transaction in a slot before anything is done with the lists. -/
def started (call : XactCall) (slot : Nat) (free : List Nat) (st : XactLib) : XactLib :=
  let poolId := if st.poolId = maxPoolId then 1 else st.poolId + 1
  let (timers, taken, _) := takeTimers poolId call.kind.timers st.timers
  { pool := { st.pool with free }
    poolId
    timers
    xacts := Function.update st.xacts slot
      { id := poolId, node := call.node, org := call.kind.org, timers := taken }
    lists := st.lists.clear slot }

def linked (call : XactCall) (slot : Nat) (free : List Nat) (st : XactLib) : XactLib :=
  { st.started call slot free with lists := (st.started call slot free).lists.add call.list slot }

/-- What a creation comes to. -/
theorem create_cases (call : XactCall) (st : XactLib) :
    (st.pool.free = [] ∧ st.create call = (st, none)) ∨
      ∃ slot free, st.pool.free = slot :: free ∧
        ((st.timers.pool.free.length < call.kind.timers.length ∧
            st.create call = ((st.started call slot free).delete slot, none)) ∨
          (call.kind.timers.length ≤ st.timers.pool.free.length ∧
            st.create call = ((st.linked call slot free).delete slot, none)) ∨
          (call.kind.timers.length ≤ st.timers.pool.free.length ∧
            st.create call = (st.linked call slot free, some slot))) := by
  cases hfree : st.pool.free with
  | nil =>
    left
    rw [create, OgsPool.alloc, hfree]
    exact ⟨rfl, rfl⟩
  | cons slot free =>
    refine .inr ⟨slot, free, rfl, ?_⟩
    obtain ⟨-, -, hwhole⟩ := takeTimers_spec (if st.poolId = maxPoolId then 1 else st.poolId + 1)
      call.kind.timers st.timers
    rw [← not_le, ← hwhole, create, OgsPool.alloc, hfree]
    simp only [linked, started]
    rcases takeTimers (if st.poolId = maxPoolId then 1 else st.poolId + 1) call.kind.timers st.timers
      with ⟨timers, taken, _ | _⟩
    · exact .inl ⟨Bool.false_ne_true, rfl⟩
    · by_cases hsend : call.kind.sends ∧ ¬call.accepted
      · exact .inr (.inl ⟨rfl, if_pos hsend⟩)
      · exact .inr (.inr ⟨rfl, if_neg hsend⟩)

variable (call : XactCall) {st : XactLib} {slot : Nat} {free : List Nat}

theorem Wf.not_live (hfree : st.pool.free = slot :: free) : ¬st.Live slot := by
  rw [Live, hfree]
  exact fun h => h.2 (List.mem_cons_self ..)

theorem Wf.live_started (h : st.Wf) (hfree : st.pool.free = slot :: free) (n : Nat) :
    (st.started call slot free).Live n ↔ st.Live n ∨ n = slot := by
  have hnodup := h.nodup
  rw [hfree] at hnodup
  have hnot := (List.nodup_cons.mp hnodup).1
  have hlt := h.lt slot (hfree ▸ List.mem_cons_self ..)
  rw [Live, Live, hfree, List.mem_cons, not_or]
  change n < st.pool.size ∧ n ∉ free ↔ _
  constructor
  · rintro ⟨hn, hmem⟩
    by_cases heq : n = slot
    · exact .inr heq
    · exact .inl ⟨hn, heq, hmem⟩
  · rintro (⟨hn, -, hmem⟩ | rfl)
    · exact ⟨hn, hmem⟩
    · exact ⟨hlt, hnot⟩

theorem listOf_started (hlive : ¬st.Live slot) (n : Nat) (hn : st.Live n) :
    (st.started call slot free).listOf n = st.listOf n := by
  have hne : n ≠ slot := fun heq => hlive (heq ▸ hn)
  exact congrArg Xact.list (Function.update_of_ne hne ..)

theorem listOf_started_self (st : XactLib) (slot : Nat) (free : List Nat) :
    (st.started call slot free).listOf slot = call.list := by
  simp only [listOf, started, Function.update_self]
  rfl

/-- A transaction that is not on a list is linked with none. -/
theorem Wf.started_lists (h : st.Wf) (hfree : st.pool.free = slot :: free) :
    (st.started call slot free).lists.Wf st.Live (st.started call slot free).listOf := by
  have hnot := Wf.not_live hfree
  exact (h.lists.clear hnot).congr (fun _ => Iff.rfl) (listOf_started call hnot)

theorem Wf.linked (h : st.Wf) (hfree : st.pool.free = slot :: free) :
    (st.linked call slot free).Wf := by
  have hnodup := h.nodup
  rw [hfree] at hnodup
  refine ⟨(List.nodup_cons.mp hnodup).2, fun n hn => ?_, h.bounded.takeTimers _ _, ?_⟩
  · exact h.lt n (hfree ▸ List.mem_cons_of_mem _ hn)
  · exact ((h.started_lists call hfree).add (Wf.not_live hfree)
      (listOf_started_self call st slot free)).congr (h.live_started call hfree) fun _ _ => rfl

theorem Wf.live_linked (h : st.Wf) (hfree : st.pool.free = slot :: free) :
    (st.linked call slot free).Live slot :=
  (h.live_started call hfree slot).mpr (.inr rfl)

/-- The slot is free again. -/
theorem Wf.pool_delete_started (h : st.Wf) (hfree : st.pool.free = slot :: free) :
    ((st.started call slot free).delete slot).pool = { st.pool with free := free ++ [slot] } ∧
      ((st.linked call slot free).delete slot).pool = { st.pool with free := free ++ [slot] } := by
  have hroom := (h.linked call hfree).room (h.live_linked call hfree)
  exact ⟨if_pos hroom, if_pos hroom⟩

theorem link_started (st : XactLib) (slot : Nat) (free : List Nat) :
    (st.started call slot free).lists.link slot = {} := by
  change (st.lists.clear slot).link slot = {}
  rw [ListMemory.link, ListMemory.cell_clear, if_pos rfl]

theorem Wf.delete_started (h : st.Wf) (hfree : st.pool.free = slot :: free) :
    ((st.started call slot free).delete slot).Wf := by
  obtain ⟨hpool, -⟩ := h.pool_delete_started call hfree
  have hperm : (free ++ [slot]).Perm st.pool.free := by
    rw [hfree]
    exact List.perm_append_singleton slot free
  constructor
  · rw [hpool]
    exact hperm.nodup_iff.mpr h.nodup
  · rw [hpool]
    exact fun n hn => h.lt n (hperm.mem_iff.mp hn)
  · exact (h.bounded.takeTimers _ _).deleteTimers _
  · refine ((h.started_lists call hfree).remove_unlinked (link_started call st slot free)).congr (fun n => ?_) fun _ _ => rfl
    rw [Live, hpool, hperm.mem_iff]
    rfl

theorem Wf.create (h : st.Wf) (call : XactCall) : (st.create call).1.Wf := by
  rcases create_cases call st with ⟨-, heq⟩ | ⟨slot, free, hfree, ⟨-, heq⟩ | ⟨-, heq⟩ | ⟨-, heq⟩⟩
  · rw [heq]
    exact h
  · rw [heq]
    exact h.delete_started call hfree
  · rw [heq]
    exact (h.linked call hfree).delete (h.live_linked call hfree)
  · rw [heq]
    exact h.linked call hfree

/-- Whatever is created, deleted or done with timers, what is on lists is live. -/
theorem wf_of_run {events : List XactEvent} {st : XactLib}
    (h : System.Run xactLibSystem System.unrestricted events st) : st.Wf := by
  refine h.invariant ?_ ?_
  · rintro _ ⟨xacts, timers, rfl⟩
    exact .init xacts timers
  · intro st event st' hwf _ hstep
    cases event with
    | create call => exact hstep ▸ hwf.create call
    | delete slot => exact hstep.2 ▸ hwf.delete hstep.1
    | timer op => exact hstep ▸ ⟨hwf.nodup, hwf.lt, hwf.bounded.perform op, hwf.lists⟩

/-! ## What a failed creation leaves -/

/-- A pool has the same free slots as before. -/
def SamePool (pool pool' : OgsPool) : Prop :=
  pool'.size = pool.size ∧ pool'.free.Perm pool.free

/-- The lists of a node have the same transactions in the same order, and the pools are as before. -/
structure Kept (st st' : XactLib) (node : Nat) : Prop where
  lists : ∀ org count, st'.lists.contents (node, org) count = st.lists.contents (node, org) count
  pool : SamePool st.pool st'.pool
  timers : SamePool st.timers.pool st'.timers.pool

theorem lists_delete_started :
    ((st.started call slot free).delete slot).lists =
      (st.lists.clear slot).remove call.list slot :=
  congrArg (ListMemory.remove _ · slot) (listOf_started_self call st slot free)

theorem lists_delete_linked :
    ((st.linked call slot free).delete slot).lists =
      ((st.lists.clear slot).add call.list slot).remove call.list slot :=
  congrArg (ListMemory.remove _ · slot) (listOf_started_self call st slot free)

/-- Without a timer the list that the transaction was for is empty, and nothing else is lost. -/
theorem Wf.contents_delete_started (h : st.Wf) (hfree : st.pool.free = slot :: free)
    (k : Nat × XactOrg) (count : Nat) :
    ((st.started call slot free).delete slot).lists.contents k count =
      if k = call.list then [] else st.lists.contents k count := by
  have hunlinked : (st.lists.clear slot).link slot = {} :=
    link_started call st slot free
  have hlink (m : Nat) (hm : st.Live m) :
      (((st.lists.clear slot).remove call.list slot).link m).next = (st.lists.link m).next := by
    have hne : m ≠ slot := fun heq => Wf.not_live hfree (heq ▸ hm)
    rw [ListMemory.link_remove_unlinked hunlinked, ListMemory.link_clear hne]
  have hhead := ListMemory.head_remove_unlinked (k := call.list) hunlinked k
  rw [lists_delete_started]
  split_ifs at hhead ⊢ with hk
  · exact ListMemory.contents_eq_nil (congrArg OgsList.next hhead) count
  · rw [ListMemory.head_clear] at hhead
    exact h.lists.contents_eq hlink (congrArg OgsList.next hhead) count

/-- A transaction that was put on the list is taken from it again. A list without a last node is
empty then. -/
theorem Wf.contents_delete_linked (h : st.Wf) (hfree : st.pool.free = slot :: free)
    (k : Nat × XactOrg) (count : Nat) :
    ((st.linked call slot free).delete slot).lists.contents k count =
      if (st.lists.head call.list).prev = none ∧ k = call.list then []
      else st.lists.contents k count := by
  have hnot := Wf.not_live hfree
  have hclear := h.lists.clear hnot
  have hlink (m : Nat) (hm : st.Live m) :
      ((((st.lists.clear slot).add call.list slot).remove call.list slot).link m).next =
        (st.lists.link m).next := by
    have hne : m ≠ slot := fun heq => hnot (heq ▸ hm)
    rw [hclear.link_remove_add hnot hm, ListMemory.link_clear hne]
  have hhead := hclear.head_remove_add (k := call.list) hnot k
  rw [lists_delete_linked]
  rw [ListMemory.head_clear, ListMemory.head_clear] at hhead
  split_ifs at hhead ⊢ with hk
  · exact ListMemory.contents_eq_nil hhead count
  · exact h.lists.contents_eq hlink hhead count

theorem Wf.samePool_delete (h : st.Wf) (hfree : st.pool.free = slot :: free) :
    SamePool st.pool ((st.started call slot free).delete slot).pool ∧
      SamePool st.pool ((st.linked call slot free).delete slot).pool := by
  obtain ⟨hstarted, hlinked⟩ := h.pool_delete_started call hfree
  rw [hstarted, hlinked, SamePool, hfree]
  have hperm := List.perm_append_singleton slot free
  exact ⟨⟨rfl, hperm⟩, rfl, hperm⟩

theorem Wf.sameTimers_delete (h : st.Wf) (slot : Nat) (free : List Nat) :
    SamePool st.timers.pool ((st.started call slot free).delete slot).timers.pool ∧
      SamePool st.timers.pool ((st.linked call slot free).delete slot).timers.pool := by
  obtain ⟨tms, hpool, hperm⟩ := pool_deleteTimers_takeTimers h.bounded
    (if st.poolId = maxPoolId then 1 else st.poolId + 1) call.kind.timers
  have hsame (lists : ListMemory (Nat × XactOrg) Nat) :
      (XactLib.delete slot { st.started call slot free with lists }).timers.pool =
        { st.timers.pool with free := tms } := by
    rw [← hpool]
    simp only [XactLib.delete, started, Function.update_self]
  have hkept (lists : ListMemory (Nat × XactOrg) Nat) : SamePool st.timers.pool
      (XactLib.delete slot { st.started call slot free with lists }).timers.pool := by
    rw [hsame]
    exact ⟨rfl, hperm⟩
  exact ⟨hkept _, hkept _⟩

end XactLib

open XactLib in
/-- A creation that fails leaves the lists of the node and the pools as they were if there was no
transaction left, if the list that the transaction was for was empty, or if there were enough timers
and the list had a last transaction. -/
theorem creation_kept_iff {events : List XactEvent} {st : XactLib}
    (hrun : System.Run xactLibSystem System.unrestricted events st) (call : XactCall)
    (hfailed : (st.create call).2 = none) :
    Kept st (st.create call).1 call.node ↔
      st.pool.free = [] ∨ (st.lists.head call.list).next = none ∨
        call.kind.timers.length ≤ st.timers.pool.free.length ∧
          (st.lists.head call.list).prev ≠ none := by
  have hwf := wf_of_run hrun
  have hone (h : Kept st (st.create call).1 call.node)
      (hnil : (st.create call).1.lists.contents call.list 1 = []) :
      (st.lists.head call.list).next = none := by
    exact ListMemory.head_of_contents ((h.lists call.kind.org 1).symm.trans hnil)
  rcases create_cases call st with ⟨hfree, heq⟩ | ⟨slot, free, hfree, h⟩
  · rw [heq]
    exact iff_of_true ⟨fun _ _ => rfl, ⟨rfl, .refl _⟩, rfl, .refl _⟩ (.inl hfree)
  · have hpools := hwf.samePool_delete call hfree
    have htimers := hwf.sameTimers_delete call slot free
    have hne : st.pool.free ≠ [] := hfree ▸ List.cons_ne_nil slot free
    rcases h with ⟨hfew, heq⟩ | ⟨henough, heq⟩ | ⟨-, heq⟩
    · have hcontents := hwf.contents_delete_started call hfree
      rw [heq] at hone ⊢
      constructor
      · intro h
        exact .inr (.inl (hone h (by rw [hcontents, if_pos rfl])))
      · rintro (h | h | ⟨henough, -⟩)
        · exact absurd h hne
        · refine ⟨fun org count => ?_, hpools.1, htimers.1⟩
          rw [hcontents]
          split_ifs with hk
          · rw [hk, ListMemory.contents_eq_nil h]
          · rfl
        · exact absurd hfew (Nat.not_lt_of_le henough)
    · have hcontents := hwf.contents_delete_linked call hfree
      rw [heq] at hone ⊢
      constructor
      · intro h
        by_cases hlast : (st.lists.head call.list).prev = none
        · exact .inr (.inl (hone h (by rw [hcontents, if_pos ⟨hlast, rfl⟩])))
        · exact .inr (.inr ⟨henough, hlast⟩)
      · intro h
        refine ⟨fun org count => ?_, hpools.2, htimers.2⟩
        rw [hcontents]
        split_ifs with hk
        · rcases h with h | h | ⟨-, h⟩
          · exact absurd h hne
          · rw [hk.2, ListMemory.contents_eq_nil h]
          · exact absurd hk.1 h
        · rfl
    · rw [heq] at hfailed
      exact nomatch hfailed

/-- A process with two transactions and three timers, all of which a first transaction has got. -/
def oneXact (kind : XactKind) : XactLib :=
  (XactLib.create { kind, node := 0 } { pool := .init 2, timers := .create 3 }).1

theorem run_oneXact (kind : XactKind) :
    System.Run xactLibSystem System.unrestricted [.create { kind, node := 0 }] (oneXact kind) :=
  .single ⟨2, 3, rfl⟩ trivial rfl

/-- A transaction of the peer stays where one of the node itself gets no timer. -/
theorem creation_kept_remote :
    XactLib.Kept (oneXact .gtpRemote)
      ((oneXact .gtpRemote).create { kind := .gtpLocal, node := 0 }).1 0 :=
  (creation_kept_iff (run_oneXact .gtpRemote) { kind := .gtpLocal, node := 0 } (by decide)).mpr
    (.inr (.inl (by decide)))

/-- The transaction that is pending is on no list any more when a second one gets no timer. -/
theorem not_creation_kept :
    ((oneXact .pfcpLocal).create { kind := .pfcpLocal, node := 0 }).2 = none ∧
      ¬XactLib.Kept (oneXact .pfcpLocal)
        ((oneXact .pfcpLocal).create { kind := .pfcpLocal, node := 0 }).1 0 := by
  refine ⟨by decide, fun h => ?_⟩
  have hfirst := h.lists .localOriginator 1
  have hbefore : (oneXact .pfcpLocal).lists.contents (0, .localOriginator) 1 = [0] := by decide
  have hbehind : ((oneXact .pfcpLocal).create { kind := .pfcpLocal, node := 0 }).1.lists.contents
      (0, .localOriginator) 1 = [] := by decide
  rw [hbefore, hbehind] at hfirst
  exact nomatch hfirst

end Quicup.Open5gs
