import Quicup.Core.System
import Quicup.Open5gs.Pfcp.Responses

/-!
# Duplicates of requests

The transactions that a peer has started, over all orders of its requests, their answers and
the timers that end them. A request that comes again is answered again, unless its sequence
number is that of another request.
-/

namespace Quicup.Open5gs.Pfcp

open System Function

variable {conf : XactConf} {timers : Bool} {type : UInt8} {sqn : UInt32} {others : List Nat}
  {st : XactState} {xact : PfcpXact}

/-! ## Slots -/

namespace XactState

theorem slots_put (xact : PfcpXact) (st : XactState) : (st.put xact).slots = st.slots := by
  have hslot (xacts : List PfcpXact) :
      (xacts.map fun other => if other.slot = xact.slot then xact else other).map PfcpXact.slot =
        xacts.map PfcpXact.slot := by
    rw [List.map_map]
    apply List.map_congr_left
    intro other _
    simp only [Function.comp_apply]
    split
    · next heq => exact heq.symm
    · rfl
  unfold put slots setList list
  split
  · rw [List.map_append, List.map_append, hslot]
  · rw [List.map_append, List.map_append, hslot]

theorem slots_delete (h : st.Valid others) (hx : xact ∈ st.list xact.org) :
    (st.delete xact).slots = st.slots.erase xact.slot := by
  have hnodup := h.slots_nodup
  have hbne : (fun slot => slot != xact.slot) = fun slot => decide (slot ≠ xact.slot) := by
    ext slot
    rw [bne, decide_not, Bool.beq_eq_decide_eq]
  rw [hnodup.erase_eq_filter, hbne]
  unfold slots at hnodup ⊢
  rw [List.map_append] at hnodup
  obtain ⟨-, -, hdisjoint⟩ := List.nodup_append.mp hnodup
  have hfilter (xacts : List PfcpXact) :
      (xacts.filter fun other => other.slot ≠ xact.slot).map PfcpXact.slot =
        (xacts.map PfcpXact.slot).filter fun slot => slot ≠ xact.slot := by
    rw [List.filter_map]
    rfl
  have hself (slots : List Nat) (hne : ∀ slot ∈ slots, slot ≠ xact.slot) :
      slots.filter (fun slot => slot ≠ xact.slot) = slots :=
    List.filter_eq_self.mpr fun slot hslot => decide_eq_true (hne slot hslot)
  cases horg : xact.org with
  | localOriginator =>
    rw [horg] at hx
    have hmem : xact.slot ∈ st.localList.map PfcpXact.slot := List.mem_map_of_mem hx
    have hlocal : (st.delete xact).localList ++ (st.delete xact).remoteList =
        (st.localList.filter fun other => other.slot ≠ xact.slot) ++ st.remoteList := by
      unfold delete setList list
      rw [horg]
    rw [hlocal, List.map_append, List.map_append, List.filter_append, hfilter]
    congr 1
    exact (hself _ fun slot hslot heq => hdisjoint _ hmem _ hslot heq.symm).symm
  | remoteOriginator =>
    rw [horg] at hx
    have hmem : xact.slot ∈ st.remoteList.map PfcpXact.slot := List.mem_map_of_mem hx
    have hremote : (st.delete xact).localList ++ (st.delete xact).remoteList =
        st.localList ++ (st.remoteList.filter fun other => other.slot ≠ xact.slot) := by
      unfold delete setList list
      rw [horg]
    rw [hremote, List.map_append, List.map_append, List.filter_append, hfilter]
    congr 1
    exact (hself _ fun slot hslot heq => hdisjoint _ hslot _ hmem heq).symm

theorem list_put_ne {org : XactOrg} (h : xact.org ≠ org) : (st.put xact).list org = st.list org := by
  cases horg : xact.org <;> cases org <;> simp_all [put, setList, list]

theorem list_delete_ne {org : XactOrg} (h : xact.org ≠ org) :
    (st.delete xact).list org = st.list org := by
  cases horg : xact.org <;> cases org <;> simp_all [delete, setList, list]

variable {other : PfcpXact}

/-- What is in a list behind a write is what was written, or was in it before. -/
theorem mem_of_mem_put {org : XactOrg} (h : other ∈ (st.put xact).list org) :
    other = xact ∧ org = xact.org ∨
      other ∈ st.list org ∧ (xact.org = org → other.slot ≠ xact.slot) := by
  by_cases horg : xact.org = org
  · rw [list_put horg] at h
    obtain ⟨before, hbefore, heq⟩ := List.mem_map.mp h
    split at heq
    · exact .inl ⟨heq.symm, horg.symm⟩
    · next hslot =>
      subst heq
      exact .inr ⟨hbefore, fun _ => hslot⟩
  · rw [list_put_ne horg] at h
    exact .inr ⟨h, fun heq => absurd heq horg⟩

theorem mem_of_mem_delete {org : XactOrg} (h : other ∈ (st.delete xact).list org) :
    other ∈ st.list org := by
  by_cases horg : xact.org = org
  · exact ((mem_delete horg).mp h).1
  · rwa [list_delete_ne horg] at h

theorem Valid.org (h : st.Valid others) {org : XactOrg} (hx : xact ∈ st.list org) : xact.org = org := by
  cases org with
  | localOriginator => exact h.local_org xact hx
  | remoteOriginator => exact h.remote_org xact hx

theorem Valid.of_org {st' : XactState} (hholds : st'.pool.Holds (others ++ st'.slots))
    (horg : ∀ org, ∀ xact ∈ st'.list org, xact.org = org) : st'.Valid others where
  holds := hholds
  local_org := horg .localOriginator
  remote_org := horg .remoteOriginator

theorem pool_put : (st.put xact).pool = st.pool := by
  unfold put setList
  split <;> rfl

theorem Valid.put (h : st.Valid others) : (st.put xact).Valid others := by
  apply Valid.of_org
  · rw [pool_put, slots_put]
    exact h.holds
  · intro org other hother
    rcases mem_of_mem_put hother with ⟨rfl, rfl⟩ | ⟨hother, -⟩
    · rfl
    · exact h.org hother

theorem mem_slots {org : XactOrg} (hx : xact ∈ st.list org) : xact.slot ∈ st.slots := by
  apply List.mem_map_of_mem
  cases org with
  | localOriginator => exact List.mem_append_left _ hx
  | remoteOriginator => exact List.mem_append_right _ hx

theorem Valid.delete (h : st.Valid others) (hx : xact ∈ st.list xact.org) :
    (st.delete xact).Valid others := by
  apply Valid.of_org
  · rw [slots_delete h hx]
    apply OgsPool.Holds.release
    apply h.holds.perm
    exact ((List.perm_cons_erase (mem_slots hx)).append_left others).trans List.perm_middle
  · exact fun org other hother => h.org (mem_of_mem_delete hother)

/-- The node stays valid when its peer starts a transaction in a slot of the pool. -/
theorem Valid.create (h : st.Valid others) {pool : OgsPool}
    (halloc : st.pool.alloc = (some xact.slot, pool)) (horg : xact.org = .remoteOriginator) :
    { st with pool, remoteList := st.remoteList ++ [xact] }.Valid others ∧ xact.slot ∉ st.slots := by
  obtain ⟨hholds, hfresh⟩ := h.holds.alloc (congrArg Prod.fst halloc)
  rw [halloc] at hholds
  refine ⟨Valid.of_org ?_ ?_, fun hmem => hfresh (List.mem_append_right others hmem)⟩
  · apply hholds.perm
    have hslots : ({ st with pool, remoteList := st.remoteList ++ [xact] } : XactState).slots =
        st.slots ++ [xact.slot] := by
      simp only [slots, List.map_append, List.append_assoc, List.map_cons, List.map_nil]
    rw [hslots, ← List.append_assoc]
    exact (List.perm_append_singleton _ _).symm
  · intro org other hother
    cases org with
    | localOriginator => exact h.local_org other hother
    | remoteOriginator =>
      rcases List.mem_append.mp hother with hother | hother
      · exact h.remote_org other hother
      · rw [List.mem_singleton.mp hother, horg]

end XactState

/-! ## Runs of a node -/

/-- A message comes in, the handler of a request answers it, a timer ends, or something else
happens to the pool and to the transactions that the node itself has started. -/
inductive DedupEvent
  | receive (timers : Bool) (type : UInt8) (sqn : UInt32)
  | respond (slot : Nat) (type : UInt8) (seid : UInt64) (body : List UInt8)
  | holdingTimeout (slot : Nat)
  | elsewhere (others : List Nat) (pool : OgsPool) (localList : List PfcpXact)
  deriving DecidableEq

/-- The transactions, the slots of other nodes, and by slot the first answer that has been sent
for the transaction in it. -/
structure DedupState where
  xacts : XactState
  others : List Nat
  first : Nat → Option (List UInt8) := fun _ => none

namespace DedupState

/-- Behind a reception, there is no answer yet to the transaction that is handed to the upper
layer. -/
def received (reception : XactReception) (ds : DedupState) : DedupState :=
  { ds with
    xacts := reception.st
    first := match reception.xact with
      | none => ds.first
      | some xact => update ds.first xact.slot none }

def responded (slot : Nat) (commit : XactCommit) (ds : DedupState) : DedupState :=
  { ds with
    xacts := commit.st
    first :=
      if (ds.first slot).isSome then ds.first
      else update ds.first slot commit.sent.head? }

end DedupState

inductive DedupStep (conf : XactConf) : DedupState → DedupEvent → DedupState → Prop
  | receive {ds timers type sqn reception} :
      xactReceive conf timers type sqn ds.xacts = .ok reception →
      DedupStep conf ds (.receive timers type sqn) (ds.received reception)
  | respond {ds xact type seid body commit} : xact ∈ ds.xacts.remoteList →
      sendResponse type seid body xact ds.xacts = .ok commit →
      DedupStep conf ds (.respond xact.slot type seid body) (ds.responded xact.slot commit)
  | holdingTimeout {ds xact} : xact ∈ ds.xacts.remoteList → xact.tmHolding = true →
      DedupStep conf ds (.holdingTimeout xact.slot)
        { ds with xacts := holdingTimeout xact ds.xacts }
  | elsewhere {ds others pool localList} :
      { ds.xacts with pool, localList }.Valid others →
      DedupStep conf ds (.elsewhere others pool localList)
        { ds with
          xacts := { ds.xacts with pool, localList }
          others }

/-- A node whose peer has not sent a request yet. -/
def dedupSystem (conf : XactConf) : System DedupState DedupEvent where
  init ds := ds.xacts.Valid ds.others ∧ ds.xacts.remoteList = [] ∧ ds.first = fun _ => none
  step := DedupStep conf

/-- What a request that comes in does to the transactions that are held. The same request is not
handed to the upper layer again, and is answered with the first answer, if there is one. The
transactions of all other requests are left as they are. -/
structure Deduplicated (type : UInt8) (sqn : UInt32) (ds : DedupState) (reception : XactReception) :
    Prop where
  once : ∀ xact ∈ ds.xacts.remoteList, xact.xid = pfcpSqnToXid sqn → xact.requestType = type →
    reception.xact = none
  again : ∀ xact ∈ ds.xacts.remoteList, xact.xid = pfcpSqnToXid sqn → xact.requestType = type →
    ∀ pkbuf, ds.first xact.slot = some pkbuf → reception.sent = [pkbuf]
  kept : ∀ xact ∈ ds.xacts.remoteList, ¬(xact.xid = pfcpSqnToXid sqn ∧ xact.requestType = type) →
    xact ∈ reception.st.remoteList

/-- The steps that keep requests apart. -/
def StepDeduplicated (conf : XactConf) (ds : DedupState) (event : DedupEvent) (_ : DedupState) :
    Prop :=
  match event with
  | .receive timers type sqn => xactGetStage type = .initial → ∀ reception,
      xactReceive conf timers type sqn ds.xacts = .ok reception → Deduplicated type sqn ds reception
  | _ => True

/-- A request does not have the sequence number of a transaction that is held for another type
of request. -/
def OwnSequenceNumber (ds : DedupState) (event : DedupEvent) : Prop :=
  match event with
  | .receive _ type sqn => xactGetStage type = .initial →
      ∀ xact ∈ ds.xacts.remoteList, xact.xid = pfcpSqnToXid sqn → xact.requestType = type
  | _ => True

/-! ## Held transactions -/

/-- A transaction of the peer has been asked for, or asked for and answered with a packet. -/
inductive Progress (xact : PfcpXact) : Option (List UInt8) → Prop
  | asked {type : UInt8} : xactGetStage type = .initial → xact.seq = [{ type }] → Progress xact none
  | answered {type response : UInt8} {pkbuf : List UInt8} : xactGetStage type = .initial →
      xact.seq = [{ type }, ⟨response, some pkbuf⟩] → Progress xact (some pkbuf)

variable {first : Option (List UInt8)} {ds : DedupState} {reception : XactReception} {seid : UInt64}
  {body : List UInt8} {commit : XactCommit}

theorem Progress.of_seq (h : Progress xact first) {other : PfcpXact} (hseq : other.seq = xact.seq) :
    Progress other first := by
  cases h with
  | asked htype hasked => exact .asked htype (hseq.trans hasked)
  | answered htype hanswered => exact .answered htype (hseq.trans hanswered)

/-- What holds in all runs: sequence numbers are held once, and the packet that a transaction
keeps is the first answer. -/
structure Holding (ds : DedupState) : Prop where
  valid : ds.xacts.Valid ds.others
  xids : (ds.xacts.remoteList.map PfcpXact.xid).Nodup
  progress : ∀ xact ∈ ds.xacts.remoteList, Progress xact (ds.first xact.slot)

theorem Holding.find (h : Holding ds) (hx : xact ∈ ds.xacts.remoteList) :
    ds.xacts.find .remoteOriginator xact.xid = some xact := by
  cases hfind : ds.xacts.find .remoteOriginator xact.xid with
  | none =>
    have hnone := List.find?_eq_none.mp hfind xact hx
    simp at hnone
  | some found =>
    obtain ⟨hmem, hxid⟩ := XactState.find_eq_some hfind
    rw [List.inj_on_of_nodup_map h.xids hmem hx hxid]

/-- A request of another type than the one that is held ends in an error. -/
theorem updateRx_other (hprogress : Progress xact first) (horg : xact.org = .remoteOriginator)
    (hinitial : xactGetStage type = .initial) (htype : xact.requestType ≠ type) :
    xact.updateRx type = (.error, xact, []) := by
  have hstep : xact.step ≠ 0 := by
    cases hprogress with
    | asked _ hseq => simp [PfcpXact.step, hseq]
    | answered _ hseq => simp [PfcpXact.step, hseq]
  unfold PfcpXact.updateRx
  rw [horg, hinitial]
  simp only [if_neg htype, if_pos hstep]

/-- A request that is held and not answered yet is left alone when it comes again. -/
theorem updateRx_asked (hprogress : Progress xact none) (horg : xact.org = .remoteOriginator)
    (hinitial : xactGetStage type = .initial) (htype : xact.requestType = type) :
    xact.updateRx type = (.retry, xact, []) := by
  cases hprogress with
  | asked _ hseq =>
    unfold PfcpXact.updateRx
    rw [horg, hinitial]
    simp [htype, PfcpXact.step, PfcpXact.seqAt, hseq]

/-- A request that has been answered is answered again. -/
theorem updateRx_answered {pkbuf : List UInt8} (hprogress : Progress xact (some pkbuf))
    (horg : xact.org = .remoteOriginator) (hinitial : xactGetStage type = .initial)
    (htype : xact.requestType = type) :
    xact.updateRx type = (.retry, { xact with tmHolding := true }, [pkbuf]) := by
  cases hprogress with
  | answered _ hseq =>
    unfold PfcpXact.updateRx
    rw [horg, hinitial]
    simp [htype, PfcpXact.step, PfcpXact.seqAt, hseq]

/-! ## Receptions -/

/-- A request of no transaction starts one, and is handed to the upper layer. -/
theorem xactReceive_opened (hvalid : st.Valid others) (hinitial : xactGetStage type = .initial)
    (hfind : st.find .remoteOriginator (pfcpSqnToXid sqn) = none)
    (hrun : xactReceive conf timers type sqn st = .ok reception) :
    ∃ xact pool, xact.seq = [{ type }] ∧ xact.org = .remoteOriginator ∧
      xact.xid = pfcpSqnToXid sqn ∧ st.pool.alloc = (some xact.slot, pool) ∧
      reception =
        { rv := .ok
          xact := some xact
          st := { st with pool, remoteList := st.remoteList ++ [xact] } } := by
  unfold xactReceive at hrun
  rw [hinitial] at hrun
  simp only [stageOrg, hfind] at hrun
  obtain ⟨created, hcreated, rfl⟩ := Fallible.map_eq_ok.mp hrun
  obtain ⟨slot, pool, halloc, -, rfl⟩ := xactRemoteCreate_eq_ok.mp hcreated
  let created := newXact conf .remoteOriginator (pfcpSqnToXid sqn) slot
  let opened := { created.accept type with tmHolding := true }
  have htype : ¬created.requestType = type := by
    intro htype
    have hzero : created.requestType = 0 := rfl
    rw [← htype, hzero] at hinitial
    cases hinitial
  have hrx : created.updateRx type = (.ok, opened, []) := by
    unfold PfcpXact.updateRx
    rw [show created.org = .remoteOriginator from rfl, hinitial]
    simp only [if_neg htype]
    rfl
  have hold : st.remoteList.map (fun other => if other.slot = slot then opened else other) =
      st.remoteList := by
    have halloc : st.pool.alloc = (some created.slot, pool) := halloc
    have hfresh : slot ∉ st.slots := (hvalid.create halloc rfl).2
    have hid (other : PfcpXact) (hother : other ∈ st.list .remoteOriginator) :
        (if other.slot = slot then opened else other) = id other := by
      apply if_neg
      rintro rfl
      exact hfresh (XactState.mem_slots hother)
    exact (List.map_congr_left hid).trans (List.map_id _)
  refine ⟨opened, pool, rfl, rfl, rfl, halloc, ?_⟩
  have hput : ({ st with pool, remoteList := st.remoteList ++ [created] } : XactState).put opened =
      { st with pool, remoteList := st.remoteList ++ [opened] } := by
    unfold XactState.put XactState.setList XactState.list
    rw [show opened.org = .remoteOriginator from rfl]
    simp only [List.map_append, List.map_cons, List.map_nil]
    rw [show opened.slot = slot from rfl, hold, if_pos (show created.slot = slot from rfl)]
  unfold xactUpdate
  rw [hrx]
  exact congrArg (fun st => { rv := .ok, xact := some opened, st : XactReception }) hput

/-- A request that is held already is answered if it has been before, and is not handed to the
upper layer. -/
theorem xactReceive_repeated (hprogress : Progress xact first) (horg : xact.org = .remoteOriginator)
    (hinitial : xactGetStage type = .initial)
    (hfind : st.find .remoteOriginator (pfcpSqnToXid sqn) = some xact)
    (htype : xact.requestType = type) (hrun : xactReceive conf timers type sqn st = .ok reception) :
    ∃ tmHolding, reception =
      { rv := .retry
        sent := first.toList
        st := st.put { xact with tmHolding } } := by
  unfold xactReceive at hrun
  rw [hinitial] at hrun
  simp only [stageOrg, hfind] at hrun
  obtain rfl := Except.ok.inj hrun
  unfold xactUpdate
  cases first with
  | none =>
    rw [updateRx_asked hprogress horg hinitial htype]
    exact ⟨xact.tmHolding, rfl⟩
  | some pkbuf =>
    rw [updateRx_answered hprogress horg hinitial htype]
    exact ⟨true, rfl⟩

/-- Another request with the same sequence number ends the transaction. -/
theorem xactReceive_other (hprogress : Progress xact first) (horg : xact.org = .remoteOriginator)
    (hinitial : xactGetStage type = .initial)
    (hfind : st.find .remoteOriginator (pfcpSqnToXid sqn) = some xact)
    (htype : xact.requestType ≠ type) (hrun : xactReceive conf timers type sqn st = .ok reception) :
    reception = { rv := .error, st := st.delete xact } := by
  unfold xactReceive at hrun
  rw [hinitial] at hrun
  simp only [stageOrg, hfind] at hrun
  obtain rfl := Except.ok.inj hrun
  rw [xactUpdate, updateRx_other hprogress horg hinitial htype]

/-- A response does not touch the transactions of the peer. -/
theorem xactReceive_final_remote (hvalid : st.Valid others) (hfinal : xactGetStage type = .final)
    (hrun : xactReceive conf timers type sqn st = .ok reception) :
    reception.st.Valid others ∧ reception.st.remoteList = st.remoteList ∧
      ∀ xact, reception.xact = some xact → ∀ other ∈ st.remoteList, other.slot ≠ xact.slot := by
  rw [xactReceive_final hfinal] at hrun
  cases hfind : st.find .localOriginator (pfcpSqnToXid sqn) with
  | some xact =>
    rw [hfind] at hrun
    obtain rfl := Except.ok.inj hrun
    obtain ⟨hmem, -⟩ := XactState.find_eq_some hfind
    have horg := hvalid.local_org xact hmem
    have hlocal : xact.org ≠ .remoteOriginator := by
      rw [horg]
      decide
    rw [xactUpdate_final horg hfinal]
    split
    · refine ⟨hvalid.delete (horg ▸ hmem), XactState.list_delete_ne hlocal, ?_⟩
      intro xact h
      cases h
    · have hlocal : (xact.accept type).org ≠ .remoteOriginator := hlocal
      refine ⟨hvalid.put, XactState.list_put_ne hlocal, ?_⟩
      intro handed h other hother
      cases h
      have hnodup := hvalid.slots_nodup
      unfold XactState.slots at hnodup
      rw [List.map_append] at hnodup
      exact fun hslot => (List.nodup_append.mp hnodup).2.2 _ (List.mem_map_of_mem hmem) _
        (List.mem_map_of_mem hother) hslot.symm
  | none =>
    rw [hfind] at hrun
    obtain ⟨created, hcreated, rfl⟩ := Fallible.map_eq_ok.mp hrun
    obtain ⟨slot, pool, halloc, -, rfl⟩ := xactRemoteCreate_eq_ok.mp hcreated
    let created := newXact conf .remoteOriginator (pfcpSqnToXid sqn) slot
    have halloc : st.pool.alloc = (some created.slot, pool) := halloc
    obtain ⟨hvalid', hfresh⟩ := hvalid.create halloc rfl
    rw [xactUpdate_created hfinal]
    refine ⟨hvalid'.delete ?_, ?_, ?_⟩
    · exact List.mem_append_right _ (List.mem_singleton_self _)
    · have hfilter : st.remoteList.filter (fun other => other.slot ≠ slot) = st.remoteList := by
        apply List.filter_eq_self.mpr
        intro other hother
        apply decide_eq_true
        rintro rfl
        have hslots : other.slot ∈ st.slots :=
          XactState.mem_slots (show other ∈ st.list .remoteOriginator from hother)
        exact hfresh hslots
      change (st.remoteList ++ [newXact conf .remoteOriginator (pfcpSqnToXid sqn) slot]).filter
        (fun other => other.slot ≠ slot) = st.remoteList
      rw [List.filter_append, hfilter]
      simp [newXact]
    · intro xact h
      cases h

/-! ## Invariant -/

/-- A transaction is written without a change of its sequence number. -/
theorem Holding.put (h : Holding ds) (hx : xact ∈ ds.xacts.remoteList) (written : PfcpXact)
    (hslot : written.slot = xact.slot) (hxid : written.xid = xact.xid)
    (horg : written.org = .remoteOriginator) {first : Nat → Option (List UInt8)}
    (hfirst : ∀ slot, slot ≠ xact.slot → first slot = ds.first slot)
    (hprogress : Progress written (first xact.slot)) :
    Holding { ds with xacts := ds.xacts.put written, first } := by
  constructor
  · exact h.valid.put
  · have hlist : (ds.xacts.put written).remoteList = _ := XactState.list_put horg
    have hxids : (ds.xacts.put written).remoteList.map PfcpXact.xid =
        ds.xacts.remoteList.map PfcpXact.xid := by
      rw [hlist, List.map_map]
      apply List.map_congr_left
      intro other hother
      simp only [Function.comp_apply]
      split
      · next heq =>
        have hother : other = xact :=
          h.valid.eq_of_slot .remoteOriginator hother hx (heq.trans hslot)
        rw [hother, hxid]
      · rfl
    exact hxids ▸ h.xids
  · intro other hother
    have hmem : other ∈ (ds.xacts.put written).list .remoteOriginator := hother
    rcases XactState.mem_of_mem_put hmem with ⟨rfl, -⟩ | ⟨hother, hne⟩
    · rw [hslot]
      exact hprogress
    · have hne := hne horg
      rw [hslot] at hne
      simp only [hfirst other.slot hne]
      exact h.progress other hother

/-- A transaction ends. -/
theorem Holding.delete (h : Holding ds) (hx : xact ∈ ds.xacts.remoteList)
    {first : Nat → Option (List UInt8)}
    (hfirst : ∀ slot, slot ≠ xact.slot → first slot = ds.first slot) :
    Holding { ds with xacts := ds.xacts.delete xact, first } := by
  have horg := h.valid.remote_org xact hx
  constructor
  · exact h.valid.delete (by rwa [horg])
  · have hsub : (ds.xacts.delete xact).remoteList.Sublist ds.xacts.remoteList := by
      rw [show (ds.xacts.delete xact).remoteList = _ from XactState.list_delete horg]
      exact List.filter_sublist
    exact h.xids.sublist (hsub.map PfcpXact.xid)
  · intro other hother
    obtain ⟨hother, hne⟩ := (XactState.mem_delete horg).mp hother
    simp only [hfirst other.slot hne]
    exact h.progress other hother

theorem Holding.receive (h : Holding ds)
    (hrun : xactReceive conf timers type sqn ds.xacts = .ok reception) :
    Holding (ds.received reception) := by
  cases hstage : xactGetStage type with
  | unknown =>
    rw [xactReceive, hstage] at hrun
    obtain rfl := Except.ok.inj hrun
    exact h
  | final =>
    obtain ⟨hvalid, hremote, hfresh⟩ := xactReceive_final_remote h.valid hstage hrun
    constructor
    · exact hvalid
    · simp only [DedupState.received, hremote]
      exact h.xids
    · intro other hother
      simp only [DedupState.received, hremote] at hother
      have hprogress := h.progress other hother
      cases hxact : reception.xact with
      | none => simpa only [DedupState.received, hxact] using hprogress
      | some xact =>
        have hne := hfresh xact hxact other hother
        simpa only [DedupState.received, hxact, update_of_ne hne] using hprogress
  | initial =>
    cases hfind : ds.xacts.find .remoteOriginator (pfcpSqnToXid sqn) with
    | none =>
      obtain ⟨xact, pool, hseq, horg, hxid, halloc, rfl⟩ :=
        xactReceive_opened h.valid hstage hfind hrun
      obtain ⟨hvalid, hfresh⟩ := h.valid.create halloc horg
      constructor
      · exact hvalid
      · have hnew : pfcpSqnToXid sqn ∉ ds.xacts.remoteList.map PfcpXact.xid := by
          intro hmem
          obtain ⟨other, hother, hsame⟩ := List.mem_map.mp hmem
          rw [← hsame, h.find hother] at hfind
          cases hfind
        simp only [DedupState.received, List.map_append, List.map_cons, List.map_nil, hxid]
        exact List.nodup_append_comm.mp (List.nodup_cons.mpr ⟨hnew, h.xids⟩)
      · intro other hother
        rcases List.mem_append.mp hother with hother | hother
        · have hne : other.slot ≠ xact.slot := by
            rintro heq
            have hslots : other.slot ∈ ds.xacts.slots :=
              XactState.mem_slots (show other ∈ ds.xacts.list .remoteOriginator from hother)
            exact hfresh (heq ▸ hslots)
          simpa only [DedupState.received, update_of_ne hne] using h.progress other hother
        · obtain rfl := List.mem_singleton.mp hother
          simpa only [DedupState.received, update_self] using .asked hstage hseq
    | some xact =>
      obtain ⟨hmem, hxid⟩ := XactState.find_eq_some hfind
      have horg := h.valid.remote_org xact hmem
      have hprogress := h.progress xact hmem
      by_cases htype : xact.requestType = type
      · obtain ⟨tmHolding, rfl⟩ := xactReceive_repeated hprogress horg hstage hfind htype hrun
        have hsame := hprogress.of_seq (show { xact with tmHolding }.seq = xact.seq from rfl)
        exact h.put hmem { xact with tmHolding } rfl rfl horg (fun _ _ => rfl) hsame
      · obtain rfl := xactReceive_other hprogress horg hstage hfind htype hrun
        exact h.delete hmem fun _ _ => rfl

/-- A request that has not been answered is answered by a response, which the transaction keeps.
Another message is not sent. -/
theorem sendResponse_cases (hprogress : Progress xact first) (horg : xact.org = .remoteOriginator)
    (hrun : sendResponse type seid body xact st = .ok commit) : commit = { rv := .error, st } ∨
      first = none ∧ ∃ pkbuf, commit.sent = [pkbuf] ∧
        Progress (xact.push type seid body) (some pkbuf) ∧
        (commit.st = st.put (xact.push type seid body) ∨
          commit.st = (st.put (xact.push type seid body)).delete (xact.push type seid body)) := by
  let pushed := xact.push type seid body
  let pkbuf := pfcpMessage type seid xact.xid body
  have hother (hnone : xact.updateTx type seid body = .ok none) : commit = { rv := .error, st } := by
    unfold sendResponse at hrun
    rw [hnone] at hrun
    exact (Except.ok.inj hrun).symm
  cases hstage : xactGetStage type with
  | unknown => exact .inl (hother (by rw [PfcpXact.updateTx, horg, hstage]))
  | initial => exact .inl (hother (by rw [PfcpXact.updateTx, horg, hstage]))
  | final =>
    have htx : xact.updateTx type seid body =
        .ok (if xact.step ≠ 1 then none else some pushed) := by
      rw [PfcpXact.updateTx, horg, hstage]
    cases hprogress with
    | answered _ hseq =>
      have hstep : xact.step ≠ 1 := by simp [PfcpXact.step, hseq]
      rw [if_pos hstep] at htx
      exact .inl (hother htx)
    | @asked request hrequest hseq =>
      have hstep : ¬xact.step ≠ 1 := by simp [PfcpXact.step, hseq]
      rw [if_neg hstep] at htx
      have hpushed : pushed.seq = [{ type := request }, ⟨type, some pkbuf⟩] :=
        congrArg (· ++ [(⟨type, some pkbuf⟩ : XactSeq)]) hseq
      have hcommit : xactCommit pushed (st.put pushed) =
          .ok { rv := .ok, sent := [pkbuf], st := st.put pushed } := by
        have hstep : pushed.step = 2 := by simp [PfcpXact.step, hpushed]
        have hlast : pushed.seqAt 1 = ⟨type, some pkbuf⟩ := by simp [PfcpXact.seqAt, hpushed]
        have horg : pushed.org = .remoteOriginator := horg
        simp [xactCommit, commitSend, hstep, hlast, hstage, horg]
      unfold sendResponse at hrun
      rw [htx] at hrun
      simp only [Fallible.ok_bind, hcommit] at hrun
      refine .inr ⟨rfl, pkbuf, ?_, .answered hrequest hpushed, ?_⟩
      · split at hrun <;> exact Except.ok.inj hrun ▸ rfl
      · split at hrun
        · exact .inr (Except.ok.inj hrun ▸ rfl)
        · exact .inl (Except.ok.inj hrun ▸ rfl)

theorem Holding.respond (h : Holding ds) (hx : xact ∈ ds.xacts.remoteList)
    (hrun : sendResponse type seid body xact ds.xacts = .ok commit) :
    Holding (ds.responded xact.slot commit) := by
  have horg := h.valid.remote_org xact hx
  have hprogress := h.progress xact hx
  rcases sendResponse_cases hprogress horg hrun with rfl | ⟨hnone, pkbuf, hsent, hpushed, hst⟩
  · have hfirst : (ds.responded xact.slot { rv := .error, st := ds.xacts }) = ds := by
      unfold DedupState.responded
      split
      · rfl
      · next hnone =>
        rw [Bool.not_eq_true, Option.isSome_eq_false_iff, Option.isNone_iff_eq_none] at hnone
        simp only [List.head?_nil, ← hnone, update_eq_self]
    rwa [hfirst]
  · have hresponded : ds.responded xact.slot commit =
        { ds with
          xacts := commit.st
          first := update ds.first xact.slot (some pkbuf) } := by
      simp [DedupState.responded, hnone, hsent]
    have hput : Holding
        { ds with
          xacts := ds.xacts.put (xact.push type seid body)
          first := update ds.first xact.slot (some pkbuf) } := by
      apply h.put hx (xact.push type seid body) rfl rfl horg
      · intro slot hne
        exact update_of_ne hne _ _
      · rw [update_self]
        exact hpushed
    rw [hresponded]
    rcases hst with hst | hst
    · rwa [hst]
    · rw [hst]
      apply hput.delete
      · have horg : (xact.push type seid body).org = .remoteOriginator := horg
        rw [show (ds.xacts.put (xact.push type seid body)).remoteList = _ from
          XactState.list_put horg]
        exact List.mem_map.mpr ⟨xact, hx, if_pos rfl⟩
      · exact fun _ _ => rfl

theorem Holding.timeout (h : Holding ds) (hx : xact ∈ ds.xacts.remoteList) :
    Holding { ds with xacts := holdingTimeout xact ds.xacts } := by
  have horg := h.valid.remote_org xact hx
  unfold holdingTimeout
  dsimp only
  split
  · apply h.put hx { xact with holdingRcount := xact.holdingRcount - 1, tmHolding := true } rfl rfl
      horg
    · exact fun _ _ => rfl
    · exact (h.progress xact hx).of_seq rfl
  · exact h.delete hx fun _ _ => rfl

/-- In every run, the sequence numbers of the peer are held once and the packets are the first
answers. -/
theorem holding {P : DedupState → DedupEvent → Prop} {events : List DedupEvent}
    (h : Run (dedupSystem conf) P events ds) : Holding ds := by
  apply h.invariant
  · rintro ds ⟨hvalid, hremote, -⟩
    constructor
    · exact hvalid
    · rw [hremote]
      exact List.nodup_nil
    · intro xact hx
      rw [hremote] at hx
      cases hx
  · intro ds event ds' hholding _ hstep
    cases hstep with
    | receive hrun => exact hholding.receive hrun
    | respond hx hrun => exact hholding.respond hx hrun
    | holdingTimeout hx _ => exact hholding.timeout hx
    | elsewhere hvalid => exact ⟨hvalid, hholding.xids, hholding.progress⟩

/-! ## Requests -/

/-- The deduplication of a request depends on its sequence number only. -/
theorem deduplicated_iff (h : Holding ds) (hinitial : xactGetStage type = .initial)
    (hrun : xactReceive conf timers type sqn ds.xacts = .ok reception) :
    Deduplicated type sqn ds reception ↔
      ∀ xact ∈ ds.xacts.remoteList, xact.xid = pfcpSqnToXid sqn → xact.requestType = type := by
  constructor
  · intro hdedup xact hmem hxid
    by_contra htype
    have hkept := hdedup.kept xact hmem fun hsame => htype hsame.2
    have horg := h.valid.remote_org xact hmem
    have hfind := hxid ▸ h.find hmem
    obtain rfl := xactReceive_other (h.progress xact hmem) horg hinitial hfind htype hrun
    exact ((XactState.mem_delete horg).mp hkept).2 rfl
  · intro hsame
    cases hfind : ds.xacts.find .remoteOriginator (pfcpSqnToXid sqn) with
    | none =>
      have hnone (xact : PfcpXact) (hmem : xact ∈ ds.xacts.remoteList) :
          xact.xid ≠ pfcpSqnToXid sqn := by
        intro hxid
        rw [← hxid, h.find hmem] at hfind
        cases hfind
      obtain ⟨opened, pool, -, -, -, -, rfl⟩ := xactReceive_opened h.valid hinitial hfind hrun
      constructor
      · exact fun xact hmem hxid => absurd hxid (hnone xact hmem)
      · exact fun xact hmem hxid => absurd hxid (hnone xact hmem)
      · exact fun xact hmem _ => List.mem_append_left _ hmem
    | some xact =>
      obtain ⟨hmem, hxid⟩ := XactState.find_eq_some hfind
      have horg := h.valid.remote_org xact hmem
      have htype := hsame xact hmem hxid
      have heq (other : PfcpXact) (hother : other ∈ ds.xacts.remoteList)
          (hsqn : other.xid = pfcpSqnToXid sqn) : other = xact :=
        List.inj_on_of_nodup_map h.xids hother hmem (hsqn.trans hxid.symm)
      obtain ⟨tmHolding, rfl⟩ :=
        xactReceive_repeated (h.progress xact hmem) horg hinitial hfind htype hrun
      constructor
      · exact fun _ _ _ _ => rfl
      · intro other hother hsqn _ pkbuf hfirst
        rw [heq other hother hsqn] at hfirst
        simp only [hfirst, Option.toList_some]
      · intro other hother hne
        have hslot : other.slot ≠ xact.slot := by
          intro hslot
          obtain rfl := h.valid.eq_of_slot .remoteOriginator hother hmem hslot
          exact hne ⟨hxid, htype⟩
        have horg : { xact with tmHolding }.org = .remoteOriginator := horg
        exact XactState.mem_put horg hother hslot

/-- Requests are kept apart in the runs in which no request has the sequence number of a
transaction that is held for another type of request. -/
theorem stepsDeduplicated_iff (conf : XactConf) (events : List DedupEvent) (ds : DedupState) :
    StepsRun (dedupSystem conf) (StepDeduplicated conf) events ds ↔
      Run (dedupSystem conf) OwnSequenceNumber events ds := by
  apply stepsRun_iff fun hrun => holding hrun
  intro ds event ds' hholding hstep
  cases hstep with
  | receive hrun =>
    constructor
    · exact fun hdedup hinitial => (deduplicated_iff hholding hinitial hrun).mp
        (hdedup hinitial _ hrun)
    · exact fun hown hinitial _ hrun => (deduplicated_iff hholding hinitial hrun).mpr (hown hinitial)
  | respond _ _ => exact Iff.rfl
  | holdingTimeout _ _ => exact Iff.rfl
  | elsewhere _ => exact Iff.rfl

/-- A Session Establishment Request that has come in, with its transaction. -/
def establishmentXact : PfcpXact :=
  { newXact xactConf .remoteOriginator 5 0 with
    seq := [{ type := sessionEstablishmentRequestType }]
    tmHolding := true }

/-- A node that holds a Session Establishment Request. -/
def establishing : DedupState where
  xacts := { pool := ⟨2, [1]⟩, remoteList := [establishmentXact] }
  others := []

/-- A Session Modification Request with the sequence number of a Session Establishment Request
deletes its transaction. -/
theorem establishment_deleted :
    Run (dedupSystem xactConf) unrestricted [.receive true 50 (pfcpXidToSqn 5)] establishing ∧
      ¬StepDeduplicated xactConf establishing (.receive true 52 (pfcpXidToSqn 5)) establishing := by
  constructor
  · let quiet : DedupState := { xacts := { pool := .init 2 }, others := [] }
    have hquiet : Run (dedupSystem xactConf) unrestricted [] quiet := by
      refine .nil ⟨XactState.Valid.of_org ?_ ?_, rfl, rfl⟩
      · exact OgsPool.init_holds 2
      · intro org xact hmem
        cases org <;> cases hmem
    have hrun : xactReceive xactConf true 50 (pfcpXidToSqn 5) quiet.xacts =
        .ok { rv := .ok, xact := some establishmentXact, st := establishing.xacts } := by
      decide
    have hfirst : quiet.received
        { rv := .ok, xact := some establishmentXact, st := establishing.xacts } = establishing :=
      congrArg (DedupState.mk establishing.xacts []) (update_eq_self _ _)
    exact hfirst ▸ hquiet.snoc trivial (.receive hrun)
  · have hrun : xactReceive xactConf true 52 (pfcpXidToSqn 5) establishing.xacts =
        .ok { rv := .error, st := { pool := ⟨2, [1, 0]⟩ } } := by decide
    intro h
    have hkept := (h rfl _ hrun).kept establishmentXact (List.mem_singleton_self _) (by decide)
    cases hkept

end Quicup.Open5gs.Pfcp
