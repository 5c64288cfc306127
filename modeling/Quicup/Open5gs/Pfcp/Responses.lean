import Quicup.Core.Fallible
import Quicup.Open5gs.Pfcp.Xact

/-!
# Responses to transactions of a node

A response is taken for the answer to the transaction that its sequence number names, whatever
the request of that transaction was.
-/

namespace Quicup.Open5gs.Pfcp

variable {conf : XactConf} {timers : Bool} {type : UInt8} {sqn : UInt32} {others : List Nat}
  {st : XactState} {xact : PfcpXact}

/-! ## Lists of transactions -/

namespace XactState

/-- The slots of the transactions of a node. -/
def slots (st : XactState) : List Nat := (st.localList ++ st.remoteList).map PfcpXact.slot

/-- The transactions stand in their own list, and no slot of the pool is used twice. -/
structure Valid (others : List Nat) (st : XactState) : Prop where
  holds : st.pool.Holds (others ++ st.slots)
  local_org : ∀ xact ∈ st.localList, xact.org = .localOriginator
  remote_org : ∀ xact ∈ st.remoteList, xact.org = .remoteOriginator

theorem Valid.slots_nodup (h : st.Valid others) : st.slots.Nodup :=
  (List.nodup_append.mp (List.nodup_append.mp h.holds.nodup).2.1).2.1

/-- A slot names one transaction of a list. -/
theorem Valid.eq_of_slot (h : st.Valid others) (org : XactOrg) {xact xact' : PfcpXact}
    (hx : xact ∈ st.list org) (hx' : xact' ∈ st.list org) (hslot : xact.slot = xact'.slot) :
    xact = xact' := by
  have hmem (x : PfcpXact) (hx : x ∈ st.list org) : x ∈ st.localList ++ st.remoteList := by
    cases org with
    | localOriginator => exact List.mem_append_left _ hx
    | remoteOriginator => exact List.mem_append_right _ hx
  exact List.inj_on_of_nodup_map h.slots_nodup (hmem xact hx) (hmem xact' hx') hslot

variable {org : XactOrg} {other : PfcpXact}

theorem find_eq_some {xid : UInt32} (h : st.find org xid = some xact) :
    xact ∈ st.list org ∧ xact.xid = xid :=
  ⟨List.mem_of_find?_eq_some h, by simpa using List.find?_some h⟩

@[simp] theorem list_setList (org : XactOrg) (xacts : List PfcpXact) :
    (st.setList org xacts).list org = xacts := by
  cases org <;> rfl

theorem list_put (horg : xact.org = org) :
    (st.put xact).list org =
      (st.list org).map fun other => if other.slot = xact.slot then xact else other := by
  subst horg
  exact list_setList ..

theorem list_delete (horg : xact.org = org) :
    (st.delete xact).list org = (st.list org).filter fun other => other.slot ≠ xact.slot := by
  subst horg
  cases xact
  rename_i org _ _ _ _ _ _
  cases org <;> rfl

/-- A transaction in another slot is left alone. -/
theorem mem_put (horg : xact.org = org) (h : other ∈ st.list org) (hslot : other.slot ≠ xact.slot) :
    other ∈ (st.put xact).list org := by
  rw [list_put horg]
  exact List.mem_map.mpr ⟨other, h, if_neg hslot⟩

theorem mem_delete (horg : xact.org = org) :
    other ∈ (st.delete xact).list org ↔ other ∈ st.list org ∧ other.slot ≠ xact.slot := by
  rw [list_delete horg, List.mem_filter, decide_eq_true_iff]

end XactState

/-! ## Responses -/

/-- A response of this type belongs to the request of a transaction. -/
def Answers (type : UInt8) (xact : PfcpXact) : Prop := responseType xact.requestType = some type

instance : Decidable (Answers type xact) := inferInstanceAs (Decidable (_ = _))

/-- What a response leaves of the transactions that the node has started. The process goes on.
A transaction is handed to the upper layer only with the response that belongs to its request,
and every other one is left as it is, with its timers and the packet that it repeats. -/
structure LocalSafe (type : UInt8) (sqn : UInt32) (st : XactState)
    (result : Except Fault XactReception) : Prop where
  returns : ∃ reception, result = .ok reception
  handed : ∀ reception xact, result = .ok reception → reception.xact = some xact →
    xact.org = .localOriginator →
    ∃ known ∈ st.localList, known.slot = xact.slot ∧ Answers type known
  kept : ∀ reception, result = .ok reception → ∀ known ∈ st.localList,
    ¬(known.xid = pfcpSqnToXid sqn ∧ Answers type known) → known ∈ reception.st.localList

/-- A response belongs to the transaction that its sequence number leads to. If it leads to none,
there is a transaction left for it, and timers. -/
def Belongs (timers : Bool) (type : UInt8) (sqn : UInt32) (st : XactState) : Prop :=
  match st.find .localOriginator (pfcpSqnToXid sqn) with
  | some xact => Answers type xact
  | none => st.pool.free ≠ [] ∧ timers = true

theorem xactReceive_final (hfinal : xactGetStage type = .final) :
    xactReceive conf timers type sqn st =
      match st.find .localOriginator (pfcpSqnToXid sqn) with
      | some xact => .ok (xactUpdate type xact st)
      | none => (xactRemoteCreate conf timers sqn st).map fun created =>
          xactUpdate type created.1 created.2 := by
  rw [xactReceive, hfinal]
  rfl

/-- A response to a transaction of the node is taken if the request has been sent and not been
answered. Otherwise the transaction is deleted. -/
theorem xactUpdate_final (horg : xact.org = .localOriginator) (hfinal : xactGetStage type = .final) :
    xactUpdate type xact st =
      if xact.step ≠ 1 then { rv := .error, st := st.delete xact }
      else { rv := .ok, xact := some (xact.accept type), st := st.put (xact.accept type) } := by
  have hrx : xact.updateRx type =
      if xact.step ≠ 1 then (.error, xact, []) else (.ok, xact.accept type, []) := by
    unfold PfcpXact.updateRx
    rw [horg, hfinal]
  unfold xactUpdate
  rw [hrx]
  by_cases hstep : xact.step ≠ 1
  · simp only [if_pos hstep]
  · simp only [if_neg hstep]

/-- A response to no transaction leaves the node as it is. -/
theorem xactUpdate_created (hfinal : xactGetStage type = .final) {slot : Nat} {xid : UInt32} :
    xactUpdate type (newXact conf .remoteOriginator xid slot) st =
      { rv := .error, st := st.delete (newXact conf .remoteOriginator xid slot) } := by
  unfold xactUpdate PfcpXact.updateRx
  rw [hfinal]
  rfl

/-- A new transaction of the peer needs a slot and timers. -/
theorem xactRemoteCreate_eq_ok {created : PfcpXact × XactState} :
    xactRemoteCreate conf timers sqn st = .ok created ↔
      ∃ slot pool, st.pool.alloc = (some slot, pool) ∧ timers = true ∧
        created = (newXact conf .remoteOriginator (pfcpSqnToXid sqn) slot,
          { st with
            pool
            remoteList := st.remoteList ++ [newXact conf .remoteOriginator (pfcpSqnToXid sqn) slot] }) := by
  unfold xactRemoteCreate
  rcases st.pool.alloc with ⟨_ | slot, pool⟩
  · simp
  · cases timers with
    | false => simp
    | true =>
      simp only [Bool.true_eq_false, if_false, Except.ok.injEq, Prod.mk.injEq, Option.some.injEq]
      constructor
      · rintro rfl
        exact ⟨slot, pool, ⟨rfl, rfl⟩, trivial, rfl⟩
      · rintro ⟨_, _, ⟨rfl, rfl⟩, _, rfl⟩
        rfl

theorem alloc_isSome {pool : OgsPool} : (∃ slot pool', pool.alloc = (some slot, pool')) ↔ pool.free ≠ [] := by
  unfold OgsPool.alloc
  cases pool.free with
  | nil => simp
  | cons slot free => simp

/-- The transactions that the node has started are safe from a response exactly if it belongs to
the one that it is taken for. -/
theorem localSafe_iff (hvalid : st.Valid others) (hfinal : xactGetStage type = .final) :
    LocalSafe type sqn st (xactReceive conf timers type sqn st) ↔ Belongs timers type sqn st := by
  rw [xactReceive_final hfinal, Belongs]
  cases hfind : st.find .localOriginator (pfcpSqnToXid sqn) with
  | some xact =>
    obtain ⟨hmem, hxid⟩ := XactState.find_eq_some hfind
    have horg := hvalid.local_org xact hmem
    have hupdate : xactUpdate type xact st = _ := xactUpdate_final horg hfinal
    constructor
    · intro hsafe
      by_contra hanswers
      have hkept := hsafe.kept _ rfl xact hmem fun h => hanswers h.2
      rw [hupdate] at hkept
      split at hkept
      · exact ((XactState.mem_delete horg).mp hkept).2 rfl
      · next hstep =>
        obtain ⟨known, hknown, hslot, hbelongs⟩ :=
          hsafe.handed _ (xact.accept type) rfl (by rw [hupdate, if_neg hstep]) horg
        rw [hvalid.eq_of_slot .localOriginator hknown hmem hslot] at hbelongs
        exact hanswers hbelongs
    · intro hanswers
      constructor
      · exact ⟨_, rfl⟩
      · rintro _ handed ⟨⟩ hhanded -
        rw [hupdate] at hhanded
        split at hhanded
        · cases hhanded
        · cases hhanded
          exact ⟨xact, hmem, rfl, hanswers⟩
      · rintro _ ⟨⟩ known hknown hother
        have hslot : known.slot ≠ xact.slot := by
          intro hslot
          rw [hvalid.eq_of_slot .localOriginator hknown hmem hslot] at hother
          exact hother ⟨hxid, hanswers⟩
        rw [hupdate]
        split
        · exact (XactState.mem_delete horg).mpr ⟨hknown, hslot⟩
        · have horg : (xact.accept type).org = .localOriginator := horg
          exact XactState.mem_put horg hknown hslot
  | none =>
    constructor
    · intro hsafe
      obtain ⟨reception, hrun⟩ := hsafe.returns
      obtain ⟨created, hcreated, -⟩ := Fallible.map_eq_ok.mp hrun
      obtain ⟨slot, pool, halloc, htimers, -⟩ := xactRemoteCreate_eq_ok.mp hcreated
      exact ⟨alloc_isSome.mp ⟨slot, pool, halloc⟩, htimers⟩
    · rintro ⟨hfree, htimers⟩
      obtain ⟨slot, pool, halloc⟩ := alloc_isSome.mpr hfree
      have hcreated : xactRemoteCreate conf timers sqn st = _ :=
        xactRemoteCreate_eq_ok.mpr ⟨slot, pool, halloc, htimers, rfl⟩
      rw [hcreated]
      simp only [Except.map, xactUpdate_created hfinal]
      constructor
      · exact ⟨_, rfl⟩
      · rintro _ handed ⟨⟩ hhanded
        cases hhanded
      · rintro _ ⟨⟩ known hknown -
        exact hknown

/-- What a node repeats, as the configuration has it by default. -/
def xactConf : XactConf := ⟨3, 1⟩

/-- A Heartbeat Request that has been sent. -/
def heartbeatXact : PfcpXact :=
  { (newXact xactConf .localOriginator 1 0).push heartbeatRequestType 0 [] with tmResponse := true }

/-- A node that waits for the answer to a Heartbeat Request. -/
def awaitingHeartbeat : XactState where
  pool := ⟨2, [1]⟩
  localList := [heartbeatXact]

/-- The Heartbeat Response is safe. -/
theorem localSafe_heartbeat :
    LocalSafe heartbeatResponseType (pfcpXidToSqn 1) awaitingHeartbeat
      (xactReceive xactConf true heartbeatResponseType (pfcpXidToSqn 1) awaitingHeartbeat) := by
  have hvalid : awaitingHeartbeat.Valid [] := by
    constructor
    · unfold OgsPool.Holds
      decide
    · intro xact hmem
      obtain rfl := List.mem_singleton.mp hmem
      rfl
    · intro xact hmem
      cases hmem
  apply (localSafe_iff hvalid rfl).mpr
  have hfind : awaitingHeartbeat.find .localOriginator (pfcpSqnToXid (pfcpXidToSqn 1)) =
      some heartbeatXact := by decide
  rw [Belongs, hfind]
  rfl

/-- A Session Establishment Response with the sequence number of a Heartbeat Request is handed to
the upper layer as its answer. -/
theorem heartbeat_not_safe :
    ¬LocalSafe 51 (pfcpXidToSqn 1) awaitingHeartbeat
      (xactReceive xactConf true 51 (pfcpXidToSqn 1) awaitingHeartbeat) := by
  have hrun : xactReceive xactConf true 51 (pfcpXidToSqn 1) awaitingHeartbeat =
      .ok (xactUpdate 51 heartbeatXact awaitingHeartbeat) := by decide
  intro h
  obtain ⟨known, hmem, -, hanswers⟩ := h.handed _ (heartbeatXact.accept 51) hrun rfl rfl
  obtain rfl := List.mem_singleton.mp hmem
  exact absurd hanswers (by decide)

end Quicup.Open5gs.Pfcp
