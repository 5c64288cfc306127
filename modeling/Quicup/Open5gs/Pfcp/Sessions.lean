import Quicup.Open5gs.Pfcp.Tunnel

/-!
# PDRs of many sessions

The sessions share the pool of PDRs, the pool of TEIDs and the table of TEIDs. What is done
to a PDR of one session is read off the functions of the context, and leaves the PDRs of the
others in their slots.
-/

namespace Quicup.Open5gs.Pfcp

/-! ## A PDR that is added -/

/-- A PDR is to be had for a number: there is one already, or there is none free, or the
session has a free number for it. -/
def PfcpState.ServesPdr (st : PfcpState) (id : UInt32) : Prop :=
  (st.find .pdr id).isSome ∨ (st.ctx.table .pdr).pool.free = [] ∨ (st.sess.idPool .pdr).free ≠ []

/-- A PDR is added with the TEID of a free slot. -/
structure PdrAdded (slot node : Nat) (st st' : PfcpState) : Prop where
  pool : (st.ctx.table .pdr).pool.alloc = (some slot, (st'.ctx.table .pdr).pool)
  teidPool : st.ctx.teidPool.alloc = (some node, st'.ctx.teidPool)
  list : st'.list .pdr = st.list .pdr ++ [slot]
  rule : st'.rule .pdr slot = { teidNode := node, teid := st.ctx.teids node }
  others : ∀ other, other ≠ slot → st'.rule .pdr other = st.rule .pdr other
  frame : st'.ctx = { st.ctx with table := st'.ctx.table, teidPool := st'.ctx.teidPool }

/-- A TEID is taken, and no PDR is added. -/
structure TeidLeaked (slot node : Nat) (st st' : PfcpState) : Prop where
  pool : ∃ pool, (st.ctx.table .pdr).pool.alloc = (some slot, pool) ∧
    (st'.ctx.table .pdr).pool = pool.release slot
  teidPool : st.ctx.teidPool.alloc = (some node, st'.ctx.teidPool)
  list : st'.list .pdr = st.list .pdr
  rules : ∀ other, st'.rule .pdr other = st.rule .pdr other
  frame : st'.ctx = { st.ctx with table := st'.ctx.table, teidPool := st'.ctx.teidPool }

section

variable {st st' : PfcpState} {id : UInt32} {slot : Nat} {result : Except Refusal (Option Nat)}

/-- A PDR gets another number. -/
theorem PdrAdded.setId {node : Nat} (h : PdrAdded slot node st st') (id : UInt32) :
    PdrAdded slot node st (st'.setEntry .pdr slot { st'.entry .pdr slot with id }) where
  pool := by simpa [PfcpState.setEntry, PfcpState.setTable] using h.pool
  teidPool := h.teidPool
  list := h.list
  rule := by
    rw [← h.rule]
    simp [PfcpState.rule, PfcpState.entry, PfcpState.setEntry, PfcpState.setTable]
  others other hne := by
    rw [← h.others other hne]
    simp [PfcpState.rule, PfcpState.entry, PfcpState.setEntry, PfcpState.setTable, hne]
  frame := by
    rw [PfcpState.setEntry, PfcpState.setTable, h.frame]

/-- The outcomes of adding a PDR. -/
theorem pdrAdd_eq_ok (h : pdrAdd st = .ok (result, st')) :
    ((st.ctx.table .pdr).pool.free = [] ∧ result = .ok none ∧ st' = st) ∨
      (st.ctx.table .pdr).pool.free ≠ [] ∧
        (((st.sess.idPool .pdr).free ≠ [] ∧ ∃ slot node, result = .ok (some slot) ∧
            PdrAdded slot node st st') ∨
          ((st.sess.idPool .pdr).free = [] ∧ result = .ok none ∧
            ∃ slot node, TeidLeaked slot node st st')) := by
  unfold pdrAdd at h
  rw [Procedure.get_bind_run] at h
  by_cases hfree : (st.ctx.table .pdr).pool.free = []
  · rw [if_pos hfree] at h
    cases h
    exact .inl ⟨hfree, rfl, rfl⟩
  rw [if_neg hfree] at h
  refine .inr ⟨hfree, ?_⟩
  cases hpool : (st.ctx.table .pdr).pool.free with
  | nil => exact absurd hpool hfree
  | cons slot slots =>
    cases hteid : st.ctx.teidPool.free with
    | nil =>
      simp [OgsPool.alloc, hteid] at h
    | cons node nodes =>
      cases hid : (st.sess.idPool .pdr).free with
      | nil =>
        simp [OgsPool.alloc, hteid, PfcpState.add, hpool, hid] at h
        obtain ⟨rfl, rfl⟩ := h
        refine .inr ⟨rfl, rfl, slot, node, ⟨?_, ?_, ?_, ?_, ?_⟩⟩
        · exact ⟨_, by rw [OgsPool.alloc, hpool], by simp [PfcpState.setPool, PfcpState.setTable]⟩
        · rw [OgsPool.alloc, hteid]
          rfl
        · rfl
        · intro other
          simp [PfcpState.rule, PfcpState.entry, PfcpState.setPool, PfcpState.setTable]
        · rfl
      | cons num nums =>
        simp [OgsPool.alloc, hteid, PfcpState.add, hpool, hid] at h
        obtain ⟨rfl, rfl⟩ := h
        refine .inl ⟨List.cons_ne_nil _ _, slot, node, rfl, ?_, ?_, ?_, ?_, ?_, ?_⟩
        · rw [OgsPool.alloc, hpool]
          simp [PfcpState.setEntry, PfcpState.setIdPool, PfcpState.setPool, PfcpState.setTable,
            PfcpState.setList]
        · rw [OgsPool.alloc, hteid]
          rfl
        · simp [PfcpState.list, PfcpState.setList]
        · simp [PfcpState.rule, PfcpState.entry, PfcpState.setEntry, PfcpState.setTable,
            PfcpState.setList]
        · intro other hne
          simp [PfcpState.rule, PfcpState.entry, PfcpState.setEntry, PfcpState.setIdPool,
            PfcpState.setPool, PfcpState.setTable, PfcpState.setList, hne]
        · rfl

/-- What a request for a PDR returns: the PDR is there, or the outcome is one of adding it. -/
theorem pdrFindOrAdd_cases (h : pdrFindOrAdd id st = .ok (result, st')) :
    (∃ slot, st.find .pdr id = some slot ∧ result = .ok (some slot) ∧ st' = st) ∨
      st.find .pdr id = none ∧
        (((st.ctx.table .pdr).pool.free = [] ∧ result = .ok none ∧ st' = st) ∨
          (st.ctx.table .pdr).pool.free ≠ [] ∧
            (((st.sess.idPool .pdr).free ≠ [] ∧ ∃ slot node, result = .ok (some slot) ∧
                PdrAdded slot node st st') ∨
              ((st.sess.idPool .pdr).free = [] ∧ result = .ok none ∧
                ∃ slot node, TeidLeaked slot node st st'))) := by
  unfold pdrFindOrAdd findOrAdd at h
  rw [Procedure.get_bind_run] at h
  cases hfind : st.find .pdr id with
  | some slot =>
    rw [hfind] at h
    cases h
    exact .inl ⟨slot, rfl, rfl, rfl⟩
  | none =>
    rw [hfind] at h
    refine .inr ⟨rfl, ?_⟩
    rcases Procedure.bind_run_eq_ok.mp h with ⟨reason, -, hadd⟩ | ⟨added, t, hadd, hrest⟩
    · rcases pdrAdd_eq_ok hadd with ⟨-, ⟨⟩, -⟩ | ⟨-, ⟨-, _, _, ⟨⟩, -⟩ | ⟨-, ⟨⟩, -⟩⟩
    · rcases pdrAdd_eq_ok hadd with ⟨hpool, ⟨⟩, rfl⟩ | ⟨hpool, ⟨hid, slot, node, ⟨⟩, hadded⟩ |
        ⟨hid, ⟨⟩, hleaked⟩⟩
      · cases hrest
        exact .inl ⟨hpool, rfl, rfl⟩
      · cases hrest
        exact .inr ⟨hpool, .inl ⟨hid, slot, node, rfl, hadded.setId id⟩⟩
      · cases hrest
        exact .inr ⟨hpool, .inr ⟨hid, rfl, hleaked⟩⟩

/-- The PDR is in the list. -/
theorem pdrFindOrAdd_mem (h : pdrFindOrAdd id st = .ok (.ok (some slot), st')) :
    slot ∈ st'.list .pdr := by
  rcases pdrFindOrAdd_cases h with ⟨found, hfind, ⟨⟩, rfl⟩ | ⟨-, ⟨-, ⟨⟩, -⟩ |
    ⟨-, ⟨-, added, node, ⟨⟩, hadded⟩ | ⟨-, ⟨⟩, -⟩⟩⟩
  · exact List.mem_of_find?_eq_some hfind
  · rw [hadded.list]
    exact List.mem_append_right _ (List.mem_singleton_self slot)

/-- What a request for a PDR does: the PDR is there or is added, or a TEID is lost. -/
theorem pdrFindOrAdd_eq_ok (h : pdrFindOrAdd id st = .ok (result, st')) :
    (st.ServesPdr id ∧ (st' = st ∨ ∃ slot node, PdrAdded slot node st st')) ∨
      (¬st.ServesPdr id ∧ ∃ slot node, TeidLeaked slot node st st') := by
  rcases pdrFindOrAdd_cases h with ⟨slot, hfind, -, rfl⟩ | ⟨hfind, ⟨hpool, -, rfl⟩ |
    ⟨hpool, ⟨hid, slot, node, -, hadded⟩ | ⟨hid, -, hleaked⟩⟩⟩
  · exact .inl ⟨.inl (by rw [hfind]; rfl), .inl rfl⟩
  · exact .inl ⟨.inr (.inl hpool), .inl rfl⟩
  · exact .inl ⟨.inr (.inr hid), .inr ⟨slot, node, hadded⟩⟩
  · refine .inr ⟨?_, hleaked⟩
    rintro (hsome | hnil | hne)
    · rw [hfind] at hsome
      cases hsome
    · exact hpool hnil
    · exact hne hid

end

/-! ## A PDR that is removed -/

/-- A PDR is in the table of TEIDs, and no other PDR of its session has its TEID. -/
def PfcpState.LastOfTeid (st : PfcpState) (slot : Nat) : Prop :=
  (st.rule .pdr slot).hashTeid.isSome ∧
    ∀ other ∈ (st.list .pdr).erase slot,
      (st.rule .pdr other).fTeid.teid ≠ (st.rule .pdr slot).fTeid.teid

instance (st : PfcpState) (slot : Nat) : Decidable (st.LastOfTeid slot) :=
  inferInstanceAs (Decidable (_ ∧ _))

/-- A PDR is removed, and its TEID from the table where it is the last one with it. -/
structure PdrRemoved (slot : Nat) (st st' : PfcpState) : Prop where
  pool : (st'.ctx.table .pdr).pool = (st.ctx.table .pdr).pool.release slot
  teidPool : st'.ctx.teidPool = st.ctx.teidPool.release (st.rule .pdr slot).teidNode
  list : st'.list .pdr = (st.list .pdr).erase slot
  rule : st'.rule .pdr slot = { st.rule .pdr slot with ruleList := [] }
  others : ∀ other, other ≠ slot → st'.rule .pdr other = st.rule .pdr other
  teids : st'.ctx.teids = st.ctx.teids
  randomToIndex : st'.ctx.randomToIndex = st.ctx.randomToIndex
  hash : if st.LastOfTeid slot then
      st.ctx.objectTeidHash.set st.teidMem slot 4 none = .ok st'.ctx.objectTeidHash
    else st'.ctx.objectTeidHash = st.ctx.objectTeidHash

section

variable {st st' : PfcpState} {slot : Nat}

/-- A PDR without a session and without filters. -/
def PfcpState.unlinked (st : PfcpState) (slot : Nat) : PfcpState :=
  let n := (st.rule .pdr slot).ruleList.length
  { st.unlink .pdr slot with ctx.rulePoolAvail := st.ctx.rulePoolAvail + n }.setRule .pdr slot
    { st.rule .pdr slot with ruleList := [] }

theorem unlinked_rule (st : PfcpState) (slot : Nat) :
    (st.unlinked slot).rule .pdr slot = { st.rule .pdr slot with ruleList := [] } :=
  PfcpState.rule_setRule ..

theorem unlinked_rule_of_ne {other : Nat} (hne : other ≠ slot) :
    (st.unlinked slot).rule .pdr other = st.rule .pdr other := by
  simp [PfcpState.unlinked, PfcpState.rule, PfcpState.entry, PfcpState.setRule,
    PfcpState.setEntry, PfcpState.setTable, PfcpState.unlink, PfcpState.setList, hne]

theorem unlinked_list : (st.unlinked slot).list .pdr = (st.list .pdr).erase slot := by
  simp [PfcpState.unlinked, PfcpState.list, PfcpState.setRule, PfcpState.setEntry,
    PfcpState.setTable, PfcpState.unlink, PfcpState.setList]

theorem unlinked_fTeid (st : PfcpState) (slot other : Nat) :
    ((st.unlinked slot).rule .pdr other).fTeid = (st.rule .pdr other).fTeid := by
  by_cases hne : other = slot
  · subst hne
    rw [unlinked_rule]
  · rw [unlinked_rule_of_ne hne]

theorem unlinked_teidMem (st : PfcpState) (slot : Nat) :
    (st.unlinked slot).teidMem = st.teidMem := by
  ext other
  by_cases hne : other = slot
  · subst hne
    rw [PfcpState.teidMem, unlinked_rule, PfcpState.teidMem]
  · rw [PfcpState.teidMem, unlinked_rule_of_ne hne, PfcpState.teidMem]

/-- The count is zero where no other PDR has the TEID. -/
theorem unlinked_countByTeid_eq_zero_iff :
    (st.unlinked slot).countByTeid (st.rule .pdr slot).fTeid.teid = 0 ↔
      ∀ other ∈ (st.list .pdr).erase slot,
        (st.rule .pdr other).fTeid.teid ≠ (st.rule .pdr slot).fTeid.teid := by
  rw [PfcpState.countByTeid, unlinked_list, List.countP_eq_zero]
  simp only [unlinked_fTeid, decide_eq_true_eq, ne_eq]

/-- The slots of a PDR are free. -/
def PfcpState.freed (st : PfcpState) (slot : Nat) : PfcpState :=
  { st with ctx.teidPool := st.ctx.teidPool.release (st.rule .pdr slot).teidNode }.freeSlot .pdr slot

theorem teidHashSet_run (slot : Nat) (object : Option TeidObject) (st : PfcpState) :
    teidHashSet slot object st =
      (st.ctx.objectTeidHash.set st.teidMem slot 4 object).map fun objectTeidHash =>
        (.ok (), { st with ctx := { st.ctx with objectTeidHash } }) := by
  unfold teidHashSet
  rw [Procedure.get_bind_run]
  cases hset : st.ctx.objectTeidHash.set st.teidMem slot 4 object <;> rfl

theorem pdrRemove_run (slot : Nat) (st : PfcpState) :
    pdrRemove slot st =
      if st.LastOfTeid slot then
        ((st.unlinked slot).ctx.objectTeidHash.set (st.unlinked slot).teidMem slot 4 none).map
          fun objectTeidHash =>
            (.ok (), { st.unlinked slot with ctx.objectTeidHash := objectTeidHash }.freed slot)
      else .ok (.ok (), (st.unlinked slot).freed slot) := by
  have hlast : (st.LastOfTeid slot) ↔ ((st.unlinked slot).rule .pdr slot).hashTeid.isSome ∧
      (st.unlinked slot).countByTeid ((st.unlinked slot).rule .pdr slot).fTeid.teid = 0 := by
    rw [unlinked_fTeid, unlinked_countByTeid_eq_zero_iff, unlinked_rule]
    rfl
  have hall : ruleRemoveAll slot (st.unlink .pdr slot) = .ok (.ok (), st.unlinked slot) := rfl
  unfold pdrRemove
  rw [Procedure.modify_bind_run, Procedure.bind_run hall, Procedure.get_bind_run]
  by_cases h : st.LastOfTeid slot
  · rw [if_pos h, if_pos (hlast.mp h)]
    cases hset : (st.unlinked slot).ctx.objectTeidHash.set (st.unlinked slot).teidMem slot 4 none with
    | error fl => simp [teidHashSet_run, hset, Except.map, bind, Procedure.andThen]
    | ok objectTeidHash =>
      rw [Procedure.bind_run (by rw [teidHashSet_run, hset]; rfl)]
      rfl
  · rw [if_neg h, if_neg fun hlast' => h (hlast.mpr hlast')]
    rfl

/-- What a removal leaves, with the table of TEIDs that it has made. -/
theorem freed_removed {ht : OgsHash Nat TeidObject}
    (hhash : if st.LastOfTeid slot then
        st.ctx.objectTeidHash.set st.teidMem slot 4 none = .ok ht
      else ht = st.ctx.objectTeidHash) :
    PdrRemoved slot st ({ st.unlinked slot with ctx.objectTeidHash := ht }.freed slot) where
  pool := by
    simp [PfcpState.freed, PfcpState.freeSlot, PfcpState.setPool, PfcpState.setIdPool,
      PfcpState.setTable, PfcpState.unlinked, PfcpState.setRule, PfcpState.setEntry,
      PfcpState.unlink, PfcpState.setList]
  teidPool := by
    change (st.unlinked slot).ctx.teidPool.release ((st.unlinked slot).rule .pdr slot).teidNode = _
    rw [unlinked_rule]
    rfl
  list := unlinked_list
  rule := by
    refine Eq.trans ?_ (unlinked_rule st slot)
    simp [PfcpState.freed, PfcpState.freeSlot, PfcpState.setPool, PfcpState.setIdPool,
      PfcpState.setTable, PfcpState.rule, PfcpState.entry]
  others other hne := by
    refine Eq.trans ?_ (unlinked_rule_of_ne hne)
    simp [PfcpState.freed, PfcpState.freeSlot, PfcpState.setPool, PfcpState.setIdPool,
      PfcpState.setTable, PfcpState.rule, PfcpState.entry]
  teids := rfl
  randomToIndex := rfl
  hash := hhash

/-- What is left of a PDR that is removed. -/
theorem pdrRemove_eq_ok {result : Except Refusal Unit} (h : pdrRemove slot st = .ok (result, st')) :
    PdrRemoved slot st st' := by
  rw [pdrRemove_run] at h
  by_cases hlast : st.LastOfTeid slot
  · rw [if_pos hlast, unlinked_teidMem] at h
    obtain ⟨ht, hset, hst⟩ := Fallible.map_eq_ok.mp h
    cases hst
    apply freed_removed
    rw [if_pos hlast]
    exact hset
  · rw [if_neg hlast] at h
    cases h
    apply freed_removed
    rw [if_neg hlast]
    rfl

end

/-! ## A PDR that is restored -/

/-- A PDR gets the F-TEID that it had, and takes over its TEID. -/
def restoreTeid (slot : Nat) (fTeid : FTeid) (fTeidLen : Nat) : Handler Unit := do
  modifyRule .pdr slot fun pdr => { pdr with fTeid, fTeidLen }
  swapTeid slot

/-- A TEID stands where it stood at first, and is one of the pool. -/
def PfcpContext.AtStart (ctx : PfcpContext) (teid : UInt32) : Prop :=
  (teid ≠ 0 ∧ teid.toNat ≤ ctx.teidPool.size) ∧ ctx.teids (ctx.randomToIndex teid) = teid

instance (ctx : PfcpContext) (teid : UInt32) : Decidable (ctx.AtStart teid) :=
  inferInstanceAs (Decidable (_ ∧ _))

/-- The array of TEIDs in which the TEID of a slot has changed places, where the TEID stands
as at first. -/
def PfcpContext.swapped (ctx : PfcpContext) (node : Nat) (teid : UInt32) : Nat → UInt32 :=
  if ctx.AtStart teid then
    Function.update (Function.update ctx.teids (ctx.randomToIndex teid) (ctx.teids node)) node teid
  else ctx.teids

/-- A PDR has its F-TEID, and the TEID has changed places. -/
structure PdrRestored (slot : Nat) (fTeid : FTeid) (fTeidLen : Nat) (st st' : PfcpState) : Prop where
  length : 0 < fTeidLen
  index : fTeid.teid ≠ 0 → fTeid.teid.toNat ≤ st.ctx.teidPool.size →
    st.ctx.randomToIndex fTeid.teid < st.ctx.teidPool.size
  pool : (st'.ctx.table .pdr).pool = (st.ctx.table .pdr).pool
  list : st'.list .pdr = st.list .pdr
  rule : st'.rule .pdr slot = { st.rule .pdr slot with fTeid, fTeidLen }
  others : ∀ other, other ≠ slot → st'.rule .pdr other = st.rule .pdr other
  teids : st'.ctx.teids = st.ctx.swapped (st.rule .pdr slot).teidNode fTeid.teid
  frame : st'.ctx = { st.ctx with table := st'.ctx.table, teids := st'.ctx.teids }

section

variable {st st' : PfcpState} {slot fTeidLen : Nat} {fTeid : FTeid} {result : Except Refusal Unit}

theorem swapTeid_eq_ok (h : swapTeid slot st = .ok (result, st')) :
    let pdr := st.rule .pdr slot
    0 < pdr.fTeidLen ∧
      (pdr.fTeid.teid ≠ 0 → pdr.fTeid.teid.toNat ≤ st.ctx.teidPool.size →
        st.ctx.randomToIndex pdr.fTeid.teid < st.ctx.teidPool.size) ∧
      st' = { st with ctx.teids := st.ctx.swapped pdr.teidNode pdr.fTeid.teid } := by
  intro pdr
  unfold swapTeid at h
  rw [Procedure.get_bind_run] at h
  obtain ⟨hassert, h⟩ := Procedure.assert_bind_eq_ok.mp h
  refine ⟨(decide_eq_true_eq.mp hassert).1, ?_⟩
  by_cases hrange : pdr.fTeid.teid = 0 ∨ st.ctx.teidPool.size < pdr.fTeid.teid.toNat
  · rw [if_pos hrange] at h
    cases h
    have hnot : ¬st.ctx.AtStart pdr.fTeid.teid := by
      rintro ⟨⟨hzero, hsize⟩, -⟩
      exact hrange.elim hzero (by omega)
    refine ⟨fun hzero hsize => (hrange.elim hzero (by omega)).elim, ?_⟩
    rw [PfcpContext.swapped, if_neg hnot]
  · rw [if_neg hrange] at h
    obtain ⟨hindex, h⟩ := Procedure.assert_bind_eq_ok.mp h
    refine ⟨fun _ _ => decide_eq_true_eq.mp hindex, ?_⟩
    rw [not_or, Nat.not_lt] at hrange
    by_cases hat : pdr.fTeid.teid = st.ctx.teids (st.ctx.randomToIndex pdr.fTeid.teid)
    · rw [if_pos hat] at h
      cases h
      rw [PfcpContext.swapped, if_pos ⟨hrange, hat.symm⟩]
    · rw [if_neg hat] at h
      cases h
      rw [PfcpContext.swapped, if_neg fun hstart => hat hstart.2.symm]

theorem restoreTeid_eq_ok (h : restoreTeid slot fTeid fTeidLen st = .ok (result, st')) :
    PdrRestored slot fTeid fTeidLen st st' := by
  unfold restoreTeid at h
  rw [Procedure.bind_run (modifyRule_run ..)] at h
  obtain ⟨hlen, hindex, rfl⟩ := swapTeid_eq_ok h
  simp only [PfcpState.rule_setRule] at hlen hindex
  refine ⟨hlen, hindex, ?_, rfl, PfcpState.rule_setRule .., ?_, ?_, rfl⟩
  · simp [PfcpState.setRule, PfcpState.setEntry, PfcpState.setTable]
  · intro other hne
    simp [PfcpState.rule, PfcpState.entry, PfcpState.setRule, PfcpState.setEntry,
      PfcpState.setTable, hne]
  · rw [PfcpState.rule_setRule]
    rfl

end

/-! ## Sessions -/

/-- The rules of all sessions and the sessions. -/
structure PfcpSessions where
  ctx : PfcpContext
  sess : List PfcpSess

namespace PfcpSessions

/-- So many sessions without rules, when the pools are for `max` sessions. -/
def init (max : Nat) (teids : List UInt32) (seed : UInt32) (num : Nat) : PfcpSessions :=
  ⟨.init max teids seed, List.replicate num {}⟩

/-- The PDRs of all sessions. -/
def live (w : PfcpSessions) : List Nat := w.sess.flatMap fun sess => sess.list .pdr

def pdr (w : PfcpSessions) (slot : Nat) : PfcpPdr := ((w.ctx.table .pdr).entry slot).rule

/-- The state that a handler works on for a session. -/
def state (w : PfcpSessions) (sess : PfcpSess) : PfcpState := { ctx := w.ctx, sess }

/-- A handler for a session, unless it faults. -/
def act {α : Type} (w : PfcpSessions) (k : Nat) (x : Handler α) : Option PfcpSessions :=
  match w.sess[k]? with
  | none => none
  | some sess =>
    match x (w.state sess) with
    | .error _ => none
    | .ok (_, st) => some ⟨st.ctx, w.sess.set k st.sess⟩

variable {w w' : PfcpSessions} {k : Nat} {sess : PfcpSess}

/-- What a handler has done to a session. -/
theorem act_eq_some {α : Type} {x : Handler α} (h : w.act k x = some w') :
    ∃ sess result st, w.sess[k]? = some sess ∧ x (w.state sess) = .ok (result, st) ∧
      w' = ⟨st.ctx, w.sess.set k st.sess⟩ := by
  unfold act at h
  cases hsess : w.sess[k]? with
  | none =>
    rw [hsess] at h
    cases h
  | some sess =>
    rw [hsess] at h
    cases hrun : x (w.state sess) with
    | error fl =>
      simp only [hrun] at h
      cases h
    | ok outcome =>
      simp only [hrun] at h
      exact ⟨sess, outcome.1, outcome.2, rfl, hrun, (Option.some.inj h).symm⟩

/-- The PDRs of the other sessions. -/
def elsewhere (w : PfcpSessions) (k : Nat) : List Nat :=
  (w.sess.eraseIdx k).flatMap fun sess => sess.list .pdr

theorem live_perm (hsess : w.sess[k]? = some sess) :
    w.live.Perm (sess.list .pdr ++ w.elsewhere k) := by
  obtain ⟨hk, rfl⟩ := List.getElem?_eq_some_iff.mp hsess
  exact (List.getElem_cons_eraseIdx_perm hk).symm.flatMap_right _

theorem live_set_perm (hsess : w.sess[k]? = some sess) (ctx : PfcpContext) (sess' : PfcpSess) :
    (⟨ctx, w.sess.set k sess'⟩ : PfcpSessions).live.Perm (sess'.list .pdr ++ w.elsewhere k) := by
  obtain ⟨hk, -⟩ := List.getElem?_eq_some_iff.mp hsess
  exact (List.set_perm_cons_eraseIdx hk sess').flatMap_right _

theorem live_init (max : Nat) (teids : List UInt32) (seed : UInt32) (num : Nat) :
    (init max teids seed num).live = [] := by
  rw [live, List.flatMap_eq_nil_iff]
  intro sess hsess
  rw [List.eq_of_mem_replicate hsess]

/-- A PDR of a session is one of all. -/
theorem mem_live (hsess : w.sess[k]? = some sess) {slot : Nat} (hslot : slot ∈ sess.list .pdr) :
    slot ∈ w.live :=
  (live_perm hsess).mem_iff.mpr (List.mem_append_left _ hslot)

end PfcpSessions

end Quicup.Open5gs.Pfcp
