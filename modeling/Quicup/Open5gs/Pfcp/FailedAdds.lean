import Quicup.Open5gs.Pfcp.Sessions

/-!
# Rules that cannot be added

A function that adds a rule takes from two pools, for a PDR from three. Where the last one has
nothing left, what has been taken is given back, except for the TEID of a PDR.
-/

namespace Quicup.Open5gs

namespace OgsPool

/-- A slot that is given back at once is free again, behind the others. -/
theorem release_alloc_perm {pool rest : OgsPool} {n : Nat} (hsize : pool.free.length ≤ pool.size)
    (h : pool.alloc = (some n, rest)) : (rest.release n).free.Perm pool.free := by
  have hfree := free_of_alloc (congrArg Prod.fst h)
  have hrest : rest = pool.alloc.2 := (congrArg Prod.snd h).symm
  have hlt : rest.free.length < rest.size := by
    rw [hrest, size_alloc]
    rw [hfree, List.length_cons] at hsize
    omega
  rw [release, if_pos hlt, hfree, ← hrest]
  exact List.perm_append_singleton n rest.free

end OgsPool

namespace Pfcp

/-- `ogs_pfcp_pdr_add`, `ogs_pfcp_far_add`, `ogs_pfcp_urr_add` and `ogs_pfcp_qer_add` -/
def ruleAdd : RuleKind → Handler (Option Nat)
  | .pdr => pdrAdd
  | .far => .state fun st => st.add .far {}
  | .urr => .state fun st => st.add .urr {}
  | .qer => .state fun st => st.add .qer {}

/-- All pools have the free entries that they had, and the session has the rules that it had. -/
structure PfcpState.Undrained (st st' : PfcpState) : Prop where
  objects : ∀ kind, (st'.ctx.table kind).pool.free.Perm (st.ctx.table kind).pool.free
  teids : st'.ctx.teidPool.free.Perm st.ctx.teidPool.free
  ids : ∀ kind, (st'.sess.idPool kind).free.Perm (st.sess.idPool kind).free
  filters : st'.ctx.rulePoolAvail = st.ctx.rulePoolAvail
  bars : st'.ctx.barPool = st.ctx.barPool ∧ st'.sess.barIdPool = st.sess.barIdPool
  lists : st'.sess.list = st.sess.list

namespace PfcpState

variable {st st' : PfcpState} {kind : RuleKind}

theorem Undrained.refl (st : PfcpState) : st.Undrained st :=
  ⟨fun _ => .refl _, .refl _, fun _ => .refl _, rfl, ⟨rfl, rfl⟩, rfl⟩

/-- A pool of objects is exchanged for one with the same free slots. -/
theorem undrained_setPool {pool : OgsPool} (h : pool.free.Perm (st.ctx.table kind).pool.free) :
    st.Undrained (st.setPool kind pool) where
  objects other := by
    simp only [setPool, setTable]
    by_cases hother : other = kind
    · subst hother
      rwa [Function.update_self]
    · rw [Function.update_of_ne hother]
  teids := .refl _
  ids _ := .refl _
  filters := rfl
  bars := ⟨rfl, rfl⟩
  lists := rfl

/-- What an addition without a TEID leaves behind where it fails. -/
theorem add_eq_none {new : kind.Rule}
    (hsize : (st.ctx.table kind).pool.free.length ≤ (st.ctx.table kind).pool.size)
    (h : st.add kind new = (none, st')) : st.Undrained st' := by
  unfold add at h
  cases hpool : (st.ctx.table kind).pool.alloc with
  | mk found pool =>
    rw [hpool] at h
    cases found with
    | none =>
      obtain rfl := congrArg Prod.snd h
      exact .refl st
    | some slot =>
      cases hid : (st.sess.idPool kind).alloc with
      | mk number idPool =>
        simp only [hid] at h
        cases number with
        | none =>
          obtain rfl := congrArg Prod.snd h
          exact undrained_setPool (OgsPool.release_alloc_perm hsize hpool)
        | some node => exact absurd (congrArg Prod.fst h) (Option.some_ne_none slot)

/-- A PDR that is not added although there is a free one leaves one free TEID fewer. -/
theorem length_of_leaked {slot node : Nat} (h : TeidLeaked slot node st st') :
    st'.ctx.teidPool.free.length + 1 = st.ctx.teidPool.free.length := by
  have hfree := OgsPool.free_of_alloc (congrArg Prod.fst h.teidPool)
  rw [hfree, congrArg Prod.snd h.teidPool, List.length_cons]

end PfcpState

/-- The session of a PDR that is added has a number for it, unless no PDR is free, and unless
the program ends for want of a TEID. -/
def PfcpState.KeepsTeid (st : PfcpState) : Prop :=
  (st.ctx.table .pdr).pool.free = [] ∨ st.ctx.teidPool.free = [] ∨ (st.sess.idPool .pdr).free ≠ []

variable {st : PfcpState}

/-- A PDR is not added, and its TEID is lost. -/
theorem pdrAdd_leaks (h : ¬st.KeepsTeid) :
    ∃ st' slot node, pdrAdd st = .ok (.ok none, st') ∧ TeidLeaked slot node st st' := by
  simp only [PfcpState.KeepsTeid, not_or, not_not] at h
  obtain ⟨hpool, hteid, hid⟩ := h
  have hrun : ∃ result st', pdrAdd st = .ok (result, st') := by
    obtain ⟨node, rest, halloc, -⟩ := OgsPool.alloc_of_ne_nil hteid
    unfold pdrAdd
    rw [Procedure.get_bind_run, if_neg hpool, halloc]
    exact ⟨_, _, rfl⟩
  obtain ⟨result, st', hrun⟩ := hrun
  rcases pdrAdd_eq_ok hrun with ⟨hnil, -⟩ | ⟨-, ⟨hne, -⟩ | ⟨-, rfl, slot, node, hleaked⟩⟩
  · exact absurd hnil hpool
  · exact absurd hid hne
  · exact ⟨st', slot, node, hrun, hleaked⟩

/-- A rule that cannot be added leaves all pools and lists as they were, exactly if it is not a
PDR without a number that has got a TEID. -/
theorem failed_add_undrained_iff (kind : RuleKind) (st : PfcpState)
    (hsize : (st.ctx.table kind).pool.free.length ≤ (st.ctx.table kind).pool.size) :
    (∀ st', ruleAdd kind st = .ok (.ok none, st') → st.Undrained st') ↔
      (kind = .pdr → st.KeepsTeid) := by
  have hother {new : kind.Rule} (st' : PfcpState)
      (h : (Procedure.state fun st => st.add kind new : Handler (Option Nat)) st =
        .ok (.ok none, st')) : st.Undrained st' := by
    rw [Procedure.state_run] at h
    obtain ⟨hnone, hst⟩ := Prod.mk.inj (Except.ok.inj h)
    exact PfcpState.add_eq_none hsize (Prod.ext (Except.ok.inj hnone) hst)
  cases kind with
  | pdr =>
    constructor
    · intro h _
      by_contra hleaks
      obtain ⟨st', slot, node, hrun, hleaked⟩ := pdrAdd_leaks hleaks
      have hlength := (h st' hrun).teids.length_eq
      have hlost := PfcpState.length_of_leaked hleaked
      omega
    · intro h st' hrun
      rcases pdrAdd_eq_ok hrun with ⟨-, -, rfl⟩ | ⟨hpool, ⟨-, slot, node, hnone, -⟩ |
        ⟨hid, -, slot, node, hleaked⟩⟩
      · exact .refl _
      · exact absurd (Except.ok.inj hnone).symm (Option.some_ne_none slot)
      · have hlost := PfcpState.length_of_leaked hleaked
        rcases h rfl with hnil | hnil | hne
        · exact absurd hnil hpool
        · rw [hnil, List.length_nil] at hlost
          omega
        · exact absurd hid hne
  | far => exact iff_of_true hother fun h => absurd h (by decide)
  | urr => exact iff_of_true hother fun h => absurd h (by decide)
  | qer => exact iff_of_true hother fun h => absurd h (by decide)

/-- A session that has no number left for a rule. -/
def unnumbered : PfcpState where
  ctx := .init 1 [1] 0
  sess := { idPool := fun _ => ⟨16, []⟩ }

/-- A FAR that cannot be added for want of a number. -/
theorem failed_add_undrained_far :
    ∃ st', ruleAdd .far unnumbered = .ok (.ok none, st') ∧ unnumbered.Undrained st' :=
  ⟨_, rfl, (failed_add_undrained_iff .far unnumbered (by decide)).mpr
    (fun h => absurd h (by decide)) _ rfl⟩

instance (st : PfcpState) : Decidable st.KeepsTeid := inferInstanceAs (Decidable (_ ∨ _ ∨ _))

/-- A session of a UPF for two sessions. -/
def firstOfTwo : PfcpState where
  ctx := .init 2 ((List.range 32).map fun n => .ofNat (n + 1)) 0
  sess := {}

/-! ## A pool that is drained -/

/-- So many PDRs are asked for, one after the other. -/
def pdrAdds : Nat → Handler Unit
  | 0 => return ()
  | n + 1 => do
    let _ ← pdrAdd
    pdrAdds n

/-- A session without free numbers that asks for PDRs uses up the TEIDs of all sessions, and
one request more ends the program. -/
theorem pdrAdds_drain (hpool : (st.ctx.table .pdr).pool.free ≠ [])
    (hsize : (st.ctx.table .pdr).pool.free.length ≤ (st.ctx.table .pdr).pool.size)
    (hid : (st.sess.idPool .pdr).free = []) :
    pdrAdds (st.ctx.teidPool.free.length + 1) st = .error .assertion := by
  induction hn : st.ctx.teidPool.free.length generalizing st with
  | zero =>
    have hteid : st.ctx.teidPool.free = [] := List.eq_nil_of_length_eq_zero hn
    have hrun : pdrAdd st = .error .assertion := by
      unfold pdrAdd
      rw [Procedure.get_bind_run, if_neg hpool, OgsPool.alloc, hteid]
      rfl
    simp [pdrAdds, bind, Procedure.andThen, hrun]
  | succ n ih =>
    have hteid : st.ctx.teidPool.free ≠ [] := List.ne_nil_of_length_eq_add_one hn
    obtain ⟨node, rest, halloc, hfree⟩ := OgsPool.alloc_of_ne_nil hteid
    obtain ⟨slot, pool, hslot, -⟩ := OgsPool.alloc_of_ne_nil hpool
    have hperm := OgsPool.release_alloc_perm hsize hslot
    set pool' := ({ (st.ctx.table .pdr).pool with free := pool }.release slot) with hpool'
    have hrun : pdrAdd st = .ok (.ok none,
        { st with ctx.teidPool := { st.ctx.teidPool with free := rest } }.setPool .pdr pool') := by
      unfold pdrAdd
      rw [Procedure.get_bind_run, if_neg hpool, halloc]
      simp only [Procedure.modify_bind_run, Procedure.state_run, PfcpState.add, hslot]
      rw [OgsPool.alloc, hid]
    rw [pdrAdds, Procedure.bind_run hrun]
    have htable (st : PfcpState) : ((st.setPool .pdr pool').ctx.table .pdr).pool = pool' := by
      simp [PfcpState.setPool, PfcpState.setTable]
    apply ih
    · rw [htable]
      intro hnil
      exact hpool (List.eq_nil_of_length_eq_zero (by rw [← hperm.length_eq, hnil, List.length_nil]))
    · rw [htable, hperm.length_eq, hpool', OgsPool.size_release]
      exact hsize
    · exact hid
    · have hlength := congrArg List.length hfree
      rw [hn, List.length_cons] at hlength
      exact (Nat.succ.inj hlength).symm

/-- A session has all PDRs that it may have, and one more is asked for. -/
theorem not_failed_add_undrained :
    ∃ st st', pdrAdds 16 firstOfTwo = .ok (.ok (), st) ∧
      ruleAdd .pdr st = .ok (.ok none, st') ∧ ¬st.Undrained st' := by
  have hrun : (pdrAdds 16 firstOfTwo).toOption.map
      (fun run => (run.1.isOk, decide run.2.KeepsTeid)) = some (true, false) := by
    decide +kernel
  obtain ⟨⟨result, st⟩, hst, houtcome⟩ := Option.map_eq_some_iff.mp hrun
  have hresult : result.isOk = true := congrArg Prod.fst houtcome
  have hkeeps : decide st.KeepsTeid = false := congrArg Prod.snd houtcome
  obtain ⟨st', slot, node, hadd, hleaked⟩ := pdrAdd_leaks (of_decide_eq_false hkeeps)
  refine ⟨st, st', ?_, hadd, fun hundrained => ?_⟩
  · rw [Fallible.toOption_eq_some.mp hst]
    cases result with
    | error reason => cases hresult
    | ok _ => rfl
  · have hlength := hundrained.teids.length_eq
    have hlost := PfcpState.length_of_leaked hleaked
    omega

end Pfcp

end Quicup.Open5gs
