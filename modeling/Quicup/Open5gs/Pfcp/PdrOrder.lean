import Mathlib.Data.List.Sort
import Quicup.Core.System
import Quicup.Open5gs.Pfcp.RuleSteps

/-!
# The order of PDRs

The PDRs of a session stand in a list, and the first one that matches a packet is taken. A PDR
with a precedence is put in its place by the precedence. One without stays behind the others,
although its precedence is zero.
-/

namespace Quicup.Open5gs.Pfcp

open Procedure Function

/-! ## Ordered lists -/

section

variable {precedence precedence' : Nat → UInt32} {slot : Nat} {slots : List Nat}

/-- The slots are in the order of their precedences. -/
def InOrder (precedence : Nat → UInt32) (slots : List Nat) : Prop :=
  slots.Pairwise fun a b => precedence a ≤ precedence b

/-- The first slot that passes a test has the lowest precedence of all that pass it. -/
def FirstIsLowest (precedence : Nat → UInt32) (slots : List Nat) : Prop :=
  ∀ (test : Nat → Bool) (first : Nat), slots.find? test = some first →
    ∀ other ∈ slots, test other = true → precedence first ≤ precedence other

theorem InOrder.firstIsLowest (h : InOrder precedence slots) : FirstIsLowest precedence slots := by
  intro test first hfind other hother htest
  obtain ⟨hfirst, before, after, rfl, hbefore⟩ := List.find?_eq_some_iff_append.mp hfind
  rcases List.mem_append.mp hother with hin | hin
  · exact absurd htest (by simpa using hbefore other hin)
  · rcases List.mem_cons.mp hin with rfl | hin
    · exact UInt32.le_refl _
    · exact List.rel_of_pairwise_cons (List.pairwise_append.mp h).2.1 hin

theorem insertSorted_eq_orderedInsert (slots : List Nat) :
    insertSorted precedence slot slots =
      slots.orderedInsert (fun a b => precedence a < precedence b) slot := by
  induction slots with
  | nil => rfl
  | cons other slots ih => rw [insertSorted, List.orderedInsert, ih]

theorem insertSorted_perm (slots : List Nat) :
    (insertSorted precedence slot slots).Perm (slot :: slots) := by
  rw [insertSorted_eq_orderedInsert]
  exact List.perm_orderedInsert _ _ _

/-- A slot is put in its place. -/
theorem InOrder.insertSorted (h : InOrder precedence slots) :
    InOrder precedence (insertSorted precedence slot slots) := by
  induction slots with
  | nil => exact List.pairwise_singleton _ _
  | cons other slots ih =>
    obtain ⟨hother, hslots⟩ := List.pairwise_cons.mp h
    rw [Pfcp.insertSorted]
    split
    · next hlt =>
      refine List.pairwise_cons.mpr ⟨fun b hb => ?_, h⟩
      rcases List.mem_cons.mp hb with rfl | hb
      · exact UInt32.le_of_lt hlt
      · exact UInt32.le_trans (UInt32.le_of_lt hlt) (hother b hb)
    · next hge =>
      refine List.pairwise_cons.mpr ⟨fun b hb => ?_, ih hslots⟩
      rcases List.mem_cons.mp ((insertSorted_perm slots).mem_iff.mp hb) with rfl | hb
      · exact UInt32.not_lt.mp hge
      · exact hother b hb

theorem InOrder.congr (h : InOrder precedence slots)
    (hsame : ∀ slot ∈ slots, precedence' slot = precedence slot) : InOrder precedence' slots := by
  refine List.Pairwise.imp_of_mem ?_ h
  intro a b ha hb hle
  rwa [hsame a ha, hsame b hb]

end

/-! ## What does not touch the list -/

namespace PfcpState

variable {st st' : PfcpState}

def precedence (st : PfcpState) (slot : Nat) : UInt32 := (st.rule .pdr slot).precedence

/-- The list of PDRs and the precedences are the same, and the slots of PDRs are in use as they
were. -/
structure SamePdrs (st st' : PfcpState) : Prop where
  list : st'.list .pdr = st.list .pdr
  precedence : st'.precedence = st.precedence
  holds : ∀ used, (st.ctx.table .pdr).pool.Holds used → (st'.ctx.table .pdr).pool.Holds used

theorem SamePdrs.refl (st : PfcpState) : st.SamePdrs st := ⟨rfl, rfl, fun _ h => h⟩

theorem SamePdrs.trans {st'' : PfcpState} (h : st.SamePdrs st') (h' : st'.SamePdrs st'') :
    st.SamePdrs st'' :=
  ⟨h'.list.trans h.list, h'.precedence.trans h.precedence, fun used hused => h'.holds used (h.holds used hused)⟩

/-- A state with the same rules and the same list. -/
theorem SamePdrs.of_eq (htable : st'.ctx.table .pdr = st.ctx.table .pdr)
    (hlist : st'.sess.list .pdr = st.sess.list .pdr) : st.SamePdrs st' where
  list := hlist
  precedence := by
    funext slot
    rw [PfcpState.precedence, PfcpState.precedence, PfcpState.rule, PfcpState.rule, PfcpState.entry,
      PfcpState.entry, htable]
  holds used hused := by rwa [htable]

/-- A PDR is changed, but not in its precedence. -/
theorem SamePdrs.setRule {slot : Nat} {pdr : PfcpPdr}
    (h : pdr.precedence = (st.rule .pdr slot).precedence) : st.SamePdrs (st.setRule .pdr slot pdr) where
  list := rfl
  precedence := by
    funext other
    by_cases hother : other = slot
    · subst hother
      rw [PfcpState.precedence, PfcpState.rule_setRule, h, PfcpState.precedence]
    · simp [PfcpState.precedence, PfcpState.rule, PfcpState.entry, PfcpState.setRule,
        PfcpState.setEntry, PfcpState.setTable, hother]
  holds used hused := by
    simpa [PfcpState.setRule, PfcpState.setEntry, PfcpState.setTable] using hused

end PfcpState

namespace Write

variable {α : Type} {st st' : PfcpState}

theorem samePdrs (h : Write st st') : st.SamePdrs st' := by
  cases h with
  | @rule kind slot rule hsettles =>
    cases kind with
    | pdr => exact .setRule hsettles
    | far | urr | qer =>
      exact .of_eq (by simp [PfcpState.setRule, PfcpState.setEntry, PfcpState.setTable]) rfl
  | @add kind hkind =>
    have hne : RuleKind.pdr ≠ kind := hkind.symm
    unfold PfcpState.add
    split
    · exact .refl st
    · split <;>
      · apply PfcpState.SamePdrs.of_eq <;>
          simp [PfcpState.setPool, PfcpState.setIdPool, PfcpState.setEntry, PfcpState.setTable,
            PfcpState.setList, hne]
  | @setId kind slot id =>
    refine ⟨rfl, funext fun other => ?_, fun used hused => by rwa [PfcpState.pool_setEntry]⟩
    exact congrArg PfcpPdr.precedence (PfcpState.rule_setId ..)
  | beside h => exact .of_eq (by rw [h.table]) (by rw [h.list])

/-- What only writes leaves the list of PDRs and the precedences alone. -/
theorem samePdrs_of_run {x : Handler α} [Along Write Negative x]
    {result : Except Refusal α} (hrun : x st = .ok (result, st')) : st.SamePdrs st' :=
  ‹Along Write Negative x›.keeps (fun _ _ hwrite h => h.trans hwrite.samePdrs) hrun (.refl st)

end Write

/-! ## What is done to a session -/

namespace PfcpState

variable {st st' : PfcpState} {slot : Nat} {value : UInt32}

/-- A PDR is put in the place of its new precedence. -/
structure Reordered (slot : Nat) (value : UInt32) (st st' : PfcpState) : Prop where
  list : st'.list .pdr = insertSorted st'.precedence slot ((st.list .pdr).erase slot)
  precedence : st'.precedence = update st.precedence slot value
  holds : ∀ used, (st.ctx.table .pdr).pool.Holds used → (st'.ctx.table .pdr).pool.Holds used

theorem Reordered.trans {st'' : PfcpState} (h : Reordered slot value st st') (h' : st'.SamePdrs st'') :
    Reordered slot value st st'' where
  list := by rw [h'.list, h'.precedence, h.list]
  precedence := h'.precedence.trans h.precedence
  holds used hused := h'.holds used (h.holds used hused)

theorem Reordered.perm (h : Reordered slot value st st') (hslot : slot ∈ st.list .pdr) :
    (st'.list .pdr).Perm (st.list .pdr) := by
  rw [h.list]
  exact (insertSorted_perm _).trans (List.perm_cons_erase hslot).symm

/-- The list stays in order, apart from the PDR that is put in its place. -/
theorem Reordered.inOrder (h : Reordered slot value st st') (hnodup : (st.list .pdr).Nodup)
    (horder : InOrder st.precedence ((st.list .pdr).erase slot)) :
    InOrder st'.precedence (st'.list .pdr) := by
  rw [h.list]
  apply InOrder.insertSorted
  refine horder.congr fun other hother => ?_
  rw [h.precedence, update_of_ne (hnodup.mem_erase_iff.mp hother).1]

theorem reorderByPrecedence_eq_ok {result : Except Refusal Unit}
    (h : reorderByPrecedence slot value st = .ok (result, st')) :
    result = .ok () ∧ Reordered slot value st st' := by
  have hrule (other : Nat) : (((st.unlink .pdr slot).setRule .pdr slot
      { (st.unlink .pdr slot).rule .pdr slot with precedence := value }).rule .pdr other).precedence =
      update st.precedence slot value other := by
    by_cases hother : other = slot
    · subst hother
      rw [PfcpState.rule_setRule, update_self]
    · simp [PfcpState.precedence, PfcpState.rule, PfcpState.entry, PfcpState.setRule,
        PfcpState.setEntry, PfcpState.setTable, PfcpState.unlink, PfcpState.setList, hother]
  unfold reorderByPrecedence at h
  rw [Procedure.modify_bind_run, Procedure.bind_run (modifyRule_run ..), Procedure.modify_run] at h
  obtain ⟨rfl, rfl⟩ := Prod.mk.inj (Except.ok.inj h)
  refine ⟨rfl, ?_, ?_, ?_⟩
  · simp [PfcpState.list, PfcpState.setList, PfcpState.setRule, PfcpState.setEntry,
      PfcpState.setTable, PfcpState.unlink]
    rfl
  · funext other
    exact hrule other
  · intro used hused
    simpa [PfcpState.setList, PfcpState.setRule, PfcpState.setEntry, PfcpState.setTable,
      PfcpState.unlink] using hused

/-- A PDR is put in its place if there is a precedence for it. -/
def Placed (slot : Nat) (value : Option UInt32) (st st' : PfcpState) : Prop :=
  match value with
  | none => st.SamePdrs st'
  | some value => Reordered slot value st st'

end PfcpState

variable {slot : Nat} {st st' : PfcpState}

/-- The elements of a PDR behind its precedence leave the list alone. -/
theorem handlePdi_placed {env : RuleEnv} {srcIf : UInt8} {pdi : PdiIe} {ie : CreatePdrIe} {α : Type}
    {rest : Unit → Handler α} [∀ u, Along Write Negative (rest u)] {result : Except Refusal α}
    (h : (handlePdi env slot srcIf pdi ie >>= rest) st = .ok (result, st')) :
    PfcpState.Placed slot ie.precedence st st' := by
  unfold handlePdi at h
  rw [Procedure.bind_assoc] at h
  cases hprecedence : ie.precedence with
  | none =>
    rw [hprecedence, show Procedure.whenSome none (reorderByPrecedence slot) = pure () from rfl,
      Procedure.pure_bind_run] at h
    exact Write.samePdrs_of_run h
  | some value =>
    rw [hprecedence] at h
    obtain ⟨mid, hrun⟩ : ∃ mid, reorderByPrecedence slot value st = .ok (.ok (), mid) := ⟨_, rfl⟩
    rw [show Procedure.whenSome (some value) (reorderByPrecedence slot) =
      reorderByPrecedence slot value from rfl, Procedure.bind_run hrun] at h
    exact (PfcpState.reorderByPrecedence_eq_ok hrun).2.trans (Write.samePdrs_of_run h)

/-! ## Creation -/

theorem TeidLeaked.samePdrs {node : Nat} (h : TeidLeaked slot node st st') :
    st.SamePdrs st' where
  list := h.list
  precedence := funext fun other => congrArg PfcpPdr.precedence (h.rules other)
  holds used hused := by
    obtain ⟨pool, halloc, hrelease⟩ := h.pool
    have hslot := (hused.alloc (congrArg Prod.fst halloc)).1
    rw [congrArg Prod.snd halloc] at hslot
    rw [hrelease]
    exact hslot.release

namespace PfcpState

variable (st : PfcpState) (env : RuleEnv) (restoration : Bool)

/-- The F-TEID of a PDI passes the first check. -/
def takesFTeid (data : Option (List UInt8)) : Bool :=
  data.all fun data =>
    let octets := data.take FTeid.size
    let fTeid := FTeid.ofOctets (octets ++ env.stack.toList.drop octets.length)
    (fTeid.ipv4 || fTeid.ipv6) &&
      (fTeid.ch || !restoration || !(st.findObjectByTeid fTeid.teid).isSome)

/-- An element asks for a PDR that is not there, and nothing is missing for it. -/
def AddsPdr (ie : CreatePdrIe) : Prop :=
  ∃ pdrId pdi, ie.pdrId = some pdrId ∧ ie.pdi = some pdi ∧ ie.farId.isSome = true ∧
    pdi.sourceInterface.isSome = true ∧ st.takesFTeid env restoration pdi.localFTeid = true ∧
    ie.urrId.all validUrrId = true ∧ st.find .pdr pdrId.toUInt32 = none ∧
    (st.ctx.table .pdr).pool.free ≠ [] ∧ (st.sess.idPool .pdr).free ≠ []

end PfcpState

section

variable {env : RuleEnv} {restoration : Bool} {ie : CreatePdrIe} {st st' : PfcpState}

theorem checkFTeid_bind_eq_ok {α : Type} {data : Option (List UInt8)} {rest : Unit → Handler α}
    {result : Except Refusal α}
    (h : (checkFTeid env data restoration >>= rest) st = .ok (result, st')) :
    (st.takesFTeid env restoration data = false ∧ st' = st) ∨
      st.takesFTeid env restoration data = true ∧ rest () st = .ok (result, st') := by
  cases data with
  | none => exact .inr ⟨rfl, h⟩
  | some data =>
    rcases bind_run_eq_ok.mp h with ⟨reason, -, hrun⟩ | ⟨u, mid, hrun, hrest⟩
    · left
      rcases check_bind_eq_ok.mp hrun with ⟨hfamily, -, rfl⟩ | ⟨hfamily, hrun⟩
      · exact ⟨Bool.and_eq_false_iff.mpr (.inl hfamily), rfl⟩
      · rw [Procedure.get_bind_run] at hrun
        unfold Procedure.check at hrun
        split at hrun
        · cases hrun
        · next hteid =>
          cases hrun
          exact ⟨Bool.and_eq_false_iff.mpr (.inr (Bool.eq_false_iff.mpr hteid)), rfl⟩
    · right
      rcases check_bind_eq_ok.mp hrun with ⟨hfamily, hreason, -⟩ | ⟨hfamily, hrun⟩
      · cases hreason
      · rw [Procedure.get_bind_run] at hrun
        unfold Procedure.check at hrun
        split at hrun
        · next hteid =>
          cases hrun
          exact ⟨Bool.and_eq_true_iff.mpr ⟨hfamily, hteid⟩, hrest⟩
        · cases hrun

/-- What a request to create a PDR does: it is refused before that, or the PDR is there and is put
in the place of its precedence, or it is added behind the others first. -/
theorem handleCreatePdr_cases {result : Except Refusal Nat}
    (h : handleCreatePdr env restoration ie st = .ok (result, st')) :
    (¬st.AddsPdr env restoration ie ∧ (st.SamePdrs st' ∨
        ∃ slot ∈ st.list .pdr, PfcpState.Placed slot ie.precedence st st')) ∨
      st.AddsPdr env restoration ie ∧ ∃ slot node mid, PdrAdded slot node st mid ∧
        PfcpState.Placed slot ie.precedence mid st' := by
  have hrefused (hnot : ¬st.AddsPdr env restoration ie) (hsame : st.SamePdrs st') :
      (¬st.AddsPdr env restoration ie ∧ (st.SamePdrs st' ∨
        ∃ slot ∈ st.list .pdr, PfcpState.Placed slot ie.precedence st st')) := ⟨hnot, .inl hsame⟩
  unfold handleCreatePdr mandatory at h
  rcases require_bind_eq_ok.mp h with ⟨hpdrId, -, rfl⟩ | ⟨pdrId, hpdrId, h⟩
  · refine .inl (hrefused ?_ (.refl _))
    rintro ⟨pdrId, pdi, hsome, -⟩
    cases hpdrId.symm.trans hsome
  rcases require_bind_eq_ok.mp h with ⟨hfarId, -, rfl⟩ | ⟨farId, hfarId, h⟩
  · refine .inl (hrefused ?_ (.refl _))
    rintro ⟨pdrId, pdi, -, -, hsome, -⟩
    rw [hfarId] at hsome
    cases hsome
  rcases require_bind_eq_ok.mp h with ⟨hpdi, -, rfl⟩ | ⟨pdi, hpdi, h⟩
  · refine .inl (hrefused ?_ (.refl _))
    rintro ⟨pdrId, pdi, -, hsome, -⟩
    cases hpdi.symm.trans hsome
  rcases require_bind_eq_ok.mp h with ⟨hsrcIf, -, rfl⟩ | ⟨srcIf, hsrcIf, h⟩
  · refine .inl (hrefused ?_ (.refl _))
    rintro ⟨pdrId, pdi', -, hsome, -, hsrc, -⟩
    obtain rfl := Option.some.inj (hpdi.symm.trans hsome)
    rw [hsrcIf] at hsrc
    cases hsrc
  rcases checkFTeid_bind_eq_ok h with ⟨hteid, rfl⟩ | ⟨hteid, h⟩
  · refine .inl (hrefused ?_ (.refl _))
    rintro ⟨pdrId, pdi', -, hsome, -, -, htakes, -⟩
    obtain rfl := Option.some.inj (hpdi.symm.trans hsome)
    cases hteid.symm.trans htakes
  rcases check_bind_eq_ok.mp h with ⟨hurr, -, rfl⟩ | ⟨hurr, h⟩
  · refine .inl (hrefused ?_ (.refl _))
    rintro ⟨pdrId, pdi', -, -, -, -, -, hvalid, -⟩
    cases hurr.symm.trans hvalid
  rcases bind_run_eq_ok.mp h with ⟨reason, -, hrun⟩ | ⟨found, mid, hfound, h⟩
  · rcases pdrFindOrAdd_cases hrun with ⟨slot, -, ⟨⟩, -⟩ | ⟨-, ⟨-, ⟨⟩, -⟩ |
      ⟨-, ⟨-, slot, node, ⟨⟩, -⟩ | ⟨-, ⟨⟩, -⟩⟩⟩
  rcases require_bind_eq_ok.mp h with ⟨rfl, -, rfl⟩ | ⟨slot, rfl, h⟩
  · rcases pdrFindOrAdd_cases hfound with ⟨slot, -, ⟨⟩, -⟩ | ⟨-, ⟨hempty, -, rfl⟩ |
      ⟨-, ⟨-, slot, node, ⟨⟩, -⟩ | ⟨hempty, -, slot, node, hleaked⟩⟩⟩
    · refine .inl (hrefused ?_ (.refl _))
      rintro ⟨pdrId, pdi', -, -, -, -, -, -, -, hpool, hid⟩
      exact hpool hempty
    · refine .inl (hrefused ?_ hleaked.samePdrs)
      rintro ⟨pdrId, pdi', -, -, -, -, -, -, -, hpool, hid⟩
      exact hid hempty
  have hplaced : PfcpState.Placed slot ie.precedence mid st' := by
    exact handlePdi_placed h
  rcases pdrFindOrAdd_cases hfound with ⟨slot', hfind, hslot, rfl⟩ |
    ⟨hfind, ⟨-, ⟨⟩, -⟩ | ⟨hpool, ⟨hid, slot', node, hslot, hadded⟩ | ⟨-, ⟨⟩, -⟩⟩⟩
  · obtain rfl := Option.some.inj (Except.ok.inj hslot)
    refine .inl ⟨?_, .inr ⟨slot, List.mem_of_find?_eq_some hfind, hplaced⟩⟩
    rintro ⟨pdrId', pdi', hsome, -, -, -, -, -, hnone, -⟩
    obtain rfl := Option.some.inj (hpdrId.symm.trans hsome)
    cases hfind.symm.trans hnone
  · obtain rfl := Option.some.inj (Except.ok.inj hslot)
    refine .inr ⟨⟨pdrId, pdi, hpdrId, hpdi, ?_, ?_, hteid, hurr, hfind, hpool, hid⟩, slot, node, mid,
      hadded, hplaced⟩
    · rw [hfarId]
      rfl
    · rw [hsrcIf]
      rfl

end

section

variable {slot node : Nat} {st st' : PfcpState} {rest : List Nat}

/-- A PDR is added in a slot that no session has. -/
theorem PdrAdded.holds (hadd : PdrAdded slot node st st')
    (h : (st.ctx.table .pdr).pool.Holds (st.list .pdr ++ rest)) :
    (st'.ctx.table .pdr).pool.Holds (st'.list .pdr ++ rest) ∧ slot ∉ st.list .pdr ++ rest := by
  obtain ⟨hholds, hnot⟩ := h.alloc (congrArg Prod.fst hadd.pool)
  rw [congrArg Prod.snd hadd.pool] at hholds
  refine ⟨hholds.perm ?_, hnot⟩
  rw [hadd.list, List.append_assoc]
  exact List.perm_middle.symm

theorem PdrAdded.precedence (hadd : PdrAdded slot node st st') :
    st'.precedence = update st.precedence slot 0 := by
  funext other
  by_cases hother : other = slot
  · subst hother
    rw [PfcpState.precedence, hadd.rule, update_self]
  · rw [PfcpState.precedence, hadd.others other hother, update_of_ne hother,
      PfcpState.precedence]

/-- A PDR of the session is put in its place, or not touched. -/
theorem PfcpState.Placed.kept {value : Option UInt32} (hplaced : PfcpState.Placed slot value st st')
    (hslot : slot ∈ st.list .pdr) (h : (st.ctx.table .pdr).pool.Holds (st.list .pdr ++ rest)) :
    (st'.ctx.table .pdr).pool.Holds (st'.list .pdr ++ rest) ∧
      ∀ other, other ≠ slot → st'.precedence other = st.precedence other := by
  cases value with
  | none =>
    refine ⟨?_, fun other _ => congrFun hplaced.precedence other⟩
    rw [hplaced.list]
    exact hplaced.holds _ h
  | some value =>
    refine ⟨(hplaced.holds _ h).perm ((hplaced.perm hslot).symm.append_right rest), ?_⟩
    intro other hother
    rw [hplaced.precedence, update_of_ne hother]

/-- What a request to create a PDR does to the list of its session. -/
theorem created {env : RuleEnv} {restoration : Bool} {ie : CreatePdrIe}
    {result : Except Refusal Nat} (h : (st.ctx.table .pdr).pool.Holds (st.list .pdr ++ rest))
    (hrun : handleCreatePdr env restoration ie st = .ok (result, st')) :
    (st'.ctx.table .pdr).pool.Holds (st'.list .pdr ++ rest) ∧
      (∀ other ∈ rest, st'.precedence other = st.precedence other) ∧
      (InOrder st.precedence (st.list .pdr) →
        (InOrder st'.precedence (st'.list .pdr) ↔
          (ie.precedence = none → st.AddsPdr env restoration ie →
            ∀ slot ∈ st.list .pdr, st.precedence slot = 0))) := by
  have hnodup := h.nodup.of_append_right
  rcases handleCreatePdr_cases hrun with ⟨hnot, hsame | ⟨slot, hslot, hplaced⟩⟩ |
    ⟨hadds, slot, node, mid, hadd, hplaced⟩
  · rw [hsame.list, hsame.precedence]
    refine ⟨hsame.holds _ h, fun _ _ => rfl, fun horder => ?_⟩
    exact iff_of_true horder fun _ hadds => absurd hadds hnot
  · obtain ⟨hholds, hothers⟩ := PfcpState.Placed.kept hplaced hslot h
    refine ⟨hholds, fun other hother => hothers other ?_, fun horder => ?_⟩
    · rintro rfl
      exact List.disjoint_of_nodup_append hnodup hslot hother
    · refine iff_of_true ?_ fun _ hadds => absurd hadds hnot
      cases hvalue : ie.precedence with
      | none =>
        rw [hvalue] at hplaced
        rw [hplaced.list, hplaced.precedence]
        exact horder
      | some value =>
        rw [hvalue] at hplaced
        exact hplaced.inOrder hnodup.of_append_left (horder.sublist List.erase_sublist)
  · obtain ⟨hmid, hnew⟩ := hadd.holds h
    have hslot : slot ∈ mid.list .pdr := by
      rw [hadd.list]
      exact List.mem_append_right _ (List.mem_singleton_self slot)
    obtain ⟨hholds, hothers⟩ := PfcpState.Placed.kept hplaced hslot hmid
    have hprecedence (other : Nat) (hother : other ≠ slot) :
        mid.precedence other = st.precedence other := by
      rw [hadd.precedence, update_of_ne hother]
    have hlist (other : Nat) (hother : other ∈ st.list .pdr) :
        mid.precedence other = st.precedence other :=
      hprecedence other fun heq => hnew (List.mem_append_left _ (heq ▸ hother))
    refine ⟨hholds, fun other hother => ?_, fun horder => ?_⟩
    · have hne : other ≠ slot := fun heq => hnew (List.mem_append_right _ (heq ▸ hother))
      rw [hothers other hne, hprecedence other hne]
    · cases hvalue : ie.precedence with
      | none =>
        rw [hvalue] at hplaced
        rw [hplaced.list, hplaced.precedence, hadd.list, InOrder, List.pairwise_append]
        have hzero : mid.precedence slot = 0 := by rw [hadd.precedence, update_self]
        have hle (other : Nat) (hother : other ∈ st.list .pdr) :
            mid.precedence other ≤ mid.precedence slot ↔ st.precedence other = 0 := by
          rw [hzero, hlist other hother, UInt32.le_zero_iff]
        constructor
        · rintro ⟨-, -, hlast⟩ - - other hother
          exact (hle other hother).mp (hlast other hother slot (List.mem_singleton_self slot))
        · intro hall
          refine ⟨horder.congr hlist, List.pairwise_singleton _ _, fun other hother last hlast => ?_⟩
          obtain rfl := List.mem_singleton.mp hlast
          exact (hle other hother).mpr (hall rfl hadds other hother)
      | some value =>
        rw [hvalue] at hplaced
        refine iff_of_true (hplaced.inOrder hmid.nodup.of_append_right.of_append_left ?_) nofun
        have herase : (mid.list .pdr).erase slot = st.list .pdr := by
          rw [hadd.list, List.erase_append_right _ fun hin => hnew (List.mem_append_left _ hin),
            List.erase_cons_head, List.append_nil]
        rw [herase]
        exact horder.congr hlist

/-- A PDR that is removed leaves the list of its session. -/
theorem removed_once (hremove : PdrRemoved slot st st') (hslot : slot ∈ st.list .pdr)
    (h : (st.ctx.table .pdr).pool.Holds (st.list .pdr ++ rest)) :
    (st'.ctx.table .pdr).pool.Holds (st'.list .pdr ++ rest) ∧ st'.precedence = st.precedence := by
  constructor
  · rw [hremove.pool, hremove.list]
    apply OgsPool.Holds.release
    exact h.perm ((List.perm_cons_erase hslot).append_right rest)
  · funext other
    by_cases hother : other = slot
    · subst hother
      rw [PfcpState.precedence, hremove.rule, PfcpState.precedence]
    · rw [PfcpState.precedence, hremove.others other hother, PfcpState.precedence]

theorem handleRemovePdr_cases {ie : RuleIdIe} {result : Except Refusal Unit}
    (hrun : handleRemovePdr ie st = .ok (result, st')) :
    st' = st ∨ ∃ slot ∈ st.list .pdr, PdrRemoved slot st st' := by
  rcases handleRemove_cases hrun with rfl | ⟨id, slot, -, hfind, hremoved⟩
  · exact .inl rfl
  · exact .inr ⟨slot, List.mem_of_find?_eq_some hfind, pdrRemove_eq_ok hremoved⟩

end

/-! ## Runs -/

/-- What arrives for a session: a request to create a PDR, in a message that says whether it
restores a session, or one to remove a PDR. -/
inductive PdrIe
  | create (sess : Nat) (restoration : Bool) (ie : CreatePdrIe)
  | remove (sess : Nat) (ie : RuleIdIe)

/-- What the handlers do, unless the program ends. -/
def PdrIe.run (env : RuleEnv) (w : PfcpSessions) : PdrIe → Option PfcpSessions
  | .create k restoration ie => w.act k (handleCreatePdr env restoration ie)
  | .remove k ie => w.act k (handleRemovePdr ie)

/-- The sessions of a UPF from its start on. -/
def pdrIeSystem (env : RuleEnv) : System PfcpSessions PdrIe where
  init w := ∃ max teids seed num, w = .init max teids seed num
  step w e w' := e.run env w = some w'

namespace PfcpSessions

variable (w : PfcpSessions)

/-- Each slot of a PDR is free, or stands in the list of one session, and once. -/
def PdrsOnce : Prop := (w.ctx.table .pdr).pool.Holds w.live

/-- The list of each session is in the order of the precedences, and the first PDR in it that
matches has the lowest precedence of those that match. -/
structure PdrsInOrder : Prop where
  once : w.PdrsOnce
  sorted : ∀ (k : Nat) (sess : PfcpSess), w.sess[k]? = some sess →
    InOrder (fun slot => (w.pdr slot).precedence) (sess.list .pdr)
  lowest : ∀ (k : Nat) (sess : PfcpSess), w.sess[k]? = some sess →
    FirstIsLowest (fun slot => (w.pdr slot).precedence) (sess.list .pdr)

end PfcpSessions

/-- A PDR that is added has a precedence, or all others of its session have precedence zero. -/
def PdrIe.InPlace (env : RuleEnv) (w : PfcpSessions) : PdrIe → Prop
  | .create k restoration ie => ie.precedence = none → ∀ sess : PfcpSess, w.sess[k]? = some sess →
    (w.state sess).AddsPdr env restoration ie → ∀ slot ∈ sess.list .pdr, (w.pdr slot).precedence = 0
  | .remove .. => True

def PdrIe.hasPrecedence : PdrIe → Bool
  | .create _ _ ie => ie.precedence.isSome
  | .remove .. => true

/-- A PDR that comes with a precedence is put in its place. -/
theorem PdrIe.inPlace_of_hasPrecedence {env : RuleEnv} {w : PfcpSessions} {e : PdrIe}
    (h : e.hasPrecedence = true) : e.InPlace env w := by
  cases e with
  | create k restoration ie => exact fun hnone => absurd hnone (Option.isSome_iff_ne_none.mp h)
  | remove k ie => exact trivial

namespace PfcpSessions

variable {w : PfcpSessions} {k slot : Nat} {sess : PfcpSess} {st : PfcpState} {env : RuleEnv}

theorem PdrsInOrder.mk_sorted (honce : w.PdrsOnce) (hsorted : ∀ (k : Nat) (sess : PfcpSess), w.sess[k]? = some sess →
    InOrder (fun slot => (w.pdr slot).precedence) (sess.list .pdr)) : w.PdrsInOrder :=
  ⟨honce, hsorted, fun k sess hsess => (hsorted k sess hsess).firstIsLowest⟩

/-- The PDRs of another session are elsewhere. -/
theorem mem_elsewhere {other : Nat} {sess' : PfcpSess} (hother : other ≠ k)
    (hsess' : w.sess[other]? = some sess') (hslot : slot ∈ sess'.list .pdr) : slot ∈ w.elsewhere k := by
  refine List.mem_flatMap.mpr ⟨sess', ?_, hslot⟩
  exact List.mem_eraseIdx_iff_getElem?.mpr ⟨other, hother, hsess'⟩

/-- A session has other rules, and those of the other sessions have the precedences that they had. -/
theorem sorted_set (hsess : w.sess[k]? = some sess)
    (hothers : ∀ slot ∈ w.elsewhere k, st.precedence slot = (w.pdr slot).precedence)
    (hsorted : ∀ (k : Nat) (sess : PfcpSess), w.sess[k]? = some sess →
      InOrder (fun slot => (w.pdr slot).precedence) (sess.list .pdr)) :
    (∀ (other : Nat) (sess' : PfcpSess), (⟨st.ctx, w.sess.set k st.sess⟩ : PfcpSessions).sess[other]? = some sess' →
      InOrder st.precedence (sess'.list .pdr)) ↔ InOrder st.precedence (st.list .pdr) := by
  obtain ⟨hk, -⟩ := List.getElem?_eq_some_iff.mp hsess
  constructor
  · intro h
    exact h k st.sess (List.getElem?_set_self hk)
  · intro h other sess' hsess'
    by_cases hother : other = k
    · subst hother
      rw [List.getElem?_set_self hk] at hsess'
      obtain rfl := Option.some.inj hsess'
      exact h
    · rw [List.getElem?_set_ne (Ne.symm hother)] at hsess'
      exact (hsorted other sess' hsess').congr fun slot hslot =>
        hothers slot (mem_elsewhere hother hsess' hslot)

/-- What is left for the whole of the sessions is that each PDR is there once, and that the list of
the session is in order. -/
theorem pdrsInOrder_set_iff (h : w.PdrsInOrder) (hsess : w.sess[k]? = some sess)
    (hothers : ∀ slot ∈ w.elsewhere k, st.precedence slot = (w.pdr slot).precedence) :
    (⟨st.ctx, w.sess.set k st.sess⟩ : PfcpSessions).PdrsInOrder ↔
      (⟨st.ctx, w.sess.set k st.sess⟩ : PfcpSessions).PdrsOnce ∧
        InOrder st.precedence (st.list .pdr) := by
  rw [← sorted_set hsess hothers h.sorted]
  exact ⟨fun h => ⟨h.once, h.sorted⟩, fun h => .mk_sorted h.1 h.2⟩

/-- The list of a session is replaced. -/
theorem pdrsOnce_set_iff (hsess : w.sess[k]? = some sess) :
    (⟨st.ctx, w.sess.set k st.sess⟩ : PfcpSessions).PdrsOnce ↔
      (st.ctx.table .pdr).pool.Holds (st.list .pdr ++ w.elsewhere k) :=
  ⟨fun h => h.perm (live_set_perm hsess st.ctx st.sess),
    fun h => h.perm (live_set_perm hsess st.ctx st.sess).symm⟩

theorem PdrsOnce.holds (h : w.PdrsOnce) (hsess : w.sess[k]? = some sess) :
    (w.ctx.table .pdr).pool.Holds (sess.list .pdr ++ w.elsewhere k) := h.perm (live_perm hsess)

/-- A step leaves each PDR in one list, and keeps the order exactly if it is in place. -/
theorem PdrsOnce.step {e : PdrIe} {w' : PfcpSessions} (h : w.PdrsOnce)
    (hstep : e.run env w = some w') :
    w'.PdrsOnce ∧ (w.PdrsInOrder → (w'.PdrsInOrder ↔ e.InPlace env w)) := by
  cases e with
  | create k restoration ie =>
    obtain ⟨sess, result, st, hsess, hrun, rfl⟩ := act_eq_some hstep
    obtain ⟨hholds, hothers, horder⟩ := created (h.holds hsess) hrun
    have honce := (pdrsOnce_set_iff hsess).mpr hholds
    refine ⟨honce, fun hinOrder => ?_⟩
    rw [pdrsInOrder_set_iff hinOrder hsess hothers, and_iff_right honce,
      horder (hinOrder.sorted k sess hsess)]
    constructor
    · intro hall hnone sess' hsess' hadds
      obtain rfl := Option.some.inj (hsess.symm.trans hsess')
      exact hall hnone hadds
    · exact fun hplace hnone hadds => hplace hnone sess hsess hadds
  | remove k ie =>
    obtain ⟨sess, result, st, hsess, hrun, rfl⟩ := act_eq_some hstep
    have hholds := h.holds hsess
    have hkeeps : (st.ctx.table .pdr).pool.Holds (st.list .pdr ++ w.elsewhere k) ∧
        st.precedence = (w.state sess).precedence ∧ (st.list .pdr).Sublist (sess.list .pdr) := by
      rcases handleRemovePdr_cases hrun with rfl | ⟨slot, hslot, hremove⟩
      · exact ⟨hholds, rfl, .refl _⟩
      · obtain ⟨hholds', hprecedence⟩ := removed_once hremove hslot hholds
        refine ⟨hholds', hprecedence, ?_⟩
        rw [hremove.list]
        exact List.erase_sublist
    obtain ⟨hholds', hprecedence, hsub⟩ := hkeeps
    have honce := (pdrsOnce_set_iff hsess).mpr hholds'
    refine ⟨honce, fun hinOrder => iff_of_true ?_ trivial⟩
    rw [pdrsInOrder_set_iff hinOrder hsess fun slot _ => congrFun hprecedence slot,
      and_iff_right honce, hprecedence]
    exact (hinOrder.sorted k sess hsess).sublist hsub

theorem PdrsOnce.init (h : (pdrIeSystem env).init w) : w.PdrsOnce := by
  obtain ⟨max, teids, seed, num, rfl⟩ := h
  rw [PdrsOnce, live_init]
  exact OgsPool.init_holds _

theorem PdrsInOrder.init (h : (pdrIeSystem env).init w) : w.PdrsInOrder := by
  refine .mk_sorted (.init h) fun k sess hsess => ?_
  obtain ⟨max, teids, seed, num, rfl⟩ := h
  obtain rfl := List.eq_of_mem_replicate (List.mem_of_getElem? hsess)
  exact List.Pairwise.nil

end PfcpSessions

/-- In every run each PDR stands in the list of one session, and once. The lists are in order in
all states of a run if and only if each PDR without a precedence is added in its place. -/
theorem pdrs_in_order_iff (env : RuleEnv) (ies : List PdrIe) (w : PfcpSessions) :
    ((pdrIeSystem env).RunWithin PfcpSessions.PdrsInOrder ies w ↔
      (pdrIeSystem env).Run (fun w e => e.InPlace env w) ies w) ∧
    ((pdrIeSystem env).Run System.unrestricted ies w → w.PdrsOnce) := by
  constructor
  · apply System.Run.within_iff fun w hinit => PfcpSessions.PdrsInOrder.init hinit
    · exact fun w horder => horder
    · exact fun w e w' horder hplace hstep => ((horder.once.step hstep).2 horder).mpr hplace
    · exact fun w e w' horder hstep horder' => ((horder.once.step hstep).2 horder).mp horder'
  · exact fun hrun => hrun.invariant (fun w hinit => .init hinit)
      fun w e w' honce _ hstep => (honce.step hstep).1

/-! ## A PDR without a precedence -/

/-- No flow description compiles, and the stack is clear. -/
def plainEnv : RuleEnv := ⟨fun _ => .ok none, .replicate 25 0⟩

/-- A PDR of the access side. -/
def accessPdr (pdrId : UInt16) (precedence : Option UInt32) : PdrIe :=
  .create 0 false
    { pdrId
      precedence
      pdi := some { sourceInterface := some 0 }
      farId := some 1 }

/-- A UPF with one session. -/
def loneSession : PfcpSessions := .init 1 ((List.range 16).map fun n => .ofNat (n + 1)) 0 1

theorem loneSession_init (env : RuleEnv) : (pdrIeSystem env).init loneSession := ⟨1, _, 0, 1, rfl⟩

/-- PDRs with precedences, one of which is given a new one. -/
theorem pdrs_in_order_moved :
    ∃ w, (pdrIeSystem plainEnv).RunWithin PfcpSessions.PdrsInOrder
        [accessPdr 1 (some 5), accessPdr 2 (some 3), accessPdr 2 (some 7)] w ∧ w.PdrsOnce := by
  have hrun : ([accessPdr 1 (some 5), accessPdr 2 (some 3), accessPdr 2 (some 7)].foldlM
      (fun w (e : PdrIe) => if e.hasPrecedence then e.run plainEnv w else none) loneSession).isSome := by
    decide
  obtain ⟨w, hw⟩ := Option.isSome_iff_exists.mp hrun
  have hplace : (pdrIeSystem plainEnv).Run (fun w e => e.InPlace plainEnv w)
      [accessPdr 1 (some 5), accessPdr 2 (some 3), accessPdr 2 (some 7)] w := by
    refine System.run_foldlM (fun w e w' hstep => ?_) (loneSession_init plainEnv) hw
    obtain ⟨hhas, hstep⟩ := Option.ite_none_right_eq_some.mp hstep
    exact ⟨PdrIe.inPlace_of_hasPrecedence hhas, hstep⟩
  have hall := pdrs_in_order_iff plainEnv
    [accessPdr 1 (some 5), accessPdr 2 (some 3), accessPdr 2 (some 7)] w
  exact ⟨w, hall.1.mpr hplace, hall.2 (hplace.mono fun _ _ _ => trivial)⟩

/-- Behind a PDR with precedence 5 one without a precedence is added, whose precedence is zero. -/
theorem not_pdrs_in_order :
    ∃ w sess, (pdrIeSystem plainEnv).Run System.unrestricted
        [accessPdr 1 (some 5), accessPdr 2 none] w ∧ w.sess[0]? = some sess ∧
      ¬FirstIsLowest (fun slot => (w.pdr slot).precedence) (sess.list .pdr) := by
  have hrun : ([accessPdr 1 (some 5), accessPdr 2 none].foldlM (PdrIe.run plainEnv) loneSession).map
      (fun w => (w.sess.map fun sess => sess.list .pdr, (w.pdr 0).precedence, (w.pdr 1).precedence)) =
        some ([[0, 1]], 5, 0) := by
    decide
  obtain ⟨w, hw, hstate⟩ := Option.map_eq_some_iff.mp hrun
  obtain ⟨hlists, hprecedences⟩ := Prod.mk.inj hstate
  obtain ⟨hfirst, hsecond⟩ := Prod.mk.inj hprecedences
  obtain ⟨sess, hsess, hlist⟩ := List.map_eq_singleton_iff.mp hlists
  refine ⟨w, sess, ?_, ?_, fun hlowest => ?_⟩
  · exact System.run_foldlM (fun _ _ _ hstep => ⟨trivial, hstep⟩) (loneSession_init plainEnv) hw
  · rw [hsess]
    rfl
  · rw [hlist] at hlowest
    have hle := hlowest (fun _ => true) 0 rfl 1 (by simp) rfl
    simp only [hfirst, hsecond] at hle
    exact absurd hle (by decide)

end Quicup.Open5gs.Pfcp
