import Quicup.Open5gs.Pfcp.Path
import Quicup.Open5gs.Pfcp.RuleHandler
import Quicup.Open5gs.Pfcp.Sessions

/-!
# Steps of the handlers

The handlers of rules are made of a few kinds of steps, and each that is refused has a cause
for it. What holds of a session behind each step holds behind each handler.
-/

namespace Quicup.Open5gs.Pfcp

open Procedure Relation Function

/-! ## Memory -/

namespace PfcpState

variable (st : PfcpState) (kind kind' : RuleKind) (slot slot' : Nat)

@[simp] theorem pool_setEntry (entry : RuleEntry kind) :
    ((st.setEntry kind slot entry).ctx.table kind').pool = (st.ctx.table kind').pool := by
  by_cases h : kind' = kind
  · subst h
    simp [setEntry, setTable]
  · simp [setEntry, setTable, h]

theorem entry_setEntry_of_ne (entry : RuleEntry kind) (h : kind' = kind → slot' ≠ slot) :
    (st.setEntry kind slot entry).entry kind' slot' = st.entry kind' slot' := by
  by_cases hkind : kind' = kind
  · subst hkind
    simp [PfcpState.entry, setEntry, setTable, h rfl]
  · simp [PfcpState.entry, setEntry, setTable, hkind]

theorem entry_setEntry_self (entry : RuleEntry kind) :
    (st.setEntry kind slot entry).entry kind slot = entry := by
  simp [PfcpState.entry, setEntry, setTable]

@[simp] theorem rule_setId (id : UInt32) :
    (st.setEntry kind slot { st.entry kind slot with id }).rule kind' slot' = st.rule kind' slot' := by
  by_cases h : kind' = kind ∧ slot' = slot
  · obtain ⟨rfl, rfl⟩ := h
    rw [PfcpState.rule, entry_setEntry_self]
    rfl
  · rw [PfcpState.rule, entry_setEntry_of_ne _ _ _ _ _ _ (not_and.mp h)]
    rfl

end PfcpState
/-! ## Steps -/

namespace PfcpState

/-- The packets that the FAR in a slot keeps. -/
def kept (st : PfcpState) (slot : Nat) : List (Nat × Gpdu) :=
  (st.rule .far slot).bufferedGtpu.map fun packet => (slot, packet)

/-- A rule leaves its session, and what it keeps is freed. -/
def drop (st : PfcpState) (kind : RuleKind) (slot : Nat) : PfcpState :=
  let freed := if kind = .far then st.kept slot else []
  ({ st with record.freed := st.record.freed ++ freed }.unlink kind slot).freeSlot kind slot

/-- What is elsewhere than in the rules of a session and the packets of its FARs changes. -/
structure Beside (st st' : PfcpState) : Prop where
  table : st'.ctx.table = st.ctx.table
  list : st'.sess.list = st.sess.list
  idPool : st'.sess.idPool = st.sess.idPool
  arrived : st'.record.arrived = st.record.arrived
  sent : st'.record.sent = st.record.sent
  freed : st'.record.freed = st.record.freed
  dropped : st'.record.dropped = st.record.dropped
  stray : st.record.stray = true → st'.record.stray = true

namespace Beside

variable {st st' st'' : PfcpState}

theorem refl (st : PfcpState) : st.Beside st := ⟨rfl, rfl, rfl, rfl, rfl, rfl, rfl, fun h => h⟩

theorem trans (h : st.Beside st') (h' : st'.Beside st'') : st.Beside st'' :=
  ⟨h'.table.trans h.table, h'.list.trans h.list, h'.idPool.trans h.idPool,
    h'.arrived.trans h.arrived, h'.sent.trans h.sent, h'.freed.trans h.freed,
    h'.dropped.trans h.dropped, fun hstray => h'.stray (h.stray hstray)⟩

theorem use (st : PfcpState) (kind : RuleKind) (slot : Nat) : st.Beside (st.use kind slot) :=
  ⟨rfl, rfl, rfl, rfl, rfl, rfl, rfl, fun h => Bool.or_eq_true_iff.mpr (.inl h)⟩

theorem usePtr (st : PfcpState) (kind : RuleKind) (ptr : Option Nat) :
    st.Beside (st.usePtr kind ptr) := by
  cases ptr with
  | none => exact refl st
  | some slot => exact use st kind slot

end Beside

end PfcpState

/-- What a rule keeps when it is written: a PDR its precedence, a FAR its packets. -/
def Settles : (kind : RuleKind) → kind.Rule → kind.Rule → Prop
  | .pdr, old, new => new.precedence = old.precedence
  | .far, old, new => new.bufferedGtpu = old.bufferedGtpu
  | .urr, _, _ => True
  | .qer, _, _ => True

/-- A step that leaves the list of PDRs alone. -/
inductive Write (st : PfcpState) : PfcpState → Prop
  | rule {kind slot rule} : Settles kind (st.rule kind slot) rule → Write st (st.setRule kind slot rule)
  | add {kind} : kind ≠ .pdr → Write st (st.add kind kind.blank).2
  | setId {kind slot id} : Write st (st.setEntry kind slot { st.entry kind slot with id })
  | beside {st'} : st.Beside st' → Write st st'

/-- A step of a request. -/
inductive RuleStep (st : PfcpState) : PfcpState → Prop
  | write {st'} : Write st st' → RuleStep st st'
  | addPdr {new} : RuleStep st (st.add .pdr new).2
  | reorder {slot precedence st'} : slot ∈ st.list .pdr →
      reorderByPrecedence slot precedence st = .ok (.ok (), st') → RuleStep st st'
  | drop {kind slot} : slot ∈ st.list kind → RuleStep st (st.drop kind slot)
  | send {pdr} : RuleStep st (st.sendBufferedGtpu pdr)

/-- A refusal that its cause shows. -/
def Negative (refusal : Refusal) : Prop := refusal.cause ≠ causeRequestAccepted

instance (priority := low) {α : Type} {reasons : Refusal → Prop} {x : Handler α}
    [h : Along Write reasons x] : Along RuleStep reasons x where
  along st result st' hrun := by
    obtain ⟨hsteps, hreasons⟩ := h.along st result st' hrun
    exact ⟨hsteps.lift id fun _ _ => .write, hreasons⟩

/-! ## Writes -/

section

variable {reasons : Refusal → Prop} {type : UInt8} {slot : Nat} {kind : RuleKind}
  {remove : Nat → Handler Unit} {st st' : PfcpState} {result : Except Refusal Unit}

theorem negative {cause : UInt8} (h : cause ≠ causeRequestAccepted) : Permits Negative ⟨cause, type⟩ :=
  ⟨h⟩

instance : Permits Negative ⟨causeRequestRejected, type⟩ := negative (by decide)

instance : Permits Negative ⟨causeSessionContextNotFound, type⟩ := negative (by decide)

instance : Permits Negative ⟨causeMandatoryIeMissing, type⟩ := negative (by decide)

instance : Permits Negative ⟨causeInvalidLength, type⟩ := negative (by decide)

instance : Permits Negative ⟨causeMandatoryIeIncorrect, type⟩ := negative (by decide)

instance : Permits Negative ⟨causeInvalidFTeidAllocationOption, type⟩ := negative (by decide)

instance : Permits Negative ⟨causeNoResourcesAvailable, type⟩ := negative (by decide)

instance (change : PfcpPdr → PfcpPdr) [h : ∀ pdr, Same (change pdr).precedence pdr.precedence] :
    Along Write reasons (modifyRule .pdr slot change) :=
  .modify fun _ => .single (.rule (h _).eq)

instance (change : PfcpFar → PfcpFar) [h : ∀ far, Same (change far).bufferedGtpu far.bufferedGtpu] :
    Along Write reasons (modifyRule .far slot change) :=
  .modify fun _ => .single (.rule (h _).eq)

instance (change : PfcpUrr → PfcpUrr) : Along Write reasons (modifyRule .urr slot change) :=
  .modify fun _ => .single (.rule trivial)

instance (change : PfcpQer → PfcpQer) : Along Write reasons (modifyRule .qer slot change) :=
  .modify fun _ => .single (.rule trivial)

instance {g : PfcpState → PfcpState} [h : ∀ st, Same (g st).ctx.table st.ctx.table]
    [h₁ : ∀ st, Same (g st).sess.list st.sess.list]
    [h₂ : ∀ st, Same (g st).sess.idPool st.sess.idPool]
    [h₃ : ∀ st, Same (g st).record st.record] : Along Write reasons (.modify g) :=
  .modify fun st => .single <| .beside
    { table := (h st).eq
      list := (h₁ st).eq
      idPool := (h₂ st).eq
      arrived := by rw [(h₃ st).eq]
      sent := by rw [(h₃ st).eq]
      freed := by rw [(h₃ st).eq]
      dropped := by rw [(h₃ st).eq]
      stray := by rw [(h₃ st).eq]; exact id }

instance (n : Nat) : Along Write reasons (ruleFree n) := by
  unfold ruleFree
  infer_instance


instance : Along Write reasons ruleAlloc := by
  unfold ruleAlloc
  infer_instance

instance (env : RuleEnv) (filter : SdfFilter) (opposite : Option SdfRule) :
    Along Write reasons (addSdfRule env slot filter opposite) := by
  unfold addSdfRule
  refine .bind fun _ => .bind fun st => .bind fun rule => ?_
  cases rule <;> infer_instance

instance : Along Write reasons (ruleRemoveAll slot) := by
  unfold ruleRemoveAll
  infer_instance

instance (env : RuleEnv) (filters : List (List UInt8)) :
    Along Write reasons (handleSdfFilters env slot filters) := by
  induction filters with
  | nil => exact inferInstanceAs (Along _ _ (pure ()))
  | cons octets behind ih =>
    unfold handleSdfFilters
    infer_instance

instance (env : RuleEnv) (srcIf : UInt8) (pdi : PdiIe) :
    Along Write reasons (handlePdiFilters env slot srcIf pdi) := by
  unfold handlePdiFilters
  infer_instance

/-- A rule is looked up, or it is added and gets its ID. -/
instance {step : PfcpState → PfcpState → Prop} {kind : RuleKind} {id : UInt32}
    {add : Handler (Option Nat)} [Along step reasons add] [∀ slot, Along step reasons
      (.modify fun st => st.setEntry kind slot { st.entry kind slot with id })] :
    Along step reasons (findOrAdd kind id add) := by
  unfold findOrAdd
  refine .bind fun st => ?_
  split
  · infer_instance
  · refine .bind fun found => ?_
    cases found <;> infer_instance

instance {kind : RuleKind} {id : UInt32} : Along Write reasons
    (.modify fun st => st.setEntry kind slot { st.entry kind slot with id }) :=
  .modify fun _ => .single .setId

theorem add_along (hkind : kind ≠ .pdr) :
    Along Write reasons (.state fun st => st.add kind kind.blank) :=
  .state fun _ => .single (Write.add hkind)

instance : Along Write reasons (.state fun st => st.add .far {}) := add_along (by decide)

instance : Along Write reasons (.state fun st => st.add .urr {}) := add_along (by decide)

instance : Along Write reasons (.state fun st => st.add .qer {}) := add_along (by decide)

instance (id : UInt32) : Along Write reasons (farFindOrAdd id) := by
  unfold farFindOrAdd
  infer_instance

instance (id : UInt32) : Along Write reasons (urrFindOrAdd id) := by
  unfold urrFindOrAdd
  infer_instance

instance (id : UInt32) : Along Write reasons (qerFindOrAdd id) := by
  unfold qerFindOrAdd
  infer_instance

instance (pdr urr : Nat) : Along Write reasons (associateUrr pdr urr) := by
  unfold associateUrr
  infer_instance

/-! ## Handlers -/

instance {α : Type} (ie : Option α) : Along Write Negative (mandatory ie type) := by
  unfold mandatory
  infer_instance

instance {kind : RuleKind} {id : UInt32} {refusal : Refusal} [Permits reasons refusal] :
    Along Write reasons (lookUp kind id refusal) := by
  unfold lookUp
  infer_instance

instance (env : RuleEnv) (data : Option (List UInt8)) (restoration : Bool) :
    Along Write Negative (checkFTeid env data restoration) := by
  unfold checkFTeid
  infer_instance

instance (data : Option (List UInt8)) : Along Write Negative (handleLocalFTeid slot data) := by
  unfold handleLocalFTeid
  infer_instance

instance (farId : UInt32) : Along Write Negative (handleFarId slot farId) := by
  unfold handleFarId
  infer_instance

instance (urrIds : List UInt32) : Along Write Negative (handleUrrIds slot urrIds) := by
  unfold handleUrrIds handleUrrId
  infer_instance

instance (qerId : Option UInt32) : Along Write Negative (handleQerId slot qerId) := by
  unfold handleQerId
  infer_instance

instance (env : RuleEnv) (ie : UpdatePdrIe) : Along Write Negative (handleUpdatePdr env ie) := by
  unfold handleUpdatePdr handleUpdatePdi
  infer_instance

instance (ie : ForwardingParametersIe) :
    Along Write reasons (handleForwardingParameters slot ie) := by
  unfold handleForwardingParameters
  infer_instance

instance (ie : FarIe) : Along Write Negative (handleCreateFar ie) := by
  unfold handleCreateFar
  infer_instance

instance (ie : FarIe) : Along Write Negative (handleUpdateFarFlags ie) := by
  unfold handleUpdateFarFlags
  infer_instance

instance (ie : FarIe) : Along Write Negative (handleUpdateFar ie) := by
  unfold handleUpdateFar
  infer_instance

instance (ie : QerIe) : Along Write Negative (handleBitrates slot ie) := by
  have (data : Option (List UInt8)) (type : UInt8) (old : Bitrate) :
      Along Write Negative (parseBitrate data type old) := by
    unfold parseBitrate
    split <;> infer_instance
  unfold handleBitrates
  infer_instance

instance (ie : QerIe) : Along Write Negative (handleCreateQer ie) := by
  unfold handleCreateQer
  infer_instance

instance (ie : QerIe) : Along Write Negative (handleUpdateQer ie) := by
  unfold handleUpdateQer
  infer_instance

instance : Along Write reasons (barDelete slot) := by
  unfold barDelete
  infer_instance

instance (ie : RuleIdIe) : Along Write Negative (handleCreateBar ie) := by
  have (id : UInt8) : Along Write Negative (barNew id) := by
    unfold barNew
    refine .bind fun st => .bind fun _ => ?_
    split <;> infer_instance
  unfold handleCreateBar
  infer_instance

instance (ie : RuleIdIe) : Along Write Negative (handleRemoveBar ie) := by
  unfold handleRemoveBar
  refine .bind fun id => .bind fun st => ?_
  split <;> infer_instance

instance (ie : UrrIe) : Along Write Negative (handleUrrLimits slot ie) := by
  have (data : Option (List UInt8)) (type : UInt8) (put : PfcpUrr → Volume → PfcpUrr) :
      Along Write Negative (handleVolume slot data type put) := by
    unfold handleVolume
    split <;> infer_instance
  have (data : Option (List UInt8)) :
      Along Write Negative (handleDroppedDlTrafficThreshold slot data) := by
    unfold handleDroppedDlTrafficThreshold
    split <;> infer_instance
  unfold handleUrrLimits
  infer_instance

instance (ie : UrrIe) : Along Write Negative (handleCreateUrr ie) := by
  unfold handleCreateUrr
  infer_instance

instance (ie : UrrIe) : Along Write Negative (handleUpdateUrr ie) := by
  unfold handleUpdateUrr
  infer_instance

/-! ## F-TEIDs and peers -/

instance (object : Option TeidObject) : Along Write reasons (teidHashSet slot object) := by
  unfold teidHashSet
  infer_instance

instance (env : TunnelEnv) : Along Write Negative (chooseFTeid env slot) := by
  unfold chooseFTeid
  refine .bind fun st => ?_
  dsimp only
  split <;> infer_instance

instance (env : TunnelEnv) (object : TeidObject) :
    Along Write Negative (objectTeidHashSet env object slot) := by
  unfold objectTeidHashSet
  refine .bind fun st => ?_
  dsimp only
  infer_instance

instance : Along Write Negative (swapTeid slot) := by
  unfold swapTeid
  infer_instance

instance (env : GtpuPeerEnv) : Along Write reasons (setupFarGtpuNode env slot) := by
  unfold setupFarGtpuNode
  refine .bind fun st => ?_
  dsimp only
  split
  · infer_instance
  · refine .bind fun _ => ?_
    split <;> infer_instance

instance (env : GtpuPeerEnv) (slots : List Nat) : Along Write reasons (setupGtpuNodes env slots) := by
  induction slots with
  | nil => exact inferInstanceAs (Along _ _ (pure _))
  | cons slot slots ih =>
    unfold setupGtpuNodes
    infer_instance

/-! ## Removals -/

/-- A handler removes a rule of a session that is there. -/
def Removes (kind : RuleKind) (remove : Nat → Handler Unit) : Prop :=
  ∀ st slot result st', slot ∈ st.list kind → remove slot st = .ok (result, st') →
    result = .ok () ∧ ReflTransGen RuleStep st st' ∧
      st'.sess.list = update st.sess.list kind ((st.list kind).erase slot)

theorem farRemove_removes : Removes .far farRemove := by
  intro st slot result st' hslot hrun
  cases hrun
  exact ⟨rfl, .single (.drop hslot), rfl⟩

theorem PfcpState.drop_of_ne (hkind : kind ≠ .far) (st : PfcpState) :
    st.drop kind slot = (st.unlink kind slot).freeSlot kind slot := by
  rw [PfcpState.drop, if_neg hkind, List.append_nil]

theorem urrRemove_removes : Removes .urr urrRemove := by
  intro st slot result st' hslot hrun
  cases hrun
  have hdrop := RuleStep.drop hslot
  rw [PfcpState.drop_of_ne (by decide)] at hdrop
  exact ⟨rfl, .single hdrop, rfl⟩

theorem qerRemove_removes : Removes .qer qerRemove := by
  intro st slot result st' hslot hrun
  cases hrun
  have hdrop := RuleStep.drop hslot
  rw [PfcpState.drop_of_ne (by decide)] at hdrop
  exact ⟨rfl, .single hdrop, rfl⟩

/-- A PDR is removed behind the writes that go with it. -/
theorem pdrRemove_removes : Removes .pdr pdrRemove := by
  intro st slot result st' hslot hrun
  have hfreed (ht : OgsHash Nat TeidObject) :
      ReflTransGen RuleStep st ({ st.unlinked slot with ctx.objectTeidHash := ht }.freed slot) := by
    let n := (st.rule .pdr slot).ruleList.length
    let counted := { st with ctx.rulePoolAvail := st.ctx.rulePoolAvail + n }
    let plain := counted.setRule .pdr slot { st.rule .pdr slot with ruleList := [] }
    let freed := { plain with
      ctx := { plain.ctx with
        objectTeidHash := ht
        teidPool := st.ctx.teidPool.release (plain.rule .pdr slot).teidNode } }
    have hcounted : Write st counted := .beside ⟨rfl, rfl, rfl, rfl, rfl, rfl, rfl, id⟩
    have hplain : Write counted plain := .rule rfl
    have hbeside : Write plain freed := .beside ⟨rfl, rfl, rfl, rfl, rfl, rfl, rfl, id⟩
    have hdrop : RuleStep freed (freed.drop .pdr slot) := .drop hslot
    rw [PfcpState.drop_of_ne (by decide)] at hdrop
    exact .head (.write hcounted) (.head (.write hplain) (.head (.write hbeside) (.single hdrop)))
  rw [pdrRemove_run] at hrun
  split at hrun
  · obtain ⟨ht, -, hst⟩ := Fallible.map_eq_ok.mp hrun
    cases hst
    exact ⟨rfl, hfreed ht, rfl⟩
  · cases hrun
    exact ⟨rfl, hfreed _, rfl⟩

/-- All rules of a kind are removed, one behind the other. -/
theorem Removes.all (h : Removes kind remove) {α : Type} {rest : Unit → Handler α}
    {result : Except Refusal α} (hrun : (removeAll kind remove >>= rest) st = .ok (result, st')) :
    ∃ mid, ReflTransGen RuleStep st mid ∧ mid.sess.list = update st.sess.list kind [] ∧
      rest () mid = .ok (result, st') := by
  have hloop (slots : List Nat) (st t : PfcpState) (result : Except Refusal Unit)
      (hlist : st.list kind = slots) (hrun : slots.forM remove st = .ok (result, t)) :
      result = .ok () ∧ ReflTransGen RuleStep st t ∧
        t.sess.list = update st.sess.list kind [] := by
    induction slots generalizing st with
    | nil =>
      cases hrun
      refine ⟨rfl, .refl, ?_⟩
      rw [← hlist]
      exact (update_eq_self kind _).symm
    | cons slot slots ih =>
      have hslot : slot ∈ st.list kind := hlist ▸ List.mem_cons_self
      rcases bind_run_eq_ok.mp (show (remove slot >>= fun _ => slots.forM remove) st = _ from hrun)
        with ⟨reason, -, hrefused⟩ | ⟨u, mid, hremoved, hrest⟩
      · cases (h st slot _ t hslot hrefused).1
      · obtain ⟨-, hsteps, hmid⟩ := h st slot _ mid hslot hremoved
        have hleft : mid.list kind = slots := by
          rw [PfcpState.list, hmid, update_self, hlist, List.erase_cons_head]
        obtain ⟨hresult, hsteps', hend⟩ := ih mid hleft hrest
        exact ⟨hresult, hsteps.trans hsteps', by rw [hend, hmid, update_idem]⟩
  unfold removeAll at hrun
  rcases bind_run_eq_ok.mp hrun with ⟨reason, -, hrefused⟩ | ⟨u, mid, hremoved, hrest⟩
  · cases (hloop _ st _ _ rfl hrefused).1
  · obtain ⟨-, hsteps, hmid⟩ := hloop _ st mid _ rfl hremoved
    exact ⟨mid, hsteps, hmid, hrest⟩

/-- Nothing is left of a session that is cleared. -/
theorem sessClear_along (hrun : sessClear st = .ok (result, st')) :
    ReflTransGen RuleStep st st' ∧ ∀ kind, st'.list kind = [] := by
  obtain ⟨_, hpdr, hlist₁, hrun⟩ := pdrRemove_removes.all hrun
  obtain ⟨_, hfar, hlist₂, hrun⟩ := farRemove_removes.all hrun
  obtain ⟨_, hurr, hlist₃, hrun⟩ := urrRemove_removes.all hrun
  obtain ⟨mid, hqer, hlist₄, hrun⟩ := qerRemove_removes.all hrun
  have hrest : ReflTransGen RuleStep mid st' ∧ st'.sess.list = mid.sess.list := by
    rw [Procedure.get_bind_run] at hrun
    cases hbar : mid.sess.bar with
    | none =>
      rw [hbar] at hrun
      cases hrun
      exact ⟨.refl, rfl⟩
    | some slot =>
      rw [hbar] at hrun
      cases hrun
      exact ⟨.single (.write (.beside ⟨rfl, rfl, rfl, rfl, rfl, rfl, rfl, id⟩)), rfl⟩
  refine ⟨((hpdr.trans hfar).trans (hurr.trans hqer)).trans hrest.1, fun kind => ?_⟩
  rw [PfcpState.list, hrest.2, hlist₄, hlist₃, hlist₂, hlist₁]
  cases kind <;> rfl

/-- A request to remove a rule, which has to be there. -/
theorem Removes.along (h : Removes kind remove) (ie : RuleIdIe) :
    Along RuleStep Negative (handleRemove kind type remove ie) := by
  unfold handleRemove lookUp
  refine .bind fun id => ⟨fun st result st' hrun => ?_⟩
  rw [Procedure.bind_assoc, Procedure.get_bind_run] at hrun
  rcases require_bind_eq_ok.mp hrun with ⟨-, rfl, rfl⟩ | ⟨slot, hfind, hremoved⟩
  · exact ⟨.refl, fun _ h => Except.error.inj h ▸ Permits.permitted⟩
  · obtain ⟨rfl, hsteps, -⟩ := h st slot result st' (List.mem_of_find?_eq_some hfind) hremoved
    exact ⟨hsteps, nofun⟩

instance (ie : RuleIdIe) : Along RuleStep Negative (handleRemovePdr ie) := pdrRemove_removes.along ie

instance (ie : RuleIdIe) : Along RuleStep Negative (handleRemoveFar ie) := farRemove_removes.along ie

instance (ie : RuleIdIe) : Along RuleStep Negative (handleRemoveUrr ie) := urrRemove_removes.along ie

instance (ie : RuleIdIe) : Along RuleStep Negative (handleRemoveQer ie) := qerRemove_removes.along ie

/-- A rule is removed if there is one with the ID. -/
theorem handleRemove_cases {ie : RuleIdIe}
    (hrun : handleRemove kind type remove ie st = .ok (result, st')) :
    st' = st ∨ ∃ id slot, ie.id = some id ∧ st.find kind id = some slot ∧
      remove slot st = .ok (result, st') := by
  unfold handleRemove mandatory lookUp at hrun
  rcases require_bind_eq_ok.mp hrun with ⟨-, -, rfl⟩ | ⟨id, hid, hrun⟩
  · exact .inl rfl
  rw [Procedure.bind_assoc, Procedure.get_bind_run] at hrun
  rcases require_bind_eq_ok.mp hrun with ⟨-, -, rfl⟩ | ⟨slot, hfind, hremoved⟩
  · exact .inl rfl
  · exact .inr ⟨id, slot, hid, hfind, hremoved⟩

/-! ## Creation of PDRs -/

instance : Along RuleStep reasons pdrAdd := by
  have (node : Nat) : Along RuleStep reasons
      (.state fun st => st.add .pdr { teidNode := node, teid := st.ctx.teids node }) :=
    .state fun _ => .single .addPdr
  unfold pdrAdd
  refine .bind fun st => ?_
  split
  · infer_instance
  · split <;> infer_instance

instance (id : UInt32) : Along RuleStep reasons (pdrFindOrAdd id) := by
  unfold pdrFindOrAdd
  infer_instance

/-- A PDR of the session is put in its place. -/
theorem reorder_along {precedence : Option UInt32} (hslot : slot ∈ st.list .pdr) :
    AlongFrom RuleStep reasons (.whenSome precedence (reorderByPrecedence slot)) st := by
  intro result st' hrun
  cases precedence with
  | none =>
    cases hrun
    exact ⟨.refl, nofun⟩
  | some value =>
    cases hrun
    exact ⟨.single (.reorder hslot rfl), nofun⟩

theorem handlePdi_along {env : RuleEnv} {srcIf : UInt8} {pdi : PdiIe} {ie : CreatePdrIe}
    (hslot : slot ∈ st.list .pdr) :
    AlongFrom RuleStep Negative (handlePdi env slot srcIf pdi ie) st := by
  unfold handlePdi
  exact (reorder_along hslot).bind fun _ t _ => Along.along t

/-- `ogs_pfcp_handle_create_pdr` -/
instance (env : RuleEnv) (restoration : Bool) (ie : CreatePdrIe) :
    Along RuleStep Negative (handleCreatePdr env restoration ie) := by
  unfold handleCreatePdr
  refine .bind fun pdrId => .bind fun farId => .bind fun pdi => .bind fun srcIf => ?_
  refine .bind fun _ => .bind fun _ => ⟨fun st => ?_⟩
  refine AlongFrom.bind (Along.along st) fun found mid hfound => ?_
  cases found with
  | none =>
    intro result st' hrun
    cases hrun
    exact ⟨.refl, fun _ h => Except.error.inj h ▸ Permits.permitted⟩
  | some slot =>
    have hslot := pdrFindOrAdd_mem hfound
    exact (handlePdi_along hslot).bind fun _ t _ => Along.along t

end

end Quicup.Open5gs.Pfcp
