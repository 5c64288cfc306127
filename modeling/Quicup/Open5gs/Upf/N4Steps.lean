import Quicup.Open5gs.Pfcp.RuleSteps
import Quicup.Open5gs.Upf.N4Handler

/-!
# Steps of requests

What the requests of the SMF do to the rules of a session goes along the steps of the handlers.
A request that is refused leaves no rules, and its answer shows it unless a GTP-U peer could not
be set up.
-/

namespace Quicup.Open5gs

open Pfcp Procedure Relation

variable {cfg : N4Config} {ctx ctx' : N4Context} {sess : Nat} {version : IpVersion} {cause : UInt8}
  {env : N4Env} {call : UeIpCall}

/-! ## The list of sessions -/

/-- The slots of the sessions and their list. -/
def N4Context.slots (ctx : N4Context) : OgsPool × List Nat := (ctx.upfSessPool, ctx.sessList)

theorem slots_dropUeIp (h : ctx.dropUeIp cfg sess version = .ok ctx') :
    ctx'.slots = ctx.slots := by
  unfold N4Context.dropUeIp at h
  split at h
  · cases h
    rfl
  · split at h
    · cases h
    · obtain ⟨ht, -, h⟩ := Fallible.bind_eq_ok.mp h
      obtain ⟨ueIps, -, h⟩ := Fallible.bind_eq_ok.mp h
      cases h
      rfl

theorem slots_takeUeIp {dnn : Option (List Char)} {addr : Vector UInt32 4} {calloc : Bool}
    (h : ctx.takeUeIp cfg sess version dnn addr calloc = .ok (cause, ctx')) :
    ctx'.slots = ctx.slots := by
  unfold N4Context.takeUeIp at h
  obtain ⟨⟨result, ueIps⟩, -, h⟩ := Fallible.bind_eq_ok.mp h
  cases result with
  | error cause =>
    cases h
    rfl
  | ok p =>
    obtain ⟨ht, -, h⟩ := Fallible.bind_eq_ok.mp h
    cases h
    rfl

theorem slots_assignUeIp (h : ctx.assignUeIp cfg sess call version = .ok (cause, ctx')) :
    ctx'.slots = ctx.slots := by
  unfold N4Context.assignUeIp at h
  split at h
  · exact slots_takeUeIp h
  · cases h
    rfl

theorem slots_assignUeIps (h : ctx.assignUeIps cfg sess call = .ok (cause, ctx')) :
    ctx'.slots = ctx.slots := by
  unfold N4Context.assignUeIps at h
  split at h
  · exact slots_assignUeIp h
  split at h
  · exact slots_assignUeIp h
  split at h
  · obtain ⟨⟨cause₁, ctx₁⟩, h₁, h⟩ := Fallible.bind_eq_ok.mp h
    have hfirst := slots_assignUeIp h₁
    dsimp only at h
    split at h
    · cases h
      exact hfirst
    · obtain ⟨⟨cause₂, ctx₂⟩, h₂, h⟩ := Fallible.bind_eq_ok.mp h
      have hsecond := (slots_assignUeIp h₂).trans hfirst
      dsimp only at h
      split at h
      · obtain ⟨ctx₃, h₃, h⟩ := Fallible.bind_eq_ok.mp h
        cases h
        exact (slots_dropUeIp h₃).trans hsecond
      · cases h
        exact hsecond
  · cases h
    rfl

theorem slots_upfSessSetUeIp (h : ctx.upfSessSetUeIp cfg sess call = .ok (cause, ctx')) :
    ctx'.slots = ctx.slots := by
  unfold N4Context.upfSessSetUeIp N4Context.dropUeIps at h
  obtain ⟨ctx₂, hdrop, h⟩ := Fallible.bind_eq_ok.mp h
  obtain ⟨ctx₁, hfirst, hsecond⟩ := Fallible.bind_eq_ok.mp hdrop
  rw [slots_assignUeIps h, slots_dropUeIp hsecond, slots_dropUeIp hfirst]

/-- A new session stands behind the others. Without a free slot there is none. -/
theorem slots_upfSessAdd {fSeid : FSeid} {found : Option Nat}
    (h : ctx.upfSessAdd cfg fSeid = .ok (found, ctx')) :
    (ctx.upfSessPool.free = [] ∧ found = none ∧ ctx' = ctx) ∨
      ctx.upfSessPool.free ≠ [] ∧ ∃ n, found = some n ∧ ctx'.sessList = ctx.sessList ++ [n] ∧
        ctx'.upfSessPool = ctx.upfSessPool.alloc.2 ∧ ctx.upfSessPool.alloc.1 = some n := by
  unfold N4Context.upfSessAdd at h
  unfold OgsPool.alloc at h
  cases hfree : ctx.upfSessPool.free with
  | nil =>
    rw [hfree] at h
    cases h
    exact .inl ⟨rfl, rfl, rfl⟩
  | cons n free =>
    rw [hfree] at h
    apply Or.inr
    refine ⟨List.cons_ne_nil _ _, n, ?_⟩
    cases hseid : ctx.upfN4SeidPool.free with
    | nil =>
      rw [hseid] at h
      cases h
    | cons node seids =>
      rw [hseid] at h
      dsimp only at h
      cases hip : fSeid.toIp with
      | none =>
        rw [hip] at h
        cases h
      | some ip =>
        rw [hip] at h
        obtain ⟨_, -, h⟩ := Fallible.bind_eq_ok.mp h
        obtain ⟨_, -, h⟩ := Fallible.bind_eq_ok.mp h
        obtain ⟨_, -, h⟩ := Fallible.bind_eq_ok.mp h
        cases h
        refine ⟨rfl, rfl, ?_, ?_⟩ <;> rw [OgsPool.alloc, hfree]

/-! ## Modifications -/

section

variable {reasons : Refusal → Prop} {type : UInt8} {slot : Nat} {seid : UInt64}
  {req : SessionModificationRequest} {st st' : PfcpState} {answer : N4Answer}

instance (priority := low) {σ α : Type} {step : σ → σ → Prop} {x : Procedure Refusal σ α}
    [h : Along step Negative x] : Along step (fun _ => True) x where
  along st result st' hrun := ⟨(h.along st result st' hrun).1, fun _ _ => trivial⟩

instance {α β : Type} {step : PfcpState → PfcpState → Prop} {handle : α → Handler β} (ies : List α)
    [∀ ie, Along step reasons (handle ie)] : Along step reasons (handleEach handle ies) := by
  induction ies with
  | nil => exact inferInstanceAs (Along step reasons (pure _))
  | cons ie ies ih =>
    unfold handleEach
    infer_instance

instance (ie : UrrIe) : Along Write Negative (upfN4HandleCreateUrr ie) := by
  unfold upfN4HandleCreateUrr
  infer_instance

instance (created : List Nat) : Along Write reasons (useCreated created) := by
  refine .modify fun st => .single (.beside ?_)
  induction created generalizing st with
  | nil => exact .refl st
  | cons slot created ih => exact (PfcpState.Beside.use st .pdr slot).trans (ih _)

instance (pkbuf : Bool) : Along Write reasons (sendEndMarker pkbuf slot) := by
  unfold sendEndMarker
  refine .bind fun _ => .modify fun st => .single (.beside ?_)
  have huse := (PfcpState.Beside.usePtr st .qer (st.rule .pdr slot).qer).trans
    (.usePtr _ .far (st.rule .pdr slot).far)
  exact ⟨huse.table, huse.list, huse.idPool, huse.arrived, huse.sent, huse.freed, huse.dropped,
    huse.stray⟩

instance (env : N4Env) : Along Write reasons (sendEndMarkers env) := by
  have (far : Nat) : Along Write reasons (.modify fun st => st.use .far far) :=
    .modify fun st => .single (.beside (.use st .far far))
  unfold sendEndMarkers
  refine .bind fun st => ?_
  have (slot : Nat) : Along Write reasons (do
      let st ← Procedure.get
      match (st.rule .pdr slot).far with
      | none => return ()
      | some far =>
        .modify fun st => st.use .far far
        if bit (st.rule .far far).smreqFlags sendEndMarkerPackets then
          sendEndMarker env.pkbuf slot : Handler Unit) := by
    refine .bind fun st => ?_
    split <;> infer_instance
  infer_instance

instance : Along Write reasons clearSmreqFlags := by
  unfold clearSmreqFlags
  infer_instance

instance (env : N4Env) (req : SessionModificationRequest) :
    Along RuleStep Negative (modifyFars env req) := by
  unfold modifyFars
  refine .bind fun _ => .bind fun _ => .bind fun _ => .bind fun _ => ?_
  infer_instance

instance (env : N4Env) (req : SessionModificationRequest) :
    Along RuleStep Negative (modifyRules env req) := by
  unfold modifyRules modifyPdrs modifyUrrs modifyQers
  refine .bind fun created => .bind fun _ => .bind fun _ => ?_
  infer_instance

instance : Permits (fun refusal => ¬Negative refusal) ⟨causeRequestAccepted, type⟩ :=
  ⟨fun h => h rfl⟩

instance (env : N4Env) [∀ type, Permits reasons ⟨causeRequestAccepted, type⟩] :
    Along Write reasons (setupNodes env) := by
  unfold setupNodes
  infer_instance

instance (env : N4Env) (sess : Nat) : Along Write Negative (enterTeid env sess slot) := by
  unfold enterTeid
  infer_instance

instance : Along RuleStep reasons sendBuffered := by
  refine .modify fun st => ?_
  induction downlinkPdrs st generalizing st with
  | nil => exact .refl
  | cons pdr pdrs ih => exact .head .send (ih _)

instance (env : N4Env) (created : List Nat) (showCreated : Bool) :
    Along RuleStep reasons (finish env created showCreated) := by
  unfold finish
  infer_instance

/-- A modification goes along steps, also where it is refused. -/
theorem modification_along (hrun : handleModification env seid sess req st = .ok (answer, st')) :
    ReflTransGen RuleStep st st' := by
  have hall : Along RuleStep (fun _ => True) (modifySession env sess req) := by
    unfold modifySession prepareModification
    infer_instance
  unfold handleModification at hrun
  obtain ⟨⟨result, mid⟩, hmodify, hrun⟩ := Fallible.bind_eq_ok.mp hrun
  obtain ⟨hsteps, -⟩ := hall.along st _ mid hmodify
  cases result with
  | ok createdPdr =>
    cases hrun
    exact hsteps
  | error refusal =>
    obtain ⟨⟨_, left⟩, hclear, hrun⟩ := Fallible.bind_eq_ok.mp hrun
    cases hrun
    exact hsteps.trans (sessClear_along hclear).1

/-- An answer that shows the refusal, or that of a peer which could not be set up. -/
theorem modification_answer (hrun : handleModification env seid sess req st = .ok (answer, st')) :
    (∃ createdPdr, modifySession env sess req st = .ok (.ok createdPdr, st') ∧
        answer = { seid, cause := causeRequestAccepted, createdPdr }) ∨
      (∀ kind, st'.list kind = []) ∧
        (answer.cause = causeRequestAccepted ↔ ∃ created mid refusal mid',
          modifyRules env req st = .ok (.ok created, mid) ∧
            setupNodes env mid = .ok (.error refusal, mid')) := by
  unfold handleModification at hrun
  obtain ⟨⟨result, mid⟩, hmodify, hrun⟩ := Fallible.bind_eq_ok.mp hrun
  cases result with
  | ok createdPdr =>
    cases hrun
    exact .inl ⟨createdPdr, hmodify, rfl⟩
  | error refusal =>
    right
    obtain ⟨⟨cleared, left⟩, hclear, hrun⟩ := Fallible.bind_eq_ok.mp hrun
    cases hrun
    refine ⟨(sessClear_along hclear).2, ?_⟩
    unfold modifySession prepareModification at hmodify
    simp only [Procedure.bind_assoc] at hmodify
    have hrules : Along RuleStep Negative (modifyRules env req) := inferInstance
    rw [← hrules.refused_iff (fun _ => inferInstance) (fun _ _ => inferInstance) hmodify]
    exact not_not.symm

end

/-! ## Establishments -/

section

variable {reasons : Refusal → Prop}

instance (restoration : Bool) (req : SessionEstablishmentRequest) :
    Along RuleStep Negative (establishRules env restoration req) := by
  unfold establishRules
  infer_instance

instance (req : SessionEstablishmentRequest) : Along Write Negative (establishQers req) := by
  unfold establishQers
  infer_instance

instance (restoration : Bool) (created : List Nat) :
    Along Write Negative (restoreTeids restoration created) := by
  unfold restoreTeids restoreTeid
  infer_instance

/-- What a request does to the UPF: the rules of its session go along steps, and the sessions
are the same. -/
structure SessStep (sess : Nat) (st st' : UpfState) : Prop where
  rules : ReflTransGen RuleStep (st.pfcpState sess) (st'.pfcpState sess)
  others : ∀ other, other ≠ sess → st'.rules other = st.rules other
  slots : st'.n4.slots = st.n4.slots

namespace SessStep

variable {st st' : UpfState}

theorem of_reflTransGen (h : ReflTransGen (SessStep sess) st st') : SessStep sess st st' := by
  induction h with
  | refl => exact ⟨.refl, fun _ _ => rfl, rfl⟩
  | tail _ hlast ih =>
    exact ⟨ih.rules.trans hlast.rules,
      fun other hother => (hlast.others other hother).trans (ih.others other hother),
      hlast.slots.trans ih.slots⟩

theorem setPfcpState (st : UpfState) {pfcp : PfcpState}
    (h : ReflTransGen RuleStep (st.pfcpState sess) pfcp) :
    SessStep sess st (st.setPfcpState sess pfcp) where
  rules := by simpa [UpfState.pfcpState, UpfState.setPfcpState] using h
  others other hother := Function.update_of_ne hother _ _
  slots := rfl

end SessStep

instance {α : Type} {x : Handler α} [h : Along RuleStep reasons x] :
    Along (SessStep sess) reasons (N4Procedure.onRules sess x) where
  along st result st' hrun := by
    obtain ⟨⟨_, pfcp⟩, hx, hst⟩ := Fallible.map_eq_ok.mp hrun
    cases hst
    obtain ⟨hsteps, hreasons⟩ := h.along _ _ pfcp hx
    exact ⟨.single (.setPfcpState st hsteps), hreasons⟩

instance (data : Option (List UInt8)) : Along (SessStep sess) Negative (setApnDnn sess data) := by
  have (dnn : List UInt8) : Along (SessStep sess) Negative (.modify fun st =>
      { st with apnDnn := Function.update st.apnDnn sess (some dnn) }) :=
    .modify fun st => .single ⟨.refl, fun _ _ => rfl, rfl⟩
  unfold setApnDnn
  split <;> infer_instance

instance (pdnType : Option UInt8) (pdr : PfcpPdr) :
    Along (SessStep sess) Negative (setUeIp env sess pdnType pdr) := by
  unfold setUeIp
  split
  · infer_instance
  split
  · infer_instance
  · refine ⟨fun st result st' hrun => ?_⟩
    rw [Procedure.get_bind_run] at hrun
    cases hset : st.n4.upfSessSetUeIp env.cfg sess (ueIpCall env _ pdr) with
    | error fault =>
      rw [hset] at hrun
      cases hrun
    | ok outcome =>
      obtain ⟨cause, n4⟩ := outcome
      rw [hset] at hrun
      have hstep : SessStep sess st { st with n4 } :=
        ⟨.refl, fun _ _ => rfl, slots_upfSessSetUeIp hset⟩
      change (if cause ≠ causeRequestAccepted then Procedure.refuse _ else pure () : N4Procedure Unit)
        { st with n4 } = _ at hrun
      split at hrun
      · next hcause =>
        cases hrun
        exact ⟨.single hstep, fun _ h => Except.error.inj h ▸ hcause⟩
      · cases hrun
        exact ⟨.single hstep, nofun⟩

instance (pdnType : Option UInt8) (slot : Nat) :
    Along (SessStep sess) Negative (setUpCreated env sess pdnType slot) := by
  have (pdr : PfcpPdr) : Along (SessStep sess) Negative (.modify fun st =>
      { st with routes := pdrFramedRoutes sess pdr st.routes }) :=
    .modify fun st => .single ⟨.refl, fun _ _ => rfl, rfl⟩
  unfold setUpCreated
  infer_instance

instance (req : SessionEstablishmentRequest) :
    Along (SessStep sess) Negative (establishAll env sess req) := by
  unfold establishAll
  infer_instance

instance (req : SessionEstablishmentRequest) :
    Along (SessStep sess) (fun _ => True) (establish env sess req) := by
  unfold establish prepareEstablishment
  infer_instance

variable {req : SessionEstablishmentRequest} {st st' : UpfState} {answer : N4Answer}

/-- What an establishment of a session that is there does to the UPF. -/
theorem establishment_step
    (hrun : upfN4HandleSessionEstablishmentRequest env (some sess) req st = .ok (answer, st')) :
    SessStep sess st st' := by
  unfold upfN4HandleSessionEstablishmentRequest at hrun
  obtain ⟨⟨result, mid⟩, hestablish, hrun⟩ := Fallible.bind_eq_ok.mp hrun
  have hall : Along (SessStep sess) (fun _ => True) (establish env sess req) := inferInstance
  obtain ⟨hsteps, -⟩ := hall.along st _ mid hestablish
  cases result with
  | ok created =>
    cases hrun
    exact .of_reflTransGen hsteps
  | error refusal =>
    obtain ⟨⟨_, pfcp⟩, hrefuse, hrun⟩ := Fallible.bind_eq_ok.mp hrun
    obtain ⟨⟨_, left⟩, hclear, hrefuse⟩ := Fallible.bind_eq_ok.mp hrefuse
    cases hrefuse
    cases hrun
    exact .of_reflTransGen (hsteps.tail (.setPfcpState mid (sessClear_along hclear).1))

/-- The same of an establishment. -/
theorem establishment_answer
    (hrun : upfN4HandleSessionEstablishmentRequest env (some sess) req st = .ok (answer, st')) :
    (∃ createdPdr, establish env sess req st = .ok (.ok createdPdr, st') ∧
        answer = { seid := (st.n4.sess sess).seid, cause := causeRequestAccepted, createdPdr }) ∨
      (∀ kind, (st'.rules sess).list kind = []) ∧
        (answer.cause = causeRequestAccepted ↔ ∃ created mid refusal mid',
          establishAll env sess req st = .ok (.ok created, mid) ∧
            N4Procedure.onRules sess (setupNodes env) mid = .ok (.error refusal, mid')) := by
  unfold upfN4HandleSessionEstablishmentRequest at hrun
  obtain ⟨⟨result, mid⟩, hestablish, hrun⟩ := Fallible.bind_eq_ok.mp hrun
  cases result with
  | ok createdPdr =>
    cases hrun
    exact .inl ⟨createdPdr, hestablish, rfl⟩
  | error refusal =>
    right
    obtain ⟨⟨_, pfcp⟩, hrefuse, hrun⟩ := Fallible.bind_eq_ok.mp hrun
    obtain ⟨⟨_, left⟩, hclear, hrefuse⟩ := Fallible.bind_eq_ok.mp hrefuse
    cases hrefuse
    cases hrun
    refine ⟨fun kind => ?_, ?_⟩
    · simpa [UpfState.setPfcpState, PfcpState.list] using (sessClear_along hclear).2 kind
    · unfold establish prepareEstablishment at hestablish
      simp only [Procedure.bind_assoc] at hestablish
      have hrules : Along (SessStep sess) Negative (establishAll env sess req) := inferInstance
      rw [← hrules.refused_iff (fun _ => inferInstance) (fun _ _ => inferInstance) hestablish]
      exact not_not.symm

end

end Quicup.Open5gs
