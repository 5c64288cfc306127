import Quicup.Core.System
import Quicup.Ueransim.Nas.SessionManagement

/-!
# Procedures and sessions

Whether the table of transactions and that of sessions say the same. A release leaves its session
as it is until it is answered, and an answer is not asked what it answers: so a session may be
released twice, and a transaction may outlive its session.
-/

namespace Quicup.Ueransim

open Function

inductive SmEvent
  | establishmentRequest (mm : MmStatus) (config : SessionConfig)
  | releaseRequest (mm : MmStatus) (psi : Nat)
  | receive (mm : MmStatus) (msg : SmMessage)
  | timerExpire (pti : Nat)
  | forwardingFailure (messageType : SmMessageType) (pti psi : Nat)
  | localRelease (psi : Nat)

namespace SmMessage

def pti : SmMessage → Nat
  | establishmentAccept pti _ _ _ _ _ _ => pti
  | establishmentReject pti _ _ => pti
  | releaseReject pti _ _ => pti
  | releaseCommand pti _ _ => pti
  | smStatus pti _ _ => pti
  | other _ pti _ => pti

def psi : SmMessage → Nat
  | establishmentAccept _ psi _ _ _ _ _ => psi
  | establishmentReject _ psi _ => psi
  | releaseReject _ psi _ => psi
  | releaseCommand _ psi _ => psi
  | smStatus _ psi _ => psi
  | other _ _ psi => psi

end SmMessage

namespace NasSm

variable (sm : NasSm)

def handle : SmEvent → NasSm × List SmOutput
  | .establishmentRequest mm config => sm.sendEstablishmentRequest mm config
  | .releaseRequest mm psi => sm.sendReleaseRequest mm psi
  | .receive mm msg => sm.receiveSmMessage mm msg
  | .timerExpire pti => sm.onTransactionTimerExpire pti
  | .forwardingFailure _ pti psi => sm.receiveForwardingFailure pti psi
  | .localRelease psi => sm.localReleaseSession psi

/-- The identities are those of the tables, and what is released locally is established. -/
def Valid : SmEvent → Prop
  | .establishmentRequest _ _ => True
  | .releaseRequest _ psi => psi ≤ 15
  | .receive _ msg => msg.pti ≤ 254 ∧ msg.psi ≤ 15
  | .timerExpire pti => pti ≤ 254
  | .forwardingFailure _ pti psi => pti ≤ 254 ∧ psi ≤ 15
  | .localRelease psi => psi ≤ 15 ∧ (sm.pduSessions psi).psState.isEstablished = true

def Pending (pti : Nat) : Prop := (sm.procedureTransactions pti).state = .pending

instance (pti : Nat) : Decidable (sm.Pending pti) :=
  inferInstanceAs (Decidable ((sm.procedureTransactions pti).state = .pending))

/-- The type of the request that a transaction keeps. -/
def kind (pti : Nat) : Option SmMessageType :=
  (sm.procedureTransactions pti).message.map SmRequest.messageType

/-- The session of a transaction. -/
def psiOf (pti : Nat) : Nat := (sm.procedureTransactions pti).psi

def psState (psi : Nat) : EPsState := (sm.pduSessions psi).psState

/-- What `sendReleaseRequest` asks for before it starts a release. -/
def StartsRelease (mm : MmStatus) (psi : Nat) : Prop :=
  ¬ (mm.nonAllowedService ∧ ¬ mm.hasEmergency ∧ ¬ mm.highPriority) ∧ sm.psState psi = .active ∧
    sm.allocateProcedureTransactionId ≠ none

/-- The transactions that an event may end. A message answers requests of one kind, and a status
message a procedure of any kind, by its transaction or its session. -/
def Answers (pti : Nat) : SmEvent → Prop
  | .receive _ (.establishmentAccept id _ _ _ _ _ _) =>
    id = pti ∧ sm.kind pti = some .pduSessionEstablishmentRequest
  | .receive _ (.establishmentReject id _ _) =>
    id = pti ∧ sm.kind pti = some .pduSessionEstablishmentRequest
  | .receive _ (.releaseReject id _ _) =>
    id = pti ∧ sm.kind pti = some .pduSessionReleaseRequest
  | .receive _ (.releaseCommand id _ _) =>
    id = pti ∧ sm.kind pti = some .pduSessionReleaseRequest
  | .receive _ (.smStatus id psi cause) =>
    id = pti ∨ cause = .messageTypeNonExistentOrNotImplemented ∧ sm.psiOf pti = psi
  | .receive _ (.other _ _ _) => False
  | .forwardingFailure messageType id _ => id = pti ∧ sm.kind pti = some messageType
  | _ => True

/-- The sessions that an event may change: those of the transactions that it answers, or the one
that a message names which names no pending transaction. -/
def Concerns (psi : Nat) (event : SmEvent) : Prop :=
  (∃ pti, sm.Pending pti ∧ sm.psiOf pti = psi ∧ sm.Answers pti event) ∨
    match event with
    | .receive _ msg => ¬ sm.Pending msg.pti ∧ msg.psi = psi
    | .forwardingFailure _ pti id => ¬ sm.Pending pti ∧ id = psi
    | _ => True

end NasSm

/-- The tables, how often a session was asked for under each identity, and for which one of them a
transaction was started. -/
structure SmHistory where
  sm : NasSm := {}
  generation : Nat → Nat := fun _ => 0
  startedFor : Nat → Nat := fun _ => 0

namespace SmHistory

variable (s : SmHistory)

/-- The counts behind a change of the tables. -/
def observe (after : NasSm) : SmHistory :=
  let generation psi := if s.sm.psState psi ≠ .activePending ∧ after.psState psi = .activePending
    then s.generation psi + 1 else s.generation psi
  { sm := after
    generation
    startedFor pti := if (s.sm.procedureTransactions pti).state ≠ .pending ∧
        (after.procedureTransactions pti).state = .pending
      then generation (after.psiOf pti) else s.startedFor pti }

def next (event : SmEvent) : SmHistory := s.observe (s.sm.handle event).1

/-- Session management from its start on. -/
def system : System SmHistory SmEvent where
  init s := s = {}
  step s event t := s.sm.Valid event ∧ t = s.next event

/-- The tables agree. -/
structure Agree : Prop where
  single : ∀ pti pti', s.sm.Pending pti → s.sm.Pending pti' →
    s.sm.psiOf pti = s.sm.psiOf pti' → pti = pti'
  establishing : ∀ psi, (∃ pti, s.sm.Pending pti ∧ s.sm.psiOf pti = psi ∧
    s.sm.kind pti = some .pduSessionEstablishmentRequest) ↔ s.sm.psState psi = .activePending
  releasing : ∀ pti, s.sm.Pending pti → s.sm.kind pti = some .pduSessionReleaseRequest →
    (s.sm.psState (s.sm.psiOf pti)).isEstablished = true ∧
      s.startedFor pti = s.generation (s.sm.psiOf pti)

/-- What is demanded of a turn: the tables agree, and only what is answered has changed. -/
structure Lawful (event : SmEvent) (t : SmHistory) : Prop where
  agree : t.Agree
  freed : ∀ pti, s.sm.Pending pti →
    t.sm.procedureTransactions pti ≠ s.sm.procedureTransactions pti → s.sm.Answers pti event
  changed : ∀ psi, s.sm.psState psi ≠ .inactive → t.sm.pduSessions psi ≠ s.sm.pduSessions psi →
    s.sm.Concerns psi event

/-- A release is asked for once, a session is released when nothing else is pending for it, and
what is answered is a request of the kind that the answer is for. -/
def Orderly : SmEvent → Prop
  | .releaseRequest mm psi =>
    s.sm.StartsRelease mm psi → ∀ pti, s.sm.Pending pti → s.sm.psiOf pti ≠ psi
  | .receive _ (.establishmentAccept pti psi _ _ _ _ _) =>
    s.sm.Pending pti → s.sm.psiOf pti = psi →
      s.sm.kind pti = some .pduSessionEstablishmentRequest
  | .receive _ (.establishmentReject pti psi _) =>
    s.sm.Pending pti → s.sm.psiOf pti = psi →
      s.sm.kind pti = some .pduSessionEstablishmentRequest
  | .receive _ (.releaseReject pti psi _) =>
    s.sm.Pending pti → s.sm.psiOf pti = psi → s.sm.kind pti = some .pduSessionReleaseRequest
  | .receive _ (.releaseCommand pti psi _) =>
    s.sm.psState psi = .active → (s.sm.Pending pti → s.sm.psiOf pti = psi) ∧
      ∀ id, s.sm.Pending id → s.sm.psiOf id = psi → id = pti
  | .forwardingFailure messageType pti psi =>
    s.sm.Pending pti → s.sm.psiOf pti = psi → s.sm.kind pti = some messageType
  | .localRelease psi => ∀ pti, s.sm.Pending pti → s.sm.psiOf pti ≠ psi
  | _ => True

end SmHistory

/-! ## Single changes -/

namespace NasSm

variable {sm after : NasSm} {generation startedFor : Nat → Nat} {pti psi id : Nat}
  {pt : ProcedureTransaction} {session : PduSession} {state : EPsState}

/-- The tables with one entry of each written. -/
def put (sm : NasSm) (pti psi : Nat) (pt : ProcedureTransaction) (session : PduSession) :
    NasSm where
  pduSessions := update sm.pduSessions psi session
  procedureTransactions := update sm.procedureTransactions pti pt

/-- What is kept: each pending transaction belongs to a session of its own, whose state is that of
the procedure. -/
structure Kept (sm : NasSm) (generation startedFor : Nat → Nat) : Prop where
  idle : ∀ pti, ¬ sm.Pending pti → sm.procedureTransactions pti = {}
  pending : ∀ pti, sm.Pending pti → (1 ≤ pti ∧ pti ≤ 254) ∧ (1 ≤ sm.psiOf pti) ∧
    (sm.kind pti = some .pduSessionEstablishmentRequest ∧
        sm.psState (sm.psiOf pti) = .activePending ∨
      sm.kind pti = some .pduSessionReleaseRequest ∧ sm.psState (sm.psiOf pti) = .active ∧
        startedFor pti = generation (sm.psiOf pti))
  single : ∀ pti pti', sm.Pending pti → sm.Pending pti' → sm.psiOf pti = sm.psiOf pti' → pti = pti'
  waits : ∀ psi, sm.psState psi = .activePending → ∃ pti, sm.Pending pti ∧ sm.psiOf pti = psi
  states : ∀ psi, sm.psState psi = .inactive ∨ sm.psState psi = .activePending ∨
    sm.psState psi = .active
  outside : sm.psState 0 = .inactive

theorem Kept.create : Kept {} generation startedFor where
  idle _ _ := rfl
  pending _ hpending := EPtState.noConfusion hpending
  single _ _ hpending := EPtState.noConfusion hpending
  waits _ hstate := EPsState.noConfusion hstate
  states _ := .inl rfl
  outside := rfl

theorem Kept.kind_of_active (h : sm.Kept generation startedFor) (hpending : sm.Pending pti)
    (hactive : sm.psState (sm.psiOf pti) = .active) :
    sm.kind pti = some .pduSessionReleaseRequest := by
  rcases (h.pending pti hpending).2.2 with ⟨-, hstate⟩ | ⟨hkind, -⟩
  · rw [hactive] at hstate
    cases hstate
  · exact hkind

@[simp] theorem put_pt_self : (sm.put pti psi pt session).procedureTransactions pti = pt :=
  update_self ..

@[simp] theorem put_session_self : (sm.put pti psi pt session).pduSessions psi = session :=
  update_self ..

theorem put_pt_of_ne (hne : id ≠ pti) :
    (sm.put pti psi pt session).procedureTransactions id = sm.procedureTransactions id :=
  update_of_ne hne ..

theorem put_session_of_ne (hne : id ≠ psi) :
    (sm.put pti psi pt session).pduSessions id = sm.pduSessions id :=
  update_of_ne hne ..

/-- A written entry fits: nothing is pending for the session, an establishment is, or a release of
an established session that the counts know. -/
def Fits (generation startedFor : Nat → Nat) (pti psi : Nat) (pt : ProcedureTransaction)
    (session : PduSession) : Prop :=
  (pt = {} ∧ (session.psState = .inactive ∨ session.psState = .active)) ∨
    (pt.state = .pending ∧ pt.psi = psi ∧ (1 ≤ pti ∧ pti ≤ 254) ∧
      (pt.message.map SmRequest.messageType = some .pduSessionEstablishmentRequest ∧
          session.psState = .activePending ∨
        pt.message.map SmRequest.messageType = some .pduSessionReleaseRequest ∧
          session.psState = .active ∧ startedFor pti = generation psi))

/-- A transaction and its session are written together. -/
theorem Kept.put (h : sm.Kept generation startedFor) {generation' startedFor' : Nat → Nat}
    (hpsi : 1 ≤ psi) (hown : ∀ id, sm.Pending id → (sm.psiOf id = psi ↔ id = pti))
    (hfits : Fits generation' startedFor' pti psi pt session)
    (hcounts : ∀ id, id ≠ pti → sm.Pending id → startedFor' id = startedFor id ∧
      generation' (sm.psiOf id) = generation (sm.psiOf id)) :
    (sm.put pti psi pt session).Kept generation' startedFor' := by
  have hother {id : Nat} (hne : id ≠ pti) :
      ((sm.put pti psi pt session).Pending id ↔ sm.Pending id) ∧
      (sm.put pti psi pt session).psiOf id = sm.psiOf id ∧
      (sm.put pti psi pt session).kind id = sm.kind id := by
    rw [Pending, psiOf, kind, put_pt_of_ne hne]
    exact ⟨Iff.rfl, rfl, rfl⟩
  have hpsiOf {id : Nat} (hne : id ≠ pti) (hpending : sm.Pending id) : sm.psiOf id ≠ psi :=
    fun heq => hne ((hown id hpending).mp heq)
  have hself (hpending : (sm.put pti psi pt session).Pending pti) :
      pt.psi = psi ∧ (1 ≤ pti ∧ pti ≤ 254) ∧
        (pt.message.map SmRequest.messageType = some .pduSessionEstablishmentRequest ∧
            session.psState = .activePending ∨
          pt.message.map SmRequest.messageType = some .pduSessionReleaseRequest ∧
            session.psState = .active ∧ startedFor' pti = generation' psi) := by
    rw [Pending, put_pt_self] at hpending
    rcases hfits with ⟨rfl, -⟩ | ⟨-, hrest⟩
    · cases hpending
    · exact hrest
  have hselfPsi : (sm.put pti psi pt session).psiOf pti = pt.psi := by rw [psiOf, put_pt_self]
  have hselfKind : (sm.put pti psi pt session).kind pti =
      pt.message.map SmRequest.messageType := by rw [kind, put_pt_self]
  have hselfState : (sm.put pti psi pt session).psState psi = session.psState := by
    rw [psState, put_session_self]
  have hstate {id : Nat} (hne : id ≠ psi) :
      (sm.put pti psi pt session).psState id = sm.psState id := by
    rw [psState, put_session_of_ne hne, psState]
  refine ⟨fun id hidle => ?_, fun id hpending => ?_, fun id id' hid hid' heq => ?_,
    fun id hwaits => ?_, fun id => ?_, ?_⟩
  · by_cases hne : id = pti
    · subst hne
      rw [Pending, put_pt_self] at hidle
      rw [put_pt_self]
      rcases hfits with ⟨hpt, -⟩ | ⟨hpending, -⟩
      · exact hpt
      · exact absurd hpending hidle
    · rw [put_pt_of_ne hne]
      exact h.idle id fun hpending => hidle ((hother hne).1.mpr hpending)
  · by_cases hne : id = pti
    · subst hne
      obtain ⟨hptPsi, hrange, hkind⟩ := hself hpending
      rw [hselfPsi, hselfKind, hptPsi, hselfState]
      exact ⟨hrange, hpsi, hkind⟩
    · obtain ⟨hiff, hid, hkind⟩ := hother hne
      have hbefore := hiff.mp hpending
      obtain ⟨hstarted, hgeneration⟩ := hcounts id hne hbefore
      rw [hid, hkind, hstate (hpsiOf hne hbefore), hstarted, hgeneration]
      exact h.pending id hbefore
  · by_cases hne : id = pti <;> by_cases hne' : id' = pti
    · rw [hne, hne']
    · subst hne
      obtain ⟨hiff, hid'', -⟩ := hother hne'
      rw [hselfPsi, (hself hid).1, hid''] at heq
      exact absurd heq.symm (hpsiOf hne' (hiff.mp hid'))
    · subst hne'
      obtain ⟨hiff, hid'', -⟩ := hother hne
      rw [hselfPsi, (hself hid').1, hid''] at heq
      exact absurd heq (hpsiOf hne (hiff.mp hid))
    · obtain ⟨hiff, hpsi', -⟩ := hother hne
      obtain ⟨hiff', hpsi'', -⟩ := hother hne'
      rw [hpsi', hpsi''] at heq
      exact h.single id id' (hiff.mp hid) (hiff'.mp hid') heq
  · by_cases hne : id = psi
    · subst hne
      rw [hselfState] at hwaits
      rcases hfits with ⟨-, hinactive | hactive⟩ | ⟨hpending, hptPsi, -⟩
      · rw [hinactive] at hwaits
        cases hwaits
      · rw [hactive] at hwaits
        cases hwaits
      · exact ⟨pti, by rw [Pending, put_pt_self, hpending], hselfPsi.trans hptPsi⟩
    · rw [hstate hne] at hwaits
      obtain ⟨id', hpending, hid'⟩ := h.waits id hwaits
      have hne' : id' ≠ pti := fun heq => hne (hid'.symm.trans ((hown id' hpending).mpr heq))
      obtain ⟨hiff, hpsi', -⟩ := hother hne'
      exact ⟨id', hiff.mpr hpending, hpsi'.trans hid'⟩
  · by_cases hne : id = psi
    · rw [hne, hselfState]
      rcases hfits with ⟨-, hstates⟩ | ⟨-, -, -, ⟨-, hstates⟩ | ⟨-, hstates, -⟩⟩
      · exact hstates.imp_right .inr
      · exact .inr (.inl hstates)
      · exact .inr (.inr hstates)
    · rw [hstate hne]
      exact h.states id
  · rw [hstate (Nat.ne_of_lt hpsi)]
    exact h.outside

/-- An inactive session has no transaction. -/
theorem Kept.psiOf_ne (h : sm.Kept generation startedFor) (hinactive : sm.psState psi = .inactive)
    (hpending : sm.Pending pti) : sm.psiOf pti ≠ psi := by
  rintro rfl
  rcases (h.pending pti hpending).2.2 with ⟨-, hstate⟩ | ⟨-, hstate, -⟩ <;>
    · rw [hinactive] at hstate
      cases hstate

/-! ## The handlers -/

theorem setPsState_self (h : sm.psState psi = state) : sm.setPsState psi state = sm := by
  have hsession : { sm.pduSessions psi with psState := state } = sm.pduSessions psi := by
    rw [← h]
    rfl
  rw [setPsState, hsession, update_eq_self]

theorem freeProcedureTransactionId_self (h : sm.procedureTransactions pti = {}) :
    sm.freeProcedureTransactionId pti = sm := by
  rw [freeProcedureTransactionId, ← h, update_eq_self]

@[simp] theorem pduSessions_free (sm : NasSm) (pti : Nat) :
    (sm.freeProcedureTransactionId pti).pduSessions = sm.pduSessions := rfl

/-- A transaction that is freed alone. -/
theorem freeProcedureTransactionId_eq (sm : NasSm) (pti psi : Nat) :
    sm.freeProcedureTransactionId pti = sm.put pti psi {} (sm.pduSessions psi) := by
  rw [put, update_eq_self]
  rfl

/-- A session that is released alone. -/
theorem freePduSessionId_eq (h : sm.procedureTransactions pti = {}) :
    sm.freePduSessionId psi =
      sm.put pti psi {} { sm.pduSessions psi with psState := .inactive } := by
  rw [put, ← h, update_eq_self]
  rfl

theorem of_allocatePduSessionId {config : SessionConfig}
    (h : sm.allocatePduSessionId config = some psi) : 1 ≤ psi ∧ sm.psState psi = .inactive := by
  unfold allocatePduSessionId at h
  split at h
  · cases h
  · have hmem := List.mem_of_find?_eq_some h
    have hstate := List.find?_some h
    exact ⟨(List.mem_range'_1.mp hmem).1, of_decide_eq_true hstate⟩

theorem of_allocateProcedureTransactionId (h : sm.allocateProcedureTransactionId = some pti) :
    (1 ≤ pti ∧ pti ≤ 254) ∧ ¬ sm.Pending pti := by
  unfold allocateProcedureTransactionId at h
  have hrange := List.mem_range'_1.mp (List.mem_of_find?_eq_some h)
  have hfound := List.find?_some h
  have hstate : (sm.procedureTransactions pti).state = .inactive := of_decide_eq_true hfound
  refine ⟨⟨hrange.1, by omega⟩, fun hpending => ?_⟩
  rw [Pending, hstate] at hpending
  cases hpending

/-- What a request for a session does: nothing, or a pending establishment of an inactive one. -/
theorem sendEstablishmentRequest_cases (sm : NasSm) (mm : MmStatus) (config : SessionConfig) :
    (sm.sendEstablishmentRequest mm config).1 = sm ∨ ∃ pti psi pt session,
      (sm.sendEstablishmentRequest mm config).1 = sm.put pti psi pt session ∧
      (1 ≤ pti ∧ pti ≤ 254) ∧ ¬ sm.Pending pti ∧ 1 ≤ psi ∧ sm.psState psi = .inactive ∧
      pt.state = .pending ∧ pt.psi = psi ∧ session.psState = .activePending ∧
      pt.message.map SmRequest.messageType = some .pduSessionEstablishmentRequest := by
  unfold sendEstablishmentRequest
  split
  · exact .inl rfl
  split
  · exact .inl rfl
  split
  · exact .inl rfl
  split
  · exact .inl rfl
  split
  · exact .inl rfl
  split
  · exact .inl rfl
  · next psi hpsi =>
    obtain ⟨hpos, hinactive⟩ := of_allocatePduSessionId hpsi
    split
    · exact .inl (setPsState_self hinactive)
    · next pti hpti =>
      obtain ⟨hrange, hidle⟩ := of_allocateProcedureTransactionId hpti
      exact .inr ⟨pti, psi, _, _, rfl, hrange, hidle, hpos, hinactive, rfl, rfl, rfl, rfl⟩

/-- What a request for a release does: nothing, or a pending release of an active session. -/
theorem sendReleaseRequest_cases (sm : NasSm) (mm : MmStatus) (psi : Nat) :
    (¬ sm.StartsRelease mm psi ∧ (sm.sendReleaseRequest mm psi).1 = sm) ∨
    (sm.StartsRelease mm psi ∧ ∃ pti pt,
      (sm.sendReleaseRequest mm psi).1 = sm.put pti psi pt (sm.pduSessions psi) ∧
      (1 ≤ pti ∧ pti ≤ 254) ∧ ¬ sm.Pending pti ∧ pt.state = .pending ∧ pt.psi = psi ∧
      pt.message.map SmRequest.messageType = some .pduSessionReleaseRequest) := by
  unfold sendReleaseRequest
  split
  · next hrefused => exact .inl ⟨fun h => h.1 hrefused, rfl⟩
  next hallowed =>
  split
  · next hactive => exact .inl ⟨fun h => hactive h.2.1, rfl⟩
  next hactive =>
  split
  · next hnone => exact .inl ⟨fun h => h.2.2 hnone, rfl⟩
  · next pti hpti =>
    obtain ⟨hrange, hidle⟩ := of_allocateProcedureTransactionId hpti
    let pt : ProcedureTransaction :=
      { state := .pending
        timer := some { code := 3582 }
        message := some ⟨.pduSessionReleaseRequest, pti, psi⟩
        psi }
    have hsome : sm.allocateProcedureTransactionId ≠ none := by
      rw [hpti]
      exact Option.some_ne_none _
    refine .inr ⟨⟨hallowed, not_not.mp hactive, hsome⟩, pti, pt, ?_, hrange, hidle, rfl, rfl, rfl⟩
    rw [put, update_eq_self]
    rfl

/-- A procedure that is aborted takes its session with it. -/
theorem Kept.abort_of_pending (h : sm.Kept generation startedFor) (hpending : sm.Pending pti) :
    (sm.abortProcedureByPti pti).1 = sm.put pti (sm.psiOf pti) {}
      { sm.pduSessions (sm.psiOf pti) with psState := .inactive } := by
  have hkind := (h.pending pti hpending).2.2
  have hstate : (sm.procedureTransactions pti).state = .pending := hpending
  rw [abortProcedureByPti, if_neg (not_not.mpr hstate)]
  unfold kind at hkind
  cases hmessage : (sm.procedureTransactions pti).message with
  | none => simp [hmessage] at hkind
  | some msg =>
    rw [hmessage] at hkind
    rcases hkind with ⟨hkind, -⟩ | ⟨hkind, -⟩
    · simp only [Option.some.inj hkind, if_pos]
      rfl
    · simp only [Option.some.inj hkind, if_pos, localReleaseSession]
      rfl

theorem abort_of_not_pending (hidle : ¬ sm.Pending pti) : (sm.abortProcedureByPti pti).1 = sm := by
  have hstate : (sm.procedureTransactions pti).state ≠ .pending := hidle
  rw [abortProcedureByPti, if_pos hstate]

theorem check_iff : sm.checkPtiAndPsi pti psi = true ↔
    (1 ≤ pti ∧ pti ≤ 254) ∧ sm.psiOf pti = psi := by
  rw [checkPtiAndPsi, decide_eq_true_iff, and_assoc]
  exact Iff.rfl

/-- A message that finds its transaction ends it, and leaves the session in some state. -/
structure Closes (sm : NasSm) (pti psi : Nat) (good : EPsState → Prop) (after : NasSm) : Prop where
  unanswered : ¬ (sm.Pending pti ∧ sm.psiOf pti = psi) → after = sm
  answered : sm.Pending pti → sm.psiOf pti = psi →
    ∃ session, after = sm.put pti psi {} session ∧ good session.psState

/-- Without a pending transaction the check leaves the session 0 alone. -/
theorem Kept.psi_of_check (h : sm.Kept generation startedFor)
    (hnot : ¬ (sm.Pending pti ∧ sm.psiOf pti = psi)) (hcheck : sm.checkPtiAndPsi pti psi = true) :
    sm.procedureTransactions pti = {} ∧ psi = 0 := by
  obtain ⟨-, hpsi⟩ := check_iff.mp hcheck
  have hidle := h.idle pti fun hpending => hnot ⟨hpending, hpsi⟩
  refine ⟨hidle, ?_⟩
  rw [← hpsi, psiOf, hidle]

theorem Kept.check_of_pending (h : sm.Kept generation startedFor) (hpending : sm.Pending pti)
    (hpsi : sm.psiOf pti = psi) : sm.checkPtiAndPsi pti psi = true :=
  check_iff.mpr ⟨(h.pending pti hpending).1, hpsi⟩

/-- The state of a session whose transaction is pending. -/
theorem Kept.active_of_ne (h : sm.Kept generation startedFor) (hpending : sm.Pending pti)
    (hne : sm.psState (sm.psiOf pti) ≠ .activePending) :
    sm.psState (sm.psiOf pti) = .active := by
  rcases (h.pending pti hpending).2.2 with ⟨-, hstate⟩ | ⟨-, hstate, -⟩
  · exact absurd hstate hne
  · exact hstate

/-- The states in which a session has no pending transaction. -/
def Settled (state : EPsState) : Prop := state = .inactive ∨ state = .active

theorem Kept.closes_accept (h : sm.Kept generation startedFor) (pti psi : Nat)
    (selectedType : UInt8) (qosRules sessionAmbr : List UInt8)
    (qosFlows pduAddress : Option (List UInt8)) :
    sm.Closes pti psi Settled (sm.receiveEstablishmentAccept pti psi selectedType qosRules
      sessionAmbr qosFlows pduAddress).1 := by
  constructor
  · intro hnot
    by_cases hcheck : sm.checkPtiAndPsi pti psi = true
    · obtain ⟨hidle, rfl⟩ := h.psi_of_check hnot hcheck
      have hstate : (sm.pduSessions 0).psState ≠ .activePending := by
        rw [show (sm.pduSessions 0).psState = .inactive from h.outside]
        exact EPsState.noConfusion
      simp only [receiveEstablishmentAccept, hcheck, not_true_eq_false, if_false,
        freeProcedureTransactionId_self hidle, if_pos hstate]
    · simp [receiveEstablishmentAccept, hcheck]
  · rintro hpending rfl
    have hcheck := h.check_of_pending hpending rfl
    rw [receiveEstablishmentAccept, if_neg (not_not.mpr hcheck)]
    simp only [pduSessions_free]
    by_cases hstate : (sm.pduSessions (sm.psiOf pti)).psState = .activePending
    · simp only [hstate, ne_eq, not_true_eq_false, if_false]
      exact ⟨_, rfl, .inr rfl⟩
    · simp only [ne_eq, hstate, not_false_eq_true, if_true]
      exact ⟨_, freeProcedureTransactionId_eq .., .inr (h.active_of_ne hpending hstate)⟩

theorem Kept.closes_reject (h : sm.Kept generation startedFor) (pti psi : Nat) :
    sm.Closes pti psi Settled (sm.receiveEstablishmentReject pti psi).1 := by
  constructor
  · intro hnot
    by_cases hcheck : sm.checkPtiAndPsi pti psi = true
    · obtain ⟨hidle, rfl⟩ := h.psi_of_check hnot hcheck
      have hstate : (sm.pduSessions 0).psState ≠ .activePending := by
        rw [show (sm.pduSessions 0).psState = .inactive from h.outside]
        exact EPsState.noConfusion
      simp only [receiveEstablishmentReject, hcheck, not_true_eq_false, if_false,
        freeProcedureTransactionId_self hidle, if_pos hstate]
    · simp [receiveEstablishmentReject, hcheck]
  · rintro hpending rfl
    have hcheck := h.check_of_pending hpending rfl
    rw [receiveEstablishmentReject, if_neg (not_not.mpr hcheck)]
    simp only [pduSessions_free]
    by_cases hstate : (sm.pduSessions (sm.psiOf pti)).psState = .activePending
    · simp only [hstate, ne_eq, not_true_eq_false, if_false]
      exact ⟨_, rfl, .inl rfl⟩
    · simp only [ne_eq, hstate, not_false_eq_true, if_true]
      exact ⟨_, freeProcedureTransactionId_eq .., .inr (h.active_of_ne hpending hstate)⟩

/-- A rejected release leaves the session as it is, or releases it. -/
theorem Kept.closes_releaseReject (h : sm.Kept generation startedFor) (pti psi : Nat)
    (cause : ESmCause) : sm.Closes pti psi (fun state => state = .inactive ∨ state = sm.psState psi)
      (sm.receiveReleaseReject pti psi cause).1 := by
  have hstate (psi : Nat) : (sm.pduSessions psi).psState ≠ .inactivePending := by
    intro hpending
    rcases h.states psi with hstate | hstate | hstate <;>
      · rw [psState, hpending] at hstate
        cases hstate
  constructor
  · intro hnot
    by_cases hcheck : sm.checkPtiAndPsi pti psi = true
    · obtain ⟨hidle, rfl⟩ := h.psi_of_check hnot hcheck
      rw [receiveReleaseReject, if_neg (not_not.mpr hcheck)]
      dsimp only
      rw [freeProcedureTransactionId_self hidle]
      split
      · rw [if_pos (hstate 0)]
      · exact setPsState_self h.outside
    · simp [receiveReleaseReject, hcheck]
  · rintro hpending rfl
    have hcheck := h.check_of_pending hpending rfl
    rw [receiveReleaseReject, if_neg (not_not.mpr hcheck)]
    simp only [pduSessions_free]
    split
    · simp only [ne_eq, hstate, not_false_eq_true, if_true]
      exact ⟨_, freeProcedureTransactionId_eq .., .inr rfl⟩
    · exact ⟨_, rfl, .inl rfl⟩

theorem Kept.closes_forwardingFailure (h : sm.Kept generation startedFor) (pti psi : Nat) :
    sm.Closes pti psi Settled (sm.receiveForwardingFailure pti psi).1 := by
  constructor
  · intro hnot
    by_cases hcheck : sm.checkPtiAndPsi pti psi = true
    · have hidle : ¬ sm.Pending pti :=
        fun hpending => hnot ⟨hpending, (check_iff.mp hcheck).2⟩
      rw [receiveForwardingFailure, if_neg (not_not.mpr hcheck), abort_of_not_pending hidle]
    · simp [receiveForwardingFailure, hcheck]
  · rintro hpending rfl
    have hcheck := h.check_of_pending hpending rfl
    rw [receiveForwardingFailure, if_neg (not_not.mpr hcheck), h.abort_of_pending hpending]
    exact ⟨_, rfl, .inl rfl⟩

/-- Some pending transactions have ended, and the sessions of these may have changed. -/
structure Shrinks (sm : NasSm) (ends : Nat → Prop) (after : NasSm) : Prop where
  transactions : ∀ pti, after.procedureTransactions pti = sm.procedureTransactions pti ∨
    sm.Pending pti ∧ ends pti ∧ after.procedureTransactions pti = {}
  sessions : ∀ psi, after.pduSessions psi = sm.pduSessions psi ∨
    (∃ pti, sm.Pending pti ∧ ends pti ∧ sm.psiOf pti = psi) ∧ after.psState psi ≠ .activePending

theorem Shrinks.refl (sm : NasSm) (ends : Nat → Prop) : sm.Shrinks ends sm :=
  ⟨fun _ => .inl rfl, fun _ => .inl rfl⟩

theorem Shrinks.pending {ends : Nat → Prop} (h : sm.Shrinks ends after)
    (hpending : after.Pending pti) : sm.Pending pti := by
  rcases h.transactions pti with hsame | ⟨hbefore, -, -⟩
  · rwa [Pending, hsame] at hpending
  · exact hbefore

theorem Shrinks.activePending {ends : Nat → Prop} (h : sm.Shrinks ends after)
    (hstate : after.psState psi = .activePending) : sm.psState psi = .activePending := by
  rcases h.sessions psi with hsame | ⟨-, hne⟩
  · rwa [psState, hsame] at hstate
  · exact absurd hstate hne

theorem Shrinks.trans {behind : NasSm} {ends : Nat → Prop} (h : sm.Shrinks ends after)
    (h' : after.Shrinks ends behind) : sm.Shrinks ends behind := by
  have hbefore {id : Nat} (hpending : after.Pending id) :
      sm.Pending id ∧ after.psiOf id = sm.psiOf id := by
    rcases h.transactions id with hsame | ⟨-, -, hfreed⟩
    · rw [Pending, hsame] at hpending
      rw [psiOf, hsame]
      exact ⟨hpending, rfl⟩
    · rw [Pending, hfreed] at hpending
      cases hpending
  constructor
  · intro id
    rcases h'.transactions id with hsame | ⟨hpending, hends, hfreed⟩
    · rw [hsame]
      exact h.transactions id
    · exact .inr ⟨(hbefore hpending).1, hends, hfreed⟩
  · intro id
    rcases h'.sessions id with hsame | ⟨⟨pti, hpending, hends, hpsi⟩, hstate⟩
    · rw [psState, hsame]
      exact h.sessions id
    · exact .inr ⟨⟨pti, (hbefore hpending).1, hends, (hbefore hpending).2.symm.trans hpsi⟩, hstate⟩

theorem shrinks_put {ends : Nat → Prop} (hpending : sm.Pending pti) (hends : ends pti)
    (hpsi : sm.psiOf pti = psi) (hstate : session.psState ≠ .activePending) :
    sm.Shrinks ends (sm.put pti psi {} session) := by
  constructor
  · intro id
    by_cases hne : id = pti
    · subst hne
      exact .inr ⟨hpending, hends, put_pt_self⟩
    · exact .inl (put_pt_of_ne hne)
  · intro id
    by_cases hne : id = psi
    · subst hne
      refine .inr ⟨⟨pti, hpending, hends, hpsi⟩, ?_⟩
      rw [psState, put_session_self]
      exact hstate
    · exact .inl (put_session_of_ne hne)

/-- A pending transaction ends, and its session settles. -/
theorem Kept.settle (h : sm.Kept generation startedFor) (hpending : sm.Pending pti)
    (hsettled : Settled session.psState) :
    (sm.put pti (sm.psiOf pti) {} session).Kept generation startedFor := by
  refine h.put (h.pending pti hpending).2.1 (fun id hid => ?_) (.inl ⟨rfl, hsettled⟩)
    fun _ _ _ => ⟨rfl, rfl⟩
  exact ⟨h.single id pti hid hpending, fun heq => heq ▸ rfl⟩

theorem Settled.ne (h : Settled state) : state ≠ .activePending := by
  rcases h with rfl | rfl <;> exact EPsState.noConfusion

theorem Kept.abort (h : sm.Kept generation startedFor) {ends : Nat → Prop} (hends : ends pti) :
    (sm.abortProcedureByPti pti).1.Kept generation startedFor ∧
      sm.Shrinks ends (sm.abortProcedureByPti pti).1 := by
  by_cases hpending : sm.Pending pti
  · rw [h.abort_of_pending hpending]
    exact ⟨h.settle hpending (.inl rfl),
      shrinks_put hpending hends rfl (Settled.ne (.inl rfl))⟩
  · rw [abort_of_not_pending hpending]
    exact ⟨h, .refl sm ends⟩

theorem Kept.abortAll (h : sm.Kept generation startedFor) {ends : Nat → Prop} {ids : List Nat}
    (hends : ∀ id ∈ ids, ends id) :
    (sm.abortAll ids).1.Kept generation startedFor ∧ sm.Shrinks ends (sm.abortAll ids).1 := by
  induction ids generalizing sm with
  | nil => exact ⟨h, .refl sm ends⟩
  | cons id ids ih =>
    obtain ⟨hid, hids⟩ := List.forall_mem_cons.mp hends
    obtain ⟨hkept, hshrinks⟩ := h.abort hid
    obtain ⟨hkept', hshrinks'⟩ := ih hkept hids
    exact ⟨hkept', hshrinks.trans hshrinks'⟩

/-- A message that ends its transaction does nothing else. -/
theorem Closes.shrinks {good : EPsState → Prop} (h : sm.Kept generation startedFor)
    (hcloses : sm.Closes pti psi good after)
    (hgood : sm.Pending pti → sm.psiOf pti = psi → ∀ state, good state → Settled state) :
    after.Kept generation startedFor ∧
      sm.Shrinks (fun id => pti = id ∧ sm.psiOf id = psi) after := by
  by_cases hanswered : sm.Pending pti ∧ sm.psiOf pti = psi
  · obtain ⟨hpending, rfl⟩ := hanswered
    obtain ⟨session, rfl, hstate⟩ := hcloses.answered hpending rfl
    have hsettled := hgood hpending rfl _ hstate
    exact ⟨h.settle hpending hsettled, shrinks_put hpending ⟨rfl, rfl⟩ rfl hsettled.ne⟩
  · rw [hcloses.unanswered hanswered]
    exact ⟨h, .refl sm _⟩

/-- The tables behind the release of a session on command, before it is asked for again. -/
def commanded (sm : NasSm) (pti psi : Nat) : NasSm :=
  if pti ≠ 0 ∧ sm.kind pti = some .pduSessionReleaseRequest then
    (sm.freePduSessionId psi).freeProcedureTransactionId pti
  else sm.freePduSessionId psi

theorem completeRelease_cases (sm : NasSm) (mm : MmStatus) (pti psi : Nat)
    (reactivation : Option SessionConfig) :
    (sm.completeRelease mm pti psi reactivation).1 = sm ∨
      ∃ config, (sm.completeRelease mm pti psi reactivation).1 =
        (sm.sendEstablishmentRequest mm config).1 := by
  cases reactivation with
  | none => exact .inl rfl
  | some config => exact .inr ⟨config, rfl⟩

/-- What a command does to an active session. It is asked for again where its transaction was that
of a release, or none. -/
theorem receiveReleaseCommand_cases (mm : MmStatus) (pti : Nat) (cause : ESmCause)
    (hactive : sm.psState psi = .active) :
    (sm.receiveReleaseCommand mm pti psi cause).1 = sm.commanded pti psi ∨
      (pti = 0 ∨ sm.kind pti = some .pduSessionReleaseRequest) ∧
        ∃ config, (sm.receiveReleaseCommand mm pti psi cause).1 =
          ((sm.commanded pti psi).sendEstablishmentRequest mm config).1 := by
  have hinactive : (sm.pduSessions psi).psState ≠ .inactive := by
    rw [show (sm.pduSessions psi).psState = .active from hactive]
    exact EPsState.noConfusion
  have hpending : (sm.pduSessions psi).psState ≠ .activePending := by
    rw [show (sm.pduSessions psi).psState = .active from hactive]
    exact EPsState.noConfusion
  let released := sm.freePduSessionId psi
  have hrun : ∃ reactivation, (sm.receiveReleaseCommand mm pti psi cause).1 =
      if pti ≠ 0 then
        if sm.kind pti ≠ some .pduSessionReleaseRequest then released
        else ((released.freeProcedureTransactionId pti).completeRelease mm pti psi reactivation).1
      else (released.completeRelease mm pti psi reactivation).1 := by
    let session := sm.pduSessions psi
    refine ⟨if cause = .reactivationRequested then
      some { type := session.sessionType, apn := session.apn, sNssai := session.sNssai }
      else none, ?_⟩
    rw [receiveReleaseCommand, if_neg hinactive, if_neg hpending]
    dsimp only [localReleaseSession]
    by_cases hpti : pti ≠ 0
    · rw [if_pos hpti, if_pos hpti]
      change (if sm.kind pti ≠ some .pduSessionReleaseRequest then _ else _ :
        NasSm × List SmOutput).1 = _
      split <;> rfl
    · rw [if_neg hpti, if_neg hpti]
  obtain ⟨reactivation, hrun⟩ := hrun
  rw [hrun]
  by_cases hpti : pti = 0
  · have hbase : sm.commanded pti psi = released := if_neg fun h => h.1 hpti
    rw [if_neg (not_not.mpr hpti), hbase]
    exact (completeRelease_cases ..).imp_right fun h => ⟨.inl hpti, h⟩
  · rw [if_pos hpti]
    by_cases hkind : sm.kind pti = some .pduSessionReleaseRequest
    · have hbase : sm.commanded pti psi = released.freeProcedureTransactionId pti :=
        if_pos ⟨hpti, hkind⟩
      rw [if_neg (not_not.mpr hkind), hbase]
      exact (completeRelease_cases ..).imp_right fun h => ⟨.inr hkind, h⟩
    · have hbase : sm.commanded pti psi = released := if_neg fun h => hkind h.2
      rw [if_pos hkind, hbase]
      exact .inl rfl

/-- The tables are kept, and nothing is started. -/
structure Quiet (sm : NasSm) (generation startedFor : Nat → Nat) (after : NasSm) : Prop where
  kept : after.Kept generation startedFor
  activePending : ∀ psi, after.psState psi = .activePending → sm.psState psi = .activePending
  pending : ∀ id, after.Pending id → sm.Pending id

theorem Quiet.refl (h : sm.Kept generation startedFor) :
    sm.Quiet generation startedFor sm :=
  ⟨h, fun _ => id, fun _ => id⟩

/-- The transaction of a timer that expires is kept, or aborted. -/
theorem Kept.expire (h : sm.Kept generation startedFor) (pti : Nat) :
    sm.Quiet generation startedFor (sm.onTransactionTimerExpire pti).1 := by
  have hsame := Quiet.refl h
  by_cases hpending : sm.Pending pti
  · rw [onTransactionTimerExpire]
    cases htimer : (sm.procedureTransactions pti).timer with
    | none => exact hsame
    | some timer =>
      let retimed : ProcedureTransaction := { sm.procedureTransactions pti with
        timer := some { timer with expiryCount := timer.expiryCount + 1 } }
      let behind := sm.put pti (sm.psiOf pti) retimed (sm.pduSessions (sm.psiOf pti))
      have hput : { sm with
          procedureTransactions := update sm.procedureTransactions pti retimed } =
          behind := by
        simp only [behind, NasSm.put, update_eq_self]
      obtain ⟨hrange, hpsi, hkind⟩ := h.pending pti hpending
      have hkept : behind.Kept generation startedFor :=
        h.put hpsi (fun id hid => ⟨h.single id pti hid hpending, fun heq => heq ▸ rfl⟩)
          (.inr ⟨hpending, rfl, hrange, hkind⟩) fun _ _ _ => ⟨rfl, rfl⟩
      have hretimed : sm.Quiet generation startedFor behind := by
        refine ⟨hkept, fun id hid => ?_, fun id hid => ?_⟩
        · rw [← hput] at hid
          exact hid
        · by_cases hne : id = pti
          · exact hne ▸ hpending
          · rwa [Pending, put_pt_of_ne hne] at hid
      obtain ⟨hkept', hshrinks⟩ := @Kept.abort _ _ _ pti hkept (pti = ·) rfl
      have habort : sm.Quiet generation startedFor (behind.abortProcedureByPti pti).1 :=
        ⟨hkept', fun id hid => hretimed.activePending id (hshrinks.activePending hid),
          fun id hid => hretimed.pending id (hshrinks.pending hid)⟩
      dsimp only
      rw [hput]
      split
      · exact hretimed
      split
      · split
        · exact hretimed
        · exact habort
      split
      · split
        · exact hretimed
        · exact habort
      · exact hretimed
  · have htimer : (sm.procedureTransactions pti).timer = none := by rw [h.idle pti hpending]
    rw [onTransactionTimerExpire, htimer]
    exact hsame

theorem Kept.pos_of_active {sm : NasSm} {generation startedFor : Nat → Nat} {psi : Nat}
    (h : sm.Kept generation startedFor) (hactive : sm.psState psi = .active) : 1 ≤ psi := by
  rcases Nat.eq_zero_or_pos psi with rfl | hpos
  · rw [h.outside] at hactive
    cases hactive
  · exact hpos

/-- A session without a pending transaction is released. -/
theorem Kept.release {sm : NasSm} {generation startedFor : Nat → Nat} {psi : Nat}
    (h : sm.Kept generation startedFor) (hpsi : 1 ≤ psi)
    (hnone : ∀ id, sm.Pending id → sm.psiOf id ≠ psi) :
    (sm.freePduSessionId psi).Kept generation startedFor := by
  have hidle : ¬ sm.Pending 255 := fun hpending =>
    absurd (h.pending 255 hpending).1.2 (by decide)
  rw [freePduSessionId_eq (h.idle 255 hidle)]
  refine h.put hpsi (fun id hid => ?_) (.inl ⟨rfl, .inl rfl⟩) fun _ _ _ => ⟨rfl, rfl⟩
  exact iff_of_false (hnone id hid) fun heq => hidle (heq ▸ hid)

theorem commanded_session (sm : NasSm) (pti psi : Nat) : (sm.commanded pti psi).pduSessions =
    update sm.pduSessions psi { sm.pduSessions psi with psState := .inactive } := by
  unfold commanded
  split <;> rfl

theorem commanded_psState (sm : NasSm) (pti psi id : Nat) :
    (sm.commanded pti psi).psState id = if id = psi then .inactive else sm.psState id := by
  rw [psState, commanded_session]
  by_cases hid : id = psi
  · rw [hid, update_self, if_pos rfl]
  · rw [update_of_ne hid, if_neg hid]
    rfl

theorem commanded_pt (sm : NasSm) (pti psi id : Nat) :
    (sm.commanded pti psi).procedureTransactions id = sm.procedureTransactions id ∨
      id = pti ∧ sm.kind pti = some .pduSessionReleaseRequest ∧
        (sm.commanded pti psi).procedureTransactions id = {} := by
  unfold commanded
  split
  · next hkind =>
    by_cases hid : id = pti
    · subst hid
      exact .inr ⟨rfl, hkind.2, update_self ..⟩
    · exact .inl (update_of_ne hid ..)
  · exact .inl rfl

/-- What a command leaves of the tables, before a session is asked for again. -/
theorem Kept.commanded {sm : NasSm} {generation startedFor : Nat → Nat} {pti psi : Nat}
    (h : sm.Kept generation startedFor) (hactive : sm.psState psi = .active)
    (hown : sm.Pending pti → sm.psiOf pti = psi)
    (honly : ∀ id, sm.Pending id → sm.psiOf id = psi → id = pti) :
    sm.Quiet generation startedFor (sm.commanded pti psi) := by
  refine ⟨?_, fun id hstate => ?_, fun id hpending => ?_⟩
  · by_cases hpending : sm.Pending pti
    · obtain rfl := hown hpending
      have hkind := h.kind_of_active hpending hactive
      have hpti : pti ≠ 0 := Nat.ne_of_gt (h.pending pti hpending).1.1
      have hbase : sm.commanded pti (sm.psiOf pti) = sm.put pti (sm.psiOf pti) {}
          { sm.pduSessions (sm.psiOf pti) with psState := .inactive } := if_pos ⟨hpti, hkind⟩
      rw [hbase]
      exact h.settle hpending (.inl rfl)
    · have hbase : sm.commanded pti psi = sm.freePduSessionId psi := by
        refine if_neg fun hkind => ?_
        rw [kind, h.idle pti hpending] at hkind
        cases hkind.2
      rw [hbase]
      exact h.release (h.pos_of_active hactive) fun id hid heq =>
        hpending (honly id hid heq ▸ hid)
  · rw [commanded_psState] at hstate
    split at hstate
    · cases hstate
    · exact hstate
  · rcases sm.commanded_pt pti psi id with hsame | ⟨-, -, hfreed⟩
    · rwa [Pending, hsame] at hpending
    · rw [Pending, hfreed] at hpending
      cases hpending

/-- What a command leaves alone: pending transactions but its own where that is one of a release,
and sessions in use but the one it is for, which is not established any more. -/
theorem receiveReleaseCommand_leaves {sm : NasSm} {pti psi : Nat}
    (hafter : after = sm.commanded pti psi ∨ ∃ mm config,
      after = ((sm.commanded pti psi).sendEstablishmentRequest mm config).1) :
    (∀ id, sm.Pending id → after.procedureTransactions id = sm.procedureTransactions id ∨
      id = pti ∧ sm.kind pti = some .pduSessionReleaseRequest) ∧
    (∀ id, sm.psState id ≠ .inactive → id ≠ psi → after.pduSessions id = sm.pduSessions id) ∧
    (after.psState psi).isEstablished = false := by
  have hbase (id : Nat) (hne : id ≠ psi) :
      (sm.commanded pti psi).pduSessions id = sm.pduSessions id := by
    rw [commanded_session, update_of_ne hne]
  have hinactive : (sm.commanded pti psi).psState psi = .inactive := by
    rw [commanded_psState, if_pos rfl]
  have hown (id : Nat) : (sm.commanded pti psi).procedureTransactions id =
      sm.procedureTransactions id ∨ id = pti ∧ sm.kind pti = some .pduSessionReleaseRequest :=
    (sm.commanded_pt pti psi id).imp_right fun h => ⟨h.1, h.2.1⟩
  have hsame : after = sm.commanded pti psi →
      (∀ id, sm.Pending id → after.procedureTransactions id = sm.procedureTransactions id ∨
        id = pti ∧ sm.kind pti = some .pduSessionReleaseRequest) ∧
      (∀ id, sm.psState id ≠ .inactive → id ≠ psi → after.pduSessions id = sm.pduSessions id) ∧
      (after.psState psi).isEstablished = false := by
    rintro rfl
    exact ⟨fun id _ => hown id, fun id _ hne => hbase id hne, by rw [hinactive]; rfl⟩
  rcases hafter with heq | ⟨mm, config, rfl⟩
  · exact hsame heq
  · rcases (sm.commanded pti psi).sendEstablishmentRequest_cases mm config with
      heq | ⟨pti', psi', pt, session, hput, -, hidle, -, hfree, -, -, hsession, -⟩
    · exact hsame heq
    · rw [hput]
      refine ⟨fun id hid => ?_, fun id huse hne => ?_, ?_⟩
      · rcases hown id with hsame | hanswered
        · left
          have hne : id ≠ pti' := by
            rintro rfl
            rw [Pending, hsame] at hidle
            exact hidle hid
          rw [put_pt_of_ne hne, hsame]
        · exact .inr hanswered
      · have hne' : id ≠ psi' := by
          rintro rfl
          rw [commanded_psState, if_neg hne] at hfree
          exact huse hfree
        rw [put_session_of_ne hne', hbase id hne]
      · by_cases hpsi : psi = psi'
        · subst hpsi
          rw [psState, put_session_self, hsession]
          rfl
        · rw [psState, put_session_of_ne hpsi]
          change ((sm.commanded pti psi).psState psi).isEstablished = false
          rw [hinactive]
          rfl

end NasSm

/-! ## Turns -/

namespace SmHistory

variable {s : SmHistory} {after : NasSm} {event : SmEvent} {ends : Nat → Prop} {psi : Nat}

def Kept (s : SmHistory) : Prop := s.sm.Kept s.generation s.startedFor

theorem Kept.agree (h : s.Kept) : s.Agree where
  single := h.single
  establishing psi := by
    constructor
    · rintro ⟨pti, hpending, rfl, hkind⟩
      rcases (h.pending pti hpending).2.2 with ⟨-, hstate⟩ | ⟨hkind', -⟩
      · exact hstate
      · rw [hkind] at hkind'
        cases hkind'
    · intro hstate
      obtain ⟨pti, hpending, rfl⟩ := h.waits psi hstate
      refine ⟨pti, hpending, rfl, ?_⟩
      rcases (h.pending pti hpending).2.2 with ⟨hkind, -⟩ | ⟨-, hstate', -⟩
      · exact hkind
      · rw [hstate] at hstate'
        cases hstate'
  releasing pti hpending hkind := by
    rcases (h.pending pti hpending).2.2 with ⟨hkind', -⟩ | ⟨-, hstate, hstarted⟩
    · rw [hkind] at hkind'
      cases hkind'
    · rw [hstate]
      exact ⟨rfl, hstarted⟩

/-- Where nothing is started the counts stay. -/
theorem observe_eq (hstate : ∀ psi, after.psState psi = .activePending →
      s.sm.psState psi = .activePending)
    (hpending : ∀ id, after.Pending id → s.sm.Pending id) :
    s.observe after = { s with sm := after } := by
  have hgeneration : (s.observe after).generation = s.generation := by
    ext1 psi
    exact if_neg fun h => h.1 (hstate psi h.2)
  have hstarted : (s.observe after).startedFor = s.startedFor := by
    ext1 pti
    exact if_neg fun h => h.1 (hpending pti h.2)
  change SmHistory.mk after (s.observe after).generation (s.observe after).startedFor = _
  rw [hgeneration, hstarted]

/-- A turn that only ends what it answers is lawful. -/
theorem Kept.of_shrinks (hafter : (s.sm.handle event).1 = after)
    (hkept : after.Kept s.generation s.startedFor) (hshrinks : s.sm.Shrinks ends after)
    (hends : ∀ pti, s.sm.Pending pti → ends pti → s.sm.Answers pti event) :
    (s.next event).Kept ∧ s.Lawful event (s.next event) := by
  have hnext : s.next event = { s with sm := after } := by
    rw [next, hafter]
    exact observe_eq (fun _ => hshrinks.activePending) fun _ => hshrinks.pending
  have hkept' : (s.next event).Kept := hnext ▸ hkept
  refine ⟨hkept', hkept'.agree, fun pti hpending hne => ?_, fun psi _ hne => ?_⟩
  · rw [hnext] at hne
    rcases hshrinks.transactions pti with hsame | ⟨-, hends', -⟩
    · exact absurd hsame hne
    · exact hends pti hpending hends'
  · rw [hnext] at hne
    rcases hshrinks.sessions psi with hsame | ⟨⟨pti, hpending, hends', hpsi⟩, -⟩
    · exact absurd hsame hne
    · exact .inl ⟨pti, hpending, hpsi, hends pti hpending hends'⟩

/-- A turn is lawful exactly under a condition, which keeps the tables. -/
structure LawfulWhen (s : SmHistory) (event : SmEvent) (condition : Prop) : Prop where
  kept : condition → (s.next event).Kept
  lawful : condition → s.Lawful event (s.next event)
  needed : s.Lawful event (s.next event) → condition

theorem LawfulWhen.of_shrinks (hafter : (s.sm.handle event).1 = after)
    (hkept : after.Kept s.generation s.startedFor) (hshrinks : s.sm.Shrinks ends after)
    (hends : ∀ pti, s.sm.Pending pti → ends pti → s.sm.Answers pti event) :
    s.LawfulWhen event True :=
  have hturn := Kept.of_shrinks hafter hkept hshrinks hends
  ⟨fun _ => hturn.1, fun _ => hturn.2, fun _ => trivial⟩

/-- An answer is lawful if the transaction that it ends is of its kind. -/
theorem Kept.answer (h : s.Kept) {pti : Nat} {kind : SmMessageType} {good : EPsState → Prop}
    (hcloses : s.sm.Closes pti psi good (s.sm.handle event).1)
    (hanswers : ∀ id, s.sm.Answers id event ↔ pti = id ∧ s.sm.kind id = some kind)
    (hgood : s.sm.Pending pti → s.sm.psiOf pti = psi → s.sm.kind pti = some kind →
      ∀ state, good state → NasSm.Settled state) :
    s.LawfulWhen event
      (s.sm.Pending pti → s.sm.psiOf pti = psi → s.sm.kind pti = some kind) := by
  have hturn (hcondition : s.sm.Pending pti → s.sm.psiOf pti = psi → s.sm.kind pti = some kind) :
      (s.next event).Kept ∧ s.Lawful event (s.next event) := by
    obtain ⟨hkept, hshrinks⟩ := hcloses.shrinks h fun hpending hpsi =>
      hgood hpending hpsi (hcondition hpending hpsi)
    refine Kept.of_shrinks rfl hkept hshrinks fun id hpending hends => ?_
    obtain ⟨rfl, hpsi⟩ := hends
    exact (hanswers _).mpr ⟨rfl, hcondition hpending hpsi⟩
  refine ⟨fun hc => (hturn hc).1, fun hc => (hturn hc).2, fun hlawful hpending hpsi => ?_⟩
  obtain ⟨session, hafter, -⟩ := hcloses.answered hpending hpsi
  refine ((hanswers pti).mp (hlawful.freed pti hpending ?_)).2
  change (s.sm.handle event).1.procedureTransactions pti ≠ _
  rw [hafter, NasSm.put_pt_self]
  intro heq
  rw [NasSm.Pending, ← heq] at hpending
  cases hpending

/-- An establishment that is started on tables where nothing else was. -/
theorem observe_start {base : NasSm} (h : s.sm.Quiet s.generation s.startedFor base)
    (mm : MmStatus) (config : SessionConfig) :
    (s.observe (base.sendEstablishmentRequest mm config).1).Kept := by
  rcases base.sendEstablishmentRequest_cases mm config with
    hsame | ⟨pti, psi, pt, session, hput, hrange, hidle, hpsi, hinactive, hpt, hptPsi, hsession,
      hkind⟩
  · rw [hsame, observe_eq h.activePending h.pending]
    exact h.kept
  · rw [hput]
    refine h.kept.put hpsi (fun id hid => ?_)
      (.inr ⟨hpt, hptPsi, hrange, .inl ⟨hkind, hsession⟩⟩) fun id hne hid => ⟨?_, ?_⟩
    · exact iff_of_false (h.kept.psiOf_ne hinactive hid) fun heq => hidle (heq ▸ hid)
    · exact if_neg fun hstarts => hstarts.1 (h.pending id hid)
    · have hpsiNe := h.kept.psiOf_ne hinactive hid
      refine if_neg fun hstarts => hstarts.1 (h.activePending _ ?_)
      have hstate := hstarts.2
      rwa [NasSm.psState, NasSm.put_session_of_ne hpsiNe] at hstate

theorem Kept.establishmentRequest (h : s.Kept) (mm : MmStatus) (config : SessionConfig) :
    s.LawfulWhen (.establishmentRequest mm config) True := by
  have hkept : (s.next (.establishmentRequest mm config)).Kept :=
    observe_start (NasSm.Quiet.refl h) mm config
  exact ⟨fun _ => hkept, fun _ => ⟨hkept.agree, fun _ _ _ => trivial, fun _ _ _ => .inr trivial⟩,
    fun _ => trivial⟩

theorem Kept.releaseRequest (h : s.Kept) (mm : MmStatus) (psi : Nat) :
    s.LawfulWhen (.releaseRequest mm psi)
      (s.sm.StartsRelease mm psi → ∀ pti, s.sm.Pending pti → s.sm.psiOf pti ≠ psi) := by
  rcases s.sm.sendReleaseRequest_cases mm psi with
    ⟨hnot, hsame⟩ | ⟨hstarts, pti, pt, hput, hrange, hidle, hpt, hptPsi, hkind⟩
  · have hturn : (s.next (.releaseRequest mm psi)).Kept ∧
        s.Lawful (.releaseRequest mm psi) (s.next (.releaseRequest mm psi)) :=
      Kept.of_shrinks hsame h (NasSm.Shrinks.refl s.sm fun _ => True) fun _ _ _ => trivial
    exact ⟨fun _ => hturn.1, fun _ => hturn.2, fun _ hstarts => absurd hstarts hnot⟩
  · have hpsi := NasSm.Kept.pos_of_active h hstarts.2.1
    have hnext : s.next (.releaseRequest mm psi) =
        s.observe (s.sm.put pti psi pt (s.sm.pduSessions psi)) := congrArg s.observe hput
    have hkept (hnone : ∀ pti, s.sm.Pending pti → s.sm.psiOf pti ≠ psi) :
        (s.next (.releaseRequest mm psi)).Kept := by
      rw [hnext]
      have hpsiOf : (s.sm.put pti psi pt (s.sm.pduSessions psi)).psiOf pti = psi := by
        rw [NasSm.psiOf, NasSm.put_pt_self, hptPsi]
      have hstarted : (s.observe (s.sm.put pti psi pt (s.sm.pduSessions psi))).startedFor pti =
          (s.observe (s.sm.put pti psi pt (s.sm.pduSessions psi))).generation psi := by
        refine (if_pos ⟨hidle, ?_⟩).trans (congrArg (s.observe _).generation hpsiOf)
        rw [NasSm.put_pt_self, hpt]
      refine NasSm.Kept.put h hpsi (fun id hid => ?_)
        (.inr ⟨hpt, hptPsi, hrange, .inr ⟨hkind, hstarts.2.1, hstarted⟩⟩) fun id hne hid => ⟨?_, ?_⟩
      · exact iff_of_false (hnone id hid) fun heq => hidle (heq ▸ hid)
      · exact if_neg fun hboth => hboth.1 hid
      · refine if_neg fun hboth => hboth.1 ?_
        have hstate := hboth.2
        rwa [NasSm.psState, NasSm.put_session_of_ne (hnone id hid)] at hstate
    refine ⟨fun hcondition => hkept (hcondition hstarts), fun hcondition => ?_,
      fun hlawful _ id hid heq => ?_⟩
    · exact ⟨(hkept (hcondition hstarts)).agree, fun _ _ _ => trivial, fun _ _ _ => .inr trivial⟩
    · have hne : id ≠ pti := fun heq => hidle (heq ▸ hid)
      have hagree := hlawful.agree
      rw [hnext] at hagree
      refine hne (hagree.single id pti ?_ ?_ ?_)
      · change NasSm.Pending (s.sm.put pti psi pt _) id
        rwa [NasSm.Pending, NasSm.put_pt_of_ne hne]
      · change NasSm.Pending (s.sm.put pti psi pt _) pti
        rw [NasSm.Pending, NasSm.put_pt_self, hpt]
      · change NasSm.psiOf (s.sm.put pti psi pt _) id = NasSm.psiOf (s.sm.put pti psi pt _) pti
        rw [NasSm.psiOf, NasSm.psiOf, NasSm.put_pt_of_ne hne, NasSm.put_pt_self, hptPsi, ← heq]
        rfl

theorem Kept.localRelease (h : s.Kept) (hvalid : s.sm.Valid (.localRelease psi)) :
    s.LawfulWhen (.localRelease psi) (∀ pti, s.sm.Pending pti → s.sm.psiOf pti ≠ psi) := by
  have hactive : s.sm.psState psi = .active := by
    have hestablished : (s.sm.psState psi).isEstablished = true := hvalid.2
    rcases h.states psi with hstate | hstate | hstate
    · rw [hstate] at hestablished
      cases hestablished
    · rw [hstate] at hestablished
      cases hestablished
    · exact hstate
  have hpsi := NasSm.Kept.pos_of_active h hactive
  have hreleased (id : Nat) : (s.sm.freePduSessionId psi).psState id =
      if id = psi then .inactive else s.sm.psState id := by
    by_cases hid : id = psi
    · simp [NasSm.freePduSessionId, NasSm.setPsState, NasSm.psState, hid]
    · simp [NasSm.freePduSessionId, NasSm.setPsState, NasSm.psState, hid]
  have hnext : s.next (.localRelease psi) = { s with sm := s.sm.freePduSessionId psi } := by
    refine observe_eq (fun id hstate => ?_) fun _ => id
    rw [show (s.sm.handle (.localRelease psi)).1 = s.sm.freePduSessionId psi from rfl,
      hreleased] at hstate
    split at hstate
    · cases hstate
    · exact hstate
  have hkept (hnone : ∀ pti, s.sm.Pending pti → s.sm.psiOf pti ≠ psi) :
      (s.next (.localRelease psi)).Kept := by
    rw [hnext]
    exact NasSm.Kept.release h hpsi hnone
  refine ⟨hkept, fun hnone => ?_, fun hlawful pti hpending heq => ?_⟩
  · exact ⟨(hkept hnone).agree, fun _ _ _ => trivial, fun _ _ _ => .inr trivial⟩
  · have hkind := NasSm.Kept.kind_of_active h hpending (heq ▸ hactive)
    have hreleasing := hlawful.agree.releasing
    rw [hnext] at hreleasing
    have hestablished := (hreleasing pti hpending hkind).1
    have hpsiOf : (s.sm.freePduSessionId psi).psiOf pti = psi := heq
    rw [hpsiOf, hreleased, if_pos rfl] at hestablished
    cases hestablished

theorem Kept.releaseCommand (h : s.Kept) (mm : MmStatus) (pti psi : Nat) (cause : ESmCause) :
    s.LawfulWhen (.receive mm (.releaseCommand pti psi cause))
      (s.sm.psState psi = .active → (s.sm.Pending pti → s.sm.psiOf pti = psi) ∧
        ∀ id, s.sm.Pending id → s.sm.psiOf id = psi → id = pti) := by
  by_cases hactive : s.sm.psState psi = .active
  · obtain ⟨after, hafter, hcases⟩ : ∃ after,
        (s.sm.handle (.receive mm (.releaseCommand pti psi cause))).1 = after ∧
        (after = s.sm.commanded pti psi ∨ ∃ mm config,
          after = ((s.sm.commanded pti psi).sendEstablishmentRequest mm config).1) := by
      refine ⟨_, rfl, ?_⟩
      exact (NasSm.receiveReleaseCommand_cases mm pti cause hactive).imp_right
        fun hstarted => hstarted.2.imp' (fun _ => mm) fun config heq => ⟨config, heq⟩
    have hnext : s.next (.receive mm (.releaseCommand pti psi cause)) = s.observe after :=
      congrArg s.observe hafter
    obtain ⟨hfreed, hchanged, hreleased⟩ := NasSm.receiveReleaseCommand_leaves hcases
    have hkept (hown : s.sm.Pending pti → s.sm.psiOf pti = psi)
        (honly : ∀ id, s.sm.Pending id → s.sm.psiOf id = psi → id = pti) :
        (s.observe after).Kept := by
      have hquiet := NasSm.Kept.commanded h hactive hown honly
      rcases hcases with rfl | ⟨mm, config, rfl⟩
      · rw [observe_eq hquiet.activePending hquiet.pending]
        exact hquiet.kept
      · exact observe_start hquiet mm config
    refine ⟨fun hc => ?_, fun hc => ?_, fun hlawful _ => ⟨fun hpending => ?_, fun id hid heq => ?_⟩⟩
    · exact hnext ▸ hkept (hc hactive).1 (hc hactive).2
    · rw [hnext]
      refine ⟨(hkept (hc hactive).1 (hc hactive).2).agree, fun id hid hne => ?_,
        fun id huse hne => ?_⟩
      · obtain ⟨rfl, hkind⟩ := (hfreed id hid).resolve_left hne
        exact ⟨rfl, hkind⟩
      · have hpsi : id = psi := by
          by_contra hother
          exact hne (hchanged id huse hother)
        subst hpsi
        by_cases hpending : s.sm.Pending pti
        · have hown := (hc hactive).1 hpending
          exact .inl ⟨pti, hpending, hown, rfl,
            NasSm.Kept.kind_of_active h hpending (hown.symm ▸ hactive)⟩
        · exact .inr ⟨hpending, rfl⟩
    · have hne : (s.next (.receive mm (.releaseCommand pti psi cause))).sm.pduSessions psi ≠
          s.sm.pduSessions psi := by
        rw [hnext]
        intro heq
        have hsame : after.psState psi = .active := (congrArg PduSession.psState heq).trans hactive
        rw [hsame] at hreleased
        cases hreleased
      have huse : s.sm.psState psi ≠ .inactive := by
        rw [hactive]
        exact EPsState.noConfusion
      rcases hlawful.changed psi huse hne with ⟨id, -, hpsi, hid, -⟩ | ⟨hnot, -⟩
      · exact hid ▸ hpsi
      · exact absurd hpending hnot
    · by_contra hne
      have hsame := (hfreed id hid).resolve_right fun hboth => hne hboth.1
      have hkind := NasSm.Kept.kind_of_active h hid (heq.symm ▸ hactive)
      have hagree := hlawful.agree
      rw [hnext] at hagree
      have hpending' : after.Pending id := by rwa [NasSm.Pending, hsame]
      have hkind' : after.kind id = some .pduSessionReleaseRequest := by
        rwa [NasSm.kind, hsame]
      have hpsi' : after.psiOf id = psi := by
        rw [NasSm.psiOf, hsame]
        exact heq
      have hestablished := (hagree.releasing id hpending' hkind').1
      rw [show (s.observe after).sm.psiOf id = psi from hpsi'] at hestablished
      exact Bool.false_ne_true (hreleased.symm.trans hestablished)
  · have hsame : (s.sm.handle (.receive mm (.releaseCommand pti psi cause))).1 = s.sm := by
      change (s.sm.receiveReleaseCommand mm pti psi cause).1 = s.sm
      rcases h.states psi with hstate | hstate | hstate
      · rw [NasSm.receiveReleaseCommand,
          if_pos (show (s.sm.pduSessions psi).psState = _ from hstate)]
      · have hne : (s.sm.pduSessions psi).psState ≠ .inactive := by
          rw [show (s.sm.pduSessions psi).psState = .activePending from hstate]
          exact EPsState.noConfusion
        rw [NasSm.receiveReleaseCommand, if_neg hne,
          if_pos (show (s.sm.pduSessions psi).psState = _ from hstate)]
      · exact absurd hstate hactive
    have hturn : (s.next (.receive mm (.releaseCommand pti psi cause))).Kept ∧
        s.Lawful _ (s.next (.receive mm (.releaseCommand pti psi cause))) :=
      Kept.of_shrinks hsame h (NasSm.Shrinks.refl s.sm fun _ => False) fun _ _ hends => hends.elim
    exact ⟨fun _ => hturn.1, fun _ => hturn.2, fun _ habs => absurd habs hactive⟩

theorem Kept.smStatus (h : s.Kept) (mm : MmStatus) (pti psi : Nat) (cause : ESmCause) :
    s.LawfulWhen (.receive mm (.smStatus pti psi cause)) True := by
  have hafter : (s.sm.handle (.receive mm (.smStatus pti psi cause))).1 =
      (s.sm.receiveSmStatus pti psi cause).1 := rfl
  rw [NasSm.receiveSmStatus] at hafter
  split at hafter
  · obtain ⟨hkept, hshrinks⟩ := @NasSm.Kept.abort _ _ _ pti h (pti = ·) rfl
    exact .of_shrinks hafter hkept hshrinks fun _ _ hends => .inl hends
  split at hafter
  · next hcause =>
    have hends : ∀ id ∈ s.sm.ptiToAbort pti psi, pti = id ∨ s.sm.psiOf id = psi := by
      intro id hid
      have hfilter := of_decide_eq_true (List.mem_filter.mp hid).2
      exact hfilter.imp Eq.symm And.right
    obtain ⟨hkept, hshrinks⟩ := NasSm.Kept.abortAll h hends
    exact .of_shrinks hafter hkept hshrinks fun _ _ hends =>
      hends.imp_right fun hpsi => ⟨hcause, hpsi⟩
  · exact .of_shrinks hafter h (NasSm.Shrinks.refl s.sm fun _ => False) fun _ _ hends => hends.elim

/-- What a turn needs to be lawful. -/
theorem Kept.lawfulWhen (h : s.Kept) {event : SmEvent} (hvalid : s.sm.Valid event) :
    s.LawfulWhen event (s.Orderly event) := by
  cases event with
  | establishmentRequest mm config => exact h.establishmentRequest mm config
  | releaseRequest mm psi => exact h.releaseRequest mm psi
  | timerExpire pti =>
    have hquiet := NasSm.Kept.expire h pti
    have hnext : s.next (.timerExpire pti) =
        { s with sm := (s.sm.onTransactionTimerExpire pti).1 } :=
      observe_eq hquiet.activePending hquiet.pending
    have hkept : (s.next (.timerExpire pti)).Kept := hnext ▸ hquiet.kept
    exact ⟨fun _ => hkept,
      fun _ => ⟨hkept.agree, fun _ _ _ => trivial, fun _ _ _ => .inr trivial⟩, fun _ => trivial⟩
  | forwardingFailure messageType pti psi =>
    exact h.answer (NasSm.Kept.closes_forwardingFailure h pti psi) (fun _ => Iff.rfl)
      fun _ _ _ _ => id
  | localRelease psi => exact h.localRelease hvalid
  | receive mm msg =>
    cases msg with
    | establishmentAccept pti psi selectedType qosRules sessionAmbr qosFlows pduAddress =>
      exact h.answer (NasSm.Kept.closes_accept h pti psi ..) (fun _ => Iff.rfl) fun _ _ _ _ => id
    | establishmentReject pti psi cause =>
      exact h.answer (NasSm.Kept.closes_reject h pti psi) (fun _ => Iff.rfl) fun _ _ _ _ => id
    | releaseReject pti psi cause =>
      refine h.answer (NasSm.Kept.closes_releaseReject h pti psi cause) (fun _ => Iff.rfl) ?_
      rintro hpending rfl hkind state (rfl | rfl)
      · exact .inl rfl
      · rcases (h.pending pti hpending).2.2 with ⟨hkind', -⟩ | ⟨-, hstate, -⟩
        · rw [hkind] at hkind'
          cases hkind'
        · exact .inr hstate
    | releaseCommand pti psi cause => exact h.releaseCommand mm pti psi cause
    | smStatus pti psi cause => exact h.smStatus mm pti psi cause
    | other messageType pti psi =>
      exact .of_shrinks rfl h (NasSm.Shrinks.refl s.sm fun _ => False) fun _ _ hends => hends

/-! ## Runs -/

theorem Kept.run {events : List SmEvent} (h : system.Run Orderly events s) : s.Kept := by
  apply h.invariant
  · rintro s rfl
    exact NasSm.Kept.create
  · rintro s event t hkept horderly ⟨hvalid, rfl⟩
    exact (hkept.lawfulWhen hvalid).kept horderly

/-- The tables agree in the runs whose releases and answers are in order. -/
theorem tables_agree_iff {events : List SmEvent} :
    system.StepsRun Lawful events s ↔ system.Run Orderly events s := by
  apply System.stepsRun_iff Kept.run
  rintro s event t hkept ⟨hvalid, rfl⟩
  exact ⟨(hkept.lawfulWhen hvalid).needed, (hkept.lawfulWhen hvalid).lawful⟩

private def registered : MmStatus := ⟨true, false, false, false, false⟩

private def internet : SessionConfig := { type := ipv4SessionType, apn := some "internet" }

/-- A session is established and its release is asked for twice. Two transactions are pending for
it. -/
theorem released_twice : ¬ ∀ (events : List SmEvent) (s t : SmHistory) (event : SmEvent),
    system.Run System.unrestricted events s → system.step s event t → s.Lawful event t := by
  intro h
  have hstart : system.Run System.unrestricted [] {} := .nil rfl
  have hrequested := hstart.snoc (e := SmEvent.establishmentRequest registered internet) trivial
    ⟨trivial, rfl⟩
  have hestablished := hrequested.snoc
    (e := SmEvent.receive registered (.establishmentAccept 1 1 ipv4SessionType [] [] none none))
    trivial ⟨⟨by decide, by decide⟩, rfl⟩
  have hreleased := hestablished.snoc (e := SmEvent.releaseRequest registered 1) trivial
    ⟨Nat.le_of_ble_eq_true rfl, rfl⟩
  have hlawful := h _ _ _ (.releaseRequest registered 1) hreleased
    ⟨Nat.le_of_ble_eq_true rfl, rfl⟩
  exact absurd (hlawful.agree.single 1 2 (by decide) (by decide)
    (by decide)) (by decide)

end SmHistory

end Quicup.Ueransim
