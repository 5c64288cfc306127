import Quicup.Core.Cursor
import Quicup.Core.Fallible
import Quicup.Ueransim.Nas.Procedures

/-!
# Accesses of session management

The tables are arrays of 16 sessions and 255 transactions, and the identities of a message that is
received are octets. The handlers are given here with their accesses, each of which has to be
inside its array. Most of them look for the transaction of the message before, but a release
command and a status message are not looked at like that.
-/

namespace Quicup.Ueransim

open Fallible Function

/-- `*pt.message` -/
def ProcedureTransaction.storedMessage (pt : ProcedureTransaction) : Except Fault SmRequest :=
  pt.message.elim (.error .nullDeref) .ok

namespace NasSm

/-- `m_pduSessions[psi]` -/
def sessionAt (sm : NasSm) (psi : Nat) : Except Fault PduSession :=
  if psi < 16 then .ok (sm.pduSessions psi) else .error .outOfBounds

/-- `m_procedureTransactions[pti]` -/
def transactionAt (sm : NasSm) (pti : Nat) : Except Fault ProcedureTransaction :=
  if pti < 255 then .ok (sm.procedureTransactions pti) else .error .outOfBounds

namespace Bounded

variable (sm : NasSm)

/-! ## Handlers -/

def sendSmMessage (psi : Nat) (msg : SmRequest) : Except Fault (List SmOutput) := do
  let _ ← sm.sessionAt psi
  return [.smMessage psi msg]

def allocatePduSessionId (config : SessionConfig) : Except Fault (Option Nat) :=
  if config.type ≠ ipv4SessionType then .ok none
  else (List.range' 1 15).findM? fun psi => do
    let session ← sm.sessionAt psi
    return decide (session.psState = .inactive)

def allocateProcedureTransactionId : Except Fault (Option Nat) :=
  (List.range' 1 254).findM? fun pti => do
    let pt ← sm.transactionAt pti
    return decide (pt.state = .inactive)

def freeProcedureTransactionId (pti : Nat) : Except Fault NasSm := do
  let _ ← sm.transactionAt pti
  return sm.freeProcedureTransactionId pti

def setPsState (psi : Nat) (psState : EPsState) : Except Fault NasSm := do
  let _ ← sm.sessionAt psi
  return sm.setPsState psi psState

def freePduSessionId (psi : Nat) : Except Fault NasSm := setPsState sm psi .inactive

def checkPtiAndPsi (pti psi : Nat) : Except Fault Bool :=
  if pti < 1 ∨ 254 < pti then .ok false
  else do
    let pt ← sm.transactionAt pti
    return decide (pt.psi = psi)

def localReleaseSession (psi : Nat) : Except Fault (NasSm × List SmOutput) := do
  let session ← sm.sessionAt psi
  let sm ← freePduSessionId sm psi
  return (sm, if session.psState.isEstablished then [.sessionRelease psi] else [])

def abortProcedureByPti (pti : Nat) : Except Fault (NasSm × List SmOutput) := do
  let pt ← sm.transactionAt pti
  if pt.state ≠ .pending then return (sm, [])
  else if pt.message = none then return (sm, [])
  else
    let msg ← pt.storedMessage
    if msg.messageType = .pduSessionEstablishmentRequest then
      let sm ← freeProcedureTransactionId sm pti
      let sm ← freePduSessionId sm pt.psi
      return (sm, [])
    else if msg.messageType = .pduSessionReleaseRequest then
      let sm ← freeProcedureTransactionId sm pti
      localReleaseSession sm pt.psi
    else return (sm, [])

def abortAll (sm : NasSm) : List Nat → Except Fault (NasSm × List SmOutput)
  | [] => .ok (sm, [])
  | pti :: rest => do
    let aborted ← abortProcedureByPti sm pti
    let others ← abortAll aborted.1 rest
    return (others.1, aborted.2 ++ others.2)

/-- The pending transactions of a session, which are found by going through the array, and one more
that need not be in it. -/
def ptiToAbort (pti psi : Nat) : List Nat :=
  (List.range (max 255 (pti + 1))).filter fun id => id = pti ∨
    (id < 255 ∧ (sm.procedureTransactions id).state = .pending ∧
      (sm.procedureTransactions id).psi = psi)

def abortProcedureByPtiOrPsi (pti psi : Nat) : Except Fault (NasSm × List SmOutput) :=
  abortAll sm (ptiToAbort sm pti psi)

def sendEstablishmentRequest (mm : MmStatus) (config : SessionConfig) :
    Except Fault (NasSm × List SmOutput) :=
  if ¬ mm.rmRegistered then .ok (sm, [])
  else if mm.nonAllowedService ∧ ¬ mm.hasEmergency ∧ ¬ mm.highPriority then .ok (sm, [])
  else if config.type ≠ ipv4SessionType then .ok (sm, [])
  else if mm.registeredForEmergency ∧ ¬ config.isEmergency then .ok (sm, [])
  else if config.isEmergency ∧ sm.anyEmergencySession then .ok (sm, [])
  else do
    match ← allocatePduSessionId sm config with
    | none => return (sm, [])
    | some psi =>
      match ← allocateProcedureTransactionId sm with
      | none =>
        let sm ← freePduSessionId sm psi
        return (sm, [])
      | some pti =>
        let _ ← sm.sessionAt psi
        let session : PduSession :=
          { psState := .activePending
            sessionType := config.type
            apn := config.apn
            sNssai := config.sNssai
            isEmergency := config.isEmergency }
        let sm : NasSm := { sm with pduSessions := update sm.pduSessions psi session }
        let _ ← sm.transactionAt pti
        let sm := (sm.startTransaction pti psi 3580 .pduSessionEstablishmentRequest).1
        let pt ← sm.transactionAt pti
        let message ← pt.storedMessage
        let out ← sendSmMessage sm psi message
        return (sm, out)

def receiveEstablishmentAccept (pti psi : Nat) (selectedType : UInt8)
    (qosRules sessionAmbr : List UInt8) (qosFlows pduAddress : Option (List UInt8)) :
    Except Fault (NasSm × List SmOutput) := do
  if !(← checkPtiAndPsi sm pti psi) then return (sm, [.smCause .invalidPtiValue pti psi])
  else
    let sm ← freeProcedureTransactionId sm pti
    let pduSession ← sm.sessionAt psi
    if pduSession.psState ≠ .activePending then
      return (sm, [.smCause .messageTypeNotCompatibleWithTheProtocolState pti psi])
    else
      let session : PduSession := { pduSession with
        psState := .active
        authorizedQoSRules := some qosRules
        sessionAmbr := some sessionAmbr
        sessionType := selectedType
        authorizedQoSFlowDescriptions := qosFlows
        pduAddress := pduAddress }
      return ({ sm with pduSessions := update sm.pduSessions psi session },
        [.sessionEstablishment psi session])

def receiveEstablishmentReject (pti psi : Nat) : Except Fault (NasSm × List SmOutput) := do
  if !(← checkPtiAndPsi sm pti psi) then return (sm, [.smCause .invalidPtiValue pti psi])
  else
    let sm ← freeProcedureTransactionId sm pti
    let pduSession ← sm.sessionAt psi
    if pduSession.psState ≠ .activePending then
      return (sm, [.smCause .messageTypeNotCompatibleWithTheProtocolState pti psi])
    else
      let sm ← setPsState sm psi .inactive
      return (sm, [])

def receiveReleaseReject (pti psi : Nat) (cause : ESmCause) :
    Except Fault (NasSm × List SmOutput) := do
  if !(← checkPtiAndPsi sm pti psi) then return (sm, [.smCause .invalidPtiValue pti psi])
  else
    let sm ← freeProcedureTransactionId sm pti
    if cause ≠ .ptiAlreadyInUse ∧ cause ≠ .invalidPduSessionIdentity then
      let pduSession ← sm.sessionAt psi
      if pduSession.psState ≠ .inactivePending then
        return (sm, [.smCause .messageTypeNotCompatibleWithTheProtocolState pti psi])
      else
        let sm ← setPsState sm psi .active
        return (sm, [])
    else localReleaseSession sm psi

/-- The end of `receiveReleaseCommand`. -/
def completeRelease (mm : MmStatus) (pti psi : Nat) (reactivation : Option SessionConfig) :
    Except Fault (NasSm × List SmOutput) := do
  let complete ← sendSmMessage sm psi ⟨.pduSessionReleaseComplete, pti, psi⟩
  match reactivation with
  | none => return (sm, complete)
  | some config =>
    let established ← sendEstablishmentRequest sm mm config
    return (established.1, complete ++ established.2)

def receiveReleaseCommand (mm : MmStatus) (pti psi : Nat) (cause : ESmCause) :
    Except Fault (NasSm × List SmOutput) := do
  let session ← sm.sessionAt psi
  if session.psState = .inactive then return (sm, [.smCause .invalidPduSessionIdentity pti psi])
  else if session.psState = .activePending then return (sm, [])
  else
    let reactivation : Option SessionConfig :=
      if cause = .reactivationRequested then
        some { type := session.sessionType, apn := session.apn, sNssai := session.sNssai }
      else none
    let released ← localReleaseSession sm psi
    if pti ≠ 0 then
      let pt ← released.1.transactionAt pti
      if pt.message.map SmRequest.messageType ≠ some .pduSessionReleaseRequest then
        return (released.1, released.2 ++ [.smCause .ptiMismatch pti psi])
      else
        let sm ← freeProcedureTransactionId released.1 pti
        let completed ← completeRelease sm mm pti psi reactivation
        return (completed.1, released.2 ++ completed.2)
    else
      let completed ← completeRelease released.1 mm pti psi reactivation
      return (completed.1, released.2 ++ completed.2)

def receiveSmStatus (pti psi : Nat) (cause : ESmCause) : Except Fault (NasSm × List SmOutput) :=
  if cause = .invalidPtiValue then abortProcedureByPti sm pti
  else if cause = .messageTypeNonExistentOrNotImplemented then abortProcedureByPtiOrPsi sm pti psi
  else .ok (sm, [])

def receiveSmMessage (mm : MmStatus) : SmMessage → Except Fault (NasSm × List SmOutput)
  | .establishmentAccept pti psi selectedType qosRules sessionAmbr qosFlows pduAddress =>
    receiveEstablishmentAccept sm pti psi selectedType qosRules sessionAmbr qosFlows pduAddress
  | .establishmentReject pti psi _ => receiveEstablishmentReject sm pti psi
  | .releaseReject pti psi cause => receiveReleaseReject sm pti psi cause
  | .releaseCommand pti psi cause => receiveReleaseCommand sm mm pti psi cause
  | .smStatus pti psi cause => receiveSmStatus sm pti psi cause
  | .other _ _ _ => .ok (sm, [])

def receiveForwardingFailure (pti psi : Nat) : Except Fault (NasSm × List SmOutput) := do
  if !(← checkPtiAndPsi sm pti psi) then return (sm, [.smCause .invalidPtiValue pti psi])
  else abortProcedureByPti sm pti

/-- A message is handed over by the MM layer, with a cause if it has not been forwarded. -/
def deliver (mm : MmStatus) (hasMmCause : Bool) (msg : SmMessage) :
    Except Fault (NasSm × List SmOutput) :=
  if hasMmCause then receiveForwardingFailure sm msg.pti msg.psi else receiveSmMessage sm mm msg

end Bounded

/-! ## What is in bounds -/

/-- The session of a transaction is in the table. -/
def Sized (sm : NasSm) : Prop := ∀ pti, (sm.procedureTransactions pti).psi < 16

/-- What a message has to keep to that is not looked at before: a release command names a session,
and a transaction where the session is to be released, and so does a status message that ends
procedures. -/
def InBounds (sm : NasSm) : SmMessage → Prop
  | .releaseCommand pti psi _ => psi < 16 ∧
      (sm.psState psi ≠ .inactive → sm.psState psi ≠ .activePending → pti < 255)
  | .smStatus pti _ cause =>
      cause = .invalidPtiValue ∨ cause = .messageTypeNonExistentOrNotImplemented → pti < 255
  | _ => True

variable {sm : NasSm} {pti psi : Nat}

theorem sessionAt_of_lt (h : psi < 16) : sm.sessionAt psi = .ok (sm.pduSessions psi) := if_pos h

theorem transactionAt_of_lt (h : pti < 255) :
    sm.transactionAt pti = .ok (sm.procedureTransactions pti) := if_pos h

theorem returns_sessionAt_iff : Returns (sm.sessionAt psi) ↔ psi < 16 := by
  unfold sessionAt
  split <;> simp_all

theorem returns_transactionAt_iff : Returns (sm.transactionAt pti) ↔ pti < 255 := by
  unfold transactionAt
  split <;> simp_all

theorem Sized.free (h : sm.Sized) (pti : Nat) : (sm.freeProcedureTransactionId pti).Sized := by
  intro id
  simp only [freeProcedureTransactionId, update_apply]
  split
  · decide
  · exact h id

theorem Sized.startTransaction (h : sm.Sized) (hpsi : psi < 16) (pti code : Nat)
    (messageType : SmMessageType) : (sm.startTransaction pti psi code messageType).1.Sized := by
  intro id
  simp only [NasSm.startTransaction, update_apply]
  split
  · exact hpsi
  · exact h id

/-- The sessions are of no account. -/
theorem Sized.setPduSessions (h : sm.Sized) (pduSessions : Nat → PduSession) :
    ({ sm with pduSessions } : NasSm).Sized := h

theorem Sized.abort (h : sm.Sized) (pti : Nat) : (sm.abortProcedureByPti pti).1.Sized := by
  unfold abortProcedureByPti
  dsimp only
  split
  · exact h
  · split
    · exact h
    · split
      · exact (h.free pti).setPduSessions _
      · split
        · exact (h.free pti).setPduSessions _
        · exact h

theorem Sized.abortAll (h : sm.Sized) (ids : List Nat) : (sm.abortAll ids).1.Sized := by
  induction ids generalizing sm with
  | nil => exact h
  | cons pti ids ih => exact ih (h.abort pti)

theorem lt_of_allocatePduSessionId {config : SessionConfig}
    (h : sm.allocatePduSessionId config = some psi) : psi < 16 := by
  unfold allocatePduSessionId at h
  split at h
  · cases h
  · have hrange := List.mem_range'_1.mp (List.mem_of_find?_eq_some h)
    omega

theorem Sized.sendEstablishmentRequest (h : sm.Sized) (mm : MmStatus) (config : SessionConfig) :
    (sm.sendEstablishmentRequest mm config).1.Sized := by
  unfold NasSm.sendEstablishmentRequest
  repeat' split
  all_goals first
    | exact h
    | exact h.setPduSessions _
    | exact (h.setPduSessions _).startTransaction (lt_of_allocatePduSessionId ‹_›) _ _ _

/-! ## Each handler -/

namespace Bounded

theorem setPsState_eq (h : psi < 16) (psState : EPsState) :
    setPsState sm psi psState = .ok (sm.setPsState psi psState) := by
  rw [setPsState, sessionAt_of_lt h]
  rfl

theorem freeProcedureTransactionId_eq (h : pti < 255) :
    freeProcedureTransactionId sm pti = .ok (sm.freeProcedureTransactionId pti) := by
  rw [freeProcedureTransactionId, transactionAt_of_lt h]
  rfl

theorem localReleaseSession_eq (h : psi < 16) :
    localReleaseSession sm psi = .ok (sm.localReleaseSession psi) := by
  rw [localReleaseSession, sessionAt_of_lt h, ok_bind, freePduSessionId, setPsState_eq h]
  rfl

theorem sendSmMessage_eq (h : psi < 16) (msg : SmRequest) :
    sendSmMessage sm psi msg = .ok [.smMessage psi msg] := by
  rw [sendSmMessage, sessionAt_of_lt h]
  rfl

theorem checkPtiAndPsi_eq : checkPtiAndPsi sm pti psi = .ok (sm.checkPtiAndPsi pti psi) := by
  unfold checkPtiAndPsi NasSm.checkPtiAndPsi
  by_cases hrange : pti < 1 ∨ 254 < pti
  · have hnot : ¬(1 ≤ pti ∧ pti ≤ 254 ∧ (sm.procedureTransactions pti).psi = psi) := by omega
    rw [if_pos hrange, decide_eq_false hnot]
  · have hiff : (1 ≤ pti ∧ pti ≤ 254 ∧ (sm.procedureTransactions pti).psi = psi) ↔
        (sm.procedureTransactions pti).psi = psi := by omega
    rw [if_neg hrange, transactionAt_of_lt (by omega), ok_bind, decide_eq_decide.mpr hiff]
    rfl

theorem lt_of_check (h : sm.Sized) (hcheck : sm.checkPtiAndPsi pti psi = true) :
    pti < 255 ∧ psi < 16 := by
  obtain ⟨hrange, hpsi⟩ := check_iff.mp hcheck
  exact ⟨by omega, hpsi ▸ h pti⟩

theorem abortProcedureByPti_eq (h : sm.Sized) (hpti : pti < 255) :
    abortProcedureByPti sm pti = .ok (sm.abortProcedureByPti pti) := by
  have hpsi := h pti
  unfold abortProcedureByPti NasSm.abortProcedureByPti
  rw [transactionAt_of_lt hpti, ok_bind]
  generalize sm.procedureTransactions pti = pt at hpsi
  dsimp only
  by_cases hstate : pt.state ≠ .pending
  · rw [if_pos hstate, if_pos hstate]
    rfl
  rw [if_neg hstate, if_neg hstate]
  cases hmessage : pt.message with
  | none =>
    rw [if_pos rfl]
    rfl
  | some msg =>
    have hstored : pt.storedMessage = .ok msg := by
      unfold ProcedureTransaction.storedMessage
      rw [hmessage]
      rfl
    rw [if_neg (Option.some_ne_none msg), hstored, ok_bind]
    dsimp only
    by_cases hestablishment : msg.messageType = .pduSessionEstablishmentRequest
    · rw [if_pos hestablishment, if_pos hestablishment, freeProcedureTransactionId_eq hpti, ok_bind,
        freePduSessionId, setPsState_eq hpsi]
      rfl
    rw [if_neg hestablishment, if_neg hestablishment]
    by_cases hrelease : msg.messageType = .pduSessionReleaseRequest
    · rw [if_pos hrelease, if_pos hrelease, freeProcedureTransactionId_eq hpti, ok_bind,
        localReleaseSession_eq hpsi]
    · rw [if_neg hrelease, if_neg hrelease]
      rfl

theorem returns_abortProcedureByPti_iff (h : sm.Sized) :
    Returns (abortProcedureByPti sm pti) ↔ pti < 255 := by
  constructor
  · intro hreturns
    obtain ⟨pt, hpt, -⟩ := returns_bind.mp hreturns
    exact returns_transactionAt_iff.mp ⟨pt, hpt⟩
  · intro hpti
    rw [abortProcedureByPti_eq h hpti]
    exact returns_ok _

variable {ids : List Nat}

theorem abortAll_eq (h : sm.Sized) (hids : ∀ id ∈ ids, id < 255) :
    abortAll sm ids = .ok (sm.abortAll ids) := by
  induction ids generalizing sm with
  | nil => rfl
  | cons pti ids ih =>
    obtain ⟨hpti, hids⟩ := List.forall_mem_cons.mp hids
    rw [abortAll, abortProcedureByPti_eq h hpti, ok_bind, ih (h.abort pti) hids]
    rfl

theorem returns_abortAll_iff (h : sm.Sized) : Returns (abortAll sm ids) ↔ ∀ id ∈ ids, id < 255 := by
  constructor
  · intro hreturns
    induction ids generalizing sm with
    | nil => exact fun _ hid => absurd hid List.not_mem_nil
    | cons pti ids ih =>
      obtain ⟨aborted, haborted, hrest⟩ := returns_bind.mp hreturns
      have hpti := (returns_abortProcedureByPti_iff h).mp ⟨aborted, haborted⟩
      rw [abortProcedureByPti_eq h hpti] at haborted
      obtain rfl := Except.ok.inj haborted
      obtain ⟨others, hothers, -⟩ := returns_bind.mp hrest
      exact List.forall_mem_cons.mpr ⟨hpti, ih (h.abort pti) ⟨others, hothers⟩⟩
  · intro hids
    rw [abortAll_eq h hids]
    exact returns_ok _

theorem ptiToAbort_eq (hpti : pti < 255) : ptiToAbort sm pti psi = sm.ptiToAbort pti psi := by
  unfold ptiToAbort NasSm.ptiToAbort
  rw [max_eq_left (by omega)]
  refine List.filter_congr fun id hid => decide_eq_decide.mpr ?_
  have hlt := List.mem_range.mp hid
  simp [hlt]

theorem returns_abortProcedureByPtiOrPsi_iff (h : sm.Sized) :
    Returns (abortProcedureByPtiOrPsi sm pti psi) ↔ pti < 255 := by
  rw [abortProcedureByPtiOrPsi, returns_abortAll_iff h]
  constructor
  · intro hids
    apply hids pti
    simp [ptiToAbort]
  · intro hpti id hid
    rw [ptiToAbort, max_eq_left (by omega)] at hid
    exact List.mem_range.mp (List.mem_filter.mp hid).1

theorem allocatePduSessionId_eq (config : SessionConfig) :
    allocatePduSessionId sm config = .ok (sm.allocatePduSessionId config) := by
  unfold allocatePduSessionId NasSm.allocatePduSessionId
  split
  · rfl
  · apply findM?_eq_find?
    intro psi hpsi
    have hrange := List.mem_range'_1.mp hpsi
    rw [sessionAt_of_lt (by omega)]
    rfl

theorem allocateProcedureTransactionId_eq :
    allocateProcedureTransactionId sm = .ok sm.allocateProcedureTransactionId := by
  apply findM?_eq_find?
  intro pti hpti
  have hrange := List.mem_range'_1.mp hpti
  rw [transactionAt_of_lt (by omega)]
  rfl

/-- A request makes all of its accesses in the tables. -/
theorem sendEstablishmentRequest_eq (mm : MmStatus) (config : SessionConfig) :
    sendEstablishmentRequest sm mm config = .ok (sm.sendEstablishmentRequest mm config) := by
  unfold sendEstablishmentRequest NasSm.sendEstablishmentRequest
  iterate 5
    split
    · rfl
  rw [allocatePduSessionId_eq, ok_bind, allocateProcedureTransactionId_eq]
  cases hpsi : sm.allocatePduSessionId config with
  | none => rfl
  | some psi =>
    have hlt := lt_of_allocatePduSessionId hpsi
    dsimp only
    rw [ok_bind]
    cases hpti : sm.allocateProcedureTransactionId with
    | none =>
      dsimp only
      rw [freePduSessionId, setPsState_eq hlt]
      rfl
    | some pti =>
      obtain ⟨hrange, -⟩ := of_allocateProcedureTransactionId hpti
      dsimp only
      rw [sessionAt_of_lt hlt, ok_bind, transactionAt_of_lt (by omega), ok_bind,
        transactionAt_of_lt (by omega), ok_bind]
      simp only [startTransaction, update_self]
      exact bind_eq_ok.mpr ⟨_, rfl, bind_eq_ok.mpr ⟨_, sendSmMessage_eq hlt _, rfl⟩⟩

theorem receiveEstablishmentAccept_eq (h : sm.Sized) (pti psi : Nat) (selectedType : UInt8)
    (qosRules sessionAmbr : List UInt8) (qosFlows pduAddress : Option (List UInt8)) :
    receiveEstablishmentAccept sm pti psi selectedType qosRules sessionAmbr qosFlows pduAddress =
      .ok (sm.receiveEstablishmentAccept pti psi selectedType qosRules sessionAmbr qosFlows
        pduAddress) := by
  unfold receiveEstablishmentAccept NasSm.receiveEstablishmentAccept
  rw [checkPtiAndPsi_eq, ok_bind]
  by_cases hcheck : sm.checkPtiAndPsi pti psi = true
  · obtain ⟨hpti, hpsi⟩ := lt_of_check h hcheck
    rw [hcheck, if_neg (by simp), if_neg (by simp), freeProcedureTransactionId_eq hpti, ok_bind,
      sessionAt_of_lt hpsi, ok_bind]
    dsimp only
    split <;> rfl
  · rw [if_pos (by simpa using hcheck), if_pos hcheck]
    rfl

theorem receiveEstablishmentReject_eq (h : sm.Sized) (pti psi : Nat) :
    receiveEstablishmentReject sm pti psi = .ok (sm.receiveEstablishmentReject pti psi) := by
  unfold receiveEstablishmentReject NasSm.receiveEstablishmentReject
  rw [checkPtiAndPsi_eq, ok_bind]
  by_cases hcheck : sm.checkPtiAndPsi pti psi = true
  · obtain ⟨hpti, hpsi⟩ := lt_of_check h hcheck
    rw [hcheck, if_neg (by simp), if_neg (by simp), freeProcedureTransactionId_eq hpti, ok_bind,
      sessionAt_of_lt hpsi, ok_bind, setPsState_eq hpsi]
    dsimp only
    split <;> rfl
  · rw [if_pos (by simpa using hcheck), if_pos hcheck]
    rfl

theorem receiveReleaseReject_eq (h : sm.Sized) (pti psi : Nat) (cause : ESmCause) :
    receiveReleaseReject sm pti psi cause = .ok (sm.receiveReleaseReject pti psi cause) := by
  unfold receiveReleaseReject NasSm.receiveReleaseReject
  rw [checkPtiAndPsi_eq, ok_bind]
  by_cases hcheck : sm.checkPtiAndPsi pti psi = true
  · obtain ⟨hpti, hpsi⟩ := lt_of_check h hcheck
    rw [hcheck, if_neg (by simp), if_neg (by simp), freeProcedureTransactionId_eq hpti, ok_bind,
      sessionAt_of_lt hpsi, ok_bind, setPsState_eq hpsi, localReleaseSession_eq hpsi]
    dsimp only
    split
    · split <;> rfl
    · rfl
  · rw [if_pos (by simpa using hcheck), if_pos hcheck]
    rfl

theorem receiveForwardingFailure_eq (h : sm.Sized) (pti psi : Nat) :
    receiveForwardingFailure sm pti psi = .ok (sm.receiveForwardingFailure pti psi) := by
  unfold receiveForwardingFailure NasSm.receiveForwardingFailure
  rw [checkPtiAndPsi_eq, ok_bind]
  by_cases hcheck : sm.checkPtiAndPsi pti psi = true
  · rw [hcheck, if_neg (by simp), if_neg (by simp),
      abortProcedureByPti_eq h (lt_of_check h hcheck).1]
  · rw [if_pos (by simpa using hcheck), if_pos hcheck]
    rfl

theorem completeRelease_eq (hpsi : psi < 16) (mm : MmStatus) (reactivation : Option SessionConfig) :
    completeRelease sm mm pti psi reactivation = .ok (sm.completeRelease mm pti psi reactivation) := by
  unfold completeRelease NasSm.completeRelease
  rw [sendSmMessage_eq hpsi, ok_bind]
  cases reactivation with
  | none => rfl
  | some config =>
    dsimp only
    rw [sendEstablishmentRequest_eq]
    rfl

variable {cause : ESmCause}

/-- A release command is carried out where its session is in the table, and its transaction if
that is looked at. -/
theorem receiveReleaseCommand_eq (mm : MmStatus) (h : sm.InBounds (.releaseCommand pti psi cause)) :
    receiveReleaseCommand sm mm pti psi cause = .ok (sm.receiveReleaseCommand mm pti psi cause) := by
  obtain ⟨hpsi, hpti⟩ := h
  unfold receiveReleaseCommand NasSm.receiveReleaseCommand
  rw [sessionAt_of_lt hpsi, ok_bind, localReleaseSession_eq hpsi]
  dsimp only
  by_cases hinactive : (sm.pduSessions psi).psState = .inactive
  · rw [if_pos hinactive, if_pos hinactive]
    rfl
  rw [if_neg hinactive, if_neg hinactive]
  by_cases hpending : (sm.pduSessions psi).psState = .activePending
  · rw [if_pos hpending, if_pos hpending]
    rfl
  rw [if_neg hpending, if_neg hpending, ok_bind]
  have hpti : pti < 255 := hpti hinactive hpending
  by_cases hzero : pti ≠ 0
  · rw [if_pos hzero, if_pos hzero, transactionAt_of_lt hpti, ok_bind]
    split
    · rfl
    · rw [freeProcedureTransactionId_eq hpti, ok_bind, completeRelease_eq hpsi]
      rfl
  · rw [if_neg hzero, if_neg hzero, completeRelease_eq hpsi]
    rfl

theorem returns_receiveReleaseCommand_iff (mm : MmStatus) :
    Returns (receiveReleaseCommand sm mm pti psi cause) ↔
      sm.InBounds (.releaseCommand pti psi cause) := by
  constructor
  · intro hreturns
    obtain ⟨session, hsession, hrest⟩ := returns_bind.mp hreturns
    have hpsi := returns_sessionAt_iff.mp ⟨session, hsession⟩
    rw [sessionAt_of_lt hpsi] at hsession
    obtain rfl := Except.ok.inj hsession
    refine ⟨hpsi, fun hinactive hpending => ?_⟩
    have hinactive : (sm.pduSessions psi).psState ≠ .inactive := hinactive
    have hpending : (sm.pduSessions psi).psState ≠ .activePending := hpending
    rw [if_neg hinactive, if_neg hpending] at hrest
    obtain ⟨released, -, hrest⟩ := returns_bind.mp hrest
    by_cases hzero : pti ≠ 0
    · rw [if_pos hzero] at hrest
      obtain ⟨pt, hpt, -⟩ := returns_bind.mp hrest
      exact returns_transactionAt_iff.mp ⟨pt, hpt⟩
    · omega
  · intro h
    rw [receiveReleaseCommand_eq mm h]
    exact returns_ok _

theorem returns_receiveSmStatus_iff (h : sm.Sized) :
    Returns (receiveSmStatus sm pti psi cause) ↔ sm.InBounds (.smStatus pti psi cause) := by
  unfold receiveSmStatus InBounds
  by_cases hinvalid : cause = .invalidPtiValue
  · rw [if_pos hinvalid, returns_abortProcedureByPti_iff h]
    simp [hinvalid]
  rw [if_neg hinvalid]
  by_cases hnonExistent : cause = .messageTypeNonExistentOrNotImplemented
  · rw [if_pos hnonExistent, returns_abortProcedureByPtiOrPsi_iff h]
    simp [hnonExistent]
  · rw [if_neg hnonExistent]
    simp [hinvalid, hnonExistent]

theorem receiveSmStatus_eq (h : sm.Sized) (hbounds : sm.InBounds (.smStatus pti psi cause)) :
    receiveSmStatus sm pti psi cause = .ok (sm.receiveSmStatus pti psi cause) := by
  unfold receiveSmStatus NasSm.receiveSmStatus
  by_cases hinvalid : cause = .invalidPtiValue
  · rw [if_pos hinvalid, if_pos hinvalid, abortProcedureByPti_eq h (hbounds (.inl hinvalid))]
  rw [if_neg hinvalid, if_neg hinvalid]
  by_cases hnonExistent : cause = .messageTypeNonExistentOrNotImplemented
  · have hpti : pti < 255 := hbounds (.inr hnonExistent)
    rw [if_pos hnonExistent, if_pos hnonExistent, abortProcedureByPtiOrPsi, ptiToAbort_eq hpti]
    refine abortAll_eq h fun id hid => ?_
    exact List.mem_range.mp (List.mem_filter.mp hid).1
  · rw [if_neg hnonExistent, if_neg hnonExistent]

/-! ## Each message -/

/-- A message is handled inside the tables, or there is an access outside. -/
theorem returns_deliver_iff (h : sm.Sized) (mm : MmStatus) (hasMmCause : Bool) (msg : SmMessage) :
    Returns (deliver sm mm hasMmCause msg) ↔ (hasMmCause = false → sm.InBounds msg) := by
  cases hasMmCause with
  | true =>
    rw [deliver, if_pos rfl, receiveForwardingFailure_eq h]
    exact iff_of_true (returns_ok _) fun hfalse => absurd hfalse (by decide)
  | false =>
    rw [deliver, if_neg (by decide), forall_prop_of_true rfl]
    cases msg with
    | establishmentAccept pti psi selectedType qosRules sessionAmbr qosFlows pduAddress =>
      rw [receiveSmMessage, receiveEstablishmentAccept_eq h]
      exact iff_of_true (returns_ok _) trivial
    | establishmentReject pti psi cause =>
      rw [receiveSmMessage, receiveEstablishmentReject_eq h]
      exact iff_of_true (returns_ok _) trivial
    | releaseReject pti psi cause =>
      rw [receiveSmMessage, receiveReleaseReject_eq h]
      exact iff_of_true (returns_ok _) trivial
    | releaseCommand pti psi cause => exact returns_receiveReleaseCommand_iff mm
    | smStatus pti psi cause => exact returns_receiveSmStatus_iff h
    | other messageType pti psi => exact iff_of_true (returns_ok _) trivial

/-- Inside the tables a message does what the handlers do that leave the bounds out. -/
theorem deliver_eq (h : sm.Sized) (mm : MmStatus) {hasMmCause : Bool} {msg : SmMessage}
    (hbounds : hasMmCause = false → sm.InBounds msg) :
    deliver sm mm hasMmCause msg =
      .ok (if hasMmCause then sm.receiveForwardingFailure msg.pti msg.psi
        else sm.receiveSmMessage mm msg) := by
  cases hasMmCause with
  | true => exact receiveForwardingFailure_eq h msg.pti msg.psi
  | false =>
    have hbounds := hbounds rfl
    rw [deliver, if_neg (by decide), if_neg (by decide)]
    cases msg with
    | establishmentAccept pti psi selectedType qosRules sessionAmbr qosFlows pduAddress =>
      exact receiveEstablishmentAccept_eq h ..
    | establishmentReject pti psi cause => exact receiveEstablishmentReject_eq h pti psi
    | releaseReject pti psi cause => exact receiveReleaseReject_eq h pti psi cause
    | releaseCommand pti psi cause => exact receiveReleaseCommand_eq mm hbounds
    | smStatus pti psi cause => exact receiveSmStatus_eq h hbounds
    | other messageType pti psi => rfl

end Bounded

/-! ## Runs -/

theorem Sized.completeRelease (h : sm.Sized) (mm : MmStatus) (pti psi : Nat)
    (reactivation : Option SessionConfig) :
    (sm.completeRelease mm pti psi reactivation).1.Sized := by
  cases reactivation with
  | none => exact h
  | some config => exact h.sendEstablishmentRequest mm config

theorem Sized.receiveReleaseCommand (h : sm.Sized) (mm : MmStatus) (pti psi : Nat)
    (cause : ESmCause) : (sm.receiveReleaseCommand mm pti psi cause).1.Sized := by
  have hreleased : (sm.localReleaseSession psi).1.Sized := h.setPduSessions _
  unfold NasSm.receiveReleaseCommand
  dsimp only
  split
  · exact h
  split
  · exact h
  split
  · split
    · exact hreleased
    · exact (hreleased.free pti).completeRelease mm pti psi _
  · exact hreleased.completeRelease mm pti psi _

theorem Sized.receiveSmMessage (h : sm.Sized) (mm : MmStatus) (msg : SmMessage) :
    (sm.receiveSmMessage mm msg).1.Sized := by
  cases msg with
  | establishmentAccept pti psi selectedType qosRules sessionAmbr qosFlows pduAddress =>
    unfold NasSm.receiveSmMessage receiveEstablishmentAccept
    dsimp only
    split
    · exact h
    · split
      · exact h.free pti
      · exact (h.free pti).setPduSessions _
  | establishmentReject pti psi cause =>
    unfold NasSm.receiveSmMessage receiveEstablishmentReject
    dsimp only
    split
    · exact h
    · split
      · exact h.free pti
      · exact (h.free pti).setPduSessions _
  | releaseReject pti psi cause =>
    unfold NasSm.receiveSmMessage receiveReleaseReject
    dsimp only
    split
    · exact h
    · split
      · split
        · exact h.free pti
        · exact (h.free pti).setPduSessions _
      · exact (h.free pti).setPduSessions _
  | releaseCommand pti psi cause => exact h.receiveReleaseCommand mm pti psi cause
  | smStatus pti psi cause =>
    unfold NasSm.receiveSmMessage receiveSmStatus
    dsimp only
    split
    · exact h.abort pti
    · split
      · exact h.abortAll _
      · exact h
  | other messageType pti psi => exact h

theorem Sized.receiveForwardingFailure (h : sm.Sized) (pti psi : Nat) :
    (sm.receiveForwardingFailure pti psi).1.Sized := by
  unfold NasSm.receiveForwardingFailure
  split
  · exact h
  · exact h.abort pti

theorem Sized.sendReleaseRequest (h : sm.Sized) (mm : MmStatus) (hpsi : psi < 16) :
    (sm.sendReleaseRequest mm psi).1.Sized := by
  unfold NasSm.sendReleaseRequest
  split
  · exact h
  split
  · exact h
  split
  · exact h
  · exact h.startTransaction hpsi _ _ _

theorem Sized.onTransactionTimerExpire (h : sm.Sized) (pti : Nat) :
    (sm.onTransactionTimerExpire pti).1.Sized := by
  unfold NasSm.onTransactionTimerExpire
  dsimp only
  split
  · exact h
  next timer htimer =>
  have hticked : ({ sm with
      procedureTransactions := update sm.procedureTransactions pti
        { sm.procedureTransactions pti with
          timer := some { timer with expiryCount := timer.expiryCount + 1 } } } : NasSm).Sized := by
    intro id
    simp only [update_apply]
    split
    · exact h pti
    · exact h id
  split
  · exact hticked
  split
  · split
    · exact hticked
    · exact hticked.abort pti
  · split
    · split
      · exact hticked
      · exact hticked.abort pti
    · exact hticked

namespace Bounded

/-- An event, with the accesses of the messages that are received. -/
def handle (sm : NasSm) : SmEvent → Except Fault (NasSm × List SmOutput)
  | .receive mm msg => deliver sm mm false msg
  | .forwardingFailure _ pti psi => receiveForwardingFailure sm pti psi
  | event => .ok (sm.handle event)

/-- What the UE does for itself names a session of the table. -/
def Own : SmEvent → Prop
  | .releaseRequest _ psi => psi < 16
  | .localRelease psi => psi < 16
  | .timerExpire pti => pti < 255
  | _ => True

/-- Session management from its start on, as long as there is no access outside the tables. -/
def system : System NasSm SmEvent where
  init sm := sm = {}
  step sm event sm' := Own event ∧ ∃ out, handle sm event = .ok (sm', out)

theorem sized_run {events : List SmEvent} (h : system.Run System.unrestricted events sm) :
    sm.Sized := by
  apply h.invariant
  · rintro sm rfl
    exact fun _ => Nat.zero_lt_succ _
  · rintro sm event sm' hsized - ⟨hown, out, hhandle⟩
    have hown' (hsame : handle sm event = .ok (sm.handle event))
        (hafter : (sm.handle event).1.Sized) : sm'.Sized := by
      have heq := Except.ok.inj (hsame.symm.trans hhandle)
      rwa [heq] at hafter
    cases event with
    | establishmentRequest mm config => exact hown' rfl (hsized.sendEstablishmentRequest mm config)
    | releaseRequest mm psi => exact hown' rfl (hsized.sendReleaseRequest mm hown)
    | receive mm msg =>
      have hbounds := (returns_deliver_iff hsized mm false msg).mp ⟨_, hhandle⟩
      exact hown' (deliver_eq hsized mm hbounds) (hsized.receiveSmMessage mm msg)
    | timerExpire pti => exact hown' rfl (hsized.onTransactionTimerExpire pti)
    | forwardingFailure messageType pti psi =>
      exact hown' (receiveForwardingFailure_eq hsized pti psi)
        (hsized.receiveForwardingFailure pti psi)
    | localRelease psi => exact hown' rfl (hsized.setPduSessions _)

end Bounded

/-- In every state of a run a message is handled inside the tables, exactly if it is in bounds
itself or comes with a cause of the MM layer. -/
theorem sm_accesses_in_bounds_iff {events : List SmEvent} {sm : NasSm}
    (hrun : Bounded.system.Run System.unrestricted events sm) (mm : MmStatus) (hasMmCause : Bool)
    (msg : SmMessage) :
    Returns (Bounded.deliver sm mm hasMmCause msg) ↔ (hasMmCause = false → sm.InBounds msg) :=
  Bounded.returns_deliver_iff (Bounded.sized_run hrun) mm hasMmCause msg

/-- A release command for a session that is not there. -/
theorem sm_accesses_in_bounds_inactive :
    Returns (Bounded.deliver {} ⟨true, false, false, false, false⟩ false (.releaseCommand 255 15 36)) :=
  (sm_accesses_in_bounds_iff (.nil rfl) _ _ _).mpr fun _ => ⟨by decide, fun h => absurd rfl h⟩

/-- A release command for a session behind the table, and a status message for the transaction
behind the other one. -/
theorem not_sm_accesses_in_bounds :
    Bounded.system.Run System.unrestricted [] {} ∧
      Bounded.deliver {} ⟨true, false, false, false, false⟩ false (.releaseCommand 0 16 36) = .error .outOfBounds ∧
      Bounded.deliver {} ⟨true, false, false, false, false⟩ false (.smStatus 255 0 .invalidPtiValue) = .error .outOfBounds :=
  ⟨.nil rfl, rfl, rfl⟩

end NasSm

end Quicup.Ueransim
