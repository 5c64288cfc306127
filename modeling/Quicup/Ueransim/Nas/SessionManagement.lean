import Mathlib.Logic.Function.Basic

/-!
# Session management of the UE

The handlers of `nas/sm`. Sessions are kept by their identity (PSI) and procedures by that of their
transaction (PTI), in two tables that each handler changes on its own.
-/

namespace Quicup.Ueransim

open Function

inductive EPsState
  | inactive | activePending | active | inactivePending | modificationPending
  deriving DecidableEq

inductive EPtState
  | inactive | pending
  deriving DecidableEq

/-- The types of session management messages in `EMessageType`. -/
inductive SmMessageType
  | pduSessionEstablishmentRequest | pduSessionEstablishmentAccept | pduSessionEstablishmentReject
  | pduSessionAuthenticationCommand | pduSessionAuthenticationComplete
  | pduSessionAuthenticationResult
  | pduSessionModificationRequest | pduSessionModificationReject | pduSessionModificationCommand
  | pduSessionModificationComplete | pduSessionModificationCommandReject
  | pduSessionReleaseRequest | pduSessionReleaseReject | pduSessionReleaseCommand
  | pduSessionReleaseComplete
  | fiveGSmStatus
  deriving DecidableEq

abbrev ESmCause : Type := UInt8

namespace ESmCause

def ptiAlreadyInUse : ESmCause := 0b00100011
def reactivationRequested : ESmCause := 0b00100111
def invalidPduSessionIdentity : ESmCause := 0b00101011
def ptiMismatch : ESmCause := 0b00101111
def invalidPtiValue : ESmCause := 0b01010001
def messageTypeNonExistentOrNotImplemented : ESmCause := 0b01100001
def messageTypeNotCompatibleWithTheProtocolState : ESmCause := 0b01100010

end ESmCause

/-- `EPduSessionType::IPV4` -/
def ipv4SessionType : UInt8 := 0b001

structure SingleSlice where
  sst : UInt8
  sd : Option (BitVec 24)
  deriving DecidableEq

structure SessionConfig where
  type : UInt8
  apn : Option String := none
  sNssai : Option SingleSlice := none
  isEmergency : Bool := false
  deriving DecidableEq

/-- A session, with the values of the IEs that its establishment has brought. -/
structure PduSession where
  psState : EPsState := .inactive
  uplinkPending : Bool := false
  sessionType : UInt8 := 0
  apn : Option String := none
  sNssai : Option SingleSlice := none
  isEmergency : Bool := false
  authorizedQoSRules : Option (List UInt8) := none
  sessionAmbr : Option (List UInt8) := none
  authorizedQoSFlowDescriptions : Option (List UInt8) := none
  pduAddress : Option (List UInt8) := none
  deriving DecidableEq

/-- The timer of a transaction while it runs. -/
structure SmTimer where
  code : Nat
  expiryCount : Nat := 0
  deriving DecidableEq

/-- The type and the identities of a message that is kept to be sent again. -/
structure SmRequest where
  messageType : SmMessageType
  pti : Nat
  pduSessionId : Nat
  deriving DecidableEq

structure ProcedureTransaction where
  state : EPtState := .inactive
  timer : Option SmTimer := none
  message : Option SmRequest := none
  psi : Nat := 0
  deriving DecidableEq

/-- What session management asks of `NasMm` before a request. -/
structure MmStatus where
  rmRegistered : Bool
  nonAllowedService : Bool
  hasEmergency : Bool
  highPriority : Bool
  registeredForEmergency : Bool
  deriving DecidableEq

inductive SmOutput
  | smMessage (psi : Nat) (msg : SmRequest)
  | smCause (cause : ESmCause) (pti psi : Nat)
  | sessionEstablishment (psi : Nat) (session : PduSession)
  | sessionRelease (psi : Nat)
  | mobilityUpdatingRequired
  deriving DecidableEq

/-- A received message, as far as it is read. -/
inductive SmMessage
  | establishmentAccept (pti psi : Nat) (selectedType : UInt8) (qosRules sessionAmbr : List UInt8)
      (qosFlows pduAddress : Option (List UInt8))
  | establishmentReject (pti psi : Nat) (cause : ESmCause)
  | releaseReject (pti psi : Nat) (cause : ESmCause)
  | releaseCommand (pti psi : Nat) (cause : ESmCause)
  | smStatus (pti psi : Nat) (cause : ESmCause)
  | other (messageType : SmMessageType) (pti psi : Nat)
  deriving DecidableEq

structure NasSm where
  pduSessions : Nat → PduSession := fun _ => {}
  procedureTransactions : Nat → ProcedureTransaction := fun _ => {}

/-- `IsEstablished` -/
def EPsState.isEstablished : EPsState → Bool
  | .active | .inactivePending | .modificationPending => true
  | _ => false

namespace NasSm

variable (sm : NasSm)

/-! ## Allocation -/

/-- `allocatePduSessionId`, which gives the first inactive session. -/
def allocatePduSessionId (config : SessionConfig) : Option Nat :=
  if config.type ≠ ipv4SessionType then none
  else (List.range' 1 15).find? fun psi => (sm.pduSessions psi).psState = .inactive

/-- `allocateProcedureTransactionId`. The transaction it gives is cleared by its caller. -/
def allocateProcedureTransactionId : Option Nat :=
  (List.range' 1 254).find? fun pti => (sm.procedureTransactions pti).state = .inactive

def freeProcedureTransactionId (pti : Nat) : NasSm :=
  { sm with procedureTransactions := update sm.procedureTransactions pti {} }

def setPsState (psi : Nat) (psState : EPsState) : NasSm :=
  { sm with
    pduSessions := update sm.pduSessions psi { sm.pduSessions psi with psState } }

def freePduSessionId (psi : Nat) : NasSm := sm.setPsState psi .inactive

/-- Whether `checkPtiAndPsi` finds the transaction of a message, and for its session. -/
def checkPtiAndPsi (pti psi : Nat) : Bool :=
  1 ≤ pti ∧ pti ≤ 254 ∧ (sm.procedureTransactions pti).psi = psi

def localReleaseSession (psi : Nat) : NasSm × List SmOutput :=
  (sm.freePduSessionId psi,
    if (sm.pduSessions psi).psState.isEstablished then [.sessionRelease psi] else [])

/-- `abortProcedureByPti`, which knows the procedures of two kinds. -/
def abortProcedureByPti (pti : Nat) : NasSm × List SmOutput :=
  let pt := sm.procedureTransactions pti
  if pt.state ≠ .pending then (sm, [])
  else
    match pt.message with
    | none => (sm, [])
    | some msg =>
      if msg.messageType = .pduSessionEstablishmentRequest then
        ((sm.freeProcedureTransactionId pti).freePduSessionId pt.psi, [])
      else if msg.messageType = .pduSessionReleaseRequest then
        (sm.freeProcedureTransactionId pti).localReleaseSession pt.psi
      else (sm, [])

/-- The pending transactions of a session and one more, in the order of a set. -/
def ptiToAbort (pti psi : Nat) : List Nat :=
  (List.range 255).filter fun id => id = pti ∨
    ((sm.procedureTransactions id).state = .pending ∧ (sm.procedureTransactions id).psi = psi)

def abortAll : NasSm → List Nat → NasSm × List SmOutput
  | sm, [] => (sm, [])
  | sm, pti :: rest =>
    let (sm, out) := sm.abortProcedureByPti pti
    let (sm, outs) := abortAll sm rest
    (sm, out ++ outs)

def abortProcedureByPtiOrPsi (pti psi : Nat) : NasSm × List SmOutput :=
  sm.abortAll (sm.ptiToAbort pti psi)

/-! ## Requests -/

/-- A request is sent, and kept with a timer until it is answered. -/
def startTransaction (pti psi code : Nat) (messageType : SmMessageType) : NasSm × List SmOutput :=
  let message : SmRequest := ⟨messageType, pti, psi⟩
  let pt : ProcedureTransaction :=
    { state := .pending, timer := some { code }, message := some message, psi }
  ({ sm with procedureTransactions := update sm.procedureTransactions pti pt },
    [.smMessage psi message])

def anyEmergencySession : Bool :=
  (List.range 16).any fun psi =>
    (sm.pduSessions psi).psState ≠ .inactive && (sm.pduSessions psi).isEmergency

def sendEstablishmentRequest (mm : MmStatus) (config : SessionConfig) : NasSm × List SmOutput :=
  if ¬ mm.rmRegistered then (sm, [])
  else if mm.nonAllowedService ∧ ¬ mm.hasEmergency ∧ ¬ mm.highPriority then (sm, [])
  else if config.type ≠ ipv4SessionType then (sm, [])
  else if mm.registeredForEmergency ∧ ¬ config.isEmergency then (sm, [])
  else if config.isEmergency ∧ sm.anyEmergencySession then (sm, [])
  else
    match sm.allocatePduSessionId config with
    | none => (sm, [])
    | some psi =>
      match sm.allocateProcedureTransactionId with
      | none => (sm.freePduSessionId psi, [])
      | some pti =>
        let session : PduSession :=
          { psState := .activePending
            sessionType := config.type
            apn := config.apn
            sNssai := config.sNssai
            isEmergency := config.isEmergency }
        let sm := { sm with pduSessions := update sm.pduSessions psi session }
        sm.startTransaction pti psi 3580 .pduSessionEstablishmentRequest

def sendReleaseRequest (mm : MmStatus) (psi : Nat) : NasSm × List SmOutput :=
  if mm.nonAllowedService ∧ ¬ mm.hasEmergency ∧ ¬ mm.highPriority then (sm, [])
  else if (sm.pduSessions psi).psState ≠ .active then (sm, [])
  else
    match sm.allocateProcedureTransactionId with
    | none => (sm, [])
    | some pti => sm.startTransaction pti psi 3582 .pduSessionReleaseRequest

/-! ## Reception -/

def receiveEstablishmentAccept (pti psi : Nat) (selectedType : UInt8)
    (qosRules sessionAmbr : List UInt8) (qosFlows pduAddress : Option (List UInt8)) :
    NasSm × List SmOutput :=
  if ¬ sm.checkPtiAndPsi pti psi then (sm, [.smCause .invalidPtiValue pti psi])
  else
    let sm := sm.freeProcedureTransactionId pti
    if (sm.pduSessions psi).psState ≠ .activePending then
      (sm, [.smCause .messageTypeNotCompatibleWithTheProtocolState pti psi])
    else
      let session : PduSession := { sm.pduSessions psi with
        psState := .active
        authorizedQoSRules := some qosRules
        sessionAmbr := some sessionAmbr
        sessionType := selectedType
        authorizedQoSFlowDescriptions := qosFlows
        pduAddress := pduAddress }
      ({ sm with pduSessions := update sm.pduSessions psi session },
        [.sessionEstablishment psi session])

def receiveEstablishmentReject (pti psi : Nat) : NasSm × List SmOutput :=
  if ¬ sm.checkPtiAndPsi pti psi then (sm, [.smCause .invalidPtiValue pti psi])
  else
    let sm := sm.freeProcedureTransactionId pti
    if (sm.pduSessions psi).psState ≠ .activePending then
      (sm, [.smCause .messageTypeNotCompatibleWithTheProtocolState pti psi])
    else (sm.freePduSessionId psi, [])

def receiveReleaseReject (pti psi : Nat) (cause : ESmCause) : NasSm × List SmOutput :=
  if ¬ sm.checkPtiAndPsi pti psi then (sm, [.smCause .invalidPtiValue pti psi])
  else
    let sm := sm.freeProcedureTransactionId pti
    if cause ≠ .ptiAlreadyInUse ∧ cause ≠ .invalidPduSessionIdentity then
      if (sm.pduSessions psi).psState ≠ .inactivePending then
        (sm, [.smCause .messageTypeNotCompatibleWithTheProtocolState pti psi])
      else
        (sm.setPsState psi .active, [])
    else sm.localReleaseSession psi

/-- The end of a release on command, with the session that is asked for again. -/
def completeRelease (mm : MmStatus) (pti psi : Nat) (reactivation : Option SessionConfig) :
    NasSm × List SmOutput :=
  let complete : SmOutput := .smMessage psi ⟨.pduSessionReleaseComplete, pti, psi⟩
  match reactivation with
  | none => (sm, [complete])
  | some config =>
    let (sm, out) := sm.sendEstablishmentRequest mm config
    (sm, complete :: out)

def receiveReleaseCommand (mm : MmStatus) (pti psi : Nat) (cause : ESmCause) :
    NasSm × List SmOutput :=
  let session := sm.pduSessions psi
  if session.psState = .inactive then (sm, [.smCause .invalidPduSessionIdentity pti psi])
  else if session.psState = .activePending then (sm, [])
  else
    let reactivation : Option SessionConfig :=
      if cause = .reactivationRequested then
        some { type := session.sessionType, apn := session.apn, sNssai := session.sNssai }
      else none
    let (sm, released) := sm.localReleaseSession psi
    if pti ≠ 0 then
      if (sm.procedureTransactions pti).message.map SmRequest.messageType ≠
          some .pduSessionReleaseRequest then
        (sm, released ++ [.smCause .ptiMismatch pti psi])
      else
        let (sm, out) :=
          (sm.freeProcedureTransactionId pti).completeRelease mm pti psi reactivation
        (sm, released ++ out)
    else
      let (sm, out) := sm.completeRelease mm pti psi reactivation
      (sm, released ++ out)

def receiveSmStatus (pti psi : Nat) (cause : ESmCause) : NasSm × List SmOutput :=
  if cause = .invalidPtiValue then sm.abortProcedureByPti pti
  else if cause = .messageTypeNonExistentOrNotImplemented then sm.abortProcedureByPtiOrPsi pti psi
  else (sm, [])

def receiveSmMessage (mm : MmStatus) : SmMessage → NasSm × List SmOutput
  | .establishmentAccept pti psi selectedType qosRules sessionAmbr qosFlows pduAddress =>
    sm.receiveEstablishmentAccept pti psi selectedType qosRules sessionAmbr qosFlows pduAddress
  | .establishmentReject pti psi _ => sm.receiveEstablishmentReject pti psi
  | .releaseReject pti psi cause => sm.receiveReleaseReject pti psi cause
  | .releaseCommand pti psi cause => sm.receiveReleaseCommand mm pti psi cause
  | .smStatus pti psi cause => sm.receiveSmStatus pti psi cause
  | .other _ _ _ => (sm, [])

/-- `receiveForwardingFailure`, for a message that the UE has sent. -/
def receiveForwardingFailure (pti psi : Nat) : NasSm × List SmOutput :=
  if ¬ sm.checkPtiAndPsi pti psi then (sm, [.smCause .invalidPtiValue pti psi])
  else sm.abortProcedureByPti pti

/-! ## Timers -/

/-- `onTransactionTimerExpire` with the tick that makes the timer expire, where there is one. -/
def onTransactionTimerExpire (pti : Nat) : NasSm × List SmOutput :=
  let pt := sm.procedureTransactions pti
  match pt.timer with
  | none => (sm, [])
  | some timer =>
    let timer := { timer with expiryCount := timer.expiryCount + 1 }
    let sm := { sm with
      procedureTransactions := update sm.procedureTransactions pti
        { pt with timer := some timer } }
    if pt.state = .inactive then (sm, [])
    else if timer.code = 3580 then
      if timer.expiryCount < 5 then
        (sm, (pt.message.map fun msg => SmOutput.smMessage pt.psi msg).toList)
      else sm.abortProcedureByPti pti
    else if timer.code = 3582 then
      if timer.expiryCount < 5 then
        (sm, (pt.message.map fun msg => SmOutput.smMessage pt.psi msg).toList)
      else
        let (sm, out) := sm.abortProcedureByPti pti
        (sm, out ++ [.mobilityUpdatingRequired])
    else (sm, [])

end NasSm

end Quicup.Ueransim
