import Quicup.Ueransim.Nas.InitialMessages

/-!
# Sending of NAS messages

The sending half of `messaging.cpp`. Of the elements of a message, the ones behind the identity
of an initial message are taken out before it is sent without ciphering, and go into a container
where there is a security context. The MM cycle that a procedure is triggered with is left out.
-/

namespace Quicup.Ueransim

/-! ## Messages -/

/-- A message of another type than the initial ones, with its elements encoded. -/
structure OtherMmMessage where
  messageType : UInt8
  ies : OctetString
  notInitial : messageType ≠ registrationRequestType ∧ messageType ≠ serviceRequestType ∧
    messageType ≠ deregistrationRequestUeOriginatingType := by decide
  deriving DecidableEq

/-- The `PlainMmMessage`s of the UE. -/
inductive UplinkMmMessage
  | initial (msg : InitialNasMessage)
  | other (msg : OtherMmMessage)
  deriving DecidableEq

namespace UplinkMmMessage

def messageType : UplinkMmMessage → UInt8
  | initial msg => msg.onBuild.messageType
  | other msg => msg.messageType

/-- `EncodeNasMessage` -/
def encode : UplinkMmMessage → OctetString
  | initial msg => msg.encode
  | other msg => mobilityManagementMessages :: notProtected :: msg.messageType :: msg.ies

/-- `IsInitialNasMessage` -/
def isInitialNasMessage : UplinkMmMessage → Bool
  | initial _ => true
  | other _ => false

end UplinkMmMessage

namespace RegistrationRequest

variable (request : RegistrationRequest)

/-- `HasNonCleartext` -/
def hasNonCleartext : Bool :=
  request.nasMessageContainer.isSome || request.nonCurrentNgKsi.isSome ||
    request.micoIndication.isSome || request.networkSlicingIndication.isSome ||
    request.mmCapability.isSome || request.requestedNSSAI.isSome ||
    request.requestedDrxParameters.isSome || request.uesUsageSetting.isSome ||
    request.updateType.isSome || request.uplinkDataStatus.isSome ||
    request.allowedPduSessionStatus.isSome || request.lastVisitedRegisteredTai.isSome ||
    request.s1UeNetworkCapability.isSome || request.pduSessionStatus.isSome ||
    request.payloadContainer.isSome || request.ladnIndication.isSome

/-- `RemoveCleartextIEs`. The requested NSSAI stays. -/
def removeCleartextIEs (nasMsgContainer : OctetString) : RegistrationRequest :=
  { request with
    nasMessageContainer := if nasMsgContainer.length = 0 then none else some nasMsgContainer
    nonCurrentNgKsi := none
    micoIndication := none
    networkSlicingIndication := none
    mmCapability := none
    requestedDrxParameters := none
    uesUsageSetting := none
    updateType := none
    uplinkDataStatus := none
    allowedPduSessionStatus := none
    lastVisitedRegisteredTai := none
    s1UeNetworkCapability := none
    pduSessionStatus := none
    payloadContainer := none
    ladnIndication := none }

end RegistrationRequest

namespace ServiceRequest

variable (request : ServiceRequest)

/-- `HasNonCleartext` -/
def hasNonCleartext : Bool :=
  request.nasMessageContainer.isSome || request.uplinkDataStatus.isSome ||
    request.pduSessionStatus.isSome || request.allowedPduSessionStatus.isSome

/-- `RemoveCleartextIEs` -/
def removeCleartextIEs (nasMsgContainer : OctetString) : ServiceRequest :=
  { request with
    nasMessageContainer := if nasMsgContainer.length = 0 then none else some nasMsgContainer
    uplinkDataStatus := none
    pduSessionStatus := none
    allowedPduSessionStatus := none }

end ServiceRequest

namespace InitialNasMessage

/-- `HasNonCleartext` -/
def hasNonCleartext : InitialNasMessage → Bool
  | registrationRequest request => request.hasNonCleartext
  | serviceRequest request => request.hasNonCleartext
  | deregistrationRequest _ => false

/-- `RemoveCleartextIEs` -/
def removeCleartextIEs (nasMsgContainer : OctetString) : InitialNasMessage → InitialNasMessage
  | registrationRequest request => .registrationRequest (request.removeCleartextIEs nasMsgContainer)
  | serviceRequest request => .serviceRequest (request.removeCleartextIEs nasMsgContainer)
  | deregistrationRequest request => .deregistrationRequest request

end InitialNasMessage

/-! ## State -/

inductive CmState
  | idle
  | connected
  deriving DecidableEq

inductive MmState
  | null
  | deregistered
  | registeredInitiated
  | registered
  | deregisteredInitiated
  | serviceRequestInitiated
  deriving DecidableEq

inductive ProcRc
  | ok
  | cancel
  | stay
  deriving DecidableEq

/-- The causes of `EServiceReqCause` that the UE gives for itself. -/
inductive ServiceReqCause
  | idlePaging
  | idleUplinkSignalPending
  | idleUplinkDataPending
  | connectedUplinkDataPending
  | fallbackIndication
  deriving DecidableEq

inductive NmUeNasToRrc
  | uplinkNasDelivery (pduId : Nat) (nasPdu : OctetString)
  | localReleaseConnection (treatBarred : Bool)
  deriving DecidableEq

/-- What the sending and receiving of messages reads and writes of `NasMm`. What has been pushed
to the RRC task is kept, the last message at the end. -/
structure NasMm where
  usim : Usim
  hasActiveCell : Bool := true
  hasEmergency : Bool := false
  cmState : CmState := .connected
  mmState : MmState := .registered
  serviceRequest : Option ServiceReqCause := none
  lastRegistrationRequest : Option RegistrationRequest := none
  lastServiceRequest : Option ServiceRequest := none
  lastRegWithoutNsc : Bool := false
  rrcTask : List NmUeNasToRrc := []
  deriving DecidableEq

namespace NasMm

variable (ue : NasMm)

def serviceRequestRequired (cause : ServiceReqCause) : NasMm :=
  if ue.mmState = .null then ue else { ue with serviceRequest := some cause }

def serviceRequestRequiredForSignalling : NasMm := ue.serviceRequestRequired .idleUplinkSignalPending

def pushToRrc (message : NmUeNasToRrc) : NasMm := { ue with rrcTask := ue.rrcTask ++ [message] }

def localReleaseConnection (treatBarred : Bool) : NasMm :=
  ue.pushToRrc (.localReleaseConnection treatBarred)

def setCurrentNsCtx (ctx : Option NasSecurityContext) : NasMm :=
  { ue with usim := { ue.usim with currentNsCtx := ctx } }

/-- The current context, if it protects. -/
def protectingNsCtx : Option NasSecurityContext :=
  ue.usim.currentNsCtx.filter fun ctx => ctx.integrity ≠ ia0 ∨ ctx.ciphering ≠ ea0

end NasMm

/-! ## Protection -/

namespace NasCrypto

variable (crypto : NasCrypto) (ctx : NasSecurityContext)

/-- A registration request or a service request in CM-IDLE. Where it has more than cleartext
elements, all of it goes ciphered into the container, and the count is rolled back behind that. -/
def protectIdle (msg : InitialNasMessage) : Except Fault (SecuredMmMessage × NasSecurityContext) := do
  let copy ← msg.deepCopy
  if msg.hasNonCleartext then
    let (temporary, ctx) ← crypto.encrypt ctx copy.encode copy.onBuild.messageType false false
    let ctx := ctx.rollbackCountOnEncrypt
    let copy := copy.removeCleartextIEs temporary.plainNasMessage
    crypto.encrypt ctx copy.encode copy.onBuild.messageType true true
  else crypto.encrypt ctx copy.encode copy.onBuild.messageType true true

/-- What `sendNasMessage` makes of a message under a context that protects. -/
def protect (cmState : CmState) (msg : UplinkMmMessage) :
    Except Fault (SecuredMmMessage × NasSecurityContext) :=
  match cmState, msg with
  | .idle, .initial (.deregistrationRequest _) =>
    crypto.encrypt ctx msg.encode msg.messageType true true
  | .idle, .initial msg => crypto.protectIdle ctx msg
  | _, _ => crypto.encrypt ctx msg.encode msg.messageType false false

end NasCrypto

section Protected

variable {crypto : NasCrypto} {ctx ctx' : NasSecurityContext} {secured : SecuredMmMessage}

/-- A request in CM-IDLE is sent with all of its elements in the container, or has cleartext
elements alone. -/
theorem NasCrypto.protectIdle_eq_ok {msg : InitialNasMessage}
    (h : crypto.protectIdle ctx msg = .ok (secured, ctx')) :
    ∃ copy container, msg.deepCopy = .ok copy ∧
      (if msg.hasNonCleartext then
        crypto.encryptData ctx.ciphering ctx.uplinkCount ctx.is3gppAccess copy.encode
          ctx.keys.kNasEnc = .ok container ∧
        crypto.encrypt ctx (copy.removeCleartextIEs container).encode
          (copy.removeCleartextIEs container).onBuild.messageType true true = .ok (secured, ctx')
      else crypto.encrypt ctx copy.encode copy.onBuild.messageType true true =
        .ok (secured, ctx')) := by
  obtain ⟨copy, hcopy, h⟩ := Fallible.bind_eq_ok.mp h
  by_cases hnon : msg.hasNonCleartext = true
  · rw [if_pos hnon] at h
    obtain ⟨⟨temporary, between⟩, htemporary, h⟩ := Fallible.bind_eq_ok.mp h
    obtain ⟨rfl, -, -, -, hcontainer⟩ := encrypt_eq_ok htemporary
    refine ⟨copy, temporary.plainNasMessage, hcopy, ?_⟩
    rw [if_pos hnon]
    refine ⟨hcontainer, ?_⟩
    simpa only [NasSecurityContext.rollback_countOnEncrypt] using h
  · rw [if_neg hnon] at h
    refine ⟨copy, [], hcopy, ?_⟩
    rwa [if_neg hnon]

/-- A message is protected as one of its type, or as a request. -/
theorem NasCrypto.protect_eq_ok {cmState : CmState} {msg : UplinkMmMessage}
    (h : crypto.protect ctx cmState msg = .ok (secured, ctx')) :
    ∃ plain msgType bypassCiphering noCipheredHeader,
      crypto.encrypt ctx plain msgType bypassCiphering noCipheredHeader = .ok (secured, ctx') ∧
        plain ≠ [] ∧ (msgType = msg.messageType ∨ msgType = registrationRequestType ∨
          msgType = serviceRequestType ∨ msgType = deregistrationRequestUeOriginatingType) := by
  have hinitial (msg : InitialNasMessage) : msg.onBuild.messageType = registrationRequestType ∨
      msg.onBuild.messageType = serviceRequestType ∨
      msg.onBuild.messageType = deregistrationRequestUeOriginatingType := by
    cases msg with
    | registrationRequest request => exact .inl rfl
    | serviceRequest request => exact .inr (.inl rfl)
    | deregistrationRequest request => exact .inr (.inr rfl)
  have hencode (msg : UplinkMmMessage) : msg.encode ≠ [] := by
    cases msg with
    | initial msg => exact List.cons_ne_nil _ _
    | other msg => exact List.cons_ne_nil _ _
  have hidle {msg : InitialNasMessage} (h : crypto.protectIdle ctx msg = .ok (secured, ctx')) :
      ∃ request : InitialNasMessage, crypto.encrypt ctx request.encode request.onBuild.messageType
        true true = .ok (secured, ctx') := by
    obtain ⟨copy, container, -, h⟩ := protectIdle_eq_ok h
    split at h
    · exact ⟨_, h.2⟩
    · exact ⟨_, h⟩
  cases cmState with
  | connected => exact ⟨msg.encode, msg.messageType, false, false, h, hencode msg, .inl rfl⟩
  | idle =>
    cases msg with
    | other msg =>
      exact ⟨_, msg.messageType, false, false, h, hencode (.other msg), .inl rfl⟩
    | initial msg =>
      cases msg with
      | deregistrationRequest request =>
        exact ⟨_, deregistrationRequestUeOriginatingType, true, true, h,
          hencode (.initial (.deregistrationRequest request)), .inl rfl⟩
      | registrationRequest request =>
        obtain ⟨request, hencrypt⟩ := hidle h
        exact ⟨_, _, _, _, hencrypt, hencode (.initial request), .inr (hinitial request)⟩
      | serviceRequest request =>
        obtain ⟨request, hencrypt⟩ := hidle h
        exact ⟨_, _, _, _, hencrypt, hencode (.initial request), .inr (hinitial request)⟩

end Protected

/-- What `sendNasMessage` makes of a message without a context that protects. -/
def UplinkMmMessage.unprotected : UplinkMmMessage → Except Fault OctetString
  | initial msg => do
    let copy ← msg.deepCopy
    return (copy.removeCleartextIEs []).encode
  | other msg => .ok (UplinkMmMessage.other msg).encode

/-- `sendNasMessage` -/
def NasMm.sendNasMessage (crypto : NasCrypto) (ue : NasMm) (msg : UplinkMmMessage) :
    Except Fault (ProcRc × NasMm) :=
  if !ue.hasActiveCell then .ok (.stay, ue)
  else if ue.cmState = .idle ∧ !msg.isInitialNasMessage then
    if ue.mmState ≠ .serviceRequestInitiated then .ok (.stay, ue.serviceRequestRequiredForSignalling)
    else .ok (.stay, ue)
  else
    match ue.protectingNsCtx with
    | some ctx =>
      -- the uplink count is about to wrap around
      if ctx.uplinkCount = .last then
        .ok (.stay, (ue.setCurrentNsCtx none).localReleaseConnection false)
      else do
        let (secured, ctx) ← crypto.protect ctx ue.cmState msg
        let pdu ← secured.encode
        return (.ok, (ue.setCurrentNsCtx (some ctx)).pushToRrc (.uplinkNasDelivery 0 pdu))
    | none => do
      let pdu ← msg.unprotected
      return (.ok, ue.pushToRrc (.uplinkNasDelivery 0 pdu))

/-! ## What sending does -/

/-- The four things that come of a message. -/
inductive NasMm.Sending (crypto : NasCrypto) (ue : NasMm) (msg : UplinkMmMessage) :
    ProcRc → NasMm → Prop
  | aborted {ue'} : ue'.usim = ue.usim → ue'.rrcTask = ue.rrcTask → Sending crypto ue msg .stay ue'
  | wrap {ctx} : ue.protectingNsCtx = some ctx → ctx.uplinkCount = .last →
      Sending crypto ue msg .stay ((ue.setCurrentNsCtx none).localReleaseConnection false)
  | secured {ctx secured ctx' pdu} : ue.protectingNsCtx = some ctx → ctx.uplinkCount ≠ .last →
      crypto.protect ctx ue.cmState msg = .ok (secured, ctx') → secured.encode = .ok pdu →
      Sending crypto ue msg .ok
        ((ue.setCurrentNsCtx (some ctx')).pushToRrc (.uplinkNasDelivery 0 pdu))
  | plain {pdu} : ue.protectingNsCtx = none → msg.unprotected = .ok pdu →
      Sending crypto ue msg .ok (ue.pushToRrc (.uplinkNasDelivery 0 pdu))

theorem NasMm.sendNasMessage_eq_ok {crypto : NasCrypto} {ue ue' : NasMm} {msg : UplinkMmMessage}
    {rc : ProcRc} (h : ue.sendNasMessage crypto msg = .ok (rc, ue')) :
    ue.Sending crypto msg rc ue' := by
  unfold sendNasMessage at h
  split at h
  · obtain ⟨rfl, rfl⟩ := Prod.mk.inj (Except.ok.inj h)
    exact .aborted rfl rfl
  · split at h
    · split at h
      · obtain ⟨rfl, rfl⟩ := Prod.mk.inj (Except.ok.inj h)
        unfold serviceRequestRequiredForSignalling serviceRequestRequired
        split
        · exact .aborted rfl rfl
        · exact .aborted rfl rfl
      · obtain ⟨rfl, rfl⟩ := Prod.mk.inj (Except.ok.inj h)
        exact .aborted rfl rfl
    · split at h
      · next ctx hctx =>
        split at h
        · next hlast =>
          obtain ⟨rfl, rfl⟩ := Prod.mk.inj (Except.ok.inj h)
          exact .wrap hctx hlast
        · next hlast =>
          obtain ⟨⟨secured, ctx'⟩, hprotect, h⟩ := Fallible.bind_eq_ok.mp h
          obtain ⟨pdu, hpdu, h⟩ := Fallible.bind_eq_ok.mp h
          obtain ⟨rfl, rfl⟩ := Prod.mk.inj (Except.ok.inj h)
          exact .secured hctx hlast hprotect hpdu
      · next hctx =>
        obtain ⟨pdu, hpdu, h⟩ := Fallible.bind_eq_ok.mp h
        obtain ⟨rfl, rfl⟩ := Prod.mk.inj (Except.ok.inj h)
        exact .plain hctx hpdu

end Quicup.Ueransim
