import Quicup.Core.Recent
import Quicup.Ueransim.Nas.SecurityMode

/-!
# Reception of NAS messages

The receiving half of `messaging.cpp`: what is decoded, what is refused, and what is handed on
to `receiveMmMessage` and `receiveSmMessage`. The bodies of messages other than Security Mode
Commands stay octets, and whether they can be decoded is a parameter.
-/

namespace Quicup.Ueransim

/-! ## Messages -/

/-- `PlainMmMessage` of the network. -/
inductive DownlinkMmMessage
  | securityModeCommand (msg : SecurityModeCommand)
  | other (messageType : UInt8) (body : OctetString)
  deriving DecidableEq

inductive NasMessage
  | sm (pdu : OctetString)
  | plainMm (msg : DownlinkMmMessage)
  | securedMm (msg : SecuredMmMessage)
  deriving DecidableEq

namespace DownlinkMmMessage

def messageType : DownlinkMmMessage → UInt8
  | securityModeCommand _ => securityModeCommandType
  | other messageType _ => messageType

/-- The types of `IsAcceptedWithoutIntegrity`: Identity Request, Authentication Request, Result and
Reject, Registration Reject, Deregistration Accept and Service Reject. -/
def acceptedWithoutIntegrity : List UInt8 := [0x5B, 0x56, 0x5A, 0x58, 0x44, 0x46, 0x4D]

/-- `IsAcceptedWithoutIntegrity` -/
def isAcceptedWithoutIntegrity (msg : DownlinkMmMessage) : Bool :=
  msg.messageType ∈ acceptedWithoutIntegrity

end DownlinkMmMessage

/-- The decoders of the bodies of messages, which throw where a body is badly constructed. -/
structure NasDecoder where
  securityModeCommand : OctetString → Except Fault SecurityModeCommand
  otherMm : UInt8 → OctetString → Except Fault Unit
  sm : OctetString → Except Fault Unit

namespace NasDecoder

variable (decoder : NasDecoder)

/-- `DecodePlainMmMessage` -/
def decodePlainMmMessage (messageType : UInt8) (body : OctetString) :
    Except Fault DownlinkMmMessage :=
  if messageType = securityModeCommandType then
    .securityModeCommand <$> decoder.securityModeCommand body
  else do
    decoder.otherMm messageType body
    return .other messageType body

/-- `DecodeSecuredMmMessage` -/
def decodeSecuredMmMessage (sht : UInt8) : OctetString → Except Fault SecuredMmMessage
  | mac₃ :: mac₂ :: mac₁ :: mac₀ :: sequenceNumber :: plainNasMessage =>
    .ok
      { sht
        messageAuthenticationCode := .ofNat (natBE [mac₃, mac₂, mac₁, mac₀])
        sequenceNumber
        plainNasMessage }
  | _ => .error .outOfBounds

/-- `DecodeNasMessage`. All that has another protocol discriminator is taken for a message of
session management. -/
def decodeNasMessage (stream : OctetString) : Except Fault NasMessage :=
  match stream with
  | [] => .error .outOfBounds
  | epd :: stream =>
    if epd = mobilityManagementMessages then
      match stream with
      | [] => .error .outOfBounds
      | sht :: stream =>
        if sht = notProtected then
          match stream with
          | [] => .error .outOfBounds
          | messageType :: body => .plainMm <$> decoder.decodePlainMmMessage messageType body
        else .securedMm <$> decodeSecuredMmMessage sht stream
    else do
      decoder.sm stream
      return .sm stream

end NasDecoder

/-! ## Refusals -/

/-- How many sequence numbers are remembered. -/
def lastNasSequenceNumsMax : Nat := 16

/-- What becomes of a secured message. -/
inductive Verdict
  | replayed
  | macFailure
  | verified (decrypted : OctetString)
  deriving DecidableEq

namespace NasSecurityContext

variable (crypto : NasCrypto) (ctx : NasSecurityContext) (msg : SecuredMmMessage)

/-- `checkForReplay`, which remembers the sequence number of a message that is not a replay. -/
def checkForReplay : Bool × NasSecurityContext :=
  if msg.sequenceNumber ∈ ctx.lastNasSequenceNums then (false, ctx)
  else
    let lastNasSequenceNums := ctx.lastNasSequenceNums ++ [msg.sequenceNumber]
    (true, { ctx with
      lastNasSequenceNums := Recent.lastOf lastNasSequenceNumsMax lastNasSequenceNums })

/-- The checks of a secured message under a context. -/
def verify : Except Fault (Verdict × NasSecurityContext) :=
  let (fresh, ctx) := if ctx.integrity = ia0 then (true, ctx) else ctx.checkForReplay msg
  if !fresh then .ok (.replayed, ctx)
  else do
    let (decrypted, ctx) ← crypto.decrypt ctx msg
    match decrypted with
    | none => return (.macFailure, ctx)
    | some decrypted => return (.verified decrypted, ctx)

end NasSecurityContext

/-! ## Reception -/

/-- A message that is handed to `receiveMmMessage` or to `receiveSmMessage`. -/
inductive Delivery
  | mm (msg : DownlinkMmMessage)
  | sm (pdu : OctetString)
  deriving DecidableEq

namespace NasMm

variable (crypto : NasCrypto) (decoder : NasDecoder)

/-- `FiveGMmStatus` -/
def fiveGMmStatus (cause : MmCause) : UplinkMmMessage :=
  .other { messageType := fiveGMmStatusType, ies := [cause.code] }

/-- `sendMmStatus`, and no message is handed on. -/
def sendMmStatus (ue : NasMm) (cause : MmCause) : Except Fault (Option Delivery × NasMm) := do
  let (_, ue) ← ue.sendNasMessage crypto (fiveGMmStatus cause)
  return (none, ue)

/-- `receiveNasMessage`, up to the message that is handed on as its last step. Protected messages
are nested so deep at most. -/
def receiveNasMessage : Nat → NasMm → NasMessage → Except Fault (Option Delivery × NasMm)
  | 0, _, _ => .error .hang
  | depth + 1, ue, msg =>
    match msg with
    | .sm _ => ue.sendMmStatus crypto .messageTypeNotCompatibleWithProtocolState
    | .plainMm msg =>
      if ue.usim.currentNsCtx.isSome && !msg.isAcceptedWithoutIntegrity then .ok (none, ue)
      else .ok (some (.mm msg), ue)
    | .securedMm msg =>
      if msg.sht = integrityProtectedWithNewSecurityContext then do
        match ← decoder.decodeNasMessage msg.plainNasMessage with
        | .plainMm (.securityModeCommand smcMsg) =>
          -- its MAC is checked by the handler alone
          let smcMsg := { smcMsg with
            macForNewSC := msg.messageAuthenticationCode
            originalPlainNasPdu := msg.plainNasMessage }
          return (some (.mm (.securityModeCommand smcMsg)), ue)
        | _ => ue.sendMmStatus crypto .unspecifiedProtocolError
      else if msg.sht = integrityProtectedAndCipheredWithNewSecurityContext then
        ue.sendMmStatus crypto .unspecifiedProtocolError
      else
        match ue.usim.currentNsCtx with
        | none => ue.sendMmStatus crypto .messageNotCompatibleWithProtocolState
        | some ctx => do
          let (verdict, ctx) ← ctx.verify crypto msg
          let ue := ue.setCurrentNsCtx (some ctx)
          match verdict with
          | .replayed => return (none, ue)
          | .macFailure => ue.sendMmStatus crypto .macFailure
          | .verified decrypted =>
            match ← decoder.decodeNasMessage decrypted with
            | .plainMm msg => return (some (.mm msg), ue)
            | .securedMm msg => receiveNasMessage depth ue (.securedMm msg)
            | .sm pdu => return (some (.sm pdu), ue)

end NasMm

/-! ## What the checks do -/

namespace NasSecurityContext

variable {crypto : NasCrypto} {ctx ctx' : NasSecurityContext} {msg : SecuredMmMessage}
  {verdict : Verdict}

/-- What a context is whose messages are checked. -/
structure Protecting (ctx : NasSecurityContext) : Prop where
  integrity : ctx.integrity ≠ ia0
  integrity_le : ctx.integrity ≤ lastAlgorithm
  ciphering_le : ctx.ciphering ≤ lastAlgorithm
  kNasInt : ctx.keys.kNasInt ≠ []

/-- The MAC of a message verifies at the count that is estimated for it. -/
def Authentic (crypto : NasCrypto) (ctx : NasSecurityContext) (msg : SecuredMmMessage) : Prop :=
  crypto.computeMac ctx.integrity (ctx.estimatedDownlinkCount msg.sequenceNumber) ctx.is3gppAccess
    false ctx.keys.kNasInt msg.plainNasMessage = .ok msg.messageAuthenticationCode

instance : Decidable (Authentic crypto ctx msg) := inferInstanceAs (Decidable (_ = _))

/-- The context with the sequence number of a message noted. -/
def noted (ctx : NasSecurityContext) (sequenceNumber : UInt8) : NasSecurityContext :=
  { ctx with
    lastNasSequenceNums :=
      Recent.note lastNasSequenceNumsMax ctx.lastNasSequenceNums sequenceNumber }

theorem Protecting.noted (h : ctx.Protecting) (sequenceNumber : UInt8) :
    (ctx.noted sequenceNumber).Protecting :=
  ⟨h.integrity, h.integrity_le, h.ciphering_le, h.kNasInt⟩

theorem Protecting.countOnEncrypt (h : ctx.Protecting) : ctx.countOnEncrypt.Protecting :=
  ⟨h.integrity, h.integrity_le, h.ciphering_le, h.kNasInt⟩

theorem computeMac_eq_ok (h : ctx.Protecting) (crypto : NasCrypto) (count : NasCount)
    (is3gppAccess isUplink : Bool) (key data : OctetString) :
    ∃ mac, crypto.computeMac ctx.integrity count is3gppAccess isUplink key data = .ok mac := by
  unfold NasCrypto.computeMac
  rw [if_neg h.integrity, if_neg (UInt8.not_lt.mpr h.integrity_le)]
  exact ⟨_, rfl⟩

theorem decryptData_eq_ok (h : ctx.ciphering ≤ lastAlgorithm) (crypto : NasCrypto) (count : NasCount)
    (is3gppAccess : Bool) (key : OctetString) (sht : UInt8) (data : OctetString) :
    ∃ decrypted, crypto.decryptData ctx.ciphering count is3gppAccess key sht data =
      .ok decrypted := by
  unfold NasCrypto.decryptData
  split
  · exact ⟨_, rfl⟩
  · split
    · exact ⟨_, rfl⟩
    · exact ⟨_, if_neg (UInt8.not_lt.mpr h)⟩

theorem decrypt_of_forged (h : ctx.Protecting) (hforged : ¬ctx.Authentic crypto msg) :
    crypto.decrypt ctx msg = .ok (none, ctx) := by
  obtain ⟨mac, hmac⟩ := computeMac_eq_ok h crypto (ctx.estimatedDownlinkCount msg.sequenceNumber)
    ctx.is3gppAccess false ctx.keys.kNasInt msg.plainNasMessage
  have hne : mac ≠ msg.messageAuthenticationCode := by
    rintro rfl
    exact hforged hmac
  rw [NasCrypto.decrypt, hmac, Fallible.ok_bind, if_pos hne]
  rfl

theorem decrypt_of_authentic (hciphering : ctx.ciphering ≤ lastAlgorithm)
    (h : ctx.Authentic crypto msg) :
    ∃ decrypted, crypto.decrypt ctx msg = .ok (some decrypted,
      ctx.updateDownlinkCount (ctx.estimatedDownlinkCount msg.sequenceNumber)) := by
  obtain ⟨decrypted, hdecrypted⟩ := decryptData_eq_ok hciphering crypto
    (ctx.estimatedDownlinkCount msg.sequenceNumber) ctx.is3gppAccess ctx.keys.kNasEnc msg.sht
    msg.plainNasMessage
  refine ⟨decrypted, ?_⟩
  have hmac : crypto.computeMac ctx.integrity _ _ _ _ _ = _ := h
  rw [NasCrypto.decrypt, hmac, Fallible.ok_bind, if_neg (not_not_intro rfl), hdecrypted]
  rfl

theorem verify_of_mem (hintegrity : ctx.integrity ≠ ia0)
    (hmem : msg.sequenceNumber ∈ ctx.lastNasSequenceNums) :
    ctx.verify crypto msg = .ok (.replayed, ctx) := by
  rw [verify, if_neg hintegrity, checkForReplay, if_pos hmem]
  rfl

/-- A message that is no replay is checked under the context that has noted its sequence number. -/
theorem verify_of_not_mem (hintegrity : ctx.integrity ≠ ia0)
    (hmem : msg.sequenceNumber ∉ ctx.lastNasSequenceNums) :
    ctx.verify crypto msg = crypto.decrypt (ctx.noted msg.sequenceNumber) msg >>= fun r =>
      .ok (r.1.elim .macFailure .verified, r.2) := by
  rw [verify, if_neg hintegrity, checkForReplay, if_neg hmem, noted, Recent.note_of_not_mem hmem]
  apply congrArg (crypto.decrypt _ msg >>= ·)
  ext ⟨decrypted, ctx'⟩
  cases decrypted <;> rfl

/-- Under IA0 the sequence number is not looked at. -/
theorem verify_of_null (hintegrity : ctx.integrity = ia0) :
    ctx.verify crypto msg = crypto.decrypt ctx msg >>= fun r =>
      .ok (r.1.elim .macFailure .verified, r.2) := by
  rw [verify, if_pos hintegrity]
  apply congrArg (crypto.decrypt _ msg >>= ·)
  ext ⟨decrypted, ctx'⟩
  cases decrypted <;> rfl

/-- A message that is deciphered is authentic, and its count is taken over. -/
theorem decrypt_eq_ok {decrypted : Option OctetString}
    (h : crypto.decrypt ctx msg = .ok (decrypted, ctx')) :
    (decrypted = none ∧ ¬ctx.Authentic crypto msg ∧ ctx' = ctx) ∨
      (decrypted ≠ none ∧ ctx.Authentic crypto msg ∧
        ctx' = ctx.updateDownlinkCount (ctx.estimatedDownlinkCount msg.sequenceNumber)) := by
  obtain ⟨mac, hmac, h⟩ := Fallible.bind_eq_ok.mp h
  by_cases hne : mac = msg.messageAuthenticationCode
  · rw [if_neg (not_not.mpr hne)] at h
    obtain ⟨data, -, h⟩ := Fallible.bind_eq_ok.mp h
    obtain ⟨rfl, rfl⟩ := Prod.mk.inj (Except.ok.inj h)
    exact .inr ⟨Option.some_ne_none data, hmac.trans (congrArg Except.ok hne), rfl⟩
  · rw [if_pos hne] at h
    obtain ⟨rfl, rfl⟩ := Prod.mk.inj (Except.ok.inj h)
    exact .inl ⟨rfl, fun hauthentic => hne (Except.ok.inj (hmac.symm.trans hauthentic)), rfl⟩

/-- Of a context, a message changes the downlink count and the list at most. -/
theorem verify_frame (h : ctx.verify crypto msg = .ok (verdict, ctx')) :
    ctx' = { ctx with
      downlinkCount := ctx'.downlinkCount
      lastNasSequenceNums := ctx'.lastNasSequenceNums } := by
  have hbehind {before : NasSecurityContext}
      (hbefore : before = { ctx with lastNasSequenceNums := before.lastNasSequenceNums })
      (h : (crypto.decrypt before msg >>= fun r =>
        .ok (r.1.elim Verdict.macFailure .verified, r.2)) = .ok (verdict, ctx')) :
      ctx' = { ctx with
        downlinkCount := ctx'.downlinkCount
        lastNasSequenceNums := ctx'.lastNasSequenceNums } := by
    obtain ⟨⟨decrypted, behind⟩, hdecrypt, h⟩ := Fallible.bind_eq_ok.mp h
    obtain ⟨-, rfl⟩ := Prod.mk.inj (Except.ok.inj h)
    rcases decrypt_eq_ok hdecrypt with ⟨-, -, rfl⟩ | ⟨-, -, rfl⟩
    · rw [hbefore]
    · rw [hbefore]
      rfl
  by_cases hintegrity : ctx.integrity = ia0
  · rw [verify_of_null hintegrity] at h
    exact hbehind rfl h
  · by_cases hmem : msg.sequenceNumber ∈ ctx.lastNasSequenceNums
    · rw [verify_of_mem hintegrity hmem] at h
      obtain ⟨-, rfl⟩ := Prod.mk.inj (Except.ok.inj h)
      rfl
    · rw [verify_of_not_mem hintegrity hmem] at h
      exact hbehind rfl h

/-- The three things that come of a message. -/
inductive Verified (crypto : NasCrypto) (ctx : NasSecurityContext) (msg : SecuredMmMessage) :
    Verdict → NasSecurityContext → Prop
  | replayed : msg.sequenceNumber ∈ ctx.lastNasSequenceNums → Verified crypto ctx msg .replayed ctx
  | macFailure : msg.sequenceNumber ∉ ctx.lastNasSequenceNums → ¬ctx.Authentic crypto msg →
      Verified crypto ctx msg .macFailure (ctx.noted msg.sequenceNumber)
  | verified (decrypted : OctetString) : msg.sequenceNumber ∉ ctx.lastNasSequenceNums →
      ctx.Authentic crypto msg →
      Verified crypto ctx msg (.verified decrypted)
        ((ctx.noted msg.sequenceNumber).updateDownlinkCount
          (ctx.estimatedDownlinkCount msg.sequenceNumber))

theorem verify_eq_ok (hintegrity : ctx.integrity ≠ ia0)
    (h : ctx.verify crypto msg = .ok (verdict, ctx')) : ctx.Verified crypto msg verdict ctx' := by
  by_cases hmem : msg.sequenceNumber ∈ ctx.lastNasSequenceNums
  · rw [verify_of_mem hintegrity hmem] at h
    obtain ⟨rfl, rfl⟩ := Prod.mk.inj (Except.ok.inj h)
    exact .replayed hmem
  · rw [verify_of_not_mem hintegrity hmem] at h
    obtain ⟨⟨decrypted, behind⟩, hdecrypt, h⟩ := Fallible.bind_eq_ok.mp h
    obtain ⟨rfl, rfl⟩ := Prod.mk.inj (Except.ok.inj h)
    rcases decrypt_eq_ok hdecrypt with ⟨rfl, hforged, rfl⟩ | ⟨hne, hauthentic, rfl⟩
    · exact .macFailure hmem hforged
    · obtain ⟨data, rfl⟩ := Option.ne_none_iff_exists'.mp hne
      exact .verified data hmem hauthentic

theorem verify_of_forged (h : ctx.Protecting)
    (hmem : msg.sequenceNumber ∉ ctx.lastNasSequenceNums) (hforged : ¬ctx.Authentic crypto msg) :
    ctx.verify crypto msg = .ok (.macFailure, ctx.noted msg.sequenceNumber) := by
  have hdecrypt := decrypt_of_forged (h.noted msg.sequenceNumber) hforged
  rw [verify_of_not_mem h.integrity hmem, hdecrypt]
  rfl

theorem verify_of_authentic (h : ctx.Protecting)
    (hmem : msg.sequenceNumber ∉ ctx.lastNasSequenceNums) (hauthentic : ctx.Authentic crypto msg) :
    ∃ decrypted, ctx.verify crypto msg = .ok (.verified decrypted,
      (ctx.noted msg.sequenceNumber).updateDownlinkCount
        (ctx.estimatedDownlinkCount msg.sequenceNumber)) := by
  obtain ⟨decrypted, hdecrypt⟩ :=
    decrypt_of_authentic (h.noted msg.sequenceNumber).ciphering_le hauthentic
  refine ⟨decrypted, ?_⟩
  rw [verify_of_not_mem h.integrity hmem, hdecrypt]
  rfl

end NasSecurityContext

theorem lowerKey_ne_nil (key : Vector UInt8 32) : lowerKey key.toList ≠ [] := by
  rw [lowerKey, ← List.length_pos_iff, List.length_take, List.length_drop, Vector.length_toList]
  decide

/-- What a Security Mode Command takes into use checks its messages, unless it is for IA0. -/
theorem Usim.currentNsCtx_protecting {crypto : NasCrypto} {config : SecurityModeConfig}
    {hasEmergency : Bool} {usim usim' : Usim} {msg : SecurityModeCommand}
    (h : usim.securityModeCommand crypto config hasEmergency msg = .ok (.complete, usim'))
    (hintegrity : msg.integrity ≠ ia0) :
    ∃ ctx, usim'.currentNsCtx = some ctx ∧ ctx.Protecting := by
  cases Usim.securityModeCommand_eq_ok h with
  | @taken which found clearNasCount htakes =>
    have hkey : (found.process crypto msg clearNasCount).keys.kNasInt ≠ [] := lowerKey_ne_nil _
    cases which with
    | current => exact ⟨_, rfl, hintegrity, htakes.integrity_le, htakes.ciphering_le, hkey⟩
    | nonCurrent => exact ⟨_, rfl, hintegrity, htakes.integrity_le, htakes.ciphering_le, hkey⟩

/-! ## What a status does -/

namespace NasCrypto

variable {ctx : NasSecurityContext}

theorem makeSecurityHeaderType_ne (h : ctx.keys.kNasInt ≠ []) (msgType : UInt8)
    (noCipheredHeader : Bool) : makeSecurityHeaderType ctx msgType noCipheredHeader ≠ notProtected := by
  unfold makeSecurityHeaderType
  rw [if_neg h]
  split
  · decide
  · split
    · decide
    · split <;> decide

/-- A context whose messages are checked protects messages itself. -/
theorem encrypt_of_protecting (crypto : NasCrypto) (h : ctx.Protecting)
    (plainNasMessage : OctetString) (msgType : UInt8) (noCipheredHeader : Bool) :
    ∃ secured pdu, crypto.encrypt ctx plainNasMessage msgType false noCipheredHeader =
      .ok (secured, ctx.countOnEncrypt) ∧ secured.encode = .ok pdu := by
  have hdata : ∃ data, crypto.encryptData ctx.ciphering ctx.uplinkCount ctx.is3gppAccess
      plainNasMessage ctx.keys.kNasEnc = .ok data := by
    unfold encryptData
    split
    · exact ⟨_, rfl⟩
    · exact ⟨_, if_neg (UInt8.not_lt.mpr h.ciphering_le)⟩
  obtain ⟨data, hdata⟩ := hdata
  obtain ⟨mac, hmac⟩ := NasSecurityContext.computeMac_eq_ok h crypto ctx.uplinkCount ctx.is3gppAccess
    true ctx.keys.kNasInt data
  refine ⟨⟨makeSecurityHeaderType ctx msgType noCipheredHeader, mac, ctx.uplinkCount.sqn, data⟩, _,
    ?_, if_neg (makeSecurityHeaderType_ne h.kNasInt msgType noCipheredHeader)⟩
  change (crypto.encryptData _ _ _ _ _ >>= _) = _
  rw [hdata, Fallible.ok_bind]
  change (crypto.computeMac _ _ _ _ _ _ >>= _) = _
  rw [hmac]
  rfl

end NasCrypto

namespace NasMm

variable {crypto : NasCrypto} {ue : NasMm} {ctx : NasSecurityContext}

/-- A message that is not an initial one goes out now. -/
def Reaches (ue : NasMm) : Prop := ue.hasActiveCell = true ∧ ue.cmState = .connected

instance : Decidable ue.Reaches := inferInstanceAs (Decidable (_ ∧ _))

/-- The context behind a status. -/
def behindStatus (ue : NasMm) (ctx : NasSecurityContext) : Option NasSecurityContext :=
  if ue.Reaches then if ctx.uplinkCount = .last then none else some ctx.countOnEncrypt
  else some ctx

theorem setCurrentNsCtx_self (hctx : ue.usim.currentNsCtx = some ctx) :
    ue.setCurrentNsCtx (some ctx) = ue := by
  rw [setCurrentNsCtx, ← hctx]

theorem protectingNsCtx_of_protecting (hctx : ue.usim.currentNsCtx = some ctx)
    (h : ctx.Protecting) : ue.protectingNsCtx = some ctx := by
  rw [protectingNsCtx, hctx, Option.filter_some, if_pos (by simp [h.integrity])]

/-- A status that does not go out leaves the security contexts. -/
theorem sendMmStatus_of_not_reaches (crypto : NasCrypto) (cause : MmCause) (h : ¬ue.Reaches) :
    ∃ ue', ue.sendMmStatus crypto cause = .ok (none, ue') ∧ ue'.usim = ue.usim ∧
      ue'.hasActiveCell = ue.hasActiveCell ∧ ue'.cmState = ue.cmState := by
  unfold sendMmStatus sendNasMessage
  cases hcell : ue.hasActiveCell with
  | false => exact ⟨ue, rfl, rfl, hcell, rfl⟩
  | true =>
    cases hcm : ue.cmState with
    | connected => exact absurd ⟨hcell, hcm⟩ h
    | idle =>
      rw [if_neg (by decide), if_pos ⟨rfl, rfl⟩]
      unfold serviceRequestRequiredForSignalling serviceRequestRequired
      split
      · split
        · exact ⟨ue, rfl, rfl, hcell, hcm⟩
        · exact ⟨_, rfl, rfl, hcell, hcm⟩
      · exact ⟨ue, rfl, rfl, hcell, hcm⟩

/-- A status under a context takes an uplink count, and the last one is never taken. -/
theorem sendMmStatus_of_protecting (crypto : NasCrypto) (cause : MmCause)
    (hctx : ue.usim.currentNsCtx = some ctx) (h : ctx.Protecting) :
    ∃ ue', ue.sendMmStatus crypto cause = .ok (none, ue') ∧
      ue'.usim.currentNsCtx = ue.behindStatus ctx ∧
      ue'.hasActiveCell = ue.hasActiveCell ∧ ue'.cmState = ue.cmState := by
  unfold behindStatus
  by_cases hreaches : ue.Reaches
  · obtain ⟨hcell, hcm⟩ := hreaches
    rw [if_pos ⟨hcell, hcm⟩, sendMmStatus, sendNasMessage, if_neg (by simp [hcell]),
      if_neg (by simp [hcm]), protectingNsCtx_of_protecting hctx h]
    dsimp only
    by_cases hlast : ctx.uplinkCount = .last
    · rw [if_pos hlast, if_pos hlast]
      exact ⟨_, rfl, rfl, rfl, rfl⟩
    · obtain ⟨secured, pdu, hencrypt, hpdu⟩ := crypto.encrypt_of_protecting h
        (fiveGMmStatus cause).encode (fiveGMmStatus cause).messageType false
      have hprotect : crypto.protect ctx ue.cmState (fiveGMmStatus cause) =
          .ok (secured, ctx.countOnEncrypt) := by
        rw [hcm]
        exact hencrypt
      rw [if_neg hlast, if_neg hlast, hprotect, Fallible.ok_bind, hpdu]
      exact ⟨_, rfl, rfl, rfl, rfl⟩
  · rw [if_neg hreaches]
    obtain ⟨ue', hsend, husim, hstate⟩ := ue.sendMmStatus_of_not_reaches crypto cause hreaches
    exact ⟨ue', hsend, husim ▸ hctx, hstate⟩

/-- A status without a context goes out as it is. -/
theorem sendMmStatus_of_none (crypto : NasCrypto) (cause : MmCause)
    (hctx : ue.usim.currentNsCtx = none) :
    ∃ ue', ue.sendMmStatus crypto cause = .ok (none, ue') ∧ ue'.usim.currentNsCtx = none := by
  by_cases hreaches : ue.Reaches
  · obtain ⟨hcell, hcm⟩ := hreaches
    have hnone : ue.protectingNsCtx = none := by
      rw [protectingNsCtx, hctx]
      rfl
    rw [sendMmStatus, sendNasMessage, if_neg (by simp [hcell]), if_neg (by simp [hcm]), hnone]
    exact ⟨_, rfl, hctx⟩
  · obtain ⟨ue', hsend, husim, -⟩ := ue.sendMmStatus_of_not_reaches crypto cause hreaches
    exact ⟨ue', hsend, husim ▸ hctx⟩

end NasMm

end Quicup.Ueransim
