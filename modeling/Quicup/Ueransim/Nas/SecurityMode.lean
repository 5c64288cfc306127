import Quicup.Ueransim.Nas.Authentication
import Quicup.Ueransim.Nas.Messaging

/-!
# Security mode control of the UE

The handler of Security Mode Commands in `security.cpp`. The EAP message of a command has no
effect, and it is left out with the timers.
-/

namespace Quicup.Ueransim

def securityModeRejectType : UInt8 := 0x5F

def fiveGMmStatusType : UInt8 := 0x64

/-- The values of `EMmCause`. -/
def MmCause.code : MmCause → UInt8
  | macFailure => 20
  | synchFailure => 21
  | ueSecurityCapMismatch => 23
  | secModeRejectedUnspecified => 24
  | non5gAuthenticationUnacceptable => 26
  | ngksiAlreadyInUse => 71
  | semanticallyIncorrectMessage => 95
  | messageTypeNonExistentOrNotImplemented => 97
  | messageTypeNotCompatibleWithProtocolState => 98
  | messageNotCompatibleWithProtocolState => 101
  | unspecifiedProtocolError => 111

/-! ## Commands -/

/-- `IEAdditional5gSecurityInformation` -/
structure Additional5gSecurityInformation where
  /-- The horizontal derivation of the K_AMF is required. -/
  hdp : Bool
  /-- The initial message is requested again. -/
  rinmr : Bool
  deriving DecidableEq

/-- What the handler reads of a `SecurityModeCommand`. -/
structure SecurityModeCommand where
  integrity : UInt8
  ciphering : UInt8
  tsc : TypeOfSecurityContext
  ksi : Nat
  replayedUeSecurityCapabilities : OctetString
  imeiSvRequested : Bool := false
  additional5gSecurityInformation : Option Additional5gSecurityInformation := none
  abba : Option OctetString := none
  macForNewSC : UInt32 := 0
  originalPlainNasPdu : OctetString := []
  deriving DecidableEq

namespace SecurityModeCommand

variable (msg : SecurityModeCommand)

/-- `IsValidKsi` -/
def isValidKsi : Bool := msg.tsc = .native && msg.ksi ≠ notAvailableOrReserved

/-- The command is for a context that the UE derives for itself. -/
def isForLocal : Bool := msg.ksi = 0 && msg.integrity = ia0 && msg.ciphering = ea0

def horizontalDeriveNeeded : Bool := msg.additional5gSecurityInformation.any (·.hdp)

def initialMessageRequested : Bool := msg.additional5gSecurityInformation.any (·.rinmr)

end SecurityModeCommand

/-! ## Contexts -/

/-- `LocallyDeriveNsc` -/
def locallyDeriveNsc : NasSecurityContext where
  keys :=
    { abba := List.replicate 2 0
      kAusf := List.replicate 32 0
      kSeaf := List.replicate 32 0
      kAmf := List.replicate 32 0
      kNasInt := List.replicate 16 0
      kNasEnc := List.replicate 16 0 }

inductive WhichCtx
  | current
  | nonCurrent
  deriving DecidableEq

/-- `FindSecurityContext` -/
def Usim.findSecurityContext (usim : Usim) (ksi : Nat) : Option (WhichCtx × NasSecurityContext) :=
  let found (which : WhichCtx) (ctx : Option NasSecurityContext) :=
    (ctx.filter fun ctx => ctx.ngKsi = ksi).map (which, ·)
  (found .current usim.currentNsCtx).or (found .nonCurrent usim.nonCurrentNsCtx)

namespace NasSecurityContext

variable (crypto : NasCrypto) (ctx : NasSecurityContext) (msg : SecurityModeCommand)

/-- The selected algorithms, and the keys that they have. -/
def select : NasSecurityContext :=
  crypto.deriveNasKeys { ctx with integrity := msg.integrity, ciphering := msg.ciphering }

/-- The K_AMF behind the horizontal derivation, where it is needed. -/
def derivedKAmf : OctetString :=
  if msg.horizontalDeriveNeeded then
    crypto.deriveAmfPrimeInMobility true ctx.uplinkCount ctx.keys.kAmf
  else ctx.keys.kAmf

/-- The check of the integrity with the last count, and with the count 0. It tells whether the
count is to be cleared. -/
def checkCommand : Except Fault (Option Bool) :=
  if msg.integrity = ia0 then .ok (some false)
  else
    let tmpCtx := ctx.deepCopy
    let keys := { tmpCtx.keys with kAmf := tmpCtx.derivedKAmf crypto msg }
    let tmpCtx := NasSecurityContext.select crypto { tmpCtx with keys } msg
    let calculatedMac (count : NasCount) := crypto.computeMac tmpCtx.integrity count
      tmpCtx.is3gppAccess false tmpCtx.keys.kNasInt msg.originalPlainNasPdu
    do
      let mac ← calculatedMac tmpCtx.downlinkCount
      if mac = msg.macForNewSC then return some false
      else
        let mac ← calculatedMac {}
        if mac = msg.macForNewSC then return some true
        else return none

/-- What the handler makes of a context. -/
def process (clearNasCount : Bool) : NasSecurityContext :=
  let ctx := if clearNasCount then { ctx with downlinkCount := {} } else ctx
  let ctx := { ctx with keys := { ctx.keys with abba := msg.abba.getD ctx.keys.abba } }
  let ctx :=
    if msg.horizontalDeriveNeeded then
      { ctx with
        keys := { ctx.keys with kAmf := ctx.derivedKAmf crypto msg }
        uplinkCount := {}
        downlinkCount := {} }
    else ctx
  ctx.select crypto msg

/-- The K_NASint that a command selects. -/
def selectedKNasInt : OctetString :=
  lowerKey (crypto.calculateKdfKey (ctx.derivedKAmf crypto msg) 0x69 [[0x02], [msg.integrity]])

/-- The uplink count that a command leaves of a context. -/
def commandedUplinkCount (which : WhichCtx) : NasCount :=
  if which = .nonCurrent ∨ msg.horizontalDeriveNeeded = true then {} else ctx.uplinkCount

/-- The downlink count that a command leaves of a context. -/
def commandedDownlinkCount (clearNasCount : Bool) : NasCount :=
  if clearNasCount = true ∨ msg.horizontalDeriveNeeded = true then {} else ctx.downlinkCount

variable {crypto msg}

theorem process_downlinkCount (clearNasCount : Bool) :
    (ctx.process crypto msg clearNasCount).downlinkCount =
      ctx.commandedDownlinkCount msg clearNasCount := by
  unfold process commandedDownlinkCount
  cases clearNasCount <;> cases hhdp : msg.horizontalDeriveNeeded <;>
    simp [select, NasCrypto.deriveNasKeys]

/-- Where the downlink count is the first one, it stays the first one. -/
theorem process_downlinkCount_of_eq {clearNasCount : Bool} (h : ctx.downlinkCount = {}) :
    (ctx.process crypto msg clearNasCount).downlinkCount = {} := by
  rw [process_downlinkCount, commandedDownlinkCount, h, ite_self]

theorem process_kNasInt (clearNasCount : Bool) :
    (ctx.process crypto msg clearNasCount).keys.kNasInt = ctx.selectedKNasInt crypto msg := by
  unfold process selectedKNasInt derivedKAmf
  cases clearNasCount <;> cases hhdp : msg.horizontalDeriveNeeded <;>
    simp [select, NasCrypto.deriveNasKeys]

theorem process_uplinkCount (clearNasCount : Bool) :
    (ctx.process crypto msg clearNasCount).uplinkCount =
      if msg.horizontalDeriveNeeded = true then {} else ctx.uplinkCount := by
  unfold process
  cases clearNasCount <;> cases hhdp : msg.horizontalDeriveNeeded <;>
    simp [select, NasCrypto.deriveNasKeys]

end NasSecurityContext

/-- The context that was found, as it is taken into use. -/
def Usim.takeIntoUse (usim : Usim) (which : WhichCtx) (ctx : NasSecurityContext) : Usim :=
  match which with
  | .current => { usim with currentNsCtx := some ctx }
  | .nonCurrent =>
    let ctx := { ctx with uplinkCount := {} }
    { usim with nonCurrentNsCtx := some ctx, currentNsCtx := some ctx.deepCopy }

/-! ## The handler -/

/-- What the handler reads of the configuration: `createSecurityCapabilityIe` and the IMEISV,
encoded. -/
structure SecurityModeConfig where
  securityCapability : OctetString
  imeiSv : Option OctetString := none

inductive SecurityModeAnswer
  | reject (cause : MmCause)
  | complete
  deriving DecidableEq

/-- The checks of a command, and what becomes of the contexts. -/
def Usim.securityModeCommand (crypto : NasCrypto) (config : SecurityModeConfig)
    (hasEmergency : Bool) (usim : Usim) (msg : SecurityModeCommand) :
    Except Fault (SecurityModeAnswer × Usim) :=
  let usim := usim.forgetRand
  if !msg.isValidKsi then .ok (.reject .secModeRejectedUnspecified, usim)
  else if msg.isForLocal && !hasEmergency then .ok (.reject .secModeRejectedUnspecified, usim)
  else
    let usim := if msg.isForLocal then { usim with currentNsCtx := some locallyDeriveNsc } else usim
    match usim.findSecurityContext msg.ksi with
    | none => .ok (.reject .secModeRejectedUnspecified, usim)
    | some (which, ctx) =>
      if msg.replayedUeSecurityCapabilities ≠ config.securityCapability then
        .ok (.reject .ueSecurityCapMismatch, usim)
      else if lastAlgorithm < msg.integrity ∨ lastAlgorithm < msg.ciphering then
        .ok (.reject .ueSecurityCapMismatch, usim)
      else if msg.integrity = ia0 ∧ !(hasEmergency || msg.isForLocal) then
        .ok (.reject .secModeRejectedUnspecified, usim)
      else do
        match ← ctx.checkCommand crypto msg with
        | none => return (.reject .secModeRejectedUnspecified, usim)
        | some clearNasCount =>
          return (.complete, usim.takeIntoUse which (ctx.process crypto msg clearNasCount))

/-- The contexts when the one of a command is looked up. -/
def Usim.prepared (usim : Usim) (msg : SecurityModeCommand) : Usim :=
  if msg.isForLocal then { usim.forgetRand with currentNsCtx := some locallyDeriveNsc }
  else usim.forgetRand

/-- A command is for a context, and passes all checks. It is told whether the downlink count is to
be cleared. -/
structure Usim.Takes (crypto : NasCrypto) (config : SecurityModeConfig) (hasEmergency : Bool)
    (usim : Usim) (msg : SecurityModeCommand) (which : WhichCtx) (ctx : NasSecurityContext)
    (clearNasCount : Bool) : Prop where
  isValidKsi : msg.isValidKsi = true
  isForLocal : msg.isForLocal = true → hasEmergency = true
  found : (usim.prepared msg).findSecurityContext msg.ksi = some (which, ctx)
  capabilities : msg.replayedUeSecurityCapabilities = config.securityCapability
  integrity_le : msg.integrity ≤ lastAlgorithm
  ciphering_le : msg.ciphering ≤ lastAlgorithm
  null : msg.integrity = ia0 → hasEmergency = true
  checked : ctx.checkCommand crypto msg = .ok (some clearNasCount)

/-- The three things that come of a command. -/
inductive Usim.Commanded (crypto : NasCrypto) (config : SecurityModeConfig) (hasEmergency : Bool)
    (usim : Usim) (msg : SecurityModeCommand) : SecurityModeAnswer → Usim → Prop
  | refused (cause : MmCause) :
      Commanded crypto config hasEmergency usim msg (.reject cause) usim.forgetRand
  | notTaken (cause : MmCause) : (msg.isForLocal = true → hasEmergency = true) →
      Commanded crypto config hasEmergency usim msg (.reject cause) (usim.prepared msg)
  | taken {which ctx clearNasCount} :
      usim.Takes crypto config hasEmergency msg which ctx clearNasCount →
      Commanded crypto config hasEmergency usim msg .complete
        ((usim.prepared msg).takeIntoUse which (ctx.process crypto msg clearNasCount))

theorem Usim.securityModeCommand_eq_ok {crypto : NasCrypto} {config : SecurityModeConfig}
    {hasEmergency : Bool} {usim usim' : Usim} {msg : SecurityModeCommand}
    {answer : SecurityModeAnswer}
    (h : usim.securityModeCommand crypto config hasEmergency msg = .ok (answer, usim')) :
    usim.Commanded crypto config hasEmergency msg answer usim' := by
  have hprepared : (if msg.isForLocal = true then
      { usim.forgetRand with currentNsCtx := some locallyDeriveNsc } else usim.forgetRand) =
      usim.prepared msg := rfl
  unfold securityModeCommand at h
  dsimp only at h
  rw [hprepared] at h
  have hreject : ∀ {cause : MmCause} {usim₁ : Usim},
      usim.Commanded crypto config hasEmergency msg (.reject cause) usim₁ →
      (Except.ok (SecurityModeAnswer.reject cause, usim₁) : Except Fault _) =
        .ok (answer, usim') → usim.Commanded crypto config hasEmergency msg answer usim' := by
    intro cause usim₁ hcommanded heq
    obtain ⟨rfl, rfl⟩ := Prod.mk.inj (Except.ok.inj heq)
    exact hcommanded
  split at h
  · exact hreject (.refused _) h
  next hvalid =>
  split at h
  · exact hreject (.refused _) h
  next hlocal =>
  have hemergency : msg.isForLocal = true → hasEmergency = true := by
    intro hfor
    rw [hfor] at hlocal
    simpa using hlocal
  split at h
  · exact hreject (.notTaken _ hemergency) h
  next which ctx hfound =>
  split at h
  · exact hreject (.notTaken _ hemergency) h
  next hcapabilities =>
  split at h
  · exact hreject (.notTaken _ hemergency) h
  next halgorithms =>
  split at h
  · exact hreject (.notTaken _ hemergency) h
  next hnull =>
  obtain ⟨hintegrity, hciphering⟩ := not_or.mp halgorithms
  obtain ⟨result, hcheck, h⟩ := Fallible.bind_eq_ok.mp h
  cases result with
  | none => exact hreject (.notTaken _ hemergency) h
  | some clearNasCount =>
    obtain ⟨rfl, rfl⟩ := Prod.mk.inj (Except.ok.inj h)
    have hemergency' : msg.integrity = ia0 → hasEmergency = true := by
      intro hia0
      cases hhas : hasEmergency with
      | true => rfl
      | false =>
        cases hfor : msg.isForLocal with
        | true => exact (hemergency hfor).symm.trans hhas |>.symm
        | false => exact absurd ⟨hia0, by simp [hhas, hfor]⟩ hnull
    exact .taken
      { isValidKsi := by simpa using hvalid
        isForLocal := hemergency
        found := hfound
        capabilities := not_not.mp hcapabilities
        integrity_le := UInt8.not_lt.mp hintegrity
        ciphering_le := UInt8.not_lt.mp hciphering
        null := hemergency'
        checked := hcheck }

namespace NasMm

variable (crypto : NasCrypto) (config : SecurityModeConfig) (ue : NasMm)

/-- The message that goes into the Security Mode Complete. -/
def containedMessage (msg : SecurityModeCommand) : Option OctetString :=
  let requested : Option OctetString :=
    if msg.initialMessageRequested then
      some (match ue.mmState, ue.lastRegistrationRequest, ue.lastServiceRequest with
        | .registeredInitiated, some request, _ => (InitialNasMessage.registrationRequest request).encode
        | .serviceRequestInitiated, _, some request => (InitialNasMessage.serviceRequest request).encode
        | _, _, _ => [])
    else none
  match ue.lastRegWithoutNsc, ue.lastRegistrationRequest with
  | true, some request => some (InitialNasMessage.registrationRequest request).encode
  | _, _ => requested

/-- `SecurityModeComplete` -/
def securityModeComplete (msg : SecurityModeCommand) : UplinkMmMessage :=
  .other
    { messageType := securityModeCompleteType
      ies :=
        (IeField.mk ⟨0x77, .mobileIdentity⟩ (if msg.imeiSvRequested then config.imeiSv else none)).encode ++
          (IeField.mk ⟨0x71, .type6⟩ (ue.containedMessage msg)).encode }

/-- `SecurityModeReject` -/
def securityModeReject (cause : MmCause) : UplinkMmMessage :=
  .other { messageType := securityModeRejectType, ies := [cause.code] }

/-- `receiveSecurityModeCommand` -/
def receiveSecurityModeCommand (msg : SecurityModeCommand) : Except Fault NasMm := do
  let (answer, usim) ← ue.usim.securityModeCommand crypto config ue.hasEmergency msg
  let ue := { ue with usim }
  let answer := match answer with
    | .reject cause => securityModeReject cause
    | .complete => ue.securityModeComplete config msg
  let (_, ue) ← ue.sendNasMessage crypto answer
  return ue

variable {crypto config ue}

/-- A command is answered under the contexts behind it. -/
theorem receiveSecurityModeCommand_eq_ok {msg : SecurityModeCommand} {answer : SecurityModeAnswer}
    {usim : Usim} {ue' : NasMm}
    (hcommand : ue.usim.securityModeCommand crypto config ue.hasEmergency msg = .ok (answer, usim))
    (h : ue.receiveSecurityModeCommand crypto config msg = .ok ue') :
    ∃ rc reply, ({ ue with usim } : NasMm).sendNasMessage crypto reply = .ok (rc, ue') := by
  unfold receiveSecurityModeCommand at h
  rw [hcommand, Fallible.ok_bind] at h
  obtain ⟨⟨rc, ue₁⟩, hsend, h⟩ := Fallible.bind_eq_ok.mp h
  obtain rfl := Except.ok.inj h
  exact ⟨rc, _, hsend⟩

end NasMm

end Quicup.Ueransim
