import Quicup.Ueransim.Nas.Builder
import Quicup.Ueransim.Nas.Security

/-!
# Initial NAS messages

Registration requests, service requests and de-registration requests of the UE with all of their
elements, encoded and decoded as by their `onBuild`. A copy of a message is made by encoding and
decoding it.
-/

namespace Quicup.Ueransim

def registrationRequestType : UInt8 := 0x41

def deregistrationRequestUeOriginatingType : UInt8 := 0x45

def serviceRequestType : UInt8 := 0x4C

/-! ## Bodies -/

/-- What the builders of initial messages have in common: two half octets, a mobile identity, and
optional elements. -/
structure InitialBuild where
  messageType : UInt8
  big : UInt8
  little : UInt8
  mobileIdentity : OctetString
  optionals : List IeField

namespace InitialBuild

variable (build : InitialBuild)

/-- `EncodeNasMessage` -/
def encode : OctetString :=
  [mobilityManagementMessages, notProtected, build.messageType, encodeHalves build.big build.little] ++
    IeFormat.mobileIdentity.encode build.mobileIdentity ++ build.optionals.flatMap IeField.encode

/-- The elements can be of their formats, where the mobile identity may be none. -/
structure Fits : Prop where
  big : build.big < 16
  little : build.little < 16
  mobileIdentity : IeFormat.mobileIdentity.Fits build.mobileIdentity ∨
    build.mobileIdentity = noIdentity
  optionals : ∀ field ∈ build.optionals, ∀ value ∈ field.value, field.ie.format.Fits value

/-- The elements that are decoded. -/
structure Decoded where
  big : UInt8
  little : UInt8
  mobileIdentity : OctetString
  ies : List (UInt8 × OctetString)

/-- `DecodeViaBuilder` -/
def decode (optionalDecoders : List OptionalIe) : Read Decoded := do
  let octet ← readOctet
  let mobileIdentity ← IeFormat.mobileIdentity.decode
  let size ← viewSize
  let ies ← decodeOptionals optionalDecoders (size + 1)
  return { big := octet >>> 4, little := octet &&& 0xF, mobileIdentity, ies }

end InitialBuild

/-! ## Messages -/

structure RegistrationRequest where
  registrationType : UInt8 := 0
  nasKeySetIdentifier : UInt8 := 0
  mobileIdentity : OctetString := noIdentity
  nonCurrentNgKsi : Option OctetString := none
  micoIndication : Option OctetString := none
  networkSlicingIndication : Option OctetString := none
  ueSecurityCapability : Option OctetString := none
  mmCapability : Option OctetString := none
  requestedNSSAI : Option OctetString := none
  additionalGuti : Option OctetString := none
  requestedDrxParameters : Option OctetString := none
  uesUsageSetting : Option OctetString := none
  updateType : Option OctetString := none
  ueStatus : Option OctetString := none
  uplinkDataStatus : Option OctetString := none
  epsNasMessageContainer : Option OctetString := none
  nasMessageContainer : Option OctetString := none
  allowedPduSessionStatus : Option OctetString := none
  lastVisitedRegisteredTai : Option OctetString := none
  s1UeNetworkCapability : Option OctetString := none
  pduSessionStatus : Option OctetString := none
  payloadContainer : Option OctetString := none
  ladnIndication : Option OctetString := none
  deriving DecidableEq

namespace RegistrationRequest

/-- `onBuild` -/
def onBuild (request : RegistrationRequest) : InitialBuild where
  messageType := registrationRequestType
  big := request.nasKeySetIdentifier
  little := request.registrationType
  mobileIdentity := request.mobileIdentity
  optionals :=
    [⟨⟨0xC, .type1⟩, request.nonCurrentNgKsi⟩,
      ⟨⟨0xB, .type1⟩, request.micoIndication⟩,
      ⟨⟨0x9, .type1⟩, request.networkSlicingIndication⟩,
      ⟨⟨0x10, .type4⟩, request.mmCapability⟩,
      ⟨⟨0x2E, .type4⟩, request.ueSecurityCapability⟩,
      ⟨⟨0x2F, .type4⟩, request.requestedNSSAI⟩,
      ⟨⟨0x52, .type3 6⟩, request.lastVisitedRegisteredTai⟩,
      ⟨⟨0x17, .type4⟩, request.s1UeNetworkCapability⟩,
      ⟨⟨0x40, .type4⟩, request.uplinkDataStatus⟩,
      ⟨⟨0x50, .type4⟩, request.pduSessionStatus⟩,
      ⟨⟨0x2B, .type4⟩, request.ueStatus⟩,
      ⟨⟨0x77, .mobileIdentity⟩, request.additionalGuti⟩,
      ⟨⟨0x25, .type4⟩, request.allowedPduSessionStatus⟩,
      ⟨⟨0x18, .type4⟩, request.uesUsageSetting⟩,
      ⟨⟨0x51, .type4⟩, request.requestedDrxParameters⟩,
      ⟨⟨0x70, .type6⟩, request.epsNasMessageContainer⟩,
      ⟨⟨0x7E, .type6⟩, request.ladnIndication⟩,
      ⟨⟨0x7B, .type6⟩, request.payloadContainer⟩,
      ⟨⟨0x53, .type4⟩, request.updateType⟩,
      ⟨⟨0x71, .type6⟩, request.nasMessageContainer⟩]

def optionalDecoders : List OptionalIe := ({} : RegistrationRequest).onBuild.optionals.map IeField.ie

/-- The message that the decoders of `onBuild` have written. -/
def ofDecoded (body : InitialBuild.Decoded) : RegistrationRequest where
  registrationType := body.little
  nasKeySetIdentifier := body.big
  mobileIdentity := body.mobileIdentity
  nonCurrentNgKsi := valueOf 0xC body.ies
  micoIndication := valueOf 0xB body.ies
  networkSlicingIndication := valueOf 0x9 body.ies
  ueSecurityCapability := valueOf 0x2E body.ies
  mmCapability := valueOf 0x10 body.ies
  requestedNSSAI := valueOf 0x2F body.ies
  additionalGuti := valueOf 0x77 body.ies
  requestedDrxParameters := valueOf 0x51 body.ies
  uesUsageSetting := valueOf 0x18 body.ies
  updateType := valueOf 0x53 body.ies
  ueStatus := valueOf 0x2B body.ies
  uplinkDataStatus := valueOf 0x40 body.ies
  epsNasMessageContainer := valueOf 0x70 body.ies
  nasMessageContainer := valueOf 0x71 body.ies
  allowedPduSessionStatus := valueOf 0x25 body.ies
  lastVisitedRegisteredTai := valueOf 0x52 body.ies
  s1UeNetworkCapability := valueOf 0x17 body.ies
  pduSessionStatus := valueOf 0x50 body.ies
  payloadContainer := valueOf 0x7B body.ies
  ladnIndication := valueOf 0x7E body.ies

end RegistrationRequest

structure ServiceRequest where
  ngKSI : UInt8 := 0
  serviceType : UInt8 := 0
  tmsi : OctetString := noIdentity
  uplinkDataStatus : Option OctetString := none
  pduSessionStatus : Option OctetString := none
  allowedPduSessionStatus : Option OctetString := none
  nasMessageContainer : Option OctetString := none
  deriving DecidableEq

namespace ServiceRequest

/-- `onBuild` -/
def onBuild (request : ServiceRequest) : InitialBuild where
  messageType := serviceRequestType
  big := request.serviceType
  little := request.ngKSI
  mobileIdentity := request.tmsi
  optionals :=
    [⟨⟨0x40, .type4⟩, request.uplinkDataStatus⟩,
      ⟨⟨0x50, .type4⟩, request.pduSessionStatus⟩,
      ⟨⟨0x25, .type4⟩, request.allowedPduSessionStatus⟩,
      ⟨⟨0x71, .type6⟩, request.nasMessageContainer⟩]

def optionalDecoders : List OptionalIe := ({} : ServiceRequest).onBuild.optionals.map IeField.ie

/-- The message that the decoders of `onBuild` have written. -/
def ofDecoded (body : InitialBuild.Decoded) : ServiceRequest where
  ngKSI := body.little
  serviceType := body.big
  tmsi := body.mobileIdentity
  uplinkDataStatus := valueOf 0x40 body.ies
  pduSessionStatus := valueOf 0x50 body.ies
  allowedPduSessionStatus := valueOf 0x25 body.ies
  nasMessageContainer := valueOf 0x71 body.ies

end ServiceRequest

structure DeregistrationRequestUeOriginating where
  deRegistrationType : UInt8 := 0
  ngKSI : UInt8 := 0
  mobileIdentity : OctetString := noIdentity
  deriving DecidableEq

namespace DeregistrationRequestUeOriginating

/-- `onBuild` -/
def onBuild (request : DeregistrationRequestUeOriginating) : InitialBuild where
  messageType := deregistrationRequestUeOriginatingType
  big := request.ngKSI
  little := request.deRegistrationType
  mobileIdentity := request.mobileIdentity
  optionals := []

/-- The message that the decoders of `onBuild` have written. -/
def ofDecoded (body : InitialBuild.Decoded) : DeregistrationRequestUeOriginating where
  deRegistrationType := body.little
  ngKSI := body.big
  mobileIdentity := body.mobileIdentity

end DeregistrationRequestUeOriginating

/-- The messages that `IsInitialNasMessage` tells. -/
inductive InitialNasMessage
  | registrationRequest (request : RegistrationRequest)
  | serviceRequest (request : ServiceRequest)
  | deregistrationRequest (request : DeregistrationRequestUeOriginating)
  deriving DecidableEq

namespace InitialNasMessage

def onBuild : InitialNasMessage → InitialBuild
  | registrationRequest request => request.onBuild
  | serviceRequest request => request.onBuild
  | deregistrationRequest request => request.onBuild

/-- `EncodeNasMessage` -/
def encode (msg : InitialNasMessage) : OctetString := msg.onBuild.encode

/-- `DecodeNasMessage` of a plain message of one of these types. -/
def decode : Read InitialNasMessage := do
  let epd ← readOctet
  let sht ← readOctet
  let messageType ← readOctet
  if epd ≠ mobilityManagementMessages ∨ sht ≠ notProtected then Read.fault .exception
  else if messageType = registrationRequestType then
    let body ← InitialBuild.decode RegistrationRequest.optionalDecoders
    return .registrationRequest (.ofDecoded body)
  else if messageType = serviceRequestType then
    let body ← InitialBuild.decode ServiceRequest.optionalDecoders
    return .serviceRequest (.ofDecoded body)
  else if messageType = deregistrationRequestUeOriginatingType then
    let body ← InitialBuild.decode []
    return .deregistrationRequest (.ofDecoded body)
  else Read.fault .exception

/-- `DeepCopyMsg` -/
def deepCopy (msg : InitialNasMessage) : Except Fault InitialNasMessage := do
  let (copy, _) ← decode (Cursor.start msg.encode)
  return copy

end InitialNasMessage

/-! ## Copies -/

/-- What a message decodes to. -/
def InitialBuild.decoded (build : InitialBuild) : InitialBuild.Decoded where
  big := build.big
  little := build.little
  mobileIdentity := build.mobileIdentity
  ies := presentIes build.optionals

section Copies

variable {i : Nat} {build : InitialBuild} {optionalDecoders : List OptionalIe}

/-- The optional elements with the octets that the decoder of the identity has left. -/
private theorem decode_eq_bind {mobileIdentity left : OctetString} {j : Nat}
    (hidentity : IeFormat.mobileIdentity.decode ⟨i + 1,
      IeFormat.mobileIdentity.encode build.mobileIdentity ++
        build.optionals.flatMap IeField.encode⟩ = .ok (mobileIdentity, ⟨j, left⟩)) :
    InitialBuild.decode optionalDecoders ⟨i, encodeHalves build.big build.little ::
      (IeFormat.mobileIdentity.encode build.mobileIdentity ++
        build.optionals.flatMap IeField.encode)⟩ =
      (decodeOptionals optionalDecoders (j + left.length + 1) ⟨j, left⟩ >>= fun r =>
        .ok (⟨encodeHalves build.big build.little >>> 4, encodeHalves build.big build.little &&& 0xF,
          mobileIdentity, r.1⟩, r.2)) := by
  change (IeFormat.mobileIdentity.decode ⟨i + 1, _⟩ >>= fun r =>
    decodeOptionals optionalDecoders (r.2.size + 1) r.2 >>= fun s => _) = _
  rw [hidentity]
  rfl

/-- A message that identifies the UE is read back. -/
theorem InitialBuild.Fits.decode_eq (h : build.Fits)
    (hidentity : IeFormat.mobileIdentity.Fits build.mobileIdentity)
    (hun : Unambiguous optionalDecoders)
    (hdecoders : ∀ field ∈ build.optionals, field.ie ∈ optionalDecoders) :
    ∃ t, InitialBuild.decode optionalDecoders ⟨i, encodeHalves build.big build.little ::
      (IeFormat.mobileIdentity.encode build.mobileIdentity ++
        build.optionals.flatMap IeField.encode)⟩ = .ok (build.decoded, t) := by
  have hread := IeFormat.Fits.decode_reads (i := i + 1) hidentity
    (build.optionals.flatMap IeField.encode)
  rw [decode_eq_bind hread, decodeOptionals_fields hun hdecoders h.optionals (by omega),
    Fallible.ok_bind, encodeHalves_shiftRight h.big h.little, encodeHalves_and h.little]
  exact ⟨_, rfl⟩

/-- Where there is no identity, its octet is left, and it is taken for an IEI. -/
theorem InitialBuild.decode_noIdentity (hidentity : build.mobileIdentity = noIdentity)
    (hdecoders : findDecoder optionalDecoders 0 = none) :
    InitialBuild.decode optionalDecoders ⟨i, encodeHalves build.big build.little ::
      (IeFormat.mobileIdentity.encode build.mobileIdentity ++
        build.optionals.flatMap IeField.encode)⟩ = .error .exception := by
  have hread : IeFormat.mobileIdentity.decode ⟨i + 1,
      IeFormat.mobileIdentity.encode build.mobileIdentity ++
        build.optionals.flatMap IeField.encode⟩ =
      .ok (noIdentity, ⟨i + 3, 0 :: build.optionals.flatMap IeField.encode⟩) := by
    rw [hidentity]
    rfl
  rw [decode_eq_bind hread, decodeOptionals_of_none _ hdecoders]
  rfl

end Copies

/-- The values of the fields are behind the decoders, where the IEIs are different. -/
private theorem valueOf_decoded {build : InitialBuild}
    (h : (build.optionals.map fun field => field.ie.iei).Nodup) :
    ∀ field ∈ build.optionals, valueOf field.ie.iei build.decoded.ies = field.value :=
  fun _ hfield => valueOf_presentIes h hfield

theorem RegistrationRequest.ofDecoded_decoded (request : RegistrationRequest) :
    RegistrationRequest.ofDecoded request.onBuild.decoded = request := by
  have hieis : (request.onBuild.optionals.map fun field => field.ie.iei).Nodup :=
    (by decide : (({} : RegistrationRequest).onBuild.optionals.map fun field => field.ie.iei).Nodup)
  have hvalues := valueOf_decoded hieis
  rw [RegistrationRequest.ofDecoded]
  generalize request.onBuild.decoded.ies = ies at hvalues
  simp only [RegistrationRequest.onBuild, List.forall_mem_cons] at hvalues
  simp only [hvalues]
  rfl

theorem ServiceRequest.ofDecoded_decoded (request : ServiceRequest) :
    ServiceRequest.ofDecoded request.onBuild.decoded = request := by
  have hieis : (request.onBuild.optionals.map fun field => field.ie.iei).Nodup :=
    (by decide : (({} : ServiceRequest).onBuild.optionals.map fun field => field.ie.iei).Nodup)
  have hvalues := valueOf_decoded hieis
  rw [ServiceRequest.ofDecoded]
  generalize request.onBuild.decoded.ies = ies at hvalues
  simp only [ServiceRequest.onBuild, List.forall_mem_cons] at hvalues
  simp only [hvalues]
  rfl

theorem RegistrationRequest.unambiguous :
    Unambiguous RegistrationRequest.optionalDecoders := by decide

theorem ServiceRequest.unambiguous : Unambiguous ServiceRequest.optionalDecoders := by decide

namespace InitialNasMessage

variable {msg : InitialNasMessage}

/-- What is left of copying a message when its type has been read. -/
private theorem deepCopy_of_decode {optionalDecoders : List OptionalIe}
    (ofDecoded : InitialBuild.Decoded → InitialNasMessage)
    (hdecode : decode (Cursor.start msg.encode) =
      (InitialBuild.decode optionalDecoders ⟨3, encodeHalves msg.onBuild.big msg.onBuild.little ::
        (IeFormat.mobileIdentity.encode msg.onBuild.mobileIdentity ++
          msg.onBuild.optionals.flatMap IeField.encode)⟩ >>= fun r => .ok (ofDecoded r.1, r.2)))
    (hcopy : ofDecoded msg.onBuild.decoded = msg) (hun : Unambiguous optionalDecoders)
    (hnone : findDecoder optionalDecoders 0 = none)
    (hdecoders : ∀ field ∈ msg.onBuild.optionals, field.ie ∈ optionalDecoders)
    (h : msg.onBuild.Fits) :
    msg.deepCopy = if msg.onBuild.mobileIdentity = noIdentity then .error .exception
      else .ok msg := by
  rw [deepCopy, hdecode]
  split
  · next hidentity =>
    rw [InitialBuild.decode_noIdentity hidentity hnone]
    rfl
  · next hidentity =>
    obtain ⟨t, ht⟩ := h.decode_eq (i := 3) (h.mobileIdentity.resolve_right hidentity) hun hdecoders
    rw [ht, Fallible.ok_bind, hcopy]
    rfl

private theorem ie_mem {fields others : List IeField} (h : fields.map IeField.ie = others.map IeField.ie) :
    ∀ field ∈ fields, field.ie ∈ others.map IeField.ie :=
  fun _ hfield => h ▸ List.mem_map_of_mem hfield

/-- A copy is the message itself. A message without an identity cannot be copied. -/
theorem deepCopy_eq (h : msg.onBuild.Fits) :
    msg.deepCopy = if msg.onBuild.mobileIdentity = noIdentity then .error .exception
      else .ok msg := by
  cases msg with
  | registrationRequest request =>
    apply deepCopy_of_decode (fun body => .registrationRequest (.ofDecoded body)) rfl _
      RegistrationRequest.unambiguous
      (by decide) (ie_mem rfl) h
    exact congrArg _ request.ofDecoded_decoded
  | serviceRequest request =>
    apply deepCopy_of_decode (fun body => .serviceRequest (.ofDecoded body)) rfl _
      ServiceRequest.unambiguous
      (by decide) (ie_mem rfl) h
    exact congrArg _ request.ofDecoded_decoded
  | deregistrationRequest request =>
    exact deepCopy_of_decode (fun body => .deregistrationRequest (.ofDecoded body)) rfl rfl
      (by decide) rfl nofun h

end InitialNasMessage

end Quicup.Ueransim
