import Quicup.Ueransim.Nas.Elements
import Quicup.Ueransim.Nas.SessionManagement

/-!
# Messages and their elements

`msg.hpp` and `msg.cpp`: the decoders that each message hands to the builder. A member of a message
is known by its place among the mandatory elements, or by its IEI.
-/

namespace Quicup.Ueransim

/-- An entry of `mandatoryDecoders`. -/
inductive MandatoryDecoder
  | mandatoryIE1 (ie : InformationElement1)
  /-- Two elements in an octet, the first one in its high half. -/
  | mandatoryIE1Pair (ie1 ie2 : InformationElement1)
  | mandatoryIE (ie : InformationElement)
  deriving DecidableEq

/-- An entry of `optionalDecoders`. -/
structure OptionalDecoder where
  iei : Nat
  ie : InformationElement
  deriving DecidableEq

namespace OptionalDecoder

def optionalIE (iei : Nat) (ie : InformationElement) : OptionalDecoder := ⟨iei, ie⟩

def optionalIE1 (iei : Nat) (ie : InformationElement1) : OptionalDecoder := ⟨iei, .type1 ie⟩

end OptionalDecoder

structure NasMessageBuilder where
  mandatoryDecoders : List MandatoryDecoder := []
  optionalDecoders : List OptionalDecoder := []
  deriving DecidableEq

/-! ## Mobility management -/

/-- The types of `EMessageType` that `DecodePlainMmMessage` knows. -/
inductive MmMessageType
  | registrationRequest | registrationAccept | registrationComplete | registrationReject
  | deRegistrationRequestUeOriginating | deRegistrationAcceptUeOriginating
  | deRegistrationRequestUeTerminated | deRegistrationAcceptUeTerminated | serviceRequest
  | serviceReject | serviceAccept | configurationUpdateCommand | configurationUpdateComplete
  | authenticationRequest | authenticationResponse | authenticationReject
  | authenticationFailure | authenticationResult | identityRequest | identityResponse
  | securityModeCommand | securityModeComplete | securityModeReject | fiveGMmStatus
  | notification | notificationResponse | ulNasTransport | dlNasTransport
  deriving DecidableEq

namespace MmMessageType

def ofOctet (messageType : UInt8) : Option MmMessageType :=
  match messageType.toNat with
  | 0x41 => some .registrationRequest
  | 0x42 => some .registrationAccept
  | 0x43 => some .registrationComplete
  | 0x44 => some .registrationReject
  | 0x45 => some .deRegistrationRequestUeOriginating
  | 0x46 => some .deRegistrationAcceptUeOriginating
  | 0x47 => some .deRegistrationRequestUeTerminated
  | 0x48 => some .deRegistrationAcceptUeTerminated
  | 0x4C => some .serviceRequest
  | 0x4D => some .serviceReject
  | 0x4E => some .serviceAccept
  | 0x54 => some .configurationUpdateCommand
  | 0x55 => some .configurationUpdateComplete
  | 0x56 => some .authenticationRequest
  | 0x57 => some .authenticationResponse
  | 0x58 => some .authenticationReject
  | 0x59 => some .authenticationFailure
  | 0x5A => some .authenticationResult
  | 0x5B => some .identityRequest
  | 0x5C => some .identityResponse
  | 0x5D => some .securityModeCommand
  | 0x5E => some .securityModeComplete
  | 0x5F => some .securityModeReject
  | 0x64 => some .fiveGMmStatus
  | 0x65 => some .notification
  | 0x66 => some .notificationResponse
  | 0x67 => some .ulNasTransport
  | 0x68 => some .dlNasTransport
  | _ => none

def onBuild : MmMessageType → NasMessageBuilder
  | authenticationFailure =>
    { mandatoryDecoders := [.mandatoryIE (.type3 .fivegMmCause)]
      optionalDecoders := [.optionalIE 0x30 (.type4 .authenticationFailureParameter)] }
  | authenticationReject =>
    { optionalDecoders := [.optionalIE 0x78 (.type6 .eapMessage)] }
  | authenticationRequest =>
    { mandatoryDecoders := [.mandatoryIE1 .nasKeySetIdentifier, .mandatoryIE (.type4 .abba)]
      optionalDecoders := [
        .optionalIE 0x21 (.type3 .authenticationParameterRand),
        .optionalIE 0x20 (.type4 .authenticationParameterAutn),
        .optionalIE 0x78 (.type6 .eapMessage)] }
  | authenticationResponse =>
    { optionalDecoders := [
        .optionalIE 0x2D (.type4 .authenticationResponseParameter),
        .optionalIE 0x78 (.type6 .eapMessage)] }
  | authenticationResult =>
    { mandatoryDecoders := [.mandatoryIE1 .nasKeySetIdentifier, .mandatoryIE (.type6 .eapMessage)]
      optionalDecoders := [.optionalIE 0x38 (.type4 .abba)] }
  | configurationUpdateCommand =>
    { optionalDecoders := [
        .optionalIE1 0xD .configurationUpdateIndication,
        .optionalIE 0x77 (.type6 .fivegsMobileIdentity),
        .optionalIE 0x54 (.type4 .fivegsTrackingAreaIdentityList), .optionalIE 0x15 (.type4 .nssai),
        .optionalIE 0x27 (.type4 .serviceAreaList), .optionalIE 0x43 (.type4 .networkName),
        .optionalIE 0x45 (.type4 .networkName), .optionalIE 0x46 (.type3 .timeZone),
        .optionalIE 0x47 (.type3 .timeZoneAndTime), .optionalIE 0x49 (.type4 .daylightSavingTime),
        .optionalIE 0x79 (.type6 .ladnInformation), .optionalIE1 0xB .micoIndication,
        .optionalIE1 0x9 .networkSlicingIndication, .optionalIE 0x31 (.type4 .nssai),
        .optionalIE 0x11 (.type4 .rejectedNssai),
        .optionalIE 0x76 (.type6 .operatorDefinedAccessCategoryDefinitions),
        .optionalIE1 0xF .smsIndication] }
  | configurationUpdateComplete => {}
  | deRegistrationAcceptUeOriginating => {}
  | deRegistrationAcceptUeTerminated => {}
  | deRegistrationRequestUeOriginating =>
    { mandatoryDecoders := [
        .mandatoryIE1Pair .nasKeySetIdentifier .deRegistrationType,
        .mandatoryIE (.type6 .fivegsMobileIdentity)] }
  | deRegistrationRequestUeTerminated =>
    { mandatoryDecoders := [.mandatoryIE1 .deRegistrationType]
      optionalDecoders := [
        .optionalIE 0x58 (.type3 .fivegMmCause), .optionalIE 0x5F (.type4 .gprsTimer2)] }
  | dlNasTransport =>
    { mandatoryDecoders := [
        .mandatoryIE1 .payloadContainerType, .mandatoryIE (.type6 .payloadContainer)]
      optionalDecoders := [
        .optionalIE 0x12 (.type3 .pduSessionIdentity2),
        .optionalIE 0x24 (.type4 .additionalInformation), .optionalIE 0x58 (.type3 .fivegMmCause),
        .optionalIE 0x37 (.type4 .gprsTimer3)] }
  | fiveGMmStatus =>
    { mandatoryDecoders := [.mandatoryIE (.type3 .fivegMmCause)] }
  | identityRequest =>
    { mandatoryDecoders := [.mandatoryIE1 .fivegsIdentityType] }
  | identityResponse =>
    { mandatoryDecoders := [.mandatoryIE (.type6 .fivegsMobileIdentity)] }
  | notification =>
    { mandatoryDecoders := [.mandatoryIE1 .accessType] }
  | notificationResponse =>
    { optionalDecoders := [.optionalIE 0x50 (.type4 .pduSessionStatus)] }
  | registrationAccept =>
    { mandatoryDecoders := [.mandatoryIE (.type4 .fivegsRegistrationResult)]
      optionalDecoders := [
        .optionalIE1 0x9 .networkSlicingIndication, .optionalIE1 0xA .nssaiInclusionMode,
        .optionalIE1 0xB .micoIndication, .optionalIE 0x77 (.type6 .fivegsMobileIdentity),
        .optionalIE 0x4A (.type4 .plmnList),
        .optionalIE 0x54 (.type4 .fivegsTrackingAreaIdentityList), .optionalIE 0x15 (.type4 .nssai),
        .optionalIE 0x11 (.type4 .rejectedNssai), .optionalIE 0x31 (.type4 .nssai),
        .optionalIE 0x21 (.type4 .fivegsNetworkFeatureSupport),
        .optionalIE 0x50 (.type4 .pduSessionStatus),
        .optionalIE 0x26 (.type4 .pduSessionReactivationResult),
        .optionalIE 0x72 (.type6 .pduSessionReactivationResultErrorCause),
        .optionalIE 0x79 (.type6 .ladnInformation), .optionalIE 0x27 (.type4 .serviceAreaList),
        .optionalIE 0x5E (.type4 .gprsTimer3), .optionalIE 0x5D (.type4 .gprsTimer2),
        .optionalIE 0x16 (.type4 .gprsTimer2), .optionalIE 0x34 (.type4 .emergencyNumberList),
        .optionalIE 0x7A (.type6 .extendedEmergencyNumberList),
        .optionalIE 0x73 (.type6 .sorTransparentContainer), .optionalIE 0x78 (.type6 .eapMessage),
        .optionalIE 0x76 (.type6 .operatorDefinedAccessCategoryDefinitions),
        .optionalIE 0x51 (.type4 .fivegsDrxParameters)] }
  | registrationComplete =>
    { optionalDecoders := [.optionalIE 0x73 (.type6 .sorTransparentContainer)] }
  | registrationReject =>
    { mandatoryDecoders := [.mandatoryIE (.type3 .fivegMmCause)]
      optionalDecoders := [
        .optionalIE 0x5F (.type4 .gprsTimer2), .optionalIE 0x16 (.type4 .gprsTimer2),
        .optionalIE 0x78 (.type6 .eapMessage)] }
  | registrationRequest =>
    { mandatoryDecoders := [
        .mandatoryIE1Pair .nasKeySetIdentifier .fivegsRegistrationType,
        .mandatoryIE (.type6 .fivegsMobileIdentity)]
      optionalDecoders := [
        .optionalIE1 0xC .nasKeySetIdentifier, .optionalIE1 0xB .micoIndication,
        .optionalIE1 0x9 .networkSlicingIndication, .optionalIE 0x10 (.type4 .fivegMmCapability),
        .optionalIE 0x2E (.type4 .ueSecurityCapability), .optionalIE 0x2F (.type4 .nssai),
        .optionalIE 0x52 (.type3 .fivegsTrackingAreaIdentity),
        .optionalIE 0x17 (.type4 .s1UeNetworkCapability),
        .optionalIE 0x40 (.type4 .uplinkDataStatus), .optionalIE 0x50 (.type4 .pduSessionStatus),
        .optionalIE 0x2B (.type4 .ueStatus), .optionalIE 0x77 (.type6 .fivegsMobileIdentity),
        .optionalIE 0x25 (.type4 .allowedPduSessionStatus),
        .optionalIE 0x18 (.type4 .uesUsageSetting), .optionalIE 0x51 (.type4 .fivegsDrxParameters),
        .optionalIE 0x70 (.type6 .epsNasMessageContainer),
        .optionalIE 0x7E (.type6 .ladnIndication), .optionalIE 0x7B (.type6 .payloadContainer),
        .optionalIE 0x53 (.type4 .fivegsUpdateType),
        .optionalIE 0x71 (.type6 .nasMessageContainer)] }
  | securityModeCommand =>
    { mandatoryDecoders := [
        .mandatoryIE (.type3 .nasSecurityAlgorithms), .mandatoryIE1 .nasKeySetIdentifier,
        .mandatoryIE (.type4 .ueSecurityCapability)]
      optionalDecoders := [
        .optionalIE1 0xE .imeiSvRequest, .optionalIE 0x57 (.type3 .epsNasSecurityAlgorithms),
        .optionalIE 0x36 (.type4 .additional5gSecurityInformation),
        .optionalIE 0x78 (.type6 .eapMessage), .optionalIE 0x38 (.type4 .abba),
        .optionalIE 0x19 (.type4 .s1UeNetworkCapability)] }
  | securityModeComplete =>
    { optionalDecoders := [
        .optionalIE 0x77 (.type6 .fivegsMobileIdentity),
        .optionalIE 0x71 (.type6 .nasMessageContainer)] }
  | securityModeReject =>
    { mandatoryDecoders := [.mandatoryIE (.type3 .fivegMmCause)] }
  | serviceAccept =>
    { optionalDecoders := [
        .optionalIE 0x50 (.type4 .pduSessionStatus),
        .optionalIE 0x26 (.type4 .pduSessionReactivationResult),
        .optionalIE 0x72 (.type6 .pduSessionReactivationResultErrorCause),
        .optionalIE 0x78 (.type6 .eapMessage)] }
  | serviceReject =>
    { mandatoryDecoders := [.mandatoryIE (.type3 .fivegMmCause)]
      optionalDecoders := [
        .optionalIE 0x50 (.type4 .pduSessionStatus), .optionalIE 0x5f (.type4 .gprsTimer2),
        .optionalIE 0x78 (.type6 .eapMessage)] }
  | serviceRequest =>
    { mandatoryDecoders := [
        .mandatoryIE1Pair .serviceType .nasKeySetIdentifier,
        .mandatoryIE (.type6 .fivegsMobileIdentity)]
      optionalDecoders := [
        .optionalIE 0x40 (.type4 .uplinkDataStatus), .optionalIE 0x50 (.type4 .pduSessionStatus),
        .optionalIE 0x25 (.type4 .allowedPduSessionStatus),
        .optionalIE 0x71 (.type6 .nasMessageContainer)] }
  | ulNasTransport =>
    { mandatoryDecoders := [
        .mandatoryIE1 .payloadContainerType, .mandatoryIE (.type6 .payloadContainer)]
      optionalDecoders := [
        .optionalIE 0x12 (.type3 .pduSessionIdentity2),
        .optionalIE 0x59 (.type3 .pduSessionIdentity2), .optionalIE1 0x8 .requestType,
        .optionalIE 0x22 (.type4 .sNssai), .optionalIE 0x25 (.type4 .dnn),
        .optionalIE 0x24 (.type4 .additionalInformation)] }

end MmMessageType

/-! ## Session management -/

namespace SmMessageType

def ofOctet (messageType : UInt8) : Option SmMessageType :=
  match messageType.toNat with
  | 0xC1 => some .pduSessionEstablishmentRequest
  | 0xC2 => some .pduSessionEstablishmentAccept
  | 0xC3 => some .pduSessionEstablishmentReject
  | 0xC5 => some .pduSessionAuthenticationCommand
  | 0xC6 => some .pduSessionAuthenticationComplete
  | 0xC7 => some .pduSessionAuthenticationResult
  | 0xC9 => some .pduSessionModificationRequest
  | 0xCA => some .pduSessionModificationReject
  | 0xCB => some .pduSessionModificationCommand
  | 0xCC => some .pduSessionModificationComplete
  | 0xCD => some .pduSessionModificationCommandReject
  | 0xD1 => some .pduSessionReleaseRequest
  | 0xD2 => some .pduSessionReleaseReject
  | 0xD3 => some .pduSessionReleaseCommand
  | 0xD4 => some .pduSessionReleaseComplete
  | 0xD6 => some .fiveGSmStatus
  | _ => none

def onBuild : SmMessageType → NasMessageBuilder
  | fiveGSmStatus =>
    { mandatoryDecoders := [.mandatoryIE (.type3 .fivegSmCause)] }
  | pduSessionAuthenticationCommand =>
    { mandatoryDecoders := [.mandatoryIE (.type6 .eapMessage)]
      optionalDecoders := [.optionalIE 0x7B (.type6 .extendedProtocolConfigurationOptions)] }
  | pduSessionAuthenticationComplete =>
    { mandatoryDecoders := [.mandatoryIE (.type6 .eapMessage)]
      optionalDecoders := [.optionalIE 0x7B (.type6 .extendedProtocolConfigurationOptions)] }
  | pduSessionAuthenticationResult =>
    { optionalDecoders := [
        .optionalIE 0x78 (.type6 .eapMessage),
        .optionalIE 0x7B (.type6 .extendedProtocolConfigurationOptions)] }
  | pduSessionEstablishmentAccept =>
    { mandatoryDecoders := [
        .mandatoryIE1Pair .sscMode .pduSessionType, .mandatoryIE (.type6 .qoSRules),
        .mandatoryIE (.type4 .sessionAmbr)]
      optionalDecoders := [
        .optionalIE 0x59 (.type3 .fivegSmCause), .optionalIE 0x29 (.type4 .pduAddress),
        .optionalIE 0x56 (.type3 .gprsTimer), .optionalIE 0x22 (.type4 .sNssai),
        .optionalIE1 0x8 .alwaysOnPduSessionIndication,
        .optionalIE 0x7F (.type6 .mappedEpsBearerContexts), .optionalIE 0x78 (.type6 .eapMessage),
        .optionalIE 0x79 (.type6 .qoSFlowDescriptions),
        .optionalIE 0x7B (.type6 .extendedProtocolConfigurationOptions),
        .optionalIE 0x25 (.type4 .dnn)] }
  | pduSessionEstablishmentReject =>
    { mandatoryDecoders := [.mandatoryIE (.type3 .fivegSmCause)]
      optionalDecoders := [
        .optionalIE 0x37 (.type4 .gprsTimer3), .optionalIE1 0xF .allowedSscMode,
        .optionalIE 0x78 (.type6 .eapMessage),
        .optionalIE 0x7B (.type6 .extendedProtocolConfigurationOptions)] }
  | pduSessionEstablishmentRequest =>
    { mandatoryDecoders := [.mandatoryIE (.type3 .integrityProtectionMaximumDataRate)]
      optionalDecoders := [
        .optionalIE1 0x9 .pduSessionType, .optionalIE1 0xA .sscMode,
        .optionalIE 0x28 (.type4 .fivegSmCapability),
        .optionalIE 0x55 (.type3 .maximumNumberOfSupportedPacketFilters),
        .optionalIE1 0xB .alwaysOnPduSessionRequested,
        .optionalIE 0x39 (.type4 .smPduDnRequestContainer),
        .optionalIE 0x7B (.type6 .extendedProtocolConfigurationOptions)] }
  | pduSessionModificationCommand =>
    { optionalDecoders := [
        .optionalIE 0x59 (.type3 .fivegSmCause), .optionalIE 0x2A (.type4 .sessionAmbr),
        .optionalIE 0x56 (.type3 .gprsTimer), .optionalIE1 0x8 .alwaysOnPduSessionIndication,
        .optionalIE 0x7A (.type6 .qoSRules), .optionalIE 0x7F (.type6 .mappedEpsBearerContexts),
        .optionalIE 0x79 (.type6 .qoSFlowDescriptions),
        .optionalIE 0x7B (.type6 .extendedProtocolConfigurationOptions)] }
  | pduSessionModificationCommandReject =>
    { mandatoryDecoders := [.mandatoryIE (.type3 .fivegSmCause)]
      optionalDecoders := [.optionalIE 0x7B (.type6 .extendedProtocolConfigurationOptions)] }
  | pduSessionModificationComplete =>
    { optionalDecoders := [.optionalIE 0x7B (.type6 .extendedProtocolConfigurationOptions)] }
  | pduSessionModificationReject =>
    { mandatoryDecoders := [.mandatoryIE (.type3 .fivegSmCause)]
      optionalDecoders := [
        .optionalIE 0x37 (.type4 .gprsTimer3),
        .optionalIE 0x7B (.type6 .extendedProtocolConfigurationOptions)] }
  | pduSessionModificationRequest =>
    { optionalDecoders := [
        .optionalIE 0x28 (.type4 .fivegSmCapability), .optionalIE 0x59 (.type3 .fivegSmCause),
        .optionalIE 0x55 (.type3 .maximumNumberOfSupportedPacketFilters),
        .optionalIE1 0xB .alwaysOnPduSessionRequested,
        .optionalIE 0x13 (.type3 .integrityProtectionMaximumDataRate),
        .optionalIE 0x7A (.type6 .qoSRules), .optionalIE 0x79 (.type6 .qoSFlowDescriptions),
        .optionalIE 0x7F (.type6 .mappedEpsBearerContexts),
        .optionalIE 0x7B (.type6 .extendedProtocolConfigurationOptions)] }
  | pduSessionReleaseCommand =>
    { mandatoryDecoders := [.mandatoryIE (.type3 .fivegSmCause)]
      optionalDecoders := [
        .optionalIE 0x37 (.type4 .gprsTimer3), .optionalIE 0x78 (.type6 .eapMessage),
        .optionalIE 0x7B (.type6 .extendedProtocolConfigurationOptions)] }
  | pduSessionReleaseComplete =>
    { optionalDecoders := [
        .optionalIE 0x59 (.type3 .fivegSmCause),
        .optionalIE 0x7B (.type6 .extendedProtocolConfigurationOptions)] }
  | pduSessionReleaseReject =>
    { mandatoryDecoders := [.mandatoryIE (.type3 .fivegSmCause)]
      optionalDecoders := [.optionalIE 0x7B (.type6 .extendedProtocolConfigurationOptions)] }
  | pduSessionReleaseRequest =>
    { optionalDecoders := [
        .optionalIE 0x59 (.type3 .fivegSmCause),
        .optionalIE 0x7B (.type6 .extendedProtocolConfigurationOptions)] }

end SmMessageType

end Quicup.Ueransim
