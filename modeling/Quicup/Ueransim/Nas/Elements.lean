import Quicup.Ueransim.Nas.Ie6

/-!
# Information elements by type

The classes of information elements of each type that the messages use, with the values and
decoders of each, and the dispatch of `DecodeIe1` and `DecodeIe2346` on the type.
-/

namespace Quicup.Ueransim

inductive InformationElement1
  | fivegsIdentityType
  | fivegsRegistrationType
  | accessType
  | allowedSscMode
  | alwaysOnPduSessionIndication
  | alwaysOnPduSessionRequested
  | configurationUpdateIndication
  | deRegistrationType
  | imeiSvRequest
  | micoIndication
  | nasKeySetIdentifier
  | networkSlicingIndication
  | nssaiInclusionMode
  | payloadContainerType
  | pduSessionType
  | requestType
  | serviceType
  | smsIndication
  | sscMode
  deriving DecidableEq

namespace InformationElement1

def Value : InformationElement1 → Type
  | fivegsIdentityType => IE5gsIdentityType
  | fivegsRegistrationType => IE5gsRegistrationType
  | accessType => IEAccessType
  | allowedSscMode => IEAllowedSscMode
  | alwaysOnPduSessionIndication => IEAlwaysOnPduSessionIndication
  | alwaysOnPduSessionRequested => IEAlwaysOnPduSessionRequested
  | configurationUpdateIndication => IEConfigurationUpdateIndication
  | deRegistrationType => IEDeRegistrationType
  | imeiSvRequest => IEImeiSvRequest
  | micoIndication => IEMicoIndication
  | nasKeySetIdentifier => IENasKeySetIdentifier
  | networkSlicingIndication => IENetworkSlicingIndication
  | nssaiInclusionMode => IENssaiInclusionMode
  | payloadContainerType => IEPayloadContainerType
  | pduSessionType => IEPduSessionType
  | requestType => IERequestType
  | serviceType => IEServiceType
  | smsIndication => IESmsIndication
  | sscMode => IESscMode

def decode : (ie : InformationElement1) → Nat → ie.Value
  | fivegsIdentityType => IE5gsIdentityType.decode
  | fivegsRegistrationType => IE5gsRegistrationType.decode
  | accessType => IEAccessType.decode
  | allowedSscMode => IEAllowedSscMode.decode
  | alwaysOnPduSessionIndication => IEAlwaysOnPduSessionIndication.decode
  | alwaysOnPduSessionRequested => IEAlwaysOnPduSessionRequested.decode
  | configurationUpdateIndication => IEConfigurationUpdateIndication.decode
  | deRegistrationType => IEDeRegistrationType.decode
  | imeiSvRequest => IEImeiSvRequest.decode
  | micoIndication => IEMicoIndication.decode
  | nasKeySetIdentifier => IENasKeySetIdentifier.decode
  | networkSlicingIndication => IENetworkSlicingIndication.decode
  | nssaiInclusionMode => IENssaiInclusionMode.decode
  | payloadContainerType => IEPayloadContainerType.decode
  | pduSessionType => IEPduSessionType.decode
  | requestType => IERequestType.decode
  | serviceType => IEServiceType.decode
  | smsIndication => IESmsIndication.decode
  | sscMode => IESscMode.decode

end InformationElement1

inductive InformationElement3
  | fivegMmCause
  | fivegsTrackingAreaIdentity
  | authenticationParameterRand
  | epsNasSecurityAlgorithms
  | gprsTimer
  | integrityProtectionMaximumDataRate
  | maximumNumberOfSupportedPacketFilters
  | n1ModeToS1ModeNasTransparentContainer
  | nasSecurityAlgorithms
  | pduSessionIdentity2
  | timeZone
  | timeZoneAndTime
  | fivegSmCause
  deriving DecidableEq

namespace InformationElement3

def Value : InformationElement3 → Type
  | fivegMmCause => IE5gMmCause
  | fivegsTrackingAreaIdentity => IE5gsTrackingAreaIdentity
  | authenticationParameterRand => IEAuthenticationParameterRand
  | epsNasSecurityAlgorithms => IEEpsNasSecurityAlgorithms
  | gprsTimer => IEGprsTimer
  | integrityProtectionMaximumDataRate => IEIntegrityProtectionMaximumDataRate
  | maximumNumberOfSupportedPacketFilters => IEMaximumNumberOfSupportedPacketFilters
  | n1ModeToS1ModeNasTransparentContainer => IEN1ModeToS1ModeNasTransparentContainer
  | nasSecurityAlgorithms => IENasSecurityAlgorithms
  | pduSessionIdentity2 => IEPduSessionIdentity2
  | timeZone => IETimeZone
  | timeZoneAndTime => IETimeZoneAndTime
  | fivegSmCause => IE5gSmCause

def decode : (ie : InformationElement3) → Read ie.Value
  | fivegMmCause => IE5gMmCause.decode
  | fivegsTrackingAreaIdentity => IE5gsTrackingAreaIdentity.decode
  | authenticationParameterRand => IEAuthenticationParameterRand.decode
  | epsNasSecurityAlgorithms => IEEpsNasSecurityAlgorithms.decode
  | gprsTimer => IEGprsTimer.decode
  | integrityProtectionMaximumDataRate => IEIntegrityProtectionMaximumDataRate.decode
  | maximumNumberOfSupportedPacketFilters => IEMaximumNumberOfSupportedPacketFilters.decode
  | n1ModeToS1ModeNasTransparentContainer => IEN1ModeToS1ModeNasTransparentContainer.decode
  | nasSecurityAlgorithms => IENasSecurityAlgorithms.decode
  | pduSessionIdentity2 => IEPduSessionIdentity2.decode
  | timeZone => IETimeZone.decode
  | timeZoneAndTime => IETimeZoneAndTime.decode
  | fivegSmCause => IE5gSmCause.decode

end InformationElement3

/-- LV or TLV, of which the decoder is given the length octet. -/
inductive InformationElement4
  | daylightSavingTime
  | pduSessionReactivationResult
  | pduAddress
  | sNssai
  | additional5gSecurityInformation
  | s1UeNetworkCapability
  | gprsTimer3
  | authenticationFailureParameter
  | abba
  | s1ModeToN1ModeNasTransparentContainer
  | gprsTimer2
  | fivegSmCapability
  | ueSecurityCapability
  | sessionAmbr
  | authenticationParameterAutn
  | fivegsUpdateType
  | uplinkDataStatus
  | additionalInformation
  | authenticationResponseParameter
  | ueStatus
  | fivegsRegistrationResult
  | networkName
  | uesUsageSetting
  | intraN1ModeNasTransparentContainer
  | allowedPduSessionStatus
  | pduSessionStatus
  | fivegsDrxParameters
  | fivegMmCapability
  | smPduDnRequestContainer
  | fivegsNetworkFeatureSupport
  | dnn
  | nssai
  | plmnList
  | emergencyNumberList
  | rejectedNssai
  | serviceAreaList
  | fivegsTrackingAreaIdentityList
  deriving DecidableEq

namespace InformationElement4

def Value : InformationElement4 → Type
  | daylightSavingTime => IEDaylightSavingTime
  | pduSessionReactivationResult => IEPduSessionReactivationResult
  | pduAddress => IEPduAddress
  | sNssai => IESNssai
  | additional5gSecurityInformation => IEAdditional5gSecurityInformation
  | s1UeNetworkCapability => IES1UeNetworkCapability
  | gprsTimer3 => IEGprsTimer3
  | authenticationFailureParameter => IEAuthenticationFailureParameter
  | abba => IEAbba
  | s1ModeToN1ModeNasTransparentContainer => IES1ModeToN1ModeNasTransparentContainer
  | gprsTimer2 => IEGprsTimer2
  | fivegSmCapability => IE5gSmCapability
  | ueSecurityCapability => IEUeSecurityCapability
  | sessionAmbr => IESessionAmbr
  | authenticationParameterAutn => IEAuthenticationParameterAutn
  | fivegsUpdateType => IE5gsUpdateType
  | uplinkDataStatus => IEUplinkDataStatus
  | additionalInformation => IEAdditionalInformation
  | authenticationResponseParameter => IEAuthenticationResponseParameter
  | ueStatus => IEUeStatus
  | fivegsRegistrationResult => IE5gsRegistrationResult
  | networkName => IENetworkName
  | uesUsageSetting => IEUesUsageSetting
  | intraN1ModeNasTransparentContainer => IEIntraN1ModeNasTransparentContainer
  | allowedPduSessionStatus => IEAllowedPduSessionStatus
  | pduSessionStatus => IEPduSessionStatus
  | fivegsDrxParameters => IE5gsDrxParameters
  | fivegMmCapability => IE5gMmCapability
  | smPduDnRequestContainer => IESmPduDnRequestContainer
  | fivegsNetworkFeatureSupport => IE5gsNetworkFeatureSupport
  | dnn => IEDnn
  | nssai => IENssai
  | plmnList => IEPlmnList
  | emergencyNumberList => IEEmergencyNumberList
  | rejectedNssai => IERejectedNssai
  | serviceAreaList => IEServiceAreaList
  | fivegsTrackingAreaIdentityList => IE5gsTrackingAreaIdentityList

def decode : (ie : InformationElement4) → Int → Read ie.Value
  | daylightSavingTime => IEDaylightSavingTime.decode
  | pduSessionReactivationResult => IEPduSessionReactivationResult.decode
  | pduAddress => IEPduAddress.decode
  | sNssai => IESNssai.decode
  | additional5gSecurityInformation => IEAdditional5gSecurityInformation.decode
  | s1UeNetworkCapability => IES1UeNetworkCapability.decode
  | gprsTimer3 => IEGprsTimer3.decode
  | authenticationFailureParameter => IEAuthenticationFailureParameter.decode
  | abba => IEAbba.decode
  | s1ModeToN1ModeNasTransparentContainer => IES1ModeToN1ModeNasTransparentContainer.decode
  | gprsTimer2 => IEGprsTimer2.decode
  | fivegSmCapability => IE5gSmCapability.decode
  | ueSecurityCapability => IEUeSecurityCapability.decode
  | sessionAmbr => IESessionAmbr.decode
  | authenticationParameterAutn => IEAuthenticationParameterAutn.decode
  | fivegsUpdateType => IE5gsUpdateType.decode
  | uplinkDataStatus => IEUplinkDataStatus.decode
  | additionalInformation => IEAdditionalInformation.decode
  | authenticationResponseParameter => IEAuthenticationResponseParameter.decode
  | ueStatus => IEUeStatus.decode
  | fivegsRegistrationResult => IE5gsRegistrationResult.decode
  | networkName => IENetworkName.decode
  | uesUsageSetting => IEUesUsageSetting.decode
  | intraN1ModeNasTransparentContainer => IEIntraN1ModeNasTransparentContainer.decode
  | allowedPduSessionStatus => IEAllowedPduSessionStatus.decode
  | pduSessionStatus => IEPduSessionStatus.decode
  | fivegsDrxParameters => IE5gsDrxParameters.decode
  | fivegMmCapability => IE5gMmCapability.decode
  | smPduDnRequestContainer => IESmPduDnRequestContainer.decode
  | fivegsNetworkFeatureSupport => IE5gsNetworkFeatureSupport.decode
  | dnn => IEDnn.decode
  | nssai => IENssai.decode
  | plmnList => IEPlmnList.decode
  | emergencyNumberList => IEEmergencyNumberList.decode
  | rejectedNssai => IERejectedNssai.decode
  | serviceAreaList => IEServiceAreaList.decode
  | fivegsTrackingAreaIdentityList => IE5gsTrackingAreaIdentityList.decode

end InformationElement4

/-- LV-E or TLV-E, of which the decoder is given the two length octets. -/
inductive InformationElement6
  | qoSFlowDescriptions
  | payloadContainer
  | extendedEmergencyNumberList
  | epsNasMessageContainer
  | nasMessageContainer
  | extendedProtocolConfigurationOptions
  | pduSessionReactivationResultErrorCause
  | ladnIndication
  | ladnInformation
  | operatorDefinedAccessCategoryDefinitions
  | mappedEpsBearerContexts
  | qoSRules
  | sorTransparentContainer
  | fivegsMobileIdentity
  | eapMessage
  deriving DecidableEq

namespace InformationElement6

def Value : InformationElement6 → Type
  | qoSFlowDescriptions => IEQoSFlowDescriptions
  | payloadContainer => IEPayloadContainer
  | extendedEmergencyNumberList => IEExtendedEmergencyNumberList
  | epsNasMessageContainer => IEEpsNasMessageContainer
  | nasMessageContainer => IENasMessageContainer
  | extendedProtocolConfigurationOptions => IEExtendedProtocolConfigurationOptions
  | pduSessionReactivationResultErrorCause => IEPduSessionReactivationResultErrorCause
  | ladnIndication => IELadnIndication
  | ladnInformation => IELadnInformation
  | operatorDefinedAccessCategoryDefinitions => IEOperatorDefinedAccessCategoryDefinitions
  | mappedEpsBearerContexts => IEMappedEpsBearerContexts
  | qoSRules => IEQoSRules
  | sorTransparentContainer => IESorTransparentContainer
  | fivegsMobileIdentity => IE5gsMobileIdentity
  | eapMessage => IEEapMessage

def decode : (ie : InformationElement6) → Int → Read ie.Value
  | qoSFlowDescriptions => IEQoSFlowDescriptions.decode
  | payloadContainer => IEPayloadContainer.decode
  | extendedEmergencyNumberList => IEExtendedEmergencyNumberList.decode
  | epsNasMessageContainer => IEEpsNasMessageContainer.decode
  | nasMessageContainer => IENasMessageContainer.decode
  | extendedProtocolConfigurationOptions => IEExtendedProtocolConfigurationOptions.decode
  | pduSessionReactivationResultErrorCause => IEPduSessionReactivationResultErrorCause.decode
  | ladnIndication => IELadnIndication.decode
  | ladnInformation => IELadnInformation.decode
  | operatorDefinedAccessCategoryDefinitions => IEOperatorDefinedAccessCategoryDefinitions.decode
  | mappedEpsBearerContexts => IEMappedEpsBearerContexts.decode
  | qoSRules => IEQoSRules.decode
  | sorTransparentContainer => IESorTransparentContainer.decode
  | fivegsMobileIdentity => IE5gsMobileIdentity.decode
  | eapMessage => IEEapMessage.decode

end InformationElement6

/-- No element of type 2 is used. -/
inductive InformationElement
  | type1 (ie : InformationElement1)
  | type3 (ie : InformationElement3)
  | type4 (ie : InformationElement4)
  | type6 (ie : InformationElement6)
  deriving DecidableEq

namespace InformationElement

def Value : InformationElement → Type
  | type1 ie => ie.Value
  | type3 ie => ie.Value
  | type4 ie => ie.Value
  | type6 ie => ie.Value

/-- `DecodeIe1` and `DecodeIe2346` -/
def decode : (ie : InformationElement) → Read ie.Value
  | type1 ie => decodeIe1 ie.decode
  | type3 ie => ie.decode
  | type4 ie => decodeIe4 ie.decode
  | type6 ie => decodeIe6 ie.decode

end InformationElement

end Quicup.Ueransim
