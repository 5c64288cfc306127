import Quicup.Ueransim.Nas.Values

/-!
# Information elements of types 1 and 3

The decoders of `ie1.cpp`, from half an octet, and of `ie3.cpp`, which know their own length. The
bits of an enumeration are carried as their number.
-/

namespace Quicup.Ueransim

/-! ## Type 1 -/

/-- `BitRange8` of half an octet. -/
def halfBits (start stop val : Nat) : Nat := bitRange8 start stop (UInt8.ofNat val)

structure IE5gsIdentityType where
  value : Nat
  deriving DecidableEq

def IE5gsIdentityType.decode (val : Nat) : IE5gsIdentityType where
  value := halfBits 0 2 val

structure IE5gsRegistrationType where
  followOnRequestPending : Nat
  registrationType : Nat
  deriving DecidableEq

def IE5gsRegistrationType.decode (val : Nat) : IE5gsRegistrationType where
  followOnRequestPending := halfBits 3 3 val
  registrationType := halfBits 0 2 val

structure IEAccessType where
  value : Nat
  deriving DecidableEq

def IEAccessType.decode (val : Nat) : IEAccessType where
  value := halfBits 0 1 val

structure IEAllowedSscMode where
  ssc1 : Nat
  ssc2 : Nat
  ssc3 : Nat
  deriving DecidableEq

def IEAllowedSscMode.decode (val : Nat) : IEAllowedSscMode where
  ssc1 := halfBits 0 0 val
  ssc2 := halfBits 1 1 val
  ssc3 := halfBits 2 2 val

structure IEAlwaysOnPduSessionIndication where
  value : Nat
  deriving DecidableEq

def IEAlwaysOnPduSessionIndication.decode (val : Nat) : IEAlwaysOnPduSessionIndication where
  value := halfBits 0 0 val

structure IEAlwaysOnPduSessionRequested where
  value : Nat
  deriving DecidableEq

def IEAlwaysOnPduSessionRequested.decode (val : Nat) : IEAlwaysOnPduSessionRequested where
  value := halfBits 0 0 val

structure IEConfigurationUpdateIndication where
  ack : Nat
  red : Nat
  deriving DecidableEq

def IEConfigurationUpdateIndication.decode (val : Nat) : IEConfigurationUpdateIndication where
  ack := halfBits 0 0 val
  red := halfBits 1 1 val

structure IEDeRegistrationType where
  accessType : Nat
  reRegistrationRequired : Nat
  switchOff : Nat
  deriving DecidableEq

def IEDeRegistrationType.decode (val : Nat) : IEDeRegistrationType where
  accessType := halfBits 0 1 val
  reRegistrationRequired := halfBits 2 2 val
  switchOff := halfBits 3 3 val

structure IEImeiSvRequest where
  imeiSvRequest : Nat
  deriving DecidableEq

def IEImeiSvRequest.decode (val : Nat) : IEImeiSvRequest where
  imeiSvRequest := halfBits 0 2 val

structure IEMicoIndication where
  raai : Nat
  deriving DecidableEq

def IEMicoIndication.decode (val : Nat) : IEMicoIndication where
  raai := halfBits 0 0 val

structure IENasKeySetIdentifier where
  tsc : Nat
  ksi : Nat
  deriving DecidableEq

def IENasKeySetIdentifier.decode (val : Nat) : IENasKeySetIdentifier where
  tsc := halfBits 3 3 val
  ksi := halfBits 0 2 val

structure IENetworkSlicingIndication where
  nssci : Nat
  dcni : Nat
  deriving DecidableEq

def IENetworkSlicingIndication.decode (val : Nat) : IENetworkSlicingIndication where
  nssci := halfBits 0 0 val
  dcni := halfBits 1 1 val

structure IENssaiInclusionMode where
  nssaiInclusionMode : Nat
  deriving DecidableEq

def IENssaiInclusionMode.decode (val : Nat) : IENssaiInclusionMode where
  nssaiInclusionMode := halfBits 0 1 val

structure IEPayloadContainerType where
  payloadContainerType : Nat
  deriving DecidableEq

def IEPayloadContainerType.decode (val : Nat) : IEPayloadContainerType where
  payloadContainerType := halfBits 0 3 val

structure IEPduSessionType where
  pduSessionType : Nat
  deriving DecidableEq

def IEPduSessionType.decode (val : Nat) : IEPduSessionType where
  pduSessionType := halfBits 0 2 val

structure IERequestType where
  requestType : Nat
  deriving DecidableEq

def IERequestType.decode (val : Nat) : IERequestType where
  requestType := halfBits 0 2 val

structure IEServiceType where
  serviceType : Nat
  deriving DecidableEq

def IEServiceType.decode (val : Nat) : IEServiceType where
  serviceType := halfBits 0 3 val

structure IESmsIndication where
  sai : Nat
  deriving DecidableEq

def IESmsIndication.decode (val : Nat) : IESmsIndication where
  sai := halfBits 0 0 val

structure IESscMode where
  sscMode : Nat
  deriving DecidableEq

def IESscMode.decode (val : Nat) : IESscMode where
  sscMode := halfBits 0 2 val

/-! ## Type 3 -/

structure IE5gMmCause where
  value : Nat
  deriving DecidableEq

def IE5gMmCause.decode : Read IE5gMmCause := do
  let value ← readI
  return ⟨value⟩

structure IE5gsTrackingAreaIdentity where
  mcc : Nat
  mnc : Nat
  isLongMnc : Bool
  trackingAreaCode : Nat
  deriving DecidableEq

def IE5gsTrackingAreaIdentity.decode : Read IE5gsTrackingAreaIdentity := do
  let plmn ← VPlmn.decode
  let trackingAreaCode ← read3I
  return ⟨plmn.mcc, plmn.mnc, plmn.isLongMnc, trackingAreaCode⟩

structure IEAuthenticationParameterRand where
  value : OctetString
  deriving DecidableEq

def IEAuthenticationParameterRand.decode : Read IEAuthenticationParameterRand := do
  let value ← readOctetString 16
  return ⟨value⟩

structure IEEpsNasSecurityAlgorithms where
  integrity : Nat
  ciphering : Nat
  deriving DecidableEq

def IEEpsNasSecurityAlgorithms.decode : Read IEEpsNasSecurityAlgorithms := do
  let octet ← readI
  return ⟨octet &&& 0b111, octet >>> 4 &&& 0b111⟩

structure IEGprsTimer where
  timerValue : Nat
  timerValueUnit : Nat
  deriving DecidableEq

def IEGprsTimer.decode : Read IEGprsTimer := do
  let octet ← readOctet
  return ⟨bitRange8 0 4 octet, bitRange8 5 5 octet⟩

structure IEIntegrityProtectionMaximumDataRate where
  maxRateUplink : Nat
  maxRateDownlink : Nat
  deriving DecidableEq

def IEIntegrityProtectionMaximumDataRate.decode : Read IEIntegrityProtectionMaximumDataRate := do
  let maxRateUplink ← readI
  let maxRateDownlink ← readI
  return ⟨maxRateUplink, maxRateDownlink⟩

structure IEMaximumNumberOfSupportedPacketFilters where
  value : Nat
  deriving DecidableEq

def IEMaximumNumberOfSupportedPacketFilters.decode :
    Read IEMaximumNumberOfSupportedPacketFilters := do
  let v ← read2I
  return ⟨v >>> 5⟩

structure IEN1ModeToS1ModeNasTransparentContainer where
  sequenceNumber : UInt8
  deriving DecidableEq

def IEN1ModeToS1ModeNasTransparentContainer.decode :
    Read IEN1ModeToS1ModeNasTransparentContainer := do
  let sequenceNumber ← readOctet
  return ⟨sequenceNumber⟩

structure IENasSecurityAlgorithms where
  integrity : Nat
  ciphering : Nat
  deriving DecidableEq

def IENasSecurityAlgorithms.decode : Read IENasSecurityAlgorithms := do
  let octet ← readI
  return ⟨octet &&& 0xF, octet >>> 4 &&& 0xF⟩

structure IEPduSessionIdentity2 where
  value : UInt8
  deriving DecidableEq

def IEPduSessionIdentity2.decode : Read IEPduSessionIdentity2 := do
  let value ← readOctet
  return ⟨value⟩

structure IETimeZone where
  value : UInt8
  deriving DecidableEq

def IETimeZone.decode : Read IETimeZone := do
  let value ← readOctet
  return ⟨value⟩

structure IETimeZoneAndTime where
  time : VTime
  timezone : UInt8
  deriving DecidableEq

def IETimeZoneAndTime.decode : Read IETimeZoneAndTime := do
  let time ← VTime.decode
  let timezone ← readOctet
  return ⟨time, timezone⟩

structure IE5gSmCause where
  value : Nat
  deriving DecidableEq

def IE5gSmCause.decode : Read IE5gSmCause := do
  let value ← readI
  return ⟨value⟩

end Quicup.Ueransim
