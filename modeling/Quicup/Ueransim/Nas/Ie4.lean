import Quicup.Ueransim.Nas.Ie1And3

/-!
# Information elements of type 4

The decoders of `ie4.cpp`. Each is given the length octet, which most of them do not look at. An
element with octets alone is these octets.
-/

namespace Quicup.Ueransim

/-! ## Flags -/

/-- Sixteen flags for the PDU sessions, the first one reserved. -/
def decodePsi : Read (Vector Bool 16) := do
  let octet1 ← readOctet
  let octet2 ← readOctet
  return Vector.ofFn fun i =>
    if i.val = 0 then false
    else if i.val < 8 then bitAt i.val octet1
    else bitAt (i.val - 8) octet2

structure IEPduSessionReactivationResult where
  psi : Vector Bool 16
  deriving DecidableEq

def IEPduSessionReactivationResult.decode (_length : Int) : Read IEPduSessionReactivationResult :=
  .mk <$> decodePsi

structure IEUplinkDataStatus where
  psi : Vector Bool 16
  deriving DecidableEq

def IEUplinkDataStatus.decode (_length : Int) : Read IEUplinkDataStatus := .mk <$> decodePsi

structure IEAllowedPduSessionStatus where
  psi : Vector Bool 16
  deriving DecidableEq

def IEAllowedPduSessionStatus.decode (_length : Int) : Read IEAllowedPduSessionStatus :=
  .mk <$> decodePsi

structure IEPduSessionStatus where
  psi : Vector Bool 16
  deriving DecidableEq

def IEPduSessionStatus.decode (_length : Int) : Read IEPduSessionStatus := .mk <$> decodePsi

/-- The bits of an octet, the most significant first. -/
def flagsOf (octet : UInt8) : Vector Bool 8 := Vector.ofFn fun i => bitAt (7 - i.val) octet

/-- An octet of flags where the length reaches to it, and flags that are unset elsewhere. -/
def decodeFlags (length : Int) (number : Nat) : Read (Vector Bool 8) := do
  if length ≥ number then
    let bits ← readOctet
    return flagsOf bits
  else
    return Vector.replicate 8 false

/-- The flags of an octet in the order of their names in the comments, which is the one of the
structure. -/
structure IES1UeNetworkCapability where
  /-- EEA0, 128-EEA1 to 128-EEA3, EEA4 to EEA7 -/
  eea : Vector Bool 8
  /-- EIA0, 128-EIA1 to 128-EIA3, EIA4 to EIA7 -/
  eia : Vector Bool 8
  /-- UEA0 to UEA7 -/
  uea : Vector Bool 8
  /-- UCS2, UIA1 to UIA7 -/
  uia : Vector Bool 8
  /-- ProSe-dd, ProSe, H.245-ASH, ACC-CSFB, LPP, LCS, 1xSR VCC, NF -/
  proSe : Vector Bool 8
  /-- ePCO, HC-CP CIoT, ERw/oPDN, S1-U data, UP CIoT, CP CIoT, ProSe-relay, ProSe-dc -/
  ciot : Vector Bool 8
  /-- 15 bearers, SGC, N1mode, DCNR, CP backoff, RestrictEC, V2X PC5, multipleDRB -/
  bearers : Vector Bool 8
  deriving DecidableEq

def IES1UeNetworkCapability.decode (length : Int) : Read IES1UeNetworkCapability := do
  let eea ← decodeFlags length 1
  let eia ← decodeFlags length 2
  let uea ← decodeFlags length 3
  let uia ← decodeFlags length 4
  let proSe ← decodeFlags length 5
  let ciot ← decodeFlags length 6
  let bearers ← decodeFlags length 7
  -- the octets behind are spare
  if length ≥ 8 then
    let _ ← readOctetString (length - 7)
    return ⟨eea, eia, uea, uia, proSe, ciot, bearers⟩
  else
    return ⟨eea, eia, uea, uia, proSe, ciot, bearers⟩

structure IEUeSecurityCapability where
  /-- 5G-EA0, 128-5G-EA1 to 128-5G-EA3, 5G-EA4 to 5G-EA7 -/
  ea5g : Vector Bool 8
  /-- 5G-IA0, 128-5G-IA1 to 128-5G-IA3, 5G-IA4 to 5G-IA7 -/
  ia5g : Vector Bool 8
  /-- EEA0, 128-EEA1 to 128-EEA3, EEA4 to EEA7 -/
  eea : Vector Bool 8
  /-- EIA0, 128-EIA1 to 128-EIA3, EIA4 to EIA7 -/
  eia : Vector Bool 8
  deriving DecidableEq

def IEUeSecurityCapability.decode (length : Int) : Read IEUeSecurityCapability := do
  let ea5g ← decodeFlags length 1
  let ia5g ← decodeFlags length 2
  let eea ← decodeFlags length 3
  let eia ← decodeFlags length 4
  -- the octets behind are spare
  if length ≥ 5 then
    let _ ← readOctetString (length - 4)
    return ⟨ea5g, ia5g, eea, eia⟩
  else
    return ⟨ea5g, ia5g, eea, eia⟩

/-! ## Fixed fields -/

structure IEDaylightSavingTime where
  value : Nat
  deriving DecidableEq

def IEDaylightSavingTime.decode (_length : Int) : Read IEDaylightSavingTime := do
  let octet ← readI
  return ⟨octet &&& 0b11⟩

structure IEAdditional5gSecurityInformation where
  hdp : Nat
  rinmr : Nat
  deriving DecidableEq

def IEAdditional5gSecurityInformation.decode (_length : Int) :
    Read IEAdditional5gSecurityInformation := do
  let octet ← readI
  return ⟨octet &&& 0b1, octet >>> 1 &&& 0b1⟩

structure IEGprsTimer3 where
  timerValue : Nat
  unit : Nat
  deriving DecidableEq

def IEGprsTimer3.decode (_length : Int) : Read IEGprsTimer3 := do
  let oct ← readOctet
  return ⟨bitRange8 0 4 oct, bitRange8 5 7 oct⟩

structure IEGprsTimer2 where
  value : UInt8
  deriving DecidableEq

def IEGprsTimer2.decode (_length : Int) : Read IEGprsTimer2 := do
  let value ← readOctet
  return ⟨value⟩

structure IES1ModeToN1ModeNasTransparentContainer where
  mac : UInt32
  cipheringAlg : Nat
  integrityProtectionAlg : Nat
  keySetIdentifierIn5g : Nat
  tsc : Bool
  ncc : Nat
  ueSecurityCapability5g : UInt16
  ueSecurityCapabilityEps : Option UInt16
  deriving DecidableEq

def IES1ModeToN1ModeNasTransparentContainer.decode (length : Int) :
    Read IES1ModeToN1ModeNasTransparentContainer := do
  let mac ← read4UI
  let algorithms ← readOctet
  let octet ← readOctet
  let ueSecurityCapability5g ← read2US
  let res : Option UInt16 → IES1ModeToN1ModeNasTransparentContainer :=
    .mk mac (bitRange8 4 7 algorithms) (bitRange8 0 3 algorithms) (bitRange8 0 2 octet)
      (bitAt 3 octet) (bitRange8 4 6 octet) ueSecurityCapability5g
  if length ≥ 9 then
    let ueSecurityCapabilityEps ← read2US
    return res (some ueSecurityCapabilityEps)
  else
    return res none

structure IESessionAmbr where
  unitForSessionAmbrForDownlink : Nat
  sessionAmbrForDownlink : UInt16
  unitForSessionAmbrForUplink : Nat
  sessionAmbrForUplink : UInt16
  deriving DecidableEq

def IESessionAmbr.decode (_length : Int) : Read IESessionAmbr := do
  let unitForSessionAmbrForDownlink ← readI
  let sessionAmbrForDownlink ← read2US
  let unitForSessionAmbrForUplink ← readI
  let sessionAmbrForUplink ← read2US
  return ⟨unitForSessionAmbrForDownlink, sessionAmbrForDownlink, unitForSessionAmbrForUplink,
    sessionAmbrForUplink⟩

structure IE5gsUpdateType where
  smsRequested : Nat
  ngRanRcu : Nat
  deriving DecidableEq

def IE5gsUpdateType.decode (_length : Int) : Read IE5gsUpdateType := do
  let octet ← readI
  return ⟨octet &&& 0b1, octet >>> 1 &&& 0b1⟩

structure IEUeStatus where
  s1ModeReg : Nat
  n1ModeReg : Nat
  deriving DecidableEq

def IEUeStatus.decode (_length : Int) : Read IEUeStatus := do
  let octet ← readI
  return ⟨octet &&& 0b1, octet >>> 1 &&& 0b1⟩

structure IE5gsRegistrationResult where
  registrationResult : Nat
  smsOverNasAllowed : Nat
  deriving DecidableEq

def IE5gsRegistrationResult.decode (_length : Int) : Read IE5gsRegistrationResult := do
  let octet ← readI
  return ⟨octet &&& 0b111, octet >>> 3 &&& 0b1⟩

structure IEUesUsageSetting where
  value : Nat
  deriving DecidableEq

def IEUesUsageSetting.decode (_length : Int) : Read IEUesUsageSetting := do
  let octet ← readI
  return ⟨octet &&& 0b1⟩

structure IEIntraN1ModeNasTransparentContainer where
  mac : UInt32
  cipheringAlg : Nat
  integrityProtectionAlg : Nat
  keySetIdentifierIn5g : Nat
  tsc : Bool
  kacf : Bool
  sequenceNumber : UInt8
  deriving DecidableEq

def IEIntraN1ModeNasTransparentContainer.decode (_length : Int) :
    Read IEIntraN1ModeNasTransparentContainer := do
  let mac ← read4UI
  let algorithms ← readOctet
  let octet ← readOctet
  let sequenceNumber ← readOctet
  return ⟨mac, bitRange8 4 7 algorithms, bitRange8 0 3 algorithms, bitRange8 0 2 octet,
    bitAt 3 octet, bitAt 4 octet, sequenceNumber⟩

structure IE5gsDrxParameters where
  value : Nat
  deriving DecidableEq

def IE5gsDrxParameters.decode (_length : Int) : Read IE5gsDrxParameters := do
  let octet ← readI
  return ⟨octet &&& 0xF⟩

structure IE5gMmCapability where
  s1Mode : Bool
  hoAttach : Bool
  lpp : Bool
  deriving DecidableEq

def IE5gMmCapability.decode (_length : Int) : Read IE5gMmCapability := do
  let octet ← readOctet
  return ⟨bitAt 0 octet, bitAt 1 octet, bitAt 2 octet⟩

/-! ## Fields that the length selects -/

structure IESNssai where
  sst : UInt8 := 0
  sd : Option Nat := none
  mappedHplmnSst : Option UInt8 := none
  mappedHplmnSd : Option Nat := none
  deriving DecidableEq

def IESNssai.decode (length : Int) : Read IESNssai := do
  if length = 0b00000001 then
    let sst ← readOctet
    return ⟨sst, none, none, none⟩
  else if length = 0b00000010 then
    let sst ← readOctet
    let mappedHplmnSst ← readOctet
    return ⟨sst, none, some mappedHplmnSst, none⟩
  else if length = 0b00000100 then
    let sst ← readOctet
    let sd ← read3I
    return ⟨sst, some sd, none, none⟩
  else if length = 0b00000101 then
    let sst ← readOctet
    let sd ← read3I
    let mappedHplmnSst ← readOctet
    return ⟨sst, some sd, some mappedHplmnSst, none⟩
  else if length = 0b00001000 then
    let sst ← readOctet
    let sd ← read3I
    let mappedHplmnSst ← readOctet
    let mappedHplmnSd ← read3I
    return ⟨sst, some sd, some mappedHplmnSst, some mappedHplmnSd⟩
  else
    -- all other values are reserved
    return ⟨0, none, none, none⟩

structure IE5gsNetworkFeatureSupport where
  imsVoPs3gpp : Bool
  imsVoPsN3gpp : Bool
  emc : Nat
  emf : Nat
  iwkN26 : Bool
  mpsi : Bool
  emcn3 : Option Bool
  mcsi : Option Bool
  deriving DecidableEq

def IE5gsNetworkFeatureSupport.decode (length : Int) : Read IE5gsNetworkFeatureSupport := do
  let octet ← readOctet
  let res : Option Bool → Option Bool → IE5gsNetworkFeatureSupport :=
    .mk (bitAt 0 octet) (bitAt 1 octet) (bitRange8 2 3 octet) (bitRange8 4 5 octet)
      (bitAt 6 octet) (bitAt 7 octet)
  if length > 1 then
    let octet ← readOctet
    if length > 2 then
      -- the other octet is spare
      let _ ← readOctet
      return res (some (bitAt 0 octet)) (some (bitAt 1 octet))
    else
      return res (some (bitAt 0 octet)) (some (bitAt 1 octet))
  else
    return res none none

/-! ## Octets of the given length -/

abbrev IEAuthenticationFailureParameter := OctetString

def IEAuthenticationFailureParameter.decode (length : Int) : Read IEAuthenticationFailureParameter :=
  readOctetString length

abbrev IEAbba := OctetString

def IEAbba.decode (length : Int) : Read IEAbba := readOctetString length

abbrev IEAuthenticationParameterAutn := OctetString

def IEAuthenticationParameterAutn.decode (length : Int) : Read IEAuthenticationParameterAutn :=
  readOctetString length

abbrev IEAdditionalInformation := OctetString

def IEAdditionalInformation.decode (length : Int) : Read IEAdditionalInformation :=
  readOctetString length

abbrev IEAuthenticationResponseParameter := OctetString

def IEAuthenticationResponseParameter.decode (length : Int) :
    Read IEAuthenticationResponseParameter := readOctetString length

abbrev IESmPduDnRequestContainer := OctetString

def IESmPduDnRequestContainer.decode (length : Int) : Read IESmPduDnRequestContainer :=
  readOctetString length

abbrev IEDnn := OctetString

def IEDnn.decode (length : Int) : Read IEDnn := readOctetString length

abbrev IEEmergencyNumberList := OctetString

def IEEmergencyNumberList.decode (length : Int) : Read IEEmergencyNumberList :=
  readOctetString length

/-! ## An octet of fields and octets behind it -/

structure IEPduAddress where
  sessionType : Nat
  pduAddressInformation : OctetString
  deriving DecidableEq

def IEPduAddress.decode (length : Int) : Read IEPduAddress := do
  let octet ← readI
  let pduAddressInformation ← readOctetString (length - 1)
  return ⟨octet &&& 0b111, pduAddressInformation⟩

structure IE5gSmCapability where
  rqos : Nat
  mh6pdu : Nat
  deriving DecidableEq

def IE5gSmCapability.decode (length : Int) : Read IE5gSmCapability := do
  let octet ← readI
  -- the octets behind are spare
  let _ ← readOctetString (length - 1)
  return ⟨octet &&& 0b1, octet >>> 1 &&& 0b1⟩

structure IENetworkName where
  numOfSpareBits : Nat
  addCi : Nat
  codingScheme : Nat
  textString : OctetString
  deriving DecidableEq

def IENetworkName.decode (length : Int) : Read IENetworkName := do
  let flags ← readI
  let textString ← readOctetString (length - 1)
  return ⟨flags &&& 0b111, flags >>> 3 &&& 0b1, flags >>> 4 &&& 0b111, textString⟩

/-! ## Lists -/

structure IENssai where
  sNssais : List IESNssai
  deriving DecidableEq

/-- The decoders of lists do not look at whether the last element fits. -/
def IENssai.decode (length : Int) : Read IENssai := do
  let (_, sNssais) ← decodeListIe IESNssai.decode length
  return ⟨sNssais⟩

structure IEPlmnList where
  plmns : List VPlmn
  deriving DecidableEq

def IEPlmnList.decode (length : Int) : Read IEPlmnList := do
  let (_, plmns) ← decodeListVal VPlmn.decode length
  return ⟨plmns⟩

structure IERejectedNssai where
  list : List VRejectedSNssai
  deriving DecidableEq

def IERejectedNssai.decode (length : Int) : Read IERejectedNssai := do
  let (_, list) ← decodeListVal VRejectedSNssai.decode length
  return ⟨list⟩

structure IEServiceAreaList where
  list : List VPartialServiceAreaList
  deriving DecidableEq

def IEServiceAreaList.decode (length : Int) : Read IEServiceAreaList := do
  let (_, list) ← decodeListVal VPartialServiceAreaList.decode length
  return ⟨list⟩

structure IE5gsTrackingAreaIdentityList where
  list : List VPartialTrackingAreaIdentityList
  deriving DecidableEq

def IE5gsTrackingAreaIdentityList.decode (length : Int) : Read IE5gsTrackingAreaIdentityList := do
  let (_, list) ← decodeListVal VPartialTrackingAreaIdentityList.decode length
  return ⟨list⟩

end Quicup.Ueransim
