import Quicup.Ueransim.Nas.Eap
import Quicup.Ueransim.Nas.Ie4

/-!
# Information elements of type 6

The decoders of `ie6.cpp`. Each is given the two length octets as a number.
-/

namespace Quicup.Ueransim

/-! ## Octets of the given length -/

abbrev IEPayloadContainer := OctetString

def IEPayloadContainer.decode (length : Int) : Read IEPayloadContainer := readOctetString length

abbrev IEExtendedEmergencyNumberList := OctetString

def IEExtendedEmergencyNumberList.decode (length : Int) : Read IEExtendedEmergencyNumberList :=
  readOctetString length

abbrev IEEpsNasMessageContainer := OctetString

def IEEpsNasMessageContainer.decode (length : Int) : Read IEEpsNasMessageContainer :=
  readOctetString length

abbrev IENasMessageContainer := OctetString

def IENasMessageContainer.decode (length : Int) : Read IENasMessageContainer :=
  readOctetString length

abbrev IEMappedEpsBearerContexts := OctetString

def IEMappedEpsBearerContexts.decode (length : Int) : Read IEMappedEpsBearerContexts :=
  readOctetString length

abbrev IEQoSRules := OctetString

def IEQoSRules.decode (length : Int) : Read IEQoSRules := readOctetString length

structure IEExtendedProtocolConfigurationOptions where
  configurationProtocol : Nat
  extension : Bool
  options : OctetString
  deriving DecidableEq

def IEExtendedProtocolConfigurationOptions.decode (length : Int) :
    Read IEExtendedProtocolConfigurationOptions := do
  let octet ← readOctet
  let options ← readOctetString (length - 1)
  return ⟨bitRange8 0 2 octet, bitAt 7 octet, options⟩

/-! ## Lists -/

structure IEQoSFlowDescriptions where
  list : List VQoSFlowDescription
  deriving DecidableEq

def IEQoSFlowDescriptions.decode (length : Int) : Read IEQoSFlowDescriptions := do
  let (_, list) ← decodeListVal VQoSFlowDescription.decode length
  return ⟨list⟩

structure IEPduSessionReactivationResultErrorCause where
  values : List VPduSessionReactivationResultErrorCause
  deriving DecidableEq

def IEPduSessionReactivationResultErrorCause.decode (length : Int) :
    Read IEPduSessionReactivationResultErrorCause := do
  let (_, values) ← decodeListVal VPduSessionReactivationResultErrorCause.decode length
  return ⟨values⟩

structure IELadnIndication where
  values : List IEDnn
  deriving DecidableEq

def IELadnIndication.decode (length : Int) : Read IELadnIndication := do
  let (_, values) ← decodeListIe IEDnn.decode length
  return ⟨values⟩

structure VLadn where
  dnn : IEDnn
  trackingAreaIdentityList : IE5gsTrackingAreaIdentityList
  deriving DecidableEq

def VLadn.decode : Read VLadn := do
  let dnn ← decodeIe4 IEDnn.decode
  let trackingAreaIdentityList ← decodeIe4 IE5gsTrackingAreaIdentityList.decode
  return ⟨dnn, trackingAreaIdentityList⟩

structure IELadnInformation where
  ladnList : List VLadn
  deriving DecidableEq

def IELadnInformation.decode (length : Int) : Read IELadnInformation := do
  let (_, ladnList) ← decodeListVal VLadn.decode length
  return ⟨ladnList⟩

structure IEOperatorDefinedAccessCategoryDefinitions where
  values : List VOperatorDefinedAccessCategoryDefinition
  deriving DecidableEq

def IEOperatorDefinedAccessCategoryDefinitions.decode (length : Int) :
    Read IEOperatorDefinedAccessCategoryDefinitions := do
  let (_, values) ← decodeListVal VOperatorDefinedAccessCategoryDefinition.decode length
  return ⟨values⟩

/-! ## Steering of roaming -/

/-- The members by the type of the data and of the list, as far as they are decoded. -/
inductive IESorTransparentContainer
  | securedPacket (listIndication ack : Bool) (sorMacIAusf : OctetString) (counterSor : UInt16)
      (securedPacket : OctetString)
  | piat (listIndication ack : Bool) (sorMacIAusf : OctetString) (counterSor : UInt16)
      (piat : List VPlmnIdAccessTech)
  | acknowledgement (sorMacIUe : OctetString)
  deriving DecidableEq

def IESorTransparentContainer.decode (length : Int) : Read IESorTransparentContainer := do
  let header ← readOctet
  if bitAt 0 header = false then
    let sorMacIAusf ← readOctetString 16
    let counterSor ← read2US
    if bitAt 2 header = false then
      let packet ← readOctetString (length - 19)
      return securedPacket (bitAt 1 header) (bitAt 3 header) sorMacIAusf counterSor packet
    else
      let (_, list) ← decodeListVal VPlmnIdAccessTech.decode (length - 19)
      return piat (bitAt 1 header) (bitAt 3 header) sorMacIAusf counterSor list
  else
    let sorMacIUe ← readOctetString 16
    return acknowledgement sorMacIUe

/-! ## Mobile identities -/

structure GutiMobileIdentity where
  plmn : VPlmn := {}
  amfRegionId : UInt8 := 0
  amfSetId : Nat := 0
  amfPointer : Nat := 0
  tmsi : UInt32 := 0
  deriving DecidableEq

structure ImsiMobileIdentity where
  plmn : VPlmn := {}
  routingIndicator : OctetString := []
  protectionSchemaId : Nat := 0
  homeNetworkPublicKeyIdentifier : UInt8 := 0
  schemeOutput : OctetString := []
  deriving DecidableEq

structure IE5gsMobileIdentity where
  type : Nat
  supiFormat : Nat := 0
  gutiOrTmsi : GutiMobileIdentity := {}
  value : OctetString := []
  imsi : ImsiMobileIdentity := {}
  deriving DecidableEq

namespace IdentityType

def suci : Nat := 0b001

def guti : Nat := 0b010

def imei : Nat := 0b011

def tmsi : Nat := 0b100

def imeisv : Nat := 0b101

end IdentityType

/-- `ESupiFormat::IMSI` -/
def imsiSupiFormat : Nat := 0b000

def hexDigit (nibble : Nat) : UInt8 :=
  if nibble < 10 then UInt8.ofNat (48 + nibble) else UInt8.ofNat (65 + (nibble - 10))

/-- `toHexString` -/
def toHexString (octets : OctetString) : OctetString :=
  octets.flatMap fun octet => [hexDigit (octet.toNat >>> 4), hexDigit (octet.toNat &&& 0xF)]

/-- Two octets, of which the second is padding where it is all ones. -/
def decodeRoutingIndicator : Read OctetString := do
  let second ← peekAt 1
  if second = 0xFF then
    let routingIndicator ← decodeBcdString 1 false
    let _ ← readOctet
    return routingIndicator
  else
    decodeBcdString 2 false

def decodeSchemeOutput (protectionSchemaId : Nat) (length : Int) : Read OctetString :=
  if protectionSchemaId = 0 then decodeBcdString length false
  else toHexString <$> readOctetString length

/-- The part of a SUCI with the format of an IMSI that follows the flags. -/
def ImsiMobileIdentity.decode (length : Int) : Read ImsiMobileIdentity := do
  let plmn ← VPlmn.decode
  let routingIndicator ← decodeRoutingIndicator
  let octet ← readI
  let protectionSchemaId := octet &&& 0b1111
  let homeNetworkPublicKeyIdentifier ← readOctet
  let schemeOutput ← decodeSchemeOutput protectionSchemaId (length - 7)
  return ⟨plmn, routingIndicator, protectionSchemaId, homeNetworkPublicKeyIdentifier, schemeOutput⟩

/-- The part that a GUTI and a TMSI share. -/
def GutiMobileIdentity.decodeTmsi (plmn : VPlmn) (amfRegionId : UInt8) :
    Read GutiMobileIdentity := do
  let amfSetId ← VAmfSetId.decode
  let amfPointer ← readI
  let tmsi ← read4UI
  return ⟨plmn, amfRegionId, amfSetId.value, amfPointer &&& 0b111111, tmsi⟩

def IE5gsMobileIdentity.decode (length : Int) : Read IE5gsMobileIdentity := do
  let flags ← peekI
  let type := flags &&& 0b111
  if type = IdentityType.suci then
    let _ ← readI
    let supiFormat := flags >>> 4 &&& 0b111
    if supiFormat = imsiSupiFormat then
      let imsi ← ImsiMobileIdentity.decode (length - 1)
      return { type, supiFormat, imsi }
    else
      let value ← readUtf8String (length - 1)
      return { type, supiFormat, value }
  else if type = IdentityType.guti then
    let _ ← readOctet
    let plmn ← VPlmn.decode
    let amfRegionId ← readOctet
    let gutiOrTmsi ← GutiMobileIdentity.decodeTmsi plmn amfRegionId
    return { type, gutiOrTmsi }
  else if type = IdentityType.tmsi then
    let _ ← readOctet
    let gutiOrTmsi ← GutiMobileIdentity.decodeTmsi {} 0
    return { type, gutiOrTmsi }
  else if type = IdentityType.imei ∨ type = IdentityType.imeisv then
    let value ← decodeBcdString length true
    return { type, value }
  else
    return { type }

/-- The length of the element is not looked at. -/
abbrev IEEapMessage := Option Eap

def IEEapMessage.decode (_length : Int) : Read IEEapMessage := decodeEapPdu

end Quicup.Ueransim
