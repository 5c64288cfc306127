import Quicup.Ueransim.Nas.Base

/-!
# Values in information elements

The decoders of `values.cpp`. A cast to an enumeration keeps any number, so an enumeration is
carried as its number, and so are the three octets of a TAC or an SD.
-/

namespace Quicup.Ueransim

structure VAmfSetId where
  value : Nat
  deriving DecidableEq

/-- The second octet is left for the AMF pointer. -/
def VAmfSetId.decode : Read VAmfSetId := do
  let octet0 ← readI
  let octet1 ← peekI
  return ⟨octet0 <<< 2 ||| (octet1 >>> 6 &&& 0b11)⟩

structure VPlmn where
  mcc : Nat := 0
  mnc : Nat := 0
  isLongMnc : Bool := false
  deriving DecidableEq

def VPlmn.decode : Read VPlmn := do
  let octet1 ← readI
  let mcc1 := octet1 &&& 0b1111
  let mcc2 := octet1 >>> 4 &&& 0b1111
  let octet2 ← readI
  let mcc3 := octet2 &&& 0b1111
  let mcc := 100 * mcc1 + 10 * mcc2 + mcc3
  let mnc3 := octet2 >>> 4 &&& 0b1111
  let octet3 ← readI
  let mnc1 := octet3 &&& 0b1111
  let mnc2 := octet3 >>> 4 &&& 0b1111
  let mnc := 10 * mnc1 + mnc2
  if mnc3 ≠ 0xF ∨ (octet1 = 0xFF ∧ octet2 = 0xFF ∧ octet3 = 0xFF) then
    return ⟨mcc, 10 * mnc + mnc3, true⟩
  else
    return ⟨mcc, mnc, false⟩

structure VQoSFlowParameter where
  identifier : UInt8
  content : OctetString
  deriving DecidableEq

def VQoSFlowParameter.decode : Read VQoSFlowParameter := do
  let identifier ← readOctet
  let contentLength ← readOctet
  let content ← readOctetString contentLength.toNat
  return ⟨identifier, content⟩

structure VQoSFlowDescription where
  qfi : Nat
  opCode : Nat
  numOfParameters : Nat
  eBit : Bool
  parameterList : List VQoSFlowParameter
  deriving DecidableEq

/-- A counted loop, with the values that it stores. -/
def decodeTimes {α : Type} (decode : Read α) : Nat → Read (List α)
  | 0 => return []
  | count + 1 => do
    let value ← decode
    let values ← decodeTimes decode count
    return value :: values

def VQoSFlowDescription.decode : Read VQoSFlowDescription := do
  let qfi ← readI
  let opCode ← readI
  let flags ← readOctet
  let numOfParameters := flags.toNat &&& 0b111111
  let parametersList ← decodeTimes VQoSFlowParameter.decode numOfParameters
  return ⟨qfi &&& 0b111111, opCode >>> 5 &&& 0b111, numOfParameters, bitAt 6 flags, parametersList⟩

structure VTrackingAreaIdentity where
  plmn : VPlmn
  tac : Nat
  deriving DecidableEq

def VTrackingAreaIdentity.decode : Read VTrackingAreaIdentity := do
  let plmn ← VPlmn.decode
  let tac ← read3I
  return ⟨plmn, tac⟩

structure VTime where
  year : UInt8
  month : UInt8
  day : UInt8
  hour : UInt8
  minute : UInt8
  second : UInt8
  deriving DecidableEq

def VTime.decode : Read VTime := do
  let year ← readOctet
  let month ← readOctet
  let day ← readOctet
  let hour ← readOctet
  let minute ← readOctet
  let second ← readOctet
  return ⟨year, month, day, hour, minute, second⟩

structure VRejectedSNssai where
  cause : Nat
  sst : UInt8 := 0
  sd : Option Nat := none
  deriving DecidableEq

def VRejectedSNssai.decode : Read VRejectedSNssai := do
  let octet ← readI
  let cause := octet &&& 0xF
  let length := octet >>> 4 &&& 0xF
  if length ≥ 1 then
    let sst ← readOctet
    if length ≥ 2 then
      let sd ← read3I
      return ⟨cause, sst, some sd⟩
    else
      return ⟨cause, sst, none⟩
  else
    return ⟨cause, 0, none⟩

/-! ## Partial service area lists -/

structure VPartialServiceAreaList00 where
  allowedType : Bool
  plmn : VPlmn
  tacs : List Nat
  deriving DecidableEq

def VPartialServiceAreaList00.decode : Read VPartialServiceAreaList00 := do
  let octet ← readOctet
  let count := bitRange8 0 4 octet + 1
  let plmn ← VPlmn.decode
  let tacs ← decodeTimes read3I count
  return ⟨bitAt 7 octet, plmn, tacs⟩

structure VPartialServiceAreaList01 where
  allowedType : Bool
  plmn : VPlmn
  tac : Nat
  deriving DecidableEq

def VPartialServiceAreaList01.decode : Read VPartialServiceAreaList01 := do
  let octet ← readOctet
  let plmn ← VPlmn.decode
  let tac ← read3I
  return ⟨bitAt 7 octet, plmn, tac⟩

structure VPartialServiceAreaList10 where
  allowedType : Bool
  tais : List VTrackingAreaIdentity
  deriving DecidableEq

def VPartialServiceAreaList10.decode : Read VPartialServiceAreaList10 := do
  let octet ← readOctet
  let count := bitRange8 0 4 octet + 1
  let list ← decodeTimes VTrackingAreaIdentity.decode count
  return ⟨bitAt 7 octet, list⟩

structure VPartialServiceAreaList11 where
  allowedType : Bool
  plmn : VPlmn
  deriving DecidableEq

def VPartialServiceAreaList11.decode : Read VPartialServiceAreaList11 := do
  let octet ← readOctet
  let plmn ← VPlmn.decode
  return ⟨bitAt 7 octet, plmn⟩

/-- The one list that `present` tells. -/
inductive VPartialServiceAreaList
  | list00 (list : VPartialServiceAreaList00)
  | list01 (list : VPartialServiceAreaList01)
  | list10 (list : VPartialServiceAreaList10)
  | list11 (list : VPartialServiceAreaList11)
  deriving DecidableEq

def VPartialServiceAreaList.decode : Read VPartialServiceAreaList := do
  let octet ← peek
  match bitRange8 5 6 octet with
  | 0b00 => list00 <$> VPartialServiceAreaList00.decode
  | 0b01 => list01 <$> VPartialServiceAreaList01.decode
  | 0b10 => list10 <$> VPartialServiceAreaList10.decode
  | _ => list11 <$> VPartialServiceAreaList11.decode

/-! ## Partial lists of tracking area identities -/

structure VPartialTrackingAreaIdentityList00 where
  plmn : VPlmn
  tacs : List Nat
  deriving DecidableEq

def VPartialTrackingAreaIdentityList00.decode : Read VPartialTrackingAreaIdentityList00 := do
  let octet ← readOctet
  let count := bitRange8 0 4 octet + 1
  let plmn ← VPlmn.decode
  let tacs ← decodeTimes read3I count
  return ⟨plmn, tacs⟩

structure VPartialTrackingAreaIdentityList01 where
  plmn : VPlmn
  tac : Nat
  deriving DecidableEq

def VPartialTrackingAreaIdentityList01.decode : Read VPartialTrackingAreaIdentityList01 := do
  let _ ← readOctet
  let plmn ← VPlmn.decode
  let tac ← read3I
  return ⟨plmn, tac⟩

structure VPartialTrackingAreaIdentityList10 where
  tais : List VTrackingAreaIdentity
  deriving DecidableEq

def VPartialTrackingAreaIdentityList10.decode : Read VPartialTrackingAreaIdentityList10 := do
  let octet ← readOctet
  let count := bitRange8 0 4 octet + 1
  let tacs ← decodeTimes VTrackingAreaIdentity.decode count
  return ⟨tacs⟩

/-- The list that `present` tells, which is none for the value 11. -/
inductive VPartialTrackingAreaIdentityList
  | list00 (list : VPartialTrackingAreaIdentityList00)
  | list01 (list : VPartialTrackingAreaIdentityList01)
  | list10 (list : VPartialTrackingAreaIdentityList10)
  | absent
  deriving DecidableEq

def VPartialTrackingAreaIdentityList.decode : Read VPartialTrackingAreaIdentityList := do
  let octet ← peek
  match bitRange8 5 6 octet with
  | 0b00 => list00 <$> VPartialTrackingAreaIdentityList00.decode
  | 0b01 => list01 <$> VPartialTrackingAreaIdentityList01.decode
  | 0b10 => list10 <$> VPartialTrackingAreaIdentityList10.decode
  | _ => return absent

/-! ## Other values -/

structure VPduSessionReactivationResultErrorCause where
  pduSessionId : Nat
  causeValue : Nat
  deriving DecidableEq

def VPduSessionReactivationResultErrorCause.decode :
    Read VPduSessionReactivationResultErrorCause := do
  let pduSessionId ← readI
  let causeValue ← readI
  return ⟨pduSessionId, causeValue⟩

structure VOperatorDefinedAccessCategoryDefinition where
  precedence : UInt8
  operatorDefinedAccessCategoryNumber : Nat
  psac : Nat
  criteria : OctetString
  standardizedAccessCategory : Nat
  deriving DecidableEq

def VOperatorDefinedAccessCategoryDefinition.decode :
    Read VOperatorDefinedAccessCategoryDefinition := do
  let _ ← readI
  let precedence ← readOctet
  let octet ← readI
  let lengthOfCriteria ← readI
  let criteria ← readOctetString lengthOfCriteria
  let standardizedAccessCategory ← readI
  return ⟨precedence, octet &&& 0b11111, octet >>> 7 &&& 0b1, criteria,
    standardizedAccessCategory &&& 0b11111⟩

structure VPlmnIdAccessTech where
  plmnId : VPlmn
  accessTechnologyIdentifier : UInt16
  deriving DecidableEq

def VPlmnIdAccessTech.decode : Read VPlmnIdAccessTech := do
  let plmn ← VPlmn.decode
  let accessTechnologyIdentifier ← read2US
  return ⟨plmn, accessTechnologyIdentifier⟩

end Quicup.Ueransim
