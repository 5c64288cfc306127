import Quicup.Ueransim.Nas.Base

/-!
# EAP packets

`DecodeEapPdu` of `eap.cpp`. No packet is returned for a code, type, subtype or attribute that is
not known, and where the octets of the packet run over its length it raises.
-/

namespace Quicup.Ueransim

namespace Eap

/-- `ECode::REQUEST` and `ECode::FINISH` -/
def firstCode : Nat := 1

def lastCode : Nat := 6

/-- The types of EAP that are told apart. -/
def noType : Nat := 0

def identityType : Nat := 1

def notificationType : Nat := 2

def akaPrimeType : Nat := 50

/-- `ESubType::AKA_CHALLENGE` and `ESubType::AKA_CLIENT_ERROR` -/
def firstSubType : Nat := 1

def lastSubType : Nat := 14

/-- `EAttributeType::AT_RAND` and `EAttributeType::AT_TRUST_IND` -/
def firstAttribute : Nat := 1

def lastAttribute : Nat := 139

end Eap

/-- What an EAP packet of a type holds. The attributes are in the order received, of which the
last one of a type counts. -/
inductive EapData
  | noType
  | akaPrime (subType : Nat) (attributes : List (Nat × OctetString))
  | notification (rawData : OctetString)
  | identity (rawData : OctetString)
  deriving DecidableEq

structure Eap where
  code : Nat
  id : Nat
  data : EapData
  deriving DecidableEq

/-- The loop over the attributes of EAP-AKA', which is left with none where one of them is not
known. -/
def decodeEapAttributes (innerLength : Int) : Nat → Int → Read (Option (List (Nat × OctetString)))
  | 0, _ => Read.fault .hang
  | fuel + 1, readBytes =>
    if readBytes < innerLength then do
      let t ← readI
      if t < Eap.firstAttribute ∨ t > Eap.lastAttribute then return none
      else
        let attributeLength ← readI
        if attributeLength < 2 then return none
        else
          let attributeVal ← readOctetString (4 * attributeLength - 2)
          let attributes ← decodeEapAttributes innerLength fuel
            (readBytes + 1 + 1 + (4 * attributeLength - 2))
          return attributes.map ((t, attributeVal) :: ·)
    else if readBytes ≠ innerLength then Read.fault .exception
    else return some []

def decodeEapPdu : Read (Option Eap) := do
  let code ← readI
  if code < Eap.firstCode ∨ code > Eap.lastCode then return none
  else
    let id ← readI
    let length ← read2I
    if length = 4 then return some ⟨code, id, .noType⟩
    else
      -- every octet is a type in the range that is checked
      let type ← readI
      let innerLength : Int := length - 1 - 1 - 2 - 1
      if type = Eap.akaPrimeType then
        let subType ← readI
        if subType < Eap.firstSubType ∨ subType > Eap.lastSubType then return none
        else
          let _ ← read2I
          let attributes ← fun c => decodeEapAttributes innerLength (c.rest.length + 1) 3 c
          return attributes.map fun attributes => ⟨code, id, .akaPrime subType attributes⟩
      else if type = Eap.notificationType then
        let rawData ← readOctetString innerLength
        return some ⟨code, id, .notification rawData⟩
      else if type = Eap.identityType then
        let rawData ← readOctetString innerLength
        return some ⟨code, id, .identity rawData⟩
      else return none

end Quicup.Ueransim
