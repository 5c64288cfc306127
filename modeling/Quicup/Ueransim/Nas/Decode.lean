import Quicup.Ueransim.Nas.Messages
import Quicup.Ueransim.Nas.Security

/-!
# Decoding messages

The decoding half of `encode.cpp`: headers, and what a builder makes of the octets behind them. The
loop over the optional elements is given one iteration more than there are octets.
-/

namespace Quicup.Ueransim

/-- A value that is stored into a member of the message. -/
abbrev DecodedElement := (ie : InformationElement) × ie.Value

def MandatoryDecoder.decode : MandatoryDecoder → Read (List DecodedElement)
  | mandatoryIE1 ie => do
    let value ← decodeIe1 ie.decode
    return [⟨.type1 ie, value⟩]
  | mandatoryIE1Pair ie1 ie2 => do
    let octet ← readI
    return [⟨.type1 ie1, ie1.decode (octet >>> 4 &&& 0xF)⟩,
      ⟨.type1 ie2, ie2.decode (octet &&& 0xF)⟩]
  | mandatoryIE ie => do
    let value ← ie.decode
    return [⟨ie, value⟩]

def OptionalDecoder.decode (decoder : OptionalDecoder) : Read DecodedElement :=
  match decoder.ie with
  | .type1 ie => do
    let value ← decodeIe1 ie.decode
    return ⟨.type1 ie, value⟩
  | ie => do
    let _ ← readI
    let value ← ie.decode
    return ⟨ie, value⟩

/-- The members of a message that are set, the optional ones by IEI in the order of the octets. Of
an IEI that comes twice, the last value stays. -/
structure DecodedBody where
  mandatory : List DecodedElement
  optional : List (Nat × DecodedElement)

namespace NasMessageBuilder

variable (builder : NasMessageBuilder)

/-- The entry of an octet, which is an IEI or has one in its high half. -/
def optionalDecoder (octet : Nat) : Option OptionalDecoder :=
  (builder.optionalDecoders.find? fun decoder => decoder.iei = octet).or
    (builder.optionalDecoders.find? fun decoder => decoder.iei = octet >>> 4 &&& 0xF)

def decodeMandatory : List MandatoryDecoder → Read (List DecodedElement)
  | [] => return []
  | decoder :: decoders => do
    let values ← decoder.decode
    let others ← decodeMandatory decoders
    return values ++ others

/-- An iteration of the loop over the optional elements. -/
def decodeOptional : Read (Nat × DecodedElement) := do
  let octet ← peekI
  match builder.optionalDecoder octet with
  | some decoder => do
    let value ← decoder.decode
    return (decoder.iei, value)
  | none => Read.fault .exception

def decodeOptionals : Nat → Read (List (Nat × DecodedElement))
  | 0 => Read.fault .hang
  | fuel + 1 => do
    if ← hasNext then
      let value ← builder.decodeOptional
      let others ← decodeOptionals fuel
      return value :: others
    else return []

/-- `DecodeViaBuilder` -/
def decode : Read DecodedBody := do
  let mandatory ← decodeMandatory builder.mandatoryDecoders
  let optional ← fun c => builder.decodeOptionals (c.rest.length + 1) c
  return ⟨mandatory, optional⟩

end NasMessageBuilder

/-- No message has an IEI twice, so the map has all that is registered. -/
theorem MmMessageType.iei_nodup (type : MmMessageType) :
    (type.onBuild.optionalDecoders.map OptionalDecoder.iei).Nodup := by
  cases type <;> decide

theorem SmMessageType.iei_nodup (type : SmMessageType) :
    (type.onBuild.optionalDecoders.map OptionalDecoder.iei).Nodup := by
  cases type <;> decide

inductive DecodedNasMessage
  | plainMm (messageType : MmMessageType) (body : DecodedBody)
  | securedMm (msg : SecuredMmMessage)
  | sm (pduSessionId pti : UInt8) (messageType : SmMessageType) (body : DecodedBody)

namespace DecodedNasMessage

/-- `DecodeSecuredMmMessage` -/
def decodeSecuredMmMessage (sht : UInt8) : Read DecodedNasMessage := do
  let messageAuthenticationCode ← read4UI
  let sequenceNumber ← readOctet
  let plainNasMessage ← readRest
  return .securedMm { sht, messageAuthenticationCode, sequenceNumber, plainNasMessage }

def decodePlainMmMessage (messageType : UInt8) : Read DecodedNasMessage :=
  match MmMessageType.ofOctet messageType with
  | some type => .plainMm type <$> type.onBuild.decode
  | none => Read.fault .exception

def decodeSmMessage (pduSessionId pti messageType : UInt8) : Read DecodedNasMessage :=
  match SmMessageType.ofOctet messageType with
  | some type => .sm pduSessionId pti type <$> type.onBuild.decode
  | none => Read.fault .exception

/-- `DecodeNasMessage`. All that has another protocol discriminator is taken for a message of
session management. -/
def decode : Read DecodedNasMessage := do
  let epd ← readOctet
  if epd = mobilityManagementMessages then
    let sht ← readOctet
    if sht = notProtected then
      let messageType ← readOctet
      decodePlainMmMessage messageType
    else decodeSecuredMmMessage sht
  else
    let pduSessionId ← readOctet
    let pti ← readOctet
    let messageType ← readOctet
    decodeSmMessage pduSessionId pti messageType

end DecodedNasMessage

end Quicup.Ueransim
