import Quicup.Ueransim.Nas.Decode

/-!
# Encoding messages

The encoding half of `base.hpp`, `msg.hpp` and `encode.cpp`. What the classes of information
elements encode is given, and so is the order of the optional elements, which is that of `onBuild`
in the program.
-/

namespace Quicup.Ueransim

/-! ## Elements -/

/-- `T::Encode` of each class: a number for type 1, and else the octets that are appended. -/
structure IeEncoders where
  encode1 : (ie : InformationElement1) → ie.Value → Nat
  encode3 : (ie : InformationElement3) → ie.Value → OctetString
  encode4 : (ie : InformationElement4) → ie.Value → OctetString
  encode6 : (ie : InformationElement6) → ie.Value → OctetString

/-- `appendOctet` of two half octets. -/
def halfOctets (bigHalf littleHalf : Nat) : UInt8 :=
  .ofNat ((bigHalf &&& 0xF) <<< 4 ||| (littleHalf &&& 0xF))

/-- The length octet is filled in when the element is there. -/
def encodeIe4 (octets : OctetString) : OctetString := .ofNat octets.length :: octets

def encodeIe6 (octets : OctetString) : OctetString := octetsBE 2 octets.length ++ octets

namespace IeEncoders

variable (encoders : IeEncoders)

/-- `EncodeIe1` -/
def encodeIe1 (big : Nat) (ie : InformationElement1) (little : ie.Value) : OctetString :=
  [halfOctets big (encoders.encode1 ie little &&& 0xF)]

/-- `Encode2346`, and `EncodeIe1` with no IEI. -/
def encode : (ie : InformationElement) → ie.Value → OctetString
  | .type1 ie, value => encoders.encodeIe1 0 ie value
  | .type3 ie, value => encoders.encode3 ie value
  | .type4 ie, value => encodeIe4 (encoders.encode4 ie value)
  | .type6 ie, value => encodeIe6 (encoders.encode6 ie value)

/-- The decoder takes exactly the octets of an element, and they give its value back. -/
def Inverse : (element : DecodedElement) → Prop
  | ⟨.type1 ie, value⟩ => ie.decode (encoders.encode1 ie value &&& 0xF) = value
  | ⟨ie, value⟩ => ∀ i, Reads ie.decode i (encoders.encode ie value) value

end IeEncoders

/-! ## Members of messages -/

/-- What the members of a mandatory entry hold. -/
def MandatoryDecoder.Value : MandatoryDecoder → Type
  | mandatoryIE1 ie => ie.Value
  | mandatoryIE1Pair ie1 ie2 => ie1.Value × ie2.Value
  | mandatoryIE ie => ie.Value

def MandatoryDecoder.elements : (decoder : MandatoryDecoder) → decoder.Value → List DecodedElement
  | mandatoryIE1 ie, value => [⟨.type1 ie, value⟩]
  | mandatoryIE1Pair ie1 ie2, values => [⟨.type1 ie1, values.1⟩, ⟨.type1 ie2, values.2⟩]
  | mandatoryIE ie, value => [⟨ie, value⟩]

/-- The encoder that is pushed beside a mandatory decoder. -/
def MandatoryDecoder.encode (encoders : IeEncoders) :
    (decoder : MandatoryDecoder) → decoder.Value → OctetString
  | mandatoryIE1 ie, value => encoders.encodeIe1 0 ie value
  | mandatoryIE1Pair ie1 ie2, values =>
    encoders.encodeIe1 (encoders.encode1 ie1 values.1 &&& 0xF) ie2 values.2
  | mandatoryIE ie, value => encoders.encode ie value

/-- The encoder that is pushed beside an optional decoder. -/
def OptionalDecoder.encode (encoders : IeEncoders) (decoder : OptionalDecoder)
    (value : decoder.ie.Value) : OctetString :=
  match decoder.ie, value with
  | .type1 ie, value => encoders.encodeIe1 decoder.iei ie value
  | ie, value => .ofNat decoder.iei :: encoders.encode ie value

/-- The members of mandatory elements. -/
def MandatoryValues : List MandatoryDecoder → Type
  | [] => Unit
  | decoder :: decoders => decoder.Value × MandatoryValues decoders

namespace MandatoryValues

def elements : (decoders : List MandatoryDecoder) → MandatoryValues decoders → List DecodedElement
  | [], _ => []
  | decoder :: decoders, values => decoder.elements values.1 ++ elements decoders values.2

def encode (encoders : IeEncoders) :
    (decoders : List MandatoryDecoder) → MandatoryValues decoders → OctetString
  | [], _ => []
  | decoder :: decoders, values =>
    decoder.encode encoders values.1 ++ encode encoders decoders values.2

end MandatoryValues

namespace NasMessageBuilder

/-- An optional element that a message may have. -/
abbrev Entry (builder : NasMessageBuilder) := {d // d ∈ builder.optionalDecoders}

/-- The members of a message, each optional one absent or present. -/
structure Members (builder : NasMessageBuilder) where
  mandatory : MandatoryValues builder.mandatoryDecoders
  optional : (entry : builder.Entry) → Option entry.val.ie.Value

end NasMessageBuilder

namespace NasMessageBuilder.Members

variable {builder : NasMessageBuilder} (members : builder.Members)

/-- The elements that are there of some entries, with their IEIs. -/
def present (order : List builder.Entry) : List (Nat × DecodedElement) :=
  order.filterMap fun entry =>
    (members.optional entry).map fun value => (entry.val.iei, ⟨entry.val.ie, value⟩)

def encodeOptional (encoders : IeEncoders) (entry : builder.Entry) : OctetString :=
  (members.optional entry).elim [] (entry.val.encode encoders)

/-- `EncodeViaBuilder` -/
def encode (encoders : IeEncoders) (order : List builder.Entry) : OctetString :=
  members.mandatory.encode encoders _ ++ order.flatMap (members.encodeOptional encoders)

end NasMessageBuilder.Members

/-! ## Messages -/

def MmMessageType.octet : MmMessageType → UInt8
  | registrationRequest => 0x41
  | registrationAccept => 0x42
  | registrationComplete => 0x43
  | registrationReject => 0x44
  | deRegistrationRequestUeOriginating => 0x45
  | deRegistrationAcceptUeOriginating => 0x46
  | deRegistrationRequestUeTerminated => 0x47
  | deRegistrationAcceptUeTerminated => 0x48
  | serviceRequest => 0x4C
  | serviceReject => 0x4D
  | serviceAccept => 0x4E
  | configurationUpdateCommand => 0x54
  | configurationUpdateComplete => 0x55
  | authenticationRequest => 0x56
  | authenticationResponse => 0x57
  | authenticationReject => 0x58
  | authenticationFailure => 0x59
  | authenticationResult => 0x5A
  | identityRequest => 0x5B
  | identityResponse => 0x5C
  | securityModeCommand => 0x5D
  | securityModeComplete => 0x5E
  | securityModeReject => 0x5F
  | fiveGMmStatus => 0x64
  | notification => 0x65
  | notificationResponse => 0x66
  | ulNasTransport => 0x67
  | dlNasTransport => 0x68

def SmMessageType.octet : SmMessageType → UInt8
  | pduSessionEstablishmentRequest => 0xC1
  | pduSessionEstablishmentAccept => 0xC2
  | pduSessionEstablishmentReject => 0xC3
  | pduSessionAuthenticationCommand => 0xC5
  | pduSessionAuthenticationComplete => 0xC6
  | pduSessionAuthenticationResult => 0xC7
  | pduSessionModificationRequest => 0xC9
  | pduSessionModificationReject => 0xCA
  | pduSessionModificationCommand => 0xCB
  | pduSessionModificationComplete => 0xCC
  | pduSessionModificationCommandReject => 0xCD
  | pduSessionReleaseRequest => 0xD1
  | pduSessionReleaseReject => 0xD2
  | pduSessionReleaseCommand => 0xD3
  | pduSessionReleaseComplete => 0xD4
  | fiveGSmStatus => 0xD6

def sessionManagementMessages : UInt8 := 0x2E

/-- A message without security header. Its PDU session and its transaction are octets. -/
inductive PlainNasMessage
  | mm (messageType : MmMessageType) (members : messageType.onBuild.Members)
  | sm (pduSessionId pti : UInt8) (messageType : SmMessageType)
      (members : messageType.onBuild.Members)

namespace PlainNasMessage

def builder : PlainNasMessage → NasMessageBuilder
  | mm messageType _ => messageType.onBuild
  | sm _ _ messageType _ => messageType.onBuild

def members : (msg : PlainNasMessage) → msg.builder.Members
  | mm _ members => members
  | sm _ _ _ members => members

def header : PlainNasMessage → OctetString
  | mm messageType _ => [mobilityManagementMessages, notProtected, messageType.octet]
  | sm pduSessionId pti messageType _ =>
    [sessionManagementMessages, pduSessionId, pti, messageType.octet]

variable (msg : PlainNasMessage)

/-- The octets of a message with its optional elements in a given order. -/
def encodeIn (encoders : IeEncoders) (order : List msg.builder.Entry) : OctetString :=
  msg.header ++ msg.members.encode encoders order

/-- `EncodeNasMessage` -/
def encode (encoders : IeEncoders) : OctetString :=
  msg.encodeIn encoders msg.builder.optionalDecoders.attach

end PlainNasMessage

end Quicup.Ueransim
