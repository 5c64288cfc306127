import Quicup.Ueransim.Utils.Octets

/-!
# GTP-U messages of the gNB

The message types of `gtp/proto.hpp` with the encoder and the decoder of
`gtp/proto.cpp`. Encoding extends an octet string and can refuse a message.
Decoding reads an unchecked view: it returns no message when the source returns
`nullptr`, and faults when the source reads outside the view or raises. The
extension loop also reports which headers it looked at, and where.
-/

namespace Quicup.Ueransim

/-- Downlink PDU session information, PDU type 0. -/
structure DlPduSessionInformation where
  qmp : Bool := false
  qfi : Int := 0
  rqi : Bool := false
  ppi : Option Int := none
  dlSendingTs : Option Int := none
  dlQfiSeq : Option Int := none
  deriving DecidableEq

/-- Uplink PDU session information, PDU type 1. -/
structure UlPduSessionInformation where
  qmp : Bool := false
  qfi : Int := 0
  dlSendingTsRepeated : Option Int := none
  dlReceivedTs : Option Int := none
  ulSendingTs : Option Int := none
  dlDelayResult : Option UInt32 := none
  ulDelayResult : Option UInt32 := none
  ulQfiSeq : Option Int := none
  deriving DecidableEq

/-- The two subclasses of the source carry the two PDU types. -/
inductive PduSessionInformation
  | dl (dl : DlPduSessionInformation)
  | ul (ul : UlPduSessionInformation)
  deriving DecidableEq

/-- Extension headers. The container holds a pointer, absent after a failed decode. -/
inductive GtpExtHeader
  | longPdcpPduNumberExtHeader (pdcpPduNumber : Int)
  | nrRanContainerExtHeader
  | pdcpPduNumberExtHeader (pdcpPduNumber : UInt16)
  | pduSessionContainerExtHeader (pduSessionInformation : Option PduSessionInformation)
  | udpPortExtHeader (port : UInt16)
  deriving DecidableEq

structure GtpMessage where
  msgType : UInt8 := 0
  teid : UInt32 := 0
  seq : Option UInt16 := none
  nPduNum : Option UInt8 := none
  extHeaders : List GtpExtHeader := []
  payload : OctetString := []
  deriving DecidableEq

namespace GtpMessage

def mtEchoRequest : UInt8 := 1

def mtEchoResponse : UInt8 := 2

def mtGPdu : UInt8 := 255

end GtpMessage

/-! ## Encoding -/

/-- Octets missing up to a length of two modulo four, see 5.5.3.5. -/
def paddingLength (written : Nat) : Nat :=
  if (written - 2) % 4 ≠ 0 then 4 - (written - 2) % 4 else 0

def DlPduSessionInformation.encode (dl : DlPduSessionInformation) (stream : OctetString) :
    OctetString :=
  let initialLength := stream.length
  let snp := dl.dlQfiSeq.isSome
  let stream := stream.appendOctet
    (ranged8 [(4, 0), (1, dl.qmp.toInt), (1, snp.toInt), (2, 0)])
  let stream := stream.appendOctet
    (ranged8 [(1, dl.ppi.isSome.toInt), (1, dl.rqi.toInt), (6, dl.qfi)])
  let stream := match dl.ppi with
    | some ppi => stream.appendOctet (ranged8 [(3, ppi), (5, 0)])
    | none => stream
  let stream := if dl.qmp then stream.appendOctet8 (dl.dlSendingTs.getD 0) else stream
  let stream := match dl.dlQfiSeq with
    | some seq => stream.appendOctet3 seq
    | none => stream
  stream.appendPadding (paddingLength (stream.length - initialLength))

def UlPduSessionInformation.encode (ul : UlPduSessionInformation) (stream : OctetString) :
    OctetString :=
  let initialLength := stream.length
  let snp := ul.ulQfiSeq.isSome
  let stream := stream.appendOctet
    (ranged8 [(4, 1), (1, ul.qmp.toInt), (1, ul.dlDelayResult.isSome.toInt),
      (1, ul.ulDelayResult.isSome.toInt), (1, snp.toInt)])
  let stream := stream.appendOctet (ranged8 [(2, 0), (6, ul.qfi)])
  let stream := if ul.qmp then
      ((stream.appendOctet8 (ul.dlSendingTsRepeated.getD 0)).appendOctet8
        (ul.dlReceivedTs.getD 0)).appendOctet8 (ul.ulSendingTs.getD 0)
    else stream
  let stream := match ul.dlDelayResult with
    | some result => stream.appendOctet4 result.toNat
    | none => stream
  let stream := match ul.ulDelayResult with
    | some result => stream.appendOctet4 result.toNat
    | none => stream
  let stream := match ul.ulQfiSeq with
    | some seq => stream.appendOctet3 seq
    | none => stream
  stream.appendPadding (paddingLength (stream.length - initialLength))

def PduSessionInformation.encode : PduSessionInformation → OctetString → OctetString
  | .dl info, stream => info.encode stream
  | .ul info, stream => info.encode stream

/-- The 18-bit number takes three octets although two length units are announced. -/
def encodeExtensionHeader (header : GtpExtHeader) (stream : OctetString) :
    Except Fault (Option OctetString) :=
  match header with
  | .pduSessionContainerExtHeader none => .error .nullDeref
  | .pduSessionContainerExtHeader (some pduSession) =>
    let inner := pduSession.encode []
    .ok (some (((stream.appendOctet 0b10000101).appendOctet
      (UInt8.ofNat ((inner.length + 2) / 4))).append inner))
  | .pdcpPduNumberExtHeader pdcpPduNumber =>
    .ok (some (((stream.appendOctet 0b11000000).appendOctet 1).appendOctet2 pdcpPduNumber.toNat))
  | .udpPortExtHeader port =>
    .ok (some (((stream.appendOctet 0b01000000).appendOctet 1).appendOctet2 port.toNat))
  | .longPdcpPduNumberExtHeader num =>
    .ok (some (((((stream.appendOctet 0b10000010).appendOctet 2).appendOctet
      (UInt8.ofInt (num / 2 ^ 16 % 4))).appendOctet (UInt8.ofInt (num / 2 ^ 8))).appendOctet
        (UInt8.ofInt num)))
  | .nrRanContainerExtHeader => .ok none

/-- Encode the headers one after the other, giving up at the first refusal. -/
def encodeExtensionHeaders : List GtpExtHeader → OctetString → Except Fault (Option OctetString)
  | [], stream => .ok (some stream)
  | header :: headers, stream => do
    match ← encodeExtensionHeader header stream with
    | none => return none
    | some stream => encodeExtensionHeaders headers stream

def encodeGtpMessage (gtp : GtpMessage) (stream : OctetString) :
    Except Fault (Option OctetString) := do
  let initialLength := stream.length
  let pn := gtp.nPduNum.isSome
  let s := gtp.seq.isSome
  let e := !gtp.extHeaders.isEmpty
  let stream := stream.appendOctet
    (ranged8 [(3, 1), (1, 1), (1, 0), (1, e.toInt), (1, s.toInt), (1, pn.toInt)])
  let stream := stream.appendOctet gtp.msgType
  let stream := stream.appendOctet2 0
  let stream := stream.appendOctet4 gtp.teid.toNat
  let optional ←
    if pn || s || e then do
      let stream := stream.appendOctet2 (gtp.seq.getD 0).toNat
      let stream := stream.appendOctet (gtp.nPduNum.getD 0)
      match ← encodeExtensionHeaders gtp.extHeaders stream with
      | none => pure none
      | some stream => pure (some (stream.appendOctet 0))
    else pure (some stream)
  match optional with
  | none => return none
  | some stream =>
    let stream := stream.append gtp.payload
    -- the length field is patched in behind its dummy
    let length := stream.length - initialLength - 8
    return some ((stream.set (initialLength + 2) (UInt8.ofNat (length / 256))).set
      (initialLength + 3) (UInt8.ofNat length))

/-! ## Decoding -/

/-- Consume the padding behind the fields read since `startIndex`, see 5.5.3.5. -/
def readPadding (startIndex : Nat) : Read Unit := do
  let index ← currentIndex
  let read := index - startIndex
  if (read - 2) % 4 ≠ 0 then
    let _ ← readOctetString (4 - (read - 2) % 4 : Nat)
  return ()

/-- Read an optional field when its presence flag is set. -/
def readWhen {α : Type} (present : Bool) (p : Read α) : Read (Option α) :=
  if present then do
    let v ← p
    return some v
  else return none

/-- The downlink layout behind its first octet. -/
def DlPduSessionInformation.decode (startIndex : Nat) (octet : UInt8) :
    Read DlPduSessionInformation := do
  let snp := bitAt 2 octet
  let qmp := bitAt 3 octet
  let octet ← readOctet
  let qfi := bitRange8 0 5 octet
  let rqi := bitAt 6 octet
  let ppp := bitAt 7 octet
  let ppi ← readWhen ppp do
    let octet ← readOctet
    return (bitRange8 5 7 octet : Int)
  let dlSendingTs ← readWhen qmp read8L
  let dlQfiSeq ← readWhen snp do
    let v ← read3I
    return (v : Int)
  readPadding startIndex
  return { qmp, qfi, rqi, ppi, dlSendingTs, dlQfiSeq }

/-- The uplink layout behind its first octet. The identifier is read from the
three high bits of its octet, where the encoder writes the six low ones. -/
def UlPduSessionInformation.decode (startIndex : Nat) (octet : UInt8) :
    Read UlPduSessionInformation := do
  let snp := bitAt 0 octet
  let ulDelay := bitAt 1 octet
  let dlDelay := bitAt 2 octet
  let qmp := bitAt 3 octet
  let octet ← readOctet
  let qfi := bitRange8 5 7 octet
  let dlSendingTsRepeated ← readWhen qmp read8L
  let dlReceivedTs ← readWhen qmp read8L
  let ulSendingTs ← readWhen qmp read8L
  let dlDelayResult ← readWhen dlDelay read4UI
  let ulDelayResult ← readWhen ulDelay read4UI
  let ulQfiSeq ← readWhen snp do
    let v ← read3I
    return (v : Int)
  readPadding startIndex
  return {
    qmp, qfi, dlSendingTsRepeated, dlReceivedTs, ulSendingTs, dlDelayResult, ulDelayResult, ulQfiSeq
  }

def PduSessionInformation.decode : Read (Option PduSessionInformation) := do
  let startIndex ← currentIndex
  let octet ← readOctet
  let type := bitRange8 4 7 octet
  if type = 0 then
    let dl ← DlPduSessionInformation.decode startIndex octet
    return some (.dl dl)
  else if type = 1 then
    let ul ← UlPduSessionInformation.decode startIndex octet
    return some (.ul ul)
  else
    return none

def decodeUdpPortExtHeader (len : Nat) : Read (Option GtpExtHeader) := do
  if len ≠ 1 then
    return none
  let port ← read2US
  return some (.udpPortExtHeader port)

def decodeLongPdcpPduNumberExtHeader (len : Nat) : Read (Option GtpExtHeader) := do
  if len ≠ 2 then
    return none
  let a ← readI
  let b ← readI
  let c ← readI
  return some (.longPdcpPduNumberExtHeader ((((a &&& 0b11) <<< 8 ||| b) <<< 8 ||| c : Nat)))

/-- Not implemented in the source, which skips no content either. -/
def decodeNrRanContainerExtHeader (_len : Nat) : Read (Option GtpExtHeader) := return none

/-- The announced length is not used. -/
def decodePduSessionContainerExtHeader (_len : Nat) : Read (Option GtpExtHeader) := do
  let info ← PduSessionInformation.decode
  return some (.pduSessionContainerExtHeader info)

def decodePdcpPduNumberExtHeader (len : Nat) : Read (Option GtpExtHeader) := do
  if len ≠ 1 then
    return none
  let pdcpPduNumber ← read2US
  return some (.pdcpPduNumberExtHeader pdcpPduNumber)

/-- The type switch of the extension loop: no value when the type is invalid. -/
def decodeExtHeader (type len : Nat) : Read (Option (Option GtpExtHeader)) :=
  match type with
  | 0b01000000 => some <$> decodeUdpPortExtHeader len
  | 0b10000010 => some <$> decodeLongPdcpPduNumberExtHeader len
  | 0b10000100 => some <$> decodeNrRanContainerExtHeader len
  | 0b10000101 => some <$> decodePduSessionContainerExtHeader len
  | 0b11000000 => some <$> decodePdcpPduNumberExtHeader len
  | 0b10000001 => return some none
  | 0b10000011 => return some none
  | _ => return none

/-- What the extension loop leaves: the headers pushed, and as a ghost the
position and type of every header it looked at. -/
structure ExtHeaders where
  extHeaders : List GtpExtHeader := []
  visited : List (Nat × Nat) := []
  deriving DecidableEq

/-- The extension loop. Each turn reads a length and a next type, so as many turns
as there are octets are enough. -/
def decodeExtHeaders : Nat → Nat → Read (Option ExtHeaders)
  | _, 0 => return some {}
  | 0, _ + 1 => Read.fault .hang
  | fuel + 1, type + 1 => do
    let position ← currentIndex
    let len ← readI
    match ← decodeExtHeader (type + 1) len with
    | none => return none
    | some header =>
      let nextExtHeaderType ← readI
      match ← decodeExtHeaders fuel nextExtHeaderType with
      | none => return none
      | some tail =>
        return some ⟨header.toList ++ tail.extHeaders, (position, type + 1) :: tail.visited⟩

/-- The optional word and the extension chain behind the mandatory header. -/
def decodeOptional (message : GtpMessage) (flags : UInt8) :
    Read (Option (GtpMessage × List (Nat × Nat))) := do
  let nextExtensionHeaderPresent := bitAt 2 flags
  let sequenceNumberPresent := bitAt 1 flags
  let nPduNumberPresent := bitAt 0 flags
  if sequenceNumberPresent || nPduNumberPresent || nextExtensionHeaderPresent then
    let seq ← read2I
    let nPduNum ← readOctet
    let nextExtHeaderType ← readI
    let message := { message with
      seq := if sequenceNumberPresent then some (UInt16.ofNat seq) else none
      nPduNum := if nPduNumberPresent then some nPduNum else none }
    if nextExtensionHeaderPresent then
      let fuel ← viewSize
      match ← decodeExtHeaders fuel nextExtHeaderType with
      | none => return none
      | some r => return some ({ message with extHeaders := r.extHeaders }, r.visited)
    else
      return some (message, [])
  else
    return some (message, [])

/-- `DecodeGtpMessage` together with the headers its loop looked at. The remaining
length is unsigned in the source and cast to `int`, which keeps a negative one
negative for every datagram below `2 ^ 31` octets. -/
def decodeGtpMessageVisited : Read (Option (GtpMessage × List (Nat × Nat))) := do
  let firstIndex ← currentIndex
  let flags ← readOctet
  if bitRange8 5 7 flags ≠ 1 then
    return none
  if bitRange8 4 4 flags ≠ 1 then
    return none
  let msgType ← readOctet
  let gtpLen ← read2I
  let teid ← read4UI
  match ← decodeOptional { msgType, teid } flags with
  | none => return none
  | some (message, visited) =>
    let index ← currentIndex
    let read := index - firstIndex
    let rem : Int := gtpLen - ((read : Int) - 8)
    let payload ← readOctetString rem
    return some ({ message with payload }, visited)

def decodeGtpMessage : Read (Option GtpMessage) := do
  let r ← decodeGtpMessageVisited
  return r.map Prod.fst

/-- Decode a whole octet string. -/
def decode (octets : OctetString) : Except Fault (Option GtpMessage) := do
  let (r, _) ← decodeGtpMessage (Cursor.start octets)
  return r

end Quicup.Ueransim
