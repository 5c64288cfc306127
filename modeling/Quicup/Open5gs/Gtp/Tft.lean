import Quicup.Core.Asserted
import Quicup.Open5gs.Nas.QosRules

/-!
# Traffic flow templates

`ogs_gtp2_parse_tft` and `ogs_gtp2_build_tft` of `lib/gtp/v2/types.c`. The parser asserts that each
field lies in the IE. It stores components as long as the content goes on, and the last one may go
past its end.
-/

namespace Quicup.Open5gs

open Fallible AssertedRead

/-- A packet filter, whose flags are its direction and identifier. -/
structure TftPacketFilter where
  flags : UInt8
  precedence : UInt8 := 0
  content : PfContent := {}
  deriving DecidableEq

/-- `ogs_gtp2_tft_t`. The entries behind those that there are are zero. -/
structure Tft where
  flags : UInt8
  pf : List TftPacketFilter := []
  deriving DecidableEq

namespace Tft

/-- The three high bits of the flags. -/
def code (flags : UInt8) : Nat := flags.toNat / 32

def numOfPacketFilter (flags : UInt8) : Nat := flags.toNat % 16

def codeIgnoreThisIe : Nat := 0
def codeDeleteExistingTft : Nat := 2
def codeDeletePacketFiltersFromExisting : Nat := 5
def codeNoTftOperation : Nat := 6

/-- Parsing and building are done behind the flags. -/
def hasNoFilters (flags : UInt8) : Bool :=
  code flags = codeNoTftOperation ∨ code flags = codeDeleteExistingTft

/-- Packet filters come without precedence and content. -/
def hasBareFilters (flags : UInt8) : Bool := code flags = codeDeletePacketFiltersFromExisting

end Tft

/-! ## Parsing -/

/-- The `switch` on the type of a component. There is none of an unknown type. -/
def tftFields (type : UInt8) : AssertedRead (Option PfComponent) :=
  match type.toNat with
  | 48 => do
    let proto ← takeOctet
    return some (.protocolIdentifierNextHeader proto)
  | 16 => do
    let addr ← takeOctets 4
    let mask ← takeOctets 4
    return some (.ipv4RemoteAddress addr mask)
  | 17 => do
    let addr ← takeOctets 4
    let mask ← takeOctets 4
    return some (.ipv4LocalAddress addr mask)
  | 35 => do
    let addr ← takeOctets 16
    let prefixlen ← takeOctet
    return some (.ipv6LocalAddressPrefixLength addr prefixlen)
  | 33 => do
    let addr ← takeOctets 16
    let prefixlen ← takeOctet
    return some (.ipv6RemoteAddressPrefixLength addr prefixlen)
  | 34 => do
    let addr ← takeOctets 16
    let mask ← takeOctets 16
    return some (.ipv6LocalAddress addr mask)
  | 32 => do
    let addr ← takeOctets 16
    let mask ← takeOctets 16
    return some (.ipv6RemoteAddress addr mask)
  | 64 => do
    let low ← takeBe16
    return some (.singleLocalPort low)
  | 80 => do
    let low ← takeBe16
    return some (.singleRemotePort low)
  | 65 => do
    let low ← takeBe16
    let high ← takeBe16
    return some (.localPortRange low high)
  | 81 => do
    let low ← takeBe16
    let high ← takeBe16
    return some (.remotePortRange low high)
  | _ => return none

/-- `while (len < content.length)`, with the entries of the array that are left. -/
def tftComponents (contentLength : Nat) :
    (slots len : Nat) → AssertedRead (Option (List PfComponent))
  | 0, len =>
    if len < contentLength then do
      let _ ← takeOctet
      fun _ => .error .outOfBounds
    else return some []
  | slots + 1, len =>
    if len < contentLength then do
      let type ← takeOctet
      match ← tftFields type with
      | none => return none
      | some component =>
        let rest ← tftComponents contentLength slots (len + component.octets.length)
        return rest.map (component :: ·)
    else return some []

/-- The loop over the packet filters: those that are read, and whether it comes to its end. -/
def tftPacketFilters (bare : Bool) : Nat → AssertedRead (List TftPacketFilter × Bool)
  | 0 => return ([], true)
  | n + 1 => do
    let flags ← takeOctet
    if bare then
      let (rest, done) ← tftPacketFilters bare n
      return ({ flags } :: rest, done)
    else
      let precedence ← takeOctet
      let length ← takeOctet
      match ← tftComponents length.toNat maxNumOfPacketFilterComponent 0 with
      | none => return ([], false)
      | some component =>
        let (rest, done) ← tftPacketFilters bare n
        return (⟨flags, precedence, ⟨length, component⟩⟩ :: rest, done)

/-- `ogs_gtp2_parse_tft`: the template as far as it is read, and the size unless it is -1. -/
def parseTft (octets : List UInt8) : Except Fault (Tft × Option Nat) := do
  let (flags, rest) ← takeOctet octets
  if Tft.code flags = Tft.codeIgnoreThisIe then return (⟨flags, []⟩, some 1)
  else if Tft.hasNoFilters flags then return (⟨flags, []⟩, some 1)
  else
    let ((pf, done), rest) ←
      tftPacketFilters (Tft.hasBareFilters flags) (Tft.numOfPacketFilter flags) rest
    return (⟨flags, pf⟩, if done then some (octets.length - rest.length) else none)

/-! ## Building -/

/-- `ogs_tlv_octet_t`, whose data is a buffer that the length is about the front of. -/
structure TlvOctet where
  data : List UInt8
  len : Nat
  deriving DecidableEq

/-- The octets that a TLV has. -/
def TlvOctet.octets (octet : TlvOctet) : List UInt8 := octet.data.take octet.len

/-- One component behind what was written. A type that is unknown ends the building. -/
def PfComponent.putTft (room : Nat) (written : List UInt8) (c : PfComponent) :
    Except Fault (List UInt8 × Bool) := do
  let written ← putOctets room written [c.type]
  if c = .matchAll then return (written, false)
  else
    let written ← putOctets room written c.fields
    return (written, true)

/-- Parts that are written until one ends the building. -/
def putAll {α : Type} (put : List UInt8 → α → Except Fault (List UInt8 × Bool)) :
    List UInt8 → List α → Except Fault (List UInt8 × Bool)
  | written, [] => .ok (written, true)
  | written, part :: rest => do
    let (written, more) ← put written part
    if more then putAll put written rest else return (written, false)

def TftPacketFilter.putTft (bare : Bool) (room : Nat) (written : List UInt8)
    (pf : TftPacketFilter) : Except Fault (List UInt8 × Bool) := do
  let written ← putOctets room written [pf.flags]
  if bare then return (written, true)
  else
    let written ← putOctets room written [pf.precedence]
    let written ← putOctets room written [pf.content.length]
    putAll (PfComponent.putTft room) written pf.content.component

/-- The buffer with what was written at its front. -/
def overBuffer (buffer written : List UInt8) : List UInt8 := written ++ buffer.drop written.length

/-- `ogs_gtp2_build_tft` into a buffer: the size unless it is -1, and the IE. Its length is set at
the end of the function. -/
def Tft.build (tft : Tft) (octet : TlvOctet) (buffer : List UInt8) :
    Except Fault (Option Nat × TlvOctet) :=
  -- `OGS_GTP2_MAX_TRAFFIC_FLOW_TEMPLATE`
  if buffer.length < 255 then .error .assertion
  else if Tft.code tft.flags = Tft.codeIgnoreThisIe then .error .assertion
  else do
    let written ← putOctets buffer.length [] [tft.flags]
    if Tft.hasNoFilters tft.flags then
      return (some written.length, { octet with data := overBuffer buffer written })
    else
      let (written, done) ←
        putAll (TftPacketFilter.putTft (Tft.hasBareFilters tft.flags) buffer.length) written
          (tft.pf.takeD (Tft.numOfPacketFilter tft.flags) ⟨0, 0, {}⟩)
      if done then return (some written.length, ⟨overBuffer buffer written, written.length⟩)
      else return (none, { octet with data := overBuffer buffer written })

end Quicup.Open5gs
