import Quicup.Core.Cursor
import Quicup.Core.Fallible

/-!
# QoS rules

`ogs_nas_build_qos_rules` and `ogs_nas_parse_qos_rules` of `types.c`. The loop of the builder asks
the first rule of the list for the operation code, whichever rule it writes.
-/

namespace Quicup.Open5gs

/-! ## Packet filters -/

/-- An entry of `component` with the member of the union that its type selects. Addresses are in
network order. -/
inductive PfComponent
  | matchAll
  | protocolIdentifierNextHeader (proto : UInt8)
  | ipv4RemoteAddress (addr mask : Vector UInt8 4)
  | ipv4LocalAddress (addr mask : Vector UInt8 4)
  | ipv6RemoteAddress (addr mask : Vector UInt8 16)
  | ipv6RemoteAddressPrefixLength (addr : Vector UInt8 16) (prefixlen : UInt8)
  | ipv6LocalAddress (addr mask : Vector UInt8 16)
  | ipv6LocalAddressPrefixLength (addr : Vector UInt8 16) (prefixlen : UInt8)
  | singleLocalPort (low : UInt16)
  | localPortRange (low high : UInt16)
  | singleRemotePort (low : UInt16)
  | remotePortRange (low high : UInt16)
  deriving DecidableEq

namespace PfComponent

def type : PfComponent → UInt8
  | matchAll => 1
  | protocolIdentifierNextHeader _ => 48
  | ipv4RemoteAddress .. => 16
  | ipv4LocalAddress .. => 17
  | ipv6RemoteAddress .. => 32
  | ipv6RemoteAddressPrefixLength .. => 33
  | ipv6LocalAddress .. => 34
  | ipv6LocalAddressPrefixLength .. => 35
  | singleLocalPort _ => 64
  | localPortRange .. => 65
  | singleRemotePort _ => 80
  | remotePortRange .. => 81

/-- A port in network order. -/
def htobe16 (port : UInt16) : List UInt8 := octetsBE 2 port.toNat

/-- What is written behind the type. -/
def fields : PfComponent → List UInt8
  | matchAll => []
  | protocolIdentifierNextHeader proto => [proto]
  | ipv4RemoteAddress addr mask => addr.toList ++ mask.toList
  | ipv4LocalAddress addr mask => addr.toList ++ mask.toList
  | ipv6RemoteAddress addr mask => addr.toList ++ mask.toList
  | ipv6RemoteAddressPrefixLength addr prefixlen => addr.toList ++ [prefixlen]
  | ipv6LocalAddress addr mask => addr.toList ++ mask.toList
  | ipv6LocalAddressPrefixLength addr prefixlen => addr.toList ++ [prefixlen]
  | singleLocalPort low => htobe16 low
  | localPortRange low high => htobe16 low ++ htobe16 high
  | singleRemotePort low => htobe16 low
  | remotePortRange low high => htobe16 low ++ htobe16 high

def octets (c : PfComponent) : List UInt8 := c.type :: c.fields

end PfComponent

def maxNumOfPacketFilterComponent : Nat := 16

/-- `ogs_pf_content_t`, with the components that there are. -/
structure PfContent where
  length : UInt8 := 0
  component : List PfComponent := []
  deriving DecidableEq

/-- A packet filter, whose flags are its direction and identifier. -/
structure QosPacketFilter where
  flags : UInt8
  content : PfContent := {}
  deriving DecidableEq

/-! ## Rules -/

/-- The operation code of a rule, of three bits. -/
abbrev QosCode := Fin 8

namespace QosCode

def createNewQosRule : QosCode := 1
def deleteExistingQosRule : QosCode := 2
def modifyExistingQosRuleAndAddPacketFilters : QosCode := 3
def modifyExistingQosRuleAndReplaceAllPacketFilters : QosCode := 4
def modifyExistingQosRuleAndDeletePacketFilters : QosCode := 5
def modifyExistingQosRuleWithoutModifyingPacketFilters : QosCode := 6

/-- No packet filters come with the operation. -/
def hasNoFilters (code : QosCode) : Bool :=
  code = deleteExistingQosRule ∨ code = modifyExistingQosRuleWithoutModifyingPacketFilters

/-- Packet filters come without content. -/
def hasBareFilters (code : QosCode) : Bool := code = modifyExistingQosRuleAndDeletePacketFilters

/-- Precedence and flow are written. -/
def carriesFlow (code : QosCode) : Bool :=
  code ≠ deleteExistingQosRule ∧ code ≠ modifyExistingQosRuleAndDeletePacketFilters ∧
    code ≠ modifyExistingQosRuleWithoutModifyingPacketFilters

end QosCode

def maxNumOfFlowInNas : Nat := 15

/-- `ogs_nas_qos_rule_t`, with the packet filters that there are. -/
structure QosRule where
  identifier : UInt8
  length : UInt16 := 0
  code : QosCode
  dqrBit : Bool
  pf : List QosPacketFilter
  precedence : UInt8 := 0
  flow : UInt8 := 0
  deriving DecidableEq

/-! ## Build -/

def QosPacketFilter.build (code : QosCode) (pf : QosPacketFilter) : List UInt8 :=
  if code.hasBareFilters then [pf.flags]
  else pf.flags :: pf.content.length :: pf.content.component.flatMap PfComponent.octets

namespace QosRule

variable (r : QosRule)

def flags : UInt8 := .ofNat (r.code.val <<< 5 ||| (r.dqrBit.toNat <<< 4 ||| r.pf.length))

/-- What is written behind the length. -/
def body (code : QosCode) : List UInt8 :=
  r.flags :: r.pf.flatMap (QosPacketFilter.build code) ++
    if code.carriesFlow then [r.precedence, r.flow] else []

def build (code : QosCode) : Except Fault (List UInt8) :=
  if code.hasNoFilters ∧ r.pf ≠ [] then .error .assertion
  else .ok (r.identifier :: octetsBE 2 (r.body code).length ++ r.body code)

end QosRule

def maxQosRulesLen : Nat := 65535

/-- The loop over the rules. That there is room is asserted for every field. -/
def appendQosRules (code : QosCode) : List QosRule → List UInt8 → Except Fault (List UInt8)
  | [], buffer => .ok buffer
  | r :: rest, buffer => do
    let octets ← r.build code
    if buffer.length + octets.length > maxQosRulesLen then .error .assertion
    else appendQosRules code rest (buffer ++ octets)

/-- `ogs_nas_build_qos_rules`. -/
def buildQosRules : List QosRule → Except Fault (List UInt8)
  | [] => .error .assertion
  | r :: rest => appendQosRules r.code (r :: rest) []

/-! ## Bounded reads -/

/-- Why parsing ends: the `goto cleanup`, or a fault. -/
inductive ParseStop
  | cleanup
  | fault (f : Fault)
  deriving DecidableEq

/-- The octets from a position of the buffer on, and how many of them may be read. -/
structure BoundedView where
  octets : List UInt8
  room : Nat
  deriving DecidableEq

abbrev BoundedRead (α : Type) := StateT BoundedView (Except ParseStop) α

def cleanup {α : Type} : BoundedRead α := fun _ => .error .cleanup

/-- `n` octets, where the check comes before the copy. -/
def copyOctets (n : Nat) : BoundedRead (Vector UInt8 n) := fun v =>
  if v.room < n then .error .cleanup
  else if h : (v.octets.take n).length = n then
    .ok (⟨(v.octets.take n).toArray, h⟩, ⟨v.octets.drop n, v.room - n⟩)
  else .error (.fault .outOfBounds)

def copyOctet : BoundedRead UInt8 := do
  let octets ← copyOctets 1
  return octets[0]

/-- A number of 16 bits that is swapped with `be16toh`. -/
def copyBe16 : BoundedRead UInt16 := do
  let octets ← copyOctets 2
  return .ofNat (natBE octets.toList)

/-! ## Parse -/

/-- The `switch` on the type of a component. -/
def parseFields (type : UInt8) : BoundedRead PfComponent :=
  match type.toNat with
  | 1 => return .matchAll
  | 48 => do
    let proto ← copyOctet
    return .protocolIdentifierNextHeader proto
  | 16 => do
    let addr ← copyOctets 4
    let mask ← copyOctets 4
    return .ipv4RemoteAddress addr mask
  | 17 => do
    let addr ← copyOctets 4
    let mask ← copyOctets 4
    return .ipv4LocalAddress addr mask
  | 35 => do
    let addr ← copyOctets 16
    let prefixlen ← copyOctet
    return .ipv6LocalAddressPrefixLength addr prefixlen
  | 33 => do
    let addr ← copyOctets 16
    let prefixlen ← copyOctet
    return .ipv6RemoteAddressPrefixLength addr prefixlen
  | 34 => do
    let addr ← copyOctets 16
    let mask ← copyOctets 16
    return .ipv6LocalAddress addr mask
  | 32 => do
    let addr ← copyOctets 16
    let mask ← copyOctets 16
    return .ipv6RemoteAddress addr mask
  | 64 => do
    let low ← copyBe16
    return .singleLocalPort low
  | 80 => do
    let low ← copyBe16
    return .singleRemotePort low
  | 65 => do
    let low ← copyBe16
    let high ← copyBe16
    return .localPortRange low high
  | 81 => do
    let low ← copyBe16
    let high ← copyBe16
    return .remotePortRange low high
  | _ => cleanup

/-- `while (len < content.length)`, with the entries of the array that are left. -/
def parseComponents (contentLength : Nat) : (slots len : Nat) → BoundedRead (List PfComponent)
  | 0, len =>
    if len < contentLength then do
      let _ ← copyOctet
      fun _ => .error (.fault .outOfBounds)
    else return []
  | slots + 1, len =>
    if len < contentLength then do
      let type ← copyOctet
      let component ← parseFields type
      let rest ← parseComponents contentLength slots (len + component.octets.length)
      return component :: rest
    else return []

/-- `parse_qos_rules_packet_filter_list`. -/
def parsePacketFilters (code : QosCode) : Nat → BoundedRead (List QosPacketFilter)
  | 0 => return []
  | n + 1 => do
    let flags ← copyOctet
    if code.hasBareFilters then do
      let rest ← parsePacketFilters code n
      return ⟨flags, {}⟩ :: rest
    else do
      let length ← copyOctet
      let component ← parseComponents length.toNat maxNumOfPacketFilterComponent 0
      let rest ← parsePacketFilters code n
      return ⟨flags, ⟨length, component⟩⟩ :: rest

/-- The octets `m + 1` and `m + 2` behind `rc` octets of packet filters. -/
def parseTrailing (code : QosCode) (length rc : Nat) : BoundedRead (UInt8 × UInt8) :=
  if length = 1 + rc then
    if code = QosCode.createNewQosRule then cleanup else return (0, 0)
  else if length = 1 + rc + 1 then do
    let precedence ← copyOctet
    if code = QosCode.deleteExistingQosRule ∨ code = QosCode.createNewQosRule then cleanup
    else return (precedence, 0)
  else if length = 1 + rc + 1 + 1 then do
    let precedence ← copyOctet
    if code = QosCode.deleteExistingQosRule then cleanup
    else do
      let flow ← copyOctet
      return (precedence, flow)
  else cleanup

/-- A part of the buffer with all that is left of it. -/
def BoundedView.whole (octets : List UInt8) : BoundedView := ⟨octets, octets.length⟩

/-- What comes behind the flags. The packet filters are bounded by the length of the rule, the
other fields by that of the buffer. -/
def parseBody (identifier : UInt8) (length : UInt16) (flags : UInt8) (octets : List UInt8) :
    Except ParseStop (QosRule × List UInt8) :=
  let code : QosCode := ⟨flags.toNat >>> 5, by
    have := flags.toNat_lt
    rw [Nat.shiftRight_eq_div_pow]
    omega⟩
  let numOfPacketFilter := flags.toNat &&& 0xf
  if code = 0 ∨ code = 7 then .error .cleanup
  else if code.hasNoFilters ∧ numOfPacketFilter ≠ 0 then .error .cleanup
  else do
    let (pf, v) ← parsePacketFilters code numOfPacketFilter ⟨octets, length.toNat - 1⟩
    let ((precedence, flow), v) ←
      parseTrailing code length.toNat (length.toNat - 1 - v.room) (.whole v.octets)
    return (⟨identifier, length, code, flags.toNat >>> 4 &&& 1 ≠ 0, pf, precedence, flow⟩, v.octets)

theorem shiftRight_five_lt (flags : UInt8) : flags.toNat >>> 5 < 8 := by
  have := flags.toNat_lt
  rw [Nat.shiftRight_eq_div_pow]
  omega

def QosCode.ofFlags (flags : UInt8) : QosCode := ⟨flags.toNat >>> 5, shiftRight_five_lt flags⟩

/-- The codes and numbers of packet filters that do not end the parser at once. -/
def FlagsTaken (flags : UInt8) : Prop :=
  ¬(QosCode.ofFlags flags = 0 ∨ QosCode.ofFlags flags = 7) ∧
    ¬((QosCode.ofFlags flags).hasNoFilters ∧ flags.toNat &&& 0xf ≠ 0)

def parseQosRule (octets : List UInt8) : Except ParseStop (QosRule × List UInt8) := do
  let (identifier, v) ← copyOctet (.whole octets)
  let (length, v) ← copyBe16 v
  if length = 0 then .error .cleanup
  else do
    let (flags, v) ← copyOctet v
    parseBody identifier length flags v.octets

/-- `while (size < length)`, given more turns than there are octets. -/
def parseLoop : Nat → List UInt8 → Except Fault (List QosRule)
  | 0, _ => .error .hang
  | turns + 1, octets =>
    if octets = [] then .ok []
    else match parseQosRule octets with
      | .error .cleanup => .ok []
      | .error (.fault f) => .error f
      | .ok (r, rest) => do
        let rules ← parseLoop turns rest
        return r :: rules

/-- `ogs_nas_parse_qos_rules`: the rules in front of the first one that is not parsed. -/
def parseQosRules (octets : List UInt8) : Except Fault (List QosRule) :=
  parseLoop (octets.length + 1) octets

end Quicup.Open5gs
