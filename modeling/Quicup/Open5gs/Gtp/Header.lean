import Quicup.Open5gs.Pfcp.Handler

/-!
# GTP-U headers of the UPF

`ogs_gtpu_parse_header` of `lib/gtp/util.c`, `ogs_gtp2_encapsulate_header` and
`ogs_gtp2_fill_header` of `lib/gtp/v2/build.c`, and the TEID that
`ogs_gtp_send_with_teid` writes into a packet that goes out. The parser knows
extension headers of four octets only, and the builder writes no others.
-/

namespace Quicup.Open5gs

/-- The descriptor with its flags, which only the codec reads. -/
structure FlaggedHeaderDesc extends Gtp2HeaderDesc where
  flags : UInt8 := 0
  deriving DecidableEq

def gtpuFlagsE : UInt8 := 0x04

def gtpuFlagsS : UInt8 := 0x02

def gtpuFlagsPn : UInt8 := 0x01

def extensionTypeUdpPort : UInt8 := 0x40

def extensionTypePduSessionContainer : UInt8 := 0x85

def extensionTypePdcpNumber : UInt8 := 0xc0

def ogsGtp2ExtensionHeaderPduTypeUlPduSessionInformation : UInt8 := 1

/-! ## Parsing -/

/-- What the switch of the parser takes from the two content octets of a header. Only
an uplink container gives its QFI. -/
def FlaggedHeaderDesc.extract (headerDesc : FlaggedHeaderDesc) (type first second : UInt8) :
    FlaggedHeaderDesc :=
  if type = extensionTypePduSessionContainer then
    if first >>> 4 = ogsGtp2ExtensionHeaderPduTypeUlPduSessionInformation then
      { headerDesc with pduType := first >>> 4, qosFlowIdentifier := second &&& 0x3f }
    else { headerDesc with pduType := first >>> 4 }
  else if type = extensionTypeUdpPort then
    { headerDesc with udpPort := some (UInt16.ofNat (natBE [first, second])) }
  else if type = extensionTypePdcpNumber then
    { headerDesc with pdcpNumber := some (UInt16.ofNat (natBE [first, second])) }
  else headerDesc

/-- The loop over the extension headers with the entries of `ext_hdesc` that are left.
`len` is the offset behind the type octet of the next header. -/
def gtpuParseExtensionHeaders (pkbuf : Pkbuf) :
    Nat → FlaggedHeaderDesc → Nat → Except Fault (Option Nat × FlaggedHeaderDesc)
  | 0, headerDesc, len => do
    let _ ← pkbuf.octet (len - 1)
    return (none, headerDesc)
  | left + 1, headerDesc, len => do
    let type ← pkbuf.octet (len - 1)
    if type = 0 then return (some len, headerDesc)
    else do
      let units ← pkbuf.octet len
      if units = 0 then return (none, headerDesc)
      -- `OGS_GTP2_MAX_EXTENSION_HEADER_LEN`
      else if units.toNat * 4 > 4 then return (none, headerDesc)
      else if pkbuf.len < len + units.toNat * 4 then return (none, headerDesc)
      else do
        let first ← pkbuf.octet (len + 1)
        let second ← pkbuf.octet (len + 2)
        gtpuParseExtensionHeaders pkbuf left (headerDesc.extract type first second)
          (len + units.toNat * 4)

/-- `ogs_gtpu_parse_header`, whose callers all pass a descriptor: no length where the
source returns -1. The fields in front are read before the length is checked. -/
def gtpuParseHeader (pkbuf : Pkbuf) : Except Fault (Option Nat × FlaggedHeaderDesc) := do
  let flags ← pkbuf.octet 0
  let type ← pkbuf.octet 1
  let teid ← pkbuf.word 4
  let headerDesc : FlaggedHeaderDesc := { flags, type, teid }
  if pkbuf.len < 8 then return (none, headerDesc)
  else if flags &&& gtpuFlagsE ≠ 0 then
    if pkbuf.len < 12 then return (none, headerDesc)
    else do
      let (len, headerDesc) ← gtpuParseExtensionHeaders pkbuf 8 headerDesc 12
      return (len.filter (· ≤ pkbuf.len), headerDesc)
  else
    let len := if flags &&& (gtpuFlagsS ||| gtpuFlagsPn) ≠ 0 then 12 else 8
    return ((some len).filter (· ≤ pkbuf.len), headerDesc)

section Parse

variable {pkbuf : Pkbuf} {headerDesc : FlaggedHeaderDesc} {left len : Nat} {type : UInt8}

/-- The chain ends at a type of zero. -/
theorem gtpuParseExtensionHeaders_end (htype : pkbuf.octet (len - 1) = .ok 0) :
    gtpuParseExtensionHeaders pkbuf (left + 1) headerDesc len = .ok (some len, headerDesc) := by
  rw [gtpuParseExtensionHeaders, htype, Fallible.ok_bind, if_pos rfl]
  rfl

/-- A header of more than four octets is refused. -/
theorem gtpuParseExtensionHeaders_long {units : UInt8} (htype : pkbuf.octet (len - 1) = .ok type)
    (hunits : pkbuf.octet len = .ok units) (hne : type ≠ 0) (hlong : units.toNat * 4 > 4) :
    gtpuParseExtensionHeaders pkbuf (left + 1) headerDesc len = .ok (none, headerDesc) := by
  have hzero : units ≠ 0 := by
    rintro rfl
    exact absurd hlong (by decide)
  rw [gtpuParseExtensionHeaders, htype, Fallible.ok_bind, if_neg hne, hunits, Fallible.ok_bind,
    if_neg hzero, if_pos hlong]
  rfl

/-- A header of four octets is taken in. -/
theorem gtpuParseExtensionHeaders_step {first second : UInt8}
    (htype : pkbuf.octet (len - 1) = .ok type) (hunits : pkbuf.octet len = .ok 1)
    (hfirst : pkbuf.octet (len + 1) = .ok first) (hsecond : pkbuf.octet (len + 2) = .ok second)
    (hne : type ≠ 0) (hlen : len + 4 ≤ pkbuf.len) :
    gtpuParseExtensionHeaders pkbuf (left + 1) headerDesc len =
      gtpuParseExtensionHeaders pkbuf left (headerDesc.extract type first second) (len + 4) := by
  rw [gtpuParseExtensionHeaders, htype, Fallible.ok_bind, if_neg hne, hunits, Fallible.ok_bind,
    if_neg (by decide), if_neg (by decide), show UInt8.toNat 1 * 4 = 4 from rfl,
    if_neg (Nat.not_lt.mpr hlen), hfirst, Fallible.ok_bind, hsecond, Fallible.ok_bind]

/-- A packet with the extension flag and an optional word is read by the loop. -/
theorem gtpuParseHeader_extension {flags : UInt8} {teid : UInt32}
    (hflags : pkbuf.octet 0 = .ok flags) (htype : pkbuf.octet 1 = .ok type)
    (hteid : pkbuf.word 4 = .ok teid) (hext : flags &&& gtpuFlagsE ≠ 0) (hlen : 12 ≤ pkbuf.len) :
    gtpuParseHeader pkbuf = do
      let (len, headerDesc) ← gtpuParseExtensionHeaders pkbuf 8 { flags, type, teid } 12
      return (len.filter (· ≤ pkbuf.len), headerDesc) := by
  rw [gtpuParseHeader, hflags, Fallible.ok_bind, htype, Fallible.ok_bind, hteid, Fallible.ok_bind]
  dsimp only
  rw [if_neg (by omega), if_pos hext, if_neg (by omega)]

end Parse

/-! ## Building -/

/-- An entry of `ogs_gtp2_extension_header_t` that is filled in. Its `len` is one
wherever the source fills it in. -/
structure Gtp2ExtensionHeader where
  type : UInt8
  first : UInt8
  second : UInt8
  deriving DecidableEq

/-- The type of the first entry, or that of no more headers. -/
def nextExtensionType : List Gtp2ExtensionHeader → UInt8
  | [] => 0
  | header :: _ => header.type

/-- The octets behind the first type octet: each entry ends in the type of the next. -/
def fillExtensionHeaders : List Gtp2ExtensionHeader → List UInt8
  | [] => []
  | header :: array =>
    1 :: header.first :: header.second :: nextExtensionType array :: fillExtensionHeaders array

/-- The flags of the header that is filled in. -/
def fillFlags (flags : UInt8) (array : List Gtp2ExtensionHeader) : UInt8 :=
  if array = [] then flags ||| 0x20 ||| 0x10 else flags ||| 0x20 ||| 0x10 ||| gtpuFlagsE

/-- What the flags put between the mandatory header and the packet. -/
def fillOptional (flags : UInt8) (array : List Gtp2ExtensionHeader) : List UInt8 :=
  if flags &&& gtpuFlagsE ≠ 0 then
    [0, 0, 0, nextExtensionType array] ++ fillExtensionHeaders array
  else if flags &&& (gtpuFlagsS ||| gtpuFlagsPn) ≠ 0 then [0, 0, 0, 0]
  else []

/-- `ogs_gtp2_fill_header` for the filled entries of the array, with the octets in front
of the packet that `ogs_pkbuf_push` may use. The TEID stays zero. -/
def gtp2FillHeader (type flags : UInt8) (array : List Gtp2ExtensionHeader) (headroom : Nat)
    (pkbuf : Pkbuf) : Except Fault Pkbuf :=
  let flags := fillFlags flags array
  let optional := fillOptional flags array
  if headroom < 8 + optional.length then .error .assertion
  else
    .ok { pkbuf with
      data := flags :: type :: (octetsBE 2 (UInt16.ofNat (optional.length + pkbuf.len)).toNat ++
        ([0, 0, 0, 0] ++ (optional ++ pkbuf.data))) }

/-- The entry of the PDU session container, absent for a QFI of zero. -/
def Gtp2HeaderDesc.container (headerDesc : Gtp2HeaderDesc) : List Gtp2ExtensionHeader :=
  if headerDesc.qosFlowIdentifier ≠ 0 then
    [⟨extensionTypePduSessionContainer, headerDesc.pduType <<< 4,
      headerDesc.qosFlowIdentifier &&& 0x3f⟩]
  else []

/-- The entry of a number of two octets in network order. -/
def numberExtension (type : UInt8) (number : Option UInt16) : List Gtp2ExtensionHeader :=
  match number with
  | some n => [⟨type, UInt8.ofNat (n.toNat / 256), UInt8.ofNat n.toNat⟩]
  | none => []

/-- `ogs_gtp2_encapsulate_header`. -/
def gtp2EncapsulateHeader (headerDesc : FlaggedHeaderDesc) (headroom : Nat) (pkbuf : Pkbuf) :
    Except Fault Pkbuf :=
  gtp2FillHeader headerDesc.type headerDesc.flags
    (headerDesc.container ++ (numberExtension extensionTypeUdpPort headerDesc.udpPort ++
      numberExtension extensionTypePdcpNumber headerDesc.pdcpNumber)) headroom pkbuf

/-- The packet that `ogs_gtp_send_with_teid` sends. -/
def gtpSendWithTeid (pkbuf : Pkbuf) (teid : UInt32) : Except Fault Pkbuf :=
  if pkbuf.size < 8 then .error .outOfBounds
  else
    let memory := pkbuf.data ++ pkbuf.room
    let memory := memory.take 4 ++ (octetsBE 4 teid.toNat ++ memory.drop 8)
    .ok ⟨memory.take pkbuf.len, memory.drop pkbuf.len⟩

/-- A TEID is written over the four octets behind the length field. -/
theorem gtpSendWithTeid_eq (a b c d : UInt8) (old rest room : List UInt8) (teid : UInt32)
    (hold : old.length = 4) :
    gtpSendWithTeid ⟨a :: b :: c :: d :: (old ++ rest), room⟩ teid =
      .ok ⟨a :: b :: c :: d :: (octetsBE 4 teid.toNat ++ rest), room⟩ := by
  have hsize : ¬(Pkbuf.mk (a :: b :: c :: d :: (old ++ rest)) room).size < 8 := by
    simp only [Pkbuf.size, List.length_append, List.length_cons]
    omega
  have hlen : (Pkbuf.mk (a :: b :: c :: d :: (old ++ rest)) room).len =
      (a :: b :: c :: d :: (octetsBE 4 teid.toNat ++ rest)).length := by
    simp only [Pkbuf.len, List.length_append, List.length_cons, length_octetsBE, hold]
  have hdrop : (old ++ (rest ++ room)).drop 4 = rest ++ room := List.drop_left' hold
  have hmemory : ∀ packet : List UInt8, packet = a :: b :: c :: d :: (octetsBE 4 teid.toNat ++ rest) →
      (a :: b :: c :: d :: (old ++ rest) ++ room).take 4 ++ (octetsBE 4 teid.toNat ++
        (a :: b :: c :: d :: (old ++ rest) ++ room).drop 8) = packet ++ room := by
    rintro _ rfl
    simp only [List.cons_append, List.append_assoc, List.take_succ_cons, List.take_zero,
      List.drop_succ_cons, hdrop, List.nil_append]
  rw [gtpSendWithTeid, if_neg hsize, hlen]
  simp only [hmemory _ rfl, List.take_left, List.drop_left]

end Quicup.Open5gs
