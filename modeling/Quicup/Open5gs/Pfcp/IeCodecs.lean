import Quicup.Core.Asserted
import Quicup.Open5gs.Pfcp.Types

/-!
# Further values of information elements

`types.c`: volume measurements, the resources of the user plane, and SDF filters as they are written
into a buffer with a size of 16 bits.
-/

namespace Quicup.Open5gs.Pfcp

open Fallible

/-! ## Volume measurements -/

/-- `ogs_pfcp_volume_measurement_t` -/
structure VolumeMeasurement where
  flags : UInt8 := 0
  totalVolume : UInt64 := 0
  uplinkVolume : UInt64 := 0
  downlinkVolume : UInt64 := 0
  totalNPackets : UInt64 := 0
  uplinkNPackets : UInt64 := 0
  downlinkNPackets : UInt64 := 0
  deriving DecidableEq

namespace VolumeMeasurement

variable (volume : VolumeMeasurement)

/-- The measurement with what its flags announce only. -/
def announced : VolumeMeasurement where
  flags := volume.flags
  totalVolume := if bit volume.flags 1 then volume.totalVolume else 0
  uplinkVolume := if bit volume.flags 2 then volume.uplinkVolume else 0
  downlinkVolume := if bit volume.flags 4 then volume.downlinkVolume else 0
  totalNPackets := if bit volume.flags 8 then volume.totalNPackets else 0
  uplinkNPackets := if bit volume.flags 16 then volume.uplinkNPackets else 0
  downlinkNPackets := if bit volume.flags 32 then volume.downlinkNPackets else 0

/-- `ogs_pfcp_build_volume_measurement` -/
def build : Except Fault (List UInt8) :=
  if volume.flags = 0 then .error .assertion
  else
    .ok (volume.flags :: (flagged 8 (bit volume.flags 1) volume.totalVolume.toNat ++
      (flagged 8 (bit volume.flags 2) volume.uplinkVolume.toNat ++
        (flagged 8 (bit volume.flags 4) volume.downlinkVolume.toNat ++
          (flagged 8 (bit volume.flags 8) volume.totalNPackets.toNat ++
            (flagged 8 (bit volume.flags 16) volume.uplinkNPackets.toNat ++
              flagged 8 (bit volume.flags 32) volume.downlinkNPackets.toNat))))))

/-- What stands behind the flags, and what is left behind it. -/
def parseNumbers (flags : UInt8) (behind : List UInt8) :
    Option (VolumeMeasurement × List UInt8) := do
  let (total, behind) ← takeFlagged 8 (bit flags 1) behind
  let (uplink, behind) ← takeFlagged 8 (bit flags 2) behind
  let (downlink, behind) ← takeFlagged 8 (bit flags 4) behind
  let (totalPackets, behind) ← takeFlagged 8 (bit flags 8) behind
  let (uplinkPackets, behind) ← takeFlagged 8 (bit flags 16) behind
  let (downlinkPackets, behind) ← takeFlagged 8 (bit flags 32) behind
  return (⟨flags, .ofNat total, .ofNat uplink, .ofNat downlink, .ofNat totalPackets,
    .ofNat uplinkPackets, .ofNat downlinkPackets⟩, behind)

/-- `ogs_pfcp_parse_volume_measurement`, which does not look where the octets end. -/
def parse (octets : List UInt8) : Except Fault (Nat × VolumeMeasurement) :=
  match octets with
  | [] => .error .outOfBounds
  | flags :: behind =>
    match parseNumbers flags behind with
    | none => .error .outOfBounds
    | some (volume, behind) => .ok (octets.length - behind.length, volume)

/-- Parsing recovers what the flags of a measurement announce. -/
theorem parse_build {octets : List UInt8} (h : volume.build = .ok octets) :
    parse octets = .ok (octets.length, volume.announced) := by
  unfold build at h
  split at h
  · cases h
  · obtain rfl := Except.ok.inj h
    have hnumber (mask : UInt8) (value : UInt64) (behind : List UInt8) :
        takeFlagged 8 (bit volume.flags mask)
          (flagged 8 (bit volume.flags mask) value.toNat ++ behind) =
            some (if bit volume.flags mask then value.toNat else 0, behind) :=
      takeFlagged_append _ value.toNat_lt behind
    have hlast : takeFlagged 8 (bit volume.flags 32)
        (flagged 8 (bit volume.flags 32) volume.downlinkNPackets.toNat) =
          some (if bit volume.flags 32 then volume.downlinkNPackets.toNat else 0, []) :=
      takeFlagged_flagged _ volume.downlinkNPackets.toNat_lt
    simp only [parse, parseNumbers, hnumber, hlast, Option.bind_eq_bind, Option.bind_some,
      Option.pure_def, announced, ofNat_ite, List.length_nil, Nat.sub_zero]

end VolumeMeasurement

/-! ## Resources of the user plane -/

/-- `ogs_user_plane_ip_resource_info_t`, with the name up to its zero octet. -/
structure UserPlaneIpResourceInfo where
  flags : UInt8 := 0
  teidRange : UInt8 := 0
  addr : Vector UInt8 4 := Vector.replicate 4 0
  addr6 : Vector UInt8 16 := Vector.replicate 16 0
  networkInstance : List UInt8 := []
  sourceInterface : UInt8 := 0
  deriving DecidableEq

/-- A part of so many octets and what stands behind it, if it is announced. There may be too few
octets. -/
def takePart (n : Nat) (flag : Bool) (octets : List UInt8) : Option (Vector UInt8 n × List UInt8) :=
  if flag then
    if h : (octets.take n).length = n then some (⟨(octets.take n).toArray, h⟩, octets.drop n)
    else none
  else some (Vector.replicate n 0, octets)

/-- A part that is written where it is announced. -/
def putFlagged (room : Nat) (written : List UInt8) (flag : Bool) (part : List UInt8) :
    Except Fault (List UInt8) :=
  if flag then putOctets room written part else .ok written

namespace UserPlaneIpResourceInfo

variable (info : UserPlaneIpResourceInfo)

def v4 : Bool := bit info.flags 1

def v6 : Bool := bit info.flags 2

/-- The indication of three bits is not zero. -/
def teidri : Bool := bit info.flags 28

def assoni : Bool := bit info.flags 32

def assosi : Bool := bit info.flags 64

/-- The value with what its flags announce only. -/
def announced : UserPlaneIpResourceInfo where
  flags := info.flags
  teidRange := if info.teidri then info.teidRange else 0
  addr := if info.v4 then info.addr else Vector.replicate 4 0
  addr6 := if info.v6 then info.addr6 else Vector.replicate 16 0
  networkInstance := if info.assoni then info.networkInstance else []
  sourceInterface := if info.assosi then info.sourceInterface else 0

/-- `ogs_pfcp_build_user_plane_ip_resource_info`. That there is room for the name is not asserted. -/
def build (dataLen : Nat) : Except Fault (List UInt8) :=
  if dataLen = 0 then .error .assertion
  else do
    let written ← putOctets dataLen [] [info.flags]
    let written ← putFlagged dataLen written info.teidri [info.teidRange]
    let written ← putFlagged dataLen written info.v4 info.addr.toList
    let written ← putFlagged dataLen written info.v6 info.addr6.toList
    let name := if info.assoni then fqdnBuild info.networkInstance else []
    if dataLen < written.length + name.length then .error .outOfBounds
    else putFlagged dataLen (written ++ name) info.assosi [info.sourceInterface]

/-- The name in front of the source interface, as what it takes and the value. There may be no octets
for it. -/
def parseName (behind : List UInt8) : Except Fault (Option (Nat × UserPlaneIpResourceInfo)) :=
  if info.assoni then
    if behind.length = 0 then return none
    else
      let len := if info.assosi then behind.length - 1 else behind.length
      if len = 0 then return none
      else do
        let name ← fqdnParse behind (min len maxDnnLen)
        return some (len, { info with networkInstance := name.getD [] })
  else return some (0, info)

/-- `ogs_pfcp_parse_user_plane_ip_resource_info`, as the length that is decoded, which is zero where
the octets end too early, and the value. The flags are read in any case. -/
def parse (octets : List UInt8) : Except Fault (Nat × UserPlaneIpResourceInfo) :=
  match octets with
  | [] => .error .outOfBounds
  | flags :: behind =>
    let info : UserPlaneIpResourceInfo := { flags }
    match takePart 1 info.teidri behind with
    | none => .ok (0, info)
    | some (teidRange, behind) =>
      let info := { info with teidRange := teidRange[0]! }
      match takePart 4 info.v4 behind with
      | none => .ok (0, info)
      | some (addr, behind) =>
        let info := { info with addr }
        match takePart 16 info.v6 behind with
        | none => .ok (0, info)
        | some (addr6, behind) => do
          let info := { info with addr6 }
          match ← info.parseName behind with
          | none => return (0, info)
          | some (len, info) =>
            let behind := behind.drop len
            match takePart 1 info.assosi behind with
            | none => return (0, info)
            | some (sourceInterface, behind) =>
              return (octets.length - behind.length,
                { info with sourceInterface := sourceInterface[0]! })

end UserPlaneIpResourceInfo

/-! ## SDF filters in a buffer -/

/-- A number as `int16_t` holds it. -/
def int16 (n : Int) : Int := (n + 32768) % 65536 - 32768

/-- A buffer and how much of it is written. -/
structure IeWriter where
  memory : List UInt8
  size : Int := 0
  deriving DecidableEq

namespace IeWriter

variable (w : IeWriter)

/-- A part behind what is written. -/
def copied (part : List UInt8) : IeWriter where
  memory := w.memory.take w.size.toNat ++ (part ++ w.memory.drop (w.size.toNat + part.length))
  size := int16 (w.size + part.length)

/-- The room is compared without sign, in 64 bits. -/
def put (part : List UInt8) : Except Fault IeWriter :=
  if w.memory.length < (w.size + part.length) % 2 ^ 64 then .error .assertion
  else if w.size < 0 then .error .outOfBounds
  else .ok (w.copied part)

/-- The room is compared with sign. -/
def putSigned (part : List UInt8) : Except Fault IeWriter :=
  if w.memory.length < w.size + part.length then .error .assertion
  else if w.size < 0 then .error .outOfBounds
  else .ok (w.copied part)

/-- A part that is written where it is announced. -/
def putFlagged (flag : Bool) (part : List UInt8) : Except Fault IeWriter :=
  if flag then w.put part else .ok w

def putSignedFlagged (flag : Bool) (part : List UInt8) : Except Fault IeWriter :=
  if flag then w.putSigned part else .ok w

/-- The size as `len` of the IE holds it, in 32 bits. -/
def len : Nat := (w.size % 2 ^ 32).toNat

end IeWriter

namespace SdfFilter

variable (filter : SdfFilter)

/-- The filter with what its flags announce only. -/
def announced : SdfFilter where
  flags := filter.flags
  spare2 := filter.spare2
  flowDescription := if filter.fd then filter.flowDescription else []
  tosTrafficClass := if filter.ttc then filter.tosTrafficClass else 0
  securityParameterIndex := if filter.spi then filter.securityParameterIndex else 0
  flowLabel := if filter.fl then filter.flowLabel else 0
  sdfFilterId := if filter.bid then filter.sdfFilterId else 0

/-- The description behind its length, in front of which nothing but the flags is written. -/
def putDescription (w : IeWriter) : Except Fault IeWriter :=
  if filter.fd then do
    let w ← w.put (octetsBE 2 (filter.flowDescription.length % 65536))
    w.putSigned (filter.flowDescription.take (filter.flowDescription.length % 65536))
  else return w

/-- `ogs_pfcp_build_sdf_filter` into a buffer: its memory, and `len` of the IE. -/
def buildInto (memory : List UInt8) : Except Fault (List UInt8 × Nat) :=
  if memory.length = 0 then .error .assertion
  else do
    let w ← IeWriter.put { memory } [filter.flags]
    let w ← w.put [filter.spare2]
    let w ← filter.putDescription w
    let w ← w.putFlagged filter.ttc (octetsBE 2 filter.tosTrafficClass.toNat)
    let w ← w.putFlagged filter.spi (octetsBE 4 filter.securityParameterIndex.toNat)
    let w ← w.putSignedFlagged filter.fl (octetsBE 3 (filter.flowLabel.toNat / 256))
    let w ← w.putFlagged filter.bid (octetsBE 4 filter.sdfFilterId.toNat)
    return (w.memory, w.len)

end SdfFilter

end Quicup.Open5gs.Pfcp
