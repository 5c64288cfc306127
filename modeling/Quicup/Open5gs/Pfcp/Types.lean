import Quicup.Open5gs.Core.Pkbuf
import Quicup.Open5gs.Pfcp.Context

/-!
# The values of information elements

`types.c`: the values that PFCP writes as octets by hand. A value starts with an octet of
flags, and what a flag announces stands behind it.
-/

namespace Quicup.Open5gs.Pfcp

/-- A bit of an octet. -/
def bit (flags mask : UInt8) : Bool := flags &&& mask ≠ 0

/-- The octets of a number, if it is announced. -/
def flagged (n : Nat) (flag : Bool) (value : Nat) : List UInt8 :=
  if flag then octetsBE n value else []

/-- A number of so many octets and what stands behind it, if it is announced. There may
be too few octets. -/
def takeFlagged (n : Nat) (flag : Bool) (octets : List UInt8) : Option (Nat × List UInt8) :=
  if flag then
    if octets.length < n then none else some (natBE (octets.take n), octets.drop n)
  else some (0, octets)

theorem takeFlagged_append {n value : Nat} (flag : Bool) (hvalue : value < 256 ^ n)
    (behind : List UInt8) :
    takeFlagged n flag (flagged n flag value ++ behind) =
      some (if flag then value else 0, behind) := by
  cases flag with
  | false => rfl
  | true =>
    have hlen := length_octetsBE n value
    rw [takeFlagged, if_pos rfl, flagged, if_pos rfl, if_pos rfl]
    rw [if_neg (by rw [List.length_append]; omega), List.take_left' hlen, List.drop_left' hlen,
      natBE_octetsBE, Nat.mod_eq_of_lt hvalue]

theorem takeFlagged_flagged {n value : Nat} (flag : Bool) (hvalue : value < 256 ^ n) :
    takeFlagged n flag (flagged n flag value) = some (if flag then value else 0, []) := by
  have h := takeFlagged_append flag hvalue []
  rwa [List.append_nil] at h

theorem ofNat_ite (flag : Bool) (value : UInt64) :
    UInt64.ofNat (if flag then value.toNat else 0) = if flag then value else 0 := by
  cases flag with
  | false => rfl
  | true => exact UInt64.ofNat_toNat

/-! ## Volumes -/

/-- `ogs_pfcp_volume_threshold_t` and `ogs_pfcp_volume_quota_t` -/
structure Volume where
  flags : UInt8 := 0
  totalVolume : UInt64 := 0
  uplinkVolume : UInt64 := 0
  downlinkVolume : UInt64 := 0
  deriving DecidableEq

namespace Volume

variable (volume : Volume)

/-- The volume with what its flags announce only. -/
def announced : Volume where
  flags := volume.flags
  totalVolume := if bit volume.flags 1 then volume.totalVolume else 0
  uplinkVolume := if bit volume.flags 2 then volume.uplinkVolume else 0
  downlinkVolume := if bit volume.flags 4 then volume.downlinkVolume else 0

/-- `ogs_pfcp_build_volume` -/
def build : Except Fault (List UInt8) :=
  if volume.flags = 0 then .error .assertion
  else
    .ok (volume.flags :: (flagged 8 (bit volume.flags 1) volume.totalVolume.toNat ++
      (flagged 8 (bit volume.flags 2) volume.uplinkVolume.toNat ++
        flagged 8 (bit volume.flags 4) volume.downlinkVolume.toNat)))

/-- `ogs_pfcp_parse_volume`, as the length that is decoded, which is zero where the octets
end too early, and the volume. The flags are read in any case. -/
def parse (octets : List UInt8) : Except Fault (Nat × Volume) :=
  match octets with
  | [] => .error .outOfBounds
  | flags :: behind =>
    match takeFlagged 8 (bit flags 1) behind with
    | none => .ok (0, { flags })
    | some (total, behind) =>
      let volume : Volume := { flags, totalVolume := .ofNat total }
      match takeFlagged 8 (bit flags 2) behind with
      | none => .ok (0, volume)
      | some (uplink, behind) =>
        let volume := { volume with uplinkVolume := .ofNat uplink }
        match takeFlagged 8 (bit flags 4) behind with
        | none => .ok (0, volume)
        | some (downlink, behind) =>
          .ok (octets.length - behind.length, { volume with downlinkVolume := .ofNat downlink })

/-- Parsing recovers what the flags of a volume announce. -/
theorem parse_build {octets : List UInt8} (h : volume.build = .ok octets) :
    parse octets = .ok (octets.length, volume.announced) := by
  unfold build at h
  split at h
  · cases h
  · obtain rfl := Except.ok.inj h
    have htotal := takeFlagged_append (n := 8) (bit volume.flags 1) volume.totalVolume.toNat_lt
    have huplink := takeFlagged_append (n := 8) (bit volume.flags 2) volume.uplinkVolume.toNat_lt
    have hdownlink := takeFlagged_flagged (n := 8) (bit volume.flags 4) volume.downlinkVolume.toNat_lt
    simp only [parse, htotal, huplink, hdownlink, announced, ofNat_ite, List.length_nil, Nat.sub_zero]

end Volume

/-! ## Thresholds of dropped traffic -/

/-- `ogs_pfcp_dropped_dl_traffic_threshold_t` -/
structure DroppedDlTrafficThreshold where
  flags : UInt8 := 0
  downlinkPackets : UInt64 := 0
  numberOfBytesOfDownlinkData : UInt64 := 0
  deriving DecidableEq

namespace DroppedDlTrafficThreshold

variable (threshold : DroppedDlTrafficThreshold)

/-- The threshold with what its flags announce only. -/
def announced : DroppedDlTrafficThreshold where
  flags := threshold.flags
  downlinkPackets := if bit threshold.flags 1 then threshold.downlinkPackets else 0
  numberOfBytesOfDownlinkData :=
    if bit threshold.flags 2 then threshold.numberOfBytesOfDownlinkData else 0

/-- `ogs_pfcp_build_dropped_dl_traffic_threshold` -/
def build : Except Fault (List UInt8) :=
  if threshold.flags = 0 then .error .assertion
  else
    .ok (threshold.flags :: (flagged 8 (bit threshold.flags 1) threshold.downlinkPackets.toNat ++
      flagged 8 (bit threshold.flags 2) threshold.numberOfBytesOfDownlinkData.toNat))

/-- `ogs_pfcp_parse_dropped_dl_traffic_threshold`, which does not look where the octets
end. -/
def parse (octets : List UInt8) : Except Fault (Nat × DroppedDlTrafficThreshold) :=
  match octets with
  | [] => .error .outOfBounds
  | flags :: behind =>
    match takeFlagged 8 (bit flags 1) behind with
    | none => .error .outOfBounds
    | some (packets, behind) =>
      match takeFlagged 8 (bit flags 2) behind with
      | none => .error .outOfBounds
      | some (bytes, behind) =>
        .ok (octets.length - behind.length,
          { flags
            downlinkPackets := .ofNat packets
            numberOfBytesOfDownlinkData := .ofNat bytes })

theorem parse_build {octets : List UInt8} (h : threshold.build = .ok octets) :
    parse octets = .ok (octets.length, threshold.announced) := by
  unfold build at h
  split at h
  · cases h
  · obtain rfl := Except.ok.inj h
    have hpackets := takeFlagged_append (n := 8) (bit threshold.flags 1)
      threshold.downlinkPackets.toNat_lt
    have hbytes := takeFlagged_flagged (n := 8) (bit threshold.flags 2)
      threshold.numberOfBytesOfDownlinkData.toNat_lt
    simp only [parse, hpackets, hbytes, announced, ofNat_ite, List.length_nil, Nat.sub_zero]

end DroppedDlTrafficThreshold

/-! ## Bitrates -/

/-- `ogs_pfcp_bitrate_t`, in bits per second. -/
structure Bitrate where
  uplink : UInt64 := 0
  downlink : UInt64 := 0
  deriving DecidableEq

def bitrateLen : Nat := 10

/-- Kilobits per second, rounded upwards. -/
def kilobits (rate : UInt64) : Nat := rate.toNat / 1000 + if rate.toNat % 1000 ≠ 0 then 1 else 0

/-- `ogs_pfcp_build_bitrate` -/
def Bitrate.build (bitrate : Bitrate) : List UInt8 :=
  octetsBE 5 (kilobits bitrate.uplink) ++ octetsBE 5 (kilobits bitrate.downlink)

/-- `ogs_pfcp_parse_bitrate`, which fails on octets of another length. -/
def Bitrate.parse (octets : List UInt8) : Option Bitrate :=
  if octets.length = bitrateLen then
    some
      { uplink := .ofNat (natBE (octets.take 5) * 1000)
        downlink := .ofNat (natBE (octets.drop 5) * 1000) }
  else none

/-! ## Names -/

def maxDnnLen : Nat := 100

/-- `ogs_fqdn_build`: each label stands behind its length. -/
def fqdnBuild (src : List UInt8) : List UInt8 :=
  (src.splitOn '.'.toUInt8).flatMap fun label => .ofNat label.length :: label

/-- `ogs_fqdn_parse` from octet `i` on, with the octets of `dst` that are written and so
many passes at most. -/
def fqdnParseFrom (src : List UInt8) (length : Nat) :
    Nat → Nat → List UInt8 → Except Fault (Option (List UInt8))
  | 0, _, dst => .ok (some dst)
  | fuel + 1, i, dst =>
    if length < i + 1 then .ok (some dst)
    else
      match src[i]? with
      | none => .error .outOfBounds
      | some len =>
        let i := i + 1
        if length < dst.length + len.toNat + 1 then .ok none
        else if src.length < i + len.toNat then .error .outOfBounds
        else
          let dst := dst ++ (src.drop i).take len.toNat
          let i := i + len.toNat
          fqdnParseFrom src length fuel i (if i + 1 < length then dst ++ ['.'.toUInt8] else dst)

/-- `ogs_fqdn_parse` of so many octets. Each pass moves on by one octet at least. A name
ends where it has a zero octet. There is none where nothing is written. -/
def fqdnParse (src : List UInt8) (length : Nat) : Except Fault (Option (List UInt8)) := do
  let some dst ← fqdnParseFrom src length length 0 [] | return none
  return if dst.length > 0 then some (dst.takeWhile (· ≠ 0)) else none

/-! ## Tunnel endpoints -/

/-- `ogs_pfcp_f_teid_t`, with the TEID as the host reads it. The Choose ID is its octet
that comes first in memory, the low one. -/
structure FTeid where
  flags : UInt8 := 0
  teid : UInt32 := 0
  address : Vector UInt8 20 := Vector.replicate 20 0
  deriving DecidableEq

namespace FTeid

variable (fTeid : FTeid)

def ipv4 : Bool := bit fTeid.flags 1

def ipv6 : Bool := bit fTeid.flags 2

def ch : Bool := bit fTeid.flags 4

def chid : Bool := bit fTeid.flags 8

def chooseId : UInt8 := fTeid.teid.toUInt8

def size : Nat := 25

/-- The octets once the TEID is in network order. -/
def octets : List UInt8 := [fTeid.flags] ++ octetsBE 4 fTeid.teid.toNat ++ fTeid.address.toList

/-- The octets in memory, on a machine that keeps the low octet first. -/
def memory : List UInt8 :=
  [fTeid.flags] ++ (octetsBE 4 fTeid.teid.toNat).reverse ++ fTeid.address.toList

/-- What octets say once the TEID is brought from network order. -/
def ofOctets (octets : List UInt8) : FTeid where
  flags := octets.headD 0
  teid := .ofNat (natBE ((octets.drop 1).take 4))
  address := Vector.ofFn fun i => octets.getD (5 + i) 0

/-- Octets over what memory held before, and the TEID brought from network order. -/
def overwrite (data : List UInt8) : FTeid :=
  ofOctets (data.take size ++ fTeid.memory.drop (min data.length size))

end FTeid

/-! ## Outer headers -/

/-- `ogs_pfcp_outer_header_creation_t` with the flags that are read nowhere. `octet6` are
those for N19, N6 and multicast. -/
structure OuterHeader extends OuterHeaderCreation where
  stag : Bool := false
  ctag : Bool := false
  octet6 : UInt8 := 0
  address := Vector.replicate 20 0
  deriving DecidableEq

namespace OuterHeader

variable (header : OuterHeader)

def size : Nat := 26

/-- The octet of flags. -/
def octet5 : UInt8 :=
  (if header.gtpu4 then 1 else 0) + (if header.gtpu6 then 2 else 0) +
    (if header.udp4 then 4 else 0) + (if header.udp6 then 8 else 0) +
    (if header.ip4 then 16 else 0) + (if header.ip6 then 32 else 0) +
    (if header.ctag then 64 else 0) + (if header.stag then 128 else 0)

def octets : List UInt8 :=
  [header.octet5, header.octet6] ++ octetsBE 4 header.teid.toNat ++ header.address.toList

def memory : List UInt8 :=
  [header.octet5, header.octet6] ++ (octetsBE 4 header.teid.toNat).reverse ++ header.address.toList

def ofOctets (octets : List UInt8) : OuterHeader where
  gtpu4 := bit (octets.headD 0) 1
  gtpu6 := bit (octets.headD 0) 2
  udp4 := bit (octets.headD 0) 4
  udp6 := bit (octets.headD 0) 8
  ip4 := bit (octets.headD 0) 16
  ip6 := bit (octets.headD 0) 32
  ctag := bit (octets.headD 0) 64
  stag := bit (octets.headD 0) 128
  octet6 := octets.getD 1 0
  teid := .ofNat (natBE ((octets.drop 2).take 4))
  address := Vector.ofFn fun i => octets.getD (6 + i) 0

def overwrite (data : List UInt8) : OuterHeader :=
  ofOctets (data.take size ++ header.memory.drop (min data.length size))

end OuterHeader

/-! ## Filters -/

/-- `ogs_pfcp_sdf_filter_t` -/
structure SdfFilter where
  flags : UInt8 := 0
  spare2 : UInt8 := 0
  flowDescription : List UInt8 := []
  tosTrafficClass : UInt16 := 0
  securityParameterIndex : UInt32 := 0
  flowLabel : UInt32 := 0
  sdfFilterId : UInt32 := 0
  deriving DecidableEq

namespace SdfFilter

variable (filter : SdfFilter)

def fd : Bool := bit filter.flags 1

def ttc : Bool := bit filter.flags 2

def spi : Bool := bit filter.flags 4

def fl : Bool := bit filter.flags 8

def bid : Bool := bit filter.flags 16

/-- `ogs_pfcp_build_sdf_filter`. The length of the description and that of the octets are
kept in 16 bits. The flow label gives its upper octets. -/
def build : List UInt8 :=
  let description := filter.flowDescription.take (filter.flowDescription.length % 65536)
  let octets := [filter.flags, filter.spare2] ++
    (if filter.fd then octetsBE 2 description.length ++ description else []) ++
    flagged 2 filter.ttc filter.tosTrafficClass.toNat ++
    flagged 4 filter.spi filter.securityParameterIndex.toNat ++
    flagged 3 filter.fl (filter.flowLabel.toNat / 256) ++
    flagged 4 filter.bid filter.sdfFilterId.toNat
  octets.take (octets.length % 65536)

/-- `ogs_pfcp_parse_sdf_filter`, as the length that is decoded and the filter. The
description may reach beyond the octets, which its length shows. The traffic class is
brought from network order as a number of 32 bits, which leaves nothing of it. -/
def parse (octets : List UInt8) : Nat × SdfFilter :=
  match octets with
  | flags :: spare2 :: behind =>
    let filter : SdfFilter := { flags, spare2 }
    match takeFlagged 2 filter.fd behind with
    | none => (0, filter)
    | some (len, behind) =>
      let size := if filter.fd then 2 + 2 + len else 2
      let filter := { filter with flowDescription := behind.take len }
      match takeFlagged 2 filter.ttc (behind.drop len) with
      | none => (0, filter)
      | some (_, behind) =>
        let size := if filter.ttc then size + 2 else size
        match takeFlagged 4 filter.spi behind with
        | none => (0, filter)
        | some (index, behind) =>
          let size := if filter.spi then size + 4 else size
          let filter := { filter with securityParameterIndex := .ofNat index }
          match takeFlagged 3 filter.fl behind with
          | none => (0, filter)
          | some (label, behind) =>
            let size := if filter.fl then size + 3 else size
            let filter := { filter with flowLabel := .ofNat (label * 256) }
            match takeFlagged 4 filter.bid behind with
            | none => (0, filter)
            | some (id, _) =>
              (if filter.bid then size + 4 else size, { filter with sdfFilterId := .ofNat id })
  | [flags] => (0, { flags })
  | [] => (0, {})

/-- The octets are as long as what is decoded, which is returned in 16 bits with a sign. -/
def isValid (octets : List UInt8) (size : Nat) : Bool :=
  (Int16.ofNat size).toInt = octets.length

end SdfFilter

end Quicup.Open5gs.Pfcp
