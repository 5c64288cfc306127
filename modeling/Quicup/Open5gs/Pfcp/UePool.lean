import Quicup.Core.ByteOrder
import Quicup.Core.Fallible
import Quicup.Open5gs.Pfcp.UeIp

/-!
# Generation of the address pools

`ogs_pfcp_ue_pool_generate` fills the pool of each subnet from the ranges of its
configuration. Addresses are words as they lie in memory, so that a number is added to
one with its octets swapped.
-/

namespace Quicup.Open5gs.Pfcp

/-- The words of an address that are copied and compared. -/
def IpVersion.same (version : IpVersion) (a b : Vector UInt32 4) : Bool :=
  match version with
  | .v4 => a[0]! = b[0]!
  | .v6 => a[0]! = b[0]! ∧ a[1]! = b[1]!

/-- `htobe32(inc)` on the last of these words, with the other words of the entry clear. -/
def IpVersion.address (version : IpVersion) (start : Vector UInt32 4) (inc : Nat) :
    Vector UInt32 4 :=
  match version with
  | .v4 => #v[start[0]! + swap32 (.ofNat inc), 0, 0, 0]
  | .v6 => #v[start[0]!, start[1]! + swap32 (.ofNat inc), 0, 0]

/-- The lower half of a full IPv6 address. -/
def IpVersion.complete (version : IpVersion) (addr : Vector UInt32 4) (inc : Nat) :
    Vector UInt32 4 :=
  match version with
  | .v4 => addr
  | .v6 => #v[addr[0]!, addr[1]!, addr[2]!, addr[3]! + swap32 (.ofNat inc)]

/-- What the generation reads of `ogs_pfcp_subnet_t`, with the ends of the ranges as
`ogs_ipsubnet` reads them. -/
structure UePoolSubnet where
  family : Nat
  sub : Vector UInt32 4
  mask : Vector UInt32 4
  gw : Vector UInt32 4
  range : List (Option (Vector UInt32 4) × Option (Vector UInt32 4)) := []
  deriving DecidableEq

namespace UePoolSubnet

variable (subnet : UePoolSubnet) (version : IpVersion)

def broadcast : Vector UInt32 4 := .zipWith (fun sub mask => sub + ~~~mask) subnet.sub subnet.mask

def start (low : Option (Vector UInt32 4)) : Vector UInt32 4 := low.getD subnet.sub

/-- The address behind the last one. -/
def stop (high : Option (Vector UInt32 4)) : Vector UInt32 4 :=
  match high with
  | some high => version.address high 1
  | none => subnet.broadcast

/-- The network address and that of the TUN device. -/
def excluded (addr : Vector UInt32 4) : Bool :=
  version.same addr subnet.sub || version.same addr subnet.gw

/-- The loop over the addresses of a range, with the entries of the pool that are left. -/
def fill (start stop : Vector UInt32 4) : Nat → Nat → Nat → Except Fault (List (Vector UInt32 4))
  | _, _, 0 => .ok []
  | 0, _, _ + 1 => .error .hang
  | turns + 1, inc, room + 1 =>
    let addr := version.address start inc
    if version.same addr stop then .ok []
    else if subnet.excluded version addr then fill start stop turns (inc + 1) (room + 1)
    else (version.complete addr (inc + 1) :: ·) <$> fill start stop turns (inc + 1) room

/-- The loop over the ranges. Two addresses are excluded, so that three turns are enough
for an entry. -/
def fillRanges : List (Option (Vector UInt32 4) × Option (Vector UInt32 4)) → Nat →
    Except Fault (List (Vector UInt32 4))
  | [], _ => .ok []
  | range :: ranges, room => do
    let filled ← subnet.fill version (subnet.start range.1) (subnet.stop version range.2)
      (3 * room) 0 room
    let rest ← fillRanges ranges (room - filled.length)
    return filled ++ rest

/-- One range without ends where none is configured. -/
def ranges : List (Option (Vector UInt32 4) × Option (Vector UInt32 4)) :=
  if subnet.range = [] then [(none, none)] else subnet.range

/-- The pool of a subnet, none for a subnet without a family. -/
def generate (sess : Nat) : Except Fault (Option (List (Vector UInt32 4))) :=
  if subnet.family = afInet then some <$> subnet.fillRanges .v4 subnet.ranges sess
  else if subnet.family = afInet6 then some <$> subnet.fillRanges .v6 subnet.ranges sess
  else .ok none

end UePoolSubnet

/-- `ogs_pfcp_ue_pool_generate` -/
def uePoolGenerate (subnetList : List UePoolSubnet) (sess : Nat) :
    Except Fault (List (Option (List (Vector UInt32 4)))) :=
  subnetList.mapM (UePoolSubnet.generate · sess)

end Quicup.Open5gs.Pfcp
