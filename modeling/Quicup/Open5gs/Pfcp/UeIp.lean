import Quicup.Open5gs.Core.Pool
import Quicup.Open5gs.Core.Sockaddr

/-!
# Addresses for the UE

`ogs_pfcp_ue_ip_alloc` takes a dynamic address from the pool of a subnet, and memory of
its own for a static address.
-/

namespace Quicup.Open5gs.Pfcp

def afUnspec : Nat := 0

inductive IpVersion
  | v4
  | v6
  deriving DecidableEq

def IpVersion.family : IpVersion → Nat
  | .v4 => afInet
  | .v6 => afInet6

/-- The length of the keys of a session in the table for the version: an address, or a
prefix of 64 bits. -/
def IpVersion.klen : IpVersion → Nat
  | .v4 => 4
  | .v6 => 8

def causeRequestAccepted : UInt8 := 1

def causeNoResourcesAvailable : UInt8 := 75

def causeServiceNotSupported : UInt8 := 76

def causeAllDynamicAddressAreOccupied : UInt8 := 79

/-- What the allocation reads of `ogs_pfcp_subnet_t`. -/
structure Subnet where
  family : Nat
  dnn : List Char
  pool : OgsPool
  deriving DecidableEq

/-- A slot of the pool of a subnet, or memory of its own. -/
inductive UeIpPtr
  | slot (subnet i : Nat)
  | cell (n : Nat)
  deriving DecidableEq

/-- The subnets and the memory of static addresses. Memory that is freed is not handed
out again. -/
structure UeIps where
  subnets : List Subnet
  cells : Nat → Option (Vector UInt32 4) := fun _ => none
  next : Nat := 0

/-- The tests of `ogs_pfcp_find_subnet` and `ogs_pfcp_find_subnet_by_dnn`. -/
def Subnet.serves (version : IpVersion) (dnn : Option (List Char)) (subnet : Subnet) : Bool :=
  (subnet.family = afUnspec ∨ subnet.family = version.family) ∧
    (subnet.dnn = [] ∨ some (subnet.dnn.map Char.toLower) = dnn.map (List.map Char.toLower)) ∧
    subnet.pool.free ≠ []

namespace UeIps

variable (slotAddr : Nat → Nat → Vector UInt32 4) (ueIps : UeIps)

/-- The address behind a pointer, if the memory is still there. -/
def addr : UeIpPtr → Option (Vector UInt32 4)
  | .slot subnet i => some (slotAddr subnet i)
  | .cell n => ueIps.cells n

/-- The first subnet that serves. -/
def findSubnet (version : IpVersion) (dnn : Option (List Char)) : Option Nat :=
  ueIps.subnets.findIdx? (Subnet.serves version dnn)

/-- The pool of a subnet. -/
def pool (k : Nat) : OgsPool := (ueIps.subnets[k]?.map Subnet.pool).getD ⟨0, []⟩

def family (k : Nat) : Nat := (ueIps.subnets[k]?.map Subnet.family).getD afUnspec

def setPool (k : Nat) (pool : OgsPool) : UeIps :=
  { ueIps with subnets := ueIps.subnets.modify k fun subnet => { subnet with pool } }

def setCell (n : Nat) (value : Option (Vector UInt32 4)) : UeIps :=
  { ueIps with cells := Function.update ueIps.cells n value }

/-- `ogs_pfcp_ue_ip_alloc`, with whether there is memory for a static address. The slots
of a subnet without a family were never set up. -/
def alloc (version : IpVersion) (dnn : Option (List Char)) (addr : Vector UInt32 4)
    (calloc : Bool) : Except Fault (Except UInt8 UeIpPtr × UeIps) :=
  match ueIps.findSubnet version dnn with
  | none => .ok (.error causeNoResourcesAvailable, ueIps)
  | some k =>
    if addr ≠ Vector.replicate 4 0 then
      if calloc then
        .ok (.ok (.cell ueIps.next),
          { ueIps.setCell ueIps.next (some addr) with next := ueIps.next + 1 })
      else .ok (.error causeAllDynamicAddressAreOccupied, ueIps)
    else if ueIps.family k = afUnspec then .error .outOfBounds
    else
      match (ueIps.pool k).alloc with
      | (none, _) => .ok (.error causeNoResourcesAvailable, ueIps)
      | (some i, pool) => .ok (.ok (.slot k i), ueIps.setPool k pool)

/-- `ogs_pfcp_ue_ip_free`, which reads the entry first. -/
def release : UeIpPtr → Except Fault UeIps
  | .cell n =>
    match ueIps.cells n with
    | none => .error .outOfBounds
    | some _ => .ok (ueIps.setCell n none)
  | .slot k i => .ok (ueIps.setPool k ((ueIps.pool k).release i))

/-- The address that is handed out next: the static one, or that of the slot at the head
of the pool of the first subnet that serves. -/
def nextAddr (version : IpVersion) (dnn : Option (List Char)) (addr : Vector UInt32 4) :
    Option (Vector UInt32 4) :=
  (ueIps.findSubnet version dnn).bind fun k =>
    if addr ≠ Vector.replicate 4 0 then some addr
    else (ueIps.pool k).free.head?.map (slotAddr k)

/-- The addresses once an entry is given back. -/
def giveBack (p : Option UeIpPtr) : UeIps :=
  match p.map ueIps.release with
  | some (.ok ueIps') => ueIps'
  | _ => ueIps

theorem getElem?_setPool (k j : Nat) (pool : OgsPool) :
    (ueIps.setPool k pool).subnets[j]? =
      if k = j then ueIps.subnets[j]?.map fun subnet => { subnet with pool }
      else ueIps.subnets[j]? := by
  rw [setPool, List.getElem?_modify]
  split
  · rfl
  · exact Option.map_id' ..

@[simp] theorem cells_setCell (n m : Nat) (value : Option (Vector UInt32 4)) :
    (ueIps.setCell n value).cells m = if m = n then value else ueIps.cells m :=
  Function.update_apply ..

end UeIps

end Quicup.Open5gs.Pfcp
