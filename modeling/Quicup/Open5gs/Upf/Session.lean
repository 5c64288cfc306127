import Quicup.Core.Fallible
import Quicup.Core.System
import Quicup.Open5gs.Core.HashIndex
import Quicup.Open5gs.Pfcp.UeIp

/-!
# Sessions of the UPF

`context.c`: sessions stand in the slots of a pool and are found through five tables. A
table keeps pointers into the memory of the sessions, or of the addresses of their UEs.
-/

namespace Quicup.Open5gs

open Pfcp

/-- `ogs_pfcp_f_seid_t`, with the octets of the union at its end. -/
structure FSeid where
  ipv4 : Bool
  ipv6 : Bool
  seid : UInt64
  address : Vector UInt8 20
  deriving DecidableEq

/-- `ogs_pfcp_f_seid_to_ip`, which fails without an address. -/
def FSeid.toIp (fSeid : FSeid) : Option OgsIp :=
  let octets := fSeid.address.toList
  match fSeid.ipv4, fSeid.ipv6 with
  | true, true =>
    some { ipv4 := true, ipv6 := true, addr := octets.take 4, addr6 := octets.drop 4 }
  | true, false => some { ipv4 := true, addr := octets.take 4 }
  | false, true => some { ipv6 := true, addr6 := octets.take 16 }
  | false, false => none

/-- `len` of `ogs_ip_t` -/
def OgsIp.len (ip : OgsIp) : Nat :=
  if ip.ipv4 && ip.ipv6 then 20 else if ip.ipv4 then 4 else 16

/-- The memory of a SEID, a number of 64 bits. -/
def seidMem (seid : UInt64) : List UInt8 := octetsBE 8 seid.toNat

/-- The memory of a SEID and an address, with the octets that pad the structure. -/
def fSeidMem (seid : UInt64) (ip : OgsIp) (pad : Vector UInt8 4) : List UInt8 :=
  seidMem seid ++ ip.addr ++ ip.addr6 ++ octetsBE 4 ip.len ++
    [(if ip.ipv4 then 1 else 0) + if ip.ipv6 then 2 else 0, 0, 0, 0] ++ pad.toList

def fSeidLen : Nat := 40

/-- What the indexes use of `upf_sess_t`. `ueIp` stands for `ipv4` and `ipv6`. -/
structure N4Sess where
  upfN4SeidNode : Option Nat := none
  upfN4Seid : UInt64 := 0
  seid : UInt64 := 0
  ip : OgsIp := {}
  ueIp : IpVersion → Option UeIpPtr := fun _ => none

/-- The number of sessions, the shuffled numbers in the slots of the SEID pool, and the
addresses in the pools of the subnets. -/
structure N4Config where
  size : Nat
  seid : Nat → UInt64
  distinct : ∀ i < size, ∀ j < size, seid i = seid j → i = j
  slotAddr : Nat → Nat → Vector UInt32 4

/-- The pools, the memory of the sessions by slot, the list and the tables. `ipHash`
stands for `ipv4_hash` and `ipv6_hash`. What is handed out to each session, and whether
something was freed that was not handed out, is kept for the record. -/
structure N4Context where
  upfSessPool : OgsPool
  upfN4SeidPool : OgsPool
  sess : Nat → N4Sess := fun _ => {}
  sessList : List Nat := []
  upfN4SeidHash : OgsHash Nat Nat
  smfN4SeidHash : OgsHash Nat Nat
  smfN4FSeidHash : OgsHash Nat Nat
  ipHash : IpVersion → OgsHash UeIpPtr Nat
  ueIps : UeIps
  held : List (Nat × IpVersion × UeIpPtr) := []
  freedTwice : Bool := false

/-- `upf_context_init`, with the seeds of the tables. -/
def N4Context.init (cfg : N4Config) (subnets : List Subnet) (seed : Nat → UInt32) :
    N4Context where
  upfSessPool := .init cfg.size
  upfN4SeidPool := .init cfg.size
  upfN4SeidHash := .make (seed 0)
  smfN4SeidHash := .make (seed 1)
  smfN4FSeidHash := .make (seed 2)
  ipHash
    | .v4 => .make (seed 3)
    | .v6 => .make (seed 4)
  ueIps := { subnets }

namespace N4Context

variable (cfg : N4Config) (ctx : N4Context)

/-! ## Memory -/

def upfN4SeidMem (sess : Nat) : List UInt8 := seidMem (ctx.sess sess).upfN4Seid

def smfN4SeidMem (sess : Nat) : List UInt8 := seidMem (ctx.sess sess).seid

/-- The octets behind the address are cleared with the session. -/
def smfN4FSeidMem (sess : Nat) : List UInt8 :=
  fSeidMem (ctx.sess sess).seid (ctx.sess sess).ip (Vector.replicate 4 0)

/-- The octets of four words. -/
def addrMem (addr : Vector UInt32 4) : List UInt8 := addr.toList.flatMap fun w => octetsBE 4 w.toNat

/-- Memory that is freed holds nothing. -/
def ueIpMem (p : UeIpPtr) : List UInt8 := ((ctx.ueIps.addr cfg.slotAddr p).map addrMem).getD []

def setSess (sess : Nat) (value : N4Sess) : N4Context :=
  { ctx with sess := Function.update ctx.sess sess value }

def setUeIpPtr (sess : Nat) (version : IpVersion) (p : Option UeIpPtr) : N4Context :=
  ctx.setSess sess
    { ctx.sess sess with ueIp := Function.update (ctx.sess sess).ueIp version p }

def setIpHash (version : IpVersion) (ht : OgsHash UeIpPtr Nat) : N4Context :=
  { ctx with ipHash := Function.update ctx.ipHash version ht }

theorem ipHash_setIpHash (version version' : IpVersion) (ht : OgsHash UeIpPtr Nat) :
    (ctx.setIpHash version ht).ipHash version' =
      if version' = version then ht else ctx.ipHash version' :=
  Function.update_apply ..

theorem ueIp_setUeIpPtr (sess n : Nat) (version version' : IpVersion) (p : Option UeIpPtr) :
    ((ctx.setUeIpPtr sess version p).sess n).ueIp version' =
      if version' = version ∧ n = sess then p else (ctx.sess n).ueIp version' := by
  by_cases hn : n = sess
  · subst hn
    by_cases hversion : version' = version <;> simp [setUeIpPtr, setSess, hversion]
  · simp [setUeIpPtr, setSess, hn]

/-! ## Lookups -/

/-- `upf_sess_find_by_upf_n4_seid` -/
def findByUpfN4Seid (seid : UInt64) : Option Nat :=
  (ctx.upfN4SeidHash.findEntry ctx.upfN4SeidMem (seidMem seid)).map HashEntry.val

/-- `upf_sess_find_by_smf_n4_seid` -/
def findBySmfN4Seid (seid : UInt64) : Option Nat :=
  (ctx.smfN4SeidHash.findEntry ctx.smfN4SeidMem (seidMem seid)).map HashEntry.val

/-- `upf_sess_find_by_smf_n4_f_seid`, with what the stack holds behind the key. -/
def findBySmfN4FSeid (pad : Vector UInt8 4) (fSeid : FSeid) : Except Fault (Option Nat) :=
  match fSeid.toIp with
  | none => .error .assertion
  | some ip =>
    .ok ((ctx.smfN4FSeidHash.findEntry ctx.smfN4FSeidMem (fSeidMem fSeid.seid ip pad)).map
      HashEntry.val)

/-- The table of `upf_sess_find_by_ipv4` and `upf_sess_find_by_ipv6`. -/
def findByUeIp (version : IpVersion) (addr : Vector UInt32 4) : Option Nat :=
  ((ctx.ipHash version).findEntry (ctx.ueIpMem cfg) ((addrMem addr).take version.klen)).map
    HashEntry.val

/-! ## Sessions -/

/-- `upf_sess_add` -/
def upfSessAdd (fSeid : FSeid) : Except Fault (Option Nat × N4Context) :=
  match ctx.upfSessPool.alloc, ctx.upfN4SeidPool.alloc with
  | (none, _), _ => .ok (none, ctx)
  | _, (none, _) => .error .assertion
  | (some n, upfSessPool), (some node, upfN4SeidPool) => do
    let some ip := fSeid.toIp | .error .assertion
    let ctx := ctx.setSess n
      { upfN4SeidNode := some node
        upfN4Seid := cfg.seid node
        seid := fSeid.seid
        ip }
    return (some n,
      { ctx with
        upfSessPool
        upfN4SeidPool
        upfN4SeidHash := ← ctx.upfN4SeidHash.set ctx.upfN4SeidMem n 8 (some n)
        smfN4FSeidHash := ← ctx.smfN4FSeidHash.set ctx.smfN4FSeidMem n fSeidLen (some n)
        smfN4SeidHash := ← ctx.smfN4SeidHash.set ctx.smfN4SeidMem n 8 (some n)
        sessList := ctx.sessList ++ [n] })

/-- `upf_sess_add_by_message` for the CP F-SEID of a request, if it has one. -/
def upfSessAddByMessage (pad : Vector UInt8 4) (fSeid : Option FSeid) :
    Except Fault (Option Nat × N4Context) := do
  match fSeid with
  | none => return (none, ctx)
  | some fSeid =>
    if fSeid.ipv4 = false ∧ fSeid.ipv6 = false then return (none, ctx)
    else
      match ← ctx.findBySmfN4FSeid pad fSeid with
      | some n => return (some n, ctx)
      | none => ctx.upfSessAdd cfg fSeid

/-! ## Addresses of the UE -/

/-- Free what the pointer of a session points to. The record is checked. -/
def ueIpFree (sess : Nat) (version : IpVersion) (p : UeIpPtr) : Except Fault N4Context := do
  return { ctx with
    ueIps := ← ctx.ueIps.release p
    held := ctx.held.erase (sess, version, p)
    freedTwice := ctx.freedTwice || decide ((sess, version, p) ∉ ctx.held) }

/-- The address of a session is taken out of the table and freed. The pointer stays. -/
def dropUeIp (sess : Nat) (version : IpVersion) : Except Fault N4Context := do
  match (ctx.sess sess).ueIp version with
  | none => return ctx
  | some p =>
    -- the key is read
    if (ctx.ueIps.addr cfg.slotAddr p).isNone then .error .outOfBounds
    else
      let ht ← (ctx.ipHash version).set (ctx.ueIpMem cfg) p version.klen none
      (ctx.setIpHash version ht).ueIpFree sess version p

/-- Both addresses of a session are freed. -/
def dropUeIps (sess : Nat) : Except Fault N4Context := do
  let ctx ← ctx.dropUeIp cfg sess .v4
  ctx.dropUeIp cfg sess .v6

/-- A session gets an address, or none and a cause. -/
def takeUeIp (sess : Nat) (version : IpVersion) (dnn : Option (List Char))
    (addr : Vector UInt32 4) (calloc : Bool) : Except Fault (UInt8 × N4Context) := do
  match ← ctx.ueIps.alloc version dnn addr calloc with
  | (.error cause, ueIps) =>
    return (cause, { ctx with ueIps }.setUeIpPtr sess version none)
  | (.ok p, ueIps) =>
    let ctx := { ctx with ueIps, held := (sess, version, p) :: ctx.held }.setUeIpPtr sess version
      (some p)
    let ht ← (ctx.ipHash version).set (ctx.ueIpMem cfg) p version.klen (some sess)
    return (causeRequestAccepted, ctx.setIpHash version ht)

end N4Context

/-- `ogs_pfcp_ue_ip_addr_t`, with the octets of the union at its end. -/
structure UeIpAddr where
  ipv4 : Bool
  ipv6 : Bool
  address : Vector UInt8 20
  deriving DecidableEq

/-- The words that octets write. -/
def wordsOf (octets : List UInt8) : Vector UInt32 4 :=
  Vector.ofFn fun i => .ofNat (natBE ((octets.drop (4 * i.val)).take 4))

def pduSessionTypeIpv4 : UInt8 := 1

def pduSessionTypeIpv6 : UInt8 := 2

def pduSessionTypeIpv4v6 : UInt8 := 3

/-- What `upf_sess_set_ue_ip` is called with, and whether there is memory for a static
address of each version. -/
structure UeIpCall where
  sessionType : UInt8
  ueIp : UeIpAddr
  dnn : Option (List Char)
  calloc : IpVersion → Bool

namespace UeIpCall

variable (call : UeIpCall)

/-- The call is for a session type and with an address or a DNN for the version. -/
def wants : IpVersion → Bool
  | .v4 => (call.sessionType = pduSessionTypeIpv4 ∨ call.sessionType = pduSessionTypeIpv4v6) ∧
      (call.ueIp.ipv4 ∨ call.dnn.isSome)
  | .v6 => (call.sessionType = pduSessionTypeIpv6 ∨ call.sessionType = pduSessionTypeIpv4v6) ∧
      (call.ueIp.ipv6 ∨ call.dnn.isSome)

/-- The member of the union that is read for the version. -/
def addr : IpVersion → Vector UInt32 4
  | .v4 => wordsOf (call.ueIp.address.toList.take 4)
  | .v6 =>
    if call.sessionType = pduSessionTypeIpv4v6 then wordsOf (call.ueIp.address.toList.drop 4)
    else wordsOf (call.ueIp.address.toList.take 16)

end UeIpCall

namespace N4Context

variable (cfg : N4Config) (ctx : N4Context)

/-- A session gets an address of a version if the call has one for it. -/
def assignUeIp (sess : Nat) (call : UeIpCall) (version : IpVersion) :
    Except Fault (UInt8 × N4Context) :=
  if call.wants version then
    ctx.takeUeIp cfg sess version call.dnn (call.addr version) (call.calloc version)
  else .ok (causeRequestAccepted, ctx)

/-- `upf_sess_set_ue_ip` from the session type on. -/
def assignUeIps (sess : Nat) (call : UeIpCall) : Except Fault (UInt8 × N4Context) := do
  if call.sessionType = pduSessionTypeIpv4 then ctx.assignUeIp cfg sess call .v4
  else if call.sessionType = pduSessionTypeIpv6 then ctx.assignUeIp cfg sess call .v6
  else if call.sessionType = pduSessionTypeIpv4v6 then
    let (cause, ctx) ← ctx.assignUeIp cfg sess call .v4
    if cause ≠ causeRequestAccepted then return (cause, ctx)
    else
      let (cause, ctx) ← ctx.assignUeIp cfg sess call .v6
      if cause ≠ causeRequestAccepted then
        return (cause, (← ctx.dropUeIp cfg sess .v4).setUeIpPtr sess .v4 none)
      else return (cause, ctx)
  else return (causeServiceNotSupported, ctx)

/-- `upf_sess_set_ue_ip` -/
def upfSessSetUeIp (sess : Nat) (call : UeIpCall) : Except Fault (UInt8 × N4Context) := do
  (← ctx.dropUeIps cfg sess).assignUeIps cfg sess call

/-- The slots of a session and of its SEID are free. -/
def freeSlots (sess : Nat) : Except Fault N4Context := do
  let some node := (ctx.sess sess).upfN4SeidNode | .error .nullDeref
  return { ctx with
    upfN4SeidPool := ctx.upfN4SeidPool.release node
    upfSessPool := ctx.upfSessPool.release sess }

/-- `upf_sess_remove` -/
def upfSessRemove (sess : Nat) : Except Fault N4Context := do
  let ctx := { ctx with sessList := ctx.sessList.erase sess }
  let ctx :=
    { ctx with
      upfN4SeidHash := ← ctx.upfN4SeidHash.set ctx.upfN4SeidMem sess 8 none
      smfN4SeidHash := ← ctx.smfN4SeidHash.set ctx.smfN4SeidMem sess 8 none
      smfN4FSeidHash := ← ctx.smfN4FSeidHash.set ctx.smfN4FSeidMem sess fSeidLen none }
  (← ctx.dropUeIps cfg sess).freeSlots sess

end N4Context

/-! ## Runs -/

inductive N4Event
  | establish (pad : Vector UInt8 4) (fSeid : Option FSeid)
  | setUeIp (sess : Nat) (call : UeIpCall)
  | remove (sess : Nat)

/-- Addresses are set for sessions and sessions are removed that are in the list. -/
def N4Context.Enabled (ctx : N4Context) : N4Event → Prop
  | .establish _ _ => True
  | .setUeIp sess _ => sess ∈ ctx.sessList
  | .remove sess => sess ∈ ctx.sessList

def N4Context.after (cfg : N4Config) (ctx : N4Context) : N4Event → Except Fault N4Context
  | .establish pad fSeid => Prod.snd <$> ctx.upfSessAddByMessage cfg pad fSeid
  | .setUeIp sess call => Prod.snd <$> ctx.upfSessSetUeIp cfg sess call
  | .remove sess => ctx.upfSessRemove cfg sess

/-- A run ends where a call faults. -/
def n4System (cfg : N4Config) : System (Except Fault N4Context) N4Event where
  init st := ∃ subnets seed,
    (∀ subnet ∈ subnets, ∃ size, subnet.pool = OgsPool.init size) ∧
      st = .ok (.init cfg subnets seed)
  step st e st' := ∃ ctx, st = .ok ctx ∧ ctx.Enabled e ∧ st' = ctx.after cfg e

end Quicup.Open5gs
