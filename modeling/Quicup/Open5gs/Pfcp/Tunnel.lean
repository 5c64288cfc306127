import Quicup.Open5gs.Pfcp.Rules

/-!
# F-TEIDs of PDRs

`context.c` of the PFCP library: the UPF chooses an F-TEID where the SMF asks it to, enters
the TEID of a PDR into the table of TEIDs, and takes over TEIDs that are restored.
-/

namespace Quicup.Open5gs.Pfcp

def interfaceLiFunction : UInt8 := 4

/-- `ogs_user_plane_ip_resource_info_t` -/
structure GtpuResource where
  v4 : Bool
  v6 : Bool
  teidri : UInt32 := 0
  assoni : Bool := false
  assosi : Bool := false
  teidRange : UInt8 := 0
  addr : Vector UInt8 4
  addr6 : Vector UInt8 16
  networkInstance : List UInt8 := []
  sourceInterface : UInt8 := 0
  deriving DecidableEq

/-- The features of the UPF and the addresses that it takes GTP-U packets at. -/
structure TunnelEnv where
  ftup : Bool
  gtpuResources : List GtpuResource := []
  gtpuAddr : Option (Vector UInt8 4)
  gtpuAddr6 : Option (Vector UInt8 16)

/-! ## Choice -/

/-- A letter without its case. -/
def lowerOctet (octet : UInt8) : UInt8 := if 65 ≤ octet ∧ octet ≤ 90 then octet + 32 else octet

/-- The tests of `ogs_pfcp_find_gtpu_resource`. -/
def GtpuResource.serves (resource : GtpuResource) (dnn : Option (List UInt8)) (srcIf : UInt8) :
    Bool :=
  let otherName := dnn.any fun dnn =>
    dnn ≠ [] ∧ dnn.map lowerOctet ≠ resource.networkInstance.map lowerOctet
  let otherInterface := resource.sourceInterface ≤ interfaceLiFunction ∧
    srcIf ≤ interfaceLiFunction ∧ srcIf ≠ resource.sourceInterface
  !(resource.assoni && resource.networkInstance ≠ [] && otherName) &&
    !(resource.assosi && otherInterface)

/-- An F-TEID with the addresses that there are, and its length. -/
def FTeid.ofAddrs (addr : Option (Vector UInt8 4)) (addr6 : Option (Vector UInt8 16)) :
    Option (FTeid × Nat) :=
  match addr, addr6 with
  | some addr, some addr6 => some ({ flags := 3, address := addr ++ addr6 }, 25)
  | some addr, none => some ({ flags := 1, address := addr ++ Vector.replicate 16 (0 : UInt8) }, 9)
  | none, some addr6 => some ({ flags := 2, address := addr6 ++ Vector.replicate 4 (0 : UInt8) }, 21)
  | none, none => none

/-- A copy of so many octets of memory over another F-TEID. -/
def FTeid.copy (src dst : FTeid) (len : Nat) : FTeid :=
  let memory := src.memory.take len ++ dst.memory.drop len
  { flags := memory.headD 0
    teid := .ofNat (natBE ((memory.drop 1).take 4).reverse)
    address := Vector.ofFn fun i => memory.getD (5 + i) 0 }

/-- `ogs_pfcp_pdr_find_by_choose_id` -/
def PfcpState.findByChooseId (st : PfcpState) (chooseId : UInt8) : Option Nat :=
  (st.list .pdr).find? fun slot =>
    (st.rule .pdr slot).chid ∧ (st.rule .pdr slot).chooseId = chooseId

/-- The addresses of a resource, or of the UPF, in the families that are asked for. There
must be one, and without a resource one for each family. -/
def chooseAddrs (env : TunnelEnv) (resource : Option GtpuResource) (fTeid : FTeid) :
    Option (FTeid × Nat) :=
  match resource with
  | some resource =>
    FTeid.ofAddrs (if resource.v4 && fTeid.ipv4 then some resource.addr else none)
      (if resource.v6 && fTeid.ipv6 then some resource.addr6 else none)
  | none =>
    FTeid.ofAddrs (if fTeid.ipv4 then env.gtpuAddr else none)
      (if fTeid.ipv6 then env.gtpuAddr6 else none)

/-- The TEID of a PDR in the range of a resource. -/
def GtpuResource.teid (resource : GtpuResource) (teid : UInt32) : UInt32 :=
  if resource.teidri = 0 then teid
  else teid ||| (resource.teidRange.toUInt32 <<< (32 - resource.teidri))

/-- A PDR gets an F-TEID of the UPF: that of a PDR with the same Choose ID, or a new one. -/
def chooseFTeid (env : TunnelEnv) (slot : Nat) : Handler Unit := do
  let st ← .get
  let pdr := st.rule .pdr slot
  let chosen := if pdr.fTeid.chid then st.findByChooseId pdr.fTeid.chooseId else none
  match chosen with
  | some chosen =>
    let chosen := st.rule .pdr chosen
    modifyRule .pdr slot fun pdr =>
      { pdr with
        fTeid := chosen.fTeid.copy pdr.fTeid chosen.fTeidLen
        fTeidLen := chosen.fTeidLen }
  | none =>
    if pdr.fTeid.chid then
      modifyRule .pdr slot fun pdr =>
        { pdr with
          chid := true
          chooseId := pdr.fTeid.chooseId }
    let resource := env.gtpuResources.find? fun resource => resource.serves pdr.dnn pdr.srcIf
    let (fTeid, fTeidLen) ← .require (chooseAddrs env resource pdr.fTeid) ⟨causeRequestRejected, 0⟩
    let teid := (resource.map fun resource => resource.teid pdr.teid).getD pdr.teid
    modifyRule .pdr slot fun pdr =>
      { pdr with
        fTeid := { fTeid with teid }
        fTeidLen }

/-! ## The table -/

/-- `ogs_pfcp_object_teid_hash_set` -/
def objectTeidHashSet (env : TunnelEnv) (object : TeidObject) (slot : Nat) : Handler Unit := do
  if env.ftup && ((← .get).rule .pdr slot).fTeid.ch then chooseFTeid env slot
  if ((← .get).rule .pdr slot).hashTeid.isSome then teidHashSet slot none
  modifyRule .pdr slot fun pdr => { pdr with hashTeid := some pdr.fTeid.teid }
  teidHashSet slot (some object)

/-! ## Restoration -/

/-- `ogs_pfcp_pdr_swap_teid`. The TEID that is restored changes places with that of the
PDR, unless it has been swapped before. -/
def swapTeid (slot : Nat) : Handler Unit := do
  let st ← .get
  let pdr := st.rule .pdr slot
  let teid := pdr.fTeid.teid
  .assert (0 < pdr.fTeidLen ∧ pdr.fTeid.ch = false)
  if teid = 0 ∨ st.ctx.teidPool.size < teid.toNat then .refuse ⟨causeMandatoryIeIncorrect, 0⟩
  else
    let i := st.ctx.randomToIndex teid
    .assert (i < st.ctx.teidPool.size)
    if teid = st.ctx.teids i then
      let swapped := Function.update (Function.update st.ctx.teids i (st.ctx.teids pdr.teidNode))
        pdr.teidNode teid
      .modify fun st => { st with ctx.teids := swapped }

end Quicup.Open5gs.Pfcp
