import Quicup.Core.Procedure
import Quicup.Open5gs.Core.HashIndex
import Quicup.Open5gs.Pfcp.Handler
import Quicup.Open5gs.Pfcp.Types
import Quicup.Open5gs.Pfcp.UeIp

/-!
# The rules that PFCP keeps

`context.c` of the PFCP library: the rules of all sessions stand in the slots of a pool for
each kind of rule, and a session has a list of its rules of each kind. Rules point to each
other by slot. A rule takes a number from a pool of its session, and is then given the ID of
the message that asks for it.
-/

namespace Quicup.Open5gs.Pfcp

open Function

/-! ## Causes -/

def causeRequestRejected : UInt8 := 64

def causeSessionContextNotFound : UInt8 := 65

def causeMandatoryIeMissing : UInt8 := 66

def causeInvalidLength : UInt8 := 68

def causeMandatoryIeIncorrect : UInt8 := 69

def causeInvalidFTeidAllocationOption : UInt8 := 71

/-- The cause and the type of the offending element of a message that is refused. -/
structure Refusal where
  cause : UInt8
  offendingIe : UInt8 := 0
  deriving DecidableEq

/-! ## Rules -/

/-- `ogs_ipfw_rule_swap` -/
def ipfwRuleSwap (rule : IpfwRule) : IpfwRule :=
  { rule with
    ipSrc := rule.ipDst
    ipDst := rule.ipSrc
    portSrc := rule.portDst
    portDst := rule.portSrc }

/-- `ogs_pfcp_rule_t` -/
structure SdfRule extends PfcpRule where
  flags : UInt8
  sdfFilterId : UInt32 := 0
  deriving DecidableEq

def SdfRule.bid (rule : SdfRule) : Bool := bit rule.flags 16

/-- A flow of a PDR of the SMF. -/
structure Flow where
  fd : Bool
  bid : Bool
  description : List UInt8 := []
  sdfFilterId : UInt32 := 0
  deriving DecidableEq

/-- `ogs_pfcp_pdr_t`. The FAR, the URRs and the QER are slots. `hashTeid` is the key of the
table of TEIDs, `ueIpAddr` has as many octets as `ue_ip_addr_len` says. -/
structure PfcpPdr where
  teidNode : Nat := 0
  teid : UInt32 := 0
  hashTeid : Option UInt32 := none
  precedence : UInt32 := 0
  srcIf : UInt8 := ogsPfcpInterfaceUnknown
  srcIfType : Option UInt8 := none
  dnn : Option (List UInt8) := none
  ueIpAddr : List UInt8 := []
  ipv4FramedRoutes : Option (List (List UInt8)) := none
  ipv6FramedRoutes : Option (List (List UInt8)) := none
  fTeid : FTeid := {}
  fTeidLen : Nat := 0
  chid : Bool := false
  chooseId : UInt8 := 0
  outerHeaderRemoval : List UInt8 := []
  qfi : UInt8 := 0
  far : Option Nat := none
  urr : List Nat := []
  qer : Option Nat := none
  flow : List Flow := []
  ruleList : List SdfRule := []
  deriving DecidableEq

/-- `ogs_pfcp_far_t` -/
structure PfcpFar where
  applyAction : UInt16 := 0
  dstIf : UInt8 := ogsPfcpInterfaceUnknown
  dstIfType : Option UInt8 := none
  dnn : Option (List UInt8) := none
  outerHeaderCreation : OuterHeader := {}
  outerHeaderCreationLen : Nat := 0
  smreqFlags : UInt8 := 0
  bufferedGtpu : List Gpdu := []
  gnode : Option GtpNode := none
  deriving DecidableEq

/-- `ogs_pfcp_urr_t`. The reporting triggers have three octets. -/
structure PfcpUrr where
  measMethod : UInt8 := 0
  reptri5 : UInt8 := 0
  reptri6 : UInt8 := 0
  reptri7 : UInt8 := 0
  measInfo : UInt8 := 0
  measPeriod : UInt32 := 0
  volThreshold : Volume := {}
  volQuota : Volume := {}
  eventThreshold : UInt32 := 0
  eventQuota : UInt32 := 0
  timeThreshold : UInt32 := 0
  timeQuota : UInt32 := 0
  quotaHoldingTime : UInt32 := 0
  droppedDlTrafficThreshold : DroppedDlTrafficThreshold := {}
  quotaValidityTime : UInt32 := 0
  deriving DecidableEq

/-- `ogs_pfcp_qer_t` -/
structure PfcpQer where
  gateStatus : UInt8 := 0
  mbr : Bitrate := {}
  gbr : Bitrate := {}
  qfi : UInt8 := 0
  deriving DecidableEq

inductive RuleKind
  | pdr
  | far
  | urr
  | qer
  deriving DecidableEq

namespace RuleKind

abbrev Rule : RuleKind → Type
  | .pdr => PfcpPdr
  | .far => PfcpFar
  | .urr => PfcpUrr
  | .qer => PfcpQer

/-- The memory of a new rule. -/
def blank : (kind : RuleKind) → kind.Rule
  | .pdr => {}
  | .far => {}
  | .urr => {}
  | .qer => {}

/-- How many rules of the kind a session may have. -/
def maxNum : RuleKind → Nat
  | .pdr => 16
  | .far => 16
  | .urr => 16
  | .qer => 4

end RuleKind

/-- A rule with its ID and the slot of its number. -/
structure RuleEntry (kind : RuleKind) where
  idNode : Nat
  id : UInt32
  rule : kind.Rule

structure RuleTable (kind : RuleKind) where
  pool : OgsPool
  entry : Nat → RuleEntry kind

/-- `ogs_pfcp_bar_t` -/
structure PfcpBar where
  idNode : Nat
  id : UInt8
  deriving DecidableEq

/-- What a TEID leads to. -/
inductive TeidObject
  | sess (sess : Nat)
  | pdr (slot : Nat)
  deriving DecidableEq

/-- The pools, the table of TEIDs and the rules of all sessions. `teids` is the array of
the TEID pool, and `randomToIndex` where a TEID stood in it at first. Of the pool of filters
only the number of free slots is kept, since no pointer to a filter stays behind. -/
structure PfcpContext where
  table : (kind : RuleKind) → RuleTable kind
  teidPool : OgsPool
  teids : Nat → UInt32
  randomToIndex : UInt32 → Nat
  rulePoolAvail : Nat
  barPool : OgsPool
  bar : Nat → PfcpBar
  objectTeidHash : OgsHash Nat TeidObject

/-- How many filters a PDR may have. -/
def maxFlowInPdr : Nat := 15

/-- `ogs_pfcp_context_init` for so many sessions, with the shuffled array of TEIDs. -/
def PfcpContext.init (sess : Nat) (teids : List UInt32) (seed : UInt32) : PfcpContext where
  table kind := ⟨.init (sess * kind.maxNum), fun _ => ⟨0, 0, kind.blank⟩⟩
  teidPool := .init (sess * RuleKind.pdr.maxNum)
  teids n := teids.getD n 0
  randomToIndex teid := teids.idxOf teid
  rulePoolAvail := sess * RuleKind.pdr.maxNum * maxFlowInPdr
  barPool := .init sess
  bar _ := ⟨0, 0⟩
  objectTeidHash := .make seed

/-- `ogs_pfcp_sess_t` -/
structure PfcpSess where
  list : RuleKind → List Nat := fun _ => []
  idPool : RuleKind → OgsPool := fun kind => .init kind.maxNum
  bar : Option Nat := none
  barIdPool : OgsPool := .init 1

/-- What is kept for the record, by the slot of the FAR: the packets that arrive for it,
those that are handed to its socket with their TEID, those that are freed, and those that
are dropped because they cannot be sent. `stray` says whether a rule was used that is not
one of the session. -/
structure PfcpRecord where
  arrived : List (Nat × Gpdu) := []
  sent : List (Nat × UInt32 × Gpdu) := []
  freed : List (Nat × Gpdu) := []
  dropped : List (Nat × Gpdu) := []
  endMarkers : List (UInt32 × Gpdu) := []
  stray : Bool := false
  deriving DecidableEq

/-- What a handler works on: the rules of all sessions, those of its session, and the peers
that GTP-U packets are sent to. -/
structure PfcpState where
  ctx : PfcpContext
  sess : PfcpSess
  gtpuPeers : List (OgsIp × GtpNode) := []
  record : PfcpRecord := {}

/-- A procedure that may refuse a message. -/
abbrev Handler := Procedure Refusal PfcpState

/-! ## Memory -/

namespace PfcpState

variable (st : PfcpState) (kind : RuleKind)

def entry (slot : Nat) : RuleEntry kind := (st.ctx.table kind).entry slot

def rule (slot : Nat) : kind.Rule := (st.entry kind slot).rule

def id (slot : Nat) : UInt32 := (st.entry kind slot).id

def list : List Nat := st.sess.list kind

def setTable (table : RuleTable kind) : PfcpState :=
  { st with ctx := { st.ctx with table := update st.ctx.table kind table } }

def setEntry (slot : Nat) (entry : RuleEntry kind) : PfcpState :=
  st.setTable kind
    { st.ctx.table kind with entry := update (st.ctx.table kind).entry slot entry }

def setPool (pool : OgsPool) : PfcpState := st.setTable kind { st.ctx.table kind with pool }

def setRule (slot : Nat) (rule : kind.Rule) : PfcpState :=
  st.setEntry kind slot { st.entry kind slot with rule }

def setList (slots : List Nat) : PfcpState :=
  { st with sess := { st.sess with list := update st.sess.list kind slots } }

def setIdPool (pool : OgsPool) : PfcpState :=
  { st with sess := { st.sess with idPool := update st.sess.idPool kind pool } }

/-- The search of `ogs_pfcp_pdr_find` and its siblings. -/
def find (id : UInt32) : Option Nat := (st.list kind).find? fun slot => st.id kind slot = id

@[simp] theorem entry_setRule (slot : Nat) (rule : kind.Rule) :
    (st.setRule kind slot rule).entry kind slot = { st.entry kind slot with rule } := by
  simp [entry, setRule, setEntry, setTable]

@[simp] theorem rule_setRule (slot : Nat) (rule : kind.Rule) :
    (st.setRule kind slot rule).rule kind slot = rule := by
  rw [PfcpState.rule, entry_setRule]

@[simp] theorem setRule_setRule (slot : Nat) (rule rule' : kind.Rule) :
    (st.setRule kind slot rule).setRule kind slot rule' = st.setRule kind slot rule' := by
  rw [setRule, entry_setRule]
  simp [setRule, setEntry, setTable]

end PfcpState

/-- Change a rule in its slot. -/
def modifyRule (kind : RuleKind) (slot : Nat) (change : kind.Rule → kind.Rule) : Handler Unit :=
  .modify fun st => st.setRule kind slot (change (st.rule kind slot))

@[simp] theorem modifyRule_run (kind : RuleKind) (slot : Nat) (change : kind.Rule → kind.Rule)
    (st : PfcpState) :
    modifyRule kind slot change st =
      .ok (.ok (), st.setRule kind slot (change (st.rule kind slot))) := rfl

/-! ## Rules of any kind -/

namespace PfcpState

variable (st : PfcpState) (kind : RuleKind)

/-- `ogs_pfcp_far_add` and its siblings, as the slot of the new rule. -/
def add (new : kind.Rule) : Option Nat × PfcpState :=
  match (st.ctx.table kind).pool.alloc with
  | (none, _) => (none, st)
  | (some slot, pool) =>
    match (st.sess.idPool kind).alloc with
    | (none, _) => (none, st.setPool kind (pool.release slot))
    | (some node, idPool) =>
      let entry : RuleEntry kind := { idNode := node, id := .ofNat (node + 1), rule := new }
      (some slot, (((st.setPool kind pool).setIdPool kind idPool).setEntry kind slot entry).setList kind
        (st.list kind ++ [slot]))

/-- A rule leaves the list of its session. -/
def unlink (slot : Nat) : PfcpState := st.setList kind ((st.list kind).erase slot)

/-- The slot of a rule and its number are free. -/
def freeSlot (slot : Nat) : PfcpState :=
  (st.setIdPool kind ((st.sess.idPool kind).release (st.entry kind slot).idNode)).setPool kind
    ((st.ctx.table kind).pool.release slot)

end PfcpState

/-- `ogs_pfcp_far_find_or_add` and its siblings. A new rule gets the ID that is asked for. -/
def findOrAdd (kind : RuleKind) (id : UInt32) (add : Handler (Option Nat)) :
    Handler (Option Nat) := do
  match (← .get).find kind id with
  | some slot => return some slot
  | none =>
    match ← add with
    | none => return none
    | some slot =>
      .modify fun st => st.setEntry kind slot { st.entry kind slot with id }
      return some slot

def farFindOrAdd (id : UInt32) : Handler (Option Nat) :=
  findOrAdd .far id (.state fun st => st.add .far {})

def urrFindOrAdd (id : UInt32) : Handler (Option Nat) :=
  findOrAdd .urr id (.state fun st => st.add .urr {})

def qerFindOrAdd (id : UInt32) : Handler (Option Nat) :=
  findOrAdd .qer id (.state fun st => st.add .qer {})

/-- `ogs_pfcp_far_remove`, which frees the packets that the FAR keeps. -/
def farRemove (slot : Nat) : Handler Unit :=
  .modify fun st =>
    let freed := (st.rule .far slot).bufferedGtpu.map fun packet => (slot, packet)
    (({ st with record.freed := st.record.freed ++ freed }).unlink .far slot).freeSlot .far slot

/-- `ogs_pfcp_urr_remove` -/
def urrRemove (slot : Nat) : Handler Unit := .modify fun st => (st.unlink .urr slot).freeSlot .urr slot

/-- `ogs_pfcp_qer_remove` -/
def qerRemove (slot : Nat) : Handler Unit := .modify fun st => (st.unlink .qer slot).freeSlot .qer slot

/-! ## PDRs -/

/-- `ogs_pfcp_pdr_add`. The TEID stays in use when there is no number left. -/
def pdrAdd : Handler (Option Nat) := do
  let st ← .get
  if (st.ctx.table .pdr).pool.free = [] then return none
  else
    match st.ctx.teidPool.alloc with
    | (none, _) => .fault .assertion
    | (some node, teidPool) =>
      .modify fun st => { st with ctx := { st.ctx with teidPool } }
      .state fun st => st.add .pdr { teidNode := node, teid := st.ctx.teids node }

def pdrFindOrAdd (id : UInt32) : Handler (Option Nat) := findOrAdd .pdr id pdrAdd

/-- `ogs_list_insert_sorted` by precedence: a PDR stands behind those that precede it or
have the same precedence. -/
def insertSorted (precedence : Nat → UInt32) (slot : Nat) : List Nat → List Nat
  | [] => [slot]
  | other :: slots =>
    if precedence slot < precedence other then slot :: other :: slots
    else other :: insertSorted precedence slot slots

/-- `ogs_pfcp_pdr_reorder_by_precedence` -/
def reorderByPrecedence (slot : Nat) (precedence : UInt32) : Handler Unit := do
  .modify fun st => st.unlink .pdr slot
  modifyRule .pdr slot fun pdr => { pdr with precedence }
  .modify fun st =>
    st.setList .pdr (insertSorted (fun slot => (st.rule .pdr slot).precedence) slot (st.list .pdr))

/-- `ogs_pfcp_pdr_associate_urr`. A URR stands in the array once. -/
def associateUrr (pdr urr : Nat) : Handler Unit := do
  let st ← .get
  let urrs := (st.rule .pdr pdr).urr
  .assert (urrs.length < ogsMaxNumOfUrr)
  if urrs.any fun other => st.id .urr other = st.id .urr urr then return ()
  else modifyRule .pdr pdr fun pdr => { pdr with urr := pdr.urr ++ [urr] }

/-! ## Filters -/

/-- `ogs_pfcp_rule_find_by_sdf_filter_id` -/
def PfcpState.findRuleByFilterId (st : PfcpState) (id : UInt32) : Option SdfRule :=
  ((st.list .pdr).flatMap fun slot => (st.rule .pdr slot).ruleList).find? fun rule =>
    rule.bid ∧ rule.sdfFilterId = id

/-- So many slots of the pool of filters are given back. -/
def ruleFree (n : Nat) : Handler Unit :=
  .modify fun st =>
    { st with ctx := { st.ctx with rulePoolAvail := st.ctx.rulePoolAvail + n } }

/-- The allocation of `ogs_pfcp_rule_add`. -/
def ruleAlloc : Handler Unit := do
  .assert (0 < (← .get).ctx.rulePoolAvail)
  .modify fun st => { st with ctx := { st.ctx with rulePoolAvail := st.ctx.rulePoolAvail - 1 } }

/-- `ogs_pfcp_rule_remove_all` -/
def ruleRemoveAll (slot : Nat) : Handler Unit := do
  ruleFree ((← .get).rule .pdr slot).ruleList.length
  modifyRule .pdr slot fun pdr => { pdr with ruleList := [] }

/-! ## TEIDs -/

/-- The memory of the key that a PDR has in the table of TEIDs. -/
def PfcpState.teidMem (st : PfcpState) (slot : Nat) : List UInt8 :=
  ((st.rule .pdr slot).hashTeid.map fun teid => octetsBE 4 teid.toNat).getD []

/-- `ogs_hash_set` of the table of TEIDs at the key of a PDR. -/
def teidHashSet (slot : Nat) (object : Option TeidObject) : Handler Unit := do
  let st ← .get
  let objectTeidHash ← .lift (st.ctx.objectTeidHash.set st.teidMem slot 4 object)
  .modify fun st => { st with ctx := { st.ctx with objectTeidHash } }

/-- `ogs_pfcp_object_find_by_teid` -/
def PfcpState.findObjectByTeid (st : PfcpState) (teid : UInt32) : Option TeidObject :=
  (st.ctx.objectTeidHash.findEntry st.teidMem (octetsBE 4 teid.toNat)).map HashEntry.val

/-- `ogs_pfcp_object_count_by_teid` -/
def PfcpState.countByTeid (st : PfcpState) (teid : UInt32) : Nat :=
  (st.list .pdr).countP fun slot => (st.rule .pdr slot).fTeid.teid = teid

/-- `ogs_pfcp_pdr_remove`. The TEID leaves the table with its last PDR. -/
def pdrRemove (slot : Nat) : Handler Unit := do
  .modify fun st => st.unlink .pdr slot
  ruleRemoveAll slot
  let st ← .get
  let pdr := st.rule .pdr slot
  if pdr.hashTeid.isSome ∧ st.countByTeid pdr.fTeid.teid = 0 then teidHashSet slot none
  .modify fun st => { st with ctx := { st.ctx with teidPool := st.ctx.teidPool.release pdr.teidNode } }
  .modify fun st => st.freeSlot .pdr slot

/-! ## BARs -/

/-- `ogs_pfcp_bar_new` with the ID of a message. -/
def barNew (id : UInt8) : Handler Unit := do
  let st ← .get
  .assert st.sess.bar.isNone
  match st.ctx.barPool.alloc, st.sess.barIdPool.alloc with
  | (some slot, barPool), (some node, barIdPool) =>
    .modify fun st =>
      { st with
        ctx := { st.ctx with
          barPool
          bar := update st.ctx.bar slot { idNode := node, id } }
        sess := { st.sess with
          bar := some slot
          barIdPool } }
  | _, _ => .fault .assertion

/-- `ogs_pfcp_bar_delete` of the BAR in a slot. -/
def barDelete (slot : Nat) : Handler Unit :=
  .modify fun st =>
    { st with
      ctx := { st.ctx with barPool := st.ctx.barPool.release slot }
      sess := { st.sess with
        bar := none
        barIdPool := st.sess.barIdPool.release (st.ctx.bar slot).idNode } }

/-! ## Sessions -/

/-- `ogs_pfcp_pdr_remove_all` and its siblings. -/
def removeAll (kind : RuleKind) (remove : Nat → Handler Unit) : Handler Unit := do
  ((← .get).list kind).forM remove

/-- `ogs_pfcp_sess_clear` -/
def sessClear : Handler Unit := do
  removeAll .pdr pdrRemove
  removeAll .far farRemove
  removeAll .urr urrRemove
  removeAll .qer qerRemove
  match (← .get).sess.bar with
  | none => return ()
  | some slot => barDelete slot

end Quicup.Open5gs.Pfcp
