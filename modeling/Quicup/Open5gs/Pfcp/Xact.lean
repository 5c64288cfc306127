import Quicup.Core.ByteOrder
import Quicup.Core.Cursor
import Quicup.Open5gs.Core.Pool

/-!
# Transactions of PFCP

`xact.c` of the PFCP library: a node keeps the transactions that it has started and those
that its peer has started. A message that comes in is taken for a step of one of them, by the
kind of its type and its sequence number only.
-/

namespace Quicup.Open5gs.Pfcp

/-! ## Messages -/

def heartbeatRequestType : UInt8 := 1

def heartbeatResponseType : UInt8 := 2

def versionNotSupportedResponseType : UInt8 := 11

def sessionEstablishmentRequestType : UInt8 := 50

/-- The types of requests that the library knows. Each response has the type behind. -/
def requestTypes : List UInt8 := [1, 5, 7, 9, 50, 52, 54, 56]

/-- The response type that belongs to a request type. -/
def responseType (type : UInt8) : Option UInt8 := if type ∈ requestTypes then some (type + 1) else none

def responseTypes : List UInt8 := versionNotSupportedResponseType :: requestTypes.map (· + 1)

/-- `ogs_pfcp_xact_stage_t`. No type of message is in the intermediate stage. -/
inductive XactStage
  | unknown
  | initial
  | final
  deriving DecidableEq

/-- `ogs_pfcp_xact_get_stage` -/
def xactGetStage (type : UInt8) : XactStage :=
  if type ∈ requestTypes then .initial
  else if type ∈ responseTypes then .final
  else .unknown

/-- `OGS_PFCP_SQN_TO_XID` of the field of a header, as it stands in memory. -/
def pfcpSqnToXid (sqn : UInt32) : UInt32 := swap32 sqn >>> 8

/-- `OGS_PFCP_XID_TO_SQN` -/
def pfcpXidToSqn (xid : UInt32) : UInt32 := swap32 (xid <<< 8)

/-- The header and the body of a message that is sent. -/
def pfcpMessage (type : UInt8) (seid : UInt64) (xid : UInt32) (body : List UInt8) : List UInt8 :=
  let sqn := octetsBE 4 (xid <<< 8).toNat
  if sessionEstablishmentRequestType ≤ type then
    [0x21, type] ++ octetsBE 2 (body.length + 12) ++ octetsBE 8 seid.toNat ++ sqn ++ body
  else [0x20, type] ++ octetsBE 2 (body.length + 4) ++ sqn ++ body

/-! ## Transactions -/

inductive XactOrg
  | localOriginator
  | remoteOriginator
  deriving DecidableEq

/-- A step of a transaction, with the message if it was sent. -/
structure XactSeq where
  type : UInt8 := 0
  pkbuf : Option (List UInt8) := none
  deriving DecidableEq

/-- `ogs_pfcp_xact_t` in a slot of the pool, with its steps so far and whether its timers
run. -/
structure PfcpXact where
  slot : Nat
  org : XactOrg
  xid : UInt32
  seq : List XactSeq := []
  tmResponse : Bool := false
  responseRcount : UInt8
  tmHolding : Bool := false
  holdingRcount : UInt8
  deriving DecidableEq

namespace PfcpXact

def step (xact : PfcpXact) : Nat := xact.seq.length

/-- A place in the array of steps, which is empty behind the last step. -/
def seqAt (xact : PfcpXact) (n : Nat) : XactSeq := xact.seq.getD n {}

/-- The type of the request. -/
def requestType (xact : PfcpXact) : UInt8 := (xact.seqAt 0).type

end PfcpXact

/-- What the configuration says about repetitions. -/
structure XactConf where
  n1ResponseRcount : UInt8
  n1HoldingRcount : UInt8
  deriving DecidableEq

/-- The pool of transactions, and the lists of a node. -/
structure XactState where
  pool : OgsPool
  localList : List PfcpXact := []
  remoteList : List PfcpXact := []
  deriving DecidableEq

namespace XactState

variable (st : XactState) (org : XactOrg) (xact : PfcpXact)

def list : List PfcpXact :=
  match org with
  | .localOriginator => st.localList
  | .remoteOriginator => st.remoteList

def setList (xacts : List PfcpXact) : XactState :=
  match org with
  | .localOriginator => { st with localList := xacts }
  | .remoteOriginator => { st with remoteList := xacts }

/-- The search of `ogs_pfcp_xact_receive`. -/
def find (xid : UInt32) : Option PfcpXact := (st.list org).find? fun xact => xact.xid = xid

/-- The memory of a transaction is written. -/
def put : XactState :=
  st.setList xact.org ((st.list xact.org).map fun other => if other.slot = xact.slot then xact else other)

/-- `ogs_pfcp_xact_delete` -/
def delete : XactState :=
  { st.setList xact.org ((st.list xact.org).filter fun other => other.slot ≠ xact.slot) with
    pool := st.pool.release xact.slot }

end XactState

/-- A new transaction. -/
def newXact (conf : XactConf) (org : XactOrg) (xid : UInt32) (slot : Nat) : PfcpXact where
  slot
  org
  xid
  responseRcount := conf.n1ResponseRcount
  holdingRcount := conf.n1HoldingRcount

/-- `ogs_pfcp_xact_remote_create`, with whether there are timers left. Without a slot or a timer
there is no transaction, which the caller asserts. -/
def xactRemoteCreate (conf : XactConf) (timers : Bool) (sqn : UInt32) (st : XactState) :
    Except Fault (PfcpXact × XactState) :=
  match st.pool.alloc with
  | (none, _) => .error .assertion
  | (some slot, pool) =>
    if timers = false then .error .assertion
    else
      let xact := newXact conf .remoteOriginator (pfcpSqnToXid sqn) slot
      .ok (xact, { st with pool, remoteList := st.remoteList ++ [xact] })

/-! ## Reception -/

inductive XactRv
  | ok
  | error
  | retry
  deriving DecidableEq

namespace PfcpXact

variable (xact : PfcpXact) (type : UInt8)

/-- The end of `ogs_pfcp_xact_update_rx`: a message is the next step. -/
def accept : PfcpXact :=
  { xact with
    tmResponse := false
    seq := xact.seq ++ [{ type }] }

/-- `ogs_pfcp_xact_update_rx`, with the packets that it sends. -/
def updateRx : XactRv × PfcpXact × List (List UInt8) :=
  match xact.org, xactGetStage type with
  | .localOriginator, .initial => (.error, xact, [])
  | .localOriginator, .final =>
    if xact.step ≠ 1 then (.error, xact, []) else (.ok, xact.accept type, [])
  | .remoteOriginator, .initial =>
    if xact.requestType = type then
      if xact.step ≠ 1 ∧ xact.step ≠ 2 then (.error, xact, [])
      else
        match (xact.seqAt 1).pkbuf with
        | some pkbuf => (.retry, { xact with tmHolding := true }, [pkbuf])
        | none => (.retry, xact, [])
    else if xact.step ≠ 0 then (.error, xact, [])
    else (.ok, { xact.accept type with tmHolding := true }, [])
  | .remoteOriginator, .final =>
    if xact.step ≠ 2 then (.error, xact, []) else (.ok, xact.accept type, [])
  | _, .unknown => (.error, xact, [])

end PfcpXact

/-- What a received message leads to: the transaction that is handed to the upper layer, the
packets that are sent and the state behind. -/
structure XactReception where
  rv : XactRv
  xact : Option PfcpXact := none
  sent : List (List UInt8) := []
  st : XactState
  deriving DecidableEq

/-- The end of `ogs_pfcp_xact_receive` for the transaction that was found. -/
def xactUpdate (type : UInt8) (xact : PfcpXact) (st : XactState) : XactReception :=
  match xact.updateRx type with
  | (.error, _, sent) => { rv := .error, sent, st := st.delete xact }
  | (.retry, xact, sent) => { rv := .retry, sent, st := st.put xact }
  | (.ok, xact, sent) => { rv := .ok, xact := some xact, sent, st := st.put xact }

/-- The list that a message is looked up in. -/
def stageOrg : XactStage → Option XactOrg
  | .unknown => none
  | .initial => some .remoteOriginator
  | .final => some .localOriginator

/-- `ogs_pfcp_xact_receive`. A message of no transaction gets a new one that the peer has
started. -/
def xactReceive (conf : XactConf) (timers : Bool) (type : UInt8) (sqn : UInt32) (st : XactState) :
    Except Fault XactReception :=
  match stageOrg (xactGetStage type) with
  | none => .ok { rv := .error, st }
  | some org =>
    match st.find org (pfcpSqnToXid sqn) with
    | some xact => .ok (xactUpdate type xact st)
    | none => (xactRemoteCreate conf timers sqn st).map fun created =>
        xactUpdate type created.1 created.2

/-! ## Sending -/

namespace PfcpXact

variable (xact : PfcpXact)

/-- The end of `ogs_pfcp_xact_update_tx`: a message is the next step. -/
def push (type : UInt8) (seid : UInt64) (body : List UInt8) : PfcpXact :=
  { xact with seq := xact.seq ++ [⟨type, some (pfcpMessage type seid xact.xid body)⟩] }

/-- `ogs_pfcp_xact_update_tx`, which may turn the message down. -/
def updateTx (type : UInt8) (seid : UInt64) (body : List UInt8) : Except Fault (Option PfcpXact) :=
  match xact.org, xactGetStage type with
  | .localOriginator, .initial =>
    .ok (if xact.step ≠ 0 then none else some (xact.push type seid body))
  | .localOriginator, .final =>
    .ok (if xact.step ≠ 2 then none else some (xact.push type seid body))
  | .localOriginator, .unknown => .error .assertion
  | .remoteOriginator, .final =>
    .ok (if xact.step ≠ 1 then none else some (xact.push type seid body))
  | .remoteOriginator, _ => .ok none

end PfcpXact

/-- What the sending of a message leads to. -/
structure XactCommit where
  rv : XactRv
  sent : List (List UInt8) := []
  st : XactState
  deriving DecidableEq

/-- The end of `ogs_pfcp_xact_commit`: the message of the last step is sent. -/
def commitSend (xact : PfcpXact) (st : XactState) : Except Fault XactCommit :=
  match (xact.seqAt (xact.step - 1)).pkbuf with
  | none => .error .assertion
  | some pkbuf => .ok { rv := .ok, sent := [pkbuf], st }

/-- `ogs_pfcp_xact_commit` -/
def xactCommit (xact : PfcpXact) (st : XactState) : Except Fault XactCommit :=
  let failed : XactCommit := { rv := .error, st := st.delete xact }
  let finished : XactCommit := { rv := .ok, st := st.delete xact }
  if xact.step = 0 then .error .outOfBounds
  else
    match xact.org, xactGetStage (xact.seqAt (xact.step - 1)).type with
    | .localOriginator, .initial =>
      if xact.step ≠ 1 then .ok failed
      else
        let xact := { xact with tmResponse := true }
        commitSend xact (st.put xact)
    | .localOriginator, .final =>
      if xact.step ≠ 2 ∧ xact.step ≠ 3 then .ok failed
      else if xact.step = 2 then .ok finished
      else commitSend xact st
    | .remoteOriginator, .final =>
      if xact.step ≠ 2 ∧ xact.step ≠ 3 then .ok failed
      else if xact.step = 3 then .ok finished
      else commitSend xact st
    | _, _ => .ok failed

/-- The handler of a request answers it, as `ogs_pfcp_send_heartbeat_response` and its siblings
do. The transaction of a heartbeat is deleted then. -/
def sendResponse (type : UInt8) (seid : UInt64) (body : List UInt8) (xact : PfcpXact)
    (st : XactState) : Except Fault XactCommit := do
  match ← xact.updateTx type seid body with
  | none => return { rv := .error, st }
  | some xact =>
    let commit ← xactCommit xact (st.put xact)
    if type = heartbeatResponseType then return { commit with st := commit.st.delete xact }
    else return commit

/-! ## Timers -/

/-- `holding_timeout` -/
def holdingTimeout (xact : PfcpXact) (st : XactState) : XactState :=
  let rcount := xact.holdingRcount - 1
  if 0 < rcount then
    st.put
      { xact with
        holdingRcount := rcount
        tmHolding := true }
  else st.delete xact

end Quicup.Open5gs.Pfcp
