import Quicup.Ueransim.Rlc.Acknowledgement

/-!
# Two peers

An `AmEntity` with both of its sides: what it does with SDUs, PDUs, opportunities to send and ticks.
Two entities are connected by a lower layer that keeps every PDU that was ever sent: it may
lose, duplicate, delay and reorder PDUs as it likes. SDUs are numbered in the order in which
an entity accepted them.
-/

namespace Quicup.Ueransim.Rlc

/-! ## Entities -/

structure AmEntity where
  rx : AmReceiver
  tx : AmTransmitter
  deriving DecidableEq

/-- A PDU that an entity builds. An AMD PDU comes with the SDU that it is built from. -/
inductive Pdu
  | amd (sdu : Nat) (pdu : AmdPdu)
  | status (pdu : StatusPdu)
  deriving DecidableEq

namespace AmEntity

variable (c : AmConfig) (entity : AmEntity)

/-- An entity as it is after `clearEntity`. -/
def cleared : AmEntity where
  rx := .cleared c
  tx := .cleared c

def receiveSdu (data : OctetString) (sduId : Int) : AmEntity :=
  { entity with tx := entity.tx.receiveSdu c data sduId }

/-- A STATUS report has been triggered and is not prohibited. -/
def reportsStatus : Bool :=
  entity.rx.statusTriggered ∧ entity.rx.statusProhibitTimer.stoppedOrExpired entity.rx.tCurrent

/-- The STATUS PDU that comes before AMD PDUs. -/
def createReport (maxSize : Nat) : Except Fault (AmReceiver × Option StatusPdu) :=
  if entity.reportsStatus then entity.rx.createStatusPdu c maxSize false
  else .ok (entity.rx, none)

def createPdu (maxSize : Nat) : Except Fault (AmEntity × Option Pdu) := do
  let (rx, status) ← entity.createReport c maxSize
  match status with
  | some pdu => return ({ entity with rx }, some (.status pdu))
  | none =>
    return ({ rx, tx := (entity.tx.createAmdPdu c maxSize).1 },
      (entity.tx.createAmdPdu c maxSize).2.map fun (sdu, pdu) => .amd sdu pdu)

/-- The SDU that is delivered, if one is. -/
def receivePdu (stale : Bool) : Pdu → Except Fault (AmEntity × Option OctetString)
  | .amd _ pdu => do
    let (rx, sdu) ← entity.rx.receiveAmdPdu c stale pdu
    return ({ entity with rx }, sdu)
  | .status pdu => .ok ({ entity with tx := entity.tx.receiveStatusPdu c pdu }, none)

def timerCycle (currentTime : Int) : Except Fault AmEntity := do
  let rx ← entity.rx.timerCycle c currentTime
  return { rx, tx := entity.tx.timerCycle c currentTime }

end AmEntity

/-! ## Peers -/

/-- A PDU that was sent, with the number of its SDU. A STATUS PDU has the number of the first
SDU that it does not acknowledge. -/
structure Sent where
  number : Nat
  pdu : Pdu
  deriving DecidableEq

/-- An entity with the calls of `deliverSdu`, with how many SDUs come before its `RX_Next` and
with what it has sent. -/
structure Peer where
  entity : AmEntity
  delivered : List OctetString := []
  passed : Nat := 0
  sent : List Sent := []
  deriving DecidableEq

namespace Peer

variable (c : AmConfig) (peer : Peer)

def cleared : Peer where
  entity := .cleared c

/-- The number that a PDU is sent with. -/
def numberOf : Pdu → Nat
  | .amd sdu _ => sdu
  | .status pdu => peer.entity.rx.number c peer.passed pdu.ackSn

def receiveSdu (data : OctetString) (sduId : Int) : Peer :=
  { peer with entity := peer.entity.receiveSdu c data sduId }

def createPdu (maxSize : Nat) : Except Fault Peer := do
  let (entity, pdu) ← peer.entity.createPdu c maxSize
  return { peer with
    entity
    sent := peer.sent ++ (pdu.map fun pdu => { number := peer.numberOf c pdu, pdu }).toList }

def receivePdu (stale : Bool) (pdu : Pdu) : Except Fault Peer := do
  let (entity, sdu) ← peer.entity.receivePdu c stale pdu
  return { peer with
    entity
    delivered := peer.delivered ++ sdu.toList
    passed := peer.entity.rx.number c peer.passed entity.rx.rxNext }

def timerCycle (currentTime : Int) : Except Fault Peer := do
  let entity ← peer.entity.timerCycle c currentTime
  return { peer with entity }

end Peer

/-! ## The system -/

inductive Side
  | ue
  | gnb
  deriving DecidableEq

/-- The other side. -/
def Side.pair : Side → Side
  | ue => gnb
  | gnb => ue

structure Peers where
  ue : Peer
  gnb : Peer
  deriving DecidableEq

namespace Peers

variable (c : AmConfig) (peers : Peers)

def cleared : Peers where
  ue := .cleared c
  gnb := .cleared c

def peer : Side → Peer
  | .ue => peers.ue
  | .gnb => peers.gnb

def set (peer : Peer) : Side → Peers
  | .ue => { peers with ue := peer }
  | .gnb => { peers with gnb := peer }

/-- The lower layer delivers the PDU at a position of what the other side has sent. -/
inductive Event
  | receiveSdu (side : Side) (data : OctetString) (sduId : Int)
  | createPdu (side : Side) (maxSize : Nat)
  | receivePdu (side : Side) (position : Nat) (stale : Bool)
  | timerCycle (side : Side) (currentTime : Int)
  deriving DecidableEq

def next : Event → Except Fault Peers
  | .receiveSdu side data sduId => .ok (peers.set ((peers.peer side).receiveSdu c data sduId) side)
  | .createPdu side maxSize => do
    return peers.set (← (peers.peer side).createPdu c maxSize) side
  | .receivePdu side position stale =>
    match (peers.peer side.pair).sent[position]? with
    | none => .ok peers
    | some sent => do
      return peers.set (← (peers.peer side).receivePdu c stale sent.pdu) side
  | .timerCycle side currentTime => do
    return peers.set (← (peers.peer side).timerCycle c currentTime) side

/-- Nothing happens behind a fault. -/
def after (s : Except Fault Peers) (event : Event) : Except Fault Peers := do
  (← s).next c event

def system : System (Except Fault Peers) Event where
  init s := s = .ok (cleared c)
  step s event s' := s' = after c s event

end Peers

end Quicup.Ueransim.Rlc
