import Quicup.Core.Circular
import Quicup.Core.Fallible
import Quicup.Ueransim.Rlc.RxBuffer

/-!
# The receiving side of an AM entity

The reception of AMD PDUs and the expiry of t-Reassembly in `entity_am.cpp`. A loop over
delivered SNs that visits every SN does not end. A PDU whose reception completes the SDU
at `RX_Next` is deleted before its poll bit is read; the value read then is arbitrary.
-/

namespace Quicup.Ueransim.Rlc

/-- What the receiving side of an `AmEntity` keeps, with the time of the last tick. -/
structure AmReceiver where
  rxCurrentSize : Int := 0
  rxBuffer : List AmdPdu := []
  rxNext : Int := 0
  rxNextHighest : Int := 0
  rxHighestStatus : Int := 0
  rxNextStatusTrigger : Int := 0
  statusTriggered : Bool := false
  tCurrent : Int := 0
  reassemblyTimer : RlcTimer
  statusProhibitTimer : RlcTimer
  deriving DecidableEq

/-- `while (IsDelivered(rxBuffer, n)) n = (n + 1) % snModulus`, given as many turns as
there are SNs. -/
def skipDelivered (m : Int) (rxBuffer : List AmdPdu) : Nat → Int → Except Fault Int
  | 0, _ => .error .hang
  | turns + 1, n =>
    if isDelivered rxBuffer n then skipDelivered m rxBuffer turns ((n + 1) % m) else .ok n

/-- Delete the processed SDUs that start at `rxNext`. Every turn deletes an item. -/
def deleteDelivered (m : Int) : Nat → List AmdPdu → Int → List AmdPdu × Int
  | 0, rxBuffer, rxNext => (rxBuffer, rxNext)
  | _ + 1, [], rxNext => ([], rxNext)
  | turns + 1, item :: rest, rxNext =>
    if item.isProcessed ∧ item.sn = rxNext then
      deleteDelivered m turns (rest.dropWhile fun item => decide (item.sn = rxNext))
        ((rxNext + 1) % m)
    else (item :: rest, rxNext)

namespace AmReceiver

variable (c : AmConfig) (r : AmReceiver)

/-- A receiver as it is after `clearEntity`. -/
def cleared : AmReceiver where
  reassemblyTimer := { period := c.reassemblyPeriod }
  statusProhibitTimer := { period := c.statusProhibitPeriod }

/-! ## Comparison of SNs -/

def modulusRx (a : Int) : Int :=
  let r' := a - r.rxNext
  if r' < 0 then r' + c.snModulus else r'

def snCompareRx (a b : Int) : Int := r.modulusRx c a - r.modulusRx c b

def isInReceiveWindow (sn : Int) : Bool := r.modulusRx c sn < c.windowSize

/-! ## Reception of AMD PDUs -/

/-- The checks that discard a PDU. -/
def discards (pdu : AmdPdu) : Bool :=
  (pdu.si.requiresSo ∧ pdu.so = 0) ∨ pdu.size = 0 ∨ r.rxCurrentSize + pdu.size > c.rxMaxSize ∨
    ¬ r.isInReceiveWindow c pdu.sn ∨ isAlreadyReceived r.rxBuffer pdu.sn pdu.so pdu.size

/-- Place the PDU in the reception buffer. -/
def place (pdu : AmdPdu) : AmReceiver :=
  { r with
    rxBuffer := insertToRxBuffer r.rxBuffer pdu (r.snCompareRx c)
    rxCurrentSize := r.rxCurrentSize + pdu.size }

def updateNextHighest (x : Int) : AmReceiver :=
  if r.snCompareRx c x r.rxNextHighest ≥ 0 then
    { r with rxNextHighest := (x + 1) % c.snModulus }
  else r

/-- `RX_Highest_Status` behind the delivery of the SDU with the SN `x`. -/
def statusBehind (rxBuffer : List AmdPdu) (x : Int) : Except Fault Int :=
  if x = r.rxHighestStatus then
    skipDelivered c.snModulus rxBuffer c.snModulus.toNat r.rxHighestStatus
  else .ok r.rxHighestStatus

/-- The buffer and `RX_Next` behind the delivery of the SDU with the SN `x`. -/
def nextBehind (rxBuffer : List AmdPdu) (x : Int) : List AmdPdu × Int :=
  if x = r.rxNext then deleteDelivered c.snModulus rxBuffer.length rxBuffer r.rxNext
  else (rxBuffer, r.rxNext)

/-- Reassemble the SDU and move `RX_Highest_Status` and `RX_Next`. -/
def deliver (x : Int) : Except Fault (AmReceiver × OctetString) := do
  let (marked, sdu) ← reassemble r.rxBuffer x
  let rxHighestStatus ← r.statusBehind c marked x
  return ({ r with
    rxBuffer := (r.nextBehind c marked x).1
    rxNext := (r.nextBehind c marked x).2
    rxHighestStatus
    rxCurrentSize := r.rxCurrentSize - sdu.length }, sdu)

/-- Whether t-Reassembly, which is running, is to be stopped. -/
def stopsReassembly : Bool :=
  r.rxNextStatusTrigger = r.rxNext ∨
    (r.rxNextStatusTrigger = (r.rxNext + 1) % c.snModulus ∧
      ¬ hasMissingSegment r.rxBuffer r.rxNext) ∨
    (¬ r.isInReceiveWindow c r.rxNextStatusTrigger ∧
      r.rxNextStatusTrigger ≠ (r.rxNext + c.windowSize) % c.snModulus)

def stopReassembly : AmReceiver :=
  if r.reassemblyTimer.isRunning ∧ r.stopsReassembly c then
    { r with reassemblyTimer := r.reassemblyTimer.stop }
  else r

/-- Whether something is missing before `RX_Next_Highest`, seen from the SN `n`. -/
def missesBelowHighest (n : Int) : Bool :=
  r.snCompareRx c r.rxNextHighest ((n + 1) % c.snModulus) > 0 ∨
    (r.rxNextHighest = (n + 1) % c.snModulus ∧ hasMissingSegment r.rxBuffer n)

def startReassembly : AmReceiver :=
  { r with
    reassemblyTimer := r.reassemblyTimer.start r.tCurrent
    rxNextStatusTrigger := r.rxNextHighest }

/-- The last two steps of `actionsOnReception`, about t-Reassembly. -/
def updateReassembly : AmReceiver :=
  let r := r.stopReassembly c
  if ¬ r.reassemblyTimer.isRunning ∧ r.missesBelowHighest c r.rxNext then r.startReassembly
  else r

/-- The SDU that is delivered, if one is. -/
def actionsOnReception (x : Int) : Except Fault (AmReceiver × Option OctetString) :=
  let r := r.updateNextHighest c x
  if isAllSegmentsReceived r.rxBuffer x then do
    let (r, sdu) ← r.deliver c x
    return (r.updateReassembly c, if 0 < sdu.length then some sdu else none)
  else .ok (r.updateReassembly c, none)

def triggerStatus : AmReceiver := { r with statusTriggered := true }

/-- A PDU with the poll bit triggers a STATUS report at once in all cases. A PDU that was
deleted has the poll bit `stale`. -/
def receiveAmdPdu (stale : Bool) (pdu : AmdPdu) :
    Except Fault (AmReceiver × Option OctetString) :=
  if r.discards c pdu then .ok (if pdu.p then r.triggerStatus else r, none)
  else do
    let (r, sdu) ← (r.place c pdu).actionsOnReception c pdu.sn
    let p := if itemsWithSn r.rxBuffer pdu.sn = [] then stale else pdu.p
    return (if p then r.triggerStatus else r, sdu)

/-! ## Timers -/

def actionsOnReassemblyTimerExpired : Except Fault AmReceiver := do
  let rxHighestStatus ←
    skipDelivered c.snModulus r.rxBuffer c.snModulus.toNat r.rxNextStatusTrigger
  let r := { r with rxHighestStatus }
  return if r.missesBelowHighest c r.rxHighestStatus then r.startReassembly else r

def timerCycle (currentTime : Int) : Except Fault AmReceiver :=
  let r := { r with tCurrent := currentTime }
  if r.reassemblyTimer.expires currentTime then
    { r with reassemblyTimer := r.reassemblyTimer.stop }.actionsOnReassemblyTimerExpired c
  else .ok r

/-- A STATUS PDU has been constructed. -/
def statusConstructed : AmReceiver :=
  { r with
    statusTriggered := false
    statusProhibitTimer := r.statusProhibitTimer.start r.tCurrent }

end AmReceiver

end Quicup.Ueransim.Rlc
