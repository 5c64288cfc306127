import Quicup.Core.System
import Quicup.Ueransim.Rlc.Receiver
import Quicup.Ueransim.Rlc.Umd

/-!
# The receiving side of an UM entity

The reception of UMD PDUs and the expiry of t-Reassembly in `entity_um.cpp`. The two start
the timer under the same condition, but only one of them compares modulo the SNs.
-/

namespace Quicup.Ueransim.Rlc

/-- The list without the PDUs whose SN satisfies the predicate. -/
def discardRxPduIf (list : List UmdPdu) (predicate : Int → Bool) : List UmdPdu :=
  list.filter fun item => !predicate item.sn

/-- The size of what is discarded. Processed PDUs are not counted any more. -/
def discardedSize (list : List UmdPdu) (predicate : Int → Bool) : Nat :=
  ((list.filter fun item => predicate item.sn && !item.isProcessed).map AmdPdu.size).sum

/-- What the receiving side of an `UmEntity` keeps, with the time of the last tick. -/
structure UmReceiver where
  rxCurrentSize : Int := 0
  rxBuffer : List UmdPdu := []
  rxNextReassembly : Int := 0
  rxNextHighest : Int := 0
  rxTimerTrigger : Int := 0
  tCurrent : Int := 0
  reassemblyTimer : RlcTimer
  deriving DecidableEq

namespace UmReceiver

variable (c : UmConfig) (r : UmReceiver)

/-- A receiver as it is after `clearEntity`. -/
def cleared : UmReceiver where
  reassemblyTimer := { period := c.reassemblyPeriod }

def modulusRx (num : Int) : Int :=
  let r' := num - (r.rxNextHighest - c.windowSize)
  (if r' < 0 then r' + c.snModulus else r').tmod c.snModulus

def snCompareRx (a b : Int) : Int := r.modulusRx c a - r.modulusRx c b

/-! ## Reception -/

/-- `RX_Next_Reassembly` behind the delivery of the SDU with the SN `x`. -/
def reassemblyBehind (rxBuffer : List UmdPdu) (x : Int) : Except Fault Int :=
  if x = r.rxNextReassembly then
    skipDelivered c.snModulus rxBuffer c.snModulus.toNat r.rxNextReassembly
  else .ok r.rxNextReassembly

/-- Reassemble the SDU and move `RX_Next_Reassembly`. -/
def deliver (x : Int) : Except Fault (UmReceiver × OctetString) := do
  let (rxBuffer, sdu) ← reassemble r.rxBuffer x
  let rxNextReassembly ← r.reassemblyBehind c rxBuffer x
  return ({ r with
    rxBuffer, rxNextReassembly, rxCurrentSize := r.rxCurrentSize - sdu.length }, sdu)

def updateNextHighest (x : Int) : UmReceiver :=
  { r with rxNextHighest := (x + 1) % c.snModulus }

/-- Discard the PDUs that fall outside of the reassembly window. -/
def discardOutside : UmReceiver :=
  let outside (sn : Int) : Bool := r.snCompareRx c sn r.rxNextHighest ≥ 0
  { r with
    rxBuffer := discardRxPduIf r.rxBuffer outside
    rxCurrentSize := r.rxCurrentSize - discardedSize r.rxBuffer outside }

/-- `RX_Next_Reassembly` is taken into the window. -/
def reassemblyInside : Except Fault UmReceiver :=
  if r.snCompareRx c r.rxNextReassembly r.rxNextHighest ≥ 0 then do
    let n := (r.rxNextHighest - c.windowSize + c.snModulus) % c.snModulus
    let rxNextReassembly ← skipDelivered c.snModulus r.rxBuffer c.snModulus.toNat n
    return { r with rxNextReassembly }
  else .ok r

/-- The window moves to a PDU outside of it. -/
def moveWindow (x : Int) : Except Fault UmReceiver :=
  ((r.updateNextHighest c x).discardOutside c).reassemblyInside c

/-- Whether t-Reassembly, which is running, is to be stopped. -/
def stopsReassembly : Bool :=
  r.snCompareRx c r.rxTimerTrigger r.rxNextReassembly ≤ 0 ∨
    r.snCompareRx c r.rxTimerTrigger r.rxNextHighest > 0 ∨
    (r.rxNextHighest = (r.rxNextReassembly + 1) % c.snModulus ∧
      ¬ hasMissingSegment r.rxBuffer r.rxNextReassembly)

def stopReassembly : UmReceiver :=
  if r.reassemblyTimer.isRunning ∧ r.stopsReassembly c then
    { r with reassemblyTimer := r.reassemblyTimer.stop }
  else r

def startReassembly : UmReceiver :=
  { r with
    reassemblyTimer := r.reassemblyTimer.start r.tCurrent
    rxTimerTrigger := r.rxNextHighest }

/-- Whether something is missing below `RX_Next_Highest`. -/
def missesBelowHighest : Bool :=
  r.snCompareRx c r.rxNextHighest ((r.rxNextReassembly + 1) % c.snModulus) > 0 ∨
    (r.rxNextHighest = (r.rxNextReassembly + 1) % c.snModulus ∧
      hasMissingSegment r.rxBuffer r.rxNextReassembly)

/-- The last two steps of `actionsOnReception`, about t-Reassembly. -/
def updateReassembly : UmReceiver :=
  let r := r.stopReassembly c
  if ¬ r.reassemblyTimer.isRunning ∧ r.missesBelowHighest c then r.startReassembly else r

/-- The SDU that is delivered, if one is. -/
def actionsOnReception (x : Int) : Except Fault (UmReceiver × Option OctetString) :=
  if isAllSegmentsReceived r.rxBuffer x then do
    let (r, sdu) ← r.deliver c x
    return (r.updateReassembly c, if 0 < sdu.length then some sdu else none)
  else if r.snCompareRx c x r.rxNextHighest ≥ 0 then do
    let r ← r.moveWindow c x
    return (r.updateReassembly c, none)
  else .ok (r.updateReassembly c, none)

/-- The checks that discard a segment. -/
def discards (pdu : UmdPdu) : Bool :=
  (pdu.si.requiresSo ∧ pdu.so = 0) ∨ r.snCompareRx c pdu.sn r.rxNextReassembly < 0 ∨
    r.rxCurrentSize + pdu.size > c.rxMaxSize

/-- Place the PDU in the reception buffer. -/
def place (pdu : UmdPdu) : UmReceiver :=
  { r with
    rxBuffer := insertToRxBuffer r.rxBuffer pdu (r.snCompareRx c)
    rxCurrentSize := r.rxCurrentSize + pdu.size }

/-- The reception of a PDU that was decoded. -/
def receiveUmdPdu (pdu : UmdPdu) : Except Fault (UmReceiver × Option OctetString) :=
  if pdu.size = 0 then .ok (r, none)
  else if pdu.si = .full then .ok (r, some pdu.data)
  else if r.discards c pdu then .ok (r, none)
  else (r.place c pdu).actionsOnReception c pdu.sn

def receivePdu (data : OctetString) : Except Fault (UmReceiver × Option OctetString) := do
  let pdu ← decodeUmd c.isShortSn data
  r.receiveUmdPdu c pdu

/-! ## Timers -/

/-- Discard the segments below `RX_Next_Reassembly`. -/
def discardBelow : UmReceiver :=
  let below (sn : Int) : Bool := r.snCompareRx c sn r.rxNextReassembly < 0
  { r with
    rxBuffer := discardRxPduIf r.rxBuffer below
    rxCurrentSize := r.rxCurrentSize - discardedSize r.rxBuffer below }

/-- What is missing below `RX_Next_Highest`, where the next SN is not taken modulo the SNs. -/
def missesOnExpiry : Bool :=
  r.snCompareRx c r.rxNextHighest ((r.rxNextReassembly + 1) % c.snModulus) > 0 ∨
    (r.rxNextHighest = r.rxNextReassembly + 1 ∧ hasMissingSegment r.rxBuffer r.rxNextReassembly)

def actionsOnReassemblyTimerExpired : Except Fault UmReceiver := do
  let rxNextReassembly ←
    skipDelivered c.snModulus r.rxBuffer c.snModulus.toNat r.rxTimerTrigger
  let r := { r with rxNextReassembly }.discardBelow c
  return if r.missesOnExpiry c then r.startReassembly else r

def timerCycle (currentTime : Int) : Except Fault UmReceiver :=
  let r := { r with tCurrent := currentTime }
  if r.reassemblyTimer.expires currentTime then
    { r with reassemblyTimer := r.reassemblyTimer.stop }.actionsOnReassemblyTimerExpired c
  else .ok r

end UmReceiver

end Quicup.Ueransim.Rlc
