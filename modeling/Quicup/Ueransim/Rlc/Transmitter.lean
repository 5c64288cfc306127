import Quicup.Core.Fallible
import Quicup.Core.Sorted
import Quicup.Ueransim.Rlc.Utils

/-!
# The transmitting side of an AM entity

The buffers of segments in `entity_am.cpp` and what moves segments between them. Segments
refer to SDUs on a heap, which count the segments that refer to them. A loop that removes
while it iterates keeps the segments that it does not remove.
-/

namespace Quicup.Ueransim.Rlc

/-- An SDU on the heap. It is deleted when its last segment is. -/
structure RlcSdu where
  sduId : Int
  data : OctetString
  sn : Int := -1
  retransmissionCount : Int := -1
  refCount : Int
  deriving DecidableEq, Repr, Inhabited

def RlcSdu.size (sdu : RlcSdu) : Nat := sdu.data.length

/-- A part of the SDU at the position `sdu` of the heap. -/
structure RlcSduSegment where
  sdu : Nat
  size : Nat
  so : Nat
  si : ESegmentInfo
  deriving DecidableEq

/-- The calls of the consumer that the transmitting side makes. An SDU is reported by its id. -/
inductive Indication
  | maxRetransmissionReached
  | sduSuccessfulDelivery (sdu : Nat) (sduId : Int)
  deriving DecidableEq

/-! ## Segmentation -/

def amdPduHeaderSize (snLength : Nat) (si : ESegmentInfo) : Nat :=
  2 + (if snLength = 18 then 1 else 0) + if si.hasFirst then 0 else 2

/-- The part of the segment that fits, and the rest. -/
def amPerformSegmentation (segment : RlcSduSegment) (maxSize snLength : Nat) :
    Option (RlcSduSegment × RlcSduSegment) :=
  let headerSize := amdPduHeaderSize snLength segment.si
  if headerSize + 1 > maxSize then none
  else
    let overflowed := headerSize + segment.size - maxSize
    let size := segment.size - overflowed
    some ({ segment with si := segment.si.asNotLast, size },
      { segment with
        si := segment.si.asNotFirst, size := overflowed, so := segment.so + size })

/-- What is submitted of a segment, and what stays in the buffer. -/
def segmentToFit (segment : RlcSduSegment) (maxSize snLength : Nat) :
    Option (RlcSduSegment × List RlcSduSegment) :=
  if amdPduHeaderSize snLength segment.si + segment.size > maxSize then
    (amPerformSegmentation segment maxSize snLength).map fun (front, next) => (front, [next])
  else some (segment, [])

/-- An end of -1 stands for the end of the SDU. -/
def soOverlap (start1 end1 start2 end2 : Int) : Bool :=
  if start1 < start2 then end1 = -1 ∨ end1 ≥ start2 else end2 = -1 ∨ start1 ≤ end2

/-- What the transmitting side of an `AmEntity` keeps, with the heap that it refers to and
the calls of its consumer so far. -/
structure AmTransmitter where
  txNext : Int := 0
  txNextAck : Int := 0
  pollSn : Int := 0
  pduWithoutPoll : Int := 0
  byteWithoutPoll : Int := 0
  txCurrentSize : Int := 0
  txBuffer : List RlcSduSegment := []
  retBuffer : List RlcSduSegment := []
  waitBuffer : List RlcSduSegment := []
  ackBuffer : List RlcSduSegment := []
  forcePoll : Bool := false
  tCurrent : Int := 0
  pollRetransmitTimer : RlcTimer
  heap : List RlcSdu := []
  consumer : List Indication := []
  deriving DecidableEq

namespace AmTransmitter

variable (c : AmConfig) (t : AmTransmitter)

/-- A transmitter as it is after `clearEntity`. -/
def cleared : AmTransmitter where
  pollRetransmitTimer := { period := c.pollRetransmitPeriod }

def sdu (i : Nat) : RlcSdu := t.heap.getD i default

/-! ## Comparison of SNs -/

def modulusTx (a : Int) : Int :=
  let r := a - t.txNextAck
  if r < 0 then r + c.snModulus else r

def snCompareTx (a b : Int) : Int := t.modulusTx c a - t.modulusTx c b

def windowStalling : Bool :=
  ¬ (t.snCompareTx c t.txNextAck t.txNext ≤ 0 ∧
    t.snCompareTx c t.txNext ((t.txNextAck + c.windowSize) % c.snModulus) < 0)

def pollControlForTransmissionOrRetransmission : Bool :=
  (t.txBuffer.isEmpty ∧ t.retBuffer.isEmpty) ∨ t.windowStalling c

def sduListCompare (a b : RlcSduSegment) : Int :=
  if (t.sdu a.sdu).sn = (t.sdu b.sdu).sn then (a.so : Int) - b.so
  else t.snCompareTx c (t.sdu a.sdu).sn (t.sdu b.sdu).sn

def insertToList (list : List RlcSduSegment) (segment : RlcSduSegment) : List RlcSduSegment :=
  Sorted.insert (t.sduListCompare c) segment list

/-! ## SDUs of the upper layer -/

def receiveSdu (data : OctetString) (sduId : Int) : AmTransmitter :=
  if data.length = 0 ∨ t.txCurrentSize + data.length > c.txMaxSize then t
  else
    { t with
      heap := t.heap ++ [{ sduId, data, refCount := 1 }]
      txBuffer := t.txBuffer ++
        [{ sdu := t.heap.length, size := data.length, so := 0, si := .full }]
      txCurrentSize := t.txCurrentSize + data.length }

/-- The removed list item is read after it was deleted. -/
def discardSdu (sduId : Int) : Except Fault AmTransmitter :=
  match t.txBuffer.find? fun segment => decide ((t.sdu segment.sdu).sduId = sduId) with
  | none => .ok t
  | some segment => if segment.si ≠ .full then .ok t else .error .nullDeref

/-- `clearAndDelete` reads the next pointer of an item that it has deleted. -/
def reestablishment : Except Fault AmTransmitter :=
  if t.txBuffer.isEmpty ∧ t.retBuffer.isEmpty ∧ t.waitBuffer.isEmpty ∧ t.ackBuffer.isEmpty then
    .ok { cleared c with
      heap := t.heap, consumer := t.consumer, pollRetransmitTimer := t.pollRetransmitTimer.stop }
  else .error .nullDeref

/-! ## Construction of AMD PDUs -/

def includePoll : AmTransmitter :=
  { t with
    pduWithoutPoll := 0
    byteWithoutPoll := 0
    pollSn := (t.txNext - 1 + c.snModulus) % c.snModulus
    pollRetransmitTimer := t.pollRetransmitTimer.start t.tCurrent }

/-- The PDU as it is decoded: the offset has 16 bits, where the header has one. -/
def amdPduOf (segment : RlcSduSegment) (p : Bool) : AmdPdu where
  si := segment.si
  so := if segment.si.requiresSo then segment.so % 2 ^ 16 else 0
  sn := (t.sdu segment.sdu).sn
  data := ((t.sdu segment.sdu).data.drop segment.so).take segment.size
  p := p

/-- The PDU, with the SDU that it is built from. -/
def generateAmdForSdu (segment : RlcSduSegment) (p : Bool) : AmTransmitter × Option (Nat × AmdPdu) :=
  (if p then t.includePoll c else t, some (segment.sdu, t.amdPduOf segment p))

/-- The segment waits for its acknowledgement. -/
def submit (segment : RlcSduSegment) (p : Bool) : AmTransmitter × Option (Nat × AmdPdu) :=
  let t := { t with waitBuffer := t.insertToList c t.waitBuffer segment }
  let p := p || t.pollControlForTransmissionOrRetransmission c || t.forcePoll
  { t with forcePoll := false }.generateAmdForSdu c segment p

/-- A segmented SDU has more segments. -/
def addRefs (i n : Nat) : AmTransmitter :=
  { t with heap := t.heap.modify i fun sdu => { sdu with refCount := sdu.refCount + n } }

def createRetPdu (maxSize : Nat) : AmTransmitter × Option (Nat × AmdPdu) :=
  match t.retBuffer with
  | [] => (t, none)
  | segment :: rest =>
    if amdPduHeaderSize c.snLength segment.si + 1 > maxSize then (t, none)
    else
      match segmentToFit segment maxSize c.snLength with
      | none => ({ t with retBuffer := rest }, none)
      | some (front, next) =>
        ({ t with retBuffer := next ++ rest }.addRefs segment.sdu next.length).submit c front false

/-- The SDU of the first segment gets the SN `txNext`. -/
def assignSn (i : Nat) : AmTransmitter :=
  { t with heap := t.heap.modify i fun sdu => { sdu with sn := t.txNext } }

/-- What is counted for a segment that is submitted for the first time. -/
def countNew (segment : RlcSduSegment) : AmTransmitter :=
  { t with
    txNext := if segment.si.hasLast then (t.txNext + 1) % c.snModulus else t.txNext
    pduWithoutPoll := t.pduWithoutPoll + 1
    byteWithoutPoll := t.byteWithoutPoll + segment.size }

/-- Whether the thresholds ask for a poll. -/
def reachesPollThreshold : Bool :=
  (c.pollPdu ≠ -1 ∧ t.pduWithoutPoll ≥ c.pollPdu) ∨
    (c.pollByte ≠ -1 ∧ t.byteWithoutPoll ≥ c.pollByte)

def createTxPdu (maxSize : Nat) : AmTransmitter × Option (Nat × AmdPdu) :=
  if t.windowStalling c then (t, none)
  else
    match t.txBuffer with
    | [] => (t, none)
    | segment :: rest =>
      if amdPduHeaderSize c.snLength segment.si + 1 > maxSize then (t, none)
      else
        let t := t.assignSn segment.sdu
        match segmentToFit segment maxSize c.snLength with
        | none => ({ t with txBuffer := rest }, none)
        | some (front, next) =>
          let t := { t with txBuffer := next ++ rest }.addRefs segment.sdu next.length
          let t := t.countNew c front
          t.submit c front (t.reachesPollThreshold c)

/-- `createPdu` when no STATUS PDU is built. -/
def createAmdPdu (maxSize : Nat) : AmTransmitter × Option (Nat × AmdPdu) :=
  match t.createRetPdu c maxSize with
  | (t, some pdu) => (t, some pdu)
  | (t, none) => t.createTxPdu c maxSize

/-! ## Reception of STATUS PDUs -/

/-- The SDUs of the segments, each SN once, have one retransmission less. -/
def uncountRetransmissions : List RlcSduSegment → (alreadyDec : List Int) → AmTransmitter →
    AmTransmitter
  | [], _, t => t
  | segment :: rest, alreadyDec, t =>
    let sn := (t.sdu segment.sdu).sn
    if sn ∈ alreadyDec then uncountRetransmissions rest alreadyDec t
    else
      uncountRetransmissions rest (sn :: alreadyDec)
        { t with
          heap := t.heap.modify segment.sdu fun sdu =>
            { sdu with retransmissionCount := sdu.retransmissionCount - 1 } }

def insertAllToAck (segments : List RlcSduSegment) : AmTransmitter :=
  { t with ackBuffer := segments.foldl (t.insertToList c) t.ackBuffer }

def isBelow (ackSn : Int) (segment : RlcSduSegment) : Bool :=
  t.snCompareTx c (t.sdu segment.sdu).sn ackSn < 0

def ackReceived (ackSn : Int) : AmTransmitter :=
  let waiting := t.waitBuffer.filter (t.isBelow c ackSn)
  let t := { t with
    waitBuffer := t.waitBuffer.filter fun segment => !t.isBelow c ackSn segment }
  let t := t.insertAllToAck c waiting
  let retransmitted := t.retBuffer.filter (t.isBelow c ackSn)
  let t := { t with retBuffer := t.retBuffer.filter fun segment => !t.isBelow c ackSn segment }
  (uncountRetransmissions retransmitted [] t).insertAllToAck c retransmitted

def countRetransmission (i : Nat) : AmTransmitter :=
  let t := { t with
    heap := t.heap.modify i fun sdu =>
      { sdu with retransmissionCount := sdu.retransmissionCount + 1 } }
  if (t.sdu i).retransmissionCount ≥ c.maxRetThreshold then
    { t with consumer := t.consumer ++ [.maxRetransmissionReached] }
  else t

def considerRetransmission (segment : RlcSduSegment) (updateRetX : Bool) : AmTransmitter :=
  let t := if updateRetX then t.countRetransmission c segment.sdu else t
  { t with retBuffer := t.insertToList c t.retBuffer segment }

/-- Consider segments of one SN, which counts once. -/
def retransmit : List RlcSduSegment → (updateRetX : Bool) → AmTransmitter → AmTransmitter
  | [], _, t => t
  | segment :: rest, updateRetX, t =>
    retransmit rest false (t.considerRetransmission c segment updateRetX)

/-- The segment has octets that are reported as missing. -/
def isNacked (nackSn soStart soEnd : Int) (segment : RlcSduSegment) : Bool :=
  (t.sdu segment.sdu).sn = nackSn ∧
    soOverlap soStart soEnd segment.so (segment.so + segment.size - 1)

def nackReceived (nackSn soStart soEnd : Int) (alreadyRetIncremented : List Int) :
    AmTransmitter × List Int :=
  if t.snCompareTx c t.txNextAck nackSn > 0 ∨ t.snCompareTx c nackSn t.txNext ≥ 0 then
    (t, alreadyRetIncremented)
  else
    let nacked := t.waitBuffer.filter (t.isNacked nackSn soStart soEnd) ++
      t.ackBuffer.filter (t.isNacked nackSn soStart soEnd)
    let kept := { t with
      waitBuffer := t.waitBuffer.filter fun segment => !t.isNacked nackSn soStart soEnd segment
      ackBuffer := t.ackBuffer.filter fun segment => !t.isNacked nackSn soStart soEnd segment }
    (retransmit c nacked (nackSn ∉ alreadyRetIncremented) kept,
      if nacked.isEmpty then alreadyRetIncremented else nackSn :: alreadyRetIncremented)

def stopPollRetransmit : AmTransmitter :=
  { t with pollRetransmitTimer := t.pollRetransmitTimer.stop }

/-- What the SN `i` behind the first SN of a block is reported to miss. -/
def nackOf (block : NackBlock) (i : Nat) (alreadyRetIncremented : List Int) :
    AmTransmitter × List Int :=
  t.nackReceived c ((block.nackSn + i) % c.snModulus) (if i = 0 then block.firstSo else 0)
    (if (i : Int) = block.range - 1 then block.lastSo else -1) alreadyRetIncremented

def nackBlockReceived (block : NackBlock) (alreadyRetIncremented : List Int) :
    AmTransmitter × List Int :=
  let (t, alreadyRetIncremented) := (List.range block.range.toNat).foldl
    (fun (t, already) i => nackOf c t block i already) (t, alreadyRetIncremented)
  if t.snCompareTx c block.nackSn t.pollSn ≤ 0 ∧
      t.snCompareTx c t.pollSn ((block.nackSn + block.range) % c.snModulus) < 0 then
    (t.stopPollRetransmit, alreadyRetIncremented)
  else (t, alreadyRetIncremented)

def areAllSegmentsInAck (sn : Int) : Bool :=
  let upTo := t.ackBuffer.takeWhile fun segment =>
    decide (¬ t.snCompareTx c (t.sdu segment.sdu).sn sn > 0)
  match upTo.filter fun segment => decide (t.snCompareTx c (t.sdu segment.sdu).sn sn = 0) with
  | [] => false
  | first :: rest => ((first :: rest).length : Int) = (t.sdu first.sdu).refCount

/-- Delete a segment. -/
def release (heap : List RlcSdu) (segment : RlcSduSegment) : List RlcSdu :=
  heap.modify segment.sdu fun sdu => { sdu with refCount := sdu.refCount - 1 }

/-- Report the SDU of the first segment and delete the segments with its SN. -/
def indicateSuccess (first : RlcSduSegment) : AmTransmitter :=
  let hasSn (segment : RlcSduSegment) : Bool :=
    (t.sdu segment.sdu).sn = (t.sdu first.sdu).sn
  { t with
    txCurrentSize := t.txCurrentSize - (t.sdu first.sdu).size
    consumer := t.consumer ++ [.sduSuccessfulDelivery first.sdu (t.sdu first.sdu).sduId]
    heap := (t.ackBuffer.takeWhile hasSn).foldl release t.heap
    ackBuffer := t.ackBuffer.dropWhile hasSn
    txNextAck := (t.txNextAck + 1) % c.snModulus }

/-- Every turn deletes a segment. -/
def checkForSuccessIndication : Nat → AmTransmitter → AmTransmitter
  | 0, t => t
  | turns + 1, t =>
    match t.ackBuffer with
    | [] => t
    | first :: _ =>
      if (t.sdu first.sdu).sn = t.txNextAck ∧ t.areAllSegmentsInAck c (t.sdu first.sdu).sn then
        checkForSuccessIndication turns (t.indicateSuccess c first)
      else t

def receiveStatusPdu (pdu : StatusPdu) : AmTransmitter :=
  let t := if t.snCompareTx c t.pollSn pdu.ackSn < 0 then t.stopPollRetransmit else t
  let t := t.ackReceived c pdu.ackSn
  let (t, _) := pdu.nackBlocks.foldl
    (fun (t, already) block => nackBlockReceived c t block already) (t, [])
  checkForSuccessIndication c t.ackBuffer.length t

/-! ## Timers -/

/-- The SN of the SDU that is considered for retransmission. -/
def snToRetransmit : Option Int :=
  let highest := (t.txNext - 1 + c.snModulus) % c.snModulus
  let item := t.waitBuffer.find? fun segment => decide ((t.sdu segment.sdu).sn = highest)
  (item.or t.waitBuffer.head?).map fun segment => (t.sdu segment.sdu).sn

/-- Consider all segments of the SN that wait, up to the first one of a higher SN. -/
def retransmitSn (sn : Int) : AmTransmitter :=
  let upTo (segment : RlcSduSegment) : Bool := ¬ t.snCompareTx c (t.sdu segment.sdu).sn sn > 0
  let hasSn (segment : RlcSduSegment) : Bool := t.snCompareTx c (t.sdu segment.sdu).sn sn = 0
  let kept := { t with
    waitBuffer := ((t.waitBuffer.takeWhile upTo).filter fun segment => !hasSn segment) ++
      t.waitBuffer.dropWhile upTo }
  retransmit c ((t.waitBuffer.takeWhile upTo).filter hasSn) true kept

def actionsOnPollRetransmitTimerExpired : AmTransmitter :=
  let t :=
    if t.pollControlForTransmissionOrRetransmission c then
      match t.snToRetransmit c with
      | none => t
      | some sn => t.retransmitSn c sn
    else t
  { t with forcePoll := true }

def timerCycle (currentTime : Int) : AmTransmitter :=
  let t := { t with tCurrent := currentTime }
  if t.pollRetransmitTimer.expires currentTime then
    t.stopPollRetransmit.actionsOnPollRetransmitTimerExpired c
  else t

end AmTransmitter

end Quicup.Ueransim.Rlc
