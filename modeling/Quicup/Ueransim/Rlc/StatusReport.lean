import Quicup.Ueransim.Rlc.Receiver

/-!
# STATUS PDUs

The search for missing blocks and the construction of STATUS PDUs. The search compares
SNs as plain numbers and not by their distance from `RX_Next`. A recursion that visits
more segments than are buffered does not end.
-/

namespace Quicup.Ueransim.Rlc

def AmdPdu.startSo (item : AmdPdu) : Int := if item.si.requiresSo then item.so else 0

/-- The first item of an SN that covers the octet `so`. -/
def firstItemIntersecting (list : List AmdPdu) (sn so : Int) : Option AmdPdu :=
  (itemsWithSn list sn).find? fun item =>
    decide (so ≥ item.startSo ∧ so < item.startSo + item.size)

/-- The missing block that starts at `startSn`, `startSo`, which no item covers. -/
def missingBlockFrom (rxBuffer : List AmdPdu) (startSn startSo endSn endSo snModulus : Int) :
    MissingBlock :=
  let atEnd : MissingBlock :=
    { snStart := startSn, soStart := startSo, snEnd := endSn, soEnd := endSo, snNext := -1
      soNext := -1 }
  let rest := rxBuffer.dropWhile fun item =>
    decide (item.sn < startSn ∨ (item.sn = startSn ∧ item.startSo < startSo))
  match rest with
  | [] => atEnd
  | item :: _ =>
    if item.sn > endSn ∨ (item.sn = endSn ∧ item.startSo > endSo) then atEnd
    else if item.startSo ≠ 0 then
      { snStart := startSn
        soStart := startSo
        snEnd := item.sn
        soEnd := item.startSo - 1
        snNext := if item.si.hasLast then (item.sn + 1) % snModulus else item.sn
        soNext := if item.si.hasLast then 0 else item.startSo + item.size }
    else
      { snStart := startSn
        soStart := startSo
        snEnd := (item.sn - 1 + snModulus) % snModulus
        soEnd := 0xFFFF
        snNext := item.sn
        soNext := 0 }

def findMissingBlock (rxBuffer : List AmdPdu) (endSn endSo snModulus : Int) :
    Nat → (startSn startSo : Int) → Except Fault (Option MissingBlock)
  | 0, _, _ => .error .hang
  | turns + 1, startSn, startSo =>
    if startSn > endSn ∨ (startSn = endSn ∧ startSo ≥ endSo) then .ok none
    else
      match firstItemIntersecting rxBuffer startSn startSo with
      | some segment =>
        let endPointSo := segment.startSo + segment.size
        if segment.sn = startSn ∧ endPointSo = startSo then .error .assertion
        else if segment.si.hasLast then
          findMissingBlock rxBuffer endSn endSo snModulus turns ((segment.sn + 1) % snModulus) 0
        else findMissingBlock rxBuffer endSn endSo snModulus turns segment.sn endPointSo
      | none => .ok (some (missingBlockFrom rxBuffer startSn startSo endSn endSo snModulus))

namespace NackBlock

/-- The octets of a block in an encoded STATUS PDU. -/
def encodedSize (isShortSn : Bool) (block : NackBlock) : Nat :=
  (if isShortSn then 2 else 3) + (if block.soStart = -1 ∨ block.soEnd = -1 then 0 else 4) +
    (if block.nackRange = -1 then 0 else 1)

end NackBlock

namespace StatusPdu

/-- The octets of the encoded PDU. -/
def encodedSize (isShortSn : Bool) (blocks : List NackBlock) : Nat :=
  3 + (blocks.map (NackBlock.encodedSize isShortSn)).sum

def calculatedSizeBufferLen : Nat := 32768

/-- The PDU is encoded to a buffer on the stack. -/
def calculatedSize (isShortSn : Bool) (blocks : List NackBlock) : Except Fault Nat :=
  if encodedSize isShortSn blocks > calculatedSizeBufferLen then .error .outOfBounds
  else .ok (encodedSize isShortSn blocks)

end StatusPdu

namespace AmReceiver

variable (c : AmConfig) (r : AmReceiver)

/-- The number of SNs from the start of a block to its end. -/
def missingRange (missing : MissingBlock) : Int :=
  if missing.snStart = missing.snEnd then -1
  else (missing.snEnd - missing.snStart + c.snModulus) % c.snModulus + 1

/-- A block whose range is more than 8 bits is cut. -/
def nackBlockOf (missing : MissingBlock) : NackBlock :=
  let whole : Bool := missing.soStart = 0 ∧ missing.soEnd = 0xFFFF
  if missingRange c missing > 255 then
    { nackSn := missing.snStart
      soStart := if whole then -1 else missing.soStart
      soEnd := if whole then -1 else 0xFFFF
      nackRange := 255 }
  else
    { nackSn := missing.snStart
      soStart := if whole then -1 else missing.soStart
      soEnd := if whole then -1 else missing.soEnd
      nackRange := missingRange c missing }

def isShortSn : Bool := c.snLength = 12

/-- Find the NACK blocks, until one does not fit. Every block takes an octet of `maxSize`
at least. -/
def findNackBlocks (maxSize : Nat) :
    Nat → (startSn startSo : Int) → List NackBlock → Except Fault (List NackBlock)
  | 0, _, _, _ => .error .hang
  | turns + 1, startSn, startSo, nackBlocks =>
    if r.snCompareRx c startSn r.rxHighestStatus ≥ 0 then .ok nackBlocks
    else do
      let missing ← findMissingBlock r.rxBuffer
        ((r.rxHighestStatus - 1 + c.snModulus) % c.snModulus) 0xFFFF c.snModulus
        (r.rxBuffer.length + 1) startSn startSo
      match missing with
      | none => return nackBlocks
      | some missing =>
        let more := nackBlocks ++ [nackBlockOf c missing]
        let size ← StatusPdu.calculatedSize (isShortSn c) more
        if size > maxSize then return nackBlocks
        else if missingRange c missing > 255 then
          findNackBlocks maxSize turns ((missing.snStart + 256) % c.snModulus) 0 more
        else if missing.soNext = -1 ∧ missing.snNext = -1 then return more
        else findNackBlocks maxSize turns missing.snNext missing.soNext more

/-- The SN behind the last processed PDU below `RX_Highest_Status`. -/
def findAckSn : Int :=
  let below := r.rxBuffer.takeWhile fun item =>
    ¬ r.snCompareRx c item.sn r.rxHighestStatus ≥ 0
  below.foldl (fun ackSn item =>
    if r.snCompareRx c item.sn r.rxNext ≥ 0 ∧ item.isProcessed then (item.sn + 1) % c.snModulus
    else ackSn) r.rxNext

/-- No PDU is built for a grant of less than three octets. -/
def createStatusPdu (maxSize : Nat) (noSideEffect : Bool) :
    Except Fault (AmReceiver × Option StatusPdu) :=
  if maxSize < 3 then .ok (r, none)
  else do
    let nackBlocks ← r.findNackBlocks c maxSize (maxSize + 1) r.rxNext 0 []
    let pdu : StatusPdu :=
      { ackSn := if noSideEffect then r.rxNext else r.findAckSn c, nackBlocks }
    return (if noSideEffect then r else r.statusConstructed, some pdu)

end AmReceiver

end Quicup.Ueransim.Rlc
