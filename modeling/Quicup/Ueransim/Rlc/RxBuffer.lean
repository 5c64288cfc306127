import Quicup.Core.Sorted
import Quicup.Ueransim.Rlc.Utils

/-!
# The reception buffer

The functions of `func.hpp` on the sorted list of received PDUs. A cursor into the list
is the part of the list from there on.
-/

namespace Quicup.Ueransim.Rlc

def firstItemWithSn (list : List AmdPdu) (sn : Int) : List AmdPdu :=
  list.dropWhile fun item => !decide (item.sn = sn)

/-- The items that the loops from the first item with the SN on visit. -/
def itemsWithSn (list : List AmdPdu) (sn : Int) : List AmdPdu :=
  (firstItemWithSn list sn).takeWhile fun item => decide (item.sn = sn)

/-- Sorted by SN, by offset under one SN. -/
def compareRx (snCompare : Int → Int → Int) (a b : AmdPdu) : Int :=
  if a.sn = b.sn then (a.so : Int) - b.so else snCompare a.sn b.sn

def insertToRxBuffer (list : List AmdPdu) (item : AmdPdu) (snCompare : Int → Int → Int) :
    List AmdPdu :=
  Sorted.insert (compareRx snCompare) item list

def isAlreadyReceived : List AmdPdu → (sn so size : Int) → Bool
  | [], _, _, size => size ≤ 0
  | item :: rest, sn, so, size =>
    if size ≤ 0 then true
    else if item.sn = sn then
      if item.so ≤ so ∧ so < item.so + item.size then
        let done := item.size - (so - item.so)
        isAlreadyReceived rest sn (so + done) (size - done)
      else if item.so ≤ so + size - 1 ∧ so + size - 1 < item.so + item.size then
        let done := size - (item.so - so)
        isAlreadyReceived rest sn so (size - done)
      else isAlreadyReceived rest sn so size
    else isAlreadyReceived rest sn so size

/-- Whether an octet before the end of a segment is missing, from the octet after `lastByte`. -/
def hasGap : List AmdPdu → (lastByte : Int) → Bool
  | [], _ => false
  | item :: rest, lastByte =>
    if item.so > lastByte + 1 then true
    else
      let newLastByte : Int := item.so + item.size - 1
      hasGap rest (if newLastByte > lastByte then newLastByte else lastByte)

def hasMissingSegment (list : List AmdPdu) (sn : Int) : Bool :=
  match itemsWithSn list sn with
  | [] => false
  | item :: rest => if item.isProcessed then false else hasGap (item :: rest) (-1)

/-- Whether a last segment is reached without a gap. -/
def reachesLast : List AmdPdu → (last : Int) → Bool
  | [], _ => false
  | item :: rest, last =>
    if item.so > last + 1 then false
    else if item.si.hasLast then true
    else
      let newLast : Int := item.so + item.size - 1
      reachesLast rest (if newLast > last then newLast else last)

def isAllSegmentsReceived (list : List AmdPdu) (sn : Int) : Bool :=
  match itemsWithSn list sn with
  | [] => false
  | item :: rest => if item.isProcessed then false else reachesLast (item :: rest) (-1)

def isDelivered (list : List AmdPdu) (sn : Int) : Bool :=
  match itemsWithSn list sn with
  | [] => false
  | item :: _ => item.isProcessed

def AmdPdu.processed (item : AmdPdu) : AmdPdu := { item with isProcessed := true }

def reassembleBufferLen : Nat := 32768

/-- What is written to the reassembly buffer, which is on the stack. -/
def reassembled (list : List AmdPdu) (sn : Int) : OctetString :=
  (itemsWithSn list sn).flatMap AmdPdu.data

/-- The items with the SN are processed then. -/
def markProcessed (list : List AmdPdu) (sn : Int) : List AmdPdu :=
  (list.takeWhile fun item => !decide (item.sn = sn)) ++
    (itemsWithSn list sn).map AmdPdu.processed ++
    (firstItemWithSn list sn).dropWhile fun item => decide (item.sn = sn)

def reassemble (list : List AmdPdu) (sn : Int) : Except Fault (List AmdPdu × OctetString) :=
  if (reassembled list sn).length > reassembleBufferLen then .error .outOfBounds
  else .ok (markProcessed list sn, reassembled list sn)

end Quicup.Ueransim.Rlc
