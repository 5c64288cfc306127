import Quicup.Ueransim.Rlc.Umd
import Quicup.Ueransim.Utils.BitBuffer

/-!
# AMD and STATUS PDUs

How `encoder.cpp` writes and reads the PDUs of an AM entity. A STATUS PDU is a string of bits. Its
blocks have parts that may be absent, and fill octets all the same.
-/

namespace Quicup.Ueransim.Rlc

open BitString BitBuffer

def amSnLength (isShortSn : Bool) : Nat := if isShortSn then 12 else 18

/-! ## AMD PDUs -/

/-- The first octet: the flags and the segment information over the high bits of the SN. -/
def amdOctet0 (isShortSn : Bool) (si : ESegmentInfo) (sn : Int) (p : Bool) : UInt8 :=
  let octet := (if p then 0b11000000 else 0b10000000) ||| si.value <<< 4
  UInt8.ofNat <|
    if isShortSn then octet ||| ((sn.toNat >>> 8) &&& 0b1111)
    else octet ||| ((sn.toNat >>> 16) &&& 0b111)

/-- The SN is not negative. -/
def encodeAmd (isShortSn : Bool) (si : ESegmentInfo) (so : Nat) (sn : Int) (data : OctetString)
    (p : Bool) : OctetString :=
  let octets := [amdOctet0 isShortSn si sn p]
  let octets := if ¬isShortSn then octets ++ [UInt8.ofNat (sn.toNat >>> 8)] else octets
  let octets := octets ++ [UInt8.ofNat sn.toNat]
  let octets :=
    if si.requiresSo then octets ++ [UInt8.ofNat (so >>> 8), UInt8.ofNat so] else octets
  octets ++ data

/-- The sequence number behind its high bits, and the index behind it. -/
def decodeAmdSn (isShortSn : Bool) (high : Nat) (data : OctetString) : Except Fault (Nat × Nat) := do
  let octet ← octetAt data 1
  let sn := high <<< 8 ||| octet.toNat
  if isShortSn then return (sn, 2)
  else
    let octet ← octetAt data 2
    return (sn <<< 8 ||| octet.toNat, 3)

/-- There is no PDU if the octets are those of a control PDU. -/
def decodeAmd (isShortSn : Bool) (data : OctetString) : Except Fault (Option AmdPdu) := do
  let octet ← octetAt data 0
  if octet.toNat >>> 7 ≠ 1 then return none
  else
    let p := decide (octet.toNat >>> 6 &&& 1 ≠ 0)
    let si := ESegmentInfo.ofBits (bitRange8 4 5 octet)
    let high := if isShortSn then bitRange8 0 3 octet else bitRange8 0 1 octet
    let (sn, index) ← decodeAmdSn isShortSn high data
    let (so, index) ← decodeUmdSo si data index
    return some { si, so, sn, data := data.drop index, p }

/-! ## STATUS PDUs -/

/-- The bits that are reserved behind the header. -/
def statusReserved (isShortSn : Bool) : Nat := if isShortSn then 7 else 1

/-- The bits that are reserved in a block. -/
def nackReserved (isShortSn : Bool) : Nat := if isShortSn then 1 else 3

/-- The flag E2 of a block, which has both offsets or none. -/
def writeE2 (block : NackBlock) : BitAccess Bool :=
  if block.soEnd = -1 ∨ block.soStart = -1 then
    if block.soEnd ≠ -1 ∨ block.soStart ≠ -1 then assertion
    else do
      write false
      return false
  else do
    write true
    return true

def writeSo (block : NackBlock) (e2 : Bool) : BitAccess Unit :=
  if e2 then do
    writeBits block.soStart 16
    writeBits block.soEnd 16
  else return

def writeRange (block : NackBlock) (e3 : Bool) : BitAccess Unit :=
  if e3 then writeBits block.nackRange 8 else return

/-- The body of the loop over the blocks, of which there are more or not. -/
def encodeNackBlock (isShortSn more : Bool) (block : NackBlock) : BitAccess Unit := do
  writeBits block.nackSn (amSnLength isShortSn)
  write more
  let e2 ← writeE2 block
  let e3 := decide (block.nackRange ≠ -1)
  write e3
  writeBits 0 (nackReserved isShortSn)
  writeSo block e2
  writeRange block e3

def encodeNackBlocks (isShortSn : Bool) : List NackBlock → BitAccess Unit
  | [] => return
  | block :: rest => do
    encodeNackBlock isShortSn (!rest.isEmpty) block
    encodeNackBlocks isShortSn rest

/-- The flag E1 of the header, and the blocks behind it. -/
def writeNackBlocks (isShortSn : Bool) (pdu : StatusPdu) : BitAccess Unit :=
  if pdu.nackBlocks.isEmpty then do
    write false
    writeBits 0 (statusReserved isShortSn)
  else do
    write true
    writeBits 0 (statusReserved isShortSn)
    encodeNackBlocks isShortSn pdu.nackBlocks

/-- What is written of a STATUS PDU in front of the fill bits. -/
def writeStatus (isShortSn : Bool) (pdu : StatusPdu) : BitAccess Unit := do
  write false
  writeBits 0 3
  writeBits pdu.ackSn (amSnLength isShortSn)
  writeNackBlocks isShortSn pdu

/-- The number of octets that are returned, and the memory of the buffer. -/
def encodeStatus (isShortSn : Bool) (pdu : StatusPdu) (buf : OctetString) :
    Except Fault (Nat × OctetString) := do
  let ((), buffer) ← (do writeStatus isShortSn pdu; octetAlign : BitAccess Unit) ⟨buf, 0⟩
  return (buffer.writtenOctets, buffer.data)

/-- The offsets of a block, if there are any. -/
def readSo (e2 : Bool) : BitAccess (Int × Int) :=
  if e2 then do
    let soStart ← readBits 16
    let soEnd ← readBits 16
    return (soStart, soEnd)
  else return (-1, -1)

def readRange (e3 : Bool) : BitAccess Int :=
  if e3 then do
    let nackRange ← readBits 8
    return nackRange
  else return -1

/-- The body of the loop, with the flag E1 of the block. -/
def decodeNackBlock (isShortSn : Bool) : BitAccess (NackBlock × Bool) := do
  let nackSn ← readBits (amSnLength isShortSn)
  let e1 ← read
  let e2 ← read
  let e3 ← read
  let _ ← readBits (nackReserved isShortSn)
  let (soStart, soEnd) ← readSo e2
  let nackRange ← readRange e3
  return (⟨nackSn, soStart, soEnd, nackRange⟩, e1)

/-- `while (e1)`, with so many turns at most. -/
def decodeNackBlocks (isShortSn : Bool) : Nat → Bool → BitAccess (List NackBlock)
  | _, false => return []
  | 0, true => fun _ => .error .hang
  | turns + 1, true => do
    let (block, e1) ← decodeNackBlock isShortSn
    let rest ← decodeNackBlocks isShortSn turns e1
    return block :: rest

/-- What is read of a STATUS PDU. -/
def readStatus (isShortSn : Bool) (turns : Nat) : BitAccess (Option StatusPdu) := do
  if ← read then return none
  else
    let pduType ← readBits 3
    if pduType ≠ 0 then return none
    else
      let ackSn ← readBits (amSnLength isShortSn)
      let e1 ← read
      let _ ← readBits (statusReserved isShortSn)
      let nackBlocks ← decodeNackBlocks isShortSn turns e1
      return some { ackSn, nackBlocks }

/-- A block takes more than an octet, so that there are fewer turns than octets. -/
def decodeStatus (isShortSn : Bool) (data : OctetString) : Except Fault (Option StatusPdu) := do
  let (pdu, _) ← readStatus isShortSn data.length ⟨data, 0⟩
  return pdu

end Quicup.Ueransim.Rlc
