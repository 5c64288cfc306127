import Quicup.Ueransim.Utils.Octets

/-!
# Data of the RLC entities

Segment information, PDUs, blocks and timers of `lib/rlc`. A timer is stopped when it was
started at time zero.
-/

namespace Quicup.Ueransim.Rlc

inductive ESegmentInfo
  | full
  | first
  | last
  | middle
  deriving DecidableEq

namespace ESegmentInfo

def hasFirst (si : ESegmentInfo) : Bool := si = full ∨ si = first

def hasLast (si : ESegmentInfo) : Bool := si = full ∨ si = last

def requiresSo (si : ESegmentInfo) : Bool := si = last ∨ si = middle

def asNotLast : ESegmentInfo → ESegmentInfo
  | last => middle
  | full => first
  | si => si

def asNotFirst : ESegmentInfo → ESegmentInfo
  | first => middle
  | full => last
  | si => si

theorem requiresSo_eq (si : ESegmentInfo) : si.requiresSo = !si.hasFirst := by
  cases si <;> rfl

@[simp] theorem hasLast_asNotLast (si : ESegmentInfo) : si.asNotLast.hasLast = false := by
  cases si <;> rfl

@[simp] theorem hasFirst_asNotLast (si : ESegmentInfo) : si.asNotLast.hasFirst = si.hasFirst := by
  cases si <;> rfl

@[simp] theorem hasLast_asNotFirst (si : ESegmentInfo) : si.asNotFirst.hasLast = si.hasLast := by
  cases si <;> rfl

@[simp] theorem hasFirst_asNotFirst (si : ESegmentInfo) : si.asNotFirst.hasFirst = false := by
  cases si <;> rfl

end ESegmentInfo

/-- A received PDU. The offset is zero where the header has none. -/
structure AmdPdu where
  si : ESegmentInfo
  so : Nat
  sn : Int
  data : OctetString
  isProcessed : Bool := false
  p : Bool := false
  deriving DecidableEq

def AmdPdu.size (pdu : AmdPdu) : Nat := pdu.data.length

/-- The offset behind the last octet. -/
def AmdPdu.stop (pdu : AmdPdu) : Nat := pdu.so + pdu.size

/-- A block of a STATUS PDU, where -1 stands for a part that is absent. -/
structure NackBlock where
  nackSn : Int
  soStart : Int
  soEnd : Int
  nackRange : Int
  deriving DecidableEq

namespace NackBlock

/-- How many SNs the block is about, to its receiver. -/
def range (block : NackBlock) : Int := if block.nackRange = -1 then 1 else block.nackRange

/-- The first missing octet of the first SN. -/
def firstSo (block : NackBlock) : Int :=
  if block.soStart = -1 ∧ block.soEnd = -1 then 0 else block.soStart

/-- The last missing octet of the last SN, -1 for all octets. -/
def lastSo (block : NackBlock) : Int :=
  if block.soStart = -1 ∧ block.soEnd = -1 then -1
  else if block.soEnd = 0xffff then -1
  else block.soEnd

/-- The octet of the SN is reported as missing. -/
def Covers (m : Int) (block : NackBlock) (sn : Int) (b : Nat) : Prop :=
  ∃ i, 0 ≤ i ∧ i < block.range ∧ sn = (block.nackSn + i) % m ∧ (i = 0 → block.firstSo ≤ b) ∧
    (i = block.range - 1 → block.lastSo = -1 ∨ b ≤ block.lastSo)

end NackBlock

structure StatusPdu where
  ackSn : Int
  nackBlocks : List NackBlock := []
  deriving DecidableEq

/-- The octet of the SN is reported as missing by one of the blocks. -/
def StatusPdu.Nacks (m : Int) (pdu : StatusPdu) (sn : Int) (b : Nat) : Prop :=
  ∃ block ∈ pdu.nackBlocks, block.Covers m sn b

/-- A missing block and where the search for the next one resumes, -1 for nowhere. -/
structure MissingBlock where
  snStart : Int
  soStart : Int
  snEnd : Int
  soEnd : Int
  snNext : Int
  soNext : Int
  deriving DecidableEq

structure RlcTimer where
  period : Int
  startedAt : Int := 0
  deriving DecidableEq

namespace RlcTimer

def start (timer : RlcTimer) (currentTime : Int) : RlcTimer :=
  { timer with startedAt := currentTime }

def stop (timer : RlcTimer) : RlcTimer := { timer with startedAt := 0 }

def isRunning (timer : RlcTimer) : Bool := timer.startedAt ≠ 0

def stoppedOrExpired (timer : RlcTimer) (currentTime : Int) : Bool :=
  ¬ timer.isRunning ∨ currentTime - timer.startedAt > timer.period

/-- Whether the timer has just expired. It is reset then. -/
def expires (timer : RlcTimer) (currentTime : Int) : Bool :=
  timer.isRunning ∧ currentTime > timer.startedAt + timer.period

end RlcTimer

/-- The parameters of an entity. A poll threshold of -1 is infinite. -/
structure AmConfig where
  snLength : Nat
  txMaxSize : Nat
  rxMaxSize : Nat
  pollPdu : Int
  pollByte : Int
  maxRetThreshold : Int
  pollRetransmitPeriod : Int
  reassemblyPeriod : Int
  statusProhibitPeriod : Int
  snLength_eq : snLength = 12 ∨ snLength = 18

namespace AmConfig

def snModulus (c : AmConfig) : Int := 2 ^ c.snLength

def windowSize (c : AmConfig) : Int := c.snModulus / 2

/-- The parameters of `test.cpp`. -/
def test : AmConfig where
  snLength := 12
  txMaxSize := 1024 * 32
  rxMaxSize := 1024 * 32
  pollPdu := -1
  pollByte := -1
  maxRetThreshold := 8
  pollRetransmitPeriod := 400
  reassemblyPeriod := 400
  statusProhibitPeriod := 400
  snLength_eq := .inl rfl

theorem snModulus_eq (c : AmConfig) : c.snModulus = 2 * c.windowSize := by
  rcases c.snLength_eq with h | h <;> simp [windowSize, snModulus, h]

theorem two_lt_windowSize (c : AmConfig) : 2 < c.windowSize := by
  rcases c.snLength_eq with h | h <;> simp [windowSize, snModulus, h]

theorem snModulus_pos (c : AmConfig) : 0 < c.snModulus := by
  have := c.snModulus_eq
  have := c.two_lt_windowSize
  omega

end AmConfig

end Quicup.Ueransim.Rlc
