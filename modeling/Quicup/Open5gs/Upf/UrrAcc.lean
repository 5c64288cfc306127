import Quicup.Open5gs.Pfcp.RuleHandler

/-!
# Accumulators of usage

`context.c` of the UPF: a session has an accumulator for each ID of a URR. It counts the
packets of the URR, remembers what the last report has told, and has the timers that ask for a
report.
-/

namespace Quicup.Open5gs

open Pfcp

/-! ## Times -/

def ogsUsecPerSec : Int := 1000000

def ogs1970To1900SecDiff : Int := 2208988800

/-- `ogs_time_to_ntp32` -/
def ogsTimeToNtp32 (time : Int) : UInt32 := .ofInt (time.tdiv ogsUsecPerSec + ogs1970To1900SecDiff)

/-- `ogs_time_from_ntp32` -/
def ogsTimeFromNtp32 (ntpTimestamp : UInt32) : Int :=
  if (ntpTimestamp.toNat : Int) < ogs1970To1900SecDiff then 0
  else (ntpTimestamp.toNat - ogs1970To1900SecDiff) * ogsUsecPerSec

/-! ## Data -/

/-- The counters of an accumulator, of its last report and of a volume measurement. -/
@[ext] structure UsageCounters where
  totalOctets : UInt64 := 0
  ulOctets : UInt64 := 0
  dlOctets : UInt64 := 0
  totalPkts : UInt64 := 0
  ulPkts : UInt64 := 0
  dlPkts : UInt64 := 0
  deriving DecidableEq

/-- The triggers of a usage report that the UPF sets. -/
structure UsageReportTrigger where
  quotaValidityTime : Bool := false
  timeQuota : Bool := false
  timeThreshold : Bool := false
  volumeQuota : Bool := false
  volumeThreshold : Bool := false
  terminationReport : Bool := false
  deriving DecidableEq

/-- An element of `usage_report`. All flags of the volume measurement are set. -/
structure UsageReport where
  id : UInt32
  seqn : UInt32
  repTrigger : UsageReportTrigger := {}
  startTime : UInt32
  endTime : UInt32
  volMeasurement : UsageCounters
  durMeasurement : UInt32
  timeOfFirstPacket : UInt32
  timeOfLastPacket : UInt32
  deriving DecidableEq

/-- The URR of a timer, by its slot. -/
structure UrrTimer where
  urr : Nat
  running : Bool
  deriving DecidableEq

inductive UrrTimerKind
  | validityTime
  | timeQuota
  | timeThreshold
  deriving DecidableEq

/-- `upf_sess_urr_acc_t` -/
structure UpfSessUrrAcc where
  reportingEnabled : Bool := false
  timer : UrrTimerKind → Option UrrTimer := fun _ => none
  timeStart : UInt32 := 0
  reportSeqn : UInt32 := 0
  counters : UsageCounters := {}
  timeOfFirstPacket : Int := 0
  timeOfLastPacket : Int := 0
  lastReport : UsageCounters := {}
  lastReportTimestamp : Int := 0

/-- A URR in its slot. -/
structure SessUrr where
  slot : Nat
  id : UInt32
  rule : PfcpUrr
  deriving DecidableEq

/-- What the functions take from their surroundings: the readings of the clock, how many timers
are left and whether a report request can be sent. -/
structure UrrAccEnv where
  now : Nat → Int
  timers : Nat
  sends : Bool

/-! ## Triggers -/

namespace SessUrr

variable (urr : SessUrr)

/-- Whether the triggers of a URR ask for the reports of a timer. -/
def asks : UrrTimerKind → Bool
  | .validityTime => bit urr.rule.reptri6 128
  | .timeQuota => bit urr.rule.reptri6 2
  | .timeThreshold => bit urr.rule.reptri5 4

/-- The duration of a timer. -/
def duration : UrrTimerKind → UInt32
  | .validityTime => urr.rule.quotaValidityTime
  | .timeQuota => urr.rule.timeQuota
  | .timeThreshold => urr.rule.timeThreshold

def reachesVolumeQuota (vol : UInt64) : Bool :=
  bit urr.rule.reptri6 1 && bit urr.rule.volQuota.flags 1 &&
    decide (urr.rule.volQuota.totalVolume ≤ vol)

def reachesVolumeThreshold (vol : UInt64) : Bool :=
  bit urr.rule.reptri5 2 && bit urr.rule.volThreshold.flags 1 &&
    decide (urr.rule.volThreshold.totalVolume ≤ vol)

end SessUrr

/-! ## Counters -/

namespace UsageCounters

/-- A packet is counted. -/
def add (size : UInt64) (isUplink : Bool) (counters : UsageCounters) : UsageCounters where
  totalOctets := counters.totalOctets + size
  ulOctets := if isUplink then counters.ulOctets + size else counters.ulOctets
  dlOctets := if isUplink then counters.dlOctets else counters.dlOctets + size
  totalPkts := counters.totalPkts + 1
  ulPkts := if isUplink then counters.ulPkts + 1 else counters.ulPkts
  dlPkts := if isUplink then counters.dlPkts else counters.dlPkts + 1

/-- What has been counted since a report. -/
def since (counters last : UsageCounters) : UsageCounters where
  totalOctets := counters.totalOctets - last.totalOctets
  ulOctets := counters.ulOctets - last.ulOctets
  dlOctets := counters.dlOctets - last.dlOctets
  totalPkts := counters.totalPkts - last.totalPkts
  ulPkts := counters.ulPkts - last.ulPkts
  dlPkts := counters.dlPkts - last.dlPkts

end UsageCounters

/-! ## One accumulator -/

namespace UpfSessUrrAcc

variable (env : UrrAccEnv) (urr : SessUrr) (acc : UpfSessUrrAcc)

/-- The beginning of `upf_sess_urr_acc_add`. -/
def count (size : UInt64) (isUplink : Bool) : UpfSessUrrAcc :=
  { acc with
    counters := acc.counters.add size isUplink
    timeOfLastPacket := env.now 0
    timeOfFirstPacket := if acc.timeOfFirstPacket = 0 then env.now 0 else acc.timeOfFirstPacket }

/-- The octets that no report has told yet. -/
def unreportedOctets : UInt64 := acc.counters.totalOctets - acc.lastReport.totalOctets

/-- `upf_sess_urr_acc_fill_usage_report` -/
def fillUsageReport : UsageReport × UpfSessUrrAcc :=
  let now := env.now 1
  let lastReportTimestamp :=
    if acc.lastReportTimestamp ≠ 0 then acc.lastReportTimestamp else ogsTimeFromNtp32 acc.timeStart
  let volMeasurement := acc.counters.since acc.lastReport
  let durMeasurement : UInt32 :=
    if lastReportTimestamp ≤ now then
      .ofInt ((now - lastReportTimestamp + ogsUsecPerSec / 2).tdiv ogsUsecPerSec)
    else 0
  let lasts (kind : UrrTimerKind) : Bool := 0 < urr.duration kind ∧ urr.duration kind ≤ durMeasurement
  ({  id := urr.id
      seqn := acc.reportSeqn
      repTrigger :=
        { quotaValidityTime := lasts .validityTime
          timeQuota := lasts .timeQuota
          timeThreshold := lasts .timeThreshold
          volumeQuota := urr.reachesVolumeQuota volMeasurement.totalOctets
          volumeThreshold := urr.reachesVolumeThreshold volMeasurement.totalOctets }
      startTime := acc.timeStart
      endTime := ogsTimeToNtp32 now
      volMeasurement
      durMeasurement
      timeOfFirstPacket := ogsTimeToNtp32 acc.timeOfFirstPacket
      timeOfLastPacket := ogsTimeToNtp32 acc.timeOfLastPacket },
    { acc with reportSeqn := acc.reportSeqn + 1 })

/-- `upf_sess_urr_acc_snapshot` -/
def snapshot : UpfSessUrrAcc :=
  { acc with
    lastReport := acc.counters
    lastReportTimestamp := env.now 2 }

/-- A report is filled, and the counters are remembered. -/
def report : UsageReport × UpfSessUrrAcc :=
  let filled := acc.fillUsageReport env urr
  (filled.1, filled.2.snapshot env)

/-- A timer is started for so many seconds. It is made from those that are left if there is
none yet, and keeps its URR then. -/
def setupTimer (kind : UrrTimerKind) (state : Nat × UpfSessUrrAcc) :
    Except Fault (Nat × UpfSessUrrAcc) :=
  let started (slot timers : Nat) : Nat × UpfSessUrrAcc :=
    (timers,
      { state.2 with
        reportingEnabled := true
        timer := Function.update state.2.timer kind (some ⟨slot, true⟩) })
  match state.2.timer kind with
  | some timer => .ok (started timer.urr state.1)
  | none =>
    if state.1 = 0 then .error .assertion else .ok (started urr.slot (state.1 - 1))

/-- `upf_sess_urr_acc_validity_time_setup` -/
def validityTimeSetup : Nat × UpfSessUrrAcc → Except Fault (Nat × UpfSessUrrAcc) :=
  setupTimer urr .validityTime

/-- `upf_sess_urr_acc_time_quota_setup` -/
def timeQuotaSetup : Nat × UpfSessUrrAcc → Except Fault (Nat × UpfSessUrrAcc) :=
  setupTimer urr .timeQuota

/-- `upf_sess_urr_acc_time_threshold_setup` -/
def timeThresholdSetup : Nat × UpfSessUrrAcc → Except Fault (Nat × UpfSessUrrAcc) :=
  setupTimer urr .timeThreshold

/-- A timer is set up if its trigger is set and it has a duration. -/
def setupWanted (kind : UrrTimerKind)
    (setup : Nat × UpfSessUrrAcc → Except Fault (Nat × UpfSessUrrAcc)) (state : Nat × UpfSessUrrAcc) :
    Except Fault (Nat × UpfSessUrrAcc) :=
  if urr.asks kind ∧ 0 < urr.duration kind then setup state else .ok state

/-- `upf_sess_urr_acc_timers_setup` -/
def timersSetup : Except Fault UpfSessUrrAcc := do
  let started := { acc with timeStart := ogsTimeToNtp32 (env.now 3) }
  let state ← setupWanted urr .validityTime (validityTimeSetup urr) (env.timers, started)
  let state ← setupWanted urr .timeQuota (timeQuotaSetup urr) state
  let state ← setupWanted urr .timeThreshold (timeThresholdSetup urr) state
  return state.2

/-- A report is sent, and a new period starts. -/
def sendReport : Except Fault (UsageReport × UpfSessUrrAcc) := do
  let (report, acc) := acc.report env urr
  if env.sends = false then .error .assertion
  else return (report, ← acc.timersSetup env urr)

/-- `upf_sess_urr_acc_add`, with the report that it sends. -/
def add (size : UInt64) (isUplink : Bool) : Except Fault (Option UsageReport × UpfSessUrrAcc) := do
  let acc := acc.count env size isUplink
  let vol := acc.unreportedOctets
  if urr.reachesVolumeQuota vol || urr.reachesVolumeThreshold vol then
    let (report, acc) ← acc.sendReport env urr
    return (some report, acc)
  else return (none, acc)

/-- `upf_sess_urr_acc_timers_cb`, with the report that it sends. -/
def timersCb : Except Fault (Option UsageReport × UpfSessUrrAcc) := do
  if urr.asks .validityTime || urr.asks .timeQuota || urr.asks .timeThreshold then
    let (report, acc) ← acc.sendReport env urr
    return (some report, acc)
  else return (none, ← acc.timersSetup env urr)

/-- What a report that is sent does. -/
theorem sendReport_eq_ok {env : UrrAccEnv} {urr : SessUrr} {acc : UpfSessUrrAcc}
    {result : UsageReport × UpfSessUrrAcc}
    (h : acc.sendReport env urr = .ok result) :
    result.1 = (acc.report env urr).1 ∧
      (acc.report env urr).2.timersSetup env urr = .ok result.2 := by
  unfold sendReport at h
  dsimp only at h
  split at h
  · cases h
  · obtain ⟨acc', hsetup, h⟩ := Fallible.bind_eq_ok.mp h
    obtain rfl := Except.ok.inj h
    exact ⟨rfl, hsetup⟩

/-- The report of `upf_n4_build_session_deletion_response`. -/
def terminationReport : UsageReport × UpfSessUrrAcc :=
  let filled := acc.report env urr
  ({ filled.1 with repTrigger := { filled.1.repTrigger with terminationReport := true } }, filled.2)

end UpfSessUrrAcc

/-! ## The accumulators of a session -/

/-- The place of a URR in `urr_acc`. -/
def SessUrr.index (urr : SessUrr) : Nat := urr.id.toNat - 1

/-- A function of the accumulator of a URR. -/
def onUrrAcc {α : Type} (urr : SessUrr)
    (f : UpfSessUrrAcc → Except Fault (α × UpfSessUrrAcc)) (accs : Nat → UpfSessUrrAcc) :
    Except Fault (α × (Nat → UpfSessUrrAcc)) :=
  if validUrrId urr.id then
    (f (accs urr.index)).map fun result => (result.1, Function.update accs urr.index result.2)
  else .error .assertion

/-- What a function of the accumulator of a URR does. -/
theorem onUrrAcc_eq_ok {α : Type} {urr : SessUrr}
    {f : UpfSessUrrAcc → Except Fault (α × UpfSessUrrAcc)} {accs : Nat → UpfSessUrrAcc}
    {result : α × (Nat → UpfSessUrrAcc)} (h : onUrrAcc urr f accs = .ok result) :
    ∃ acc, f (accs urr.index) = .ok (result.1, acc) ∧
      result.2 = Function.update accs urr.index acc := by
  unfold onUrrAcc at h
  split at h
  · obtain ⟨done, hf, rfl⟩ := Fallible.map_eq_ok.mp h
    exact ⟨done.2, hf, rfl⟩
  · cases h

/-- The loop of `upf_n4_build_session_deletion_response` over the URRs of the session. -/
def terminationReports (env : UrrAccEnv) :
    List SessUrr → (Nat → UpfSessUrrAcc) → Except Fault (List UsageReport × (Nat → UpfSessUrrAcc))
  | [], accs => .ok ([], accs)
  | urr :: urrs, accs => do
    let (report, accs) ← onUrrAcc urr (fun acc => .ok (acc.terminationReport env urr)) accs
    let (reports, accs) ← terminationReports env urrs accs
    return (report :: reports, accs)

/-- The reports of `upf_n4_build_session_deletion_response`, for which the message has 16
elements. -/
def deletionReports (env : UrrAccEnv) (urrs : List SessUrr) (accs : Nat → UpfSessUrrAcc) :
    Except Fault (List UsageReport × (Nat → UpfSessUrrAcc)) :=
  if urrs.length ≤ ogsMaxNumOfUrr then terminationReports env urrs accs else .error .assertion

end Quicup.Open5gs
