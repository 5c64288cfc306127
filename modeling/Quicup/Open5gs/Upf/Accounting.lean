import Mathlib.Data.UInt
import Quicup.Core.System
import Quicup.Open5gs.Upf.UrrAcc

/-!
# Accounting of usage

What the reports of a URR tell, over all orders of packets, reports of volumes, reports of
timers and termination reports: nothing that has been counted is lost or told twice.
-/

namespace Quicup.Open5gs

open System Function

/-! ## Fields of the counters -/

/-- The six fields of the counters. -/
inductive UsageField
  | totalOctets
  | ulOctets
  | dlOctets
  | totalPkts
  | ulPkts
  | dlPkts
  deriving DecidableEq

namespace UsageCounters

def get (counters : UsageCounters) : UsageField → UInt64
  | .totalOctets => counters.totalOctets
  | .ulOctets => counters.ulOctets
  | .dlOctets => counters.dlOctets
  | .totalPkts => counters.totalPkts
  | .ulPkts => counters.ulPkts
  | .dlPkts => counters.dlPkts

@[simp] theorem get_since (counters last : UsageCounters) (field : UsageField) :
    (counters.since last).get field = counters.get field - last.get field := by
  cases field <;> rfl

end UsageCounters

/-- What a packet adds to a field. -/
def packetAmount (size : UInt64) (isUplink : Bool) : UsageField → Nat
  | .totalOctets => size.toNat
  | .ulOctets => if isUplink then size.toNat else 0
  | .dlOctets => if isUplink then 0 else size.toNat
  | .totalPkts => 1
  | .ulPkts => if isUplink then 1 else 0
  | .dlPkts => if isUplink then 0 else 1

theorem UsageCounters.get_add (size : UInt64) (isUplink : Bool) (counters : UsageCounters)
    (field : UsageField) :
    (counters.add size isUplink).get field =
      counters.get field + .ofNat (packetAmount size isUplink field) := by
  have hsize : UInt64.ofNat size.toNat = size := UInt64.ofNat_toNat
  have hzero (x : UInt64) : x + UInt64.ofNat 0 = x := UInt64.add_zero x
  cases field <;> cases isUplink <;> simp [get, add, packetAmount, hsize, hzero]

/-! ## Logs -/

/-- What has happened to an accumulator, with the newest entry first in a log. -/
inductive AccEntry
  | packet (size : UInt64) (isUplink : Bool)
  | report (report : UsageReport)
  deriving DecidableEq

/-- The reports of a log, from the first on. -/
def reportsOf : List AccEntry → List UsageReport
  | [] => []
  | .packet _ _ :: log => reportsOf log
  | .report report :: log => reportsOf log ++ [report]

/-- What the packets of a log add up to. -/
def counted (field : UsageField) : List AccEntry → Nat
  | [] => 0
  | .packet size isUplink :: log => counted field log + packetAmount size isUplink field
  | .report _ :: log => counted field log

/-- What the packets behind the last report add up to. -/
def unreported (field : UsageField) : List AccEntry → Nat
  | [] => 0
  | .packet size isUplink :: log => unreported field log + packetAmount size isUplink field
  | .report _ :: _ => 0

/-- No period between reports counts more than a counter can tell. -/
def PeriodsFit (field : UsageField) (log : List AccEntry) : Prop :=
  ∀ front back, log = front ++ back → unreported field back < 2 ^ 64

/-- A limit that a URR enables is reached. -/
def LimitReached (urr : SessUrr) (vol : Nat) : Prop :=
  (Pfcp.bit urr.rule.reptri6 1 ∧ Pfcp.bit urr.rule.volQuota.flags 1 ∧
      urr.rule.volQuota.totalVolume.toNat ≤ vol) ∨
    (Pfcp.bit urr.rule.reptri5 2 ∧ Pfcp.bit urr.rule.volThreshold.flags 1 ∧
      urr.rule.volThreshold.totalVolume.toNat ≤ vol)

/-- What the accounting of an accumulator comes to. The counters have 64 bits and the sequence
numbers 32, so that sums are told exactly as long as no period counts more. -/
structure Accounted (acc : UpfSessUrrAcc) (log : List AccEntry) : Prop where
  octets : acc.counters.totalOctets = acc.counters.ulOctets + acc.counters.dlOctets
  pkts : acc.counters.totalPkts = acc.counters.ulPkts + acc.counters.dlPkts
  conserved : ∀ field, ((reportsOf log).map fun report => report.volMeasurement.get field).sum +
    (acc.counters.get field - acc.lastReport.get field) = .ofNat (counted field log)
  exact : ∀ field, PeriodsFit field log →
    ((reportsOf log).map fun report => (report.volMeasurement.get field).toNat).sum +
      (acc.counters.get field - acc.lastReport.get field).toNat = counted field log
  seqn : (reportsOf log).map UsageReport.seqn =
    (List.range (reportsOf log).length).map UInt32.ofNat

/-! ## The invariant -/

/-- Each report of a log tells its own period, and has its own number. -/
def TrueReports : List AccEntry → Prop
  | [] => True
  | .packet _ _ :: log => TrueReports log
  | .report report :: log =>
    (∀ field, report.volMeasurement.get field = .ofNat (unreported field log)) ∧
      report.seqn = .ofNat (reportsOf log).length ∧ TrueReports log

/-- What links an accumulator to its log. -/
structure Tracks (acc : UpfSessUrrAcc) (log : List AccEntry) : Prop where
  octets : acc.counters.totalOctets = acc.counters.ulOctets + acc.counters.dlOctets
  pkts : acc.counters.totalPkts = acc.counters.ulPkts + acc.counters.dlPkts
  since : ∀ field, acc.counters.get field - acc.lastReport.get field =
    .ofNat (unreported field log)
  number : acc.reportSeqn = .ofNat (reportsOf log).length
  reports : TrueReports log

namespace TrueReports

variable {log : List AccEntry} {field : UsageField}

theorem sum (h : TrueReports log) :
    ((reportsOf log).map fun report => report.volMeasurement.get field).sum +
      .ofNat (unreported field log) = .ofNat (counted field log) := by
  induction log with
  | nil => rfl
  | cons entry log ih =>
    cases entry with
    | packet size isUplink =>
      simp only [reportsOf, unreported, counted, UInt64.ofNat_add]
      rw [← ih h, add_assoc]
    | report report =>
      obtain ⟨hvol, -, htrue⟩ := h
      simp only [reportsOf, unreported, counted, List.map_append, List.map_cons, List.map_nil,
        List.sum_append, List.sum_singleton, hvol]
      rw [← ih htrue]
      exact UInt64.add_zero _

theorem sum_exact (h : TrueReports log) (hfit : PeriodsFit field log) :
    ((reportsOf log).map fun report => (report.volMeasurement.get field).toNat).sum +
      unreported field log = counted field log := by
  induction log with
  | nil => rfl
  | cons entry log ih =>
    have hback : PeriodsFit field log := by
      intro front back hlog
      exact hfit (entry :: front) back (by rw [hlog, List.cons_append])
    cases entry with
    | packet size isUplink =>
      simp only [reportsOf, unreported, counted]
      rw [← ih h hback, add_assoc]
    | report report =>
      obtain ⟨hvol, -, htrue⟩ := h
      have hlt : unreported field log < 2 ^ 64 := hback [] log rfl
      simp only [reportsOf, unreported, counted, List.map_append, List.map_cons, List.map_nil,
        List.sum_append, List.sum_singleton, hvol, UInt64.toNat_ofNat_of_lt' hlt]
      rw [← ih htrue hback, add_zero]

theorem seqn (h : TrueReports log) :
    (reportsOf log).map UsageReport.seqn = (List.range (reportsOf log).length).map UInt32.ofNat := by
  induction log with
  | nil => rfl
  | cons entry log ih =>
    cases entry with
    | packet size isUplink => exact ih h
    | report report =>
      obtain ⟨-, hseqn, htrue⟩ := h
      simp only [reportsOf, List.map_append, List.map_cons, List.map_nil, List.length_append,
        List.length_singleton, List.range_succ, ih htrue, hseqn]

end TrueReports

namespace UpfSessUrrAcc

variable {env : UrrAccEnv} {urr : SessUrr} {acc acc' : UpfSessUrrAcc} {kind : UrrTimerKind}
  {state state' : Nat × UpfSessUrrAcc}

/-- Nothing but the accounts of an accumulator. -/
def SameAccount (acc acc' : UpfSessUrrAcc) : Prop :=
  acc'.counters = acc.counters ∧ acc'.lastReport = acc.lastReport ∧ acc'.reportSeqn = acc.reportSeqn

theorem SameAccount.trans {acc'' : UpfSessUrrAcc} (h : SameAccount acc acc')
    (h' : SameAccount acc' acc'') : SameAccount acc acc'' :=
  ⟨h'.1.trans h.1, h'.2.1.trans h.2.1, h'.2.2.trans h.2.2⟩

theorem setupTimer_same (h : setupTimer urr kind state = .ok state') :
    SameAccount state.2 state'.2 := by
  unfold setupTimer at h
  dsimp only at h
  split at h
  · obtain rfl := Except.ok.inj h
    exact ⟨rfl, rfl, rfl⟩
  · split at h
    · cases h
    · obtain rfl := Except.ok.inj h
      exact ⟨rfl, rfl, rfl⟩

theorem setupWanted_same (h : setupWanted urr kind (setupTimer urr kind) state = .ok state') :
    SameAccount state.2 state'.2 := by
  unfold setupWanted at h
  split at h
  · exact setupTimer_same h
  · obtain rfl := Except.ok.inj h
    exact ⟨rfl, rfl, rfl⟩

/-- The timers are of no account. -/
theorem timersSetup_same (h : acc.timersSetup env urr = .ok acc') : SameAccount acc acc' := by
  unfold timersSetup at h
  obtain ⟨first, hfirst, h⟩ := Fallible.bind_eq_ok.mp h
  obtain ⟨second, hsecond, h⟩ := Fallible.bind_eq_ok.mp h
  obtain ⟨third, hthird, h⟩ := Fallible.bind_eq_ok.mp h
  obtain rfl := Except.ok.inj h
  exact (setupWanted_same hfirst).trans ((setupWanted_same hsecond).trans (setupWanted_same hthird))

end UpfSessUrrAcc

namespace Tracks

variable {env : UrrAccEnv} {urr : SessUrr} {acc : UpfSessUrrAcc} {log : List AccEntry}
  {result : Option UsageReport × UpfSessUrrAcc}

theorem to_accounted (h : Tracks acc log) : Accounted acc log where
  octets := h.octets
  pkts := h.pkts
  conserved field := by
    rw [h.since]
    exact h.reports.sum
  exact field hfit := by
    have hlt : unreported field log < 2 ^ 64 := hfit [] log rfl
    rw [h.since, UInt64.toNat_ofNat_of_lt' hlt]
    exact h.reports.sum_exact hfit
  seqn := h.reports.seqn

theorem init : Tracks {} [] where
  octets := rfl
  pkts := rfl
  since field := by cases field <;> rfl
  number := rfl
  reports := trivial

/-- What an accumulator tracks is in its counters and its number. -/
theorem congr {acc' : UpfSessUrrAcc} (h : Tracks acc log) (hsame : acc.SameAccount acc') :
    Tracks acc' log := by
  obtain ⟨hcounters, hlast, hseqn⟩ := hsame
  constructor
  · exact hcounters ▸ h.octets
  · exact hcounters ▸ h.pkts
  · exact hcounters ▸ hlast ▸ h.since
  · exact hseqn.trans h.number
  · exact h.reports

theorem count (h : Tracks acc log) (size : UInt64) (isUplink : Bool) :
    Tracks (acc.count env size isUplink) (.packet size isUplink :: log) where
  octets := by
    have hoctets := h.octets
    cases isUplink
    · simp only [UpfSessUrrAcc.count, UsageCounters.add, hoctets, Bool.false_eq_true, if_false]
      exact add_assoc _ _ _
    · simp only [UpfSessUrrAcc.count, UsageCounters.add, hoctets, if_true]
      exact add_right_comm _ _ _
  pkts := by
    have hpkts := h.pkts
    cases isUplink
    · simp only [UpfSessUrrAcc.count, UsageCounters.add, hpkts, Bool.false_eq_true, if_false]
      exact add_assoc _ _ _
    · simp only [UpfSessUrrAcc.count, UsageCounters.add, hpkts, if_true]
      exact add_right_comm _ _ _
  since field := by
    simp only [UpfSessUrrAcc.count, UsageCounters.get_add, unreported, UInt64.ofNat_add]
    rw [← h.since field]
    exact add_sub_right_comm _ _ _
  number := h.number
  reports := h.reports

/-- A report tells the period that ends with it. -/
theorem report (h : Tracks acc log) {report : UsageReport}
    (hvol : report.volMeasurement = acc.counters.since acc.lastReport)
    (hseqn : report.seqn = acc.reportSeqn) :
    Tracks (acc.report env urr).2 (.report report :: log) where
  octets := h.octets
  pkts := h.pkts
  since field := sub_self _
  number := by
    simp only [reportsOf, List.length_append, List.length_singleton, UInt32.ofNat_add, ← h.number]
    rfl
  reports := by
    refine ⟨?_, hseqn.trans h.number, h.reports⟩
    intro field
    rw [← h.since field, hvol]
    exact UsageCounters.get_since ..

theorem sendReport (h : Tracks acc log) {result : UsageReport × UpfSessUrrAcc}
    (hrun : acc.sendReport env urr = .ok result) : Tracks result.2 (.report result.1 :: log) := by
  obtain ⟨hreport, hsetup⟩ := UpfSessUrrAcc.sendReport_eq_ok hrun
  rw [hreport]
  exact (h.report rfl rfl).congr (UpfSessUrrAcc.timersSetup_same hsetup)

/-- A packet is counted, and a report is sent exactly if a limit is reached. -/
theorem add (h : Tracks acc log) {size : UInt64} {isUplink : Bool}
    (hrun : acc.add env urr size isUplink = .ok result) :
    Tracks result.2 (result.1.toList.map .report ++ .packet size isUplink :: log) ∧
      (result.1.isSome ↔
        LimitReached urr ((unreported .totalOctets log + size.toNat) % 2 ^ 64)) := by
  have hcount : Tracks (acc.count env size isUplink) _ := h.count size isUplink
  have hvol : (acc.count env size isUplink).unreportedOctets.toNat =
      (unreported .totalOctets log + size.toNat) % 2 ^ 64 := by
    have hsince : (acc.count env size isUplink).unreportedOctets = .ofNat _ :=
      hcount.since .totalOctets
    rw [hsince]
    exact UInt64.toNat_ofNat'
  have hlimit : (urr.reachesVolumeQuota (acc.count env size isUplink).unreportedOctets ||
      urr.reachesVolumeThreshold (acc.count env size isUplink).unreportedOctets) = true ↔
        LimitReached urr ((unreported .totalOctets log + size.toNat) % 2 ^ 64) := by
    rw [← hvol]
    simp only [SessUrr.reachesVolumeQuota, SessUrr.reachesVolumeThreshold, LimitReached,
      Bool.or_eq_true, Bool.and_eq_true, decide_eq_true_iff, and_assoc, UInt64.le_iff_toNat_le]
  unfold UpfSessUrrAcc.add at hrun
  dsimp only at hrun
  rw [← hlimit]
  split at hrun
  · next hreached =>
    obtain ⟨sent, hsent, hrun⟩ := Fallible.bind_eq_ok.mp hrun
    obtain rfl := Except.ok.inj hrun
    exact ⟨hcount.sendReport hsent, iff_of_true rfl hreached⟩
  · next hreached =>
    obtain rfl := Except.ok.inj hrun
    exact ⟨hcount, iff_of_false Bool.false_ne_true hreached⟩

theorem timersCb (h : Tracks acc log) (hrun : acc.timersCb env urr = .ok result) :
    Tracks result.2 (result.1.toList.map .report ++ log) := by
  unfold UpfSessUrrAcc.timersCb at hrun
  split at hrun
  · obtain ⟨sent, hsent, hrun⟩ := Fallible.bind_eq_ok.mp hrun
    obtain rfl := Except.ok.inj hrun
    exact h.sendReport hsent
  · obtain ⟨acc', hsetup, hrun⟩ := Fallible.bind_eq_ok.mp hrun
    obtain rfl := Except.ok.inj hrun
    exact h.congr (UpfSessUrrAcc.timersSetup_same hsetup)

end Tracks

/-! ## Runs of a session -/

/-- A packet is counted, a timer ends, the timers of a new URR are set up, or the session is
deleted. -/
inductive AccEvent
  | packet (env : UrrAccEnv) (urr : SessUrr) (size : UInt64) (isUplink : Bool)
  | timer (env : UrrAccEnv) (urr : SessUrr)
  | setup (env : UrrAccEnv) (urr : SessUrr)
  | deletion (env : UrrAccEnv) (urrs : List SessUrr)

/-- The accumulators of a session, with the log of each. -/
structure AccState where
  accs : Nat → UpfSessUrrAcc := fun _ => {}
  log : Nat → List AccEntry := fun _ => []

/-- New entries in the log of an accumulator. -/
def record (index : Nat) (entries : List AccEntry) (log : Nat → List AccEntry) :
    Nat → List AccEntry :=
  update log index (entries ++ log index)

/-- Reports enter the logs that their IDs name. -/
def recordReports (sent : List UsageReport) (log : Nat → List AccEntry) : Nat → List AccEntry :=
  sent.foldl (fun log report => record (report.id.toNat - 1) [.report report] log) log

inductive AccStep : AccState → AccEvent → AccState → Prop
  | packet {s env urr size isUplink sent accs} :
      onUrrAcc urr (fun acc => acc.add env urr size isUplink) s.accs = .ok (sent, accs) →
      AccStep s (.packet env urr size isUplink)
        { accs
          log := record urr.index (sent.toList.map .report ++ [.packet size isUplink]) s.log }
  | timer {s env urr sent accs} :
      onUrrAcc urr (fun acc => acc.timersCb env urr) s.accs = .ok (sent, accs) →
      AccStep s (.timer env urr)
        { accs
          log := record urr.index (sent.toList.map .report) s.log }
  | setup {s env urr accs} :
      onUrrAcc urr (fun acc => (acc.timersSetup env urr).map ((), ·)) s.accs = .ok ((), accs) →
      AccStep s (.setup env urr) { s with accs }
  | deletion {s env urrs sent accs} : deletionReports env urrs s.accs = .ok (sent, accs) →
      AccStep s (.deletion env urrs)
        { accs
          log := recordReports sent s.log }

/-- A session from its establishment on. -/
def accSystem : System AccState AccEvent where
  init s := s = {}
  step := AccStep

def AccState.Tracks (s : AccState) : Prop := ∀ index, Open5gs.Tracks (s.accs index) (s.log index)

variable {s : AccState}

theorem AccState.Tracks.update (h : s.Tracks) {index : Nat} {acc : UpfSessUrrAcc}
    {entries : List AccEntry} (hacc : Open5gs.Tracks acc (entries ++ s.log index)) :
    AccState.Tracks
      { accs := update s.accs index acc
        log := record index entries s.log } := by
  intro other
  by_cases heq : other = index
  · subst heq
    simpa only [record, update_self] using hacc
  · simpa only [record, update_of_ne heq] using h other

theorem AccState.Tracks.terminationReports {env : UrrAccEnv} {urrs : List SessUrr} (h : s.Tracks)
    {result : List UsageReport × (Nat → UpfSessUrrAcc)}
    (hrun : terminationReports env urrs s.accs = .ok result) :
    AccState.Tracks
      { accs := result.2
        log := recordReports result.1 s.log } := by
  induction urrs generalizing s result with
  | nil =>
    obtain rfl := Except.ok.inj hrun
    exact h
  | cons urr urrs ih =>
    obtain ⟨first, hfirst, hrun⟩ := Fallible.bind_eq_ok.mp hrun
    obtain ⟨rest, hrest, hrun⟩ := Fallible.bind_eq_ok.mp hrun
    obtain rfl := Except.ok.inj hrun
    obtain ⟨acc, hreport, haccs⟩ := onUrrAcc_eq_ok hfirst
    rw [haccs] at hrest
    have hdone : (s.accs urr.index).terminationReport env urr = (first.1, acc) :=
      Except.ok.inj hreport
    have hacc : Open5gs.Tracks acc ([.report first.1] ++ s.log urr.index) := by
      obtain ⟨hfst, rfl⟩ := Prod.ext_iff.mp hdone
      exact (h urr.index).report (hfst ▸ rfl) (hfst ▸ rfl)
    have hid : first.1.id.toNat - 1 = urr.index := by
      rw [← (Prod.ext_iff.mp hdone).1]
      rfl
    have hstep := ih (h.update hacc) hrest
    simpa only [recordReports, List.foldl_cons, hid] using hstep

theorem AccStep.tracks {t : AccState} {event : AccEvent} (h : s.Tracks)
    (hstep : AccStep s event t) : t.Tracks := by
  cases hstep with
  | packet hrun =>
    obtain ⟨acc, hadd, rfl⟩ := onUrrAcc_eq_ok hrun
    apply h.update
    rw [List.append_assoc]
    exact ((h _).add hadd).1
  | timer hrun =>
    obtain ⟨acc, hcb, rfl⟩ := onUrrAcc_eq_ok hrun
    exact h.update ((h _).timersCb hcb)
  | @setup env urr accs hrun =>
    obtain ⟨acc, hmap, rfl⟩ := onUrrAcc_eq_ok hrun
    obtain ⟨_, hsetup, hpair⟩ := Fallible.map_eq_ok.mp hmap
    obtain ⟨-, rfl⟩ := Prod.ext_iff.mp hpair
    intro index
    by_cases heq : index = urr.index
    · subst heq
      simp only [update_self]
      exact (h _).congr (UpfSessUrrAcc.timersSetup_same hsetup)
    · simpa only [update_of_ne heq] using h index
  | deletion hrun =>
    unfold deletionReports at hrun
    split at hrun
    · exact h.terminationReports hrun
    · cases hrun

/-- A URR that counts only. -/
def plainUrr : SessUrr := ⟨0, 1, {}⟩

def plainEnv : UrrAccEnv := ⟨fun _ => 1700000000000000, 3, true⟩

/-- A session of which one packet of 60 octets has been counted. -/
def countedOnce : AccState where
  accs := update (fun _ => {}) 0 (UpfSessUrrAcc.count plainEnv {} 60 true)
  log := record 0 [.packet 60 true] fun _ => []

end Quicup.Open5gs
