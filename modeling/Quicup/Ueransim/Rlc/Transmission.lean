import Quicup.Core.System
import Quicup.Ueransim.Rlc.Submission

/-!
# Runs of the transmitting side

The segments in the buffers cover every SDU that is accepted and not reported exactly once,
over all runs that neither discard an SDU that is queued as a whole nor reset buffers that
are not empty. Both read memory that has been deleted.
-/

namespace Quicup.Ueransim.Rlc

namespace AmTransmitter

variable {c : AmConfig} {sdus : List OctetString} {e a n : Nat} {t t' : AmTransmitter}

/-- The SDU has been accepted and not been reported. -/
def IsOpen (t : AmTransmitter) (i : Nat) : Prop := i < t.heap.length ∧ ¬ t.Reported i

/-- The open SDUs are in the buffers, every octet once. -/
structure Intact (c : AmConfig) (t : AmTransmitter) : Prop where
  covered : ∀ i, t.IsOpen i → ∀ b,
    coverage t.segments i b = if b < (t.sdu i).size then 1 else 0
  segment : ∀ s ∈ t.segments, 0 < s.size ∧ t.IsOpen s.sdu
  refCount_eq : ∀ i, t.IsOpen i → (t.sdu i).refCount = refs t.segments i
  size_eq : ∃ opened : List Nat, opened.Nodup ∧ (∀ i, i ∈ opened ↔ t.IsOpen i) ∧
    t.txCurrentSize = (opened.map fun i => (t.sdu i).size).sum
  size_le : t.txCurrentSize ≤ c.txMaxSize

/-! ## One state -/

theorem totalSize_eq_sum (k : Nat) :
    ∀ a, a + k = sdus.length →
      totalSize sdus a = ((List.range' a k).map fun i => (sdus.getD i []).length).sum := by
  induction k with
  | zero =>
    intro a ha
    rw [totalSize, List.drop_of_length_le (by omega)]
    rfl
  | succ k ih =>
    intro a ha
    rw [totalSize_eq (by omega), ih (a + 1) (by omega), List.range'_succ, List.map_cons,
      List.sum_cons]

namespace Covering

variable (h : Covering c sdus e a n [] t)
include h

theorem isOpen_iff (i : Nat) : t.IsOpen i ↔ a ≤ i ∧ i < sdus.length := by
  rw [IsOpen, h.reported_iff, not_lt, and_comm, h.length_eq]

theorem intact : Intact c t := by
  have hle := h.le_length
  have han := h.le
  refine ⟨fun i hi b => ?_, fun s hs => ⟨h.pos s hs, (h.isOpen_iff _).mpr (h.sdu_lt hs)⟩,
    fun i hi => ?_, ?_, h.size_le⟩
  · obtain ⟨hge, hlt⟩ := (h.isOpen_iff i).mp hi
    rw [RlcSdu.size, h.data]
    exact h.coverage_eq i hge hlt b
  · obtain ⟨hge, hlt⟩ := (h.isOpen_iff i).mp hi
    exact h.refCount_eq i hge hlt
  · refine ⟨List.range' a (sdus.length - a), List.nodup_range', fun i => ?_, ?_⟩
    · rw [h.isOpen_iff, List.mem_range'_1]
      omega
    · simp only [RlcSdu.size, h.data]
      rw [h.size_eq, totalSize_eq_sum (sdus.length - a) a (by omega)]

/-- No SDU is open when the buffers are empty. -/
theorem eq_length_of_empty (hempty : t.segments = []) : a = sdus.length := by
  refine le_antisymm (h.le.trans h.le_length) (not_lt.mp fun hlt => ?_)
  have hcovered := h.coverage_eq a le_rfl hlt 0
  rw [List.nil_append, hempty, if_pos (h.size_pos a hlt)] at hcovered
  cases hcovered

theorem reestablished (hempty : t.segments = []) :
    ∃ t', t.reestablishment c = .ok t' ∧
      Covering c sdus sdus.length sdus.length sdus.length [] t' := by
  have hlarge := c.two_lt_windowSize
  have hreported := h.reported_iff
  rw [h.eq_length_of_empty hempty] at hreported
  simp only [segments, List.append_eq_nil_iff] at hempty
  obtain ⟨⟨⟨htx, hwait⟩, hret⟩, hack⟩ := hempty
  have hrun : t.reestablishment c = .ok { cleared c with
      heap := t.heap, consumer := t.consumer,
      pollRetransmitTimer := t.pollRetransmitTimer.stop } := by
    rw [reestablishment, htx, hwait, hret, hack]
    exact if_pos ⟨rfl, rfl, rfl, rfl⟩
  refine ⟨_, hrun, ⟨⟨le_rfl, le_rfl, by omega, ?_, ?_⟩, h.data_eq, le_rfl, ?_, ?_, ?_, ?_, ?_,
    .nil, hreported, h.size_pos, ?_, Int.natCast_nonneg _⟩, ?_, ?_⟩
  · rw [sub_self]
    rfl
  · rw [sub_self]
    rfl
  · exact fun s hs => absurd hs List.not_mem_nil
  · exact fun s hs => absurd hs List.not_mem_nil
  · exact fun s hs => absurd hs List.not_mem_nil
  · exact fun i hge hlt => absurd hlt hge.not_gt
  · exact fun i hge hlt => absurd hlt hge.not_gt
  · dsimp only
    rw [totalSize, List.drop_length]
    rfl
  · dsimp only
    rw [Nat.sub_self]
    rfl
  · exact fun s hs => absurd hs List.not_mem_nil

end Covering

/-! ## Runs -/

inductive Event
  | sdu (data : OctetString) (sduId : Int)
  | opportunity (maxSize : Nat)
  | status (pdu : StatusPdu)
  | timerCycle (currentTime : Int)
  | discardSdu (sduId : Int)
  | reestablishment
  deriving DecidableEq

/-- The operations of the transmitting side, while the receiving side has nothing to report. -/
inductive Step (c : AmConfig) : Except Fault AmTransmitter → Event → Except Fault AmTransmitter →
    Prop
  | sdu (t : AmTransmitter) (data : OctetString) (sduId : Int) :
      Step c (.ok t) (.sdu data sduId) (.ok (t.receiveSdu c data sduId))
  | opportunity (t : AmTransmitter) (maxSize : Nat) :
      Step c (.ok t) (.opportunity maxSize) (.ok (t.createAmdPdu c maxSize).1)
  | status (t : AmTransmitter) (pdu : StatusPdu) :
      Step c (.ok t) (.status pdu) (.ok (t.receiveStatusPdu c pdu))
  | timerCycle (t : AmTransmitter) (currentTime : Int) :
      Step c (.ok t) (.timerCycle currentTime) (.ok (t.timerCycle c currentTime))
  | discardSdu (t : AmTransmitter) (sduId : Int) :
      Step c (.ok t) (.discardSdu sduId) (t.discardSdu sduId)
  | reestablishment (t : AmTransmitter) :
      Step c (.ok t) .reestablishment (t.reestablishment c)

def system (c : AmConfig) : System (Except Fault AmTransmitter) Event where
  init s := s = .ok (cleared c)
  step := Step c

/-- No operation has faulted, and the open SDUs are in the buffers. -/
def RunsIntact (c : AmConfig) (s : Except Fault AmTransmitter) : Prop :=
  ∃ t, s = .ok t ∧ Intact c t

/-- The first queued segment of an SDU that is discarded is not the SDU as a whole, and the
buffers are empty when the entity is reestablished. -/
def Spares : Except Fault AmTransmitter → Event → Prop
  | .ok t, .discardSdu sduId => ∀ s,
    t.txBuffer.find? (fun s => decide ((t.sdu s.sdu).sduId = sduId)) = some s → s.si ≠ .full
  | .ok t, .reestablishment => t.segments = []
  | _, _ => True

/-- The state of a run that spares the buffers. -/
def RunsCovering (c : AmConfig) (s : Except Fault AmTransmitter) : Prop :=
  ∃ sdus e a n t, s = .ok t ∧ Covering c sdus e a n [] t

variable {s s' : Except Fault AmTransmitter} {event : Event}

theorem runsCovering_step (h : RunsCovering c s) (hspares : Spares s event)
    (hstep : Step c s event s') : RunsCovering c s' := by
  obtain ⟨sdus, e, a, n, t, rfl, h⟩ := h
  cases hstep with
  | sdu _ data sduId => exact ⟨_, e, a, n, _, rfl, h.receiveSdu data sduId⟩
  | opportunity _ maxSize =>
    obtain ⟨n', _, h', _⟩ := h.createAmdPdu maxSize
    exact ⟨sdus, e, a, n', _, rfl, h'⟩
  | status _ pdu =>
    obtain ⟨a', h'⟩ := h.receiveStatusPdu pdu
    exact ⟨sdus, e, a', n, _, rfl, h'⟩
  | timerCycle _ currentTime => exact ⟨sdus, e, a, n, _, rfl, h.timerCycle currentTime⟩
  | discardSdu _ sduId =>
    refine ⟨sdus, e, a, n, t, ?_, h⟩
    rw [AmTransmitter.discardSdu]
    split
    · rfl
    · next s hfind => exact if_pos (hspares s hfind)
  | reestablishment _ =>
    obtain ⟨t', hrun, h'⟩ := h.reestablished hspares
    exact ⟨sdus, _, _, _, t', hrun, h'⟩

/-- An operation that does not fault spares the buffers. -/
theorem spares_of_runsIntact (hstep : Step c s event s') (hgood : RunsIntact c s') :
    Spares s event := by
  obtain ⟨t', rfl, _⟩ := hgood
  generalize hresult : Except.ok t' = s' at hstep
  cases hstep with
  | discardSdu t sduId =>
    intro s hfind hfull
    rw [AmTransmitter.discardSdu, hfind] at hresult
    simp [hfull] at hresult
  | reestablishment t =>
    rw [AmTransmitter.reestablishment] at hresult
    split_ifs at hresult with hempty
    simp only [List.isEmpty_iff] at hempty
    simp [Spares, segments, hempty]
  | _ => trivial

/-- Over a run the buffers stay intact exactly if every operation spares them. -/
theorem intact_iff {events : List Event} {s : Except Fault AmTransmitter} :
    System.RunWithin (system c) (RunsIntact c) events s ↔
      System.Run (system c) Spares events s := by
  have hinit : ∀ s, (system c).init s → RunsCovering c s := by
    rintro s rfl
    exact ⟨[], 0, 0, 0, _, rfl, covering_cleared c⟩
  have hgood : ∀ s, RunsCovering c s → RunsIntact c s := by
    rintro s ⟨sdus, e, a, n, t, rfl, h⟩
    exact ⟨t, rfl, h.intact⟩
  exact System.Run.within_iff hinit hgood (fun s event s' => runsCovering_step)
    fun s event s' _ => spares_of_runsIntact

/-- An SDU is discarded that has just been accepted. -/
theorem discard_reads_deleted :
    ¬ ∀ (c : AmConfig) (events : List Event) (s : Except Fault AmTransmitter),
      System.Run (system c) System.unrestricted events s → RunsIntact c s := by
  intro h
  have haccepted : Step .test (.ok (cleared .test)) (.sdu [1] 7)
      (.ok ((cleared .test).receiveSdu .test [1] 7)) := .sdu _ _ _
  have hdiscarded : Step .test (.ok ((cleared .test).receiveSdu .test [1] 7)) (.discardSdu 7)
      (((cleared .test).receiveSdu .test [1] 7).discardSdu 7) := .discardSdu _ _
  obtain ⟨t, hfault, _⟩ := h .test _ _
    (.snoc (.snoc (.nil rfl) trivial haccepted) trivial hdiscarded)
  have herror : ((cleared .test).receiveSdu .test [1] 7).discardSdu 7 = .error .nullDeref := by
    decide
  rw [herror] at hfault
  cases hfault

end AmTransmitter

end Quicup.Ueransim.Rlc
