import Quicup.Ueransim.Rlc.Segments

/-!
# Coverage of the accepted SDUs

The accepted SDUs are numbered in the order in which they came. Those from `a` on are not
reported yet, those from `n` on are not completely submitted, and the SDU `e` has the SN 0.
Every octet of an SDU from `a` on is in exactly one segment.
-/

namespace Quicup.Ueransim.Rlc

open Circular

/-- The order of the buffers of submitted segments. -/
def SegmentLe (a b : RlcSduSegment) : Prop := a.sdu < b.sdu ∨ a.sdu = b.sdu ∧ a.so ≤ b.so

theorem SegmentLe.trans {a b d : RlcSduSegment} (hab : SegmentLe a b) (hbd : SegmentLe b d) :
    SegmentLe a d := by
  unfold SegmentLe at *
  omega

namespace AmTransmitter

variable {c : AmConfig} {sdus : List OctetString} {e a n : Nat} {t t' : AmTransmitter}
  {s s' : RlcSduSegment} {held held' : List RlcSduSegment}

/-! ## Numbers -/

/-- The state variables and the numbers of SDUs. -/
structure Numbering (c : AmConfig) (e a n : Nat) (t : AmTransmitter) : Prop where
  epoch_le : e ≤ a
  le : a ≤ n
  window : (n : Int) - a ≤ c.windowSize
  txNext_eq : t.txNext = ((n : Int) - e) % c.snModulus
  txNextAck_eq : t.txNextAck = ((a : Int) - e) % c.snModulus

/-- A segment of an SDU that has been submitted, maybe in part. -/
structure Submitted (c : AmConfig) (e a n : Nat) (t : AmTransmitter) (s : RlcSduSegment) :
    Prop where
  ge : a ≤ s.sdu
  le : s.sdu ≤ n
  window : (s.sdu : Int) - a < c.windowSize
  sn_eq : (t.sdu s.sdu).sn = ((s.sdu : Int) - e) % c.snModulus

theorem modulusTx_eq (x : Int) : t.modulusTx c x = distance c.snModulus t.txNextAck x := rfl

namespace Numbering

variable (h : Numbering c e a n t) {list : List RlcSduSegment}
include h

theorem nextAck_on : On c.snModulus t.txNextAck := by
  have hon := On.advance c.snModulus_pos (a : Int) (-e)
  rwa [← sub_eq_add_neg, ← h.txNextAck_eq] at hon

/-- The distance of an SN is the number of SDUs in between. -/
theorem modulusTx_number {i : Nat} (hge : a ≤ i) (hle : i ≤ n) :
    t.modulusTx c (((i : Int) - e) % c.snModulus) = (i : Int) - a := by
  have hm := c.snModulus_eq
  have hlarge := c.two_lt_windowSize
  have hwindow := h.window
  have hsn : ((i : Int) - e) % c.snModulus =
      (t.txNextAck + ((i : Int) - a)) % c.snModulus := by
    rw [h.txNextAck_eq, Int.emod_add_emod]
    congr 1
    ring
  rw [hsn, modulusTx_eq, distance_base_advance h.nextAck_on (by omega) (by omega)]

theorem modulusTx_sn (hs : Submitted c e a n t s) :
    t.modulusTx c (t.sdu s.sdu).sn = (s.sdu : Int) - a := by
  rw [hs.sn_eq, h.modulusTx_number hs.ge hs.le]

theorem snCompareTx_sn (hs : Submitted c e a n t s) (hs' : Submitted c e a n t s') :
    t.snCompareTx c (t.sdu s.sdu).sn (t.sdu s'.sdu).sn = (s.sdu : Int) - s'.sdu := by
  rw [snCompareTx, h.modulusTx_sn hs, h.modulusTx_sn hs']
  omega

theorem sn_eq_iff (hs : Submitted c e a n t s) (hs' : Submitted c e a n t s') :
    (t.sdu s.sdu).sn = (t.sdu s'.sdu).sn ↔ s.sdu = s'.sdu := by
  constructor
  · intro hsn
    have hdistance := congrArg (t.modulusTx c) hsn
    rw [h.modulusTx_sn hs, h.modulusTx_sn hs'] at hdistance
    omega
  · intro hsdu
    rw [hsdu]

/-- The comparison of the buffers decides their order. -/
theorem sduListCompare_iff (hs : Submitted c e a n t s) (hs' : Submitted c e a n t s') :
    0 < t.sduListCompare c s s' ↔ ¬ SegmentLe s s' := by
  have hsn := h.sn_eq_iff hs hs'
  rw [sduListCompare, h.snCompareTx_sn hs hs', SegmentLe]
  split_ifs <;> omega

theorem sorted_insert (hlist : ∀ x ∈ list, Submitted c e a n t x) (hs : Submitted c e a n t s)
    (hsorted : list.Pairwise SegmentLe) : (t.insertToList c list s).Pairwise SegmentLe := by
  refine Sorted.pairwise_insert (fun hab hbd => SegmentLe.trans hab hbd) ?_ ?_ hsorted
  · intro x hx hgreater
    have hnot := (h.sduListCompare_iff (hlist x hx) hs).mp hgreater
    unfold SegmentLe at hnot ⊢
    omega
  · intro x hx hless
    exact not_not.mp (mt (h.sduListCompare_iff (hlist x hx) hs).mpr hless)

theorem sorted_insertAll {xs : List RlcSduSegment} (hlist : ∀ x ∈ list, Submitted c e a n t x)
    (hxs : ∀ x ∈ xs, Submitted c e a n t x) (hsorted : list.Pairwise SegmentLe) :
    (xs.foldl (t.insertToList c) list).Pairwise SegmentLe := by
  induction xs generalizing list with
  | nil => exact hsorted
  | cons x xs ih =>
    obtain ⟨hx, hrest⟩ := List.forall_mem_cons.mp hxs
    refine ih (fun y hy => ?_) hrest (h.sorted_insert hlist hx hsorted)
    rcases Sorted.mem_insert.mp hy with rfl | hy
    · exact hx
    · exact hlist y hy

end Numbering

/-! ## The invariant -/

/-- The sizes of the SDUs from `a` on. -/
def totalSize (sdus : List OctetString) (a : Nat) : Nat := ((sdus.drop a).map List.length).sum

theorem totalSize_eq (ha : a < sdus.length) :
    totalSize sdus a = (sdus.getD a []).length + totalSize sdus (a + 1) := by
  rw [totalSize, List.drop_eq_getElem_cons ha, List.map_cons, List.sum_cons, totalSize,
    List.getD_eq_getElem?_getD, List.getElem?_eq_getElem ha, Option.getD_some]

/-- The kind of a segment says whether it has the first and the last octet of its SDU. -/
structure Shaped (sdus : List OctetString) (s : RlcSduSegment) : Prop where
  first_iff : s.si.hasFirst = true ↔ s.so = 0
  last_iff : s.si.hasLast = true ↔ s.so + s.size = (sdus.getD s.sdu []).length

/-- The segments, with those that a loop holds, cover the open ones of the accepted SDUs. -/
structure Covered (c : AmConfig) (sdus : List OctetString) (e a n : Nat)
    (held : List RlcSduSegment) (t : AmTransmitter) : Prop extends Numbering c e a n t where
  data_eq : t.heap.map RlcSdu.data = sdus
  le_length : n ≤ sdus.length
  submitted : ∀ s ∈ held ++ (t.waitBuffer ++ t.retBuffer ++ t.ackBuffer),
    Submitted c e a n t s ∧ s.sdu < sdus.length
  pos : ∀ s ∈ held ++ t.segments, 0 < s.size
  shape : ∀ s ∈ held ++ t.segments, Shaped sdus s
  coverage_eq : ∀ i, a ≤ i → i < sdus.length → ∀ b,
    coverage (held ++ t.segments) i b = if b < (sdus.getD i []).length then 1 else 0
  refCount_eq : ∀ i, a ≤ i → i < sdus.length → (t.sdu i).refCount = refs (held ++ t.segments) i
  ack_sorted : t.ackBuffer.Pairwise SegmentLe
  reported_iff : ∀ i, t.Reported i ↔ i < a
  size_pos : ∀ i < sdus.length, 0 < (sdus.getD i []).length
  size_eq : t.txCurrentSize = totalSize sdus a
  size_le : t.txCurrentSize ≤ c.txMaxSize

/-- The transmission buffer has a segment of every SDU that is not submitted completely. -/
structure Covering (c : AmConfig) (sdus : List OctetString) (e a n : Nat)
    (held : List RlcSduSegment) (t : AmTransmitter) : Prop extends
    Covered c sdus e a n held t where
  queue : t.txBuffer.map RlcSduSegment.sdu = List.range' n (sdus.length - n)
  queue_last : ∀ s ∈ t.txBuffer, s.si.hasLast = true

theorem covering_cleared (c : AmConfig) : Covering c [] 0 0 0 [] (cleared c) := by
  have hlarge := c.two_lt_windowSize
  refine ⟨⟨⟨le_rfl, le_rfl, by omega, rfl, rfl⟩, rfl, le_rfl, ?_, ?_, ?_, ?_, ?_, .nil, ?_, ?_,
    rfl, Int.natCast_nonneg _⟩, rfl, ?_⟩
  · exact fun s hs => absurd hs List.not_mem_nil
  · exact fun s hs => absurd hs List.not_mem_nil
  · exact fun s hs => absurd hs List.not_mem_nil
  · exact fun i _ hi => absurd hi (Nat.not_lt_zero i)
  · exact fun i _ hi => absurd hi (Nat.not_lt_zero i)
  · intro i
    simp [Reported, cleared]
  · exact fun i hi => absurd hi (Nat.not_lt_zero i)
  · exact fun s hs => absurd hs List.not_mem_nil

/-- The SDU on the heap has the data that was accepted. -/
theorem Covered.data (h : Covered c sdus e a n held t) (i : Nat) :
    (t.sdu i).data = sdus.getD i [] := by
  have hget := congrArg (fun datas => datas[i]?.getD []) h.data_eq
  simp only [List.getElem?_map] at hget
  rw [List.getD_eq_getElem?_getD, ← hget, sdu, List.getD_eq_getElem?_getD]
  rcases t.heap[i]? with _ | x <;> rfl

theorem Covered.length_eq (h : Covered c sdus e a n held t) : t.heap.length = sdus.length := by
  rw [← h.data_eq, List.length_map]

/-- A segment does not reach behind its SDU. -/
theorem Covered.stop_le (h : Covered c sdus e a n held t) (hs : s ∈ held ++ t.segments)
    (hge : a ≤ s.sdu) (hlt : s.sdu < sdus.length) :
    s.so + s.size ≤ (sdus.getD s.sdu []).length := by
  have hpos := h.pos s hs
  have hcovers : 0 < coverage (held ++ t.segments) s.sdu (s.so + s.size - 1) :=
    List.countP_pos_iff.mpr ⟨s, hs, RlcSduSegment.covers_iff.mpr ⟨rfl, by omega, by omega⟩⟩
  rw [h.coverage_eq s.sdu hge hlt] at hcovers
  split_ifs at hcovers <;> omega

/-- A rearrangement keeps the coverage, if it keeps the order of the segments that are
acknowledged. -/
theorem Covered.rearranged (h : Covered c sdus e a n held t) (hr : Rearranged held t held' t')
    (hsorted : t'.ackBuffer.Pairwise SegmentLe) : Covered c sdus e a n held' t' := by
  have hrest : (held' ++ (t'.waitBuffer ++ t'.retBuffer ++ t'.ackBuffer)).Perm
      (held ++ (t.waitBuffer ++ t.retBuffer ++ t.ackBuffer)) := by
    refine List.perm_iff_count.mpr fun x => ?_
    have := hr.perm.count_eq x
    simp only [segments, hr.txBuffer_eq, List.count_append] at this ⊢
    omega
  refine ⟨⟨h.epoch_le, h.le, h.window, hr.txNext_eq.trans h.txNext_eq,
    hr.txNextAck_eq.trans h.txNextAck_eq⟩, ?_, h.le_length, ?_, ?_, ?_, ?_, ?_, hsorted, ?_,
    h.size_pos, hr.txCurrentSize_eq.trans h.size_eq, hr.txCurrentSize_eq.trans_le h.size_le⟩
  · have hdata (heap : List RlcSdu) :
        heap.map RlcSdu.data = (heap.map RlcSdu.uncounted).map RlcSdu.data := by
      rw [List.map_map]
      rfl
    rw [hdata, hr.heap_eq, ← hdata, h.data_eq]
  · intro s hs
    obtain ⟨⟨hge, hle, hlt, hsn⟩, hlength⟩ := h.submitted s (hrest.subset hs)
    exact ⟨⟨hge, hle, hlt, (hr.sn_eq _).trans hsn⟩, hlength⟩
  · exact fun s hs => h.pos s (hr.perm.subset hs)
  · exact fun s hs => h.shape s (hr.perm.subset hs)
  · intro i hge hlt b
    rw [coverage_perm hr.perm]
    exact h.coverage_eq i hge hlt b
  · intro i hge hlt
    rw [refs_perm hr.perm, hr.refCount_eq]
    exact h.refCount_eq i hge hlt
  · exact fun i => (hr.reported_iff i).trans (h.reported_iff i)

namespace Covering

theorem rearranged (h : Covering c sdus e a n held t) (hr : Rearranged held t held' t')
    (hsorted : t'.ackBuffer.Pairwise SegmentLe) : Covering c sdus e a n held' t' := by
  refine ⟨h.toCovered.rearranged hr hsorted, ?_, ?_⟩
  · rw [hr.txBuffer_eq]
    exact h.queue
  · rw [hr.txBuffer_eq]
    exact h.queue_last

variable {xs : List RlcSduSegment}

/-- Segments that are in the buffers of submitted segments. -/
theorem submitted_of_subset (h : Covering c sdus e a n held t)
    (hxs : xs ⊆ t.waitBuffer ∨ xs ⊆ t.retBuffer ∨ xs ⊆ t.ackBuffer) :
    ∀ x ∈ xs, Submitted c e a n t x := by
  intro x hx
  refine (h.submitted x (List.mem_append_right _ ?_)).1
  simp only [List.mem_append]
  rcases hxs with hwait | hret | hack
  · exact .inl (.inl (hwait hx))
  · exact .inl (.inr (hret hx))
  · exact .inr (hack hx)

/-- Every segment refers to an open SDU. -/
theorem sdu_lt (h : Covering c sdus e a n [] t) (hs : s ∈ t.segments) :
    a ≤ s.sdu ∧ s.sdu < sdus.length := by
  have hle := h.le_length
  have han := h.le
  have hcases : s ∈ t.txBuffer ∨ s ∈ [] ++ (t.waitBuffer ++ t.retBuffer ++ t.ackBuffer) := by
    simpa only [segments, List.append_assoc, List.nil_append, List.mem_append] using hs
  rcases hcases with hs | hs
  · have hmem : s.sdu ∈ t.txBuffer.map RlcSduSegment.sdu := List.mem_map_of_mem hs
    rw [h.queue, List.mem_range'_1] at hmem
    omega
  · exact ⟨(h.submitted s hs).1.ge, (h.submitted s hs).2⟩

/-! ## Rearrangements by a STATUS PDU and by the timer -/

/-- Held segments are acknowledged. -/
theorem insertAllToAck (h : Covering c sdus e a n held t) :
    Covering c sdus e a n [] (t.insertAllToAck c held) := by
  refine h.rearranged (.of_eq ?_ rfl rfl rfl rfl rfl rfl) ?_
  · have hperm : (held.foldl (t.insertToList c) t.ackBuffer).Perm (held ++ t.ackBuffer) :=
      perm_insertAll (t.sduListCompare c) held t.ackBuffer
    refine List.perm_iff_count.mpr fun x => ?_
    have := hperm.count_eq x
    simp only [segments, AmTransmitter.insertAllToAck, List.count_append, List.count_nil] at this ⊢
    omega
  · exact h.toNumbering.sorted_insertAll (h.submitted_of_subset (.inr (.inr (List.Subset.refl _))))
      (fun x hx => (h.submitted x (List.mem_append_left _ hx)).1) h.ack_sorted

/-- Segments that wait are held. -/
theorem holdWaiting (h : Covering c sdus e a n [] t) (p : RlcSduSegment → Bool) :
    Covering c sdus e a n (t.waitBuffer.filter p)
      { t with waitBuffer := t.waitBuffer.filter fun s => !p s } := by
  refine h.rearranged (.of_eq ?_ rfl rfl rfl rfl rfl rfl) h.ack_sorted
  refine List.perm_iff_count.mpr fun x => ?_
  have := (perm_filter p t.waitBuffer).count_eq x
  simp only [segments, List.count_append, List.count_nil] at this ⊢
  omega

theorem holdRetransmitted (h : Covering c sdus e a n [] t) (p : RlcSduSegment → Bool) :
    Covering c sdus e a n (t.retBuffer.filter p)
      { t with retBuffer := t.retBuffer.filter fun s => !p s } := by
  refine h.rearranged (.of_eq ?_ rfl rfl rfl rfl rfl rfl) h.ack_sorted
  refine List.perm_iff_count.mpr fun x => ?_
  have := (perm_filter p t.retBuffer).count_eq x
  simp only [segments, List.count_append, List.count_nil] at this ⊢
  omega

theorem uncountRetransmissions (h : Covering c sdus e a n held t) (xs : List RlcSduSegment)
    (alreadyDec : List Int) :
    Covering c sdus e a n held (AmTransmitter.uncountRetransmissions xs alreadyDec t) := by
  induction xs generalizing alreadyDec t with
  | nil => exact h
  | cons x xs ih =>
    rw [AmTransmitter.uncountRetransmissions]
    split_ifs
    · exact ih h alreadyDec
    · have hheap := map_modify RlcSdu.uncounted (f := fun sdu : RlcSdu =>
        { sdu with retransmissionCount := sdu.retransmissionCount - 1 }) (fun _ => rfl) t.heap x.sdu
      apply ih
      exact h.rearranged ⟨.refl _, rfl, rfl, rfl, rfl, hheap, fun i => .rfl⟩ h.ack_sorted

theorem ackReceived (h : Covering c sdus e a n [] t) (ackSn : Int) :
    Covering c sdus e a n [] (t.ackReceived c ackSn) := by
  have hwaiting := (h.holdWaiting (t.isBelow c ackSn)).insertAllToAck
  exact ((hwaiting.holdRetransmitted _).uncountRetransmissions _ []).insertAllToAck

theorem retransmit_ackBuffer (xs : List RlcSduSegment) (updateRetX : Bool) (t : AmTransmitter) :
    (AmTransmitter.retransmit c xs updateRetX t).ackBuffer = t.ackBuffer := by
  induction xs generalizing updateRetX t with
  | nil => rfl
  | cons x xs ih =>
    rw [AmTransmitter.retransmit, ih, considerRetransmission]
    split_ifs
    · rw [countRetransmission]
      dsimp only
      split_ifs <;> rfl
    · rfl

theorem retransmit (h : Covering c sdus e a n held t) (updateRetX : Bool) :
    Covering c sdus e a n [] (AmTransmitter.retransmit c held updateRetX t) :=
  h.rearranged (retransmit_rearranged held updateRetX t)
    (by rw [retransmit_ackBuffer]; exact h.ack_sorted)

theorem nackReceived (h : Covering c sdus e a n [] t) (nackSn soStart soEnd : Int)
    (already : List Int) :
    Covering c sdus e a n [] (t.nackReceived c nackSn soStart soEnd already).1 := by
  rw [AmTransmitter.nackReceived]
  split_ifs
  · exact h
  · have hheld (p : RlcSduSegment → Bool) :
        Covering c sdus e a n (t.waitBuffer.filter p ++ t.ackBuffer.filter p)
          { t with
            waitBuffer := t.waitBuffer.filter fun s => !p s
            ackBuffer := t.ackBuffer.filter fun s => !p s } := by
      refine h.rearranged (.of_eq ?_ rfl rfl rfl rfl rfl rfl) (h.ack_sorted.filter _)
      refine List.perm_iff_count.mpr fun x => ?_
      have hwait := (perm_filter p t.waitBuffer).count_eq x
      have hack := (perm_filter p t.ackBuffer).count_eq x
      simp only [segments, List.count_append, List.count_nil] at hwait hack ⊢
      omega
    exact (hheld (t.isNacked nackSn soStart soEnd)).retransmit _

theorem stopPollRetransmit (h : Covering c sdus e a n [] t) : Covering c sdus e a n [] t.stopPollRetransmit :=
  h.rearranged (.of_eq (.refl _) rfl rfl rfl rfl rfl rfl) h.ack_sorted

theorem nackBlockReceived (h : Covering c sdus e a n [] t) (block : NackBlock) (already : List Int) :
    Covering c sdus e a n [] (t.nackBlockReceived c block already).1 := by
  have hfold := List.foldlRecOn (motive := fun p : AmTransmitter × List Int =>
    Covering c sdus e a n [] p.1) (List.range block.range.toNat)
    (fun p i => nackOf c p.1 block i p.2) (b := (t, already)) h
    fun p hp i _ => hp.nackReceived _ _ _ p.2
  rw [AmTransmitter.nackBlockReceived]
  dsimp only
  split_ifs
  · exact hfold.stopPollRetransmit
  · exact hfold

theorem retransmitSn (h : Covering c sdus e a n [] t) (sn : Int) :
    Covering c sdus e a n [] (t.retransmitSn c sn) := by
  rw [AmTransmitter.retransmitSn]
  dsimp only
  have hheld (upTo hasSn : RlcSduSegment → Bool) :
      Covering c sdus e a n ((t.waitBuffer.takeWhile upTo).filter hasSn)
        { t with
          waitBuffer := ((t.waitBuffer.takeWhile upTo).filter fun s => !hasSn s) ++
            t.waitBuffer.dropWhile upTo } := by
    refine h.rearranged (.of_eq ?_ rfl rfl rfl rfl rfl rfl) h.ack_sorted
    refine List.perm_iff_count.mpr fun x => ?_
    have hfilter := (perm_filter hasSn (t.waitBuffer.takeWhile upTo)).count_eq x
    have hsplit := congrArg (List.count x)
      (List.takeWhile_append_dropWhile (p := upTo) (l := t.waitBuffer))
    simp only [segments, List.count_append, List.count_nil] at hfilter hsplit ⊢
    omega
  exact (hheld _ _).retransmit true

theorem timerCycle (h : Covering c sdus e a n [] t) (currentTime : Int) :
    Covering c sdus e a n [] (t.timerCycle c currentTime) := by
  have hother {t' : AmTransmitter} (h : Covering c sdus e a n [] t') (forcePoll : Bool)
      (tCurrent : Int) (timer : RlcTimer) :
      Covering c sdus e a n []
        { t' with forcePoll, tCurrent, pollRetransmitTimer := timer } :=
    h.rearranged (.of_eq (.refl _) rfl rfl rfl rfl rfl rfl) h.ack_sorted
  rw [AmTransmitter.timerCycle]
  dsimp only
  split_ifs
  · have hstopped := hother h t.forcePoll currentTime t.pollRetransmitTimer.stop
    rw [actionsOnPollRetransmitTimerExpired]
    split_ifs
    · split
      · exact hother hstopped true _ _
      · exact hother (hstopped.retransmitSn _) true _ _
    · exact hother hstopped true _ _
  · exact hother h t.forcePoll currentTime t.pollRetransmitTimer

/-! ## Reports -/

variable {first : RlcSduSegment} {rest : List RlcSduSegment} {i : Nat}

/-- The first open SDU is reported once all segments that refer to it are acknowledged. -/
theorem areAllSegmentsInAck_iff (h : Covering c sdus e a n [] t)
    (hack : t.ackBuffer = first :: rest) (hsn : (t.sdu first.sdu).sn = t.txNextAck) :
    first.sdu = a ∧ (t.areAllSegmentsInAck c (t.sdu first.sdu).sn = true ↔
      refs t.segments a = refs t.ackBuffer a) := by
  have hsubmitted := h.submitted_of_subset (.inr (.inr (List.Subset.refl t.ackBuffer)))
  have hfirst := hsubmitted first (hack ▸ List.mem_cons_self ..)
  have hsdu : first.sdu = a := by
    have hdistance := h.modulusTx_sn hfirst
    rw [hsn, modulusTx_eq, distance_self] at hdistance
    omega
  refine ⟨hsdu, ?_⟩
  have hkeys : t.ackBuffer.Pairwise fun s s' => (s.sdu : Int) ≤ s'.sdu :=
    h.ack_sorted.imp fun {s s'} hle => by unfold SegmentLe at hle; omega
  have hcompare (s : RlcSduSegment) (hs : s ∈ t.ackBuffer) :=
    h.snCompareTx_sn (hsubmitted s hs) hfirst
  have hupTo : t.ackBuffer.takeWhile (fun s =>
      decide (¬ t.snCompareTx c (t.sdu s.sdu).sn (t.sdu first.sdu).sn > 0)) =
      t.ackBuffer.filter fun s =>
        decide (¬ t.snCompareTx c (t.sdu s.sdu).sn (t.sdu first.sdu).sn > 0) := by
    refine Sorted.takeWhile_eq_filter (k := a) hkeys (fun s hs => ?_) fun s hs => ?_
    · have := (hsubmitted s hs).ge
      rw [decide_eq_true_iff, hcompare s hs]
      omega
    · exact_mod_cast (hsubmitted s hs).ge
  have hsame : (t.ackBuffer.takeWhile (fun s =>
      decide (¬ t.snCompareTx c (t.sdu s.sdu).sn (t.sdu first.sdu).sn > 0))).filter (fun s =>
        decide (t.snCompareTx c (t.sdu s.sdu).sn (t.sdu first.sdu).sn = 0)) =
      t.ackBuffer.filter fun s => decide (s.sdu = a) := by
    rw [hupTo, List.filter_filter]
    refine List.filter_congr fun s hs => ?_
    rw [← Bool.decide_and, decide_eq_decide, hcompare s hs]
    omega
  rw [areAllSegmentsInAck, hsame]
  have hmem : first ∈ t.ackBuffer.filter fun s => decide (s.sdu = a) :=
    List.mem_filter.mpr ⟨hack ▸ List.mem_cons_self .., decide_eq_true hsdu⟩
  have hcount : refs t.ackBuffer a = (t.ackBuffer.filter fun s => decide (s.sdu = a)).length :=
    List.countP_eq_length_filter
  rcases hfilter : t.ackBuffer.filter fun s => decide (s.sdu = a) with _ | ⟨x, xs⟩
  · rw [hfilter] at hmem
    exact absurd hmem List.not_mem_nil
  · have hxmem : x ∈ t.ackBuffer.filter fun s => decide (s.sdu = a) :=
      hfilter ▸ List.mem_cons_self ..
    have hx : x.sdu = a := of_decide_eq_true (List.mem_filter.mp hxmem).2
    have hrefs := h.refCount_eq a le_rfl (hsdu ▸ (h.sdu_lt (by simp [segments, hack])).2)
    rw [hcount, hfilter]
    dsimp only
    rw [decide_eq_true_iff, hx, hrefs, List.nil_append]
    constructor
    · exact fun heq => (Int.natCast_inj.mp heq).symm
    · exact fun heq => congrArg Nat.cast heq.symm

theorem map_foldl_release {β : Type} (g : RlcSdu → β)
    (hg : ∀ (sdu : RlcSdu) (k : Int), g { sdu with refCount := k } = g sdu)
    (xs : List RlcSduSegment) (heap : List RlcSdu) :
    (xs.foldl release heap).map g = heap.map g := by
  induction xs generalizing heap with
  | nil => rfl
  | cons x xs ih => exact (ih _).trans (map_modify g (fun sdu => hg sdu _) heap x.sdu)

/-- Deletions of segments of one SDU leave the other SDUs alone. -/
theorem getD_foldl_release (hxs : ∀ x ∈ xs, x.sdu = a) (hi : i ≠ a) (heap : List RlcSdu) :
    (xs.foldl release heap).getD i default = heap.getD i default := by
  induction xs generalizing heap with
  | nil => rfl
  | cons x xs ih =>
    obtain ⟨hx, hrest⟩ := List.forall_mem_cons.mp hxs
    have hne : x.sdu ≠ i := fun hxi => hi (hxi.symm.trans hx)
    rw [List.foldl_cons, ih hrest, release, List.getD_eq_getElem?_getD, List.getElem?_modify]
    simp [hne]

/-- The SDU that is reported has been submitted completely. -/
theorem lt_of_all_in_ack (h : Covering c sdus e a n [] t) (ha : a < sdus.length)
    (hall : refs t.segments a = refs t.ackBuffer a) : a < n := by
  refine lt_of_le_of_ne h.le fun heq => ?_
  have hqueue := h.queue
  have hn : n ∈ t.txBuffer.map RlcSduSegment.sdu := by
    rw [hqueue, List.mem_range'_1]
    omega
  obtain ⟨s, hs, hsdu⟩ := List.mem_map.mp hn
  have hpos : 0 < refs t.txBuffer a :=
    List.countP_pos_iff.mpr ⟨s, hs, decide_eq_true (hsdu.trans heq.symm)⟩
  simp only [segments, refs_append] at hall
  omega

/-- The deleted segments are those of the SDU. -/
theorem indicateSuccess_eq (h : Covering c sdus e a n [] t) (hack : t.ackBuffer = first :: rest)
    (hsdu : first.sdu = a) :
    t.indicateSuccess c first =
      { t with
        txCurrentSize := t.txCurrentSize - (t.sdu a).size
        consumer := t.consumer ++ [.sduSuccessfulDelivery a (t.sdu a).sduId]
        heap := (t.ackBuffer.filter fun s => decide (s.sdu = a)).foldl release t.heap
        ackBuffer := t.ackBuffer.filter fun s => !decide (s.sdu = a)
        txNextAck := (t.txNextAck + 1) % c.snModulus } := by
  subst hsdu
  have hsubmitted := h.submitted_of_subset (.inr (.inr (List.Subset.refl t.ackBuffer)))
  have hfirst := hsubmitted first (hack ▸ List.mem_cons_self ..)
  have hkeys : t.ackBuffer.Pairwise fun s s' => (s.sdu : Int) ≤ s'.sdu :=
    h.ack_sorted.imp fun {s s'} hle => by unfold SegmentLe at hle; omega
  have hkey (s : RlcSduSegment) (hs : s ∈ t.ackBuffer) :
      decide ((t.sdu s.sdu).sn = (t.sdu first.sdu).sn) = true ↔ (s.sdu : Int) = first.sdu := by
    rw [decide_eq_true_iff, h.sn_eq_iff (hsubmitted s hs) hfirst, Int.natCast_inj]
  have hleast (s : RlcSduSegment) (hs : s ∈ t.ackBuffer) : (first.sdu : Int) ≤ s.sdu :=
    Int.ofNat_le.mpr (hsubmitted s hs).ge
  have hsame (s : RlcSduSegment) (hs : s ∈ t.ackBuffer) :
      decide ((t.sdu s.sdu).sn = (t.sdu first.sdu).sn) = decide (s.sdu = first.sdu) := by
    rw [Bool.eq_iff_iff, hkey s hs, decide_eq_true_iff, Int.natCast_inj]
  have htake := (Sorted.takeWhile_eq_filter hkeys hkey hleast).trans (List.filter_congr hsame)
  have hdrop := (Sorted.dropWhile_eq_filter hkeys hkey hleast).trans
    (List.filter_congr fun s hs => congrArg not (hsame s hs))
  simp only [AmTransmitter.indicateSuccess, htake, hdrop]

theorem refs_filter_ne (hi : i ≠ a) (xs : List RlcSduSegment) :
    refs (xs.filter fun s => !decide (s.sdu = a)) i = refs xs i := by
  rw [refs, refs, List.countP_filter]
  apply List.countP_congr
  intro s _
  by_cases hs : s.sdu = i
  · simp [hs, hi]
  · simp [hs]

theorem coverage_filter_ne (hi : i ≠ a) (b : Nat) (xs : List RlcSduSegment) :
    coverage (xs.filter fun s => !decide (s.sdu = a)) i b = coverage xs i b := by
  rw [coverage, coverage, List.countP_filter]
  apply List.countP_congr
  intro s _
  by_cases hs : s.sdu = i
  · simp [hs, hi]
  · simp [RlcSduSegment.Covers, hs]

theorem indicateSuccess (h : Covering c sdus e a n [] t) (hack : t.ackBuffer = first :: rest)
    (hsdu : first.sdu = a) (hall : refs t.segments a = refs t.ackBuffer a) :
    Covering c sdus e (a + 1) n [] (t.indicateSuccess c first) := by
  have ha : a < sdus.length := hsdu ▸ (h.sdu_lt (by simp [segments, hack])).2
  have han := h.lt_of_all_in_ack ha hall
  have hlarge := c.two_lt_windowSize
  have hwindow := h.window
  have hepoch := h.epoch_le
  rw [h.indicateSuccess_eq hack hsdu]
  -- the segments that stay do not refer to the SDU
  have hnone {s : RlcSduSegment} (hs : s ∈ t.txBuffer ∨ s ∈ t.waitBuffer ∨ s ∈ t.retBuffer) :
      s.sdu ≠ a := by
    simp only [segments, refs_append] at hall
    have hzero : refs t.txBuffer a = 0 ∧ refs t.waitBuffer a = 0 ∧ refs t.retBuffer a = 0 := by
      omega
    simp only [refs, List.countP_eq_zero, decide_eq_true_eq] at hzero
    rcases hs with hs | hs | hs
    · exact hzero.1 s hs
    · exact hzero.2.1 s hs
    · exact hzero.2.2 s hs
  have hdata := map_foldl_release RlcSdu.data (fun _ _ => rfl)
    (t.ackBuffer.filter fun s => decide (s.sdu = a)) t.heap
  have hother {i : Nat} (hi : i ≠ a) :
      ((t.ackBuffer.filter fun s => decide (s.sdu = a)).foldl release t.heap).getD i default =
        t.sdu i :=
    getD_foldl_release (fun s hs => of_decide_eq_true (List.mem_filter.mp hs).2) hi t.heap
  have hkept {s : RlcSduSegment} (hs : s ∈ [] ++ (t.txBuffer ++ t.waitBuffer ++ t.retBuffer ++
      t.ackBuffer.filter fun s => !decide (s.sdu = a))) : s ∈ [] ++ t.segments := by
    simp only [segments, List.nil_append, List.mem_append, List.mem_filter] at hs ⊢
    exact hs.imp_right And.left
  refine ⟨⟨⟨by omega, by omega, by push_cast; omega, h.txNext_eq, ?_⟩, hdata.trans h.data_eq,
    h.le_length, ?_, fun s hs => h.pos s (hkept hs), fun s hs => h.shape s (hkept hs), ?_, ?_,
    h.ack_sorted.filter _, ?_, h.size_pos, ?_, ?_⟩, h.queue, h.queue_last⟩
  · dsimp only
    rw [h.txNextAck_eq, Int.emod_add_emod]
    congr 1
    push_cast
    ring
  · intro s hs
    have hs' : s ∈ t.waitBuffer ++ t.retBuffer ++ t.ackBuffer ∧ s.sdu ≠ a := by
      simp only [List.nil_append, List.mem_append, List.mem_filter] at hs ⊢
      rcases hs with (hs | hs) | ⟨hs, hne⟩
      · exact ⟨.inl (.inl hs), hnone (.inr (.inl hs))⟩
      · exact ⟨.inl (.inr hs), hnone (.inr (.inr hs))⟩
      · exact ⟨.inr hs, by simpa using hne⟩
    obtain ⟨⟨hge, hle, hlt, hsn⟩, hlength⟩ := h.submitted s hs'.1
    refine ⟨⟨Nat.lt_of_le_of_ne hge hs'.2.symm, hle, by push_cast; omega, ?_⟩, hlength⟩
    exact (congrArg RlcSdu.sn (hother hs'.2)).trans hsn
  · intro i hge hlt b
    have hcoverage := h.coverage_eq i (by omega) hlt b
    simp only [segments, List.nil_append, coverage_append] at hcoverage ⊢
    rw [coverage_filter_ne (by omega), hcoverage]
  · intro i hge hlt
    have hrefs := h.refCount_eq i (by omega) hlt
    simp only [segments, List.nil_append, refs_append] at hrefs ⊢
    rw [refs_filter_ne (by omega), ← hrefs, sdu, hother (by omega)]
  · intro i
    rw [Reported]
    simp only [List.mem_append, List.mem_singleton, Indication.sduSuccessfulDelivery.injEq,
      exists_or]
    have hreported := h.reported_iff i
    rw [Reported] at hreported
    rw [hreported]
    constructor
    · rintro (hlt | ⟨_, rfl, _⟩)
      · exact hlt.trans (Nat.lt_succ_self a)
      · exact Nat.lt_succ_self i
    · intro hlt
      rcases Nat.lt_succ_iff_lt_or_eq.mp hlt with hlt | rfl
      · exact .inl hlt
      · exact .inr ⟨_, rfl, rfl⟩
  · dsimp only
    rw [h.size_eq, totalSize_eq ha, RlcSdu.size, h.data]
    push_cast
    ring
  · have := h.size_le
    dsimp only
    omega

/-- The octets of an SDU that only acknowledged segments refer to are acknowledged. -/
theorem exists_covers_of_all_in_ack (h : Covering c sdus e a n [] t) (ha : a < sdus.length)
    (hall : refs t.segments a = refs t.ackBuffer a) {b : Nat} (hb : b < (sdus.getD a []).length) :
    ∃ s ∈ t.ackBuffer, s.Covers a b = true := by
  have hcoverage := h.coverage_eq a le_rfl ha b
  simp only [segments, refs_append] at hall
  have htx : coverage t.txBuffer a b = 0 := coverage_eq_zero_of_refs (by omega)
  have hwait : coverage t.waitBuffer a b = 0 := coverage_eq_zero_of_refs (by omega)
  have hret : coverage t.retBuffer a b = 0 := coverage_eq_zero_of_refs (by omega)
  rw [if_pos hb] at hcoverage
  simp only [segments, List.nil_append, coverage_append, htx, hwait, hret] at hcoverage
  exact List.countP_pos_iff.mp (by rw [coverage] at hcoverage; omega)

/-- Reports go on from SDU to SDU. All octets of those that are reported were acknowledged. -/
theorem checkForSuccessIndication (h : Covering c sdus e a n [] t) (turns : Nat) :
    ∃ a' ≥ a, Covering c sdus e a' n [] (AmTransmitter.checkForSuccessIndication c turns t) ∧
      (AmTransmitter.checkForSuccessIndication c turns t).ackBuffer ⊆ t.ackBuffer ∧
      ∀ i, a ≤ i → i < a' → ∀ b < (sdus.getD i []).length,
        ∃ s ∈ t.ackBuffer, s.Covers i b = true := by
  induction turns generalizing a t with
  | zero => exact ⟨a, le_rfl, h, List.Subset.refl _, fun i hge hlt => absurd hlt hge.not_gt⟩
  | succ turns ih =>
    rw [AmTransmitter.checkForSuccessIndication]
    split
    · exact ⟨a, le_rfl, h, List.Subset.refl _, fun i hge hlt => absurd hlt hge.not_gt⟩
    · next first rest hack =>
      split_ifs with hready
      · obtain ⟨hsdu, hall⟩ := h.areAllSegmentsInAck_iff hack hready.1
        have hall := hall.mp hready.2
        have ha : a < sdus.length := hsdu ▸ (h.sdu_lt (by simp [segments, hack])).2
        obtain ⟨a', hge, h', hsub, hacked⟩ := ih (h.indicateSuccess hack hsdu hall)
        have hfewer : (t.indicateSuccess c first).ackBuffer ⊆ t.ackBuffer := by
          rw [h.indicateSuccess_eq hack hsdu]
          exact List.filter_subset_self _
        refine ⟨a', by omega, h', List.Subset.trans hsub hfewer, fun i hi hlt b hb => ?_⟩
        rcases hi.eq_or_lt with rfl | hi
        · exact h.exists_covers_of_all_in_ack ha hall hb
        · obtain ⟨s, hs, hcovers⟩ := hacked i hi hlt b hb
          exact ⟨s, hfewer hs, hcovers⟩
      · exact ⟨a, le_rfl, h, List.Subset.refl _, fun i hge hlt => absurd hlt hge.not_gt⟩

theorem receiveStatusPdu (h : Covering c sdus e a n [] t) (pdu : StatusPdu) :
    ∃ a', Covering c sdus e a' n [] (t.receiveStatusPdu c pdu) := by
  have hnacked {t : AmTransmitter} (h : Covering c sdus e a n [] t) :=
    List.foldlRecOn (motive := fun p : AmTransmitter × List Int => Covering c sdus e a n [] p.1)
      pdu.nackBlocks (fun p block => AmTransmitter.nackBlockReceived c p.1 block p.2)
      (b := (t.ackReceived c pdu.ackSn, [])) (h.ackReceived pdu.ackSn)
      fun p hp block _ => hp.nackBlockReceived block p.2
  have hstopped : Covering c sdus e a n []
      (if t.snCompareTx c t.pollSn pdu.ackSn < 0 then t.stopPollRetransmit else t) := by
    split_ifs
    · exact h.stopPollRetransmit
    · exact h
  obtain ⟨a', _, h', _⟩ := (hnacked hstopped).checkForSuccessIndication _
  exact ⟨a', h'⟩

end Covering

end AmTransmitter

end Quicup.Ueransim.Rlc
