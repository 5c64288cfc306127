import Quicup.Ueransim.Rlc.Delivery

/-!
# Acknowledgement of SDUs

A STATUS PDU that can say all that is missing reports on the SDUs in front of its ACK_SN. The
transmitter that takes it keeps only segments acknowledged whose octets have been received,
and reports only SDUs that have been received completely.
-/

namespace Quicup.Ueransim.Rlc

open Circular

/-- What a STATUS PDU says about the SDUs in front of its ACK_SN: the octets that have not been
received are reported as missing. -/
structure Reports (c : AmConfig) (sdus : List OctetString) (n : Nat) (received : Nat → Nat → Prop)
    (acked : Nat) (pdu : StatusPdu) : Prop where
  ack_eq : pdu.ackSn = (acked : Int) % c.snModulus
  le : acked ≤ n
  octets : ∀ i < acked, ∀ b < (sdus.getD i []).length,
    received i b ∨ pdu.Nacks c.snModulus ((i : Int) % c.snModulus) b

theorem Reports.grow {c : AmConfig} {sdus sdus' : List OctetString} {n n' acked : Nat}
    {received received' : Nat → Nat → Prop} {pdu : StatusPdu}
    (h : Reports c sdus n received acked pdu) (hsdus : sdus <+: sdus') (hn : n ≤ n')
    (hlength : n ≤ sdus.length) (hreceived : ∀ i b, received i b → received' i b) :
    Reports c sdus' n' received' acked pdu := by
  have hle := h.le
  refine ⟨h.ack_eq, hle.trans hn, fun i hi b hb => ?_⟩
  rw [getD_of_extends hsdus (by omega)] at hb
  exact (h.octets i hi b hb).imp_left (hreceived i b)

/-! ## Construction -/

namespace AmReceiver

variable {c : AmConfig} {sdus : List OctetString} {n passed i : Nat} {r r' : AmReceiver}
  {delivered : List OctetString} {maxSize : Nat}

/-- One STATUS PDU can report all that is missing: the SNs below `RX_Highest_Status` do not
wrap, no missing range has more than 255 SNs, and all blocks fit. -/
structure Representable (c : AmConfig) (r : AmReceiver) (maxSize : Nat) : Prop where
  noWrap : r.rxNext ≤ r.rxHighestStatus
  ranges : ∀ g, IsMissingRange r g → g.snEnd - g.snStart < 255
  fits : ∀ gaps : List MissingBlock, gaps.Pairwise RangeBefore →
    (∀ g ∈ gaps, IsMissingRange r g) →
    StatusPdu.encodedSize (isShortSn c) (gaps.map (nackBlockOf c)) ≤
      min maxSize StatusPdu.calculatedSizeBufferLen

/-- A receiver with nothing to report can say so. -/
theorem representable_of_eq (hstatus : r.rxNext = r.rxHighestStatus) (hgrant : 3 ≤ maxSize) :
    Representable c r maxSize := by
  have hnone {g : MissingBlock} (hg : IsMissingRange r g) : False := by
    have hfrom := hg.from_next
    have hbelow := hg.below_status
    have hle := hg.start_le.1
    omega
  refine ⟨hstatus.le, fun g hg => (hnone hg).elim, fun gaps _ hgaps => ?_⟩
  have hempty : gaps = [] :=
    List.eq_nil_iff_forall_not_mem.mpr fun g hg => hnone (hgaps g hg)
  rw [hempty, List.map_nil]
  have hlarge : 3 ≤ StatusPdu.calculatedSizeBufferLen := by decide
  exact le_min hgrant hlarge

/-- Segments of SDUs of the other side are such as the search expects them. -/
theorem Receiving.reportable (h : Receiving c sdus n r passed delivered)
    (hsizes : ∀ i < sdus.length, (sdus.getD i []).length ≤ reassembleBufferLen)
    (hr : Representable c r maxSize) : Reportable c r maxSize := by
  refine ⟨hr.noWrap, fun a ha b hb hsn hlast => ?_, fun a ha _ => ?_, hr.ranges, hr.fits⟩
  · have hbuilta := (h.built_number ha).segment
    have hbuiltb := (h.built_number hb).segment
    rw [← hsn] at hbuiltb
    have hend := hbuilta.last_iff.mp hlast
    refine ⟨hbuiltb.stop_le.trans_eq hend.symm, fun hstop => ?_⟩
    exact hbuiltb.last_iff.mpr (hstop.trans hend)
  · have hbuilt := h.built_number ha
    have hsize := hsizes _ hbuilt.lt
    have hstop := hbuilt.segment.stop_le
    rw [reassembleBufferLen] at hsize
    omega

/-- The ACK_SN is `RX_Next` or the SN behind a delivered one. -/
theorem findAckSn_cases (c : AmConfig) (r : AmReceiver) :
    r.findAckSn c = r.rxNext ∨ ∃ item ∈ r.rxBuffer, item.isProcessed = true ∧
      r.findAckSn c = (item.sn + 1) % c.snModulus := by
  rw [findAckSn]
  refine List.foldlRecOn (motive := fun ackSn => ackSn = r.rxNext ∨ ∃ item ∈ r.rxBuffer,
    item.isProcessed = true ∧ ackSn = (item.sn + 1) % c.snModulus) _ _ (.inl rfl) ?_
  intro ackSn hack item hitem
  split_ifs with hprocessed
  · exact .inr ⟨item, (List.takeWhile_prefix _).subset hitem, hprocessed.2, rfl⟩
  · exact hack

theorem createStatusPdu_ackSn {pdu : StatusPdu}
    (hrun : r.createStatusPdu c maxSize false = .ok (r', some pdu)) :
    pdu.ackSn = r.findAckSn c := by
  rw [createStatusPdu] at hrun
  by_cases hgrant : maxSize < 3
  · rw [if_pos hgrant] at hrun
    cases hrun
  rw [if_neg hgrant] at hrun
  rcases hblocks : r.findNackBlocks c maxSize (maxSize + 1) r.rxNext 0 [] with fault | blocks
  · rw [hblocks] at hrun
    cases hrun
  · rw [hblocks] at hrun
    cases hrun
    rfl

/-- The ACK_SN is the SN of an SDU up to the first one that is not submitted. -/
theorem Receiving.number_findAckSn (h : Receiving c sdus n r passed delivered) :
    passed ≤ r.number c passed (r.findAckSn c) ∧ r.number c passed (r.findAckSn c) ≤ n ∧
      r.findAckSn c = (r.number c passed (r.findAckSn c) : Int) % c.snModulus := by
  have hm := c.snModulus_eq
  have hlarge := c.two_lt_windowSize
  have hwindow := h.window
  rcases findAckSn_cases c r with hnext | ⟨item, hitem, hprocessed, hack⟩
  · rw [hnext, number, modulusRx_eq, distance_self]
    exact ⟨by omega, h.passed_le, by simpa using h.next_eq⟩
  · have hon := h.sorted.on item hitem
    have hdelivered := (h.heads.isDelivered_iff item.sn).mpr ⟨item, hitem, rfl, hprocessed⟩
    have hlt := h.number_lt hon hdelivered
    have hpos := distance_nonneg h.next_on hon
    have hsn := (h.built_number hitem).sn_eq
    have hnumber : r.number c passed (r.findAckSn c) = r.number c passed item.sn + 1 := by
      simp only [number, modulusRx_eq] at hlt ⊢
      rw [hack, distance_advance h.next_on hon zero_le_one (by omega)]
      omega
    refine ⟨by rw [number]; omega, hnumber ▸ hlt, ?_⟩
    have hbehind := Int.emod_add_emod (r.number c passed item.sn : Int) c.snModulus 1
    rw [hnumber, hack, Nat.cast_add, Nat.cast_one, ← hbehind, ← hsn]

/-- The STATUS PDU reports on the SDUs of the other side. -/
theorem Receiving.createStatusPdu (h : Receiving c sdus n r passed delivered)
    (hsizes : ∀ i < sdus.length, (sdus.getD i []).length ≤ reassembleBufferLen)
    (hr : Representable c r maxSize) (hgrant : 3 ≤ maxSize) :
    ∃ pdu, r.createStatusPdu c maxSize false = .ok (r.statusConstructed, some pdu) ∧
      Reports c sdus n (Received c r passed) (r.number c passed pdu.ackSn) pdu := by
  obtain ⟨pdu, hrun, htruthful⟩ := h.toSound.truthful (h.reportable hsizes hr) hgrant
  have hack := createStatusPdu_ackSn hrun
  obtain ⟨hge, hle, hsn⟩ := h.number_findAckSn
  rw [← hack] at hge hle hsn
  refine ⟨pdu, hrun, hsn, hle, fun i hi b hb => ?_⟩
  by_cases hpassed : i < passed
  · exact .inl (.inl (.inl hpassed))
  have hpassed := not_lt.mp hpassed
  have hon : On c.snModulus ((i : Int) % c.snModulus) := by
    rw [← add_zero (i : Int)]
    exact .advance c.snModulus_pos _ _
  have hnumber := h.number_eq hpassed (hi.le.trans hle)
  by_cases hdelivered : isDelivered r.rxBuffer ((i : Int) % c.snModulus) = true
  · exact .inl (.inl (.inr ⟨_, hon, hdelivered, hnumber⟩))
  by_cases hmissing : r.Missing ((i : Int) % c.snModulus) b
  · refine .inr (htruthful.acked _ b hon ?_ hmissing)
    rw [number] at hi
    rw [h.modulusRx_number hpassed (hi.le.trans hle)]
    omega
  · simp only [Missing, Bool.eq_false_iff.mpr hdelivered, true_and, not_forall] at hmissing
    obtain ⟨item, hitem, hitemsn, hhas⟩ := hmissing
    have hbuilt := (h.built_number hitem).segment
    rw [hitemsn, hnumber] at hbuilt
    refine .inl (.inr ⟨item, hitem, by rw [hitemsn, hnumber], ?_⟩)
    by_contra hnot
    refine hhas ⟨hnot, fun hlast => ?_⟩
    rw [hbuilt.last_iff.mp hlast]
    exact hb

end AmReceiver

/-! ## Acknowledged segments -/

namespace AmTransmitter

variable {c : AmConfig} {sdus : List OctetString} {e a n acked : Nat} {t t' : AmTransmitter}
  {s : RlcSduSegment} {pdu : StatusPdu} {received : Nat → Nat → Prop} {soStart soEnd : Int}

/-- Only octets that have been received are acknowledged. -/
def AcksReceived (received : Nat → Nat → Prop) (t : AmTransmitter) : Prop :=
  ∀ s ∈ t.ackBuffer, ∀ b, s.so ≤ b → b < s.so + s.size → received s.sdu b

theorem createAmdPdu_ackBuffer (maxSize : Nat) :
    (t.createAmdPdu c maxSize).1.ackBuffer = t.ackBuffer := by
  have hsubmit (t : AmTransmitter) (s : RlcSduSegment) (p : Bool) :
      (t.submit c s p).1.ackBuffer = t.ackBuffer := by
    rw [submit, generateAmdForSdu]
    dsimp only
    split_ifs <;> rfl
  have hret : (t.createRetPdu c maxSize).1.ackBuffer = t.ackBuffer := by
    rw [createRetPdu]
    split
    · rfl
    · split_ifs
      · rfl
      · split
        · rfl
        · exact hsubmit _ _ _
  have htx (t : AmTransmitter) : (t.createTxPdu c maxSize).1.ackBuffer = t.ackBuffer := by
    rw [createTxPdu]
    split_ifs
    · rfl
    · split
      · rfl
      · split_ifs
        · rfl
        · dsimp only
          split
          · rfl
          · exact hsubmit _ _ _
  rw [createAmdPdu]
  rcases hresult : t.createRetPdu c maxSize with ⟨t', _ | pdu⟩
  · rw [hresult] at hret
    exact (htx t').trans hret
  · rw [hresult] at hret
    exact hret

theorem timerCycle_ackBuffer (currentTime : Int) :
    (t.timerCycle c currentTime).ackBuffer = t.ackBuffer := by
  rw [timerCycle]
  dsimp only
  split_ifs
  · rw [actionsOnPollRetransmitTimerExpired]
    split_ifs
    · split
      · rfl
      · exact Covering.retransmit_ackBuffer ..
    · rfl
  · rfl

theorem receiveSdu_ackBuffer (data : OctetString) (sduId : Int) :
    (t.receiveSdu c data sduId).ackBuffer = t.ackBuffer := by
  rw [receiveSdu]
  split_ifs <;> rfl

theorem mem_insertAllToAck {segments : List RlcSduSegment}
    (hs : s ∈ (t.insertAllToAck c segments).ackBuffer) : s ∈ segments ∨ s ∈ t.ackBuffer := by
  have hperm : (segments.foldl (t.insertToList c) t.ackBuffer).Perm (segments ++ t.ackBuffer) :=
    perm_insertAll (t.sduListCompare c) segments t.ackBuffer
  exact List.mem_append.mp (hperm.subset hs)

theorem uncountRetransmissions_ackBuffer (xs : List RlcSduSegment) (alreadyDec : List Int)
    (t : AmTransmitter) : (uncountRetransmissions xs alreadyDec t).ackBuffer = t.ackBuffer := by
  induction xs generalizing alreadyDec t with
  | nil => rfl
  | cons x xs ih =>
    rw [uncountRetransmissions]
    split_ifs
    · exact ih alreadyDec t
    · exact ih _ _

/-- A segment that becomes acknowledged is below the ACK_SN. -/
theorem mem_ackReceived {ackSn : Int} (hs : s ∈ (t.ackReceived c ackSn).ackBuffer) :
    s ∈ t.ackBuffer ∨ (s ∈ t.waitBuffer ∨ s ∈ t.retBuffer) ∧ t.isBelow c ackSn s = true := by
  rw [ackReceived] at hs
  rcases mem_insertAllToAck hs with hret | hs
  · exact .inr ⟨.inr (List.mem_filter.mp hret).1, (List.mem_filter.mp hret).2⟩
  · rw [uncountRetransmissions_ackBuffer] at hs
    rcases mem_insertAllToAck hs with hwait | hs
    · exact .inr ⟨.inl (List.mem_filter.mp hwait).1, (List.mem_filter.mp hwait).2⟩
    · exact .inl hs

/-- The block reports no octet of the segment, if its SDU has been submitted completely. -/
def Spared (c : AmConfig) (n : Nat) (block : NackBlock) (s : RlcSduSegment) : Prop :=
  s.sdu < n → ∀ b, s.so ≤ b → b < s.so + s.size →
    ¬ block.Covers c.snModulus ((s.sdu : Int) % c.snModulus) b

theorem soOverlap_of_mem {b : Nat} (hfirst : s.so ≤ b) (hlast : b < s.so + s.size)
    (hstart : soStart ≤ b) (hend : soEnd = -1 ∨ b ≤ soEnd) :
    soOverlap soStart soEnd s.so (s.so + s.size - 1) = true := by
  rw [soOverlap]
  split_ifs <;> rw [decide_eq_true_iff] <;> omega

/-- A NACK keeps segments acknowledged only where it does not report them. -/
theorem mem_nackReceived {nackSn : Int} {already : List Int} (h : Covering c sdus 0 a n [] t)
    (hs : s ∈ (t.nackReceived c nackSn soStart soEnd already).1.ackBuffer) :
    s ∈ t.ackBuffer ∧ (s.sdu < n → nackSn = (s.sdu : Int) % c.snModulus →
      soOverlap soStart soEnd s.so (s.so + s.size - 1) = false) := by
  have hsn {s : RlcSduSegment} (hs : s ∈ t.ackBuffer) :
      (t.sdu s.sdu).sn = (s.sdu : Int) % c.snModulus ∧
        t.modulusTx c ((s.sdu : Int) % c.snModulus) = (s.sdu : Int) - a := by
    have hsubmitted := h.submitted_of_subset (.inr (.inr (List.Subset.refl _))) s hs
    have hnumber := h.modulusTx_sn hsubmitted
    have hsn := hsubmitted.sn_eq
    rw [Nat.cast_zero, sub_zero] at hsn
    exact ⟨hsn, hsn ▸ hnumber⟩
  rw [nackReceived] at hs
  split_ifs at hs with hguard
  · refine ⟨hs, fun hlt heq => ?_⟩
    have hge := (h.submitted_of_subset (.inr (.inr (List.Subset.refl _))) s hs).ge
    have hend := h.modulusTx_number h.le le_rfl
    rw [← h.txNext_eq] at hend
    rw [heq, snCompareTx, snCompareTx, (hsn hs).2, hend, modulusTx_eq, distance_self] at hguard
    omega
  · rw [Covering.retransmit_ackBuffer] at hs
    obtain ⟨hs, hnot⟩ := List.mem_filter.mp hs
    refine ⟨hs, fun _ heq => ?_⟩
    rw [isNacked, (hsn hs).1, heq] at hnot
    simpa using hnot

/-- Segments that are acknowledged after a loop over NACKs were so before, and are spared by
every one of them. -/
theorem foldl_spares {β : Type} {f : AmTransmitter × List Int → β → AmTransmitter × List Int}
    {q : β → RlcSduSegment → Prop}
    (hstep : ∀ p x, Covering c sdus 0 a n [] p.1 → Covering c sdus 0 a n [] (f p x).1 ∧
      ∀ s ∈ (f p x).1.ackBuffer, s ∈ p.1.ackBuffer ∧ q x s)
    (xs : List β) {p : AmTransmitter × List Int} (h : Covering c sdus 0 a n [] p.1) :
    Covering c sdus 0 a n [] (xs.foldl f p).1 ∧
      ∀ s ∈ (xs.foldl f p).1.ackBuffer, s ∈ p.1.ackBuffer ∧ ∀ x ∈ xs, q x s := by
  induction xs generalizing p with
  | nil => exact ⟨h, fun s hs => ⟨hs, fun x hx => absurd hx List.not_mem_nil⟩⟩
  | cons x xs ih =>
    obtain ⟨hafter, hspares⟩ := hstep p x h
    obtain ⟨hend, hrest⟩ := ih hafter
    refine ⟨hend, fun s hs => ?_⟩
    obtain ⟨hmem, hall⟩ := hrest s hs
    exact ⟨(hspares s hmem).1, List.forall_mem_cons.mpr ⟨(hspares s hmem).2, hall⟩⟩

/-- The block keeps the segments acknowledged that it spares. -/
theorem nackBlockReceived_spares (h : Covering c sdus 0 a n [] t) (block : NackBlock)
    (already : List Int) :
    Covering c sdus 0 a n [] (t.nackBlockReceived c block already).1 ∧
      ∀ s ∈ (t.nackBlockReceived c block already).1.ackBuffer,
        s ∈ t.ackBuffer ∧ Spared c n block s := by
  have hfold := foldl_spares (c := c) (f := fun p i => nackOf c p.1 block i p.2)
    (q := fun (i : Nat) s => s.sdu < n →
      (block.nackSn + i) % c.snModulus = (s.sdu : Int) % c.snModulus →
      soOverlap (if i = 0 then block.firstSo else 0)
        (if (i : Int) = block.range - 1 then block.lastSo else -1) s.so (s.so + s.size - 1) = false)
    (fun p i hp => ⟨hp.nackReceived _ _ _ p.2, fun s hs => mem_nackReceived hp hs⟩)
    (List.range block.range.toNat) (p := (t, already)) h
  obtain ⟨hcovering, hspares⟩ := hfold
  have hall : ∀ s ∈ ((List.range block.range.toNat).foldl (fun p i => nackOf c p.1 block i p.2)
      (t, already)).1.ackBuffer, s ∈ t.ackBuffer ∧ Spared c n block s := by
    intro s hs
    obtain ⟨hmem, hnot⟩ := hspares s hs
    refine ⟨hmem, fun hlt b hfirst hlast => ?_⟩
    rintro ⟨i, hi, hrange, hsn, hstart, hend⟩
    obtain ⟨k, rfl⟩ := Int.eq_ofNat_of_zero_le hi
    have hmissed := hnot k (List.mem_range.mpr (by omega)) hlt hsn.symm
    rw [soOverlap_of_mem hfirst hlast] at hmissed
    · cases hmissed
    · split_ifs with hk
      · exact hstart (by omega)
      · exact Int.natCast_nonneg b
    · split_ifs with hk
      · exact hend hk
      · exact .inl rfl
  rw [AmTransmitter.nackBlockReceived]
  dsimp only
  split_ifs
  · exact ⟨hcovering.stopPollRetransmit, hall⟩
  · exact ⟨hcovering, hall⟩

/-- A STATUS PDU that does not lag behind what has been reported acknowledges only octets that
have been received, and SDUs are reported that have been received completely. -/
theorem Covering.receiveStatusPdu_acks (h : Covering c sdus 0 a n [] t)
    (hacks : AcksReceived received t) (hreports : Reports c sdus n received acked pdu)
    (hfresh : a ≤ acked ∨ t.waitBuffer = [] ∧ t.retBuffer = []) :
    ∃ a' ≥ a, Covering c sdus 0 a' n [] (t.receiveStatusPdu c pdu) ∧
      AcksReceived received (t.receiveStatusPdu c pdu) ∧
      ∀ i, a ≤ i → i < a' → ∀ b < (sdus.getD i []).length, received i b := by
  obtain ⟨t₀, ht₀⟩ : ∃ t₀, t₀ =
      if t.snCompareTx c t.pollSn pdu.ackSn < 0 then t.stopPollRetransmit else t := ⟨_, rfl⟩
  have hstopped : Covering c sdus 0 a n [] t₀ ∧ t₀.waitBuffer = t.waitBuffer ∧
      t₀.retBuffer = t.retBuffer ∧ t₀.ackBuffer = t.ackBuffer := by
    rw [ht₀]
    split_ifs
    · exact ⟨h.stopPollRetransmit, rfl, rfl, rfl⟩
    · exact ⟨h, rfl, rfl, rfl⟩
  obtain ⟨h₀, hwait, hret, hack⟩ := hstopped
  -- what becomes acknowledged is in front of the ACK_SN
  have hbelow : ∀ s ∈ (t₀.ackReceived c pdu.ackSn).ackBuffer,
      (∀ b, s.so ≤ b → b < s.so + s.size → received s.sdu b) ∨ s.sdu < acked := by
    intro s hs
    rcases mem_ackReceived hs with hs | ⟨hs, hbelow⟩
    · exact .inl (hacks s (hack ▸ hs))
    · have hle : a ≤ acked := by
        refine hfresh.resolve_right fun hempty => ?_
        rw [hwait, hret, hempty.1, hempty.2] at hs
        simp at hs
      have hsubmitted : Submitted c 0 a n t₀ s := by
        rcases hs with hs | hs
        · exact h₀.submitted_of_subset (.inl (List.Subset.refl _)) s hs
        · exact h₀.submitted_of_subset (.inr (.inl (List.Subset.refl _))) s hs
      have hnumber := h₀.modulusTx_number hle hreports.le
      rw [Nat.cast_zero, sub_zero, ← hreports.ack_eq] at hnumber
      rw [isBelow, decide_eq_true_iff, snCompareTx, h₀.modulusTx_sn hsubmitted, hnumber] at hbelow
      exact .inr (by omega)
  obtain ⟨hnacked, hspares⟩ := foldl_spares (c := c) (q := Spared c n)
    (fun p block hp => nackBlockReceived_spares hp block p.2) pdu.nackBlocks
    (p := (t₀.ackReceived c pdu.ackSn, [])) (h₀.ackReceived pdu.ackSn)
  have hkept : AcksReceived received (pdu.nackBlocks.foldl
      (fun p block => AmTransmitter.nackBlockReceived c p.1 block p.2)
      (t₀.ackReceived c pdu.ackSn, [])).1 := by
    intro s hs b hfirst hlast
    obtain ⟨hmem, hspared⟩ := hspares s hs
    rcases hbelow s hmem with hreceived | hlt
    · exact hreceived b hfirst hlast
    · obtain ⟨hge, hlength⟩ := hnacked.sdu_lt (s := s) (by simp [segments, hs])
      have hstop := hnacked.stop_le (s := s) (by simp [segments, hs]) hge hlength
      refine (hreports.octets s.sdu hlt b (by omega)).resolve_right ?_
      rintro ⟨block, hblock, hcovers⟩
      exact hspared block hblock (hlt.trans_le hreports.le) b hfirst hlast hcovers
  obtain ⟨a', hge, h', hsub, hcovers⟩ := hnacked.checkForSuccessIndication _
  rw [AmTransmitter.receiveStatusPdu]
  dsimp only
  rw [← ht₀]
  refine ⟨a', hge, h', fun s hs => hkept s (hsub hs), fun i hi hlt b hb => ?_⟩
  obtain ⟨s, hs, hin⟩ := hcovers i hi hlt b hb
  obtain ⟨rfl, hfirst, hlast⟩ := RlcSduSegment.covers_iff.mp hin
  exact hkept s hs b hfirst hlast

end AmTransmitter

end Quicup.Ueransim.Rlc
