import Quicup.Ueransim.Rlc.StatusReport
import Quicup.Ueransim.Rlc.Window

/-!
# What a receiver misses

An octet is missing when its SDU is not delivered, no buffered PDU covers it and it is not
behind the end of the SDU. Over every run a delivered SDU misses nothing and an SDU that is
not delivered misses an octet.
-/

namespace Quicup.Ueransim.Rlc

open Circular

def AmdPdu.Has (item : AmdPdu) (b : Nat) : Prop := item.so ≤ b ∧ b < item.stop

/-- An octet that the items of an SN neither cover nor place behind the end. -/
def Absent (items : List AmdPdu) (b : Nat) : Prop :=
  ∀ item ∈ items, ¬ item.Has b ∧ (item.si.hasLast = true → b < item.stop)

variable {items : List AmdPdu} {last : Int}

/-- Segments that reach the last one without a gap leave out nothing. -/
theorem not_absent_of_reachesLast {b : Nat} (h : reachesLast items last = true) (hb : last < b) :
    ¬ Absent items b := by
  induction items generalizing last with
  | nil => exact absurd h Bool.false_ne_true
  | cons item rest ih =>
    intro habsent
    obtain ⟨hhas, hlast⟩ := habsent item (List.mem_cons_self ..)
    have hrest : Absent rest b := fun other hother => habsent other (List.mem_cons_of_mem _ hother)
    simp only [AmdPdu.Has, AmdPdu.stop] at hhas hlast
    rw [reachesLast] at h
    split_ifs at h with hgap hislast
    · have := hlast hislast
      omega
    · refine ih h ?_ hrest
      split <;> omega

/-- Segments that do not reach the last one leave out an octet. -/
theorem exists_absent_of_not_reachesLast (h : reachesLast items last = false) (hlast : -1 ≤ last)
    (hsorted : items.Pairwise fun a b => a.so ≤ b.so) (hsize : ∀ item ∈ items, 0 < item.size) :
    ∃ b : Nat, last < b ∧ Absent items b := by
  induction items generalizing last with
  | nil => exact ⟨(last + 1).toNat, by omega, fun item hitem => absurd hitem List.not_mem_nil⟩
  | cons item rest ih =>
    obtain ⟨hitem, hrest⟩ := List.pairwise_cons.mp hsorted
    rw [reachesLast] at h
    split_ifs at h with hgap hislast
    · refine ⟨(last + 1).toNat, by omega, List.forall_mem_cons.mpr ⟨?_, fun other hother => ?_⟩⟩
      · have := hsize item (List.mem_cons_self ..)
        simp only [AmdPdu.Has, AmdPdu.stop]
        omega
      · have := hsize other (List.mem_cons_of_mem _ hother)
        have := hitem other hother
        simp only [AmdPdu.Has, AmdPdu.stop]
        omega
    · obtain ⟨b, hb, habsent⟩ := ih h (by split <;> omega) hrest
        fun other hother => hsize other (List.mem_cons_of_mem _ hother)
      have hbound : last < b ∧ (item.so : Int) + item.size - 1 < b := by
        split at hb <;> omega
      refine ⟨b, hbound.1, List.forall_mem_cons.mpr ⟨⟨?_, fun hl => absurd hl hislast⟩, habsent⟩⟩
      simp only [AmdPdu.Has, AmdPdu.stop]
      omega

namespace AmReceiver

variable {c : AmConfig} {r : AmReceiver} {pdu : AmdPdu} {sn : Int} {list list' : List AmdPdu}

/-- The receiver misses an octet of an SN. -/
def Missing (r : AmReceiver) (sn : Int) (b : Nat) : Prop :=
  isDelivered r.rxBuffer sn = false ∧
    ∀ item ∈ r.rxBuffer, item.sn = sn →
      ¬ item.Has b ∧ (item.si.hasLast = true → b < item.stop)

/-- A delivered SDU lacks no octet, and a complete one is delivered. -/
structure Whole (c : AmConfig) (list : List AmdPdu) : Prop where
  filled : ∀ sn, On c.snModulus sn → isDelivered list sn = true → ∀ b,
    ¬ Absent (itemsWithSn list sn) b
  incomplete : ∀ sn, On c.snModulus sn → isDelivered list sn = false →
    isAllSegmentsReceived list sn = false

theorem whole_nil (c : AmConfig) : Whole c [] :=
  ⟨fun _ _ h => absurd h Bool.false_ne_true, fun _ _ _ => rfl⟩

theorem isAllSegmentsReceived_congr (h : itemsWithSn list sn = itemsWithSn list' sn) :
    isAllSegmentsReceived list sn = isAllSegmentsReceived list' sn := by
  rw [isAllSegmentsReceived, isAllSegmentsReceived, h]

/-- A change of the buffer that keeps the items of an SN keeps what is known of it. -/
theorem Whole.congr (h : Whole c list) (hsame : ∀ sn, On c.snModulus sn →
      itemsWithSn list' sn = itemsWithSn list sn ∨ itemsWithSn list' sn = []) : Whole c list' := by
  refine ⟨fun sn hsn hdelivered b => ?_, fun sn hsn hnot => ?_⟩
  · rcases hsame sn hsn with heq | hnil
    · rw [heq]
      exact h.filled sn hsn ((isDelivered_congr heq).symm.trans hdelivered) b
    · simp [isDelivered, hnil] at hdelivered
  · rcases hsame sn hsn with heq | hnil
    · rw [isAllSegmentsReceived_congr heq]
      exact h.incomplete sn hsn ((isDelivered_congr heq).symm.trans hnot)
    · simp [isAllSegmentsReceived, hnil]

theorem Settled.whole_stored (h : r.Settled c) (hwhole : Whole c r.rxBuffer)
    (hdec : pdu.Decoded c) (haccepts : r.discards c pdu = false)
    (hcompletes : r.completes c pdu = false) : Whole c (r.place c pdu).rxBuffer := by
  have hnot : isAllSegmentsReceived (r.place c pdu).rxBuffer pdu.sn = false := by
    simpa [completes, haccepts] using hcompletes
  refine ⟨fun sn hsn hdelivered b habsent => ?_, fun sn hsn hfresh => ?_⟩
  · rw [h.isDelivered_place hdec hsn] at hdelivered
    refine hwhole.filled sn hsn hdelivered b fun item hitem => habsent item ?_
    rw [h.itemsWithSn_place hdec.on hsn]
    split_ifs
    · exact Sorted.mem_insert.mpr (.inr hitem)
    · exact hitem
  · by_cases hpdu : pdu.sn = sn
    · exact hpdu ▸ hnot
    · rw [isAllSegmentsReceived_congr ((h.itemsWithSn_place hdec.on hsn).trans (if_neg hpdu))]
      exact hwhole.incomplete sn hsn ((h.isDelivered_place hdec hsn).symm.trans hfresh)

theorem Settled.whole_delivered (h : r.Settled c) (hwhole : Whole c r.rxBuffer)
    (hdec : pdu.Decoded c) (haccepts : r.discards c pdu = false)
    (hcompletes : r.completes c pdu = true) (k : Nat) :
    Whole c ((markProcessed (r.place c pdu).rxBuffer pdu.sn).filter
      fun item => decide (k ≤ r.modulusRx c item.sn)) := by
  have hall : isAllSegmentsReceived (r.place c pdu).rxBuffer pdu.sn = true := by
    simpa [completes, haccepts] using hcompletes
  have hsorted : SortedFrom c.snModulus r.rxNext (r.place c pdu).rxBuffer :=
    h.sorted.insertToRxBuffer hdec.on snCompareRx_eq
  have hother {sn : Int} (hsn : On c.snModulus sn) (hne : sn ≠ pdu.sn) :
      itemsWithSn (markProcessed (r.place c pdu).rxBuffer pdu.sn) sn =
        itemsWithSn r.rxBuffer sn := by
    rw [hsorted.itemsWithSn_markProcessed hdec.on hsn, if_neg hne,
      h.itemsWithSn_place hdec.on hsn, if_neg hne.symm]
  have hmarked : Whole c (markProcessed (r.place c pdu).rxBuffer pdu.sn) := by
    refine ⟨fun sn hsn hdelivered b habsent => ?_, fun sn hsn hnot => ?_⟩
    · by_cases hpdu : sn = pdu.sn
      · rw [hpdu, hsorted.itemsWithSn_markProcessed hdec.on hdec.on, if_pos rfl] at habsent
        rcases hitems : itemsWithSn (r.place c pdu).rxBuffer pdu.sn with _ | ⟨first, rest⟩
        · simp [isAllSegmentsReceived, hitems] at hall
        · simp only [isAllSegmentsReceived, hitems] at hall
          split_ifs at hall
          refine not_absent_of_reachesLast hall (by omega : (-1 : Int) < b) fun item hitem => ?_
          exact habsent item.processed (List.mem_map_of_mem (hitems ▸ hitem))
      · rw [hother hsn hpdu] at habsent
        exact hwhole.filled sn hsn ((isDelivered_congr (hother hsn hpdu)).symm.trans hdelivered) b
          habsent
    · have hpdu : sn ≠ pdu.sn := by
        rintro rfl
        rcases hitems : itemsWithSn (r.place c pdu).rxBuffer pdu.sn with _ | ⟨first, rest⟩
        · simp [isAllSegmentsReceived, hitems] at hall
        · rw [isDelivered, hsorted.itemsWithSn_markProcessed hdec.on hdec.on, if_pos rfl,
            hitems] at hnot
          exact absurd hnot Bool.true_eq_false.mp
      rw [isAllSegmentsReceived_congr (hother hsn hpdu)]
      exact hwhole.incomplete sn hsn ((isDelivered_congr (hother hsn hpdu)).symm.trans hnot)
  have hsorted' := hsorted.markProcessed hdec.on
  refine hmarked.congr fun sn hsn => ?_
  by_cases hk : k ≤ r.modulusRx c sn
  · exact .inl (hsorted'.itemsWithSn_filter hsn fun item _ heq => decide_eq_true (heq ▸ hk))
  · refine .inr (List.eq_nil_iff_forall_not_mem.mpr fun item hitem => hk ?_)
    obtain ⟨hmem, rfl⟩ := mem_itemsWithSn hitem
    exact of_decide_eq_true (List.mem_filter.mp hmem).2

/-- What is known of a receiver between two operations of any run. -/
structure Sound (c : AmConfig) (r : AmReceiver) : Prop extends Settled c r where
  whole : Whole c r.rxBuffer

theorem Sound.reception (h : r.Sound c) (hdec : pdu.Decoded c) {stale : Bool} {r' : AmReceiver}
    {sdu : Option OctetString} (hrun : r.receiveAmdPdu c stale pdu = .ok (r', sdu)) :
    Sound c r' := by
  have hreception := h.toSettled.reception hdec stale
  rw [hrun] at hreception
  refine ⟨hreception.settled, ?_⟩
  cases hreception with
  | discarded _ hbuffer =>
    rw [hbuffer]
    exact h.whole
  | stored haccepts hcompletes hbuffer =>
    rw [hbuffer]
    exact h.whole_stored h.whole hdec haccepts hcompletes
  | @delivered _ k haccepts hcompletes _ hbuffer =>
    rw [hbuffer]
    exact h.whole_delivered h.whole hdec haccepts hcompletes k

/-- Every run that has not ended in a fault has left a sound receiver. -/
theorem sound_of_run {P : Except Fault AmReceiver → Event → Prop} {events : List Event}
    {s : Except Fault AmReceiver} (hrun : System.Run (system c) P events s) :
    ∀ r, s = .ok r → Sound c r := by
  have hinit : ∀ s, (system c).init s → ∀ r, s = .ok r → Sound c r := by
    rintro s rfl r hr
    cases hr
    exact ⟨settled_cleared c, whole_nil c⟩
  have hsound : ∀ s e t, (∀ r, s = .ok r → Sound c r) → P s e → (system c).step s e t →
      ∀ r, t = .ok r → Sound c r := by
    intro s e t hbefore _ hstep
    cases hstep with
    | @amd r pdu stale hdec =>
      intro r' hr'
      rcases hresult : r.receiveAmdPdu c stale pdu with fault | ⟨r'', sdu⟩
      · rw [hresult] at hr'
        cases hr'
      · rw [hresult] at hr'
        cases hr'
        exact (hbefore r rfl).reception hdec hresult
    | @timerCycle r currentTime =>
      intro r' hr'
      obtain ⟨r'', hrun, hsettled, hbuffer, _⟩ := (hbefore r rfl).toSettled.timerCycle currentTime
      rw [hrun] at hr'
      cases hr'
      exact ⟨hsettled, hbuffer ▸ (hbefore r rfl).whole⟩
    | @status r =>
      intro r' hr'
      cases hr'
      have h := hbefore r rfl
      exact ⟨⟨h.toWindow.with_others .., h.next_undelivered, h.trigger_pos, h.trigger_le⟩, h.whole⟩
  exact hrun.invariant hinit hsound

theorem Window.mem_itemsWithSn_iff (h : r.Window c) (hsn : On c.snModulus sn) {item : AmdPdu} :
    item ∈ itemsWithSn r.rxBuffer sn ↔ item ∈ r.rxBuffer ∧ item.sn = sn := by
  rw [h.sorted.itemsWithSn_eq hsn, List.mem_filter, decide_eq_true_iff]

theorem Window.missing_iff (h : r.Window c) (hsn : On c.snModulus sn) (b : Nat) :
    r.Missing sn b ↔
      isDelivered r.rxBuffer sn = false ∧ Absent (itemsWithSn r.rxBuffer sn) b := by
  simp only [Missing, Absent, h.mem_itemsWithSn_iff hsn, and_imp]

/-- An SDU that is not delivered misses an octet. -/
theorem Sound.exists_missing (h : r.Sound c) (hsn : On c.snModulus sn)
    (hnot : isDelivered r.rxBuffer sn = false) : ∃ b, r.Missing sn b := by
  have hincomplete := h.whole.incomplete sn hsn hnot
  have hsorted := h.sorted.itemsWithSn_sorted hsn
  have hsize : ∀ item ∈ itemsWithSn r.rxBuffer sn, 0 < item.size := fun item hitem =>
    (h.stored item (mem_itemsWithSn hitem).1).size_pos
  simp only [h.missing_iff hsn, hnot, true_and]
  rcases hitems : itemsWithSn r.rxBuffer sn with _ | ⟨first, rest⟩
  · exact ⟨0, fun item hitem => absurd hitem List.not_mem_nil⟩
  · rw [hitems] at hsorted hsize
    have hfresh : first.isProcessed = false := by simpa [isDelivered, hitems] using hnot
    simp only [isAllSegmentsReceived, hitems, hfresh] at hincomplete
    obtain ⟨b, _, habsent⟩ := exists_absent_of_not_reachesLast (by simpa using hincomplete)
      le_rfl hsorted hsize
    exact ⟨b, habsent⟩

/-- A delivered SDU misses nothing, and what has no gap is delivered. -/
theorem Sound.missing_of_absent (h : r.Sound c) {b : Nat} (hsn : On c.snModulus sn)
    (habsent : ∀ item ∈ r.rxBuffer, item.sn = sn →
      ¬ item.Has b ∧ (item.si.hasLast = true → b < item.stop)) : r.Missing sn b := by
  refine ⟨?_, habsent⟩
  by_contra hdelivered
  refine h.whole.filled sn hsn (by simpa using hdelivered) b fun item hitem => ?_
  obtain ⟨hmem, heq⟩ := mem_itemsWithSn hitem
  exact habsent item hmem heq

end AmReceiver

end Quicup.Ueransim.Rlc
