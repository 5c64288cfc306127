import Mathlib.Data.List.Nodup
import Quicup.Ueransim.Rlc.Reassembly
import Quicup.Ueransim.Rlc.Truthful

/-!
# Delivery of SDUs

The SDUs of the other side are numbered in the order in which it accepted them. A receiver
that has moved past the first ones knows the number of every SN of its window. PDUs that are
built from the SDUs and are not overtaken by a window have each SDU delivered once, as it is.
-/

namespace Quicup.Ueransim.Rlc

open Circular

namespace AmReceiver

variable {c : AmConfig} {sdus : List OctetString} {n passed i : Nat} {r r' : AmReceiver}
  {delivered : List OctetString} {pdu : AmdPdu} {sn : Int}

/-! ## Numbers -/

/-- The number of the SDU that has the SN, when `passed` SDUs come before `RX_Next`. -/
def number (c : AmConfig) (r : AmReceiver) (passed : Nat) (sn : Int) : Nat :=
  passed + (r.modulusRx c sn).toNat

theorem number_inj (hnext : On c.snModulus r.rxNext) (hsn : On c.snModulus sn) {sn' : Int}
    (hsn' : On c.snModulus sn') : r.number c passed sn = r.number c passed sn' ↔ sn = sn' := by
  have hpos := distance_nonneg hnext hsn
  have hpos' := distance_nonneg hnext hsn'
  have hinj : distance c.snModulus r.rxNext sn = distance c.snModulus r.rxNext sn' ↔ _ :=
    distance_inj hsn hsn'
  rw [← hinj]
  simp only [number, modulusRx_eq]
  omega

/-- The SDU has been delivered. -/
def Got (c : AmConfig) (r : AmReceiver) (passed i : Nat) : Prop :=
  i < passed ∨ ∃ sn, On c.snModulus sn ∧ isDelivered r.rxBuffer sn = true ∧
    r.number c passed sn = i

/-- The octet of the SDU has been received. -/
def Received (c : AmConfig) (r : AmReceiver) (passed i b : Nat) : Prop :=
  Got c r passed i ∨ ∃ item ∈ r.rxBuffer, r.number c passed item.sn = i ∧ item.Has b

/-- What a receiver has of the SDUs up to `n`. -/
structure Receiving (c : AmConfig) (sdus : List OctetString) (n : Nat) (r : AmReceiver)
    (passed : Nat) (delivered : List OctetString) : Prop extends Sound c r where
  next_eq : r.rxNext = (passed : Int) % c.snModulus
  passed_le : passed ≤ n
  window : (n : Int) - passed ≤ c.windowSize
  built : ∀ item ∈ r.rxBuffer, ∃ i, passed ≤ i ∧ BuiltFrom c sdus n i item
  apart : r.rxBuffer.Pairwise fun a b =>
    a.sn = b.sn → isDelivered r.rxBuffer a.sn = false → Apart a b
  delivered_eq : ∃ numbers : List Nat, numbers.Nodup ∧
    delivered = numbers.map (fun i => sdus.getD i []) ∧ ∀ i, i ∈ numbers ↔ Got c r passed i

theorem receiving_cleared (c : AmConfig) : Receiving c [] 0 (cleared c) 0 [] := by
  have hlarge := c.two_lt_windowSize
  refine ⟨⟨settled_cleared c, whole_nil c⟩, rfl, le_rfl, by simp; omega, ?_, .nil, [], .nil, rfl, ?_⟩
  · exact fun item hitem => absurd hitem List.not_mem_nil
  · intro i
    refine iff_of_false List.not_mem_nil ?_
    rintro (hi | ⟨sn, _, hdelivered, _⟩)
    · exact absurd hi (Nat.not_lt_zero i)
    · cases hdelivered

namespace Receiving

section

variable (h : Receiving c sdus n r passed delivered) {item : AmdPdu}
include h

/-- The SN of an SDU from `passed` on. -/
theorem modulusRx_number (hge : passed ≤ i) (hle : i ≤ n) :
    r.modulusRx c ((i : Int) % c.snModulus) = (i : Int) - passed := by
  have hm := c.snModulus_eq
  have hlarge := c.two_lt_windowSize
  have hwindow := h.window
  have hsn : (i : Int) % c.snModulus = (r.rxNext + ((i : Int) - passed)) % c.snModulus := by
    rw [h.next_eq, Int.emod_add_emod]
    congr 1
    ring
  rw [hsn, modulusRx_eq, distance_base_advance h.next_on (by omega) (by omega)]

theorem number_eq (hge : passed ≤ i) (hle : i ≤ n) :
    r.number c passed ((i : Int) % c.snModulus) = i := by
  rw [number, h.modulusRx_number hge hle]
  omega

theorem number_item (hbuilt : BuiltFrom c sdus n i item) (hge : passed ≤ i) :
    r.number c passed item.sn = i := by
  rw [hbuilt.sn_eq, h.number_eq hge hbuilt.le]

/-- The SDU of a buffered PDU is the one that its SN has. -/
theorem built_number (hitem : item ∈ r.rxBuffer) :
    BuiltFrom c sdus n (r.number c passed item.sn) item := by
  obtain ⟨i, hge, hbuilt⟩ := h.built item hitem
  rwa [h.number_item hbuilt hge]

/-- An SDU that is delivered has been submitted completely. -/
theorem number_lt (hsn : On c.snModulus sn) (hdelivered : isDelivered r.rxBuffer sn = true) :
    r.number c passed sn < n := by
  have hfilled := h.whole.filled sn hsn hdelivered (sdus.getD (r.number c passed sn) []).length
  simp only [Absent, not_forall, h.mem_itemsWithSn_iff hsn] at hfilled
  obtain ⟨item, ⟨hitem, rfl⟩, hhas⟩ := hfilled
  have hbuilt := h.built_number hitem
  have hstop := hbuilt.segment.stop_le
  refine hbuilt.lt_of_last ?_
  by_contra hlast
  exact hhas ⟨fun hin => absurd hin.2 hstop.not_gt, fun hl => absurd hl hlast⟩

theorem lt_of_got (hgot : Got c r passed i) : i < n := by
  rcases hgot with hlt | ⟨sn, hsn, hdelivered, rfl⟩
  · exact hlt.trans_le h.passed_le
  · exact h.number_lt hsn hdelivered

/-- The SDU at `RX_Next` has not been delivered. -/
theorem not_got_passed : ¬ Got c r passed passed := by
  rintro (hlt | ⟨sn, hsn, hdelivered, heq⟩)
  · exact lt_irrefl _ hlt
  · have hpos := distance_nonneg h.next_on hsn
    have hzero : distance c.snModulus r.rxNext sn = 0 := by
      rw [number, modulusRx_eq] at heq
      omega
    rw [(distance_eq_zero h.next_on hsn).mp hzero, h.next_undelivered] at hdelivered
    cases hdelivered

/-- SDUs in front of the first one that has not been delivered have been passed. -/
theorem le_passed (hgot : ∀ j < i, Got c r passed j) : i ≤ passed := by
  by_contra hlt
  exact h.not_got_passed (hgot passed (not_le.mp hlt))

/-- An SDU all octets of which have been received has been delivered. -/
theorem got_of_received (hi : 0 < (sdus.getD i []).length)
    (hall : ∀ b < (sdus.getD i []).length, Received c r passed i b) : Got c r passed i := by
  by_contra hnot
  obtain ⟨last, hlast, rfl, hhas⟩ :=
    (hall ((sdus.getD i []).length - 1) (by omega)).resolve_left hnot
  have hon := h.sorted.on last hlast
  have hundelivered : isDelivered r.rxBuffer last.sn = false := by
    by_contra hdelivered
    exact hnot (.inr ⟨last.sn, hon, by simpa using hdelivered, rfl⟩)
  obtain ⟨b, _, hmissing⟩ := h.toSound.exists_missing hon hundelivered
  have hbuilt := (h.built_number hlast).segment
  have hstop := hbuilt.stop_le
  have hend := hhas.2
  have hb := (hmissing last hlast rfl).2 (hbuilt.last_iff.mpr (by omega))
  obtain ⟨item, hitem, heq, hin⟩ := (hall b (by omega)).resolve_left hnot
  have hsn := (number_inj h.next_on (h.sorted.on item hitem) hon).mp heq
  exact (hmissing item hitem hsn).1 hin

end

/-- The other side accepts and submits more SDUs. -/
theorem grow (h : Receiving c sdus n r passed delivered) {sdus' : List OctetString} {n' : Nat}
    (hsdus : sdus <+: sdus') (hn : n ≤ n') (hlength : n ≤ sdus.length)
    (hwindow : (n' : Int) - passed ≤ c.windowSize) : Receiving c sdus' n' r passed delivered := by
  refine ⟨h.toSound, h.next_eq, h.passed_le.trans hn, hwindow, fun item hitem => ?_, h.apart, ?_⟩
  · obtain ⟨i, hge, hbuilt⟩ := h.built item hitem
    exact ⟨i, hge, hbuilt.grow hsdus hn⟩
  · obtain ⟨numbers, hnodup, heq, hmem⟩ := h.delivered_eq
    refine ⟨numbers, hnodup, heq.trans (List.map_congr_left fun i hi => ?_), hmem⟩
    exact (getD_of_extends hsdus ((h.lt_of_got ((hmem i).mp hi)).trans_le hlength)).symm

/-- Only the buffer and `RX_Next` matter. -/
theorem of_eq (h : Receiving c sdus n r passed delivered) (hsound : Sound c r')
    (hbuffer : r'.rxBuffer = r.rxBuffer) (hnext : r'.rxNext = r.rxNext) :
    Receiving c sdus n r' passed delivered := by
  have hgot (i : Nat) : Got c r' passed i ↔ Got c r passed i := by
    simp only [Got, number, modulusRx_eq, hbuffer, hnext]
  refine ⟨hsound, hnext.trans h.next_eq, h.passed_le, h.window, by rw [hbuffer]; exact h.built,
    by rw [hbuffer]; exact h.apart, ?_⟩
  obtain ⟨numbers, hnodup, heq, hmem⟩ := h.delivered_eq
  exact ⟨numbers, hnodup, heq, fun i => (hmem i).trans (hgot i).symm⟩

end Receiving

/-! ## Reception -/

/-- Receptions keep what has been received. -/
def Keeps (c : AmConfig) (r : AmReceiver) (passed : Nat) (r' : AmReceiver) (passed' : Nat) : Prop :=
  ∀ i b, Received c r passed i b → Received c r' passed' i b

theorem keeps_of_eq (hbuffer : r'.rxBuffer = r.rxBuffer) (hnext : r'.rxNext = r.rxNext) :
    Keeps c r passed r' passed := by
  intro i b hreceived
  simpa only [Received, Got, number, modulusRx_eq, hbuffer, hnext] using hreceived

/-- A PDU that is not overtaken by the window and overlaps no segment of an open SDU. -/
structure Timely (r : AmReceiver) (passed i : Nat) (pdu : AmdPdu) : Prop where
  le : passed ≤ i
  apart : isDelivered r.rxBuffer pdu.sn = false →
    ∀ item ∈ r.rxBuffer, item.sn = pdu.sn → Apart item pdu

namespace Receiving

section

variable (h : Receiving c sdus n r passed delivered) (hdec : pdu.Decoded c)
  (hbuilt : BuiltFrom c sdus n i pdu) (htimely : Timely r passed i pdu)
include h hbuilt htimely

theorem built_place : ∀ item ∈ (r.place c pdu).rxBuffer,
    ∃ i, passed ≤ i ∧ BuiltFrom c sdus n i item := by
  intro item hitem
  rcases Sorted.mem_insert.mp hitem with rfl | hitem
  · exact ⟨i, htimely.le, hbuilt⟩
  · exact h.built item hitem

omit hbuilt in
theorem apart_place : (r.place c pdu).rxBuffer.Pairwise fun a b =>
    a.sn = b.sn → isDelivered r.rxBuffer a.sn = false → Apart a b := by
  have hperm : (r.place c pdu).rxBuffer.Perm (pdu :: r.rxBuffer) := Sorted.perm_insert ..
  refine hperm.symm.pairwise (List.pairwise_cons.mpr ⟨fun item hitem hsn hnot => ?_, h.apart⟩)
    fun {a b} hab hsn hnot => (hab hsn.symm (hsn ▸ hnot)).symm
  exact (htimely.apart hnot item hitem hsn.symm).symm

/-- The PDUs with the SN are segments of the same SDU. -/
theorem built_itemsWithSn : ∀ item ∈ itemsWithSn (r.place c pdu).rxBuffer pdu.sn,
    BuiltFrom c sdus n i item := by
  intro item hitem
  obtain ⟨hmem, hsn⟩ := mem_itemsWithSn hitem
  obtain ⟨j, hge, hitembuilt⟩ := h.built_place hbuilt htimely item hmem
  have hnumber := h.number_item hitembuilt hge
  rw [hsn, h.number_item hbuilt htimely.le] at hnumber
  exact hnumber ▸ hitembuilt

/-- A complete SDU has been submitted completely. -/
theorem lt_of_complete (hall : isAllSegmentsReceived (r.place c pdu).rxBuffer pdu.sn = true) :
    i < n := by
  obtain ⟨item, hitem, hlast⟩ :=
    exists_last_of_reachesLast (reachesLast_of_isAllSegmentsReceived hall)
  exact (h.built_itemsWithSn hbuilt htimely item hitem).lt_of_last hlast

include hdec

/-- The PDU is stored and its SDU stays open. -/
theorem reception_stored (hsound : Sound c r') (hbuffer : r'.rxBuffer = (r.place c pdu).rxBuffer)
    (hnext : r'.rxNext = r.rxNext) :
    Receiving c sdus n r' passed delivered ∧ Keeps c r passed r' passed := by
  have hsame {sn : Int} (hsn : On c.snModulus sn) :
      isDelivered r'.rxBuffer sn = isDelivered r.rxBuffer sn := by
    rw [hbuffer, h.isDelivered_place hdec hsn]
  have hnumber (sn : Int) : r'.number c passed sn = r.number c passed sn := by
    simp only [number, modulusRx_eq, hnext]
  have hgot (i : Nat) : Got c r' passed i ↔ Got c r passed i := by
    simp only [Got, hnumber]
    refine or_congr_right (exists_congr fun sn => and_congr_right fun hsn => ?_)
    rw [hsame hsn]
  refine ⟨⟨hsound, hnext.trans h.next_eq, h.passed_le, h.window, ?_, ?_, ?_⟩, fun j b => ?_⟩
  · rw [hbuffer]
    exact h.built_place hbuilt htimely
  · rw [hbuffer]
    refine (h.apart_place htimely).imp_of_mem fun {a b} ha _ hab hsn hnot => hab hsn ?_
    rwa [← hbuffer, hsame (hsound.sorted.on a (hbuffer ▸ ha))] at hnot
  · obtain ⟨numbers, hnodup, heq, hmem⟩ := h.delivered_eq
    exact ⟨numbers, hnodup, heq, fun i => (hmem i).trans (hgot i).symm⟩
  · rintro (hj | ⟨item, hitem, hj, hhas⟩)
    · exact .inl ((hgot j).mpr hj)
    · refine .inr ⟨item, ?_, (hnumber _).trans hj, hhas⟩
      rw [hbuffer]
      exact Sorted.mem_insert.mpr (.inr hitem)

omit hbuilt htimely in
theorem fresh_of_complete
    (hall : isAllSegmentsReceived (r.place c pdu).rxBuffer pdu.sn = true) :
    isDelivered r.rxBuffer pdu.sn = false := by
  rw [← h.isDelivered_place hdec hdec.on]
  exact isDelivered_of_isAllSegmentsReceived hall

theorem not_got_of_complete
    (hall : isAllSegmentsReceived (r.place c pdu).rxBuffer pdu.sn = true) :
    ¬ Got c r passed i := by
  rintro (hlt | ⟨sn, hsn, hdelivered, hnumber⟩)
  · exact absurd htimely.le hlt.not_ge
  · rw [← h.number_item hbuilt htimely.le, number_inj h.next_on hsn hdec.on] at hnumber
    rw [hnumber, h.fresh_of_complete hdec hall] at hdelivered
    cases hdelivered

/-- The segments of a complete SDU are put together to it. -/
theorem reassembled_place (hall : isAllSegmentsReceived (r.place c pdu).rxBuffer pdu.sn = true) :
    reassembled (r.place c pdu).rxBuffer pdu.sn = sdus.getD i [] := by
  have hsorted : SortedFrom c.snModulus r.rxNext (r.place c pdu).rxBuffer :=
    h.sorted.insertToRxBuffer hdec.on snCompareRx_eq
  have hfresh := h.fresh_of_complete hdec hall
  have hsegments : ∀ item ∈ itemsWithSn (r.place c pdu).rxBuffer pdu.sn,
      IsSegment (sdus.getD i []) item :=
    fun item hitem => (h.built_itemsWithSn hbuilt htimely item hitem).segment
  have hapart : (itemsWithSn (r.place c pdu).rxBuffer pdu.sn).Pairwise Apart := by
    rw [hsorted.itemsWithSn_eq hdec.on]
    refine ((h.apart_place htimely).filter _).imp_of_mem fun {a b} ha hb hab => ?_
    have hasn := of_decide_eq_true (List.mem_filter.mp ha).2
    have hbsn := of_decide_eq_true (List.mem_filter.mp hb).2
    exact hab (hasn.trans hbsn.symm) (hasn ▸ hfresh)
  rw [reassembled, flatMap_data (k := 0) (reachesLast_of_isAllSegmentsReceived hall) hsegments
    hapart (fun item _ => Nat.zero_le _), List.drop_zero]

end

/-! ### The window moves -/

section

variable {k : Nat} (h : Receiving c sdus n r passed delivered) (hdec : pdu.Decoded c)
  (haccepts : r.discards c pdu = false) (hbuilt : BuiltFrom c sdus n i pdu)
  (htimely : Timely r passed i pdu)
  (hall : isAllSegmentsReceived (r.place c pdu).rxBuffer pdu.sn = true)
  (hbuffer : r'.rxBuffer = (markProcessed (r.place c pdu).rxBuffer pdu.sn).filter
    fun item => decide (k ≤ r.modulusRx c item.sn))
  (hnext : r'.rxNext = (r.rxNext + k) % c.snModulus)
include h hnext

/-- An SN that is not passed keeps its number. -/
theorem number_moved (hsn : On c.snModulus sn) (hk : k ≤ r.modulusRx c sn) :
    r'.number c (passed + k) sn = r.number c passed sn := by
  rw [modulusRx_eq] at hk
  simp only [number, modulusRx_eq, hnext]
  rw [distance_of_base_advance h.next_on hsn (Int.natCast_nonneg k) hk]
  omega

omit hnext
include hdec haccepts hbuilt htimely hall

/-- The SDUs delivered behind the reception, by the numbers before. -/
theorem isDelivered_marked_iff (hsn : On c.snModulus sn) :
    isDelivered (markProcessed (r.place c pdu).rxBuffer pdu.sn) sn = true ↔
      r.number c passed sn = i ∨ isDelivered r.rxBuffer sn = true := by
  have hnumber := h.number_item hbuilt htimely.le
  have hsame : sn = pdu.sn ↔ r.number c passed sn = i := by
    have hinj : r.number c passed sn = r.number c passed pdu.sn ↔ _ :=
      number_inj h.next_on hsn hdec.on
    rw [← hinj, hnumber]
  rw [h.isDelivered_marked hdec haccepts hall hsn, ← hsame]
  split_ifs with heq <;> simp [heq]

include hbuffer

theorem isDelivered_moved_iff (hsn : On c.snModulus sn) :
    isDelivered r'.rxBuffer sn = true ↔
      k ≤ r.modulusRx c sn ∧ (r.number c passed sn = i ∨ isDelivered r.rxBuffer sn = true) := by
  have hsorted : SortedFrom c.snModulus r.rxNext (markProcessed (r.place c pdu).rxBuffer pdu.sn) :=
    (h.sorted.insertToRxBuffer hdec.on snCompareRx_eq).markProcessed hdec.on
  rw [← h.isDelivered_marked_iff hdec haccepts hbuilt htimely hall hsn, hbuffer]
  exact hsorted.isDelivered_filter hsn k

include hnext

/-- The SDU is delivered in addition to those that were. -/
theorem got_iff (hbefore : ∀ j < k, isDelivered (markProcessed (r.place c pdu).rxBuffer pdu.sn)
    ((r.rxNext + (j : Nat)) % c.snModulus) = true) (hk : k ≤ c.windowSize) (j : Nat) :
    Got c r' (passed + k) j ↔ Got c r passed j ∨ j = i := by
  have hm := c.snModulus_eq
  have hlarge := c.two_lt_windowSize
  have hmarked {sn : Int} (hsn : On c.snModulus sn) :=
    h.isDelivered_marked_iff hdec haccepts hbuilt htimely hall hsn
  have hmoved {sn : Int} (hsn : On c.snModulus sn) :=
    h.isDelivered_moved_iff hdec haccepts hbuilt htimely hall hbuffer hsn
  have hfrom {sn : Int} (hsn : On c.snModulus sn)
      (hdelivered : r.number c passed sn = i ∨ isDelivered r.rxBuffer sn = true) :
      Got c r passed (r.number c passed sn) ∨ r.number c passed sn = i :=
    hdelivered.symm.imp_left fun hbefore => .inr ⟨sn, hsn, hbefore, rfl⟩
  constructor
  · rintro (hlt | ⟨sn, hsn, hdelivered, rfl⟩)
    · by_cases hj : j < passed
      · exact .inl (.inl hj)
      · have hon : On c.snModulus ((r.rxNext + (j - passed : Nat)) % c.snModulus) :=
          .advance c.snModulus_pos _ _
        have hnumber : r.number c passed ((r.rxNext + (j - passed : Nat)) % c.snModulus) = j := by
          rw [number, modulusRx_eq, distance_base_advance h.next_on (Int.natCast_nonneg _)
            (by omega)]
          omega
        exact hnumber ▸ hfrom hon ((hmarked hon).mp (hbefore (j - passed) (by omega)))
    · obtain ⟨hge, hdelivered⟩ := (hmoved hsn).mp hdelivered
      rw [h.number_moved hnext hsn hge]
      exact hfrom hsn hdelivered
  · intro hgot
    have hopen : j < passed ∨ ∃ sn, On c.snModulus sn ∧
        (r.number c passed sn = i ∨ isDelivered r.rxBuffer sn = true) ∧
        r.number c passed sn = j := by
      rcases hgot with (hlt | ⟨sn, hsn, hdelivered, hj⟩) | rfl
      · exact .inl hlt
      · exact .inr ⟨sn, hsn, .inr hdelivered, hj⟩
      · have hnumber := h.number_item hbuilt htimely.le
        exact .inr ⟨pdu.sn, hdec.on, .inl hnumber, hnumber⟩
    rcases hopen with hlt | ⟨sn, hsn, hdelivered, rfl⟩
    · exact .inl (by omega)
    · by_cases hge : k ≤ r.modulusRx c sn
      · exact .inr ⟨sn, hsn, (hmoved hsn).mpr ⟨hge, hdelivered⟩, h.number_moved hnext hsn hge⟩
      · have hpos := distance_nonneg h.next_on hsn
        rw [← modulusRx_eq] at hpos
        exact .inl (by rw [number]; omega)

/-- The SDU is delivered as it is, and no other one. -/
theorem reception_delivered (hsound : Sound c r') (hk : k ≤ c.windowSize)
    (hbefore : ∀ j < k, isDelivered (markProcessed (r.place c pdu).rxBuffer pdu.sn)
      ((r.rxNext + (j : Nat)) % c.snModulus) = true) :
    Receiving c sdus n r' (passed + k)
        (delivered ++ [reassembled (r.place c pdu).rxBuffer pdu.sn]) ∧
      Keeps c r passed r' (passed + k) := by
  have hgot := h.got_iff hdec haccepts hbuilt htimely hall hbuffer hnext hbefore hk
  have hsorted : SortedFrom c.snModulus r.rxNext (r.place c pdu).rxBuffer :=
    h.sorted.insertToRxBuffer hdec.on snCompareRx_eq
  have hmarked := hsorted.markProcessed_eq hdec.on
  have hsame (item : AmdPdu) (o : Nat) :
      (if item.sn = pdu.sn then item.processed else item).sn = item.sn ∧
        ((if item.sn = pdu.sn then item.processed else item).Has o ↔ item.Has o) := by
    split_ifs <;> exact ⟨rfl, .rfl⟩
  -- the items that are left are those of the buffer before, some of them processed
  have hmem {item : AmdPdu} (hitem : item ∈ r'.rxBuffer) :
      k ≤ r.modulusRx c item.sn ∧ ∃ before ∈ (r.place c pdu).rxBuffer,
        item = before ∨ item = before.processed := by
    rw [hbuffer, hmarked] at hitem
    obtain ⟨hitem, hge⟩ := List.mem_filter.mp hitem
    obtain ⟨before, hbefore, rfl⟩ := List.mem_map.mp hitem
    refine ⟨of_decide_eq_true hge, before, hbefore, ?_⟩
    split_ifs
    · exact .inr rfl
    · exact .inl rfl
  have hlt (j : Nat) (hj : j < passed + k) : j < n := by
    rcases (hgot j).mp (.inl hj) with hbefore | rfl
    · exact h.lt_of_got hbefore
    · exact h.lt_of_complete hbuilt htimely hall
  refine ⟨⟨hsound, ?_, ?_, ?_, ?_, ?_, ?_⟩, ?_⟩
  · rw [hnext, h.next_eq, Int.emod_add_emod, Nat.cast_add]
  · exact Nat.le_of_not_lt fun hgt => absurd (hlt n hgt) (lt_irrefl n)
  · have hwindow := h.window
    push_cast
    omega
  · intro item hitem
    obtain ⟨hge, before, hbefore, heq⟩ := hmem hitem
    obtain ⟨j, hj, hbuiltj⟩ := h.built_place hbuilt htimely before hbefore
    have hbuiltitem : BuiltFrom c sdus n j item := by
      rcases heq with rfl | rfl
      · exact hbuiltj
      · exact hbuiltj.processed
    refine ⟨j, ?_, hbuiltitem⟩
    rw [hbuiltitem.sn_eq, h.modulusRx_number hj hbuiltitem.le] at hge
    omega
  · have hapart : (markProcessed (r.place c pdu).rxBuffer pdu.sn).Pairwise fun a b =>
        a.sn = b.sn → isDelivered r.rxBuffer a.sn = false → Apart a b := by
      rw [hmarked]
      refine List.pairwise_map.mpr ((h.apart_place htimely).imp fun {a b} hab hsn hnot o => ?_)
      rw [(hsame a 0).1, (hsame b 0).1] at hsn
      rw [(hsame a 0).1] at hnot
      rw [(hsame a o).2, (hsame b o).2]
      exact hab hsn hnot o
    have hleft := hapart.filter fun item => decide (k ≤ r.modulusRx c item.sn)
    rw [← hbuffer] at hleft
    refine hleft.imp_of_mem fun {a b} ha _ hab hsn hnot => hab hsn ?_
    by_contra hdelivered
    have hmoved := h.isDelivered_moved_iff hdec haccepts hbuilt htimely hall hbuffer
      (hsound.sorted.on a ha)
    rw [hmoved.mpr ⟨(hmem ha).1, .inr (by simpa using hdelivered)⟩] at hnot
    cases hnot
  · obtain ⟨numbers, hnodup, heq, hnumbers⟩ := h.delivered_eq
    have hnew : i ∉ numbers :=
      fun hi => h.not_got_of_complete hdec hbuilt htimely hall ((hnumbers i).mp hi)
    refine ⟨numbers ++ [i], ?_, ?_, fun j => ?_⟩
    · rw [← List.concat_eq_append, List.nodup_concat]
      exact ⟨hnew, hnodup⟩
    · rw [heq, h.reassembled_place hdec hbuilt htimely hall, List.map_append, List.map_singleton]
    · rw [List.mem_append, List.mem_singleton, hnumbers, hgot]
  · rintro j b (hj | ⟨item, hitem, rfl, hhas⟩)
    · exact .inl ((hgot j).mpr (.inl hj))
    · by_cases hge : k ≤ r.modulusRx c item.sn
      · have hon := h.sorted.on item hitem
        have hkept : (if item.sn = pdu.sn then item.processed else item) ∈ r'.rxBuffer := by
          rw [hbuffer, hmarked]
          refine List.mem_filter.mpr
            ⟨List.mem_map.mpr ⟨item, Sorted.mem_insert.mpr (.inr hitem), rfl⟩, ?_⟩
          split_ifs <;> exact decide_eq_true hge
        refine .inr ⟨_, hkept, ?_, (hsame item b).2.mpr hhas⟩
        rw [(hsame item b).1, h.number_moved hnext hon hge]
      · have hpos := distance_nonneg h.next_on (h.sorted.on item hitem)
        rw [← modulusRx_eq] at hpos
        exact .inl (.inl (by rw [number]; omega))

end

theorem timerCycle (h : Receiving c sdus n r passed delivered) (currentTime : Int) :
    ∃ r', r.timerCycle c currentTime = .ok r' ∧ Receiving c sdus n r' passed delivered ∧
      Keeps c r passed r' passed := by
  obtain ⟨r', hrun, hsettled, hbuffer, _, hnext⟩ := h.toSettled.timerCycle currentTime
  exact ⟨r', hrun, h.of_eq ⟨hsettled, hbuffer ▸ h.whole⟩ hbuffer hnext, keeps_of_eq hbuffer hnext⟩

theorem statusConstructed (h : Receiving c sdus n r passed delivered) :
    Receiving c sdus n r.statusConstructed passed delivered ∧
      Keeps c r passed r.statusConstructed passed :=
  ⟨h.of_eq ⟨⟨h.toWindow.with_others .., h.next_undelivered, h.trigger_pos, h.trigger_le⟩,
    h.whole⟩ rfl rfl, keeps_of_eq rfl rfl⟩

/-- A PDU that comes in time is received without a fault. -/
theorem reception (h : Receiving c sdus n r passed delivered) (hdec : pdu.Decoded c)
    (hbuilt : BuiltFrom c sdus n i pdu)
    (htimely : r.discards c pdu = false → Timely r passed i pdu)
    (hlength : (sdus.getD i []).length ≤ reassembleBufferLen) (stale : Bool) :
    ∃ r' sdu, r.receiveAmdPdu c stale pdu = .ok (r', sdu) ∧
      Receiving c sdus n r' (r.number c passed r'.rxNext) (delivered ++ sdu.toList) ∧
      Keeps c r passed r' (r.number c passed r'.rxNext) := by
  have hm := c.snModulus_eq
  have hlarge := c.two_lt_windowSize
  have hreception := h.toSettled.reception hdec stale
  have hsound {r' : AmReceiver} {sdu : Option OctetString}
      (hrun : r.receiveAmdPdu c stale pdu = .ok (r', sdu)) : Sound c r' :=
    h.toSound.reception hdec hrun
  have hstays {r' : AmReceiver} (hnext : r'.rxNext = r.rxNext) :
      r.number c passed r'.rxNext = passed := by
    rw [hnext, number, modulusRx_eq, distance_self]
    rfl
  rcases hresult : r.receiveAmdPdu c stale pdu with fault | ⟨r', sdu⟩
  · rw [hresult] at hreception
    cases hreception with
    | overflow hcompletes hover =>
      simp only [completes, decide_eq_true_iff, Bool.not_eq_true] at hcompletes
      rw [h.reassembled_place hdec hbuilt (htimely hcompletes.1) hcompletes.2] at hover
      exact absurd hlength hover.not_ge
  · have hr' := hsound hresult
    rw [hresult] at hreception
    refine ⟨r', sdu, rfl, ?_⟩
    cases hreception with
    | discarded hdiscards hbuffer _ hnext _ =>
      rw [hstays hnext, Option.toList_none, List.append_nil]
      exact ⟨h.of_eq hr' hbuffer hnext, keeps_of_eq hbuffer hnext⟩
    | stored haccepts _ hbuffer _ hnext _ =>
      rw [hstays hnext, Option.toList_none, List.append_nil]
      exact h.reception_stored hdec hbuilt (htimely haccepts) hr' hbuffer hnext
    | @delivered _ k haccepts hcompletes _ hbuffer _ hnext hk _ hbefore _ _ =>
      simp only [completes, decide_eq_true_iff] at hcompletes
      have hnumber : r.number c passed r'.rxNext = passed + k := by
        rw [hnext, number, modulusRx_eq,
          distance_base_advance h.next_on (Int.natCast_nonneg k) (by omega), Int.toNat_natCast]
      rw [hnumber]
      exact h.reception_delivered hdec haccepts hbuilt (htimely haccepts) hcompletes.2 hbuffer
        hnext hr' hk hbefore

end Receiving

end AmReceiver

end Quicup.Ueransim.Rlc
