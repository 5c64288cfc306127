import Quicup.Ueransim.Rlc.Ordering
import Quicup.Ueransim.Rlc.UmReceiver

/-!
# t-Reassembly of an UM entity

Whether the timer runs while something is missing. The reception starts it under the right
condition; the expiry fails to when `RX_Next_Highest` has wrapped.
-/

namespace Quicup.Ueransim.Rlc

open Circular

variable {list : List AmdPdu}

/-- Where an SDU is complete, its first segment starts it. -/
theorem exists_first_of_reachesLast (h : reachesLast list (-1) = true) :
    ∃ item ∈ list, item.so = 0 := by
  cases list with
  | nil => cases h
  | cons item rest =>
    rw [reachesLast] at h
    split_ifs at h with hgap
    · exact ⟨item, List.mem_cons_self, by omega⟩
    · exact ⟨item, List.mem_cons_self, by omega⟩

/-- The SN at which the loop over delivered SNs ends. -/
theorem skipDelivered_ok {m n n' : Int} {rxBuffer : List AmdPdu} {turns : Nat} (hn : On m n)
    (h : skipDelivered m rxBuffer turns n = .ok n') :
    ∃ k : Nat, k < turns ∧ n' = (n + k) % m ∧ isDelivered rxBuffer n' = false ∧
      ∀ i < k, isDelivered rxBuffer ((n + (i : Nat)) % m) = true := by
  induction turns generalizing n with
  | zero => cases h
  | succ turns ih =>
    rw [skipDelivered] at h
    split_ifs at h with hdelivered
    · obtain ⟨k, hk, hn', hnot, hbefore⟩ := ih (.advance hn.pos n 1) h
      have hstep (i : Nat) : ((n + 1) % m + i) % m = (n + (i + 1 : Nat)) % m := by
        rw [advance_advance]
        congr 2
        push_cast
        ring
      refine ⟨k + 1, Nat.succ_lt_succ hk, by rw [hn', hstep], hnot, fun i hi => ?_⟩
      rcases i with _ | i
      · have hzero : (n + (0 : Nat)) % m = n := advance_zero hn
        rw [hzero, hdelivered]
      · rw [← hstep]
        exact hbefore i (Nat.lt_of_succ_lt_succ hi)
    · obtain rfl := Except.ok.inj h
      have hzero : (n + (0 : Nat)) % m = n := advance_zero hn
      exact ⟨0, Nat.succ_pos turns, hzero.symm, Bool.eq_false_iff.mpr hdelivered,
        fun i hi => absurd hi (Nat.not_lt_zero i)⟩

/-- Only the first PDU of an SN tells whether it is delivered. -/
theorem isDelivered_filter_sn (list : List AmdPdu) (sn : Int) :
    isDelivered (list.filter fun item => decide (item.sn = sn)) sn = isDelivered list sn := by
  induction list with
  | nil => rfl
  | cons item rest ih =>
    by_cases hsn : item.sn = sn
    · subst hsn
      rw [List.filter_cons_of_pos (by simp), isDelivered, isDelivered, itemsWithSn_cons_self,
        itemsWithSn_cons_self]
    · have hskip : itemsWithSn (item :: rest) sn = itemsWithSn rest sn := by
        rw [itemsWithSn, itemsWithSn, firstItemWithSn, firstItemWithSn,
          List.dropWhile_cons_of_pos (by simpa using hsn)]
      rw [List.filter_cons_of_neg (by simpa using hsn), ih, isDelivered_congr hskip]

theorem isDelivered_of_hasMissingSegment {sn : Int} (h : hasMissingSegment list sn = true) :
    isDelivered list sn = false := by
  rw [hasMissingSegment] at h
  rw [isDelivered]
  split at h
  · cases h
  · split_ifs at h with hprocessed
    exact Bool.eq_false_iff.mpr hprocessed

namespace UmReceiver

variable {c : UmConfig} {r u : UmReceiver} {num m a currentTime : Int} {pdu : UmdPdu}
  {data : OctetString} {s s' : Except Fault UmReceiver} {sdu : Option OctetString} {event : Event}

/-! ## Positions in the window -/

/-- The position of an SN from the start of the reassembly window on. -/
theorem modulusRx_eq (hnum : On c.snModulus num) (hhighest : On c.snModulus r.rxNextHighest) :
    r.modulusRx c num =
      if num - r.rxNextHighest + c.windowSize < 0 then
        num - r.rxNextHighest + c.windowSize + c.snModulus
      else if num - r.rxNextHighest + c.windowSize < c.snModulus then
        num - r.rxNextHighest + c.windowSize
      else num - r.rxNextHighest + c.windowSize - c.snModulus := by
  have hm := c.snModulus_eq
  have hw := c.two_lt_windowSize
  obtain ⟨hn0, hn1⟩ := hnum
  obtain ⟨hh0, hh1⟩ := hhighest
  have hsame : num - (r.rxNextHighest - c.windowSize) =
      num - r.rxNextHighest + c.windowSize := by
    ring
  simp only [modulusRx, hsame]
  split_ifs with hneg hlt
  · rw [Int.tmod_eq_emod_of_nonneg (by omega), Int.emod_eq_of_lt (by omega) (by omega)]
  · rw [Int.tmod_eq_emod_of_nonneg (by omega), Int.emod_eq_of_lt (by omega) (by omega)]
  · rw [Int.tmod_eq_emod_of_nonneg (by omega), ← Int.sub_emod_right,
      Int.emod_eq_of_lt (by omega) (by omega)]

/-- `RX_Next_Highest` is the end of the window. -/
theorem modulusRx_highest (hhighest : On c.snModulus r.rxNextHighest) :
    r.modulusRx c r.rxNextHighest = c.windowSize := by
  have hm := c.snModulus_eq
  have hw := c.two_lt_windowSize
  rw [modulusRx_eq hhighest hhighest]
  split_ifs <;> omega

theorem emod_cases (hlow : -m ≤ a) (hhigh : a < m) : a % m = if a < 0 then a + m else a := by
  split_ifs with h
  · rw [← Int.add_emod_right]
    by_cases heq : a = -m
    · rw [heq]
      simp
    · exact Int.emod_eq_of_lt (by omega) (by omega)
  · exact Int.emod_eq_of_lt (by omega) hhigh

theorem succ_emod (ha : On m a) : (a + 1) % m = if a + 1 = m then 0 else a + 1 := by
  obtain ⟨h0, h1⟩ := ha
  split_ifs with h
  · rw [h, Int.emod_self]
  · exact Int.emod_eq_of_lt (by omega) (by omega)

/-- How far `RX_Next_Highest` is ahead of the SN behind `RX_Next_Reassembly`. -/
def gap (c : UmConfig) (r : UmReceiver) : Int :=
  (r.rxNextHighest - (r.rxNextReassembly + 1)) % c.snModulus

/-- Something is missing in the window: `RX_Next_Highest` is beyond the SN behind
`RX_Next_Reassembly`, or it is that SN and `RX_Next_Reassembly` misses a segment. -/
def Waits (c : UmConfig) (r : UmReceiver) : Prop :=
  (0 < r.gap c ∧ r.gap c ≤ c.windowSize) ∨
    (r.gap c = 0 ∧ hasMissingSegment r.rxBuffer r.rxNextReassembly = true)

/-- The state variables are SNs, and the PDUs of the buffer are in the window. -/
structure Ranged (c : UmConfig) (r : UmReceiver) : Prop where
  reassembly_on : On c.snModulus r.rxNextReassembly
  highest_on : On c.snModulus r.rxNextHighest
  trigger_on : On c.snModulus r.rxTimerTrigger
  within : ∀ item ∈ r.rxBuffer, On c.snModulus item.sn ∧ r.modulusRx c item.sn < c.windowSize

theorem Ranged.gap_eq (h : r.Ranged c) :
    r.gap c =
      if r.rxNextHighest - (r.rxNextReassembly + 1) < 0 then
        r.rxNextHighest - (r.rxNextReassembly + 1) + c.snModulus
      else r.rxNextHighest - (r.rxNextReassembly + 1) := by
  obtain ⟨h0, h1⟩ := h.reassembly_on
  obtain ⟨h2, h3⟩ := h.highest_on
  exact emod_cases (by omega) (by omega)

/-- What the code compares is what is ahead. -/
theorem Ranged.beyond_iff (h : r.Ranged c) :
    r.snCompareRx c r.rxNextHighest ((r.rxNextReassembly + 1) % c.snModulus) > 0 ↔
      0 < r.gap c ∧ r.gap c ≤ c.windowSize := by
  have hm := c.snModulus_eq
  have hw := c.two_lt_windowSize
  have hnext := On.advance c.snModulus_pos r.rxNextReassembly 1
  rw [snCompareRx, modulusRx_highest h.highest_on, modulusRx_eq hnext h.highest_on, h.gap_eq,
    succ_emod h.reassembly_on]
  obtain ⟨h0, h1⟩ := h.reassembly_on
  obtain ⟨h2, h3⟩ := h.highest_on
  split_ifs <;> omega

theorem Ranged.next_iff (h : r.Ranged c) :
    r.rxNextHighest = (r.rxNextReassembly + 1) % c.snModulus ↔ r.gap c = 0 := by
  have hm := c.snModulus_eq
  have hw := c.two_lt_windowSize
  rw [h.gap_eq, succ_emod h.reassembly_on]
  obtain ⟨h0, h1⟩ := h.reassembly_on
  obtain ⟨h2, h3⟩ := h.highest_on
  split_ifs <;> omega

/-- The condition of the reception is the right one. -/
theorem Ranged.missesBelowHighest_iff (h : r.Ranged c) :
    r.missesBelowHighest c = true ↔ r.Waits c := by
  simp only [missesBelowHighest, decide_eq_true_eq, h.beyond_iff, h.next_iff, Waits]

/-- The condition of the expiry is the right one, unless the next SN is zero. -/
theorem Ranged.missesOnExpiry_iff (h : r.Ranged c) :
    r.missesOnExpiry c = true ↔
      r.Waits c ∧ ¬ (r.rxNextReassembly = c.snModulus - 1 ∧ r.rxNextHighest = 0) := by
  have hm := c.snModulus_eq
  have hw := c.two_lt_windowSize
  have hgap := h.gap_eq
  obtain ⟨h0, h1⟩ := h.reassembly_on
  obtain ⟨h2, h3⟩ := h.highest_on
  simp only [missesOnExpiry, decide_eq_true_eq, h.beyond_iff, Waits]
  constructor
  · rintro (hahead | ⟨hnext, hmissing⟩)
    · refine ⟨.inl hahead, fun ⟨hlast, hzero⟩ => ?_⟩
      rw [hgap] at hahead
      split_ifs at hahead <;> omega
    · refine ⟨.inr ⟨?_, hmissing⟩, by omega⟩
      rw [hgap]
      split_ifs <;> omega
  · rintro ⟨hahead | ⟨hzero, hmissing⟩, hnot⟩
    · exact .inl hahead
    · refine .inr ⟨?_, hmissing⟩
      rw [hgap] at hzero
      split_ifs at hzero
      · exact absurd ⟨by omega, by omega⟩ hnot
      · omega

/-! ## Steps -/

@[simp] theorem stopReassembly_fields :
    (r.stopReassembly c).rxBuffer = r.rxBuffer ∧
      (r.stopReassembly c).rxNextReassembly = r.rxNextReassembly ∧
      (r.stopReassembly c).rxNextHighest = r.rxNextHighest ∧
      (r.stopReassembly c).rxTimerTrigger = r.rxTimerTrigger ∧
      (r.stopReassembly c).tCurrent = r.tCurrent := by
  rw [stopReassembly]
  split_ifs <;> exact ⟨rfl, rfl, rfl, rfl, rfl⟩

/-- A receiver with the same SNs and the same buffer. -/
structure SameWindow (r u : UmReceiver) : Prop where
  buffer : u.rxBuffer = r.rxBuffer
  reassembly : u.rxNextReassembly = r.rxNextReassembly
  highest : u.rxNextHighest = r.rxNextHighest

theorem SameWindow.waits_iff (h : r.SameWindow u) : u.Waits c ↔ r.Waits c := by
  rw [Waits, Waits, gap, gap, h.buffer, h.reassembly, h.highest]

theorem Ranged.of_sameWindow (hr : r.Ranged c) (h : r.SameWindow u)
    (htrigger : On c.snModulus u.rxTimerTrigger) : u.Ranged c where
  reassembly_on := h.reassembly ▸ hr.reassembly_on
  highest_on := h.highest ▸ hr.highest_on
  trigger_on := htrigger
  within := by
    intro item hitem
    rw [h.buffer] at hitem
    have hwithin := hr.within item hitem
    rw [modulusRx, ← h.highest] at hwithin
    exact hwithin

/-- The timer is changed, and set off by the highest SN, or left alone. -/
theorem updateReassembly_spec (h : r.Ranged c) :
    r.SameWindow (r.updateReassembly c) ∧ (r.updateReassembly c).Ranged c ∧
      (r.updateReassembly c).tCurrent = r.tCurrent ∧
      (r.tCurrent ≠ 0 → r.Waits c → (r.updateReassembly c).reassemblyTimer.isRunning = true) := by
  obtain ⟨hbuffer, hreassembly, hhighest, htrigger, htime⟩ := @stopReassembly_fields c r
  have hstop : r.SameWindow (r.stopReassembly c) := ⟨hbuffer, hreassembly, hhighest⟩
  have hranged := h.of_sameWindow hstop (htrigger ▸ h.trigger_on)
  simp only [updateReassembly]
  split_ifs with hstart
  · refine ⟨⟨hbuffer, hreassembly, hhighest⟩, ?_, htime, fun htime' _ => ?_⟩
    · have htrigger' : On c.snModulus (r.stopReassembly c).rxNextHighest := by
        rw [hhighest]
        exact h.highest_on
      exact h.of_sameWindow ⟨hbuffer, hreassembly, hhighest⟩ htrigger'
    · simp only [startReassembly, RlcTimer.start, RlcTimer.isRunning, htime]
      exact decide_eq_true htime'
  · refine ⟨hstop, hranged, htime, fun _ hwaits => ?_⟩
    by_contra hrunning
    have hmisses := hranged.missesBelowHighest_iff.mpr (hstop.waits_iff.mpr hwaits)
    exact hstart ⟨by simpa using hrunning, hmisses⟩

/-- The delivery of an SDU moves `RX_Next_Reassembly` along the circle. -/
theorem Ranged.deliver (h : r.Ranged c) {x : Int} {sdu : OctetString}
    (hrun : r.deliver c x = .ok (u, sdu)) : u.Ranged c ∧ u.tCurrent = r.tCurrent := by
  obtain ⟨⟨rxBuffer, sdu'⟩, hreassemble, hrun⟩ := Fallible.bind_eq_ok.mp hrun
  obtain ⟨next, hnext, hrun⟩ := Fallible.bind_eq_ok.mp hrun
  obtain ⟨rfl, rfl⟩ := Prod.mk.inj (Except.ok.inj hrun)
  have hnext_on : On c.snModulus next := by
    rw [reassemblyBehind] at hnext
    split_ifs at hnext with hx
    · obtain ⟨k, _, rfl, _⟩ := skipDelivered_ok h.reassembly_on hnext
      exact .advance c.snModulus_pos _ _
    · rw [← Except.ok.inj hnext]
      exact h.reassembly_on
  refine ⟨⟨hnext_on, h.highest_on, h.trigger_on, fun item hitem => ?_⟩, rfl⟩
  rw [reassemble] at hreassemble
  split_ifs at hreassemble
  obtain ⟨rfl, _⟩ := Prod.mk.inj (Except.ok.inj hreassemble)
  obtain ⟨other, hother, rfl | rfl⟩ := exists_of_mem_markProcessed hitem
  · exact h.within item hother
  · exact h.within other hother

/-- What is left in the buffer is in the window that has moved. -/
theorem ranged_discardOutside (hreassembly : On c.snModulus r.rxNextReassembly)
    (htrigger : On c.snModulus r.rxTimerTrigger)
    (hall : ∀ item ∈ r.rxBuffer, On c.snModulus item.sn) (x : Int) :
    ((r.updateNextHighest c x).discardOutside c).Ranged c := by
  have hhighest : On c.snModulus (r.updateNextHighest c x).rxNextHighest :=
    .advance c.snModulus_pos x 1
  refine ⟨hreassembly, hhighest, htrigger, fun item hitem => ?_⟩
  obtain ⟨hmem, hinside⟩ := List.mem_filter.mp hitem
  refine ⟨hall item hmem, ?_⟩
  have hlt : (r.updateNextHighest c x).snCompareRx c item.sn
      (r.updateNextHighest c x).rxNextHighest < 0 := by
    simpa using hinside
  rw [snCompareRx, modulusRx_highest hhighest] at hlt
  change (r.updateNextHighest c x).modulusRx c item.sn < c.windowSize
  omega

theorem Ranged.reassemblyInside (h : r.Ranged c) (hrun : r.reassemblyInside c = .ok u) :
    u.Ranged c ∧ u.tCurrent = r.tCurrent := by
  rw [UmReceiver.reassemblyInside] at hrun
  split_ifs at hrun
  · obtain ⟨next, hnext, hrun⟩ := Fallible.bind_eq_ok.mp hrun
    obtain rfl := Except.ok.inj hrun
    have hstart : On c.snModulus
        ((r.rxNextHighest - c.windowSize + c.snModulus) % c.snModulus) :=
      .advance c.snModulus_pos _ _
    obtain ⟨k, _, rfl, _⟩ := skipDelivered_ok hstart hnext
    exact ⟨⟨.advance c.snModulus_pos _ _, h.highest_on, h.trigger_on, h.within⟩, rfl⟩
  · obtain rfl := Except.ok.inj hrun
    exact ⟨h, rfl⟩

/-- A PDU that is placed outside of the window does not complete an SDU. -/
theorem Ranged.within_of_isAllSegmentsReceived (h : r.Ranged c) (hfull : pdu.si ≠ .full)
    (hdiscards : r.discards c pdu = false) (hon : On c.snModulus pdu.sn)
    (hall : isAllSegmentsReceived (r.place c pdu).rxBuffer pdu.sn = true) :
    r.modulusRx c pdu.sn < c.windowSize := by
  by_contra hout
  have hreach := reachesLast_of_isAllSegmentsReceived hall
  -- no other PDU has the SN
  have honly : ∀ item ∈ itemsWithSn (r.place c pdu).rxBuffer pdu.sn, item = pdu := by
    intro item hitem
    obtain ⟨hmem, hsn⟩ := mem_itemsWithSn hitem
    rcases Sorted.mem_insert.mp hmem with rfl | hmem
    · rfl
    · have hwithin := (h.within item hmem).2
      rw [hsn] at hwithin
      exact absurd hwithin hout
  obtain ⟨first, hfirst, hzero⟩ := exists_first_of_reachesLast hreach
  obtain ⟨last, hlast, hhas⟩ := exists_last_of_reachesLast hreach
  rw [honly first hfirst] at hzero
  rw [honly last hlast] at hhas
  have hso : pdu.si.requiresSo = true := by
    cases hsi : pdu.si <;> simp_all [ESegmentInfo.hasLast, ESegmentInfo.requiresSo]
  simp [discards, hso, hzero] at hdiscards

/-- The actions on a PDU that is placed end with the timer running, if something is missing. -/
theorem Ranged.actionsOnReception (h : r.Ranged c) (hfull : pdu.si ≠ .full)
    (hdiscards : r.discards c pdu = false) (hon : On c.snModulus pdu.sn)
    (hrun : (r.place c pdu).actionsOnReception c pdu.sn = .ok (u, sdu)) :
    u.Ranged c ∧ u.tCurrent = r.tCurrent ∧
      (r.tCurrent ≠ 0 → u.Waits c → u.reassemblyTimer.isRunning = true) := by
  -- each branch ends with the update of the timer in a ranged state
  have hupdate {v : UmReceiver} (hv : v.Ranged c ∧ v.tCurrent = r.tCurrent)
      (hu : v.updateReassembly c = u) :
      u.Ranged c ∧ u.tCurrent = r.tCurrent ∧
        (r.tCurrent ≠ 0 → u.Waits c → u.reassemblyTimer.isRunning = true) := by
    obtain ⟨hsame, hranged, htime, hrunning⟩ := updateReassembly_spec hv.1
    rw [hu] at hsame hranged htime hrunning
    rw [hv.2] at htime hrunning
    exact ⟨hranged, htime, fun hnow hwaits => hrunning hnow (hsame.waits_iff.mp hwaits)⟩
  have hall : ∀ item ∈ (r.place c pdu).rxBuffer, On c.snModulus item.sn := by
    intro item hitem
    rcases Sorted.mem_insert.mp hitem with rfl | hitem
    · exact hon
    · exact (h.within item hitem).1
  have hplaced (hlt : r.modulusRx c pdu.sn < c.windowSize) : (r.place c pdu).Ranged c := by
    refine ⟨h.reassembly_on, h.highest_on, h.trigger_on, fun item hitem => ?_⟩
    rcases Sorted.mem_insert.mp hitem with rfl | hitem
    · exact ⟨hon, hlt⟩
    · exact h.within item hitem
  rw [UmReceiver.actionsOnReception] at hrun
  split_ifs at hrun with hcomplete houtside
  · obtain ⟨⟨v, sdu'⟩, hdeliver, hrun⟩ := Fallible.bind_eq_ok.mp hrun
    obtain ⟨hu, _⟩ := Prod.mk.inj (Except.ok.inj hrun)
    have hlt := h.within_of_isAllSegmentsReceived hfull hdiscards hon hcomplete
    exact hupdate ((hplaced hlt).deliver hdeliver) hu
  · obtain ⟨v, hmove, hrun⟩ := Fallible.bind_eq_ok.mp hrun
    obtain ⟨hu, _⟩ := Prod.mk.inj (Except.ok.inj hrun)
    have hdiscarded := ranged_discardOutside (r := r.place c pdu) h.reassembly_on h.trigger_on hall
      pdu.sn
    exact hupdate (hdiscarded.reassemblyInside hmove) hu
  · obtain ⟨hu, _⟩ := Prod.mk.inj (Except.ok.inj hrun)
    refine hupdate ⟨hplaced ?_, rfl⟩ hu
    have hhighest : On c.snModulus (r.place c pdu).rxNextHighest := h.highest_on
    rw [snCompareRx, modulusRx_highest hhighest] at houtside
    change (r.place c pdu).modulusRx c pdu.sn < c.windowSize
    omega

/-! ## Expiry -/

/-- `RX_Next_Highest` is zero, the SNs from the trigger on are delivered up to the last one,
and this one misses a segment. -/
structure Wraps (c : UmConfig) (r : UmReceiver) : Prop where
  highest : r.rxNextHighest = 0
  delivered : ∀ n, r.rxTimerTrigger ≤ n → n < c.snModulus - 1 → isDelivered r.rxBuffer n = true
  missing : hasMissingSegment
    (r.rxBuffer.filter fun item => decide (item.sn = c.snModulus - 1)) (c.snModulus - 1) = true

theorem Ranged.discardBelow (h : r.Ranged c) {next : Int} (hnext : On c.snModulus next) :
    ({ r with rxNextReassembly := next }.discardBelow c).Ranged c := by
  refine ⟨hnext, h.highest_on, h.trigger_on, fun item hitem => ?_⟩
  exact h.within item (List.mem_filter.mp hitem).1

/-- Where the window has wrapped, only PDUs of the last SN are left. -/
theorem Ranged.buffer_discardBelow (h : r.Ranged c) (hhighest : r.rxNextHighest = 0) :
    ({ r with rxNextReassembly := c.snModulus - 1 }.discardBelow c).rxBuffer =
      r.rxBuffer.filter fun item => decide (item.sn = c.snModulus - 1) := by
  have hm := c.snModulus_eq
  have hw := c.two_lt_windowSize
  have hlast : On c.snModulus (c.snModulus - 1) := by
    constructor <;> omega
  apply List.filter_congr
  intro item hitem
  obtain ⟨hon, hlt⟩ := h.within item hitem
  have hmodulus (num : Int) : ({ r with rxNextReassembly := c.snModulus - 1 } :
      UmReceiver).modulusRx c num = r.modulusRx c num := rfl
  rw [modulusRx_eq hon h.highest_on] at hlt
  simp only [snCompareRx, hmodulus, modulusRx_eq hon h.highest_on,
    modulusRx_eq hlast h.highest_on]
  rw [hhighest] at hlt ⊢
  obtain ⟨h0, h1⟩ := hon
  rw [Bool.eq_iff_iff]
  simp only [Bool.not_eq_true', decide_eq_false_iff_not, decide_eq_true_eq]
  split_ifs at hlt ⊢ <;> omega

/-- The loop over delivered SNs goes up to the last one. -/
theorem skipDelivered_last_iff (h : r.Ranged c)
    (hnot : isDelivered r.rxBuffer (c.snModulus - 1) = false) :
    skipDelivered c.snModulus r.rxBuffer c.snModulus.toNat r.rxTimerTrigger =
        .ok (c.snModulus - 1) ↔
      ∀ n, r.rxTimerTrigger ≤ n → n < c.snModulus - 1 → isDelivered r.rxBuffer n = true := by
  obtain ⟨h0, h1⟩ := h.trigger_on
  have hinside {k : Nat} (hk : r.rxTimerTrigger + k < c.snModulus) :
      (r.rxTimerTrigger + k) % c.snModulus = r.rxTimerTrigger + k :=
    Int.emod_eq_of_lt (by omega) hk
  obtain ⟨j, hj⟩ := Int.le.dest (show r.rxTimerTrigger ≤ c.snModulus - 1 by omega)
  constructor
  · intro hrun n hle hlt
    obtain ⟨k, hk, hlast, _, hbefore⟩ := skipDelivered_ok h.trigger_on hrun
    obtain ⟨i, rfl⟩ := Int.le.dest hle
    have hik : i < k := by
      by_contra hge
      rw [hinside (by omega)] at hlast
      omega
    rw [← hinside (by omega)]
    exact hbefore i hik
  · intro hdelivered
    have hend : isDelivered r.rxBuffer ((r.rxTimerTrigger + j) % c.snModulus) = false := by
      rw [hinside (by omega), hj]
      exact hnot
    obtain ⟨k, hk, hrun, hstop, _⟩ := skipDelivered_eq c.snModulus.toNat h.trigger_on
      (show j < c.snModulus.toNat by omega) hend
    have hkj : k = j := by
      by_contra hne
      rw [hinside (by omega), hdelivered _ (by omega) (by omega)] at hstop
      cases hstop
    rw [hrun, hinside (by omega), hkj, hj]

/-- The expiry starts the timer again when something is missing, unless the window has
wrapped. -/
theorem Ranged.actionsOnReassemblyTimerExpired (h : r.Ranged c)
    (hstopped : r.reassemblyTimer.isRunning = false) (htime : r.tCurrent ≠ 0)
    (hrun : r.actionsOnReassemblyTimerExpired c = .ok u) :
    (u.Waits c → u.reassemblyTimer.isRunning = true) ↔ ¬ r.Wraps c := by
  obtain ⟨next, hnext, hrun⟩ := Fallible.bind_eq_ok.mp hrun
  have hnext_on : On c.snModulus next := by
    obtain ⟨k, _, rfl, _⟩ := skipDelivered_ok h.trigger_on hnext
    exact .advance c.snModulus_pos _ _
  have hranged := h.discardBelow hnext_on
  have hu := Except.ok.inj hrun
  have hwrapped (hwraps : r.Wraps c) : next = c.snModulus - 1 := by
    have hnot := isDelivered_of_hasMissingSegment hwraps.missing
    rw [isDelivered_filter_sn] at hnot
    have hlast := (skipDelivered_last_iff h hnot).mpr hwraps.delivered
    exact Except.ok.inj (hnext.symm.trans hlast)
  split_ifs at hu with hmisses
  · rw [← hu]
    refine iff_of_true (fun _ => ?_) fun hwraps => ?_
    · simp only [startReassembly, RlcTimer.start, RlcTimer.isRunning]
      exact decide_eq_true htime
    · exact (hranged.missesOnExpiry_iff.mp hmisses).2 ⟨hwrapped hwraps, hwraps.highest⟩
  · rw [← hu]
    have hnotrunning : ({ r with rxNextReassembly := next }.discardBelow
        c).reassemblyTimer.isRunning = false := hstopped
    rw [hnotrunning, imp_iff_not (by decide), not_iff_not]
    rw [hranged.missesOnExpiry_iff, not_and, not_not] at hmisses
    have hgap (hlast : next = c.snModulus - 1) (hzero : r.rxNextHighest = 0) :
        ({ r with rxNextReassembly := next }.discardBelow c).gap c = 0 := by
      rw [← hranged.next_iff, succ_emod hranged.reassembly_on]
      change r.rxNextHighest = if next + 1 = c.snModulus then 0 else next + 1
      rw [if_pos (by omega), hzero]
    have hbuffer (hlast : next = c.snModulus - 1) (hzero : r.rxNextHighest = 0) :
        hasMissingSegment ({ r with rxNextReassembly := next }.discardBelow c).rxBuffer next =
          hasMissingSegment (r.rxBuffer.filter fun item => decide (item.sn = c.snModulus - 1))
            (c.snModulus - 1) := by
      rw [hlast, h.buffer_discardBelow hzero]
    constructor
    · intro hwaits
      obtain ⟨hlast, hzero⟩ := hmisses hwaits
      have hlast' : next = c.snModulus - 1 := hlast
      have hzero' : r.rxNextHighest = 0 := hzero
      have hmissing : hasMissingSegment
          ({ r with rxNextReassembly := next }.discardBelow c).rxBuffer next = true := by
        rcases hwaits with ⟨hpos, _⟩ | ⟨_, hmissing⟩
        · rw [hgap hlast' hzero'] at hpos
          exact absurd hpos (lt_irrefl 0)
        · exact hmissing
      rw [hbuffer hlast' hzero'] at hmissing
      have hnot := isDelivered_of_hasMissingSegment hmissing
      rw [isDelivered_filter_sn] at hnot
      rw [hlast'] at hnext
      exact ⟨hzero', (skipDelivered_last_iff h hnot).mp hnext, hmissing⟩
    · intro hwraps
      have hlast := hwrapped hwraps
      refine .inr ⟨hgap hlast hwraps.highest, ?_⟩
      exact (hbuffer hlast hwraps.highest).trans hwraps.missing

theorem Ranged.expired (h : r.Ranged c) (hrun : r.actionsOnReassemblyTimerExpired c = .ok u) :
    u.Ranged c ∧ u.tCurrent = r.tCurrent := by
  obtain ⟨next, hnext, hrun⟩ := Fallible.bind_eq_ok.mp hrun
  have hu := Except.ok.inj hrun
  have hnext_on : On c.snModulus next := by
    obtain ⟨k, _, rfl, _⟩ := skipDelivered_ok h.trigger_on hnext
    exact .advance c.snModulus_pos _ _
  have hranged := h.discardBelow hnext_on
  split_ifs at hu
  · rw [← hu]
    exact ⟨hranged.of_sameWindow ⟨rfl, rfl, rfl⟩ hranged.highest_on, rfl⟩
  · rw [← hu]
    exact ⟨hranged, rfl⟩

/-! ## Runs -/

/-- Reestablishment comes when the buffers are empty. -/
inductive Event
  | receivePdu (data : OctetString)
  | timerCycle (currentTime : Int)
  | reestablishment

def reestablished (c : UmConfig) (r : UmReceiver) : UmReceiver :=
  { cleared c with tCurrent := r.tCurrent, reassemblyTimer := r.reassemblyTimer.stop }

/-- `clearAndDelete` reads the next pointer of an item that it has deleted. -/
def next (c : UmConfig) (r : UmReceiver) : Event → Except Fault UmReceiver
  | .receivePdu data => (r.receivePdu c data).map Prod.fst
  | .timerCycle currentTime => r.timerCycle c currentTime
  | .reestablishment =>
    if r.rxBuffer.isEmpty then .ok (r.reestablished c) else .error .nullDeref

/-- The runs of an entity that is new. Nothing happens behind a fault. -/
def system (c : UmConfig) : System (Except Fault UmReceiver) Event where
  init s := s = .ok (cleared c)
  step s event s' := s' = s >>= fun r => r.next c event

/-- The call comes to the actions on a PDU that is placed, or to those on the expiry. -/
def Acts (c : UmConfig) (r : UmReceiver) : Event → Prop
  | .receivePdu data => ∃ pdu, decodeUmd c.isShortSn data = .ok pdu ∧ pdu.size ≠ 0 ∧
      pdu.si ≠ .full ∧ r.discards c pdu = false
  | .timerCycle currentTime => r.reassemblyTimer.expires currentTime = true
  | .reestablishment => False

/-- Behind actions at a time other than zero the timer runs, if something is missing. -/
def Timed (c : UmConfig) (s : Except Fault UmReceiver) (event : Event)
    (s' : Except Fault UmReceiver) : Prop :=
  ∀ r u, s = .ok r → s' = .ok u → r.Acts c event → u.tCurrent ≠ 0 → u.Waits c →
    u.reassemblyTimer.isRunning = true

/-- The timer does not expire while the window has wrapped before the missing segments. -/
def Unwrapped (c : UmConfig) (s : Except Fault UmReceiver) (event : Event) : Prop :=
  ∀ r currentTime, s = .ok r → event = .timerCycle currentTime → currentTime ≠ 0 →
    r.reassemblyTimer.expires currentTime = true → ¬ r.Wraps c

theorem bitRange8_zero_lt (stop : Nat) (octet : UInt8) :
    bitRange8 0 stop octet < 2 ^ (stop + 1) := by
  rw [bitRange8_eq]
  exact Nat.mod_lt _ (Nat.two_pow_pos _)

theorem on_decodeUmdSn {sn index : Nat} (h : decodeUmdSn c.isShortSn data = .ok (sn, index)) :
    On c.snModulus sn := by
  rcases c.snLength_eq with hlength | hlength
  · have hshort : c.isShortSn = true := decide_eq_true hlength
    rw [decodeUmdSn, hshort, if_pos rfl] at h
    obtain ⟨octet, _, h⟩ := Fallible.bind_eq_ok.mp h
    obtain ⟨rfl, _⟩ := Prod.mk.inj (Except.ok.inj h)
    have hlt := bitRange8_zero_lt 5 octet
    rw [UmConfig.snModulus, hlength]
    exact ⟨Int.natCast_nonneg _, by exact_mod_cast hlt⟩
  · have hlong : c.isShortSn = false := decide_eq_false (by omega)
    rw [decodeUmdSn, hlong, if_neg Bool.false_ne_true] at h
    obtain ⟨high, _, h⟩ := Fallible.bind_eq_ok.mp h
    obtain ⟨low, _, h⟩ := Fallible.bind_eq_ok.mp h
    obtain ⟨rfl, _⟩ := Prod.mk.inj (Except.ok.inj h)
    have hhigh := bitRange8_zero_lt 3 high
    have hlow := bitRange8_zero_lt 7 low
    have hlt : bitRange8 0 3 high <<< 8 ||| bitRange8 0 7 low < 2 ^ 12 := by
      apply Nat.or_lt_two_pow
      · rw [Nat.shiftLeft_eq]
        omega
      · omega
    rw [UmConfig.snModulus, hlength]
    exact ⟨Int.natCast_nonneg _, by exact_mod_cast hlt⟩

/-- A PDU is decoded with an SN of the entity. -/
theorem on_decodeUmd (h : decodeUmd c.isShortSn data = .ok pdu) : On c.snModulus pdu.sn := by
  obtain ⟨octet0, _, h⟩ := Fallible.bind_eq_ok.mp h
  dsimp only at h
  split_ifs at h
  · obtain rfl := Except.ok.inj h
    exact ⟨le_rfl, c.snModulus_pos⟩
  · obtain ⟨⟨sn, index⟩, hsn, h⟩ := Fallible.bind_eq_ok.mp h
    obtain ⟨⟨so, index'⟩, _, h⟩ := Fallible.bind_eq_ok.mp h
    obtain rfl := Except.ok.inj h
    exact on_decodeUmdSn hsn

/-- A PDU that is placed comes to its actions. -/
theorem Ranged.receivePdu (h : r.Ranged c) (hrun : r.receivePdu c data = .ok (u, sdu)) :
    u.Ranged c ∧ u.tCurrent = r.tCurrent ∧
      (r.Acts c (.receivePdu data) → r.tCurrent ≠ 0 → u.Waits c →
        u.reassemblyTimer.isRunning = true) := by
  obtain ⟨pdu, hdecode, hrun⟩ := Fallible.bind_eq_ok.mp hrun
  -- a PDU that is not placed leaves the receiver alone
  have hsame (hnot : pdu.size = 0 ∨ pdu.si = .full ∨ r.discards c pdu = true) (hu : r = u) :
      u.Ranged c ∧ u.tCurrent = r.tCurrent ∧
        (r.Acts c (.receivePdu data) → r.tCurrent ≠ 0 → u.Waits c →
          u.reassemblyTimer.isRunning = true) := by
    subst hu
    refine ⟨h, rfl, fun ⟨pdu', hdecode', hsize, hfull, hdiscards⟩ => ?_⟩
    obtain rfl := Except.ok.inj (hdecode.symm.trans hdecode')
    rcases hnot with hzero | hsi | hdiscarded
    · exact absurd hzero hsize
    · exact absurd hsi hfull
    · rw [hdiscards] at hdiscarded
      cases hdiscarded
  rw [receiveUmdPdu] at hrun
  split_ifs at hrun with hsize hfull hdiscards
  · exact hsame (.inl hsize) (Prod.mk.inj (Except.ok.inj hrun)).1
  · exact hsame (.inr (.inl hfull)) (Prod.mk.inj (Except.ok.inj hrun)).1
  · exact hsame (.inr (.inr hdiscards)) (Prod.mk.inj (Except.ok.inj hrun)).1
  · obtain ⟨hranged, htime, hrunning⟩ := h.actionsOnReception hfull
      (Bool.eq_false_iff.mpr hdiscards) (on_decodeUmd hdecode) hrun
    exact ⟨hranged, htime, fun _ => hrunning⟩

theorem ranged_reestablished (r : UmReceiver) : (r.reestablished c).Ranged c := by
  have hm := c.snModulus_pos
  exact ⟨⟨le_rfl, hm⟩, ⟨le_rfl, hm⟩, ⟨le_rfl, hm⟩, fun item hitem => absurd hitem List.not_mem_nil⟩

/-- The receiver as it is when the actions on the expiry begin. -/
def stoppedAt (r : UmReceiver) (currentTime : Int) : UmReceiver :=
  { r with tCurrent := currentTime, reassemblyTimer := r.reassemblyTimer.stop }

theorem Ranged.stoppedAt (h : r.Ranged c) (currentTime : Int) :
    (r.stoppedAt currentTime).Ranged c :=
  ⟨h.reassembly_on, h.highest_on, h.trigger_on, h.within⟩

theorem wraps_stoppedAt (currentTime : Int) :
    (r.stoppedAt currentTime).Wraps c ↔ r.Wraps c :=
  ⟨fun h => ⟨h.highest, h.delivered, h.missing⟩, fun h => ⟨h.highest, h.delivered, h.missing⟩⟩

theorem timerCycle_of_expires (h : r.reassemblyTimer.expires currentTime = true) :
    r.timerCycle c currentTime =
      (r.stoppedAt currentTime).actionsOnReassemblyTimerExpired c := by
  rw [timerCycle, if_pos h]
  rfl

theorem Ranged.timerCycle (h : r.Ranged c) (hrun : r.timerCycle c currentTime = .ok u) :
    u.Ranged c ∧ u.tCurrent = currentTime := by
  by_cases hexpires : r.reassemblyTimer.expires currentTime = true
  · rw [timerCycle_of_expires hexpires] at hrun
    exact (h.stoppedAt currentTime).expired hrun
  · rw [UmReceiver.timerCycle, if_neg hexpires] at hrun
    obtain rfl := Except.ok.inj hrun
    exact ⟨⟨h.reassembly_on, h.highest_on, h.trigger_on, h.within⟩, rfl⟩

/-- What is known of the states of all runs. -/
def RunsRanged (c : UmConfig) (s : Except Fault UmReceiver) : Prop :=
  ∀ r, s = .ok r → r.Ranged c

theorem runsRanged_step (h : RunsRanged c s) (hstep : (system c).step s event s') :
    RunsRanged c s' := by
  intro u hu
  obtain ⟨r, rfl, hnext⟩ := Fallible.bind_eq_ok.mp (hstep.symm.trans hu)
  have hr := h r rfl
  cases event with
  | receivePdu data =>
    obtain ⟨⟨v, sdu⟩, hrun, rfl⟩ := Fallible.map_eq_ok.mp hnext
    exact (hr.receivePdu hrun).1
  | timerCycle currentTime => exact (hr.timerCycle hnext).1
  | reestablishment =>
    rw [next] at hnext
    split_ifs at hnext
    rw [← Except.ok.inj hnext]
    exact r.ranged_reestablished

theorem runsRanged_of_run {P : Except Fault UmReceiver → Event → Prop} {events : List Event}
    (h : (system c).Run P events s) : RunsRanged c s := by
  apply h.invariant
  · rintro _ rfl r hr
    rw [← Except.ok.inj hr]
    exact (cleared c).ranged_reestablished
  · exact fun s event s' hranged _ hstep => runsRanged_step hranged hstep

/-- Where the window has wrapped, the loop of the expiry ends. -/
theorem Ranged.expires_returns (h : r.Ranged c) (hwraps : r.Wraps c) :
    ∃ u, r.actionsOnReassemblyTimerExpired c = .ok u := by
  have hnot := isDelivered_of_hasMissingSegment hwraps.missing
  rw [isDelivered_filter_sn] at hnot
  have hlast := (skipDelivered_last_iff h hnot).mpr hwraps.delivered
  rw [UmReceiver.actionsOnReassemblyTimerExpired, hlast]
  exact ⟨_, rfl⟩

/-- A step leaves the timer as it should exactly if the window has not wrapped. -/
theorem timed_iff (h : RunsRanged c s) (hstep : (system c).step s event s') :
    Timed c s event s' ↔ Unwrapped c s event := by
  constructor
  · rintro htimed r currentTime rfl rfl htime hexpires hwraps
    have hr := (h r rfl).stoppedAt currentTime
    have hwraps' := (wraps_stoppedAt currentTime).mpr hwraps
    obtain ⟨u, hu⟩ := hr.expires_returns hwraps'
    have hs' : s' = .ok u := by
      rw [hstep, ← hu, ← timerCycle_of_expires hexpires]
      rfl
    have htime' : (r.stoppedAt currentTime).tCurrent ≠ 0 := htime
    refine (hr.actionsOnReassemblyTimerExpired rfl htime' hu).mp (fun hwaits => ?_) hwraps'
    refine htimed r u rfl hs' hexpires ?_ hwaits
    rw [(hr.expired hu).2]
    exact htime
  · rintro hunwrapped r u rfl hu hacts htime hwaits
    have hr := h r rfl
    have hnext : r.next c event = .ok u := hstep.symm.trans hu
    cases event with
    | receivePdu data =>
      obtain ⟨⟨v, sdu⟩, hrun, rfl⟩ := Fallible.map_eq_ok.mp hnext
      obtain ⟨_, htime', hrunning⟩ := hr.receivePdu hrun
      exact hrunning hacts (htime' ▸ htime) hwaits
    | timerCycle currentTime =>
      have hrun : r.timerCycle c currentTime = .ok u := hnext
      have hnow := (hr.timerCycle hrun).2
      have htime' : currentTime ≠ 0 := hnow ▸ htime
      rw [timerCycle_of_expires hacts] at hrun
      have hnot := hunwrapped r currentTime rfl rfl htime' hacts
      rw [← wraps_stoppedAt currentTime] at hnot
      exact ((hr.stoppedAt currentTime).actionsOnReassemblyTimerExpired rfl htime' hrun).mpr hnot
        hwaits
    | reestablishment => exact absurd hacts id

/-- The runs in which something missing always has the timer running behind actions are the
runs in which the timer never expires while the window has wrapped before the missing
segments. -/
theorem runs_timed_iff (c : UmConfig) (events : List Event) (s : Except Fault UmReceiver) :
    (system c).StepsRun (Timed c) events s ↔ (system c).Run (Unwrapped c) events s :=
  System.stepsRun_iff runsRanged_of_run fun _ _ _ => timed_iff

/-- An entity with SNs of six bits. -/
def shortSn : UmConfig where
  snLength         := 6
  txMaxSize        := 1024
  rxMaxSize        := 1024
  reassemblyPeriod := 400
  snLength_eq      := .inl rfl

/-- A middle segment of the SN 63 has come, and the timer waits for it. -/
def beforeWrap : UmReceiver where
  rxCurrentSize    := 2
  rxBuffer         := [⟨.first, 0, 62, [62], false, false⟩, ⟨.middle, 16128, 63, [9], false, false⟩]
  rxNextReassembly := 32
  rxNextHighest    := 0
  rxTimerTrigger   := 63
  tCurrent         := 402
  reassemblyTimer  := ⟨400, 402⟩

/-- The timer expires, and is not started again for the SN 63. -/
theorem untimed_step :
    ∃ s, (system shortSn).Run System.unrestricted
        [.timerCycle 1, .receivePdu [0x40, 31], .receivePdu [0x40, 62], .timerCycle 402,
          .receivePdu [0xc0, 63, 0, 9]] s ∧
      ∃ s', (system shortSn).step s (.timerCycle 803) s' ∧
        ¬ Timed shortSn s (.timerCycle 803) s' := by
  refine ⟨.ok beforeWrap, ?_, _, rfl, fun htimed => ?_⟩
  · exact System.run_foldl (S := system shortSn)
      (f := fun s event => s >>= fun r => r.next shortSn event) (fun _ _ => rfl)
      (s := .ok (cleared shortSn)) rfl _
  · have hexpires : beforeWrap.reassemblyTimer.expires 803 = true := by decide
    have hrunning := htimed beforeWrap
      { beforeWrap with
        rxCurrentSize := 1
        rxBuffer := [⟨.middle, 16128, 63, [9], false, false⟩]
        rxNextReassembly := 63
        tCurrent := 803
        reassemblyTimer := ⟨400, 0⟩ } rfl rfl hexpires (by decide)
      (.inr ⟨by decide, by decide⟩)
    exact absurd hrunning (by decide)

end UmReceiver

end Quicup.Ueransim.Rlc
