import Quicup.Core.System
import Quicup.Ueransim.Rlc.Ordering

/-!
# The reception window

The state variables of the receiver stay ordered within one window, and the reception
buffer sorted, over every run. The buffer size is kept exactly as long as no PDU is
stored for a delivered SDU and then deleted with it.
-/

namespace Quicup.Ueransim.Rlc

open Circular

/-- A PDU as the decoder builds it. -/
structure AmdPdu.Decoded (c : AmConfig) (pdu : AmdPdu) : Prop where
  on : On c.snModulus pdu.sn
  so_lt : pdu.so < 65536
  so_eq : pdu.si.requiresSo = false → pdu.so = 0
  fresh : pdu.isProcessed = false

namespace AmReceiver

variable {c : AmConfig} {r : AmReceiver} {pdu : AmdPdu} {sn x : Int} {s t : Except Fault AmReceiver}
  {k : Nat} {e : Event}

theorem modulusRx_eq (a : Int) : r.modulusRx c a = distance c.snModulus r.rxNext a := rfl

theorem snCompareRx_eq (a b : Int) : r.snCompareRx c a b =
    distance c.snModulus r.rxNext a - distance c.snModulus r.rxNext b := rfl

theorem isInReceiveWindow_iff (sn : Int) :
    r.isInReceiveWindow c sn = true ↔ distance c.snModulus r.rxNext sn < c.windowSize := by
  rw [isInReceiveWindow, decide_eq_true_iff, modulusRx_eq]

/-! ## The invariant -/

/-- A buffered PDU has data, and an offset only where it is not the first segment. -/
structure Stored (item : AmdPdu) : Prop where
  size_pos : 0 < item.size
  so_lt : item.so < 65536
  requiresSo_iff : item.si.requiresSo = true ↔ item.so ≠ 0

/-- The order of the variables and of the buffer. The first SN that is not delivered is
`RX_Highest_Status` or comes before it. -/
structure Window (c : AmConfig) (r : AmReceiver) : Prop where
  next_on : On c.snModulus r.rxNext
  highest_on : On c.snModulus r.rxNextHighest
  status_on : On c.snModulus r.rxHighestStatus
  trigger_on : On c.snModulus r.rxNextStatusTrigger
  status_le : r.modulusRx c r.rxHighestStatus ≤ r.modulusRx c r.rxNextHighest
  highest_le : r.modulusRx c r.rxNextHighest ≤ c.windowSize
  sorted : SortedFrom c.snModulus r.rxNext r.rxBuffer
  below : ∀ item ∈ r.rxBuffer, r.modulusRx c item.sn < r.modulusRx c r.rxNextHighest
  stored : ∀ item ∈ r.rxBuffer, Stored item
  heads : HeadFirst r.rxBuffer
  status_undelivered : isDelivered r.rxBuffer r.rxHighestStatus = false

/-- Between two operations the SDU at `RX_Next` is not delivered, and a running
t-Reassembly waits for an SN of the window. -/
structure Settled (c : AmConfig) (r : AmReceiver) : Prop extends Window c r where
  next_undelivered : isDelivered r.rxBuffer r.rxNext = false
  trigger_pos : r.reassemblyTimer.isRunning = true → 0 < r.modulusRx c r.rxNextStatusTrigger
  trigger_le : r.reassemblyTimer.isRunning = true →
    r.modulusRx c r.rxNextStatusTrigger ≤ r.modulusRx c r.rxNextHighest

theorem Window.undelivered_highest (h : r.Window c) :
    isDelivered r.rxBuffer r.rxNextHighest = false := by
  refine Bool.eq_false_iff.mpr fun hdelivered => ?_
  obtain ⟨item, hitem, hsn, _⟩ := (h.heads.isDelivered_iff _).mp hdelivered
  exact absurd (h.below item hitem) (by rw [hsn]; exact lt_irrefl _)

/-- The timers, the size and the STATUS trigger have no part in the order. -/
theorem Window.with_others (h : r.Window c) (size time : Int) (triggered : Bool)
    (reassembly prohibit : RlcTimer) :
    Window c { r with
      rxCurrentSize := size
      tCurrent := time
      statusTriggered := triggered
      reassemblyTimer := reassembly
      statusProhibitTimer := prohibit } :=
  ⟨h.next_on, h.highest_on, h.status_on, h.trigger_on, h.status_le, h.highest_le, h.sorted,
    h.below, h.stored, h.heads, h.status_undelivered⟩

theorem settled_cleared (c : AmConfig) : Settled c (cleared c) := by
  have hzero : On c.snModulus 0 := ⟨le_rfl, c.snModulus_pos⟩
  have hdist : (cleared c).modulusRx c 0 = 0 := distance_self c.snModulus 0
  have hwindow := c.two_lt_windowSize
  refine ⟨⟨hzero, hzero, hzero, hzero, le_rfl, ?_, ⟨?_, .nil⟩, ?_, ?_, ?_, rfl⟩, rfl, ?_, ?_⟩
  · exact hdist.trans_le (by omega)
  all_goals simp [cleared, HeadFirst, RlcTimer.isRunning]

/-! ## Placing a PDU -/

theorem accepted_of_not_discards (h : r.discards c pdu = false) :
    (pdu.si.requiresSo = true → pdu.so ≠ 0) ∧ 0 < pdu.size ∧
      r.rxCurrentSize + pdu.size ≤ c.rxMaxSize ∧ r.modulusRx c pdu.sn < c.windowSize ∧
      isAlreadyReceived r.rxBuffer pdu.sn pdu.so pdu.size = false := by
  simp only [discards, decide_eq_false_iff_not, not_or, not_and, isInReceiveWindow_iff] at h
  obtain ⟨hso, hsize, hroom, hwindow, hreceived⟩ := h
  exact ⟨hso, Nat.pos_of_ne_zero hsize, not_lt.mp hroom, not_not.mp hwindow,
    Bool.eq_false_iff.mpr hreceived⟩

/-- The first item of a delivered SDU stays in front. -/
theorem Window.insert_behind_delivered (h : r.Window c) {first : AmdPdu} {rest : List AmdPdu}
    (hitems : itemsWithSn r.rxBuffer sn = first :: rest) (hprocessed : first.isProcessed = true)
    (hpdu : pdu.sn = sn) :
    Sorted.insert (compareRx (r.snCompareRx c)) pdu (first :: rest) =
      first :: Sorted.insert (compareRx (r.snCompareRx c)) pdu rest := by
  obtain ⟨hmem, hsn⟩ := mem_itemsWithSn (hitems ▸ List.mem_cons_self (a := first) (l := rest))
  obtain ⟨first', rest', hitems', _, hso⟩ := h.heads first hmem hprocessed
  rw [hsn, hitems] at hitems'
  obtain ⟨rfl, _⟩ := List.cons.inj hitems'
  rw [Sorted.insert, if_neg]
  rw [compareRx, if_pos (hsn.trans hpdu.symm), hso]
  omega

theorem Window.itemsWithSn_place (h : r.Window c) (hpdu : On c.snModulus pdu.sn)
    (hsn : On c.snModulus sn) :
    itemsWithSn (r.place c pdu).rxBuffer sn =
      if pdu.sn = sn then
        Sorted.insert (compareRx (r.snCompareRx c)) pdu (itemsWithSn r.rxBuffer sn)
      else itemsWithSn r.rxBuffer sn :=
  h.sorted.itemsWithSn_insertToRxBuffer hpdu hsn snCompareRx_eq

/-- A PDU that is placed changes nothing about what is delivered. -/
theorem Window.isDelivered_place (h : r.Window c) (hdec : pdu.Decoded c) (hsn : On c.snModulus sn) :
    isDelivered (r.place c pdu).rxBuffer sn = isDelivered r.rxBuffer sn := by
  rw [isDelivered, isDelivered, h.itemsWithSn_place hdec.on hsn]
  split_ifs with hpdu
  · rcases hbefore : itemsWithSn r.rxBuffer sn with _ | ⟨first, rest⟩
    · exact hdec.fresh
    · by_cases hprocessed : first.isProcessed = true
      · rw [h.insert_behind_delivered hbefore hprocessed hpdu]
      · rw [Sorted.insert]
        split_ifs
        · exact hdec.fresh.trans (Bool.eq_false_iff.mpr hprocessed).symm
        · rfl
  · rfl

theorem Window.heads_place (h : r.Window c) (hdec : pdu.Decoded c) :
    HeadFirst (r.place c pdu).rxBuffer := by
  intro item hitem hprocessed
  rcases Sorted.mem_insert.mp hitem with rfl | hitem
  · exact absurd (hdec.fresh.symm.trans hprocessed) Bool.false_ne_true
  obtain ⟨first, rest, hitems, hfirst, hso⟩ := h.heads item hitem hprocessed
  rw [h.itemsWithSn_place hdec.on (h.sorted.on item hitem), hitems]
  split_ifs with hpdu
  · exact ⟨first, _, h.insert_behind_delivered hitems hfirst hpdu, hfirst, hso⟩
  · exact ⟨first, rest, rfl, hfirst, hso⟩

/-- `RX_Next_Highest` is behind the SN and does not move back. -/
theorem updateNextHighest_spec (hnext : On c.snModulus r.rxNext)
    (hhighest : On c.snModulus r.rxNextHighest) (hle : r.modulusRx c r.rxNextHighest ≤ c.windowSize)
    (hx : On c.snModulus x) (hwindow : r.modulusRx c x < c.windowSize) :
    ∃ highest, r.updateNextHighest c x = { r with rxNextHighest := highest } ∧
      On c.snModulus highest ∧ r.modulusRx c r.rxNextHighest ≤ r.modulusRx c highest ∧
      r.modulusRx c highest ≤ c.windowSize ∧ r.modulusRx c x < r.modulusRx c highest := by
  have hm := c.snModulus_eq
  have hpos := c.two_lt_windowSize
  rw [updateNextHighest, snCompareRx_eq]
  simp only [modulusRx_eq] at *
  split_ifs with hcompare
  · have hdist := distance_advance hnext hx (k := 1) zero_le_one (by omega)
    exact ⟨_, rfl, .advance c.snModulus_pos x 1, by omega, by omega, by omega⟩
  · exact ⟨r.rxNextHighest, rfl, hhighest, le_rfl, hle, by omega⟩

theorem Settled.place (h : r.Settled c) (hdec : pdu.Decoded c)
    (haccepts : r.discards c pdu = false) :
    Settled c ((r.place c pdu).updateNextHighest c pdu.sn) := by
  obtain ⟨hso, hsize, _, hwindow, _⟩ := accepted_of_not_discards haccepts
  obtain ⟨highest, heq, hon, hge, hle, hlt⟩ := updateNextHighest_spec (r := r.place c pdu)
    h.next_on h.highest_on h.highest_le hdec.on hwindow
  rw [heq]
  refine ⟨⟨h.next_on, hon, h.status_on, h.trigger_on, h.status_le.trans hge, hle,
    h.sorted.insertToRxBuffer hdec.on snCompareRx_eq, ?_, ?_, h.heads_place hdec, ?_⟩, ?_,
    h.trigger_pos, fun hrunning => (h.trigger_le hrunning).trans hge⟩
  · intro item hitem
    rcases Sorted.mem_insert.mp hitem with rfl | hitem
    · exact hlt
    · exact (h.below item hitem).trans_le hge
  · intro item hitem
    rcases Sorted.mem_insert.mp hitem with rfl | hitem
    · exact ⟨hsize, hdec.so_lt, hso, fun hne => by_contra fun hnot =>
        hne (hdec.so_eq (Bool.eq_false_iff.mpr hnot))⟩
    · exact h.stored item hitem
  · exact (h.isDelivered_place hdec h.status_on).trans h.status_undelivered
  · exact (h.isDelivered_place hdec h.next_on).trans h.next_undelivered

/-! ## Delivery -/

/-- An SDU that is complete has not been delivered, and its first item starts it. -/
theorem Window.of_isAllSegmentsReceived (h : r.Window c)
    (hall : isAllSegmentsReceived r.rxBuffer x = true) :
    (∀ item ∈ r.rxBuffer, item.sn = x → item.isProcessed = false) ∧
      ∃ first rest, itemsWithSn r.rxBuffer x = first :: rest ∧ first.so = 0 := by
  rcases hitems : itemsWithSn r.rxBuffer x with _ | ⟨first, rest⟩
  · simp [isAllSegmentsReceived, hitems] at hall
  simp only [isAllSegmentsReceived, hitems] at hall
  have hfresh : first.isProcessed = false := by
    by_contra hprocessed
    rw [if_pos (by simpa using hprocessed)] at hall
    exact absurd hall Bool.false_ne_true
  have hso : first.so = 0 := by
    by_contra hne
    rw [if_neg (by simp [hfresh]), reachesLast, if_pos (by omega)] at hall
    exact absurd hall Bool.false_ne_true
  refine ⟨fun item hitem hsn => ?_, first, rest, rfl, hso⟩
  by_contra hprocessed
  obtain ⟨first', rest', hitems', hfirst', _⟩ := h.heads item hitem (by simpa using hprocessed)
  rw [hsn, hitems] at hitems'
  obtain ⟨rfl, _⟩ := List.cons.inj hitems'
  exact absurd (hfresh.symm.trans hfirst') Bool.false_ne_true

theorem Window.heads_markProcessed (h : r.Window c) (hx : On c.snModulus x)
    (hall : isAllSegmentsReceived r.rxBuffer x = true) :
    HeadFirst (markProcessed r.rxBuffer x) := by
  obtain ⟨_, first, rest, hitems, hso⟩ := h.of_isAllSegmentsReceived hall
  intro item hitem hprocessed
  rw [h.sorted.itemsWithSn_markProcessed hx ((h.sorted.markProcessed hx).on item hitem)]
  split_ifs with hsn
  · exact ⟨first.processed, rest.map AmdPdu.processed, by rw [hitems, List.map_cons], rfl, hso⟩
  · rw [h.sorted.markProcessed_eq hx] at hitem
    obtain ⟨before, hbefore, rfl⟩ := List.mem_map.mp hitem
    have hne : before.sn ≠ x := fun heq => hsn (by rw [if_pos heq]; exact heq)
    rw [if_neg hne] at hprocessed ⊢
    exact h.heads before hbefore hprocessed

theorem Window.isDelivered_markProcessed (h : r.Window c) (hx : On c.snModulus x)
    (hsn : On c.snModulus sn) (hall : isAllSegmentsReceived r.rxBuffer x = true) :
    isDelivered (markProcessed r.rxBuffer x) sn =
      if sn = x then true else isDelivered r.rxBuffer sn := by
  obtain ⟨_, first, rest, hitems, _⟩ := h.of_isAllSegmentsReceived hall
  rw [isDelivered, h.sorted.itemsWithSn_markProcessed hx hsn]
  split_ifs
  · rw [hitems]
    rfl
  · rfl

/-- The SN of a complete SDU is below `RX_Next_Highest`. -/
theorem Window.complete_below (h : r.Window c) (hall : isAllSegmentsReceived r.rxBuffer x = true) :
    r.modulusRx c x < r.modulusRx c r.rxNextHighest := by
  obtain ⟨_, first, rest, hitems, _⟩ := h.of_isAllSegmentsReceived hall
  obtain ⟨hmem, hsn⟩ := mem_itemsWithSn (hitems ▸ List.mem_cons_self (a := first) (l := rest))
  exact hsn ▸ h.below first hmem

/-- A change of the items of an SN leaves their SNs. -/
theorem Window.below_markProcessed (h : r.Window c) (hx : On c.snModulus x) :
    ∀ item ∈ markProcessed r.rxBuffer x,
      r.modulusRx c item.sn < r.modulusRx c r.rxNextHighest := by
  intro item hitem
  rw [h.sorted.markProcessed_eq hx] at hitem
  obtain ⟨before, hbefore, rfl⟩ := List.mem_map.mp hitem
  have hsn : (if before.sn = x then before.processed else before).sn = before.sn := by
    split <;> rfl
  rw [hsn]
  exact h.below before hbefore

/-- The first SN from `RX_Highest_Status` on that is not delivered is in the window. -/
theorem Window.skipDelivered_eq (h : r.Window c) {list : List AmdPdu} {start : Int}
    (hstart : On c.snModulus start) (hle : r.modulusRx c start ≤ r.modulusRx c r.rxNextHighest)
    (hhighest : isDelivered list r.rxNextHighest = false) :
    ∃ status, skipDelivered c.snModulus list c.snModulus.toNat start = .ok status ∧
      On c.snModulus status ∧ r.modulusRx c start ≤ r.modulusRx c status ∧
      r.modulusRx c status ≤ r.modulusRx c r.rxNextHighest ∧ isDelivered list status = false := by
  have hm := c.snModulus_eq
  have hlarge := c.two_lt_windowSize
  have hwindow := h.highest_le
  have hpos := distance_nonneg h.next_on hstart
  simp only [modulusRx_eq] at hle hwindow ⊢
  -- the loop would stop at `RX_Next_Highest`, this many SNs ahead
  obtain ⟨j, hj⟩ := Int.le.dest hle
  have hreach : (start + j) % c.snModulus = r.rxNextHighest := by
    rw [← distance_inj (.advance c.snModulus_pos start j) h.highest_on,
      distance_advance h.next_on hstart (Int.natCast_nonneg j) (by omega), hj]
  obtain ⟨k, hk, hrun, hend, _⟩ := Rlc.skipDelivered_eq c.snModulus.toNat hstart
    (by omega) (hreach ▸ hhighest)
  have hstatus := distance_advance h.next_on hstart (Int.natCast_nonneg k) (by omega)
  exact ⟨_, hrun, .advance c.snModulus_pos start k, by omega, by omega, hend⟩

/-- `RX_Highest_Status` and `RX_Next` move to SNs that are not delivered. -/
theorem Settled.deliver_eq (h : r.Settled c) (hx : On c.snModulus x)
    (hall : isAllSegmentsReceived r.rxBuffer x = true)
    (hlength : (reassembled r.rxBuffer x).length ≤ reassembleBufferLen) :
    ∃ (k : Nat) (status : Int),
      r.deliver c x = .ok ({ r with
        rxBuffer := (markProcessed r.rxBuffer x).filter fun item =>
          decide (k ≤ r.modulusRx c item.sn)
        rxNext := (r.rxNext + k) % c.snModulus
        rxHighestStatus := status
        rxCurrentSize := r.rxCurrentSize - (reassembled r.rxBuffer x).length },
          reassembled r.rxBuffer x) ∧
      On c.snModulus status ∧ k ≤ r.modulusRx c status ∧
      r.modulusRx c status ≤ r.modulusRx c r.rxNextHighest ∧
      isDelivered (markProcessed r.rxBuffer x) status = false ∧
      isDelivered (markProcessed r.rxBuffer x) ((r.rxNext + k) % c.snModulus) = false ∧
      (∀ j < k, isDelivered (markProcessed r.rxBuffer x) ((r.rxNext + (j : Nat)) % c.snModulus) =
        true) ∧
      (x ≠ r.rxNext → k = 0) := by
  have hm := c.snModulus_eq
  have hbelow := h.complete_below hall
  have hmarked {sn : Int} (hsn : On c.snModulus sn) :=
    h.isDelivered_markProcessed hx hsn hall
  have hundelivered {sn : Int} (hsn : On c.snModulus sn) (hne : x ≠ sn)
      (hnot : isDelivered r.rxBuffer sn = false) :
      isDelivered (markProcessed r.rxBuffer x) sn = false := by
    rw [hmarked hsn, if_neg hne.symm, hnot]
  obtain ⟨status, hstatus, hon, hle, hnot⟩ : ∃ status,
      r.statusBehind c (markProcessed r.rxBuffer x) x = .ok status ∧ On c.snModulus status ∧
      r.modulusRx c status ≤ r.modulusRx c r.rxNextHighest ∧
      isDelivered (markProcessed r.rxBuffer x) status = false := by
    rw [statusBehind]
    by_cases hxs : x = r.rxHighestStatus
    · have hne : x ≠ r.rxNextHighest := fun heq => by
        rw [heq] at hbelow
        exact lt_irrefl _ hbelow
      obtain ⟨status, hrun, hon, _, hle, hnot⟩ := h.skipDelivered_eq h.status_on h.status_le
        (hundelivered h.highest_on hne h.undelivered_highest)
      exact ⟨status, by rw [if_pos hxs, hrun], hon, hle, hnot⟩
    · exact ⟨r.rxHighestStatus, if_neg hxs, h.status_on, h.status_le,
        hundelivered h.status_on hxs h.status_undelivered⟩
  obtain ⟨k, hnext, hend, hbefore, hstay⟩ : ∃ k : Nat,
      r.nextBehind c (markProcessed r.rxBuffer x) x =
        ((markProcessed r.rxBuffer x).filter fun item => decide (k ≤ r.modulusRx c item.sn),
          (r.rxNext + k) % c.snModulus) ∧
      isDelivered (markProcessed r.rxBuffer x) ((r.rxNext + k) % c.snModulus) = false ∧
      (∀ j < k, isDelivered (markProcessed r.rxBuffer x) ((r.rxNext + (j : Nat)) % c.snModulus) =
        true) ∧
      (x ≠ r.rxNext → k = 0) := by
    have hsorted := h.sorted.markProcessed hx
    have hzero : (r.rxNext + (0 : Nat)) % c.snModulus = r.rxNext := advance_zero h.next_on
    have hnonneg : ∀ item ∈ markProcessed r.rxBuffer x,
        ((0 : Nat) : Int) ≤ distance c.snModulus r.rxNext item.sn :=
      fun item hitem => distance_nonneg h.next_on (hsorted.on item hitem)
    have hlast : ∀ item ∈ markProcessed r.rxBuffer x,
        distance c.snModulus r.rxNext item.sn + 1 < c.snModulus := by
      intro item hitem
      have hitem := h.below_markProcessed hx item hitem
      have hwindow := h.highest_le
      have hlarge := c.two_lt_windowSize
      simp only [modulusRx_eq] at hitem hwindow
      omega
    rw [nextBehind]
    by_cases hxn : x = r.rxNext
    · obtain ⟨k, _, _, hrun, hbefore, hend⟩ := deleteDelivered_eq h.next_on hsorted hnonneg
        c.snModulus_pos hlast le_rfl
      rw [hzero] at hrun
      exact ⟨k, by rw [if_pos hxn, hrun]; rfl, hend, fun j hj => hbefore j (Nat.zero_le j) hj,
        fun hne => absurd hxn hne⟩
    · refine ⟨0, ?_, ?_, fun j hj => absurd hj (Nat.not_lt_zero j), fun _ => rfl⟩
      · rw [if_neg hxn, hzero, List.filter_eq_self.mpr]
        exact fun item hitem => decide_eq_true (hnonneg item hitem)
      · rw [hzero]
        exact hundelivered h.next_on hxn h.next_undelivered
  refine ⟨k, status, ?_, hon, ?_, hle, hnot, hend, hbefore, hstay⟩
  · rw [deliver, reassemble, if_neg (Nat.not_lt.mpr hlength)]
    simp only [Fallible.ok_bind, hstatus, hnext]
    rfl
  · by_contra hpassed
    obtain ⟨j, hj⟩ := Int.eq_ofNat_of_zero_le (distance_nonneg h.next_on hon)
    have hdelivered := hbefore j (by rw [modulusRx_eq] at hpassed; omega)
    rw [← hj, add_distance h.next_on hon, hnot] at hdelivered
    exact absurd hdelivered Bool.false_ne_true

/-- The state before t-Reassembly is looked at: it may wait for an SN that was passed. -/
structure Moved (c : AmConfig) (r : AmReceiver) : Prop extends Window c r where
  next_undelivered : isDelivered r.rxBuffer r.rxNext = false
  trigger : r.reassemblyTimer.isRunning = true →
    r.modulusRx c r.rxNextStatusTrigger ≤ r.modulusRx c r.rxNextHighest ∨
      c.windowSize < r.modulusRx c r.rxNextStatusTrigger

theorem Settled.moved (h : r.Settled c) : Moved c r :=
  ⟨h.toWindow, h.next_undelivered, fun hrunning => .inl (h.trigger_le hrunning)⟩

theorem Window.stored_markProcessed (h : r.Window c) (hx : On c.snModulus x) :
    ∀ item ∈ markProcessed r.rxBuffer x, Stored item := by
  intro item hitem
  rw [h.sorted.markProcessed_eq hx] at hitem
  obtain ⟨before, hbefore, rfl⟩ := List.mem_map.mp hitem
  have hstored := h.stored before hbefore
  split
  · exact ⟨hstored.size_pos, hstored.so_lt, hstored.requiresSo_iff⟩
  · exact hstored

/-- The base moves by `k` SNs, over the items of which nothing is kept. -/
theorem Settled.moved_deliver (h : r.Settled c) {status : Int} {size : Int} (hx : On c.snModulus x)
    (hall : isAllSegmentsReceived r.rxBuffer x = true) (hon : On c.snModulus status)
    (hk : k ≤ r.modulusRx c status) (hle : r.modulusRx c status ≤ r.modulusRx c r.rxNextHighest)
    (hstatus : isDelivered (markProcessed r.rxBuffer x) status = false)
    (hnext : isDelivered (markProcessed r.rxBuffer x) ((r.rxNext + k) % c.snModulus) = false) :
    Moved c { r with
      rxBuffer := (markProcessed r.rxBuffer x).filter fun item =>
        decide (k ≤ r.modulusRx c item.sn)
      rxNext := (r.rxNext + k) % c.snModulus
      rxHighestStatus := status
      rxCurrentSize := size } := by
  have hm := c.snModulus_eq
  have hlarge := c.two_lt_windowSize
  have hwindow := h.highest_le
  have hk0 := Int.natCast_nonneg k
  have hsorted := h.sorted.markProcessed hx
  -- the items of an SN that is not passed are kept
  have hkept {sn : Int} (hsn : On c.snModulus sn) (hsnk : k ≤ r.modulusRx c sn) :
      itemsWithSn ((markProcessed r.rxBuffer x).filter fun item =>
        decide (k ≤ r.modulusRx c item.sn)) sn = itemsWithSn (markProcessed r.rxBuffer x) sn :=
    hsorted.itemsWithSn_filter hsn fun item _ heq => decide_eq_true (heq ▸ hsnk)
  have hmove {a : Int} (ha : On c.snModulus a) (hak : k ≤ r.modulusRx c a) :
      distance c.snModulus ((r.rxNext + k) % c.snModulus) a = r.modulusRx c a - k :=
    distance_of_base_advance h.next_on ha hk0 hak
  have hkhighest := hk.trans hle
  have hnexton : On c.snModulus ((r.rxNext + k) % c.snModulus) :=
    .advance c.snModulus_pos r.rxNext k
  have hnextk : r.modulusRx c ((r.rxNext + k) % c.snModulus) = k :=
    distance_base_advance h.next_on hk0 (by omega)
  refine ⟨⟨hnexton, h.highest_on, hon, h.trigger_on, ?_, ?_, ?_, ?_, ?_, ?_, ?_⟩, ?_, ?_⟩
  · simp only [modulusRx_eq, hmove hon hk, hmove h.highest_on hkhighest]
    simp only [modulusRx_eq] at hle
    omega
  · simp only [modulusRx_eq, hmove h.highest_on hkhighest]
    simp only [modulusRx_eq] at hwindow
    omega
  · refine (hsorted.sublist List.filter_sublist).rebase h.next_on hk0 fun item hitem => ?_
    exact of_decide_eq_true (List.mem_filter.mp hitem).2
  · intro item hitem
    obtain ⟨hmem, hitemk⟩ := List.mem_filter.mp hitem
    have hbelow := h.below_markProcessed hx item hmem
    simp only [modulusRx_eq, hmove h.highest_on hkhighest,
      hmove (hsorted.on item hmem) (of_decide_eq_true hitemk)]
    simp only [modulusRx_eq] at hbelow
    omega
  · exact fun item hitem => h.stored_markProcessed hx item (List.mem_filter.mp hitem).1
  · intro item hitem hprocessed
    obtain ⟨hmem, hitemk⟩ := List.mem_filter.mp hitem
    obtain ⟨first, rest, hitems, hfirst, hso⟩ :=
      h.heads_markProcessed hx hall item hmem hprocessed
    exact ⟨first, rest, (hkept (hsorted.on item hmem) (of_decide_eq_true hitemk)).trans hitems,
      hfirst, hso⟩
  · exact (isDelivered_congr (hkept hon hk)).trans hstatus
  · exact (isDelivered_congr (hkept hnexton hnextk.ge)).trans hnext
  · intro hrunning
    have hpos := h.trigger_pos hrunning
    have htrigger := h.trigger_le hrunning
    by_cases hpassed : k ≤ r.modulusRx c r.rxNextStatusTrigger
    · refine .inl ?_
      simp only [modulusRx_eq, hmove h.highest_on hkhighest, hmove h.trigger_on hpassed]
      simp only [modulusRx_eq] at htrigger
      omega
    · refine .inr ?_
      have hdist := distance_of_base_passed (k := k) h.next_on h.trigger_on (not_le.mp hpassed)
        (by omega)
      simp only [modulusRx_eq] at hpos hdist ⊢
      rw [hdist]
      simp only [modulusRx_eq] at hkhighest hwindow
      omega

/-! ## t-Reassembly -/

theorem startReassembly_settled (h : r.Window c) (hnext : isDelivered r.rxBuffer r.rxNext = false)
    (hpos : 0 < r.modulusRx c r.rxNextHighest) : Settled c r.startReassembly :=
  ⟨⟨h.next_on, h.highest_on, h.status_on, h.highest_on, h.status_le, h.highest_le, h.sorted,
    h.below, h.stored, h.heads, h.status_undelivered⟩, hnext, fun _ => hpos, fun _ => le_rfl⟩

/-- Something is missing only below `RX_Next_Highest`. -/
theorem Window.highest_pos_of_misses (h : r.Window c) {n : Int} (hn : On c.snModulus n)
    (hle : r.modulusRx c n ≤ r.modulusRx c r.rxNextHighest)
    (hmisses : r.missesBelowHighest c n = true) : 0 < r.modulusRx c r.rxNextHighest := by
  have hm := c.snModulus_eq
  have hlarge := c.two_lt_windowSize
  have hwindow := h.highest_le
  have hpos := distance_nonneg h.next_on hn
  simp only [modulusRx_eq] at hle hwindow ⊢
  have hdist := distance_advance h.next_on hn (k := 1) zero_le_one (by omega)
  rw [missesBelowHighest, decide_eq_true_iff, snCompareRx_eq, hdist] at hmisses
  rcases hmisses with hgreater | ⟨heq, _⟩
  · omega
  · rw [heq, hdist]
    omega

/-- A timer that is not stopped waits for an SN of the window. -/
theorem Moved.settled_of_not_stops (h : r.Moved c) (hrunning : r.reassemblyTimer.isRunning = true)
    (hstops : r.stopsReassembly c = false) : Settled c r := by
  have hm := c.snModulus_eq
  have hlarge := c.two_lt_windowSize
  simp only [stopsReassembly, decide_eq_false_iff_not, not_or, not_and, isInReceiveWindow_iff,
    not_not] at hstops
  obtain ⟨hnext, _, hwindow⟩ := hstops
  have hne : r.modulusRx c r.rxNextStatusTrigger ≠ 0 :=
    mt (distance_eq_zero h.next_on h.trigger_on).mp hnext
  have hpos := distance_nonneg h.next_on h.trigger_on
  have hle : r.modulusRx c r.rxNextStatusTrigger ≤ c.windowSize := by
    by_contra hgreater
    rw [modulusRx_eq] at hgreater
    have hend := hwindow (by omega)
    rw [hend, distance_base_advance h.next_on (by omega) (by omega)] at hgreater
    exact hgreater le_rfl
  simp only [modulusRx_eq] at hne hle
  refine ⟨h.toWindow, h.next_undelivered, fun _ => ?_, fun _ => ?_⟩
  · rw [modulusRx_eq]
    omega
  · rcases h.trigger hrunning with hle' | hgreater
    · exact hle'
    · rw [modulusRx_eq] at hgreater
      omega

theorem Moved.stopReassembly (h : r.Moved c) :
    Settled c (r.stopReassembly c) := by
  rw [AmReceiver.stopReassembly]
  split_ifs with hstops
  · exact ⟨h.toWindow.with_others .., h.next_undelivered,
      fun hrunning => absurd hrunning Bool.false_ne_true,
      fun hrunning => absurd hrunning Bool.false_ne_true⟩
  · by_cases hrunning : r.reassemblyTimer.isRunning = true
    · exact h.settled_of_not_stops hrunning (by simpa [hrunning] using hstops)
    · exact ⟨h.toWindow, h.next_undelivered, fun h => absurd h hrunning,
        fun h => absurd h hrunning⟩

theorem Moved.updateReassembly (h : r.Moved c) : Settled c (r.updateReassembly c) := by
  have hstop := h.stopReassembly
  rw [AmReceiver.updateReassembly]
  split_ifs with hstart
  · refine startReassembly_settled hstop.toWindow hstop.next_undelivered ?_
    refine hstop.highest_pos_of_misses hstop.next_on ?_ hstart.2
    rw [modulusRx_eq, distance_self]
    exact distance_nonneg hstop.next_on hstop.highest_on
  · exact hstop

theorem Settled.timerCycle (h : r.Settled c) (currentTime : Int) :
    ∃ r', r.timerCycle c currentTime = .ok r' ∧ Settled c r' ∧
      r'.rxBuffer = r.rxBuffer ∧ r'.rxCurrentSize = r.rxCurrentSize ∧ r'.rxNext = r.rxNext := by
  rw [AmReceiver.timerCycle]
  split_ifs with hexpires
  · have hrunning : r.reassemblyTimer.isRunning = true := by
      simp only [RlcTimer.expires, decide_eq_true_iff] at hexpires
      exact hexpires.1
    obtain ⟨status, hrun, hon, _, hle, hnot⟩ := h.skipDelivered_eq h.trigger_on
      (h.trigger_le hrunning) h.undelivered_highest
    rw [actionsOnReassemblyTimerExpired, hrun, Fallible.ok_bind]
    have hwindow : Window c { r with
        tCurrent := currentTime
        rxHighestStatus := status
        reassemblyTimer := r.reassemblyTimer.stop } :=
      ⟨h.next_on, h.highest_on, hon, h.trigger_on, hle, h.highest_le, h.sorted, h.below,
        h.stored, h.heads, hnot⟩
    refine ⟨_, rfl, ?_, ?_, ?_, ?_⟩
    · split_ifs with hmisses
      · exact startReassembly_settled hwindow h.next_undelivered
          (hwindow.highest_pos_of_misses hon hle hmisses)
      · exact ⟨hwindow, h.next_undelivered, fun hrunning => absurd hrunning Bool.false_ne_true,
          fun hrunning => absurd hrunning Bool.false_ne_true⟩
    all_goals split_ifs <;> rfl
  · exact ⟨_, rfl, ⟨h.toWindow.with_others .., h.next_undelivered, h.trigger_pos, h.trigger_le⟩,
      rfl, rfl, rfl⟩

/-! ## One reception -/

/-- The PDU is placed and completes its SDU. -/
def completes (c : AmConfig) (r : AmReceiver) (pdu : AmdPdu) : Bool :=
  ¬ r.discards c pdu ∧ isAllSegmentsReceived (r.place c pdu).rxBuffer pdu.sn

theorem updateReassembly_buffer (c : AmConfig) (r : AmReceiver) :
    (r.updateReassembly c).rxBuffer = r.rxBuffer ∧
      (r.updateReassembly c).rxCurrentSize = r.rxCurrentSize ∧
      (r.updateReassembly c).rxNext = r.rxNext := by
  rw [updateReassembly]
  have hstop : (r.stopReassembly c).rxBuffer = r.rxBuffer ∧
      (r.stopReassembly c).rxCurrentSize = r.rxCurrentSize ∧
      (r.stopReassembly c).rxNext = r.rxNext := by
    rw [stopReassembly]
    split_ifs <;> exact ⟨rfl, rfl, rfl⟩
  split_ifs <;> exact hstop

theorem updateNextHighest_buffer (c : AmConfig) (r : AmReceiver) (x : Int) :
    (r.updateNextHighest c x).rxBuffer = r.rxBuffer ∧
      (r.updateNextHighest c x).rxCurrentSize = r.rxCurrentSize ∧
      (r.updateNextHighest c x).rxNext = r.rxNext := by
  rw [updateNextHighest]
  split_ifs <;> exact ⟨rfl, rfl, rfl⟩

theorem Settled.triggerStatus (h : r.Settled c) : Settled c r.triggerStatus :=
  ⟨h.toWindow.with_others .., h.next_undelivered, h.trigger_pos, h.trigger_le⟩

theorem Settled.ite_triggerStatus (h : r.Settled c) (p : Bool) :
    Settled c (if p then r.triggerStatus else r) := by
  split
  · exact h.triggerStatus
  · exact h

theorem ite_triggerStatus_buffer (r : AmReceiver) (p : Bool) :
    (if p then r.triggerStatus else r).rxBuffer = r.rxBuffer ∧
      (if p then r.triggerStatus else r).rxCurrentSize = r.rxCurrentSize ∧
      (if p then r.triggerStatus else r).rxNext = r.rxNext := by
  split <;> exact ⟨rfl, rfl, rfl⟩

/-- What the reception of a PDU does. In the last case the SDU does not fit into the
reassembly buffer. -/
inductive Reception (c : AmConfig) (r : AmReceiver) (pdu : AmdPdu) :
    Except Fault (AmReceiver × Option OctetString) → Prop
  | discarded {r' : AmReceiver} : r.discards c pdu = true → r'.rxBuffer = r.rxBuffer →
      r'.rxCurrentSize = r.rxCurrentSize → r'.rxNext = r.rxNext → Settled c r' →
      Reception c r pdu (.ok (r', none))
  | stored {r' : AmReceiver} : r.discards c pdu = false → r.completes c pdu = false →
      r'.rxBuffer = (r.place c pdu).rxBuffer →
      r'.rxCurrentSize = r.rxCurrentSize + pdu.size → r'.rxNext = r.rxNext → Settled c r' →
      Reception c r pdu (.ok (r', none))
  | delivered {r' : AmReceiver} {k : Nat} : r.discards c pdu = false →
      r.completes c pdu = true →
      (reassembled (r.place c pdu).rxBuffer pdu.sn).length ≤ reassembleBufferLen →
      r'.rxBuffer = (markProcessed (r.place c pdu).rxBuffer pdu.sn).filter
        (fun item => decide (k ≤ r.modulusRx c item.sn)) →
      r'.rxCurrentSize = r.rxCurrentSize + pdu.size -
        (reassembled (r.place c pdu).rxBuffer pdu.sn).length →
      r'.rxNext = (r.rxNext + k) % c.snModulus →
      k ≤ c.windowSize →
      isDelivered (markProcessed (r.place c pdu).rxBuffer pdu.sn)
        ((r.rxNext + k) % c.snModulus) = false →
      (∀ j < k, isDelivered (markProcessed (r.place c pdu).rxBuffer pdu.sn)
        ((r.rxNext + (j : Nat)) % c.snModulus) = true) →
      (pdu.sn ≠ r.rxNext → k = 0) → Settled c r' →
      Reception c r pdu (.ok (r', some (reassembled (r.place c pdu).rxBuffer pdu.sn)))
  | overflow : r.completes c pdu = true →
      reassembleBufferLen < (reassembled (r.place c pdu).rxBuffer pdu.sn).length →
      Reception c r pdu (.error .outOfBounds)

theorem Reception.settled {r' : AmReceiver} {sdu : Option OctetString}
    (h : Reception c r pdu (.ok (r', sdu))) : Settled c r' := by
  cases h <;> assumption

/-- A complete SDU is not empty. -/
theorem Window.reassembled_pos (h : r.Window c) (hall : isAllSegmentsReceived r.rxBuffer x = true) :
    0 < (reassembled r.rxBuffer x).length := by
  obtain ⟨_, first, rest, hitems, _⟩ := h.of_isAllSegmentsReceived hall
  obtain ⟨hmem, _⟩ := mem_itemsWithSn (hitems ▸ List.mem_cons_self (a := first) (l := rest))
  have hsize := (h.stored first hmem).size_pos
  rw [reassembled, hitems, List.flatMap_cons, List.length_append]
  exact Nat.add_pos_left hsize _

theorem Settled.delivery (h : r.Settled c) (hx : On c.snModulus x)
    (hall : isAllSegmentsReceived r.rxBuffer x = true)
    (hlength : (reassembled r.rxBuffer x).length ≤ reassembleBufferLen) :
    ∃ (r' : AmReceiver) (k : Nat), r.deliver c x = .ok (r', reassembled r.rxBuffer x) ∧
      r'.rxBuffer = (markProcessed r.rxBuffer x).filter
        (fun item => decide (k ≤ r.modulusRx c item.sn)) ∧
      r'.rxCurrentSize = r.rxCurrentSize - (reassembled r.rxBuffer x).length ∧
      r'.rxNext = (r.rxNext + k) % c.snModulus ∧ k ≤ c.windowSize ∧
      isDelivered (markProcessed r.rxBuffer x) ((r.rxNext + k) % c.snModulus) = false ∧
      (∀ j < k, isDelivered (markProcessed r.rxBuffer x) ((r.rxNext + (j : Nat)) % c.snModulus) =
        true) ∧
      (x ≠ r.rxNext → k = 0) ∧ Settled c (r'.updateReassembly c) := by
  obtain ⟨k, status, hrun, hon, hk, hle, hnot, hend, hbefore, hstay⟩ :=
    h.deliver_eq hx hall hlength
  refine ⟨_, k, hrun, rfl, rfl, rfl, (hk.trans hle).trans h.highest_le, hend, hbefore, hstay, ?_⟩
  exact (h.moved_deliver hx hall hon hk hle hnot hend).updateReassembly

theorem Settled.reception (h : r.Settled c) (hdec : pdu.Decoded c) (stale : Bool) :
    Reception c r pdu (r.receiveAmdPdu c stale pdu) := by
  rw [receiveAmdPdu]
  by_cases hdiscards : r.discards c pdu = true
  · rw [if_pos hdiscards]
    obtain ⟨hbuffer, hsize, hnext⟩ := ite_triggerStatus_buffer r pdu.p
    exact .discarded hdiscards hbuffer hsize hnext (h.ite_triggerStatus pdu.p)
  rw [if_neg hdiscards, actionsOnReception]
  have haccepts : r.discards c pdu = false := Bool.eq_false_iff.mpr hdiscards
  have hplaced := h.place hdec haccepts
  obtain ⟨hbuffer, hsize, hnext⟩ := updateNextHighest_buffer c (r.place c pdu) pdu.sn
  have hcompletes : r.completes c pdu = isAllSegmentsReceived (r.place c pdu).rxBuffer pdu.sn := by
    simp [completes, haccepts]
  generalize (r.place c pdu).updateNextHighest c pdu.sn = placed at hplaced hbuffer hsize hnext ⊢
  have hsize : placed.rxCurrentSize = r.rxCurrentSize + pdu.size := hsize
  have hnext : placed.rxNext = r.rxNext := hnext
  rw [← hbuffer] at hcompletes
  by_cases hall : isAllSegmentsReceived placed.rxBuffer pdu.sn = true
  · rw [if_pos hall]
    by_cases hlength : (reassembled placed.rxBuffer pdu.sn).length ≤ reassembleBufferLen
    · obtain ⟨r', k, hrun, hbuffer', hsize', hnext', hk, hend, hbefore, hstay, hsettled⟩ :=
        hplaced.delivery hdec.on hall hlength
      obtain ⟨hsame, hsamesize, hsamenext⟩ := updateReassembly_buffer c r'
      have hmodulus : placed.modulusRx c = r.modulusRx c := by
        funext a
        rw [modulusRx_eq, modulusRx_eq, hnext]
      simp only [hrun, Fallible.ok_bind, if_pos (hplaced.reassembled_pos hall), pure, Except.pure]
      rw [hbuffer] at hlength hbuffer' hsize' hend hbefore ⊢
      rw [hnext] at hnext' hend hbefore hstay
      rw [hmodulus] at hbuffer'
      obtain ⟨hflag, hflagsize, hflagnext⟩ := ite_triggerStatus_buffer (r'.updateReassembly c)
        (if itemsWithSn (r'.updateReassembly c).rxBuffer pdu.sn = [] then stale else pdu.p)
      rw [hsize] at hsize'
      exact .delivered haccepts (hcompletes.trans hall) hlength
        (hflag.trans (hsame.trans hbuffer')) (hflagsize.trans (hsamesize.trans hsize'))
        (hflagnext.trans (hsamenext.trans hnext')) hk hend hbefore hstay
        (hsettled.ite_triggerStatus _)
    · rw [deliver, reassemble, if_pos (not_le.mp hlength)]
      refine .overflow (hcompletes.trans hall) ?_
      rw [← hbuffer]
      exact not_le.mp hlength
  · rw [if_neg hall, Fallible.ok_bind]
    obtain ⟨hsame, hsamesize, hsamenext⟩ := updateReassembly_buffer c placed
    obtain ⟨hflag, hflagsize, hflagnext⟩ := ite_triggerStatus_buffer (placed.updateReassembly c)
      (if itemsWithSn (placed.updateReassembly c).rxBuffer pdu.sn = [] then stale else pdu.p)
    exact .stored haccepts (hcompletes.trans (Bool.eq_false_iff.mpr hall))
      (hflag.trans (hsame.trans hbuffer)) (hflagsize.trans (hsamesize.trans hsize))
      (hflagnext.trans (hsamenext.trans hnext))
      (hplaced.moved.updateReassembly.ite_triggerStatus _)

/-! ## Runs -/

/-- What happens to the receiver. The poll bit of a PDU that is deleted is read as `stale`. -/
inductive Event
  | amd (pdu : AmdPdu) (stale : Bool)
  | timerCycle (currentTime : Int)
  | status

inductive Step (c : AmConfig) : Except Fault AmReceiver → Event → Except Fault AmReceiver → Prop
  | amd {r : AmReceiver} {pdu : AmdPdu} {stale : Bool} : pdu.Decoded c →
      Step c (.ok r) (.amd pdu stale) ((r.receiveAmdPdu c stale pdu).map Prod.fst)
  | timerCycle {r : AmReceiver} {currentTime : Int} :
      Step c (.ok r) (.timerCycle currentTime) (r.timerCycle c currentTime)
  | status {r : AmReceiver} : Step c (.ok r) .status (.ok r.statusConstructed)

theorem Step.of_receive {stale : Bool} (hdec : pdu.Decoded c)
    (h : (r.receiveAmdPdu c stale pdu).map Prod.fst = s) : Step c (.ok r) (.amd pdu stale) s :=
  h ▸ .amd hdec

def system (c : AmConfig) : System (Except Fault AmReceiver) Event where
  init s := s = .ok (cleared c)
  step := Step c

/-- The variables are in order within one window, the buffer lies in the window and is
sorted, and its size is accounted for. -/
structure Ordered (c : AmConfig) (r : AmReceiver) : Prop where
  on : On c.snModulus r.rxNext ∧ On c.snModulus r.rxHighestStatus ∧ On c.snModulus r.rxNextHighest
  next_le : r.modulusRx c r.rxNext ≤ r.modulusRx c r.rxHighestStatus
  status_le : r.modulusRx c r.rxHighestStatus ≤ r.modulusRx c r.rxNextHighest
  highest_le : r.modulusRx c r.rxNextHighest ≤ c.windowSize
  inWindow : ∀ item ∈ r.rxBuffer, r.isInReceiveWindow c item.sn = true
  sorted : r.rxBuffer.Pairwise fun a b =>
    r.snCompareRx c a.sn b.sn < 0 ∨ a.sn = b.sn ∧ a.so ≤ b.so
  size_eq : r.rxCurrentSize = unprocessedSize r.rxBuffer
  size_le : 0 ≤ r.rxCurrentSize ∧ r.rxCurrentSize ≤ c.rxMaxSize

/-- The operation has ended, with everything in order. -/
def InOrder (c : AmConfig) (s : Except Fault AmReceiver) : Prop := ∃ r, s = .ok r ∧ Ordered c r

/-- The SDU that the PDU completes fits into the reassembly buffer. When the window moves
past SNs, no PDU that was not processed is stored under one of them. -/
def Accounts (c : AmConfig) : Except Fault AmReceiver → Event → Prop
  | .ok r, .amd pdu _ => r.completes c pdu = true →
    (reassembled (r.place c pdu).rxBuffer pdu.sn).length ≤ reassembleBufferLen ∧
      (pdu.sn = r.rxNext → ∀ item ∈ r.rxBuffer, item.isProcessed = false → item.sn ≠ pdu.sn →
        ∃ sn, On c.snModulus sn ∧ sn ≠ r.rxNext ∧ r.modulusRx c sn ≤ r.modulusRx c item.sn ∧
          isDelivered r.rxBuffer sn = false)
  | _, _ => True

/-- A receiver between two operations whose buffer size is accounted for. -/
structure Accounted (c : AmConfig) (r : AmReceiver) : Prop extends Settled c r where
  size_eq : r.rxCurrentSize = unprocessedSize r.rxBuffer
  size_le : r.rxCurrentSize ≤ c.rxMaxSize

theorem Accounted.ordered (h : Accounted c r) : Ordered c r := by
  have hm := c.snModulus_eq
  refine ⟨⟨h.next_on, h.status_on, h.highest_on⟩, ?_, h.status_le, h.highest_le, ?_, ?_, h.size_eq,
    by rw [h.size_eq]; exact Int.natCast_nonneg _, h.size_le⟩
  · rw [modulusRx_eq, distance_self]
    exact distance_nonneg h.next_on h.status_on
  · exact fun item hitem =>
      (isInReceiveWindow_iff _).mpr ((h.below item hitem).trans_le h.highest_le)
  · exact h.sorted.sorted.imp fun {a b} hab => by
      rw [snCompareRx_eq]
      unfold Precedes at hab
      omega

/-- The PDU that completes its SDU adds it to those that are delivered. -/
theorem Settled.isDelivered_marked (h : r.Settled c) (hdec : pdu.Decoded c)
    (haccepts : r.discards c pdu = false)
    (hall : isAllSegmentsReceived (r.place c pdu).rxBuffer pdu.sn = true)
    (hsn : On c.snModulus sn) :
    isDelivered (markProcessed (r.place c pdu).rxBuffer pdu.sn) sn =
      if sn = pdu.sn then true else isDelivered r.rxBuffer sn := by
  have hbuffer := (updateNextHighest_buffer c (r.place c pdu) pdu.sn).1
  have hafter := (h.place hdec haccepts).isDelivered_markProcessed hdec.on hsn
    (by rw [hbuffer]; exact hall)
  rwa [hbuffer, h.isDelivered_place hdec hsn] at hafter

/-- The deleted PDUs were processed exactly if those stored before the reception were, for
the SNs that are passed. -/
theorem Settled.passes_iff (h : r.Settled c) (hdec : pdu.Decoded c)
    (hcompletes : r.completes c pdu = true) (hk : k ≤ c.windowSize)
    (hend : isDelivered (markProcessed (r.place c pdu).rxBuffer pdu.sn)
      ((r.rxNext + k) % c.snModulus) = false)
    (hbefore : ∀ j < k, isDelivered (markProcessed (r.place c pdu).rxBuffer pdu.sn)
      ((r.rxNext + (j : Nat)) % c.snModulus) = true) (hstay : pdu.sn ≠ r.rxNext → k = 0) :
    (∀ item ∈ markProcessed (r.place c pdu).rxBuffer pdu.sn, r.modulusRx c item.sn < k →
      item.isProcessed = true) ↔
    (pdu.sn = r.rxNext → ∀ item ∈ r.rxBuffer, item.isProcessed = false → item.sn ≠ pdu.sn →
        ∃ sn, On c.snModulus sn ∧ sn ≠ r.rxNext ∧ r.modulusRx c sn ≤ r.modulusRx c item.sn ∧
          isDelivered r.rxBuffer sn = false) := by
  have hm := c.snModulus_eq
  have hlarge := c.two_lt_windowSize
  simp only [completes, decide_eq_true_iff, Bool.not_eq_true] at hcompletes
  obtain ⟨haccepts, hall⟩ := hcompletes
  have hmarked {sn : Int} (hsn : On c.snModulus sn) :=
    h.isDelivered_marked hdec haccepts hall hsn
  have hsorted : SortedFrom c.snModulus r.rxNext (r.place c pdu).rxBuffer :=
    h.sorted.insertToRxBuffer hdec.on snCompareRx_eq
  have hk0 := Int.natCast_nonneg k
  have hendon : On c.snModulus ((r.rxNext + k) % c.snModulus) :=
    .advance c.snModulus_pos r.rxNext k
  rw [hsorted.markProcessed_eq hdec.on]
  constructor
  · intro hprocessed hnext item hitem hfresh hne
    have hstays : item ∈ (r.place c pdu).rxBuffer.map fun item =>
        if item.sn = pdu.sn then item.processed else item :=
      List.mem_map.mpr ⟨item, Sorted.mem_insert.mpr (.inr hitem), if_neg hne⟩
    have hle : k ≤ r.modulusRx c item.sn := by
      by_contra hlt
      exact absurd (hfresh.symm.trans (hprocessed item hstays (not_le.mp hlt)))
        Bool.false_ne_true
    have hends : (r.rxNext + k) % c.snModulus ≠ pdu.sn := fun heq => by
      rw [hmarked hendon, if_pos heq] at hend
      exact absurd hend Bool.true_eq_false.mp
    refine ⟨_, hendon, hnext ▸ hends, ?_, ?_⟩
    · rw [modulusRx_eq, distance_base_advance h.next_on hk0 (by omega)]
      exact hle
    · rwa [hmarked hendon, if_neg hends] at hend
  · intro hpasses item hitem hlt
    obtain ⟨before, hbefore', rfl⟩ := List.mem_map.mp hitem
    by_cases hsn : before.sn = pdu.sn
    · rw [if_pos hsn]
      rfl
    rw [if_neg hsn] at hlt ⊢
    by_contra hfresh
    have hpos := distance_nonneg h.next_on (hsorted.on before hbefore')
    have hnext : pdu.sn = r.rxNext := by
      by_contra hne
      rw [hstay hne, modulusRx_eq] at hlt
      omega
    have hmem : before ∈ r.rxBuffer := by
      rcases Sorted.mem_insert.mp hbefore' with rfl | hmem
      · exact absurd rfl hsn
      · exact hmem
    obtain ⟨sn, hon, hne, hle, hnot⟩ :=
      hpasses hnext before hmem (Bool.eq_false_iff.mpr hfresh) hsn
    obtain ⟨j, hj⟩ := Int.eq_ofNat_of_zero_le (distance_nonneg h.next_on hon)
    have hdelivered := hbefore j (by
      simp only [modulusRx_eq] at hle hlt
      omega)
    rw [← hj, add_distance h.next_on hon, hmarked hon, if_neg (hnext ▸ hne), hnot] at hdelivered
    exact absurd hdelivered Bool.false_ne_true

/-- The size stays accounted for exactly if the PDUs that are deleted were processed. -/
theorem Accounted.reception_iff (h : Accounted c r) (hdec : pdu.Decoded c) (stale : Bool) :
    (∃ r' sdu, r.receiveAmdPdu c stale pdu = .ok (r', sdu) ∧ Accounted c r') ↔
      Accounts c (.ok r) (.amd pdu stale) := by
  have hreception := h.toSettled.reception hdec stale
  generalize r.receiveAmdPdu c stale pdu = result at hreception
  have hsorted : SortedFrom c.snModulus r.rxNext (r.place c pdu).rxBuffer :=
    h.sorted.insertToRxBuffer hdec.on snCompareRx_eq
  have hplaced : unprocessedSize (r.place c pdu).rxBuffer = unprocessedSize r.rxBuffer + pdu.size :=
    unprocessedSize_insertToRxBuffer _ _ hdec.fresh
  have hsizeeq := h.size_eq
  have hsizele := h.size_le
  cases hreception with
  | @discarded r' hdiscards hbuffer hsize hnext hsettled =>
    have hcompletes : r.completes c pdu = false := by simp [completes, hdiscards]
    refine iff_of_true ⟨r', none, rfl, hsettled, ?_, ?_⟩ fun hc => ?_
    · rw [hsize, hbuffer, hsizeeq]
    · rw [hsize]
      exact hsizele
    · exact absurd (hcompletes.symm.trans hc) Bool.false_ne_true
  | @stored r' haccepts hcompletes hbuffer hsize hnext hsettled =>
    have hroom := (accepted_of_not_discards haccepts).2.2.1
    refine iff_of_true ⟨r', none, rfl, hsettled, ?_, ?_⟩ fun hc => ?_
    · rw [hsize, hbuffer, hplaced, hsizeeq, Nat.cast_add]
    · rw [hsize]
      exact hroom
    · exact absurd (hcompletes.symm.trans hc) Bool.false_ne_true
  | @delivered r' k haccepts hcompletes hlength hbuffer hsize hnext hk hend hbefore hstay
      hsettled =>
    have hroom := (accepted_of_not_discards haccepts).2.2.1
    have hpasses := h.passes_iff hdec hcompletes hk hend hbefore hstay
    have hall : isAllSegmentsReceived (r.place c pdu).rxBuffer pdu.sn = true := by
      simp only [completes, decide_eq_true_iff] at hcompletes
      exact hcompletes.2
    have hwindow := h.toSettled.place hdec haccepts
    have hplacedbuffer := (updateNextHighest_buffer c (r.place c pdu) pdu.sn).1
    obtain ⟨hfresh, _⟩ := hwindow.of_isAllSegmentsReceived (by rw [hplacedbuffer]; exact hall)
    have hstored := hwindow.stored_markProcessed hdec.on
    rw [hplacedbuffer] at hfresh hstored
    have hmark := hsorted.unprocessedSize_markProcessed hdec.on hfresh
    have hsplit := unprocessedSize_filter (markProcessed (r.place c pdu).rxBuffer pdu.sn)
      fun item => decide (k ≤ r.modulusRx c item.sn)
    have hdropped : unprocessedSize ((markProcessed (r.place c pdu).rxBuffer pdu.sn).filter
        fun item => !decide (k ≤ r.modulusRx c item.sn)) = 0 ↔
        ∀ item ∈ markProcessed (r.place c pdu).rxBuffer pdu.sn, r.modulusRx c item.sn < k →
          item.isProcessed = true := by
      rw [unprocessedSize_eq_zero fun item hitem => (hstored item (List.mem_filter.mp hitem).1).1]
      simp only [List.mem_filter, Bool.not_eq_true', decide_eq_false_iff_not, not_le, and_imp]
    rw [← hbuffer] at hsplit
    constructor
    · rintro ⟨r'', sdu, hrun, haccounted⟩ _
      cases hrun
      have hsize' := haccounted.size_eq
      exact ⟨hlength, hpasses.mp (hdropped.mp (by omega))⟩
    · intro hfits
      have hzero := hdropped.mpr (hpasses.mpr (hfits hcompletes).2)
      exact ⟨r', _, rfl, hsettled, by omega, by omega⟩
  | overflow hcompletes hlength =>
    refine iff_of_false ?_ fun hfits => ?_
    · rintro ⟨r', sdu, hrun, _⟩
      cases hrun
    · exact absurd (hfits hcompletes).1 (not_le.mpr hlength)

/-- What holds of a state between the operations of a run. -/
def Kept (c : AmConfig) (s : Except Fault AmReceiver) : Prop := ∃ r, s = .ok r ∧ Accounted c r

theorem accounted_cleared (c : AmConfig) : Accounted c (cleared c) :=
  ⟨settled_cleared c, rfl, Int.natCast_nonneg _⟩

/-- A step keeps the size accounted for exactly if it meets the condition. -/
theorem kept_step_iff (h : Kept c s) (hstep : Step c s e t) : Kept c t ↔ Accounts c s e := by
  obtain ⟨r, rfl, haccounted⟩ := h
  cases hstep with
  | @amd r pdu stale hdec =>
    rw [← haccounted.reception_iff hdec stale, Kept]
    constructor
    · rintro ⟨r', hrun, hafter⟩
      rcases hresult : r.receiveAmdPdu c stale pdu with fault | ⟨r'', sdu⟩
      · rw [hresult] at hrun
        cases hrun
      · rw [hresult] at hrun
        cases hrun
        exact ⟨r'', sdu, rfl, hafter⟩
    · rintro ⟨r', sdu, hrun, hafter⟩
      exact ⟨r', by rw [hrun]; rfl, hafter⟩
  | @timerCycle r currentTime =>
    obtain ⟨r', hrun, hsettled, hbuffer, hsize, _⟩ := haccounted.toSettled.timerCycle currentTime
    refine iff_of_true ⟨r', hrun, hsettled, ?_, ?_⟩ trivial
    · rw [hsize, hbuffer, haccounted.size_eq]
    · rw [hsize]
      exact haccounted.size_le
  | @status r =>
    refine iff_of_true ⟨_, rfl, ⟨haccounted.toWindow.with_others .., haccounted.next_undelivered,
      haccounted.trigger_pos, haccounted.trigger_le⟩, haccounted.size_eq, haccounted.size_le⟩
      trivial

/-- A state in order comes of an accounted state by a step that accounts for the size. -/
theorem accounts_of_inOrder (h : Kept c s) (hstep : Step c s e t) (hgood : InOrder c t) :
    Accounts c s e := by
  obtain ⟨r, rfl, haccounted⟩ := h
  cases hstep with
  | @amd r pdu stale hdec =>
    obtain ⟨r', hafter, hordered⟩ := hgood
    rcases hresult : r.receiveAmdPdu c stale pdu with fault | ⟨r'', sdu⟩
    · rw [hresult] at hafter
      cases hafter
    · rw [hresult] at hafter
      cases hafter
      have hsettled := (hresult ▸ haccounted.toSettled.reception hdec stale).settled
      exact (haccounted.reception_iff hdec stale).mp
        ⟨_, sdu, hresult, hsettled, hordered.size_eq, hordered.size_le.2⟩
  | timerCycle => trivial
  | status => trivial

/-- Over a run everything stays in order exactly if every reception accounts for the size. -/
theorem ordered_iff {events : List Event} {s : Except Fault AmReceiver} :
    System.RunWithin (system c) (InOrder c) events s ↔
      System.Run (system c) (Accounts c) events s := by
  have hinit : ∀ s, (system c).init s → Kept c s := by
    rintro s rfl
    exact ⟨_, rfl, accounted_cleared c⟩
  have hgood : ∀ s, Kept c s → InOrder c s := by
    rintro s ⟨r, rfl, haccounted⟩
    exact ⟨r, rfl, haccounted.ordered⟩
  exact System.Run.within_iff hinit hgood
    (fun s e t hkept haccounts hstep => (kept_step_iff hkept hstep).mpr haccounts)
    fun s e t hkept hstep hgood => accounts_of_inOrder hkept hstep hgood

private def sduOne : AmdPdu := { si := .full, so := 0, sn := 1, data := [1] }

private def behindOne : AmdPdu := { si := .last, so := 1, sn := 1, data := [2] }

private def sduZero : AmdPdu := { si := .full, so := 0, sn := 0, data := [3] }

private def oneDelivered : AmReceiver :=
  { cleared .test with
    rxNextHighest := 2, rxNextStatusTrigger := 2, rxBuffer := [sduOne.processed] }

private def behindStored : AmReceiver :=
  { oneDelivered with rxCurrentSize := 1, rxBuffer := [sduOne.processed, behindOne] }

private def bothDelivered : AmReceiver :=
  { behindStored with rxBuffer := [], rxNext := 2, rxHighestStatus := 2 }

/-- An octet behind the end of the delivered SDU 1 is stored, and deleted with it when SDU 0
arrives. Its size stays counted. -/
theorem delivered_sn_overcounts :
    ¬ ∀ (c : AmConfig) (events : List Event) (s : Except Fault AmReceiver),
      System.Run (system c) System.unrestricted events s → InOrder c s := by
  intro h
  have hone : sduOne.Decoded .test := ⟨by decide, by decide, by decide, rfl⟩
  have hbehind : behindOne.Decoded .test := ⟨by decide, by decide, by decide, rfl⟩
  have hzero : sduZero.Decoded .test := ⟨by decide, by decide, by decide, rfl⟩
  have hfirst : Step .test (.ok (cleared .test)) (.amd sduOne false) (.ok oneDelivered) :=
    .of_receive hone (by decide)
  have hsecond : Step .test (.ok oneDelivered) (.amd behindOne false) (.ok behindStored) :=
    .of_receive hbehind (by decide)
  have hthird : Step .test (.ok behindStored) (.amd sduZero false) (.ok bothDelivered) :=
    .of_receive hzero (by decide)
  have hrun : System.Run (system .test) System.unrestricted
      [.amd sduOne false, .amd behindOne false, .amd sduZero false] (.ok bothDelivered) :=
    .snoc (.snoc (.snoc (.nil rfl) trivial hfirst) trivial hsecond) trivial hthird
  obtain ⟨r, hr, hordered⟩ := h .test _ _ hrun
  cases hr
  exact absurd hordered.size_eq (by decide)

end AmReceiver

end Quicup.Ueransim.Rlc
