import Quicup.Ueransim.Rlc.Missing

/-!
# Truthful STATUS PDUs

A STATUS PDU is truthful when it reports exactly the octets that are missing below its
ACK_SN. The search finds the missing ranges one by one as long as the SNs it compares have
not wrapped. A range that is cut or does not fit is left out of the PDU.
-/

namespace Quicup.Ueransim.Rlc

open Circular

namespace AmReceiver

variable {c : AmConfig} {r : AmReceiver} {maxSize : Nat} {s o t u s' o' : Int} {g : MissingBlock}
  {item : AmdPdu}

/-! ## Missing ranges -/

/-- The octet lies in the range. An end of `0xFFFF` is the end of the SDU. -/
def InRange (g : MissingBlock) (sn : Int) (b : Nat) : Prop :=
  g.snStart ≤ sn ∧ sn ≤ g.snEnd ∧ (sn = g.snStart → g.soStart ≤ b) ∧
    (sn = g.snEnd → g.soEnd = 0xFFFF ∨ b ≤ g.soEnd)

/-- A range of missing octets below `RX_Highest_Status` that no missing octet adjoins. -/
structure IsMissingRange (r : AmReceiver) (g : MissingBlock) : Prop where
  from_next : r.rxNext ≤ g.snStart
  start_le : g.snStart ≤ g.snEnd ∧ (g.snStart = g.snEnd → g.soStart ≤ g.soEnd)
  below_status : g.snEnd < r.rxHighestStatus
  so_nonneg : 0 ≤ g.soStart ∧ 0 ≤ g.soEnd
  so_le : g.soStart < 0xFFFF ∧ g.soEnd ≤ 0xFFFF
  missing : ∀ sn b, InRange g sn b → r.Missing sn b
  before : (g.soStart = 0 ∧ (g.snStart = r.rxNext ∨
      ∃ item ∈ r.rxBuffer, item.sn = g.snStart - 1 ∧ item.si.hasLast = true)) ∨
    ∃ item ∈ r.rxBuffer, item.sn = g.snStart ∧ item.stop = g.soStart
  after : (g.soEnd = 0xFFFF ∧ (g.snEnd + 1 = r.rxHighestStatus ∨
      ∃ item ∈ r.rxBuffer, item.sn = g.snEnd + 1 ∧ item.so = 0)) ∨
    ∃ item ∈ r.rxBuffer, item.sn = g.snEnd ∧ item.so = g.soEnd + 1

/-- The range ends before the other starts. -/
def RangeBefore (g g' : MissingBlock) : Prop :=
  g.snEnd < g'.snStart ∨ g.snEnd = g'.snStart ∧ g.soEnd < g'.soStart

/-- The SNs that are reported on do not wrap, the buffered segments are such of SDUs with a
16-bit offset, no missing range has more than 255 SNs, and the NACK blocks of all of them fit
into the grant and the buffer that they are tried in. -/
structure Reportable (c : AmConfig) (r : AmReceiver) (maxSize : Nat) : Prop where
  noWrap : r.rxNext ≤ r.rxHighestStatus
  segments : ∀ a ∈ r.rxBuffer, ∀ b ∈ r.rxBuffer, a.sn = b.sn → a.si.hasLast = true →
    b.stop ≤ a.stop ∧ (b.stop = a.stop → b.si.hasLast = true)
  octets : ∀ a ∈ r.rxBuffer, a.si.hasLast = false → a.stop < 0xFFFF
  ranges : ∀ g, IsMissingRange r g → g.snEnd - g.snStart < 255
  fits : ∀ gaps : List MissingBlock, gaps.Pairwise RangeBefore →
    (∀ g ∈ gaps, IsMissingRange r g) →
    StatusPdu.encodedSize (isShortSn c) (gaps.map (nackBlockOf c)) ≤
      min maxSize StatusPdu.calculatedSizeBufferLen

/-- What is acknowledged and not reported as missing has been delivered, and only missing
octets are reported. -/
structure Truthful (c : AmConfig) (r : AmReceiver) (pdu : StatusPdu) : Prop where
  ack_on : On c.snModulus pdu.ackSn
  acked : ∀ sn b, On c.snModulus sn → r.modulusRx c sn < r.modulusRx c pdu.ackSn →
    r.Missing sn b → pdu.Nacks c.snModulus sn b
  nacked : ∀ sn b, pdu.Nacks c.snModulus sn b → r.Missing sn b
  undelivered : ∀ sn, On c.snModulus sn → r.modulusRx c sn < r.modulusRx c pdu.ackSn →
    isDelivered r.rxBuffer sn = false → ∃ b, r.Missing sn b ∧ pdu.Nacks c.snModulus sn b

/-! ## Positions of the search -/

/-- A position that the search reaches: the start of an SN, behind the end of the SN before
or in front of a segment, or the end of a segment. -/
def Reached (r : AmReceiver) (s o : Int) : Prop :=
  (o = 0 ∧ (s = r.rxNext ∨ (∃ item ∈ r.rxBuffer, item.sn = s - 1 ∧ item.si.hasLast = true) ∨
    ∃ item ∈ r.rxBuffer, item.sn = s ∧ item.so = 0)) ∨
  ∃ item ∈ r.rxBuffer, item.sn = s ∧ item.stop = o ∧ item.si.hasLast = false

theorem startSo_eq (h : Stored item) : item.startSo = item.so := by
  rw [AmdPdu.startSo]
  split_ifs with hso
  · rfl
  · have hzero : item.so = 0 := not_not.mp (mt h.requiresSo_iff.mpr hso)
    rw [hzero, Nat.cast_zero]

theorem Reached.nonneg (h : Reached r s o) : 0 ≤ o := by
  rcases h with ⟨rfl, _⟩ | ⟨item, _, _, rfl, _⟩
  · exact le_rfl
  · exact Int.natCast_nonneg _

/-- No SDU ends at or before a position that is reached in it. -/
theorem Reached.open (h : r.Sound c) (hr : Reportable c r maxSize) (hreached : Reached r s o) :
    ∀ item ∈ r.rxBuffer, item.sn = s → item.si.hasLast = true → o < item.stop := by
  intro item hitem hsn hlast
  rcases hreached with ⟨rfl, _⟩ | ⟨other, hother, hothersn, rfl, hnotlast⟩
  · have := (h.stored item hitem).size_pos
    simp only [AmdPdu.stop]
    omega
  · obtain ⟨hle, heq⟩ := hr.segments item hitem other hother (hsn.trans hothersn.symm) hlast
    have hne : other.stop ≠ item.stop := fun hsame =>
      absurd (hnotlast.symm.trans (heq hsame)) Bool.false_ne_true
    omega

/-- The SNs from `RX_Next` on are sorted as numbers. -/
theorem precedes_iff {a b : AmdPdu} (hab : Precedes c.snModulus r.rxNext a b)
    (ha : r.rxNext ≤ a.sn) (hb : r.rxNext ≤ b.sn) : a.sn < b.sn ∨ a.sn = b.sn ∧ a.so ≤ b.so := by
  rw [Precedes, distance_of_le ha, distance_of_le hb] at hab
  omega

/-- The segment in front of the position. -/
def Skips (s o : Int) (item : AmdPdu) : Prop := item.sn < s ∨ item.sn = s ∧ (item.so : Int) < o

theorem Sound.skip_eq (h : r.Sound c) (s o : Int) (hitem : item ∈ r.rxBuffer) :
    decide (item.sn < s ∨ (item.sn = s ∧ item.startSo < o)) = true ↔ Skips s o item := by
  rw [decide_eq_true_iff, startSo_eq (h.stored item hitem), Skips]

/-- The segment from which on the search looks for the end of a block is the first one
behind its start. -/
theorem Sound.dropWhile_first (h : r.Sound c) (hs : r.rxNext ≤ s) {q : AmdPdu} {rest : List AmdPdu}
    (hdrop : (r.rxBuffer.dropWhile fun item =>
      decide (item.sn < s ∨ (item.sn = s ∧ item.startSo < o))) = q :: rest) :
    q ∈ r.rxBuffer ∧ ¬ Skips s o q ∧ ∀ item ∈ r.rxBuffer, ¬ Skips s o item →
      q.sn < item.sn ∨ q.sn = item.sn ∧ q.so ≤ item.so := by
  have hmem : q ∈ r.rxBuffer :=
    (List.dropWhile_suffix _).subset (hdrop ▸ List.mem_cons_self (a := q) (l := rest))
  have hfirst : ¬ Skips s o q := by
    have hnot := List.head?_dropWhile_not (fun item : AmdPdu =>
      decide (item.sn < s ∨ (item.sn = s ∧ item.startSo < o))) r.rxBuffer
    rw [hdrop, List.head?_cons] at hnot
    exact fun hskips => absurd (((h.skip_eq s o hmem).mpr hskips).symm.trans hnot)
      Bool.true_eq_false.mp
  refine ⟨hmem, hfirst, fun item hitem hnot => ?_⟩
  have hitem' : item ∈ q :: rest := by
    rw [← hdrop]
    rw [← List.takeWhile_append_dropWhile (p := fun item : AmdPdu =>
      decide (item.sn < s ∨ (item.sn = s ∧ item.startSo < o))) (l := r.rxBuffer)] at hitem
    rcases List.mem_append.mp hitem with hfront | hback
    · have hskips := List.mem_takeWhile_imp hfront
      have hin := (List.takeWhile_prefix _).subset hfront
      exact absurd ((h.skip_eq s o hin).mp hskips) hnot
    · exact hback
  have hsorted := h.sorted.sorted.sublist (List.dropWhile_sublist fun item : AmdPdu =>
    decide (item.sn < s ∨ (item.sn = s ∧ item.startSo < o)))
  rw [hdrop] at hsorted
  rcases List.mem_cons.mp hitem' with rfl | hrest
  · exact .inr ⟨rfl, le_rfl⟩
  · unfold Skips at hfirst hnot
    exact precedes_iff ((List.pairwise_cons.mp hsorted).1 item hrest) (by omega) (by omega)

theorem Sound.dropWhile_nil (h : r.Sound c) (hdrop : (r.rxBuffer.dropWhile fun item =>
      decide (item.sn < s ∨ (item.sn = s ∧ item.startSo < o))) = []) :
    ∀ item ∈ r.rxBuffer, Skips s o item := by
  intro item hitem
  exact (h.skip_eq s o hitem).mp (List.dropWhile_eq_nil_iff.mp hdrop item hitem)

/-! ## One block -/

/-- Between two positions nothing is missing. -/
def Clear (r : AmReceiver) (s o s' o' : Int) : Prop :=
  ∀ sn (b : Nat), (s < sn ∨ s = sn ∧ o ≤ b) → (sn < s' ∨ sn = s' ∧ (b : Int) < o') →
    ¬ r.Missing sn b

/-- What the search returns when it starts at a position. -/
structure FindsBlock (c : AmConfig) (r : AmReceiver) (s o : Int) (g : MissingBlock) : Prop where
  range : IsMissingRange r g
  start_ge : s < g.snStart ∨ s = g.snStart ∧ o ≤ g.soStart
  clear_before : Clear r s o g.snStart g.soStart
  next : (g.snNext = -1 ∧ g.soNext = -1 ∧ g.snEnd + 1 = r.rxHighestStatus ∧ g.soEnd = 0xFFFF) ∨
    (Reached r g.snNext g.soNext ∧ g.snNext ≤ r.rxHighestStatus ∧
      (g.snEnd < g.snNext ∨ g.snEnd = g.snNext ∧ g.soEnd < g.soNext) ∧
      ∀ sn (b : Nat), (g.snEnd < sn ∨ sn = g.snEnd ∧ g.soEnd ≠ 0xFFFF ∧ g.soEnd < b) →
        (sn < g.snNext ∨ sn = g.snNext ∧ (b : Int) < g.soNext) → ¬ r.Missing sn b)

/-- Nothing covers the position: a segment in front of it has ended. -/
theorem Sound.ended_of_uncovered (h : r.Sound c) (hon : On c.snModulus s)
    (hnone : firstItemIntersecting r.rxBuffer s o = none) :
    ∀ item ∈ r.rxBuffer, item.sn = s → (item.so : Int) ≤ o → item.stop ≤ o := by
  intro item hitem hsn hso
  have hmem : item ∈ itemsWithSn r.rxBuffer s := (h.mem_itemsWithSn_iff hon).mpr ⟨hitem, hsn⟩
  have hnot := List.find?_eq_none.mp hnone item hmem
  rw [decide_eq_true_iff, startSo_eq (h.stored item hitem)] at hnot
  simp only [AmdPdu.stop]
  omega

/-- From an uncovered position up to the next segment everything is missing. -/
theorem Sound.missing_between (h : r.Sound c) (hr : Reportable c r maxSize)
    (hreached : Reached r s o) (hon : On c.snModulus s)
    (hnone : firstItemIntersecting r.rxBuffer s o = none)
    (hbehind : ∀ item ∈ r.rxBuffer, ¬ Skips s o item → t < item.sn ∨ t = item.sn ∧ u ≤ item.so)
    {sn : Int} {b : Nat} (hsn : On c.snModulus sn) (hge : s < sn ∨ s = sn ∧ o ≤ b)
    (hlt : sn < t ∨ sn = t ∧ (b : Int) < u) : r.Missing sn b := by
  refine h.missing_of_absent hsn fun item hitem hitemsn => ?_
  by_cases hskips : Skips s o item
  · have hs : item.sn = s := by
      unfold Skips at hskips
      omega
    have hended := h.ended_of_uncovered hon hnone item hitem hs (by
      unfold Skips at hskips
      omega)
    refine ⟨fun hhas => ?_, fun hlast => ?_⟩
    · have := hhas.2
      omega
    · have := hreached.open h hr item hitem hs hlast
      omega
  · have hitem := hbehind item hitem hskips
    unfold AmdPdu.Has AmdPdu.stop
    omega

theorem Sound.status_lt (h : r.Sound c) : 0 ≤ r.rxNext ∧ r.rxHighestStatus < c.snModulus :=
  ⟨h.next_on.1, h.status_on.2⟩

/-- Where a missing range starts. -/
theorem Reached.before (h : r.Sound c) (hreached : Reached r s o) (hon : On c.snModulus s)
    (hnone : firstItemIntersecting r.rxBuffer s o = none) :
    (o = 0 ∧ (s = r.rxNext ∨ ∃ item ∈ r.rxBuffer, item.sn = s - 1 ∧ item.si.hasLast = true)) ∨
      ∃ item ∈ r.rxBuffer, item.sn = s ∧ item.stop = o := by
  rcases hreached with ⟨rfl, hs | hlast | ⟨item, hitem, hsn, hso⟩⟩ | ⟨item, hitem, hsn, hstop, _⟩
  · exact .inl ⟨rfl, .inl hs⟩
  · exact .inl ⟨rfl, .inr hlast⟩
  · have hended := h.ended_of_uncovered hon hnone item hitem hsn (by omega)
    have := (h.stored item hitem).size_pos
    simp only [AmdPdu.stop] at hended
    omega
  · exact .inr ⟨item, hitem, hsn, hstop⟩

/-- A position that no segment covers starts a missing range. -/
theorem Sound.missingBlockFrom_spec (h : r.Sound c) (hr : Reportable c r maxSize)
    (hreached : Reached r s o) (hnext : r.rxNext ≤ s) (hbelow : s < r.rxHighestStatus)
    (hso : o < 0xFFFF) (hnone : firstItemIntersecting r.rxBuffer s o = none) :
    FindsBlock c r s o (missingBlockFrom r.rxBuffer s o (r.rxHighestStatus - 1) 0xFFFF
      c.snModulus) := by
  obtain ⟨hnonneg, hlt⟩ := h.status_lt
  have hon : On c.snModulus s := ⟨by omega, by omega⟩
  have ho := hreached.nonneg
  have hbefore := hreached.before h hon hnone
  have hclear : Clear r s o s o := fun sn b hge hlt => absurd hlt (by omega)
  have hatEnd (hbehind : ∀ item ∈ r.rxBuffer, ¬ Skips s o item → r.rxHighestStatus ≤ item.sn) :
      FindsBlock c r s o
        { snStart := s, soStart := o, snEnd := r.rxHighestStatus - 1, soEnd := 0xFFFF
          snNext := -1, soNext := -1 } := by
    refine ⟨⟨hnext, ⟨by dsimp only; omega, fun heq => by dsimp only at heq ⊢; omega⟩,
      by dsimp only; omega, ⟨ho, by norm_num⟩,
      ⟨hso, le_rfl⟩, fun sn b hin => ?_, hbefore, .inl ⟨rfl, .inl (by dsimp only; omega)⟩⟩,
      .inr ⟨rfl, le_rfl⟩, hclear, .inl ⟨rfl, rfl, by dsimp only; omega, rfl⟩⟩
    obtain ⟨hge, hle, hstart, _⟩ := hin
    dsimp only at hge hle hstart
    refine h.missing_between (t := r.rxHighestStatus) (u := 0) hr hreached hon hnone
      (fun item hitem hnot => ?_) ⟨by omega, by omega⟩ (by omega) (by omega)
    have := hbehind item hitem hnot
    omega
  rw [missingBlockFrom]
  split
  · next hdrop =>
    exact hatEnd fun item hitem hnot => absurd (h.dropWhile_nil hdrop item hitem) hnot
  · next q rest hdrop =>
    obtain ⟨hq, hqnot, hfirst⟩ := h.dropWhile_first hnext hdrop
    have hqso := startSo_eq (h.stored q hq)
    have hqlt := (h.stored q hq).so_lt
    have hqsize := (h.stored q hq).size_pos
    rw [hqso]
    unfold Skips at hqnot
    by_cases hend : q.sn > r.rxHighestStatus - 1 ∨
        (q.sn = r.rxHighestStatus - 1 ∧ (q.so : Int) > 0xFFFF)
    · rw [if_pos hend]
      refine hatEnd fun item hitem hnot => ?_
      have := hfirst item hitem hnot
      omega
    rw [if_neg hend]
    have hended := h.ended_of_uncovered hon hnone q hq
    simp only [AmdPdu.stop] at hended
    have hbetween (sn : Int) (b : Nat) (hge : s < sn ∨ s = sn ∧ o ≤ b)
        (hlt : sn < q.sn ∨ sn = q.sn ∧ b < q.so) : r.Missing sn b :=
      h.missing_between (t := q.sn) (u := q.so) hr hreached hon hnone
        (fun item hitem hnot => by have := hfirst item hitem hnot; omega)
        ⟨by omega, by omega⟩ hge (by omega)
    by_cases hoff : (q.so : Int) ≠ 0
    · rw [if_pos hoff]
      -- behind the segment nothing is missing up to where the search resumes
      have hresumes (sn : Int) (b : Nat) (hsn : sn = q.sn) (hb : q.so ≤ b)
          (hbelow : q.si.hasLast = true ∨ b < q.stop) : ¬ r.Missing sn b := fun hmissing => by
        obtain ⟨hhas, hlast⟩ := hmissing.2 q hq hsn.symm
        exact hhas ⟨hb, hbelow.elim hlast id⟩
      refine ⟨⟨hnext, ⟨by dsimp only; omega, fun heq => by dsimp only at heq ⊢; omega⟩,
        by dsimp only; omega, ⟨ho, by dsimp only; omega⟩,
        ⟨hso, by dsimp only; omega⟩, fun sn b hin => ?_, hbefore,
        .inr ⟨q, hq, rfl, by dsimp only; omega⟩⟩, .inr ⟨rfl, le_rfl⟩, hclear, .inr ?_⟩
      · obtain ⟨hge, hle, hstart, hstop⟩ := hin
        dsimp only at hge hle hstart hstop
        exact hbetween sn b (by omega) (by omega)
      · by_cases hlast : q.si.hasLast = true
        · simp only [if_pos hlast]
          have hmod : (q.sn + 1) % c.snModulus = q.sn + 1 :=
            Int.emod_eq_of_lt (by omega) (by omega)
          rw [hmod]
          refine ⟨.inl ⟨rfl, .inr (.inl ⟨q, hq, by omega, hlast⟩)⟩, by omega, .inl (by omega),
            fun sn b hge hlt => hresumes sn b (by omega) (by omega) (.inl hlast)⟩
        · simp only [if_neg hlast]
          refine ⟨.inr ⟨q, hq, rfl, by simp [AmdPdu.stop], Bool.eq_false_iff.mpr hlast⟩, by omega,
            .inr ⟨trivial, by omega⟩, fun sn b hge hlt => hresumes sn b (by omega) (by omega) ?_⟩
          simp only [AmdPdu.stop]
          omega
    · rw [if_neg hoff]
      have hmod : (q.sn - 1 + c.snModulus) % c.snModulus = q.sn - 1 := by
        rw [Int.add_emod_right, Int.emod_eq_of_lt (by omega) (by omega)]
      rw [hmod]
      refine ⟨⟨hnext, ⟨by dsimp only; omega, fun heq => by dsimp only at heq ⊢; omega⟩,
      by dsimp only; omega, ⟨ho, by norm_num⟩,
        ⟨hso, le_rfl⟩, fun sn b hin => ?_, hbefore,
        .inl ⟨rfl, .inr ⟨q, hq, by dsimp only; omega, by omega⟩⟩⟩, .inr ⟨rfl, le_rfl⟩, hclear,
        .inr ⟨.inl ⟨rfl, .inr (.inr ⟨q, hq, rfl, by omega⟩)⟩, by dsimp only; omega,
          .inl (by dsimp only; omega), fun sn b hge hlt => ?_⟩⟩
      · obtain ⟨hge, hle, hstart, _⟩ := hin
        dsimp only at hge hle hstart
        exact hbetween sn b (by omega) (by omega)
      · dsimp only at hge hlt
        omega

theorem Clear.trans (h : Clear r s o s' o') (h' : Clear r s' o' t u) : Clear r s o t u := by
  intro sn b hge hlt
  by_cases hsplit : sn < s' ∨ sn = s' ∧ (b : Int) < o'
  · exact h sn b hge hsplit
  · exact h' sn b (by omega) hlt

theorem FindsBlock.extend (h : FindsBlock c r s' o' g) (hge : s < s' ∨ s = s' ∧ o ≤ o')
    (hclear : Clear r s o s' o') : FindsBlock c r s o g := by
  have hstart := h.start_ge
  exact ⟨h.range, by omega, hclear.trans h.clear_before, h.next⟩

theorem Reached.so_lt (hr : Reportable c r maxSize) (hreached : Reached r s o) : o < 0xFFFF := by
  rcases hreached with ⟨rfl, _⟩ | ⟨item, hitem, _, rfl, hlast⟩
  · norm_num
  · have := hr.octets item hitem hlast
    omega

/-- The segments that end behind a position. -/
def Ahead (s o : Int) (item : AmdPdu) : Bool := s < item.sn ∨ s = item.sn ∧ o < item.stop

/-- Fewer segments are ahead when the search has passed one. -/
theorem ahead_lt {segment : AmdPdu} (hsegment : segment ∈ r.rxBuffer)
    (hahead : Ahead s o segment = true) (hpassed : Ahead t u segment = false)
    (hge : s < t ∨ s = t ∧ o ≤ u) :
    (r.rxBuffer.filter (Ahead t u)).length < (r.rxBuffer.filter (Ahead s o)).length := by
  have hsub : r.rxBuffer.filter (Ahead t u) =
      (r.rxBuffer.filter (Ahead s o)).filter (Ahead t u) := by
    rw [List.filter_filter]
    refine List.filter_congr fun item _ => ?_
    by_cases hitem : Ahead t u item = true
    · have : Ahead s o item = true := by
        simp only [Ahead, decide_eq_true_iff] at hitem ⊢
        omega
      rw [hitem, this]
      rfl
    · rw [Bool.eq_false_iff.mpr hitem, Bool.false_and]
  rw [hsub]
  refine List.length_filter_lt_length_iff_exists.mpr ⟨segment, ?_, by simp [hpassed]⟩
  exact List.mem_filter.mpr ⟨hsegment, hahead⟩

/-- The search finds the next missing range, or there is none. -/
theorem Sound.findMissingBlock_spec (h : r.Sound c) (hr : Reportable c r maxSize) (turns : Nat)
    (hreached : Reached r s o) (hnext : r.rxNext ≤ s) (hstatus : s ≤ r.rxHighestStatus)
    (hturns : (r.rxBuffer.filter (Ahead s o)).length < turns) :
    (findMissingBlock r.rxBuffer (r.rxHighestStatus - 1) 0xFFFF c.snModulus turns s o = .ok none ∧
      Clear r s o r.rxHighestStatus 0) ∨
    ∃ g, findMissingBlock r.rxBuffer (r.rxHighestStatus - 1) 0xFFFF c.snModulus turns s o =
      .ok (some g) ∧ FindsBlock c r s o g := by
  obtain ⟨hnonneg, hlt⟩ := h.status_lt
  induction turns generalizing s o with
  | zero => exact absurd hturns (Nat.not_lt_zero _)
  | succ turns ih =>
    have hso := hreached.so_lt hr
    rw [findMissingBlock]
    by_cases hend : s > r.rxHighestStatus - 1
    · rw [if_pos (.inl hend)]
      exact .inl ⟨rfl, fun sn b hge hbelow => by omega⟩
    rw [if_neg (by omega)]
    have hon : On c.snModulus s := ⟨by omega, by omega⟩
    rcases hfirst : firstItemIntersecting r.rxBuffer s o with _ | segment
    · exact .inr ⟨_, rfl, h.missingBlockFrom_spec hr hreached hnext (by omega) hso hfirst⟩
    have hcovers := List.find?_some hfirst
    obtain ⟨hsegment, hsn⟩ := mem_itemsWithSn (List.mem_of_find?_eq_some hfirst)
    rw [decide_eq_true_iff, startSo_eq (h.stored segment hsegment)] at hcovers
    -- the segment covers everything up to its end
    have hclear (t u : Int) (hstop : s = t ∧ u ≤ segment.stop ∨
        segment.si.hasLast = true ∧ t = s + 1 ∧ u = 0) : Clear r s o t u := by
      intro sn b hge hbelow hmissing
      obtain ⟨hhas, hlast⟩ := hmissing.2 segment hsegment (by omega)
      unfold AmdPdu.Has AmdPdu.stop at *
      have : b < segment.so + segment.size := by
        rcases hstop with ⟨rfl, hu⟩ | ⟨hl, rfl, rfl⟩
        · omega
        · exact hlast hl
      exact hhas ⟨by omega, this⟩
    have hahead : Ahead s o segment = true := by
      rw [Ahead, decide_eq_true_iff, AmdPdu.stop]
      omega
    dsimp only
    rw [startSo_eq (h.stored segment hsegment), if_neg (by omega)]
    split_ifs with hlast
    · have hmod : (segment.sn + 1) % c.snModulus = s + 1 := by
        rw [hsn, Int.emod_eq_of_lt (by omega) (by omega)]
      rw [hmod]
      have hresume := ih (s := s + 1) (o := 0)
        (.inl ⟨rfl, .inr (.inl ⟨segment, hsegment, by omega, hlast⟩)⟩) (by omega) (by omega) (by
          have := ahead_lt (t := s + 1) (u := 0) hsegment hahead
            (by simp [Ahead]; omega) (by omega)
          omega)
      have hpassed := hclear (s + 1) 0 (.inr ⟨hlast, rfl, rfl⟩)
      rcases hresume with ⟨hrun, hrest⟩ | ⟨g, hrun, hfinds⟩
      · exact .inl ⟨hrun, hpassed.trans hrest⟩
      · exact .inr ⟨g, hrun, hfinds.extend (by omega) hpassed⟩
    · rw [hsn]
      have hresume := ih (s := s) (o := segment.so + segment.size)
        (.inr ⟨segment, hsegment, hsn, by simp [AmdPdu.stop], Bool.eq_false_iff.mpr hlast⟩)
        hnext hstatus (by
          have := ahead_lt (t := s) (u := segment.so + segment.size) hsegment hahead
            (by simp [Ahead, AmdPdu.stop]; omega) (by omega)
          omega)
      have hpassed := hclear s (segment.so + segment.size) (.inl ⟨rfl, by simp [AmdPdu.stop]⟩)
      rcases hresume with ⟨hrun, hrest⟩ | ⟨g, hrun, hfinds⟩
      · exact .inl ⟨hrun, hpassed.trans hrest⟩
      · exact .inr ⟨g, hrun, hfinds.extend (by omega) hpassed⟩

/-! ## All blocks -/

theorem length_le_encodedSize (isShortSn : Bool) (blocks : List NackBlock) :
    3 + blocks.length ≤ StatusPdu.encodedSize isShortSn blocks := by
  rw [StatusPdu.encodedSize]
  induction blocks with
  | nil => rfl
  | cons block rest ih =>
    rw [List.map_cons, List.sum_cons, List.length_cons, NackBlock.encodedSize]
    split_ifs <;> omega

theorem missingRange_le (h : r.Sound c) (hr : Reportable c r maxSize) (hg : IsMissingRange r g) :
    missingRange c g = (if g.snStart = g.snEnd then -1 else g.snEnd - g.snStart + 1) ∧
      missingRange c g ≤ 255 := by
  obtain ⟨hnonneg, hlt⟩ := h.status_lt
  have hrange := hr.ranges g hg
  obtain ⟨hle, _⟩ := hg.start_le
  have hfrom := hg.from_next
  have hbelow := hg.below_status
  rw [missingRange]
  split_ifs with hsame
  · exact ⟨rfl, by norm_num⟩
  · rw [Int.add_emod_right, Int.emod_eq_of_lt (by omega) (by omega)]
    omega

/-- The blocks report all missing ranges. -/
theorem Sound.findNackBlocks_spec (h : r.Sound c) (hr : Reportable c r maxSize) (turns : Nat)
    (gaps : List MissingBlock) (hreached : Reached r s o) (hnext : r.rxNext ≤ s)
    (hstatus : s ≤ r.rxHighestStatus) (hgaps : ∀ g ∈ gaps, IsMissingRange r g)
    (hsorted : gaps.Pairwise RangeBefore)
    (hends : ∀ g ∈ gaps, g.snEnd < s ∨ g.snEnd = s ∧ g.soEnd < o)
    (hcovered : ∀ sn (b : Nat), r.rxNext ≤ sn → (sn < s ∨ sn = s ∧ (b : Int) < o) →
      r.Missing sn b → ∃ g ∈ gaps, InRange g sn b) (hturns : maxSize < turns + gaps.length) :
    ∃ gaps' : List MissingBlock, r.findNackBlocks c maxSize turns s o (gaps.map (nackBlockOf c)) =
        .ok (gaps'.map (nackBlockOf c)) ∧ (∀ g ∈ gaps', IsMissingRange r g) ∧
      ∀ sn b, r.rxNext ≤ sn → sn < r.rxHighestStatus → r.Missing sn b →
        ∃ g ∈ gaps', InRange g sn b := by
  obtain ⟨hnonneg, hlt⟩ := h.status_lt
  induction turns generalizing s o gaps with
  | zero =>
    have hfits := hr.fits gaps hsorted hgaps
    have hlength := length_le_encodedSize (isShortSn c) (gaps.map (nackBlockOf c))
    rw [List.length_map] at hlength
    omega
  | succ turns ih =>
    rw [findNackBlocks, snCompareRx_eq, distance_of_le hnext, distance_of_le hr.noWrap]
    by_cases hdone : s - r.rxNext - (r.rxHighestStatus - r.rxNext) ≥ 0
    · rw [if_pos hdone]
      exact ⟨gaps, rfl, hgaps, fun sn b hge hbelow => hcovered sn b hge (.inl (by omega))⟩
    rw [if_neg hdone]
    have hend : (r.rxHighestStatus - 1 + c.snModulus) % c.snModulus = r.rxHighestStatus - 1 := by
      rw [Int.add_emod_right, Int.emod_eq_of_lt (by omega) (by omega)]
    have hsearch := h.findMissingBlock_spec hr (r.rxBuffer.length + 1) hreached hnext
      hstatus (Nat.lt_succ_of_le (List.length_filter_le ..))
    rw [hend]
    rcases hsearch with ⟨hrun, hclear⟩ | ⟨g, hrun, hfinds⟩
    · rw [hrun]
      refine ⟨gaps, rfl, hgaps, fun sn b hge hbelow hmissing => ?_⟩
      by_cases hbefore : sn < s ∨ sn = s ∧ (b : Int) < o
      · exact hcovered sn b hge hbefore hmissing
      · exact absurd hmissing (hclear sn b (by omega) (.inl hbelow))
    · have hstart := hfinds.start_ge
      have hrange := hfinds.range
      have hfrom := hrange.from_next
      obtain ⟨hstartle, hstartso⟩ := hrange.start_le
      have hmore : ∀ g' ∈ gaps ++ [g], IsMissingRange r g' := by
        intro g' hg'
        rcases List.mem_append.mp hg' with hold | hnew
        · exact hgaps g' hold
        · exact List.mem_singleton.mp hnew ▸ hrange
      have hmoresorted : (gaps ++ [g]).Pairwise RangeBefore := by
        refine List.pairwise_append.mpr ⟨hsorted, List.pairwise_singleton .., ?_⟩
        intro g' hg' g'' hg''
        obtain rfl := List.mem_singleton.mp hg''
        have := hends g' hg'
        unfold RangeBefore
        omega
      have hfits := hr.fits _ hmoresorted hmore
      rw [List.map_append, List.map_singleton] at hfits
      have hsize : StatusPdu.calculatedSize (isShortSn c)
          (gaps.map (nackBlockOf c) ++ [nackBlockOf c g]) =
          .ok (StatusPdu.encodedSize (isShortSn c)
            (gaps.map (nackBlockOf c) ++ [nackBlockOf c g])) := by
        rw [StatusPdu.calculatedSize, if_neg (by omega)]
      have hcut : ¬ missingRange c g > 255 := not_lt.mpr (missingRange_le h hr hrange).2
      -- a missing octet in front of the end of the block is in a range that was found
      have hcovered' (sn : Int) (b : Nat) (hge : r.rxNext ≤ sn)
          (hupto : sn < g.snEnd ∨ sn = g.snEnd ∧ (g.soEnd = 0xFFFF ∨ b ≤ g.soEnd))
          (hmissing : r.Missing sn b) : ∃ g' ∈ gaps ++ [g], InRange g' sn b := by
        by_cases hbefore : sn < s ∨ sn = s ∧ (b : Int) < o
        · obtain ⟨g', hg', hin⟩ := hcovered sn b hge hbefore hmissing
          exact ⟨g', List.mem_append_left _ hg', hin⟩
        by_cases hfront : sn < g.snStart ∨ sn = g.snStart ∧ (b : Int) < g.soStart
        · exact absurd hmissing (hfinds.clear_before sn b (by omega) hfront)
        · refine ⟨g, List.mem_append_right _ (List.mem_singleton_self g), ?_⟩
          unfold InRange
          omega
      rw [hrun]
      simp only [Fallible.ok_bind, hsize]
      rw [if_neg (by omega), if_neg hcut]
      rcases hfinds.next with ⟨hsn, hso, hlast, hlastso⟩ | ⟨hresume, hbelow, hbehind, hclear⟩
      · rw [if_pos ⟨hso, hsn⟩]
        refine ⟨gaps ++ [g], by rw [List.map_append]; rfl, hmore, fun sn b hge hbelow => ?_⟩
        exact hcovered' sn b hge (by omega)
      · have hson := hresume.nonneg
        rw [if_neg (by omega)]
        obtain ⟨gaps', hrest, hall⟩ := ih (gaps ++ [g]) hresume (by omega) hbelow hmore
          hmoresorted
          (fun g' hg' => by
            rcases List.mem_append.mp hg' with hold | hnew
            · have := hends g' hold
              omega
            · exact List.mem_singleton.mp hnew ▸ hbehind)
          (fun sn b hge hfront hmissing => by
            by_cases hupto : sn < g.snEnd ∨ sn = g.snEnd ∧ (g.soEnd = 0xFFFF ∨ b ≤ g.soEnd)
            · exact hcovered' sn b hge hupto hmissing
            · exact absurd hmissing (hclear sn b (by omega) hfront))
          (by rw [List.length_append, List.length_singleton]; omega)
        rw [List.map_append] at hrest
        exact ⟨gaps', hrest, hall⟩

/-- A range that is not cut has the octets of its block. -/
theorem covers_nackBlockOf (h : r.Sound c) (hr : Reportable c r maxSize) (hg : IsMissingRange r g)
    (sn : Int) (b : Nat) : (nackBlockOf c g).Covers c.snModulus sn b ↔ InRange g sn b := by
  obtain ⟨hnonneg, hlt⟩ := h.status_lt
  obtain ⟨hrange, hcut⟩ := missingRange_le h hr hg
  obtain ⟨hle, _⟩ := hg.start_le
  obtain ⟨hso, hsoEnd⟩ := hg.so_nonneg
  have hfrom := hg.from_next
  have hbelow := hg.below_status
  have hspan : (nackBlockOf c g).range = g.snEnd - g.snStart + 1 := by
    rw [NackBlock.range, nackBlockOf, if_neg (not_lt.mpr hcut)]
    dsimp only
    rw [hrange]
    split_ifs <;> omega
  have hfirst : (nackBlockOf c g).firstSo = g.soStart := by
    rw [NackBlock.firstSo, nackBlockOf, if_neg (not_lt.mpr hcut)]
    simp only [decide_eq_true_eq]
    split_ifs <;> omega
  have hlast : (nackBlockOf c g).lastSo = if g.soEnd = 0xFFFF then -1 else g.soEnd := by
    rw [NackBlock.lastSo, nackBlockOf, if_neg (not_lt.mpr hcut)]
    simp only [decide_eq_true_eq]
    split_ifs <;> omega
  have hsn : (nackBlockOf c g).nackSn = g.snStart := by
    rw [nackBlockOf]
    split <;> rfl
  have hwithin (i : Int) (hi : 0 ≤ i) (hi' : i < g.snEnd - g.snStart + 1) :
      (g.snStart + i) % c.snModulus = g.snStart + i :=
    Int.emod_eq_of_lt (by omega) (by omega)
  rw [NackBlock.Covers, hspan, hfirst, hlast, hsn, InRange]
  constructor
  · rintro ⟨i, hi, hi', rfl, hstart, hstop⟩
    rw [hwithin i hi hi']
    refine ⟨by omega, by omega, fun heq => hstart (by omega), fun heq => ?_⟩
    have := hstop (by omega)
    split_ifs at this <;> omega
  · rintro ⟨hge, hle', hstart, hstop⟩
    refine ⟨sn - g.snStart, by omega, by omega, ?_, fun heq => hstart (by omega), fun heq => ?_⟩
    · rw [hwithin _ (by omega) (by omega)]
      omega
    · have := hstop (by omega)
      split_ifs <;> omega

/-! ## The STATUS PDU -/

/-- The ACK_SN is not behind `RX_Highest_Status`. -/
theorem Sound.findAckSn_spec (h : r.Sound c) :
    On c.snModulus (r.findAckSn c) ∧
      r.modulusRx c (r.findAckSn c) ≤ r.modulusRx c r.rxHighestStatus := by
  have hm := c.snModulus_eq
  have hlarge := c.two_lt_windowSize
  have hstatus := h.status_le.trans h.highest_le
  have hfold (below : List AmdPdu) (hbelow : ∀ item ∈ below, On c.snModulus item.sn ∧
      r.modulusRx c item.sn < r.modulusRx c r.rxHighestStatus) (ackSn : Int)
      (hack : On c.snModulus ackSn ∧ r.modulusRx c ackSn ≤ r.modulusRx c r.rxHighestStatus) :
      On c.snModulus (below.foldl (fun ackSn item =>
        if r.snCompareRx c item.sn r.rxNext ≥ 0 ∧ item.isProcessed then
          (item.sn + 1) % c.snModulus else ackSn) ackSn) ∧
      r.modulusRx c (below.foldl (fun ackSn item =>
        if r.snCompareRx c item.sn r.rxNext ≥ 0 ∧ item.isProcessed then
          (item.sn + 1) % c.snModulus else ackSn) ackSn) ≤ r.modulusRx c r.rxHighestStatus := by
    induction below generalizing ackSn with
    | nil => exact hack
    | cons item rest ih =>
      obtain ⟨⟨hon, hlt⟩, hrest⟩ := List.forall_mem_cons.mp hbelow
      rw [List.foldl_cons]
      refine ih hrest _ ?_
      split_ifs
      · refine ⟨.advance c.snModulus_pos item.sn 1, ?_⟩
        simp only [modulusRx_eq] at hlt hstatus ⊢
        rw [distance_advance h.next_on hon zero_le_one (by omega)]
        omega
      · exact hack
  refine hfold _ (fun item hitem => ?_) r.rxNext ⟨h.next_on, ?_⟩
  · have hbelow := List.mem_takeWhile_imp hitem
    have hmem := (List.takeWhile_prefix _).subset hitem
    rw [decide_eq_true_iff, snCompareRx_eq] at hbelow
    refine ⟨h.sorted.on item hmem, ?_⟩
    simp only [modulusRx_eq]
    omega
  · rw [modulusRx_eq, distance_self]
    exact distance_nonneg h.next_on h.status_on

theorem Sound.truthful (h : r.Sound c) (hr : Reportable c r maxSize) (hgrant : 3 ≤ maxSize) :
    ∃ pdu, r.createStatusPdu c maxSize false = .ok (r.statusConstructed, some pdu) ∧
      Truthful c r pdu := by
  obtain ⟨gaps, hrun, hgaps, hall⟩ := h.findNackBlocks_spec hr (maxSize + 1) []
    (.inl ⟨rfl, .inl rfl⟩) le_rfl hr.noWrap (fun g hg => absurd hg List.not_mem_nil) .nil
    (fun g hg => absurd hg List.not_mem_nil)
    (fun sn b hge hlt _ => absurd hlt (by omega)) (by simp)
  rw [List.map_nil] at hrun
  obtain ⟨hack, hackle⟩ := h.findAckSn_spec
  have hnacks (sn : Int) (b : Nat) (pdu : StatusPdu)
      (hpdu : pdu.nackBlocks = gaps.map (nackBlockOf c)) :
      pdu.Nacks c.snModulus sn b ↔ ∃ g ∈ gaps, InRange g sn b := by
    rw [StatusPdu.Nacks, hpdu]
    constructor
    · rintro ⟨block, hblock, hcovers⟩
      obtain ⟨g, hg, rfl⟩ := List.mem_map.mp hblock
      exact ⟨g, hg, (covers_nackBlockOf h hr (hgaps g hg) sn b).mp hcovers⟩
    · rintro ⟨g, hg, hin⟩
      exact ⟨_, List.mem_map_of_mem hg, (covers_nackBlockOf h hr (hgaps g hg) sn b).mpr hin⟩
  -- below `RX_Highest_Status` nothing has wrapped
  have hacked (sn : Int) (b : Nat) (hon : On c.snModulus sn)
      (hlt : r.modulusRx c sn < r.modulusRx c (r.findAckSn c)) (hmissing : r.Missing sn b) :
      ∃ g ∈ gaps, InRange g sn b := by
    have hbelow := hlt.trans_le hackle
    simp only [modulusRx_eq, distance_of_le hr.noWrap] at hbelow
    have hnext := h.next_on
    have hstatus := h.status_on
    unfold On at hon hnext hstatus
    rw [distance] at hbelow
    split_ifs at hbelow <;> exact hall sn b (by omega) (by omega) hmissing
  refine ⟨{ ackSn := r.findAckSn c, nackBlocks := gaps.map (nackBlockOf c) }, ?_, hack, ?_, ?_, ?_⟩
  · rw [createStatusPdu, if_neg (by omega), hrun]
    rfl
  · exact fun sn b hon hlt hmissing =>
      (hnacks sn b _ rfl).mpr (hacked sn b hon hlt hmissing)
  · intro sn b hnacked
    obtain ⟨g, hg, hin⟩ := (hnacks sn b _ rfl).mp hnacked
    exact (hgaps g hg).missing sn b hin
  · intro sn hon hlt hnot
    obtain ⟨b, hmissing⟩ := h.exists_missing hon hnot
    exact ⟨b, hmissing, (hnacks sn b _ rfl).mpr (hacked sn b hon hlt hmissing)⟩

/-- In every state that a run leads to, the STATUS PDU is truthful if the state is reportable
in the grant. -/
theorem createStatusPdu_truthful {events : List Event}
    (hrun : System.Run (system c) System.unrestricted events (.ok r))
    (hr : 3 ≤ maxSize → Reportable c r maxSize) :
    ∃ r' pdu, r.createStatusPdu c maxSize false = .ok (r', pdu) ∧
      ∀ p, pdu = some p → Truthful c r p := by
  by_cases hgrant : 3 ≤ maxSize
  · obtain ⟨pdu, hpdu, htruthful⟩ := (sound_of_run hrun r rfl).truthful (hr hgrant) hgrant
    refine ⟨_, some pdu, hpdu, fun p hp => ?_⟩
    cases hp
    exact htruthful
  · exact ⟨r, none, by rw [createStatusPdu, if_pos (by omega)], fun p hp => by cases hp⟩

private def secondPdu : AmdPdu := { si := .full, so := 0, sn := 1, data := [1] }

private def secondReceived : AmReceiver :=
  { cleared .test with
    tCurrent := 1
    rxBuffer := [secondPdu.processed]
    rxNextHighest := 2
    rxNextStatusTrigger := 2
    reassemblyTimer := { period := 400, startedAt := 1 } }

private def firstMissed : AmReceiver :=
  { secondReceived with
    tCurrent := 402, rxHighestStatus := 2, reassemblyTimer := { period := 400 } }

/-- SDU 1 is delivered without SDU 0, and t-Reassembly expires. -/
private theorem run_firstMissed : System.Run (system .test) System.unrestricted
    [.timerCycle 1, .amd secondPdu false, .timerCycle 402] (.ok firstMissed) := by
  have hfirst : Step .test (.ok (cleared .test)) (.timerCycle 1)
      (.ok { cleared .test with tCurrent := 1 }) := .timerCycle
  have hsecond : Step .test (.ok { cleared .test with tCurrent := 1 }) (.amd secondPdu false)
      (.ok secondReceived) :=
    .of_receive ⟨by decide, by decide, by decide, rfl⟩ (by decide)
  have hthird : Step .test (.ok secondReceived) (.timerCycle 402) (.ok firstMissed) := by
    have hcycle : secondReceived.timerCycle .test 402 = .ok firstMissed := by decide
    exact hcycle ▸ .timerCycle
  exact .snoc (.snoc (.snoc (.nil rfl) trivial hfirst) trivial hsecond) trivial hthird

/-- SDU 0 is missing as a whole, and nothing else is. -/
private theorem firstMissed_range (hg : IsMissingRange firstMissed g) :
    g.snStart = 0 ∧ g.snEnd = 0 ∧ g.soStart = 0 ∧ g.soEnd = 0xFFFF := by
  have hbuffer {item : AmdPdu} (hitem : item ∈ firstMissed.rxBuffer) : item.sn = 1 := by
    rw [List.mem_singleton.mp hitem]
    rfl
  have hfrom : 0 ≤ g.snStart := hg.from_next
  have hbelow : g.snEnd < 2 := hg.below_status
  have hle := hg.start_le
  have hnonneg := hg.so_nonneg
  have hend : g.snEnd ≠ 1 := by
    intro hone
    have hin : InRange g 1 g.soEnd.toNat := by
      refine ⟨by omega, by omega, fun hstart => ?_, fun _ => .inr (by omega)⟩
      have := hle.2 (by omega)
      omega
    exact absurd (hg.missing _ _ hin).1 (by decide)
  refine ⟨by omega, by omega, ?_, ?_⟩
  · rcases hg.before with ⟨hzero, _⟩ | ⟨item, hitem, hsn, _⟩
    · exact hzero
    · have := hbuffer hitem
      omega
  · rcases hg.after with ⟨hall, _⟩ | ⟨item, hitem, hsn, _⟩
    · exact hall
    · have := hbuffer hitem
      omega

private theorem firstMissed_reportable : Reportable .test firstMissed 5 where
  noWrap := by decide
  segments := by decide
  octets := by decide
  ranges g hg := by
    obtain ⟨hstart, hend, _, _⟩ := firstMissed_range hg
    omega
  fits gaps hpairwise hgaps := by
    rcases gaps with _ | ⟨g, _ | ⟨g', rest⟩⟩
    · decide
    · obtain ⟨hsn, hsn', hso, hso'⟩ := firstMissed_range (hgaps g (List.mem_cons_self ..))
      simp [nackBlockOf, missingRange, StatusPdu.encodedSize, NackBlock.encodedSize, isShortSn,
        StatusPdu.calculatedSizeBufferLen, AmConfig.test, hsn, hsn', hso, hso']
    · have hfirst := firstMissed_range (hgaps g (List.mem_cons_self ..))
      have hsecond := firstMissed_range
        (hgaps g' (List.mem_cons_of_mem _ (List.mem_cons_self ..)))
      have hbefore := List.rel_of_pairwise_cons hpairwise (List.mem_cons_self (a := g'))
      rw [RangeBefore] at hbefore
      omega

theorem createStatusPdu_truthful_firstMissed : ∃ r' pdu,
    firstMissed.createStatusPdu .test 5 false = .ok (r', pdu) ∧
      ∀ p, pdu = some p → Truthful .test firstMissed p :=
  createStatusPdu_truthful run_firstMissed fun _ => firstMissed_reportable

/-- The grant has no room for the block of SDU 0, and SDU 1 is acknowledged with it. -/
theorem truncated_status_acknowledges :
    ¬ ∀ (c : AmConfig) (events : List Event) (r : AmReceiver) (maxSize : Nat),
      System.Run (system c) System.unrestricted events (.ok r) →
      ∀ r' pdu, r.createStatusPdu c maxSize false = .ok (r', some pdu) → Truthful c r pdu := by
  intro h
  have hstatus : firstMissed.createStatusPdu .test 3 false =
      .ok (firstMissed.statusConstructed, some { ackSn := 2 }) := by decide
  obtain ⟨_, hacked, _, _⟩ := h .test _ _ 3 run_firstMissed _ _ hstatus
  have hmissing : firstMissed.Missing 0 0 :=
    ⟨by decide, by simp [firstMissed, secondReceived, secondPdu, AmdPdu.processed]⟩
  obtain ⟨block, hblock, _⟩ := hacked 0 0 (by decide) (by decide) hmissing
  exact absurd hblock List.not_mem_nil

end AmReceiver

end Quicup.Ueransim.Rlc
