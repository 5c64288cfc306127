import Quicup.Ueransim.Rlc.Missing
import Quicup.Ueransim.Rlc.Submission

/-!
# Segments and their SDU

A PDU that is built has the octets of its SDU from its offset on. Segments of one SDU that
share no octet and reach the last one without a gap are put together to the SDU.
-/

namespace Quicup.Ueransim.Rlc

/-- The PDU has the octets of the SDU from its offset on. -/
structure IsSegment (sdu : OctetString) (pdu : AmdPdu) : Prop where
  data_eq : pdu.data = (sdu.drop pdu.so).take pdu.size
  size_pos : 0 < pdu.size
  stop_le : pdu.stop ≤ sdu.length
  last_iff : pdu.si.hasLast = true ↔ pdu.stop = sdu.length

/-- The PDUs share no octet. -/
def Apart (a b : AmdPdu) : Prop := ∀ o, ¬ (a.Has o ∧ b.Has o)

variable {a b pdu : AmdPdu} {sdus' : List OctetString} {c : AmConfig} {n : Nat}

theorem Apart.symm (h : Apart a b) : Apart b a :=
  fun o hhas => h o hhas.symm

/-- A segment that does not start in front of another one and is apart from it starts behind. -/
theorem Apart.stop_le (h : Apart a b) (hle : a.so ≤ b.so) (hb : 0 < b.size) : a.stop ≤ b.so := by
  by_contra hlt
  refine h b.so ⟨⟨hle, not_le.mp hlt⟩, le_rfl, ?_⟩
  exact Nat.lt_add_of_pos_right hb

variable {k i : Nat} {items : List AmdPdu} {sdu : OctetString} {sdus : List OctetString}

/-- The walk over the segments, from an octet `k` on. -/
theorem reachesLast_cons {item : AmdPdu} {rest : List AmdPdu} :
    reachesLast (item :: rest) ((k : Int) - 1) = true ↔
      item.so ≤ k ∧ (item.si.hasLast = true ∨
        reachesLast rest (((max item.stop k : Nat) : Int) - 1) = true) := by
  have hnext : (if (item.so : Int) + item.size - 1 > (k : Int) - 1 then
      (item.so : Int) + item.size - 1 else (k : Int) - 1) = ((max item.stop k : Nat) : Int) - 1 := by
    rw [AmdPdu.stop]
    omega
  rw [reachesLast]
  dsimp only
  rw [hnext]
  split_ifs with hgap hlast
  · refine iff_of_false id fun h => ?_
    omega
  · simp only [hlast, true_or, and_true, true_iff]
    omega
  · simp only [hlast, false_or, Bool.false_eq_true, iff_and_self]
    intro _
    omega

/-- Segments from the octet `k` on that are apart are the rest of the SDU. -/
theorem flatMap_data (h : reachesLast items ((k : Int) - 1) = true)
    (hitems : ∀ item ∈ items, IsSegment sdu item) (hapart : items.Pairwise Apart)
    (hk : ∀ item ∈ items, k ≤ item.so) : items.flatMap AmdPdu.data = sdu.drop k := by
  induction items generalizing k with
  | nil => exact absurd h Bool.false_ne_true
  | cons item rest ih =>
    obtain ⟨hitem, hrest⟩ := List.forall_mem_cons.mp hitems
    obtain ⟨hsplit, hapart⟩ := List.pairwise_cons.mp hapart
    obtain ⟨hge, hk⟩ := List.forall_mem_cons.mp hk
    obtain ⟨hle, h⟩ := reachesLast_cons.mp h
    have hso : item.so = k := le_antisymm hle hge
    have hpos := hitem.size_pos
    have hbehind : ∀ other ∈ rest, item.stop ≤ other.so := fun other hother =>
      (hsplit other hother).stop_le (hso ▸ hk other hother) (hrest other hother).size_pos
    rcases h with hlast | h
    · have hend := hitem.last_iff.mp hlast
      -- behind the last octet there is no room for another segment
      have hnil : rest = [] := List.eq_nil_iff_forall_not_mem.mpr fun other hother => by
        have hroom := (hrest other hother).stop_le
        have hsize := (hrest other hother).size_pos
        have hafter := hbehind other hother
        rw [AmdPdu.stop] at hroom
        omega
      rw [hnil, List.flatMap_cons, List.flatMap_nil, List.append_nil, hitem.data_eq, hso]
      rw [AmdPdu.stop] at hend
      exact List.take_of_length_le (by rw [List.length_drop]; omega)
    · have hmax : max item.stop k = k + item.size := by
        rw [AmdPdu.stop]
        omega
      have hnext : ∀ other ∈ rest, k + item.size ≤ other.so := by
        rw [← hso]
        exact hbehind
      rw [List.flatMap_cons, ih (hmax ▸ h) hrest hapart hnext, hitem.data_eq, hso,
        ← List.drop_drop, List.take_append_drop]

/-- Segments that reach the last octet have all octets from `k` on. -/
theorem length_le_of_reachesLast (h : reachesLast items ((k : Int) - 1) = true)
    (hitems : ∀ item ∈ items, IsSegment sdu item) :
    sdu.length ≤ k + (items.map AmdPdu.size).sum := by
  induction items generalizing k with
  | nil => exact absurd h Bool.false_ne_true
  | cons item rest ih =>
    obtain ⟨hitem, hrest⟩ := List.forall_mem_cons.mp hitems
    obtain ⟨hle, h⟩ := reachesLast_cons.mp h
    rw [List.map_cons, List.sum_cons]
    rcases h with hlast | h
    · have hend := hitem.last_iff.mp hlast
      rw [AmdPdu.stop] at hend
      omega
    · have hbehind := ih h hrest
      rw [AmdPdu.stop] at hbehind
      omega

/-- Segments that reach the last octet with no more octets than those from `k` on are apart. -/
theorem apart_of_sum_size (h : reachesLast items ((k : Int) - 1) = true)
    (hitems : ∀ item ∈ items, IsSegment sdu item)
    (hsum : (items.map AmdPdu.size).sum ≤ sdu.length - k) :
    items.Pairwise Apart ∧ ∀ item ∈ items, k ≤ item.so := by
  induction items generalizing k with
  | nil => exact absurd h Bool.false_ne_true
  | cons item rest ih =>
    obtain ⟨hitem, hrest⟩ := List.forall_mem_cons.mp hitems
    obtain ⟨hle, h⟩ := reachesLast_cons.mp h
    have hpos := hitem.size_pos
    rw [List.map_cons, List.sum_cons] at hsum
    rcases h with hlast | h
    · have hend := hitem.last_iff.mp hlast
      rw [AmdPdu.stop] at hend
      -- the last segment leaves no octet for the others
      have hnil : rest = [] := List.eq_nil_iff_forall_not_mem.mpr fun other hother => by
        have hsize := (hrest other hother).size_pos
        have hone := List.single_le_sum (by simp) _ (List.mem_map_of_mem (f := AmdPdu.size) hother)
        omega
      rw [hnil]
      exact ⟨List.pairwise_singleton .., by simp; omega⟩
    · have hall := length_le_of_reachesLast h hrest
      have hmax : max item.stop k = item.stop ∧ item.so = k := by
        rw [AmdPdu.stop] at hall ⊢
        omega
      rw [hmax.1] at h
      have hstop : item.stop = item.so + item.size := rfl
      obtain ⟨hapart, hbehind⟩ := ih h hrest (by omega)
      refine ⟨List.pairwise_cons.mpr ⟨fun other hother o hboth => ?_, hapart⟩,
        List.forall_mem_cons.mpr ⟨hmax.2.ge, fun other hother => ?_⟩⟩
      · have hafter := hbehind other hother
        have hleft := hboth.1.2
        have hright := hboth.2.1
        omega
      · have hafter := hbehind other hother
        omega

/-- Segments from the octet `k` on that are put together are the rest of the SDU exactly if
none of them shares an octet with another one or starts in front. -/
theorem flatMap_data_iff (h : reachesLast items ((k : Int) - 1) = true)
    (hitems : ∀ item ∈ items, IsSegment sdu item) :
    items.flatMap AmdPdu.data = sdu.drop k ↔
      items.Pairwise Apart ∧ ∀ item ∈ items, k ≤ item.so := by
  constructor
  · intro heq
    have hsizes := congrArg List.length heq
    rw [List.length_flatMap, List.length_drop] at hsizes
    exact apart_of_sum_size h hitems hsizes.le
  · rintro ⟨hapart, hk⟩
    exact flatMap_data h hitems hapart hk

/-! ## PDUs that are built -/

/-- The PDU is a segment of the SDU `i`. The SDUs up to `n` have been submitted, the last one
maybe in part. -/
structure BuiltFrom (c : AmConfig) (sdus : List OctetString) (n i : Nat) (pdu : AmdPdu) :
    Prop where
  lt : i < sdus.length
  le : i ≤ n
  sn_eq : pdu.sn = (i : Int) % c.snModulus
  segment : IsSegment (sdus.getD i []) pdu
  lt_of_last : pdu.si.hasLast = true → i < n

theorem getD_of_extends (h : sdus <+: sdus') (hi : i < sdus.length) :
    sdus'.getD i [] = sdus.getD i [] := by
  obtain ⟨more, rfl⟩ := h
  rw [List.getD_eq_getElem?_getD, List.getElem?_append_left hi, List.getD_eq_getElem?_getD]

theorem BuiltFrom.grow {n' : Nat} (h : BuiltFrom c sdus n i pdu) (hsdus : sdus <+: sdus')
    (hn : n ≤ n') : BuiltFrom c sdus' n' i pdu :=
  ⟨h.lt.trans_le hsdus.length_le, h.le.trans hn, h.sn_eq,
    (getD_of_extends hsdus h.lt).symm ▸ h.segment, fun hlast => (h.lt_of_last hlast).trans_le hn⟩

/-- That an item is processed does not matter. -/
theorem BuiltFrom.processed (h : BuiltFrom c sdus n i pdu) : BuiltFrom c sdus n i pdu.processed :=
  ⟨h.lt, h.le, h.sn_eq,
    ⟨h.segment.data_eq, h.segment.size_pos, h.segment.stop_le, h.segment.last_iff⟩, h.lt_of_last⟩

namespace AmTransmitter

variable {c : AmConfig} {sdus : List OctetString} {a n : Nat} {t : AmTransmitter}
  {s : RlcSduSegment}

/-- The last segment of an SDU is only submitted with the whole SDU. -/
theorem Covering.lt_of_last (h : Covering c sdus 0 a n [] t) (hs : s ∈ t.waitBuffer)
    (hlast : s.si.hasLast = true) : s.sdu < n := by
  have hmem : s ∈ t.waitBuffer ++ t.retBuffer ++ t.ackBuffer := by simp [hs]
  obtain ⟨hsubmitted, hlength⟩ := h.submitted s hmem
  have hshape := h.shape s (by simp [segments, hs])
  have hpos := h.pos s (by simp [segments, hs])
  refine lt_of_le_of_ne hsubmitted.le fun heq => ?_
  have hqueued : n ∈ t.txBuffer.map RlcSduSegment.sdu := by
    rw [h.queue, List.mem_range'_1]
    omega
  obtain ⟨q, hq, hqsdu⟩ := List.mem_map.mp hqueued
  have hqshape := h.shape q (by simp [segments, hq])
  have hqpos := h.pos q (by simp [segments, hq])
  have hqend := hqshape.last_iff.mp (h.queue_last q hq)
  have hsend := hshape.last_iff.mp hlast
  rw [hqsdu] at hqend
  rw [heq] at hsend
  -- both segments have the last octet
  have hcoverage := h.coverage_eq n h.le (heq ▸ hlength) ((sdus.getD n []).length - 1)
  have hfirst : 0 < coverage t.txBuffer n ((sdus.getD n []).length - 1) :=
    List.countP_pos_iff.mpr ⟨q, hq, RlcSduSegment.covers_iff.mpr ⟨hqsdu, by omega, by omega⟩⟩
  have hsecond : 0 < coverage t.waitBuffer n ((sdus.getD n []).length - 1) :=
    List.countP_pos_iff.mpr ⟨s, hs, RlcSduSegment.covers_iff.mpr ⟨heq, by omega, by omega⟩⟩
  simp only [segments, List.nil_append, coverage_append] at hcoverage
  split_ifs at hcoverage <;> omega

/-- A PDU that is built is decoded to a segment of its SDU. -/
theorem Covering.builtFrom (h : Covering c sdus 0 a n [] t) (hs : s ∈ t.waitBuffer)
    (hsize : (sdus.getD s.sdu []).length ≤ reassembleBufferLen) (p : Bool) :
    (t.amdPduOf s p).Decoded c ∧ BuiltFrom c sdus n s.sdu (t.amdPduOf s p) := by
  obtain ⟨hsubmitted, hlength⟩ :=
    h.submitted s (List.mem_append_right _ (List.mem_append_left _ (List.mem_append_left _ hs)))
  have hmem : s ∈ t.segments := by simp [segments, hs]
  have hshape := h.shape s hmem
  have hpos := h.pos s hmem
  have hstop := h.stop_le hmem hsubmitted.ge hlength
  have hdata := h.data s.sdu
  have hsn : (t.amdPduOf s p).sn = (s.sdu : Int) % c.snModulus := by
    rw [amdPduOf, hsubmitted.sn_eq, Nat.cast_zero, sub_zero]
  have hso : (t.amdPduOf s p).so = s.so := by
    have hfirst := hshape.first_iff
    rw [amdPduOf, ESegmentInfo.requiresSo_eq]
    rw [reassembleBufferLen] at hsize
    by_cases hzero : s.si.hasFirst = true
    · rw [hzero, hfirst.mp hzero]
      rfl
    · rw [Bool.eq_false_iff.mpr hzero]
      exact Nat.mod_eq_of_lt (by omega)
  have hoctets : (t.amdPduOf s p).data = ((sdus.getD s.sdu []).drop s.so).take s.size := by
    rw [← hdata]
    rfl
  have hcount : (t.amdPduOf s p).size = s.size := by
    rw [AmdPdu.size, hoctets, List.length_take, List.length_drop]
    omega
  have hon : Circular.On c.snModulus (t.amdPduOf s p).sn := by
    rw [hsn, ← add_zero (s.sdu : Int)]
    exact .advance c.snModulus_pos _ _
  refine ⟨⟨hon, ?_, fun hrequires => ?_, rfl⟩, hlength, hsubmitted.le, hsn, ⟨?_, ?_, ?_, ?_⟩,
    h.lt_of_last hs⟩
  · rw [reassembleBufferLen] at hsize
    omega
  · exact if_neg (Bool.eq_false_iff.mp hrequires)
  · rw [hoctets, hso, hcount]
  · rwa [hcount]
  · rwa [AmdPdu.stop, hso, hcount]
  · rw [AmdPdu.stop, hso, hcount]
    exact hshape.last_iff

end AmTransmitter

end Quicup.Ueransim.Rlc
