import Quicup.Core.Circular
import Quicup.Ueransim.Rlc.Transmitter

/-!
# Segments of SDUs

Which octets the segments in the buffers of a transmitter cover, and what the loops over
the buffers do: they rearrange the segments and change nothing that a segment covers.
-/

namespace Quicup.Ueransim.Rlc

open Circular

/-! ## Coverage -/

/-- The segment contains the octet `b` of the SDU `i`. -/
def RlcSduSegment.Covers (segment : RlcSduSegment) (i b : Nat) : Bool :=
  segment.sdu = i ∧ segment.so ≤ b ∧ b < segment.so + segment.size

/-- How many of the segments contain the octet `b` of the SDU `i`. -/
def coverage (segments : List RlcSduSegment) (i b : Nat) : Nat :=
  segments.countP fun segment => segment.Covers i b

/-- How many of the segments refer to the SDU `i`. -/
def refs (segments : List RlcSduSegment) (i : Nat) : Nat :=
  segments.countP fun segment => decide (segment.sdu = i)

variable {segment front : RlcSduSegment} {next xs ys : List RlcSduSegment} {i b : Nat}

theorem RlcSduSegment.covers_iff :
    segment.Covers i b = true ↔
      segment.sdu = i ∧ segment.so ≤ b ∧ b < segment.so + segment.size := by
  rw [Covers, decide_eq_true_iff]

theorem coverage_perm (h : xs.Perm ys) (i b : Nat) : coverage xs i b = coverage ys i b :=
  h.countP_eq _

theorem refs_perm (h : xs.Perm ys) (i : Nat) : refs xs i = refs ys i :=
  h.countP_eq _

@[simp] theorem coverage_append (xs ys : List RlcSduSegment) :
    coverage (xs ++ ys) i b = coverage xs i b + coverage ys i b :=
  List.countP_append

@[simp] theorem refs_append (xs ys : List RlcSduSegment) :
    refs (xs ++ ys) i = refs xs i + refs ys i :=
  List.countP_append

@[simp] theorem coverage_nil : coverage [] i b = 0 := rfl

@[simp] theorem refs_nil : refs [] i = 0 := rfl

@[simp] theorem coverage_cons (x : RlcSduSegment) (xs : List RlcSduSegment) :
    coverage (x :: xs) i b = coverage xs i b + if x.Covers i b then 1 else 0 :=
  List.countP_cons

@[simp] theorem refs_cons (x : RlcSduSegment) (xs : List RlcSduSegment) :
    refs (x :: xs) i = refs xs i + if x.sdu = i then 1 else 0 := by
  simp [refs, List.countP_cons]

/-- An SDU without references has no octet in a segment. -/
theorem coverage_eq_zero_of_refs (h : refs xs i = 0) : coverage xs i b = 0 := by
  rw [refs, List.countP_eq_zero] at h
  rw [coverage, List.countP_eq_zero]
  intro x hx hcovers
  exact h x hx (decide_eq_true (RlcSduSegment.covers_iff.mp hcovers).1)

/-! ## Segmentation -/

/-- A segment is left whole or cut behind its octet `k`. -/
inductive Cut (segment : RlcSduSegment) : RlcSduSegment → List RlcSduSegment → Prop
  | whole : Cut segment segment []
  | split (k : Nat) (hpos : 0 < k) (hlt : k < segment.size) :
      Cut segment { segment with si := segment.si.asNotLast, size := k }
        [{ segment with
          si := segment.si.asNotFirst, size := segment.size - k, so := segment.so + k }]

theorem segmentToFit_cut {maxSize snLength : Nat} (hpos : 0 < segment.size)
    (hfits : ¬ amdPduHeaderSize snLength segment.si + 1 > maxSize) :
    ∃ front next, segmentToFit segment maxSize snLength = some (front, next) ∧
      Cut segment front next := by
  rw [segmentToFit]
  split_ifs with hover
  · have hsize : segment.size - (amdPduHeaderSize snLength segment.si + segment.size - maxSize) =
        maxSize - amdPduHeaderSize snLength segment.si := by omega
    have hrest : amdPduHeaderSize snLength segment.si + segment.size - maxSize =
        segment.size - (maxSize - amdPduHeaderSize snLength segment.si) := by omega
    refine ⟨_, _, ?_, .split (maxSize - amdPduHeaderSize snLength segment.si) (by omega) (by omega)⟩
    rw [amPerformSegmentation, if_neg hfits]
    dsimp only [Option.map_some]
    rw [hsize, hrest]
  · exact ⟨segment, [], rfl, .whole⟩

namespace Cut

variable (h : Cut segment front next)
include h

theorem front_sdu : front.sdu = segment.sdu := by
  cases h <;> rfl

theorem next_sdu : ∀ s ∈ next, s.sdu = segment.sdu := by
  cases h <;> simp

theorem pos (hpos : 0 < segment.size) : ∀ s ∈ front :: next, 0 < s.size := by
  cases h with
  | whole => simpa using hpos
  | split k hk hlt =>
    simp only [List.mem_cons, List.not_mem_nil, or_false, forall_eq_or_imp, forall_eq]
    exact ⟨hk, Nat.sub_pos_of_lt hlt⟩

/-- Only the front has the first octet. -/
theorem first_iff (hfirst : segment.si.hasFirst = true ↔ segment.so = 0) :
    ∀ s ∈ front :: next, s.si.hasFirst = true ↔ s.so = 0 := by
  cases h with
  | whole => simpa using hfirst
  | split k hk hlt =>
    simp only [List.mem_cons, List.not_mem_nil, or_false, forall_eq_or_imp, forall_eq,
      ESegmentInfo.hasFirst_asNotLast, ESegmentInfo.hasFirst_asNotFirst]
    exact ⟨hfirst, iff_of_false Bool.false_ne_true (by omega)⟩

/-- Only the last part has the last octet. -/
theorem last_iff {size : Nat}
    (hlast : segment.si.hasLast = true ↔ segment.so + segment.size = size)
    (hle : segment.so + segment.size ≤ size) :
    ∀ s ∈ front :: next, s.si.hasLast = true ↔ s.so + s.size = size := by
  cases h with
  | whole => simpa using hlast
  | split k hk hlt =>
    simp only [List.mem_cons, List.not_mem_nil, or_false, forall_eq_or_imp, forall_eq,
      ESegmentInfo.hasLast_asNotLast, ESegmentInfo.hasLast_asNotFirst]
    refine ⟨iff_of_false Bool.false_ne_true (by omega), hlast.trans ?_⟩
    omega

/-- The parts cover what the segment covers. -/
theorem coverage_eq (i b : Nat) : coverage (front :: next) i b = coverage [segment] i b := by
  cases h with
  | whole => rfl
  | split k hk hlt =>
    simp only [coverage_cons, coverage_nil, RlcSduSegment.covers_iff]
    split_ifs <;> omega

theorem refs_eq (i : Nat) :
    refs (front :: next) i = refs [segment] i + if segment.sdu = i then next.length else 0 := by
  cases h with
  | whole => simp
  | split k hk hlt =>
    simp only [refs_cons, refs_nil, List.length_singleton, Nat.zero_add]

/-- The part that stays has the end of the segment, which the front has if it is whole. -/
theorem last (hlast : segment.si.hasLast = true) :
    (front.si.hasLast = true → next = []) ∧
      (front.si.hasLast = false → ∃ s, next = [s] ∧ s.si.hasLast = true) := by
  cases h with
  | whole => exact ⟨fun _ => rfl, fun hfront => by simp [hlast] at hfront⟩
  | split k hk hlt =>
    refine ⟨fun hfront => ?_, fun _ => ⟨_, rfl, ?_⟩⟩
    · rw [ESegmentInfo.hasLast_asNotLast] at hfront
      cases hfront
    · rw [ESegmentInfo.hasLast_asNotFirst, hlast]

end Cut

/-! ## The heap -/

/-- An SDU apart from the count of its retransmissions. -/
def RlcSdu.uncounted (sdu : RlcSdu) : RlcSdu := { sdu with retransmissionCount := 0 }

variable {α β : Type}

theorem map_modify (g : α → β) {f : α → α} (hf : ∀ x, g (f x) = g x) (xs : List α) (i : Nat) :
    (xs.modify i f).map g = xs.map g := by
  apply List.ext_getElem?
  intro j
  rw [List.getElem?_map, List.getElem?_map, List.getElem?_modify]
  by_cases hij : i = j
  · simp only [hij, if_pos]
    rcases xs[j]? with _ | x
    · rfl
    · simp [hf]
  · simp [hij]

/-- What a list is mapped to determines what its elements are. -/
theorem getD_congr {g : α → β} {xs ys : List α} (h : xs.map g = ys.map g) (i : Nat) (d : α) :
    g (xs.getD i d) = g (ys.getD i d) := by
  have hget := congrArg (fun zs => zs[i]?.getD (g d)) h
  simp only [List.getElem?_map, Option.getD_map] at hget
  simpa only [List.getD_eq_getElem?_getD] using hget

namespace AmTransmitter

variable {c : AmConfig} {t t' : AmTransmitter}

theorem sdu_modify {heap : List RlcSdu} {f : RlcSdu → RlcSdu} {i : Nat} (hi : i < heap.length)
    (j : Nat) : (heap.modify i f).getD j default =
      if i = j then f (heap.getD j default) else heap.getD j default := by
  rw [List.getD_eq_getElem?_getD, List.getD_eq_getElem?_getD, List.getElem?_modify]
  split_ifs with hij
  · rw [hij] at hi
    simp [List.getElem?_eq_getElem hi]
  · simp

/-! ## Rearrangements -/

/-- The segments in the buffers. -/
def segments (t : AmTransmitter) : List RlcSduSegment :=
  t.txBuffer ++ t.waitBuffer ++ t.retBuffer ++ t.ackBuffer

/-- The SDU has been reported. -/
def Reported (t : AmTransmitter) (i : Nat) : Prop :=
  ∃ sduId, .sduSuccessfulDelivery i sduId ∈ t.consumer

/-- Segments that have been submitted change buffers, and some are held by a loop. -/
structure Rearranged (held : List RlcSduSegment) (t : AmTransmitter) (held' : List RlcSduSegment)
    (t' : AmTransmitter) : Prop where
  perm : (held' ++ t'.segments).Perm (held ++ t.segments)
  txBuffer_eq : t'.txBuffer = t.txBuffer
  txNext_eq : t'.txNext = t.txNext
  txNextAck_eq : t'.txNextAck = t.txNextAck
  txCurrentSize_eq : t'.txCurrentSize = t.txCurrentSize
  heap_eq : t'.heap.map RlcSdu.uncounted = t.heap.map RlcSdu.uncounted
  reported_iff : ∀ i, t'.Reported i ↔ t.Reported i

namespace Rearranged

variable {held held' held'' : List RlcSduSegment} {t'' : AmTransmitter}

theorem refl (held : List RlcSduSegment) (t : AmTransmitter) : Rearranged held t held t :=
  ⟨.refl _, rfl, rfl, rfl, rfl, rfl, fun _ => .rfl⟩

theorem trans (h : Rearranged held t held' t') (h' : Rearranged held' t' held'' t'') :
    Rearranged held t held'' t'' :=
  ⟨h'.perm.trans h.perm, h'.txBuffer_eq.trans h.txBuffer_eq, h'.txNext_eq.trans h.txNext_eq,
    h'.txNextAck_eq.trans h.txNextAck_eq, h'.txCurrentSize_eq.trans h.txCurrentSize_eq,
    h'.heap_eq.trans h.heap_eq, fun i => (h'.reported_iff i).trans (h.reported_iff i)⟩

theorem sdu_eq (h : Rearranged held t held' t') (i : Nat) :
    (t'.sdu i).uncounted = (t.sdu i).uncounted :=
  getD_congr h.heap_eq i default

theorem sn_eq (h : Rearranged held t held' t') (i : Nat) : (t'.sdu i).sn = (t.sdu i).sn :=
  (congrArg RlcSdu.sn (h.sdu_eq i) :)

theorem refCount_eq (h : Rearranged held t held' t') (i : Nat) :
    (t'.sdu i).refCount = (t.sdu i).refCount :=
  (congrArg RlcSdu.refCount (h.sdu_eq i) :)

/-- Other fields do not matter. -/
theorem of_eq (hperm : (held' ++ t'.segments).Perm (held ++ t.segments))
    (htx : t'.txBuffer = t.txBuffer) (hnext : t'.txNext = t.txNext)
    (hack : t'.txNextAck = t.txNextAck) (hsize : t'.txCurrentSize = t.txCurrentSize)
    (hheap : t'.heap = t.heap) (hconsumer : t'.consumer = t.consumer) :
    Rearranged held t held' t' :=
  ⟨hperm, htx, hnext, hack, hsize, by rw [hheap], fun i => by rw [Reported, Reported, hconsumer]⟩

end Rearranged

theorem perm_filter (p : RlcSduSegment → Bool) (xs : List RlcSduSegment) :
    (xs.filter p ++ xs.filter fun segment => !p segment).Perm xs :=
  List.filter_append_perm p xs

theorem perm_insertAll (compare : RlcSduSegment → RlcSduSegment → Int)
    (xs ys : List RlcSduSegment) :
    (xs.foldl (fun list segment => Sorted.insert compare segment list) ys).Perm (xs ++ ys) := by
  induction xs generalizing ys with
  | nil => exact .refl _
  | cons x xs ih =>
    refine (ih _).trans ?_
    exact ((Sorted.perm_insert compare x ys).append_left xs).trans List.perm_middle

theorem considerRetransmission_rearranged (segment : RlcSduSegment) (updateRetX : Bool)
    (held : List RlcSduSegment) :
    Rearranged (segment :: held) t held (t.considerRetransmission c segment updateRetX) := by
  have hinsert (t : AmTransmitter) : Rearranged (segment :: held) t held
      { t with retBuffer := t.insertToList c t.retBuffer segment } := by
    refine .of_eq ?_ rfl rfl rfl rfl rfl rfl
    have hperm := Sorted.perm_insert (t.sduListCompare c) segment t.retBuffer
    refine List.perm_iff_count.mpr fun x => ?_
    have := hperm.count_eq x
    simp only [segments, insertToList, List.count_append, List.count_cons] at this ⊢
    omega
  have hcount : Rearranged (segment :: held) t (segment :: held)
      (t.countRetransmission c segment.sdu) := by
    have hheap := map_modify RlcSdu.uncounted (f := fun sdu : RlcSdu =>
      { sdu with retransmissionCount := sdu.retransmissionCount + 1 }) (fun _ => rfl) t.heap
      segment.sdu
    rw [countRetransmission]
    dsimp only
    split_ifs
    · exact ⟨.refl _, rfl, rfl, rfl, rfl, hheap, fun i => by simp [Reported]⟩
    · exact ⟨.refl _, rfl, rfl, rfl, rfl, hheap, fun i => .rfl⟩
  rw [considerRetransmission]
  split_ifs
  · exact hcount.trans (hinsert _)
  · exact hinsert t

theorem retransmit_rearranged (segments : List RlcSduSegment) (updateRetX : Bool)
    (t : AmTransmitter) : Rearranged segments t [] (retransmit c segments updateRetX t) := by
  induction segments generalizing updateRetX t with
  | nil => exact .refl _ _
  | cons segment rest ih =>
    exact (considerRetransmission_rearranged segment updateRetX rest).trans (ih false _)

end AmTransmitter

end Quicup.Ueransim.Rlc
