import Mathlib.Data.List.GetD
import Quicup.Core.System
import Quicup.Ueransim.Rlc.Transmitter
import Quicup.Ueransim.Rlc.Umd

/-!
# The transmitting side of an UM entity

The transmission buffer in `entity_um.cpp`. The first segment is taken out of it before it
is known whether it can be segmented.
-/

namespace Quicup.Ueransim.Rlc

/-! ## Segmentation -/

/-- The part of the segment that fits, and the rest. It throws when all of it fits. -/
def umPerformSegmentation (segment : RlcSduSegment) (maxSize : Int) (snLength : Nat) :
    Except Fault (Option (RlcSduSegment × RlcSduSegment)) :=
  let newSi := segment.si.asNotLast
  let nextSi := segment.si.asNotFirst
  let headerSizeAfterSeg := umdPduHeaderSize snLength newSi
  if (headerSizeAfterSeg : Int) + 1 > maxSize then .ok none
  else
    let overflowed : Int := headerSizeAfterSeg + segment.size - maxSize
    if overflowed ≤ 0 then .error .exception
    else
      let size := segment.size - overflowed.toNat
      .ok (some ({ segment with si := newSi, size },
        { segment with si := nextSi, size := overflowed.toNat, so := segment.so + size }))

/-- What is submitted of a segment, and what stays in the buffer. -/
def umSegmentToFit (segment : RlcSduSegment) (maxSize : Int) (snLength : Nat) :
    Except Fault (Option (RlcSduSegment × List RlcSduSegment)) :=
  if (umdPduHeaderSize snLength segment.si : Int) + segment.size > maxSize then do
    let parts ← umPerformSegmentation segment maxSize snLength
    return parts.map fun (front, next) => (front, [next])
  else .ok (some (segment, []))

/-- What the transmitting side of an `UmEntity` keeps, with the heap that it refers to. -/
structure UmTransmitter where
  txNext : Int := 0
  txCurrentSize : Int := 0
  txBuffer : List RlcSduSegment := []
  heap : List RlcSdu := []
  deriving DecidableEq

namespace UmTransmitter

variable (c : UmConfig) (t : UmTransmitter)

def sdu (i : Nat) : RlcSdu := t.heap.getD i default

/-- The size of what is inserted, zero when there is no room. -/
def insertSduToTransmissionBuffer (data : OctetString) (sduId : Int) : UmTransmitter × Nat :=
  if data.length = 0 ∨ t.txCurrentSize + data.length > c.txMaxSize then (t, 0)
  else
    ({ t with
      heap := t.heap ++ [{ sduId, data, refCount := 1 }]
      txBuffer := t.txBuffer ++
        [{ sdu := t.heap.length, size := data.length, so := 0, si := .full }] }, data.length)

def receiveSdu (data : OctetString) (sduId : Int) : UmTransmitter × Nat :=
  let (t, size) := t.insertSduToTransmissionBuffer c data sduId
  ({ t with txCurrentSize := t.txCurrentSize + size }, size)

/-- The SDU of the first segment gets the SN `txNext`. -/
def assignSn (i : Nat) : UmTransmitter :=
  { t with heap := t.heap.modify i fun sdu => { sdu with sn := t.txNext } }

/-- A segmented SDU has more segments. -/
def addRefs (i n : Nat) : UmTransmitter :=
  { t with heap := t.heap.modify i fun sdu => { sdu with refCount := sdu.refCount + n } }

/-- The octets that a segment stands for. -/
def dataOf (segment : RlcSduSegment) : OctetString :=
  ((t.sdu segment.sdu).data.drop segment.so).take segment.size

/-- What is counted for a segment that is submitted, and its PDU. -/
def submit (segment : RlcSduSegment) : UmTransmitter × OctetString :=
  let t := if segment.si = .last then { t with txNext := (t.txNext + 1) % c.snModulus } else t
  let t := { t with txCurrentSize := t.txCurrentSize - segment.size }
  (t, encodeUmd c.isShortSn segment.si segment.so (t.sdu segment.sdu).sn (t.dataOf segment))

/-- The PDU is empty when zero is returned. -/
def createPdu (maxSize : Int) : Except Fault (UmTransmitter × OctetString) :=
  match t.txBuffer with
  | [] => .ok (t, [])
  | segment :: rest =>
    if (umdPduHeaderSize c.snLength segment.si : Int) + 1 > maxSize then .ok (t, [])
    else do
      let t := { t.assignSn segment.sdu with txBuffer := rest }
      match ← umSegmentToFit segment maxSize c.snLength with
      | none => return (t, [])
      | some (front, next) =>
        return ({ t with txBuffer := next ++ rest }.addRefs segment.sdu next.length).submit c front

/-- What remains to be sent. -/
def remaining : OctetString := t.txBuffer.flatMap t.dataOf

/-- A segment of the buffer is a part of its SDU. -/
structure Holds (segment : RlcSduSegment) : Prop where
  size_pos : 0 < segment.size
  fits : segment.so + segment.size ≤ (t.sdu segment.sdu).size

end UmTransmitter

/-! ## Cuts -/

section

variable {segment front : RlcSduSegment} {maxSize : Int} {snLength : Nat}
  {next : List RlcSduSegment}

/-- A whole SDU has no room left behind the longer header of its first segment. -/
def Indivisible (snLength : Nat) (maxSize : Int) (segment : RlcSduSegment) : Prop :=
  snLength = 12 ∧ maxSize = 2 ∧ segment.si = .full ∧ 2 ≤ segment.size

/-- The segment starts with the front, which is followed by the next segment. -/
structure IsCut (segment front : RlcSduSegment) (next : List RlcSduSegment) : Prop where
  sdu : front.sdu = segment.sdu
  so : front.so = segment.so
  rest : next = [] ∧ front.size = segment.size ∨
    ∃ other, next = [other] ∧ other.sdu = segment.sdu ∧ other.so = segment.so + front.size ∧
      0 < other.size ∧ front.size + other.size = segment.size

theorem umdPduHeaderSize_asNotLast (hlength : snLength = 6 ∨ snLength = 12) (si : ESegmentInfo) :
    umdPduHeaderSize snLength si ≤ umdPduHeaderSize snLength si.asNotLast ∧
      (umdPduHeaderSize snLength si < umdPduHeaderSize snLength si.asNotLast →
        snLength = 12 ∧ si = .full) := by
  rcases hlength with rfl | rfl <;> cases si <;> decide

/-- With room for one octet behind the header of a segment that is not the last one. -/
theorem umPerformSegmentation_eq_some
    (hfits : (umdPduHeaderSize snLength segment.si.asNotLast : Int) + 1 ≤ maxSize)
    (hover : maxSize < (umdPduHeaderSize snLength segment.si.asNotLast : Int) + segment.size) :
    ∃ front other, umPerformSegmentation segment maxSize snLength = .ok (some (front, other)) ∧
      IsCut segment front [other] ∧ 0 < front.size ∧
        (umdPduHeaderSize snLength front.si : Int) + front.size ≤ maxSize := by
  rw [umPerformSegmentation, if_neg (by omega), if_neg (by omega)]
  refine ⟨_, _, rfl, ⟨rfl, rfl, .inr ⟨_, rfl, rfl, rfl, ?_, ?_⟩⟩, ?_, ?_⟩
  · dsimp only
    omega
  · dsimp only
    omega
  · dsimp only
    omega
  · dsimp only
    omega

/-- Where one octet fits, the segment is cut, unless it is indivisible. -/
theorem umSegmentToFit_spec (hlength : snLength = 6 ∨ snLength = 12)
    (hfits : (umdPduHeaderSize snLength segment.si : Int) + 1 ≤ maxSize)
    (hsize : 0 < segment.size) :
    (Indivisible snLength maxSize segment ∧ umSegmentToFit segment maxSize snLength = .ok none) ∨
      ¬ Indivisible snLength maxSize segment ∧
        ∃ front next, umSegmentToFit segment maxSize snLength = .ok (some (front, next)) ∧
          IsCut segment front next ∧ 0 < front.size ∧
            (umdPduHeaderSize snLength front.si : Int) + front.size ≤ maxSize := by
  obtain ⟨hle, hlonger⟩ := umdPduHeaderSize_asNotLast hlength segment.si
  by_cases hall : (umdPduHeaderSize snLength segment.si : Int) + segment.size > maxSize
  · rw [umSegmentToFit, if_pos hall]
    by_cases hnone : (umdPduHeaderSize snLength segment.si.asNotLast : Int) + 1 > maxSize
    · obtain ⟨htwelve, hfull⟩ := hlonger (by omega)
      refine .inl ⟨?_, by simp [umPerformSegmentation, hnone]⟩
      subst htwelve
      rw [hfull] at hall hnone hfits
      simp only [ESegmentInfo.asNotLast, umdPduHeaderSize] at hall hnone hfits
      refine ⟨rfl, ?_, hfull, ?_⟩
      · norm_num at hnone hfits
        omega
      · norm_num at hnone hfits
        omega
    · obtain ⟨front, other, hparts, hcut, hpos, hmax⟩ :=
        umPerformSegmentation_eq_some (not_lt.mp hnone) (by omega)
      refine .inr ⟨?_, front, [other], by rw [hparts]; rfl, hcut, hpos, hmax⟩
      rintro ⟨rfl, rfl, hfull, _⟩
      rw [hfull] at hnone
      exact hnone (by decide)
  · rw [umSegmentToFit, if_neg hall]
    refine .inr ⟨?_, segment, [], rfl, ⟨rfl, rfl, .inl ⟨rfl, rfl⟩⟩, hsize, not_lt.mp hall⟩
    rintro ⟨rfl, rfl, hfull, htwo⟩
    rw [hfull] at hall
    simp only [umdPduHeaderSize] at hall
    omega

end

/-! ## What a call leaves -/

namespace UmTransmitter

variable {c : UmConfig} {t u : UmTransmitter} {segment front : RlcSduSegment}
  {next : List RlcSduSegment}

/-- The segments of the buffer are parts of their SDUs. -/
def Sound (t : UmTransmitter) : Prop := ∀ segment ∈ t.txBuffer, t.Holds segment

theorem length_dataOf (h : t.Holds segment) : (t.dataOf segment).length = segment.size := by
  have hfits := h.fits
  rw [RlcSdu.size] at hfits
  rw [dataOf, List.length_take, List.length_drop]
  omega

/-- What is written about an SDU leaves its data. -/
theorem data_modify (heap : List RlcSdu) (i j : Nat) (f : RlcSdu → RlcSdu)
    (hf : ∀ sdu, (f sdu).data = sdu.data) :
    ((heap.modify i f).getD j default).data = (heap.getD j default).data := by
  rw [List.getD_eq_getElem?_getD, List.getD_eq_getElem?_getD, List.getElem?_modify]
  cases heap[j]? with
  | none => rfl
  | some sdu =>
    simp only [Option.getD_some]
    split
    · exact hf sdu
    · rfl

/-- A transmitter with the same SDUs, apart from what is counted of them. -/
def SameData (t u : UmTransmitter) : Prop := ∀ i, (u.sdu i).data = (t.sdu i).data

theorem SameData.dataOf (h : t.SameData u) : u.dataOf = t.dataOf := by
  funext segment
  rw [UmTransmitter.dataOf, UmTransmitter.dataOf, h]

theorem SameData.holds (h : t.SameData u) (hholds : t.Holds segment) : u.Holds segment :=
  ⟨hholds.size_pos, by rw [RlcSdu.size, h]; exact hholds.fits⟩

/-- The front and the next segment have the data of the segment between them. -/
theorem dataOf_cut (hcut : IsCut segment front next) :
    t.dataOf front ++ next.flatMap t.dataOf = t.dataOf segment := by
  rcases hcut.rest with ⟨rfl, hsize⟩ | ⟨other, rfl, hsdu, hso, _, hsum⟩
  · rw [List.flatMap_nil, List.append_nil, dataOf, dataOf, hcut.sdu, hcut.so, hsize]
  · rw [List.flatMap_singleton, dataOf, dataOf, dataOf, hcut.sdu, hcut.so, hsdu, hso, ← hsum,
      List.take_add, List.drop_drop]

theorem holds_cut (hholds : t.Holds segment) (hcut : IsCut segment front next)
    (hpos : 0 < front.size) : t.Holds front ∧ ∀ other ∈ next, t.Holds other := by
  have hfits := hholds.fits
  rcases hcut.rest with ⟨rfl, hsize⟩ | ⟨other, rfl, hsdu, hso, hother, hsum⟩
  · exact ⟨⟨hpos, by rw [hcut.so, hcut.sdu, hsize]; exact hfits⟩, by simp⟩
  · refine ⟨⟨hpos, by rw [hcut.so, hcut.sdu]; omega⟩, fun other' hmem => ?_⟩
    obtain rfl := List.mem_singleton.mp hmem
    exact ⟨hother, by rw [hso, hsdu]; omega⟩

theorem sameData_assignSn (i : Nat) : t.SameData (t.assignSn i) :=
  fun j => data_modify t.heap i j _ fun _ => rfl

theorem sameData_addRefs (i n : Nat) : t.SameData (t.addRefs i n) :=
  fun j => data_modify t.heap i j _ fun _ => rfl

theorem SameData.trans {v : UmTransmitter} (h : t.SameData u) (h' : u.SameData v) :
    t.SameData v := fun i => (h' i).trans (h i)

@[simp] theorem submit_txBuffer (segment : RlcSduSegment) :
    (t.submit c segment).1.txBuffer = t.txBuffer := by
  rw [submit]
  split <;> rfl

theorem sameData_submit (segment : RlcSduSegment) : t.SameData (t.submit c segment).1 := by
  rw [submit]
  split <;> exact fun _ => rfl

/-- The PDU of a segment has its data field, and the size of the header on top. -/
theorem submit_pdu (h : t.Holds segment) :
    umdDataField c.snLength (t.submit c segment).2 = t.dataOf segment ∧
      (t.submit c segment).2.length = umdPduHeaderSize c.snLength segment.si + segment.size := by
  have hlength := length_dataOf h
  rw [submit, UmConfig.isShortSn]
  split
  · rw [umdDataField_encodeUmd, length_encodeUmd]
    exact ⟨rfl, congrArg (umdPduHeaderSize c.snLength segment.si + ·) hlength⟩
  · rw [umdDataField_encodeUmd, length_encodeUmd]
    exact ⟨rfl, congrArg (umdPduHeaderSize c.snLength segment.si + ·) hlength⟩

variable {maxSize : Int}

/-- The size that the first segment is given makes it indivisible. -/
def Stuck (c : UmConfig) (t : UmTransmitter) (maxSize : Int) : Prop :=
  ∃ segment rest, t.txBuffer = segment :: rest ∧ Indivisible c.snLength maxSize segment

/-- The segment is gone, and no PDU is built. -/
theorem createPdu_of_stuck (hsound : t.Sound) (h : t.Stuck c maxSize) :
    ∃ u, t.createPdu c maxSize = .ok (u, []) ∧ u.txBuffer ≠ t.txBuffer := by
  obtain ⟨segment, rest, hbuffer, hstuck⟩ := h
  have hholds := hsound segment (by simp [hbuffer])
  have hfits : (umdPduHeaderSize c.snLength segment.si : Int) + 1 ≤ maxSize := by
    rw [hstuck.2.1, hstuck.2.2.1]
    exact le_rfl
  rcases umSegmentToFit_spec c.snLength_eq hfits hholds.size_pos with ⟨_, hnone⟩ | ⟨hnot, _⟩
  · refine ⟨{ t.assignSn segment.sdu with txBuffer := rest }, ?_, ?_⟩
    · simp only [createPdu, hbuffer, if_neg (not_lt.mpr hfits), hnone]
      rfl
    · rw [hbuffer]
      exact (List.cons_ne_self segment rest).symm
  · exact absurd hstuck hnot

/-- Otherwise nothing is built and nothing changes, or the PDU fits and has what is gone from
the buffer. -/
theorem createPdu_of_not_stuck (hsound : t.Sound) (h : ¬ t.Stuck c maxSize) :
    ∃ u pdu, t.createPdu c maxSize = .ok (u, pdu) ∧ u.Sound ∧
      umdDataField c.snLength pdu ++ u.remaining = t.remaining ∧
        (pdu = [] ∧ u = t ∨ pdu ≠ [] ∧ (pdu.length : Int) ≤ maxSize) := by
  cases hbuffer : t.txBuffer with
  | nil =>
    refine ⟨t, [], by simp only [createPdu, hbuffer], hsound, ?_, .inl ⟨rfl, rfl⟩⟩
    simp [umdDataField]
  | cons segment rest =>
    by_cases hroom : (umdPduHeaderSize c.snLength segment.si : Int) + 1 > maxSize
    · refine ⟨t, [], by simp only [createPdu, hbuffer, if_pos hroom], hsound, ?_,
        .inl ⟨rfl, rfl⟩⟩
      simp [umdDataField]
    have hholds := hsound segment (by simp [hbuffer])
    rcases umSegmentToFit_spec c.snLength_eq (not_lt.mp hroom) hholds.size_pos with
      ⟨hstuck, _⟩ | ⟨_, front, next, hfit, hcut, hpos, hmax⟩
    · exact absurd ⟨segment, rest, hbuffer, hstuck⟩ h
    let u := { t.assignSn segment.sdu with txBuffer := next ++ rest }.addRefs segment.sdu next.length
    have hsame : t.SameData u := by
      have hassign : t.SameData { t.assignSn segment.sdu with txBuffer := next ++ rest } :=
        t.sameData_assignSn segment.sdu
      exact hassign.trans (sameData_addRefs segment.sdu next.length)
    obtain ⟨hfront, hnext⟩ := holds_cut hholds hcut hpos
    obtain ⟨hfield, hlength⟩ := submit_pdu (c := c) (hsame.holds hfront)
    have hsubmit := sameData_submit (c := c) (t := u) front
    refine ⟨(u.submit c front).1, (u.submit c front).2, ?_, ?_, ?_, .inr ⟨?_, ?_⟩⟩
    · simp only [createPdu, hbuffer, if_neg hroom, hfit]
      rfl
    · intro other hmem
      refine (hsame.trans hsubmit).holds ?_
      rw [submit_txBuffer] at hmem
      rcases List.mem_append.mp hmem with hmem | hmem
      · exact hnext other hmem
      · exact hsound other (by simp [hbuffer, hmem])
    · have hrest : (u.submit c front).1.remaining = next.flatMap t.dataOf ++
          rest.flatMap t.dataOf := by
        rw [remaining, submit_txBuffer, (hsame.trans hsubmit).dataOf, ← List.flatMap_append]
        rfl
      rw [hfield, hrest, congrFun hsame.dataOf front, ← List.append_assoc, dataOf_cut hcut,
        remaining, hbuffer, List.flatMap_cons]
    · rw [ne_eq, ← List.length_eq_zero_iff, hlength]
      omega
    · rw [hlength]
      exact_mod_cast hmax

/-- An accepted SDU is what remains behind the others. -/
theorem receiveSdu_spec (hsound : t.Sound) (data : OctetString) (sduId : Int) :
    (t.receiveSdu c data sduId).1.Sound ∧
      (t.receiveSdu c data sduId).1.remaining =
        t.remaining ++ data.take (t.receiveSdu c data sduId).2 := by
  rw [receiveSdu, insertSduToTransmissionBuffer]
  split_ifs with hroom
  · have hsame : t.SameData { t with txCurrentSize := t.txCurrentSize + (0 : Nat) } :=
      fun _ => rfl
    refine ⟨fun segment hmem => hsame.holds (hsound segment hmem), ?_⟩
    exact (List.append_nil t.remaining).symm
  have hpos : 0 < data.length := by omega
  have hold (segment : RlcSduSegment) (hholds : t.Holds segment) :
      (t.heap ++ [({ sduId, data, refCount := 1 } : RlcSdu)]).getD segment.sdu default =
        t.sdu segment.sdu := by
    have hlt : segment.sdu < t.heap.length := by
      by_contra hge
      have hfits := hholds.fits
      have hsize := hholds.size_pos
      rw [sdu, List.getD_eq_default _ _ (not_lt.mp hge)] at hfits
      have hempty : (default : RlcSdu).size = 0 := rfl
      omega
    rw [sdu, List.getD_append _ _ _ _ hlt]
  have hnew : (t.heap ++ [({ sduId, data, refCount := 1 } : RlcSdu)]).getD t.heap.length default =
      { sduId, data, refCount := 1 } := by
    rw [List.getD_append_right _ _ _ _ le_rfl]
    simp
  refine ⟨fun segment hmem => ?_, ?_⟩
  · rcases List.mem_append.mp hmem with hmem | hmem
    · have hholds := hsound segment hmem
      exact ⟨hholds.size_pos, by rw [sdu, hold segment hholds]; exact hholds.fits⟩
    · obtain rfl := List.mem_singleton.mp hmem
      refine ⟨hpos, ?_⟩
      rw [sdu, hnew]
      simp [RlcSdu.size]
  · simp only [remaining, List.flatMap_append, List.flatMap_singleton, List.take_length]
    congr 1
    · apply List.flatMap_congr
      intro segment hmem
      rw [dataOf, dataOf, sdu, hold segment (hsound segment hmem)]
    · rw [dataOf, sdu, hnew, List.drop_zero, List.take_length]

end UmTransmitter

/-! ## Runs -/

/-- A transmitter with the octets that it has accepted and those that it has sent. -/
structure UmSending where
  transmitter : UmTransmitter := {}
  accepted : OctetString := []
  emitted : OctetString := []
  deriving DecidableEq

namespace UmSending

inductive Event
  | receiveSdu (data : OctetString) (sduId : Int)
  | createPdu (maxSize : Int)

def next (c : UmConfig) (s : UmSending) : Event → Except Fault UmSending
  | .receiveSdu data sduId =>
    let (transmitter, size) := s.transmitter.receiveSdu c data sduId
    .ok { s with transmitter, accepted := s.accepted ++ data.take size }
  | .createPdu maxSize => do
    let (transmitter, pdu) ← s.transmitter.createPdu c maxSize
    return { s with transmitter, emitted := s.emitted ++ umdDataField c.snLength pdu }

/-- The runs of an entity that is new. Nothing happens behind a fault. -/
def system (c : UmConfig) : System (Except Fault UmSending) Event where
  init s := s = .ok {}
  step s event s' := s' = s >>= fun sending => sending.next c event

/-- What was sent and what remains is what was accepted. -/
def Conserved (s : UmSending) : Prop := s.emitted ++ s.transmitter.remaining = s.accepted

/-- The step returns and loses no octet; a PDU fits, and without one the buffer, the SN and
the size are those from before. -/
def Faithful (c : UmConfig) (s : Except Fault UmSending) (event : Event)
    (s' : Except Fault UmSending) : Prop :=
  ∃ a b, s = .ok a ∧ s' = .ok b ∧ b.Conserved ∧
    ∀ maxSize, event = .createPdu maxSize →
      ∃ t pdu, a.transmitter.createPdu c maxSize = .ok (t, pdu) ∧
        (pdu ≠ [] → (pdu.length : Int) ≤ maxSize) ∧
        (pdu = [] → t.txBuffer = a.transmitter.txBuffer ∧ t.txNext = a.transmitter.txNext ∧
          t.txCurrentSize = a.transmitter.txCurrentSize)

/-- The size of a PDU does not make the first segment indivisible. -/
def Divides (c : UmConfig) (s : Except Fault UmSending) (event : Event) : Prop :=
  ∀ a maxSize, s = .ok a → event = .createPdu maxSize → ¬ a.transmitter.Stuck c maxSize

variable {c : UmConfig} {s s' : Except Fault UmSending} {event : Event}

/-- What is known of the states of runs that divide. -/
def Kept (s : Except Fault UmSending) : Prop :=
  ∃ a, s = .ok a ∧ a.transmitter.Sound ∧ a.Conserved

theorem kept_step (h : Kept s) (hdivides : Divides c s event) (hstep : (system c).step s event s') :
    Kept s' ∧ Faithful c s event s' := by
  obtain ⟨a, rfl, hsound, hconserved⟩ := h
  rw [Conserved] at hconserved
  cases event with
  | receiveSdu data sduId =>
    obtain ⟨hsound', hremaining⟩ := a.transmitter.receiveSdu_spec hsound (c := c) data sduId
    have hkept : ({ a with
        transmitter := (a.transmitter.receiveSdu c data sduId).1
        accepted := a.accepted ++ data.take (a.transmitter.receiveSdu c data sduId).2 } :
        UmSending).Conserved := by
      rw [Conserved, hremaining, ← List.append_assoc, hconserved]
    exact ⟨⟨_, hstep, hsound', hkept⟩, a, _, rfl, hstep, hkept, fun maxSize h => by cases h⟩
  | createPdu maxSize =>
    obtain ⟨t, pdu, hcreate, hsound', hdata, hpdu⟩ :=
      UmTransmitter.createPdu_of_not_stuck hsound (hdivides a maxSize rfl rfl)
    have hnext : s' = .ok { a with
        transmitter := t, emitted := a.emitted ++ umdDataField c.snLength pdu } := by
      rw [hstep]
      simp only [Fallible.ok_bind, next, hcreate]
      rfl
    have hkept : ({ a with
        transmitter := t
        emitted := a.emitted ++ umdDataField c.snLength pdu } : UmSending).Conserved := by
      rw [Conserved, List.append_assoc, hdata, hconserved]
    refine ⟨⟨_, hnext, hsound', hkept⟩, a, _, rfl, hnext, hkept, fun size hsize => ?_⟩
    obtain rfl : maxSize = size := Event.createPdu.inj hsize
    refine ⟨t, pdu, hcreate, fun hne => ?_, fun hnil => ?_⟩
    · rcases hpdu with ⟨hnil, _⟩ | ⟨_, hle⟩
      · exact absurd hnil hne
      · exact hle
    · rcases hpdu with ⟨_, rfl⟩ | ⟨hne, _⟩
      · exact ⟨rfl, rfl, rfl⟩
      · exact absurd hnil hne

theorem kept_of_run {events : List Event} (h : (system c).Run (Divides c) events s) : Kept s := by
  apply h.invariant
  · rintro _ rfl
    exact ⟨{}, rfl, fun segment hmem => absurd hmem List.not_mem_nil, rfl⟩
  · exact fun s event s' hkept hdivides hstep => (kept_step hkept hdivides hstep).1

/-- A step is faithful exactly if it divides. -/
theorem faithful_iff (h : Kept s) (hstep : (system c).step s event s') :
    Faithful c s event s' ↔ Divides c s event := by
  refine ⟨fun hfaithful => ?_, fun hdivides => (kept_step h hdivides hstep).2⟩
  rintro a maxSize rfl rfl hstuck
  obtain ⟨_, hsame, hsound, _⟩ := h
  obtain rfl := Except.ok.inj hsame
  obtain ⟨_, _, hsame', _, _, hpdu⟩ := hfaithful
  obtain rfl := Except.ok.inj hsame'
  obtain ⟨t, pdu, hcreate, _, hunchanged⟩ := hpdu maxSize rfl
  obtain ⟨u, hu, hne⟩ := UmTransmitter.createPdu_of_stuck hsound hstuck
  obtain ⟨rfl, rfl⟩ := Prod.mk.inj (Except.ok.inj (hcreate.symm.trans hu))
  exact hne (hunchanged rfl).1

/-- The runs all of whose steps are faithful are the runs in which no whole SDU of two octets
or more is first in the buffer when two octets are offered under a long SN. -/
theorem runs_faithful_iff (c : UmConfig) (events : List Event) (s : Except Fault UmSending) :
    (system c).StepsRun (Faithful c) events s ↔ (system c).Run (Divides c) events s :=
  System.stepsRun_iff kept_of_run fun _ _ _ => faithful_iff

/-- An entity with SNs of twelve bits. -/
def longSn : UmConfig where
  snLength         := 12
  txMaxSize        := 1024
  rxMaxSize        := 1024
  reassemblyPeriod := 400
  snLength_eq      := .inr rfl

/-- An SDU of two octets is dropped when two octets are offered. -/
theorem unfaithful_step :
    ∃ s, (system longSn).Run System.unrestricted [.receiveSdu [1, 2] 7] s ∧
      ∃ s', (system longSn).step s (.createPdu 2) s' ∧ ¬ Faithful longSn s (.createPdu 2) s' := by
  refine ⟨.ok ⟨⟨0, 2, [⟨0, 2, 0, .full⟩], [⟨7, [1, 2], -1, -1, 1⟩]⟩, [1, 2], []⟩, ?_,
    .ok ⟨⟨0, 2, [], [⟨7, [1, 2], 0, -1, 1⟩]⟩, [1, 2], []⟩, ?_, ?_⟩
  · exact .single rfl trivial rfl
  · rfl
  · rintro ⟨_, _, _, hs', hconserved, _⟩
    obtain rfl := Except.ok.inj hs'
    have hlost : ([] : OctetString) = [1, 2] := hconserved
    exact absurd hlost (by decide)

end UmSending

end Quicup.Ueransim.Rlc
