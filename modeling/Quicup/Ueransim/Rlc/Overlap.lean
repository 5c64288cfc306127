import Quicup.Ueransim.Rlc.Reassembly
import Quicup.Ueransim.Rlc.ReassemblyTimer

/-!
# Segments that overlap

What is delivered when the PDUs of an SN are cut from one SDU at any octets. The receivers
put the buffered segments together as they are, so that octets that two of them have come
twice. The AM side discards a segment all octets of which are there, the UM side none.
-/

namespace Quicup.Ueransim.Rlc

open Circular

/-- A PDU that is cut from the SDU at any octets. -/
structure CutFrom (sdu : OctetString) (pdu : AmdPdu) : Prop extends IsSegment sdu pdu where
  first_iff : pdu.si.hasFirst = true ↔ pdu.so = 0

variable {sdu : OctetString} {pdu : AmdPdu}

theorem CutFrom.processed (h : CutFrom sdu pdu) : CutFrom sdu pdu.processed :=
  ⟨⟨h.data_eq, h.size_pos, h.stop_le, h.last_iff⟩, h.first_iff⟩

/-- A PDU with the first and the last octet has the SDU. -/
theorem CutFrom.data_of_full (h : CutFrom sdu pdu) (hfull : pdu.si = .full) : pdu.data = sdu := by
  have hso : pdu.so = 0 := h.first_iff.mp (by rw [hfull]; rfl)
  have hend := h.last_iff.mp (by rw [hfull]; rfl)
  rw [AmdPdu.stop, hso, Nat.zero_add] at hend
  rw [h.data_eq, hso, hend, List.drop_zero, List.take_length]

/-- The PDUs of the SN are cut from the SDU. -/
def Carries (sdu : OctetString) (sn : Int) (list : List AmdPdu) : Prop :=
  ∀ item ∈ list, item.sn = sn → CutFrom sdu item

/-- Two PDUs of the SN have no octet in common. -/
def NoOverlap (sn : Int) (list : List AmdPdu) : Prop :=
  (list.filter fun item => decide (item.sn = sn)).Pairwise Apart

/-! ## Buffers -/

section

variable {sdu : OctetString} {sn : Int} {list : List AmdPdu} {pdu : AmdPdu}

/-- What the loops visit are items of the SN, where they may leave some out. -/
theorem itemsWithSn_sublist (list : List AmdPdu) (sn : Int) :
    (itemsWithSn list sn).Sublist (list.filter fun item => decide (item.sn = sn)) := by
  have hall : (itemsWithSn list sn).filter (fun item => decide (item.sn = sn)) =
      itemsWithSn list sn :=
    List.filter_eq_self.mpr fun item hitem => decide_eq_true (mem_itemsWithSn hitem).2
  rw [← hall]
  exact ((List.takeWhile_prefix _).sublist.trans (List.dropWhile_suffix _).sublist).filter _

theorem deleteDelivered_sublist (m : Int) (turns : Nat) (list : List AmdPdu) (n : Int) :
    (deleteDelivered m turns list n).1.Sublist list := by
  induction turns generalizing list n with
  | zero => exact .refl list
  | succ turns ih =>
    rcases list with _ | ⟨item, rest⟩
    · exact .refl []
    · rw [deleteDelivered]
      split_ifs
      · exact ((ih _ _).trans (List.dropWhile_suffix _).sublist).cons item
      · exact .refl _

namespace Carries

theorem sublist {list' : List AmdPdu} (h : Carries sdu sn list) (hsub : list'.Sublist list) :
    Carries sdu sn list' :=
  fun item hitem => h item (hsub.subset hitem)

theorem insert (h : Carries sdu sn list) (hpdu : pdu.sn = sn → CutFrom sdu pdu)
    (snCompare : Int → Int → Int) : Carries sdu sn (insertToRxBuffer list pdu snCompare) := by
  intro item hitem
  rcases Sorted.mem_insert.mp hitem with rfl | hitem
  · exact hpdu
  · exact h item hitem

theorem markProcessed (h : Carries sdu sn list) (sn' : Int) :
    Carries sdu sn (Rlc.markProcessed list sn') := by
  intro item hitem hsn
  obtain ⟨other, hother, rfl | rfl⟩ := exists_of_mem_markProcessed hitem
  · exact h item hother hsn
  · exact (h other hother hsn).processed

theorem of_reassemble (h : Carries sdu sn list) {sn' : Int} {marked : List AmdPdu}
    {out : OctetString} (hrun : reassemble list sn' = .ok (marked, out)) :
    Carries sdu sn marked ∧ out = reassembled list sn' := by
  rw [reassemble] at hrun
  split_ifs at hrun
  obtain ⟨rfl, rfl⟩ := Prod.mk.inj (Except.ok.inj hrun)
  exact ⟨h.markProcessed sn', rfl⟩

/-- The octets that are put together are the SDU exactly if no two of the segments overlap. -/
theorem reassembled_eq_iff (h : Carries sdu sn list)
    (hall : isAllSegmentsReceived list sn = true) :
    reassembled list sn = sdu ↔ (itemsWithSn list sn).Pairwise Apart := by
  have hitems : ∀ item ∈ itemsWithSn list sn, IsSegment sdu item := fun item hitem =>
    (h item (mem_itemsWithSn hitem).1 (mem_itemsWithSn hitem).2).toIsSegment
  have hiff := flatMap_data_iff (k := 0) (reachesLast_of_isAllSegmentsReceived hall) hitems
  rw [List.drop_zero] at hiff
  rw [reassembled, hiff]
  exact and_iff_left fun item _ => Nat.zero_le item.so

end Carries

/-- A buffer into which a PDU has been inserted is free of overlaps if the PDU and the items
before are. -/
theorem NoOverlap.itemsWithSn_insert (h : NoOverlap sn (pdu :: list))
    (snCompare : Int → Int → Int) :
    (itemsWithSn (insertToRxBuffer list pdu snCompare) sn).Pairwise Apart := by
  have hperm : (insertToRxBuffer list pdu snCompare).Perm (pdu :: list) := Sorted.perm_insert ..
  refine List.Pairwise.sublist (itemsWithSn_sublist _ sn) ?_
  exact (hperm.filter _).symm.pairwise h fun {a b} hab => hab.symm

end

/-! ## AM entities -/

namespace AmReceiver

variable {c : AmConfig} {r r' : AmReceiver} {sdu : OctetString} {sn : Int} {pdu : AmdPdu}
  {s : Except Fault AmReceiver} {events : List Event}

theorem carries_deliver (h : Carries sdu sn r.rxBuffer) {x : Int} {out : OctetString}
    (hrun : r.deliver c x = .ok (r', out)) :
    Carries sdu sn r'.rxBuffer ∧ out = reassembled r.rxBuffer x := by
  obtain ⟨⟨marked, octets⟩, hreassemble, hrun⟩ := Fallible.bind_eq_ok.mp hrun
  obtain ⟨rxHighestStatus, _, hrun⟩ := Fallible.bind_eq_ok.mp hrun
  obtain ⟨rfl, rfl⟩ := Prod.mk.inj (Except.ok.inj hrun)
  obtain ⟨hmarked, hout⟩ := h.of_reassemble hreassemble
  refine ⟨?_, hout⟩
  dsimp only
  rw [nextBehind]
  split_ifs
  · exact hmarked.sublist (deleteDelivered_sublist ..)
  · exact hmarked

/-- What a reception leaves in the buffer, and what it delivers. -/
theorem carries_receiveAmdPdu (h : Carries sdu sn r.rxBuffer) (hpdu : pdu.sn = sn → CutFrom sdu pdu)
    {stale : Bool} {out : Option OctetString} (hrun : r.receiveAmdPdu c stale pdu = .ok (r', out)) :
    Carries sdu sn r'.rxBuffer ∧ ∀ octets, out = some octets → r.completes c pdu = true ∧
      octets = reassembled (r.place c pdu).rxBuffer pdu.sn := by
  rw [receiveAmdPdu] at hrun
  by_cases hdiscards : r.discards c pdu = true
  · rw [if_pos hdiscards] at hrun
    obtain ⟨rfl, rfl⟩ := Prod.mk.inj (Except.ok.inj hrun)
    rw [(ite_triggerStatus_buffer r pdu.p).1]
    exact ⟨h, fun octets hsome => absurd hsome (by simp)⟩
  rw [if_neg hdiscards] at hrun
  obtain ⟨⟨placed, sent⟩, hactions, hrun⟩ := Fallible.bind_eq_ok.mp hrun
  obtain ⟨rfl, rfl⟩ := Prod.mk.inj (Except.ok.inj hrun)
  rw [(ite_triggerStatus_buffer ..).1]
  have hplace : Carries sdu sn (r.place c pdu).rxBuffer := h.insert hpdu _
  obtain ⟨hbuffer, _, _⟩ := updateNextHighest_buffer c (r.place c pdu) pdu.sn
  rw [← hbuffer] at hplace
  rw [actionsOnReception] at hactions
  dsimp only at hactions
  split_ifs at hactions with hall
  · obtain ⟨⟨delivered, octets⟩, hdeliver, hactions⟩ := Fallible.bind_eq_ok.mp hactions
    obtain ⟨rfl, rfl⟩ := Prod.mk.inj (Except.ok.inj hactions)
    obtain ⟨hcarries, hout⟩ := carries_deliver hplace hdeliver
    rw [(updateReassembly_buffer c delivered).1]
    rw [hbuffer] at hall hout
    refine ⟨hcarries, fun octets' hsome => ?_⟩
    obtain ⟨_, hsome⟩ := Option.ite_none_right_eq_some.mp hsome
    obtain rfl := Option.some.inj hsome
    exact ⟨decide_eq_true ⟨hdiscards, hall⟩, hout⟩
  · obtain ⟨rfl, rfl⟩ := Prod.mk.inj (Except.ok.inj hactions)
    rw [(updateReassembly_buffer c _).1]
    exact ⟨hplace, fun octets hsome => absurd hsome (by simp)⟩

theorem rxBuffer_of_timerCycle {currentTime : Int} (hrun : r.timerCycle c currentTime = .ok r') :
    r'.rxBuffer = r.rxBuffer := by
  rw [timerCycle] at hrun
  dsimp only at hrun
  split_ifs at hrun
  · obtain ⟨rxHighestStatus, _, hrun⟩ := Fallible.bind_eq_ok.mp hrun
    obtain rfl := Except.ok.inj hrun
    split_ifs <;> rfl
  · obtain rfl := Except.ok.inj hrun
    rfl

/-- A PDU that arrives under the SN is cut from the SDU. -/
def Arrives (sdu : OctetString) (sn : Int) (event : Event) : Prop :=
  ∀ pdu stale, event = .amd pdu stale → pdu.sn = sn → CutFrom sdu pdu

/-- The receiver while the SN stands for the SDU: what it has under the SN at first and all
that arrives under it is cut from the SDU. -/
def carrying (c : AmConfig) (sdu : OctetString) (sn : Int) :
    System (Except Fault AmReceiver) Event where
  init s := ∃ r, s = .ok r ∧ Carries sdu sn r.rxBuffer
  step s event s' := Step c s event s' ∧ Arrives sdu sn event

/-- What is delivered under the SN is the SDU. -/
def Exact (c : AmConfig) (sdu : OctetString) (sn : Int) (s : Except Fault AmReceiver)
    (event : Event) (_ : Except Fault AmReceiver) : Prop :=
  ∀ r r' pdu stale out, s = .ok r → event = .amd pdu stale → pdu.sn = sn →
    r.receiveAmdPdu c stale pdu = .ok (r', some out) → out = sdu

/-- A PDU that completes the SN overlaps no segment of it, and these do not overlap. -/
def Trimmed (c : AmConfig) (sn : Int) (s : Except Fault AmReceiver) (event : Event) : Prop :=
  ∀ r pdu stale, s = .ok r → event = .amd pdu stale → pdu.sn = sn → r.completes c pdu = true →
    NoOverlap sn (pdu :: r.rxBuffer)

theorem carries_of_run {P : Except Fault AmReceiver → Event → Prop}
    (h : (carrying c sdu sn).Run P events s) : ∀ r, s = .ok r → Carries sdu sn r.rxBuffer := by
  apply h.invariant
  · rintro _ ⟨r, rfl, hcarries⟩ r' hr'
    obtain rfl := Except.ok.inj hr'
    exact hcarries
  · rintro s event s' hs _ ⟨hstep, harrives⟩ r' hr'
    cases hstep with
    | @amd r pdu stale hdec =>
      obtain ⟨⟨u, out⟩, hrun, rfl⟩ := Fallible.map_eq_ok.mp hr'
      exact (carries_receiveAmdPdu (hs r rfl) (harrives pdu stale rfl) hrun).1
    | @timerCycle r currentTime =>
      rw [rxBuffer_of_timerCycle hr']
      exact hs r rfl
    | @status r =>
      rw [← Except.ok.inj hr']
      exact hs r rfl

/-- A step in which nothing overlaps delivers the SDU. -/
theorem exact_step {s' : Except Fault AmReceiver} {event : Event}
    (h : ∀ r, s = .ok r → Carries sdu sn r.rxBuffer) (harrives : Arrives sdu sn event)
    (htrimmed : Trimmed c sn s event) : Exact c sdu sn s event s' := by
  rintro r r' pdu stale out rfl rfl rfl hrun
  have hpdu := harrives pdu stale rfl
  have hcarries := h r rfl
  obtain ⟨hcompletes, rfl⟩ := (carries_receiveAmdPdu hcarries hpdu hrun).2 out rfl
  have hall := (of_decide_eq_true hcompletes).2
  have hplace : Carries sdu pdu.sn (r.place c pdu).rxBuffer := hcarries.insert hpdu _
  refine (hplace.reassembled_eq_iff hall).mpr ?_
  exact (htrimmed r pdu stale rfl rfl rfl hcompletes).itemsWithSn_insert _

theorem stepsRun_exact (h : (carrying c sdu sn).Run (Trimmed c sn) events s) :
    (carrying c sdu sn).StepsRun (Exact c sdu sn) events s :=
  h.stepsRun carries_of_run fun _ _ _ hcarries htrimmed hstep =>
    exact_step hcarries hstep.2 htrimmed

end AmReceiver

/-! ## UM entities -/

namespace UmReceiver

variable {c : UmConfig} {r u : UmReceiver} {sdu : OctetString} {sn x : Int} {pdu : UmdPdu}
  {s : Except Fault UmReceiver} {events : List PduEvent}

/-- The PDU is placed and completes its SDU. -/
def completes (c : UmConfig) (r : UmReceiver) (pdu : UmdPdu) : Bool :=
  pdu.si ≠ .full ∧ r.discards c pdu = false ∧
    isAllSegmentsReceived (r.place c pdu).rxBuffer pdu.sn

theorem rxBuffer_updateReassembly (c : UmConfig) (r : UmReceiver) :
    (r.updateReassembly c).rxBuffer = r.rxBuffer := by
  have hstop : (r.stopReassembly c).rxBuffer = r.rxBuffer := by
    rw [stopReassembly]
    split_ifs <;> rfl
  rw [updateReassembly]
  split_ifs
  · exact hstop
  · exact hstop

theorem carries_deliver (h : Carries sdu sn r.rxBuffer) {out : OctetString}
    (hrun : r.deliver c x = .ok (u, out)) :
    Carries sdu sn u.rxBuffer ∧ out = reassembled r.rxBuffer x := by
  obtain ⟨⟨marked, octets⟩, hreassemble, hrun⟩ := Fallible.bind_eq_ok.mp hrun
  obtain ⟨rxNextReassembly, _, hrun⟩ := Fallible.bind_eq_ok.mp hrun
  obtain ⟨rfl, rfl⟩ := Prod.mk.inj (Except.ok.inj hrun)
  exact h.of_reassemble hreassemble

/-- The window moves without another PDU in the buffer. -/
theorem carries_moveWindow (h : Carries sdu sn r.rxBuffer) (hrun : r.moveWindow c x = .ok u) :
    Carries sdu sn u.rxBuffer := by
  have hleft : Carries sdu sn ((r.updateNextHighest c x).discardOutside c).rxBuffer :=
    h.sublist List.filter_sublist
  rw [moveWindow, reassemblyInside] at hrun
  split_ifs at hrun
  · obtain ⟨rxNextReassembly, _, hrun⟩ := Fallible.bind_eq_ok.mp hrun
    rw [← Except.ok.inj hrun]
    exact hleft
  · rw [← Except.ok.inj hrun]
    exact hleft

/-- What a reception leaves in the buffer, and what it delivers. -/
theorem carries_receiveUmdPdu (h : Carries sdu sn r.rxBuffer)
    (hpdu : pdu.si ≠ .full → pdu.sn = sn → CutFrom sdu pdu) {out : Option OctetString}
    (hrun : r.receiveUmdPdu c pdu = .ok (u, out)) :
    Carries sdu sn u.rxBuffer ∧ ∀ octets, out = some octets →
      pdu.si = .full ∧ octets = pdu.data ∨
      r.completes c pdu = true ∧ octets = reassembled (r.place c pdu).rxBuffer pdu.sn := by
  rw [receiveUmdPdu] at hrun
  split_ifs at hrun with hempty hfull hdiscards
  · obtain ⟨rfl, rfl⟩ := Prod.mk.inj (Except.ok.inj hrun)
    exact ⟨h, fun octets hsome => absurd hsome (by simp)⟩
  · obtain ⟨rfl, rfl⟩ := Prod.mk.inj (Except.ok.inj hrun)
    exact ⟨h, fun octets hsome => .inl ⟨hfull, (Option.some.inj hsome).symm⟩⟩
  · obtain ⟨rfl, rfl⟩ := Prod.mk.inj (Except.ok.inj hrun)
    exact ⟨h, fun octets hsome => absurd hsome (by simp)⟩
  have hplace : Carries sdu sn (r.place c pdu).rxBuffer := h.insert (hpdu hfull) _
  rw [actionsOnReception] at hrun
  split_ifs at hrun with hall hbeyond
  · obtain ⟨⟨delivered, octets⟩, hdeliver, hrun⟩ := Fallible.bind_eq_ok.mp hrun
    obtain ⟨rfl, rfl⟩ := Prod.mk.inj (Except.ok.inj hrun)
    obtain ⟨hcarries, hout⟩ := carries_deliver hplace hdeliver
    rw [rxBuffer_updateReassembly]
    refine ⟨hcarries, fun octets' hsome => .inr ?_⟩
    obtain ⟨_, hsome⟩ := Option.ite_none_right_eq_some.mp hsome
    obtain rfl := Option.some.inj hsome
    exact ⟨decide_eq_true ⟨hfull, Bool.eq_false_iff.mpr hdiscards, hall⟩, hout⟩
  · obtain ⟨moved, hmove, hrun⟩ := Fallible.bind_eq_ok.mp hrun
    obtain ⟨rfl, rfl⟩ := Prod.mk.inj (Except.ok.inj hrun)
    rw [rxBuffer_updateReassembly]
    exact ⟨carries_moveWindow hplace hmove, fun octets hsome => absurd hsome (by simp)⟩
  · obtain ⟨rfl, rfl⟩ := Prod.mk.inj (Except.ok.inj hrun)
    rw [rxBuffer_updateReassembly]
    exact ⟨hplace, fun octets hsome => absurd hsome (by simp)⟩

theorem carries_timerCycle (h : Carries sdu sn r.rxBuffer) {currentTime : Int}
    (hrun : r.timerCycle c currentTime = .ok u) : Carries sdu sn u.rxBuffer := by
  rw [timerCycle] at hrun
  split_ifs at hrun
  · obtain ⟨rxNextReassembly, _, hrun⟩ := Fallible.bind_eq_ok.mp hrun
    dsimp only at hrun
    rw [← Except.ok.inj hrun]
    split_ifs <;> exact h.sublist List.filter_sublist
  · rw [← Except.ok.inj hrun]
    exact h

/-- What happens to the receiver, where a PDU has been decoded. -/
inductive PduEvent
  | umd (pdu : UmdPdu)
  | timerCycle (currentTime : Int)
  | reestablishment

def nextPdu (c : UmConfig) (r : UmReceiver) : PduEvent → Except Fault UmReceiver
  | .umd pdu => (r.receiveUmdPdu c pdu).map Prod.fst
  | .timerCycle currentTime => r.next c (.timerCycle currentTime)
  | .reestablishment => r.next c .reestablishment

/-- A segment that arrives under the SN is cut from the SDU. A PDU with a whole SDU has no
SN. -/
def Arrives (sdu : OctetString) (sn : Int) (event : PduEvent) : Prop :=
  ∀ pdu, event = .umd pdu → pdu.si ≠ .full → pdu.sn = sn → CutFrom sdu pdu

/-- The receiver while the SN stands for the SDU: what it has under the SN at first and all
that arrives under it is cut from the SDU. -/
def carrying (c : UmConfig) (sdu : OctetString) (sn : Int) :
    System (Except Fault UmReceiver) PduEvent where
  init s := ∃ r, s = .ok r ∧ Carries sdu sn r.rxBuffer
  step s event s' := s' = (s >>= fun r => r.nextPdu c event) ∧ Arrives sdu sn event

/-- What is delivered under the SN is the SDU, and so is what is delivered when a PDU has
the whole of it. -/
def Exact (c : UmConfig) (sdu : OctetString) (sn : Int) (s : Except Fault UmReceiver)
    (event : PduEvent) (_ : Except Fault UmReceiver) : Prop :=
  ∀ r u pdu out, s = .ok r → event = .umd pdu →
    (pdu.si = .full ∧ CutFrom sdu pdu ∨ pdu.si ≠ .full ∧ pdu.sn = sn) →
    r.receiveUmdPdu c pdu = .ok (u, some out) → out = sdu

/-- A segment that completes the SN overlaps no other one of it, and these do not overlap. -/
def Trimmed (c : UmConfig) (sn : Int) (s : Except Fault UmReceiver) (event : PduEvent) : Prop :=
  ∀ r pdu, s = .ok r → event = .umd pdu → pdu.sn = sn → r.completes c pdu = true →
    NoOverlap sn (pdu :: r.rxBuffer)

theorem carries_of_run {P : Except Fault UmReceiver → PduEvent → Prop}
    (h : (carrying c sdu sn).Run P events s) : ∀ r, s = .ok r → Carries sdu sn r.rxBuffer := by
  apply h.invariant
  · rintro _ ⟨r, rfl, hcarries⟩ r' hr'
    obtain rfl := Except.ok.inj hr'
    exact hcarries
  · rintro s event s' hs _ ⟨hstep, harrives⟩ u hu
    obtain ⟨r, rfl, hnext⟩ := Fallible.bind_eq_ok.mp (hstep.symm.trans hu)
    cases event with
    | umd pdu =>
      obtain ⟨⟨u', out⟩, hrun, rfl⟩ := Fallible.map_eq_ok.mp hnext
      exact (carries_receiveUmdPdu (hs r rfl) (harrives pdu rfl) hrun).1
    | timerCycle currentTime => exact carries_timerCycle (hs r rfl) hnext
    | reestablishment =>
      rw [nextPdu, next] at hnext
      split_ifs at hnext
      rw [← Except.ok.inj hnext]
      exact fun item hitem => absurd hitem List.not_mem_nil

/-- A step in which nothing overlaps delivers the SDU. -/
theorem exact_step {s' : Except Fault UmReceiver} {event : PduEvent}
    (h : ∀ r, s = .ok r → Carries sdu sn r.rxBuffer) (harrives : Arrives sdu sn event)
    (htrimmed : Trimmed c sn s event) : Exact c sdu sn s event s' := by
  rintro r u pdu out rfl rfl hsegment hrun
  have hpdu := harrives pdu rfl
  have hcarries := h r rfl
  rcases (carries_receiveUmdPdu hcarries hpdu hrun).2 out rfl with
    ⟨hfull, rfl⟩ | ⟨hcompletes, rfl⟩
  · rcases hsegment with ⟨_, hcut⟩ | ⟨hnot, _⟩
    · exact hcut.data_of_full hfull
    · exact absurd hfull hnot
  · obtain ⟨hnot, _, hall⟩ := of_decide_eq_true hcompletes
    obtain ⟨_, rfl⟩ := hsegment.resolve_left fun hfull => hnot hfull.1
    have hplace : Carries sdu pdu.sn (r.place c pdu).rxBuffer := hcarries.insert (hpdu hnot) _
    refine (hplace.reassembled_eq_iff hall).mpr ?_
    exact (htrimmed r pdu rfl rfl rfl hcompletes).itemsWithSn_insert _

theorem stepsRun_exact (h : (carrying c sdu sn).Run (Trimmed c sn) events s) :
    (carrying c sdu sn).StepsRun (Exact c sdu sn) events s :=
  h.stepsRun carries_of_run fun _ _ _ hcarries htrimmed hstep =>
    exact_step hcarries hstep.2 htrimmed

end UmReceiver

/-- While no segments of the SN overlap, what both sides deliver under it is the SDU. -/
theorem receivers_exact (sdu : OctetString) (sn : Int) :
    (∀ c events s, (AmReceiver.carrying c sdu sn).Run (AmReceiver.Trimmed c sn) events s →
      (AmReceiver.carrying c sdu sn).StepsRun (AmReceiver.Exact c sdu sn) events s) ∧
    (∀ c events s, (UmReceiver.carrying c sdu sn).Run (UmReceiver.Trimmed c sn) events s →
      (UmReceiver.carrying c sdu sn).StepsRun (UmReceiver.Exact c sdu sn) events s) :=
  ⟨fun _ _ _ => AmReceiver.stepsRun_exact, fun _ _ _ => UmReceiver.stepsRun_exact⟩

/-! ### An SDU of three octets -/

def firstOctet : AmdPdu := ⟨.first, 0, 0, [1], false, false⟩
def firstTwo : AmdPdu := ⟨.first, 0, 0, [1, 2], false, false⟩
def lastTwo : AmdPdu := ⟨.last, 1, 0, [2, 3], false, false⟩

theorem cutFrom_firstOctet : CutFrom [1, 2, 3] firstOctet :=
  ⟨⟨by decide, by decide, by decide, by decide⟩, by decide⟩

theorem cutFrom_firstTwo : CutFrom [1, 2, 3] firstTwo :=
  ⟨⟨by decide, by decide, by decide, by decide⟩, by decide⟩

theorem cutFrom_lastTwo : CutFrom [1, 2, 3] lastTwo :=
  ⟨⟨by decide, by decide, by decide, by decide⟩, by decide⟩

theorem apart_firstOctet_lastTwo : Apart firstOctet lastTwo := by
  rintro o ⟨⟨_, hlt⟩, hle, _⟩
  exact absurd (hle.trans_lt hlt) (lt_irrefl 1)

/-- The last two octets have come. -/
def amLast : AmReceiver :=
  { AmReceiver.cleared .test with
    rxBuffer := [lastTwo], rxCurrentSize := 2, rxNextHighest := 1 }

def umLast : UmReceiver :=
  { UmReceiver.cleared UmReceiver.shortSn with
    rxBuffer := [lastTwo], rxCurrentSize := 2, rxNextHighest := 1 }

theorem carries_last : Carries [1, 2, 3] 0 [lastTwo] := by
  intro item hitem _
  rw [List.mem_singleton.mp hitem]
  exact cutFrom_lastTwo

theorem noOverlap_last : NoOverlap 0 [firstOctet, lastTwo] :=
  List.pairwise_pair.mpr apart_firstOctet_lastTwo

theorem am_arrives {pdu : AmdPdu} (h : CutFrom [1, 2, 3] pdu) (stale : Bool) :
    AmReceiver.Arrives [1, 2, 3] 0 (.amd pdu stale) := by
  rintro _ _ hevent _
  obtain ⟨rfl, _⟩ := AmReceiver.Event.amd.inj hevent
  exact h

theorem um_arrives {pdu : UmdPdu} (h : CutFrom [1, 2, 3] pdu) :
    UmReceiver.Arrives [1, 2, 3] 0 (.umd pdu) := by
  rintro _ hevent _ _
  obtain rfl := UmReceiver.PduEvent.umd.inj hevent
  exact h

/-- The first octet comes behind the last two. -/
theorem receivers_exact_last :
    (∃ s, (AmReceiver.carrying .test [1, 2, 3] 0).StepsRun (AmReceiver.Exact .test [1, 2, 3] 0)
      [.amd firstOctet false] s) ∧
    (∃ s, (UmReceiver.carrying UmReceiver.shortSn [1, 2, 3] 0).StepsRun
      (UmReceiver.Exact UmReceiver.shortSn [1, 2, 3] 0) [.umd firstOctet] s) := by
  refine ⟨⟨_, (receivers_exact [1, 2, 3] 0).1 _ _ _ (System.Run.single ⟨amLast, rfl, carries_last⟩
      ?_ ⟨.amd ⟨by decide, by decide, by decide, rfl⟩, am_arrives cutFrom_firstOctet _⟩)⟩,
    ⟨_, (receivers_exact [1, 2, 3] 0).2 _ _ _ (System.Run.single ⟨umLast, rfl, carries_last⟩
      ?_ ⟨rfl, um_arrives cutFrom_firstOctet⟩)⟩⟩
  · rintro r pdu stale hr hevent _ _
    obtain rfl := Except.ok.inj hr
    obtain ⟨rfl, _⟩ := AmReceiver.Event.amd.inj hevent
    exact noOverlap_last
  · rintro r pdu hr hevent _ _
    obtain rfl := Except.ok.inj hr
    obtain rfl := UmReceiver.PduEvent.umd.inj hevent
    exact noOverlap_last

/-- The first two octets have come. -/
def amFirst : AmReceiver :=
  { AmReceiver.cleared .test with
    rxBuffer := [firstTwo], rxCurrentSize := 2, rxNextHighest := 1 }

/-- The first octet has come. -/
def umFirst : UmReceiver :=
  { UmReceiver.cleared UmReceiver.shortSn with
    rxBuffer := [firstOctet], rxCurrentSize := 1, rxNextHighest := 1 }

/-- The first octet has come twice. -/
def umTwice : UmReceiver :=
  { umFirst with rxBuffer := [firstOctet, firstOctet], rxCurrentSize := 2 }

/-- The AM side delivers an octet twice that two overlapping segments have, and the UM side
a segment twice that has come twice. -/
theorem receivers_not_exact :
    (∃ s, (AmReceiver.carrying .test [1, 2, 3] 0).Run System.unrestricted
        [.amd firstTwo false] s ∧
      ∃ s', (AmReceiver.carrying .test [1, 2, 3] 0).step s (.amd lastTwo false) s' ∧
        ¬ AmReceiver.Exact .test [1, 2, 3] 0 s (.amd lastTwo false) s') ∧
    (∃ s, (UmReceiver.carrying UmReceiver.shortSn [1, 2, 3] 0).Run System.unrestricted
        ([.umd firstOctet] ++ [.umd firstOctet]) s ∧
      ∃ s', (UmReceiver.carrying UmReceiver.shortSn [1, 2, 3] 0).step s (.umd lastTwo) s' ∧
        ¬ UmReceiver.Exact UmReceiver.shortSn [1, 2, 3] 0 s (.umd lastTwo) s') := by
  have hnone (sdu : OctetString) (sn : Int) : Carries sdu sn [] :=
    fun item hitem => absurd hitem List.not_mem_nil
  have hfirst : Except.ok umFirst =
      (Except.ok (UmReceiver.cleared UmReceiver.shortSn) : Except Fault UmReceiver) >>= fun r =>
        r.nextPdu UmReceiver.shortSn (.umd firstOctet) := by
    decide
  have htwice : Except.ok umTwice =
      (Except.ok umFirst : Except Fault UmReceiver) >>= fun r =>
        r.nextPdu UmReceiver.shortSn (.umd firstOctet) := by
    decide
  refine ⟨⟨.ok amFirst, .single ⟨.cleared .test, rfl, hnone [1, 2, 3] 0⟩ trivial
      ⟨?_, am_arrives cutFrom_firstTwo _⟩, _,
      ⟨.amd ⟨by decide, by decide, by decide, rfl⟩, am_arrives cutFrom_lastTwo _⟩,
      fun hexact => ?_⟩,
    ⟨.ok umTwice, .snoc (.single ⟨.cleared UmReceiver.shortSn, rfl, hnone [1, 2, 3] 0⟩ trivial
        ⟨hfirst, um_arrives cutFrom_firstOctet⟩) trivial
        ⟨htwice, um_arrives cutFrom_firstOctet⟩, _,
      ⟨rfl, um_arrives cutFrom_lastTwo⟩, fun hexact => ?_⟩⟩
  · exact .of_receive ⟨by decide, by decide, by decide, rfl⟩ (by decide)
  · have hout := hexact amFirst
      { amFirst with rxBuffer := [], rxCurrentSize := 0, rxNext := 1, rxHighestStatus := 1 }
      lastTwo false [1, 2, 2, 3] rfl rfl rfl (by decide)
    exact absurd hout (by decide)
  · have hout := hexact umTwice
      { umTwice with
        rxBuffer := [firstOctet.processed, firstOctet.processed, lastTwo.processed]
        rxCurrentSize := 0
        rxNextReassembly := 1 }
      lastTwo [1, 1, 2, 3] rfl rfl (.inr ⟨by decide, rfl⟩) (by decide)
    exact absurd hout (by decide)

end Quicup.Ueransim.Rlc
