import Quicup.Ueransim.Rls.Link

/-!
# PDUs that wait for an acknowledgement

What a control task does to the PDUs of one peer while it handles the traffic of others. The map
is kept by the identifiers of PDUs alone. An acknowledgement takes out the PDU with its identifier
whoever has sent it, and an identifier in use or a full map takes out all of them.
-/

namespace Quicup.Ueransim

namespace RlsControlTask

/-- How a PDU may leave the map: it is acknowledged by its peer, its time is over and it is
reported, or a link failure is reported for a submission to its peer. -/
inductive Departs (pdu : PduInfo) : RlsInput → List RlsCtlOutput → Prop
  | acknowledged {sti pduIds out} : pdu.id ∈ pduIds →
      Departs pdu (.message pdu.endPointId (.pduTransmissionAck sti pduIds)) out
  | expired {time out} : time - pdu.sentTime > maxPduTtl → pdu ∈ RlsLink.failed out →
      Departs pdu (.ackControl time) out
  | linkFailed {time pduId channel data cause out} : .radioLinkFailure cause ∈ out →
      Departs pdu (.rrcDelivery time pdu.endPointId pduId channel data) out

/-- The PDUs that a turn takes out of the map leave as they may. -/
def Releases (side : RlsSide) (task : RlsControlTask) (input : RlsInput) (t : RlsControlTask) :
    Prop :=
  ∀ out, task.handle side input = .ok (t, out) → ∀ id pdu, task.pduMap.lookup id = some pdu →
    t.pduMap.lookup id ≠ some pdu → Departs pdu input out

/-- All PDUs that wait are addressed to an end point. -/
def AllOf (task : RlsControlTask) (endPointId : Int) : Prop :=
  ∀ id pdu, task.pduMap.lookup id = some pdu → pdu.endPointId = endPointId

/-- How many PDUs may wait before another one is submitted. -/
def maxPduCount : RlsSide → Nat
  | .ue => Ue.maxPduCount
  | .gnb => Gnb.maxPduCount

/-- What is acknowledged is addressed to the peer that acknowledges it. Where an identifier is in
use or the map is full, all that waits is addressed to the peer of the submission. -/
def OwnTraffic (side : RlsSide) (task : RlsControlTask) : RlsInput → Prop
  | .message endPointId (.pduTransmissionAck _ pduIds) => ∀ id ∈ pduIds, ∀ pdu,
      task.pduMap.lookup id = some pdu → pdu.endPointId = endPointId
  | .rrcDelivery _ endPointId pduId _ _ => pduId ≠ 0 →
      (task.pduMap.lookup pduId).isSome ∨ task.pduMap.entries.length > maxPduCount side →
      task.AllOf endPointId
  | _ => True

/-- A control task, from its start on. -/
def system (side : RlsSide) : System RlsControlTask RlsInput where
  init task := task.pduMap = ∅ ∧ task.pendingAck = ∅
  step task input t := ∃ out, task.handle side input = .ok (t, out)

variable {side : RlsSide} {task t : RlsControlTask} {input : RlsInput} {out : List RlsCtlOutput}
  {time endPointId : Int} {pduId channel : UInt32} {data : OctetString}

/-- PDUs are kept under their identifiers. -/
def Keyed (task : RlsControlTask) : Prop := ∃ awaiting, task.Waits awaiting

theorem Keyed.id_eq (h : task.Keyed) {id : UInt32} {pdu : PduInfo}
    (hpdu : task.pduMap.lookup id = some pdu) : pdu.id = id := by
  obtain ⟨awaiting, hwaits⟩ := h
  exact (hwaits id pdu hpdu).1

theorem Keyed.step (h : task.Keyed) (hrun : task.handle side input = .ok (t, out)) : t.Keyed := by
  obtain ⟨awaiting, hwaits⟩ := h
  exact ⟨_, hwaits.handle side input hrun⟩

theorem keyed {P : RlsControlTask → RlsInput → Prop} {events : List RlsInput}
    (h : (system side).Run P events task) : task.Keyed := by
  apply h.invariant
  · rintro task ⟨hpdus, -⟩
    refine ⟨[], fun id pdu hpdu => ?_⟩
    rw [hpdus] at hpdu
    cases hpdu
  · rintro task input t hkeyed - ⟨out, hrun⟩
    exact hkeyed.step hrun

/-! ## Turns -/

theorem handle_rrcDelivery
    (hrun : task.handle side (.rrcDelivery time endPointId pduId channel data) = .ok (t, out)) :
    task.deliverRrc (maxPduCount side) time endPointId pduId channel data = (t, out) := by
  cases side with
  | ue => exact Except.ok.inj hrun
  | gnb =>
    rw [handle, Gnb.handleDownlinkRrcDelivery] at hrun
    split at hrun
    · cases hrun
    · exact Except.ok.inj hrun

/-- A submission either clears the map or keeps what is there. -/
theorem deliverRrc_pduMap (task : RlsControlTask) (bound : Nat) (time endPointId : Int)
    (pduId channel : UInt32) (data : OctetString) :
    (pduId ≠ 0 ∧ ((task.pduMap.lookup pduId).isSome ∨ task.pduMap.entries.length > bound) ∧
        ∃ cause, task.deliverRrc bound time endPointId pduId channel data =
          ({ task with pduMap := ∅ }, [.radioLinkFailure cause])) ∨
      (¬(pduId ≠ 0 ∧
          ((task.pduMap.lookup pduId).isSome ∨ task.pduMap.entries.length > bound)) ∧
        ∀ id pdu, task.pduMap.lookup id = some pdu →
          (task.deliverRrc bound time endPointId pduId channel data).1.pduMap.lookup id =
            some pdu) := by
  by_cases hid : pduId = 0
  · refine .inr ⟨fun h => h.1 hid, fun id pdu hpdu => ?_⟩
    rwa [deliverRrc, if_neg (not_not.mpr hid)]
  · rw [deliverRrc, if_pos hid]
    by_cases huse : (task.pduMap.lookup pduId).isSome
    · rw [if_pos huse]
      exact .inl ⟨hid, .inl huse, .pduIdExists, rfl⟩
    · rw [if_neg huse]
      by_cases hfull : task.pduMap.entries.length > bound
      · rw [if_pos hfull]
        exact .inl ⟨hid, .inr hfull, .pduIdFull, rfl⟩
      · rw [if_neg hfull]
        refine .inr ⟨fun h => h.2.elim huse hfull, fun id pdu hpdu => ?_⟩
        have hne : id ≠ pduId := by
          rintro rfl
          exact huse (by rw [hpdu]; rfl)
        rw [AList.lookup_insert_ne hne]
        exact hpdu

theorem releases_rrcDelivery_iff
    (hrun : task.handle side (.rrcDelivery time endPointId pduId channel data) = .ok (t, out)) :
    task.Releases side (.rrcDelivery time endPointId pduId channel data) t ↔
      task.OwnTraffic side (.rrcDelivery time endPointId pduId channel data) := by
  have hdeliver := handle_rrcDelivery hrun
  rcases task.deliverRrc_pduMap (maxPduCount side) time endPointId pduId channel data with
    ⟨hid, hoverflow, cause, hclear⟩ | ⟨hroom, hkept⟩
  · obtain ⟨rfl, rfl⟩ := Prod.mk.inj (hdeliver.symm.trans hclear)
    constructor
    · intro hreleases _ _ id pdu hpdu
      have hdeparts := hreleases _ hrun id pdu hpdu (Option.some_ne_none pdu).symm
      cases hdeparts
      rfl
    · intro hown out' hrun' id pdu hpdu _
      obtain ⟨-, rfl⟩ := Prod.mk.inj (Except.ok.inj (hrun.symm.trans hrun'))
      obtain rfl := hown hid hoverflow id pdu hpdu
      exact .linkFailed (List.mem_singleton_self _)
  · rw [hdeliver] at hkept
    constructor
    · exact fun _ hid hoverflow => absurd ⟨hid, hoverflow⟩ hroom
    · exact fun _ _ _ id pdu hpdu hgone => absurd (hkept id pdu hpdu) hgone

theorem releases_acknowledge_iff (hkeyed : task.Keyed) {sti : UInt64} {pduIds : List UInt32}
    (hrun : task.handle side (.message endPointId (.pduTransmissionAck sti pduIds)) =
      .ok (t, out)) :
    task.Releases side (.message endPointId (.pduTransmissionAck sti pduIds)) t ↔
      task.OwnTraffic side (.message endPointId (.pduTransmissionAck sti pduIds)) := by
  have ht : t = task.acknowledge pduIds := by
    cases side <;> exact (congrArg Prod.fst (Except.ok.inj hrun)).symm
  have hlookup (id : UInt32) : t.pduMap.lookup id =
      if id ∈ pduIds then none else task.pduMap.lookup id := by
    rw [ht, acknowledge, lookup_foldl_erase]
  constructor
  · intro hreleases id hid pdu hpdu
    have hgone : t.pduMap.lookup id ≠ some pdu := by
      rw [hlookup, if_pos hid]
      exact (Option.some_ne_none pdu).symm
    cases hreleases out hrun id pdu hpdu hgone
    rfl
  · intro hown out' hrun' id pdu hpdu hgone
    by_cases hid : id ∈ pduIds
    · obtain rfl := hown id hid pdu hpdu
      exact .acknowledged (hkeyed.id_eq hpdu ▸ hid)
    · rw [hlookup, if_neg hid] at hgone
      exact absurd hpdu hgone

/-- What is taken out at the expiry of the timer is reported. -/
theorem releases_ackControl (hrun : task.handle side (.ackControl time) = .ok (t, out)) :
    task.Releases side (.ackControl time) t := by
  intro out' hrun' id pdu hpdu hgone
  have hout : task.onAckControlTimerExpired time = (t, out') := by
    cases side <;> exact Except.ok.inj hrun'
  have ht : t = (task.onAckControlTimerExpired time).1 := (congrArg Prod.fst hout).symm
  have hreported : out' = (task.onAckControlTimerExpired time).2 := (congrArg Prod.snd hout).symm
  have hlookup : t.pduMap.lookup id =
      if id ∈ (task.overdue time).map Sigma.fst then none else task.pduMap.lookup id := by
    rw [ht, onAckControlTimerExpired, lookup_foldl_erase]
  by_cases hid : id ∈ (task.overdue time).map Sigma.fst
  · obtain ⟨item, hitem, rfl⟩ := List.mem_map.mp hid
    obtain ⟨hentry, hlate⟩ := List.mem_filter.mp hitem
    have hsame : item.2 = pdu :=
      Option.some.inj ((AList.mem_lookup_iff.mpr hentry).symm.trans hpdu)
    have hmem : pdu ∈ (task.overdue time).map Sigma.snd := hsame ▸ List.mem_map_of_mem hitem
    refine .expired (hsame ▸ of_decide_eq_true hlate) ?_
    have hne : ((task.overdue time).map Sigma.snd).isEmpty = false := by
      rw [List.isEmpty_eq_false_iff]
      exact List.ne_nil_of_mem hmem
    rw [hreported, onAckControlTimerExpired]
    dsimp only
    rw [hne]
    simpa [RlsLink.failed] using hmem
  · rw [hlookup, if_neg hid] at hgone
    exact absurd hpdu hgone

/-- All else keeps the map. -/
theorem releases_of_same (hsame : t.pduMap = task.pduMap) : task.Releases side input t := by
  intro out _ id pdu hpdu hgone
  rw [hsame] at hgone
  exact absurd hpdu hgone

theorem releases_iff (hkeyed : task.Keyed) (hrun : task.handle side input = .ok (t, out)) :
    task.Releases side input t ↔ task.OwnTraffic side input := by
  cases input with
  | rrcDelivery time endPointId pduId channel data => exact releases_rrcDelivery_iff hrun
  | ackControl time => exact iff_of_true (releases_ackControl hrun) trivial
  | message endPointId msg =>
    cases msg with
    | pduTransmissionAck sti pduIds => exact releases_acknowledge_iff hkeyed hrun
    | pduTransmission sti pduType pduId payload pdu =>
      refine iff_of_true (releases_of_same ?_) trivial
      have ht : t = task.owe endPointId pduId := by
        cases side <;> exact (congrArg Prod.fst (Except.ok.inj hrun)).symm
      rw [ht, owe]
      split <;> rfl
    | _ =>
      refine iff_of_true (releases_of_same ?_) trivial
      cases side <;> cases hrun <;> rfl
  | _ =>
    refine iff_of_true (releases_of_same ?_) trivial
    cases side <;> cases hrun <;> rfl

/-- The runs in which PDUs leave the map as they may are those in which no traffic of a peer
touches the PDUs of another one. -/
theorem pending_released_iff {events : List RlsInput} :
    (system side).StepsRun (Releases side) events task ↔
      (system side).Run (OwnTraffic side) events task := by
  apply System.stepsRun_iff keyed
  rintro task input t hkeyed ⟨out, hrun⟩
  exact releases_iff hkeyed hrun

/-! ## Two peers -/

/-- A PDU of the peer 1 waits. -/
private def waiting : RlsControlTask :=
  ((({ sti := 1 } : RlsControlTask).deliverRrc Gnb.maxPduCount 0 1 7 0 [1]).1)

/-- An acknowledgement of the peer 2 takes out the PDU of the peer 1 in silence. -/
theorem pending_released_by_other :
    (system .gnb).Run System.unrestricted [.rrcDelivery 0 1 7 0 [1]] waiting ∧
      (waiting.pduMap.lookup 7).map PduInfo.endPointId = some 1 ∧
      ∃ t, (system .gnb).step waiting (.message 2 (.pduTransmissionAck 2 [7])) t ∧
        t.pduMap.lookup 7 = none ∧
        ¬waiting.Releases .gnb (.message 2 (.pduTransmissionAck 2 [7])) t := by
  have hinit : (system .gnb).init { sti := 1 } := ⟨rfl, rfl⟩
  have hstep : (system .gnb).step { sti := 1 } (.rrcDelivery 0 1 7 0 [1]) waiting := ⟨_, rfl⟩
  have hrun : waiting.handle .gnb (.message 2 (.pduTransmissionAck 2 [7])) =
      .ok (waiting.acknowledge [7], []) := rfl
  refine ⟨.single hinit trivial hstep, rfl, waiting.acknowledge [7], ⟨_, hrun⟩, rfl,
    fun hreleases => ?_⟩
  cases hreleases _ hrun 7 ⟨7, [1], 0, 0, 1⟩ rfl (Option.some_ne_none _).symm

end RlsControlTask

end Quicup.Ueransim
