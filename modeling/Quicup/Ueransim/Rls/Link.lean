import Quicup.Core.System
import Quicup.Ueransim.Rls.CtlTask

/-!
# The acknowledged link between UE and gNB

The two control tasks, the messages in flight between them and the timers of both.
Messages are delivered in any order, lost or duplicated. A task that owes an
acknowledgement at the expiry of its timer sends nothing.
-/

namespace Quicup.Ueransim

open Function

inductive RlsSide
  | ue
  | gnb
  deriving DecidableEq

def RlsSide.peer : RlsSide → RlsSide
  | ue  => gnb
  | gnb => ue

/-- What a control task takes from its queue. -/
inductive RlsInput
  | rrcDelivery (time endPointId : Int) (pduId channel : UInt32) (data : OctetString)
  | dataDelivery (endPointId : Int) (psi : Int32) (data : OctetString)
  | assignCurrentCell (cellId : Int)
  | message (endPointId : Int) (msg : RlsMessage)
  | ackControl (time : Int)
  | ackSend
  deriving DecidableEq

namespace RlsControlTask

/-- One turn of `onLoop`. -/
def handle (task : RlsControlTask) :
    RlsSide → RlsInput → Except Fault (RlsControlTask × List RlsCtlOutput)
  | .ue, .rrcDelivery time cellId pduId channel data =>
    .ok (Ue.handleUplinkRrcDelivery task time cellId pduId channel data)
  | .gnb, .rrcDelivery time ueId pduId channel data =>
    Gnb.handleDownlinkRrcDelivery task time ueId pduId channel data
  | .ue, .dataDelivery _ psi data => .ok (task, Ue.handleUplinkDataDelivery task psi data)
  | .gnb, .dataDelivery ueId psi data =>
    .ok (task, Gnb.handleDownlinkDataDelivery task ueId psi data)
  | .ue, .assignCurrentCell cellId => .ok (Ue.assignCurrentCell task cellId, [])
  | .gnb, .assignCurrentCell _ => .ok (task, [])
  | .ue, .message cellId msg => .ok (Ue.handleRlsMessage task cellId msg)
  | .gnb, .message ueId msg => .ok (Gnb.handleRlsMessage task ueId msg)
  | _, .ackControl time => .ok (task.onAckControlTimerExpired time)
  | _, .ackSend => .ok task.onAckSendTimerExpired

end RlsControlTask

/-- One side of the link: its task, the messages in flight to it, the PDUs received
since it last sent acknowledgements, and those it has sent, with the time, for which no
acknowledgement has arrived. -/
structure RlsParty where
  task : RlsControlTask
  inFlight : List RlsMessage := []
  received : List (Int × UInt32) := []
  awaiting : List (UInt32 × Int) := []

namespace RlsParty

/-- The received PDUs that are to be acknowledged. -/
def receivedAfter (received : List (Int × UInt32)) : RlsInput → List (Int × UInt32)
  | .message endPointId (.pduTransmission _ _ pduId _ _) =>
    if pduId ≠ 0 then received ++ [(endPointId, pduId)] else received
  | .ackSend => []
  | _ => received

/-- The PDUs that wait for an acknowledgement, where a link failure sends none. -/
def awaitingAfter (awaiting : List (UInt32 × Int)) (out : List RlsCtlOutput) :
    RlsInput → List (UInt32 × Int)
  | .message _ (.pduTransmissionAck _ pduIds) => awaiting.filter fun pdu => pdu.1 ∉ pduIds
  | .rrcDelivery time _ pduId _ _ =>
    if out.any fun o => o matches .send .. then awaiting ++ [(pduId, time)] else awaiting
  | _ => awaiting

def after (party : RlsParty) (input : RlsInput) (task : RlsControlTask)
    (out : List RlsCtlOutput) : RlsParty where
  task := task
  inFlight := party.inFlight
  received := receivedAfter party.received input
  awaiting := awaitingAfter party.awaiting out input

end RlsParty

/-- The parties, by their side. -/
abbrev RlsLink := RlsSide → RlsParty

inductive RlsLinkEvent
  | input (side : RlsSide) (input : RlsInput)
  | deliver (side : RlsSide) (msg : RlsMessage)
  | lose (side : RlsSide)
  | duplicate (side : RlsSide)

namespace RlsLink

/-- The messages that go to an end point. -/
def sentTo (endPointId : Int) (out : List RlsCtlOutput) : List RlsMessage :=
  out.filterMap fun
    | .send id msg => if id = endPointId then some msg else none
    | _ => none

/-- A side has handled an input, and what it sends to its peer is in flight. -/
def handled (link : RlsLink) (peerId : Int) (side : RlsSide) (input : RlsInput)
    (task : RlsControlTask) (out : List RlsCtlOutput) : RlsLink :=
  let peer := link side.peer
  update
    (update link side.peer { peer with inFlight := peer.inFlight ++ sentTo peerId out })
    side ((link side).after input task out)

def withInFlight (link : RlsLink) (side : RlsSide) (inFlight : List RlsMessage) : RlsLink :=
  update link side { link side with inFlight }

/-- The steps of a link whose sides know each other by the given ids. Inputs that are no
messages of the peer are arbitrary. -/
inductive Step (peerId : RlsSide → Int) : RlsLink → RlsLinkEvent → RlsLink → Prop
  | input {link side input task out} :
      (∀ msg, input ≠ .message (peerId side) msg) →
      (link side).task.handle side input = .ok (task, out) →
      Step peerId link (.input side input) (link.handled (peerId side) side input task out)
  | deliver {link side msg inFlight task out} :
      (link side).inFlight.Perm (msg :: inFlight) →
      (link side).task.handle side (.message (peerId side) msg) = .ok (task, out) →
      Step peerId link (.deliver side msg)
        ((link.withInFlight side inFlight).handled (peerId side) side
          (.message (peerId side) msg) task out)
  | lose {link side msg inFlight} : (link side).inFlight.Perm (msg :: inFlight) →
      Step peerId link (.lose side) (link.withInFlight side inFlight)
  | duplicate {link side msg} : msg ∈ (link side).inFlight →
      Step peerId link (.duplicate side) (link.withInFlight side (msg :: (link side).inFlight))

def system (peerId : RlsSide → Int) : System RlsLink RlsLinkEvent where
  init link := ∀ side, ∃ task, link side = { task } ∧ task.pduMap = ∅ ∧ task.pendingAck = ∅
  step := Step peerId

/-! ## Acknowledgement -/

/-- How often a PDU is acknowledged to an end point. -/
def acknowledgements (out : List RlsCtlOutput) (endPointId : Int) (pduId : UInt32) : Nat :=
  (out.map fun
    | .send id (.pduTransmissionAck _ pduIds) =>
      if id = endPointId then pduIds.count pduId else 0
    | _ => 0).sum

/-- The PDUs whose transmission is reported as failed. -/
def failed (out : List RlsCtlOutput) : List PduInfo :=
  out.flatMap fun
    | .transmissionFailure pduList => pduList
    | _ => []

/-- At the expiry of its timer a side acknowledges every received PDU once to where it
came from. A PDU is reported only when its time is over without an acknowledgement. -/
def Acknowledged (link : RlsLink) : RlsLinkEvent → Prop
  | .input side .ackSend => ∀ endPointId pduId,
    acknowledgements (link side).task.onAckSendTimerExpired.2 endPointId pduId =
      (link side).received.count (endPointId, pduId)
  | .input side (.ackControl time) =>
    ∀ pdu ∈ failed ((link side).task.onAckControlTimerExpired time).2,
      (pdu.id, pdu.sentTime) ∈ (link side).awaiting ∧
        time - pdu.sentTime > RlsControlTask.maxPduTtl
  | _ => True

/-- No PDU was received since the timer expired before. -/
def NothingOwed (link : RlsLink) : RlsLinkEvent → Prop
  | .input side .ackSend => (link side).received = []
  | _ => True

end RlsLink

namespace RlsControlTask

variable {task t : RlsControlTask} {received : List (Int × UInt32)} {awaiting : List (UInt32 × Int)}
  {out : List RlsCtlOutput} {pduId : UInt32}

/-! ## What a task owes and waits for -/

/-- The owed acknowledgements are those of the received PDUs, by end point. No list of
them is empty. -/
structure Owes (task : RlsControlTask) (received : List (Int × UInt32)) : Prop where
  lists : ∀ endPointId, (task.pendingAck.lookup endPointId).getD [] =
    (received.filter fun pdu => pdu.1 = endPointId).map Prod.snd
  nonempty : ∀ endPointId pduIds, task.pendingAck.lookup endPointId = some pduIds → pduIds ≠ []

/-- The PDUs of the map are kept under their identifiers and wait since they were sent. -/
def Waits (task : RlsControlTask) (awaiting : List (UInt32 × Int)) : Prop :=
  ∀ id pdu, task.pduMap.lookup id = some pdu → pdu.id = id ∧ (id, pdu.sentTime) ∈ awaiting

theorem Owes.same (h : task.Owes received) (hsame : t.pendingAck = task.pendingAck) :
    t.Owes received :=
  ⟨hsame ▸ h.lists, hsame ▸ h.nonempty⟩

theorem Owes.owe (h : task.Owes received) (endPointId : Int) (hid : pduId ≠ 0) :
    (task.owe endPointId pduId).Owes (received ++ [(endPointId, pduId)]) := by
  simp only [RlsControlTask.owe, if_pos hid]
  refine ⟨fun other => ?_, fun other pduIds hlist => ?_⟩
  · by_cases hother : other = endPointId
    · subst hother
      simp [h.lists]
    · rw [AList.lookup_insert_ne hother, h.lists]
      simp [Ne.symm hother]
  · by_cases hother : other = endPointId
    · rw [hother, AList.lookup_insert] at hlist
      rw [← Option.some.inj hlist]
      simp
    · rw [AList.lookup_insert_ne hother] at hlist
      exact h.nonempty other pduIds hlist

/-- Nothing is sent when all lists that are owed have an entry. -/
theorem Owes.ackSend_silent (h : task.Owes received) : task.onAckSendTimerExpired.2 = [] := by
  rw [onAckSendTimerExpired, List.map_eq_nil_iff, List.filter_eq_nil_iff]
  intro item hitem
  have hlist := h.nonempty item.1 item.2 (AList.mem_lookup_iff.mpr hitem)
  simpa using hlist

theorem Owes.message (h : task.Owes received) (side : RlsSide) (endPointId : Int) (msg : RlsMessage)
    (hrun : task.handle side (.message endPointId msg) = .ok (t, out)) :
    t.Owes (RlsParty.receivedAfter received (.message endPointId msg)) := by
  cases msg with
  | pduTransmission sti pduType pduId payload pdu =>
    have ht : t = task.owe endPointId pduId := by
      cases side <;> exact (congrArg Prod.fst (Except.ok.inj hrun)).symm
    rw [ht, RlsParty.receivedAfter]
    by_cases hid : pduId = 0
    · rw [if_neg (not_not.mpr hid)]
      refine h.same ?_
      rw [RlsControlTask.owe, if_neg (not_not.mpr hid)]
    · rw [if_pos hid]
      exact h.owe endPointId hid
  | _ =>
    refine h.same ?_
    cases side <;> cases hrun <;> rfl

theorem deliverRrc_pendingAck (task : RlsControlTask) (maxPduCount : Nat)
    (time endPointId : Int) (pduId channel : UInt32) (data : OctetString) :
    (task.deliverRrc maxPduCount time endPointId pduId channel data).1.pendingAck =
      task.pendingAck := by
  simp only [deliverRrc]
  split
  · split
    · rfl
    · split <;> rfl
  · rfl

/-- Both tasks handle an RRC delivery in the same way, when the gNB's handles it. -/
theorem deliverRrc_of_handle {side : RlsSide} {time endPointId : Int} {channel : UInt32}
    {data : OctetString}
    (hrun : task.handle side (.rrcDelivery time endPointId pduId channel data) = .ok (t, out)) :
    ∃ maxPduCount, task.deliverRrc maxPduCount time endPointId pduId channel data = (t, out) := by
  cases side with
  | ue => exact ⟨Ue.maxPduCount, Except.ok.inj hrun⟩
  | gnb =>
    rw [handle, Gnb.handleDownlinkRrcDelivery] at hrun
    split at hrun
    · exact nomatch hrun
    · exact ⟨Gnb.maxPduCount, Except.ok.inj hrun⟩

theorem Owes.handle (h : task.Owes received) (side : RlsSide) (input : RlsInput)
    (hrun : task.handle side input = .ok (t, out)) :
    t.Owes (RlsParty.receivedAfter received input) := by
  cases input with
  | message endPointId msg => exact h.message side endPointId msg hrun
  | ackSend =>
    cases side <;> cases hrun <;> exact ⟨fun _ => rfl, fun _ _ hlist => nomatch hlist⟩
  | rrcDelivery time endPointId pduId channel data =>
    obtain ⟨maxPduCount, hr⟩ := deliverRrc_of_handle hrun
    refine h.same ?_
    have hpending := deliverRrc_pendingAck task maxPduCount time endPointId pduId channel data
    rwa [hr] at hpending
  | _ =>
    refine h.same ?_
    cases side <;> cases hrun <;> rfl

theorem Waits.same (h : task.Waits awaiting) (hsame : t.pduMap = task.pduMap) :
    t.Waits awaiting := by
  rw [Waits, hsame]
  exact h

theorem Waits.deliverRrc (h : task.Waits awaiting) (maxPduCount : Nat) (time endPointId : Int)
    (pduId channel : UInt32) (data : OctetString) :
    let r := task.deliverRrc maxPduCount time endPointId pduId channel data
    r.1.Waits (RlsParty.awaitingAfter awaiting r.2
      (.rrcDelivery time endPointId pduId channel data)) := by
  intro r id pdu hpdu
  simp only [r, RlsControlTask.deliverRrc] at hpdu ⊢
  by_cases hid : pduId = 0
  · rw [if_neg (not_not.mpr hid)] at hpdu ⊢
    obtain ⟨hkey, hmem⟩ := h id pdu hpdu
    exact ⟨hkey, List.mem_append_left _ hmem⟩
  rw [if_pos hid] at hpdu ⊢
  split at hpdu
  · exact nomatch hpdu
  rename_i hnew
  rw [if_neg hnew]
  split at hpdu
  · exact nomatch hpdu
  rename_i hroom
  rw [if_neg hroom]
  by_cases hsame : id = pduId
  · rw [hsame, AList.lookup_insert] at hpdu
    rw [← Option.some.inj hpdu, hsame]
    exact ⟨rfl, List.mem_append_right _ List.mem_cons_self⟩
  · rw [AList.lookup_insert_ne hsame] at hpdu
    obtain ⟨hkey, hmem⟩ := h id pdu hpdu
    exact ⟨hkey, List.mem_append_left _ hmem⟩

theorem Waits.acknowledge (h : task.Waits awaiting) (pduIds : List UInt32) :
    (task.acknowledge pduIds).Waits (awaiting.filter fun pdu => pdu.1 ∉ pduIds) := by
  intro id pdu hpdu
  rw [RlsControlTask.acknowledge, lookup_foldl_erase] at hpdu
  split at hpdu
  · exact nomatch hpdu
  · rename_i hid
    obtain ⟨hkey, hmem⟩ := h id pdu hpdu
    exact ⟨hkey, List.mem_filter.mpr ⟨hmem, by simpa using hid⟩⟩

theorem Waits.ackControl (h : task.Waits awaiting) (time : Int) :
    (task.onAckControlTimerExpired time).1.Waits awaiting := by
  intro id pdu hpdu
  rw [onAckControlTimerExpired, lookup_foldl_erase] at hpdu
  split at hpdu
  · exact nomatch hpdu
  · exact h id pdu hpdu

theorem Waits.handle (h : task.Waits awaiting) (side : RlsSide) (input : RlsInput)
    (hrun : task.handle side input = .ok (t, out)) :
    t.Waits (RlsParty.awaitingAfter awaiting out input) := by
  cases input with
  | rrcDelivery time endPointId pduId channel data =>
    obtain ⟨maxPduCount, hr⟩ := deliverRrc_of_handle hrun
    have hwaits := h.deliverRrc maxPduCount time endPointId pduId channel data
    rwa [hr] at hwaits
  | message endPointId msg =>
    cases msg with
    | pduTransmissionAck sti pduIds =>
      cases side <;> cases hrun <;> exact h.acknowledge pduIds
    | pduTransmission sti pduType pduId payload pdu =>
      refine h.same ?_
      have ht : t = task.owe endPointId pduId := by
        cases side <;> exact (congrArg Prod.fst (Except.ok.inj hrun)).symm
      rw [ht, owe]
      split <;> rfl
    | _ => cases side <;> cases hrun <;> exact h
  | ackControl time => cases side <;> cases hrun <;> exact h.ackControl time
  | _ => cases side <;> cases hrun <;> exact h

/-- What is reported waits for longer than it may. -/
theorem Waits.failed_ackControl (h : task.Waits awaiting) (time : Int) :
    ∀ pdu ∈ RlsLink.failed (task.onAckControlTimerExpired time).2,
      (pdu.id, pdu.sentTime) ∈ awaiting ∧ time - pdu.sentTime > maxPduTtl := by
  intro pdu hpdu
  have hoverdue : pdu ∈ (task.overdue time).map Sigma.snd := by
    rw [onAckControlTimerExpired] at hpdu
    dsimp only at hpdu
    split at hpdu
    · exact nomatch hpdu
    · simpa [RlsLink.failed] using hpdu
  obtain ⟨item, hitem, rfl⟩ := List.mem_map.mp hoverdue
  obtain ⟨hentry, hlate⟩ := List.mem_filter.mp hitem
  obtain ⟨hkey, hmem⟩ := h item.1 item.2 (AList.mem_lookup_iff.mpr hentry)
  exact ⟨hkey ▸ hmem, of_decide_eq_true hlate⟩

end RlsControlTask

namespace RlsLink

variable {peerId : RlsSide → Int} {link link' : RlsLink}

/-! ## Runs of the link -/

/-- Both sides owe what they have received and wait for what they have sent. -/
def Tracked (link : RlsLink) : Prop :=
  ∀ side, (link side).task.Owes (link side).received ∧ (link side).task.Waits (link side).awaiting

theorem Tracked.withInFlight (h : link.Tracked) (side : RlsSide) (inFlight : List RlsMessage) :
    (link.withInFlight side inFlight).Tracked := by
  intro other
  by_cases hother : other = side
  · subst hother
    rw [RlsLink.withInFlight, update_self]
    exact h other
  · rw [RlsLink.withInFlight, update_of_ne hother]
    exact h other

theorem Tracked.handled (h : link.Tracked) {side : RlsSide} {input : RlsInput}
    {task : RlsControlTask} {out : List RlsCtlOutput}
    (hrun : (link side).task.handle side input = .ok (task, out)) (peer : Int) :
    (link.handled peer side input task out).Tracked := by
  obtain ⟨howes, hwaits⟩ := h side
  intro other
  by_cases hother : other = side
  · subst hother
    simp only [RlsLink.handled, update_self, RlsParty.after]
    exact ⟨howes.handle other input hrun, hwaits.handle other input hrun⟩
  · rw [RlsLink.handled, update_of_ne hother]
    exact h.withInFlight side.peer _ other

theorem Tracked.step {e : RlsLinkEvent} (h : link.Tracked) (hstep : Step peerId link e link') :
    link'.Tracked := by
  cases hstep with
  | input _ hrun => exact h.handled hrun _
  | @deliver side msg inFlight _ _ _ hrun =>
    refine (h.withInFlight side inFlight).handled ?_ _
    rw [RlsLink.withInFlight, update_self]
    exact hrun
  | lose => exact h.withInFlight _ _
  | duplicate => exact h.withInFlight _ _

theorem Tracked.init (h : (system peerId).init link) : link.Tracked := by
  intro side
  obtain ⟨task, hside, hpdus, hacks⟩ := h side
  rw [hside]
  refine ⟨⟨fun endPointId => ?_, fun endPointId pduIds hlist => ?_⟩, fun id pdu hpdu => ?_⟩
  · rw [hacks]
    rfl
  · rw [hacks] at hlist
    exact nomatch hlist
  · rw [hpdus] at hpdu
    exact nomatch hpdu

theorem tracked {events : List RlsLinkEvent}
    (h : (system peerId).Run System.unrestricted events link) : link.Tracked :=
  h.invariant (fun _ => Tracked.init) fun _ _ _ hs _ => hs.step

/-- What is owed at the expiry of the timer is not sent. -/
theorem Tracked.acknowledges_iff (h : link.Tracked) (e : RlsLinkEvent) :
    link.Acknowledged e ↔ link.NothingOwed e := by
  cases e with
  | input side input =>
    cases input with
    | ackSend =>
      simp only [Acknowledged, NothingOwed, (h side).1.ackSend_silent]
      constructor
      · intro hcount
        rw [List.eq_nil_iff_forall_not_mem]
        rintro ⟨endPointId, pduId⟩ hmem
        exact absurd (hcount endPointId pduId) (Nat.ne_of_lt (List.count_pos_iff.mpr hmem))
      · intro hnothing endPointId pduId
        rw [hnothing]
        rfl
    | ackControl time => exact iff_of_true ((h side).2.failed_ackControl time) trivial
    | _ => exact Iff.rfl
  | _ => exact Iff.rfl

/-- The runs in which received PDUs are acknowledged, and none reported before its time
is over, are those in which no side has received a PDU when its timer expires. -/
theorem acknowledged_iff {events : List RlsLinkEvent} :
    (system peerId).Run Acknowledged events link ↔ (system peerId).Run NothingOwed events link :=
  System.Run.congr tracked fun _ e h => h.acknowledges_iff e

private def idle : RlsLink := fun _ => { task := { sti := 1 } }

private def idlePeer : RlsSide → Int := fun _ => 1

/-- A PDU of the UE is delivered at once, and nothing is lost. The timer of the gNB
expires without an acknowledgement, and the timer of the UE reports the PDU. -/
theorem received_unacknowledged : ∃ (events : List RlsLinkEvent) (link : RlsLink),
    (system idlePeer).Run System.unrestricted events link ∧
      (∀ side, .lose side ∉ events) ∧
      ¬ link.Acknowledged (.input .gnb .ackSend) ∧
      failed ((link .ue).task.onAckControlTimerExpired 4500).2 =
        [{ id := 7, pdu := [1], rrcChannel := 0, sentTime := 1000, endPointId := 1 }] := by
  have hstart : (system idlePeer).Run System.unrestricted [] idle :=
    .nil fun side => ⟨_, rfl, rfl, rfl⟩
  have hsend : Step idlePeer idle (.input .ue (.rrcDelivery 1000 1 7 0 [1])) _ :=
    .input (fun _ => nofun) rfl
  have hreceived := (hstart.snoc trivial hsend).snoc
    (e := RlsLinkEvent.deliver .gnb (.pduTransmission 1 .rrc 7 0 [1])) trivial
    (.deliver (List.Perm.refl _) rfl)
  refine ⟨_, _, hreceived, fun side => by simp, fun h => ?_, by decide⟩
  exact absurd (h 1 7) (by decide)

end RlsLink

end Quicup.Ueransim
