import Quicup.Ueransim.Rlc.Peers

/-!
# Safety of the link

Between two peers every SDU is delivered at most once and as it was accepted, and only SDUs
that were delivered are reported as successful. This takes SDUs that the reassembly buffer
holds, STATUS PDUs that can report all that is missing, and PDUs that come in time.
-/

namespace Quicup.Ueransim.Rlc

open AmReceiver AmTransmitter

/-- The SDUs that were delivered are such that the other side accepted, each at most once, and
all that were reported as successful are among them. -/
def Safe (sender receiver : Peer) : Prop :=
  ∃ numbers : List Nat, numbers.Nodup ∧ (∀ i ∈ numbers, i < sender.entity.tx.heap.length) ∧
    receiver.delivered = numbers.map (fun i => (sender.entity.tx.sdu i).data) ∧
    ∀ i, sender.entity.tx.Reported i → i ∈ numbers

/-! ## One direction -/

/-- What holds between what one side has sent and the other one has received. -/
structure Link (c : AmConfig) (sdus : List OctetString) (a n : Nat) (sender receiver : Peer) :
    Prop where
  covering : Covering c sdus 0 a n [] sender.entity.tx
  sizes : ∀ i < sdus.length, (sdus.getD i []).length ≤ reassembleBufferLen
  built : ∀ sent ∈ sender.sent, ∀ sdu pdu, sent.pdu = .amd sdu pdu →
    pdu.Decoded c ∧ BuiltFrom c sdus n sent.number pdu
  receiving : Receiving c sdus n receiver.entity.rx receiver.passed receiver.delivered
  acks : AcksReceived (Received c receiver.entity.rx receiver.passed) sender.entity.tx
  reports : ∀ sent ∈ receiver.sent, ∀ pdu, sent.pdu = .status pdu →
    Reports c sdus n (Received c receiver.entity.rx receiver.passed) sent.number pdu
  reported : ∀ i < a, Got c receiver.entity.rx receiver.passed i

def Linked (c : AmConfig) (sender receiver : Peer) : Prop :=
  ∃ sdus a n, Link c sdus a n sender receiver

theorem linked_cleared (c : AmConfig) : Linked c (.cleared c) (.cleared c) := by
  refine ⟨[], 0, 0, covering_cleared c, ?_, ?_, receiving_cleared c, ?_, ?_, ?_⟩
  · exact fun i hi => absurd hi (Nat.not_lt_zero i)
  · exact fun sent hsent => absurd hsent List.not_mem_nil
  · exact fun s hs => absurd hs List.not_mem_nil
  · exact fun sent hsent => absurd hsent List.not_mem_nil
  · exact fun i hi => absurd hi (Nat.not_lt_zero i)

namespace Link

variable {c : AmConfig} {sdus : List OctetString} {a n : Nat} {sender sender' receiver receiver' :
  Peer}

theorem safe (h : Link c sdus a n sender receiver) : Safe sender receiver := by
  obtain ⟨numbers, hnodup, heq, hmem⟩ := h.receiving.delivered_eq
  refine ⟨numbers, hnodup, fun i hi => ?_, ?_, fun i hi => (hmem i).mpr ?_⟩
  · rw [h.covering.length_eq]
    exact (h.receiving.lt_of_got ((hmem i).mp hi)).trans_le h.covering.le_length
  · simp only [h.covering.data]
    exact heq
  · exact h.reported i ((h.covering.reported_iff i).mp hi)

/-- The receiving side of the sender has no part in it. -/
theorem of_sender (h : Link c sdus a n sender receiver)
    (htx : sender'.entity.tx = sender.entity.tx)
    (hsent : ∀ sent ∈ sender'.sent, ∀ sdu pdu, sent.pdu = .amd sdu pdu → sent ∈ sender.sent) :
    Link c sdus a n sender' receiver := by
  refine ⟨?_, h.sizes, fun sent hmem sdu pdu hpdu => ?_, h.receiving, ?_, h.reports, h.reported⟩
  · rw [htx]
    exact h.covering
  · exact h.built sent (hsent sent hmem sdu pdu hpdu) sdu pdu hpdu
  · rw [htx]
    exact h.acks

/-- The receiver has more than before. -/
theorem of_receiver (h : Link c sdus a n sender receiver)
    (hreceiving : Receiving c sdus n receiver'.entity.rx receiver'.passed receiver'.delivered)
    (hkeeps : Keeps c receiver.entity.rx receiver.passed receiver'.entity.rx receiver'.passed)
    (hsent : ∀ sent ∈ receiver'.sent, ∀ pdu, sent.pdu = .status pdu → sent ∈ receiver.sent ∨
      Reports c sdus n (Received c receiver'.entity.rx receiver'.passed) sent.number pdu) :
    Link c sdus a n sender receiver' := by
  refine ⟨h.covering, h.sizes, h.built, hreceiving, fun s hs b hfirst hlast => ?_,
    fun sent hmem pdu hpdu => ?_, fun i hi => ?_⟩
  · exact hkeeps _ _ (h.acks s hs b hfirst hlast)
  · rcases hsent sent hmem pdu hpdu with hold | hreports
    · exact (h.reports sent hold pdu hpdu).grow (List.prefix_refl sdus) le_rfl
        h.covering.le_length hkeeps
    · exact hreports
  · have hsize : 0 < (sdus.getD i []).length :=
      h.covering.size_pos i (hi.trans_le (h.covering.le.trans h.covering.le_length))
    exact hreceiving.got_of_received hsize fun b _ => hkeeps i b (.inl (h.reported i hi))

theorem le_passed (h : Link c sdus a n sender receiver) : a ≤ receiver.passed :=
  h.receiving.le_passed h.reported

/-- The sender accepts or submits more. -/
theorem grow (h : Link c sdus a n sender receiver) {sdus' : List OctetString} {n' : Nat}
    (hsdus : sdus <+: sdus') (hn : n ≤ n')
    (hcovering : Covering c sdus' 0 a n' [] sender'.entity.tx)
    (hsizes : ∀ i < sdus'.length, (sdus'.getD i []).length ≤ reassembleBufferLen)
    (hack : sender'.entity.tx.ackBuffer = sender.entity.tx.ackBuffer)
    (hsent : ∀ sent ∈ sender'.sent, ∀ sdu pdu, sent.pdu = .amd sdu pdu → sent ∈ sender.sent ∨
      pdu.Decoded c ∧ BuiltFrom c sdus' n' sent.number pdu) :
    Link c sdus' a n' sender' receiver := by
  have hpassed := h.le_passed
  have hwindow := hcovering.window
  refine ⟨hcovering, hsizes, fun sent hmem sdu pdu hpdu => ?_, ?_, ?_, ?_, h.reported⟩
  · rcases hsent sent hmem sdu pdu hpdu with hold | hbuilt
    · obtain ⟨hdec, hbuilt⟩ := h.built sent hold sdu pdu hpdu
      exact ⟨hdec, hbuilt.grow hsdus hn⟩
    · exact hbuilt
  · exact h.receiving.grow hsdus hn h.covering.le_length (by omega)
  · rw [AcksReceived, hack]
    exact h.acks
  · exact fun sent hmem pdu hpdu => (h.reports sent hmem pdu hpdu).grow hsdus hn
      h.covering.le_length fun i b hreceived => hreceived

end Link

/-! ## Operations -/

section

variable {c : AmConfig} {peer other peer' : Peer} {maxSize : Nat}

theorem Linked.receiveSdu (h : Linked c peer other) (data : OctetString) (sduId : Int)
    (hfits : peer.entity.tx.txCurrentSize + data.length ≤ c.txMaxSize →
      data.length ≤ reassembleBufferLen) : Linked c (peer.receiveSdu c data sduId) other := by
  obtain ⟨sdus, a, n, h⟩ := h
  refine ⟨_, a, n, h.grow ?_ le_rfl (h.covering.receiveSdu data sduId) ?_
    (receiveSdu_ackBuffer data sduId) fun sent hsent _ _ _ => .inl hsent⟩
  · rw [Covering.accepted]
    split_ifs
    · exact List.prefix_refl sdus
    · exact List.prefix_append sdus [data]
  · rw [Covering.accepted]
    split_ifs with hrejects
    · exact h.sizes
    intro i hi
    rw [not_or, not_lt] at hrejects
    rw [List.length_append, List.length_singleton] at hi
    rcases Nat.lt_succ_iff_lt_or_eq.mp hi with hi | rfl
    · rw [getD_of_extends (List.prefix_append sdus [data]) hi]
      exact h.sizes i hi
    · rw [List.getD_eq_getElem?_getD, List.getElem?_concat_length]
      exact hfits hrejects.2

/-- What one side sends of its SDUs does not matter to it as a receiver. -/
theorem Linked.of_receiver (h : Linked c other peer) (hrx : peer'.entity.rx = peer.entity.rx)
    (hpassed : peer'.passed = peer.passed) (hdelivered : peer'.delivered = peer.delivered)
    (hsent : ∀ sent ∈ peer'.sent, ∀ pdu, sent.pdu = .status pdu → sent ∈ peer.sent) :
    Linked c other peer' := by
  obtain ⟨sdus, a, n, h⟩ := h
  refine ⟨sdus, a, n, h.of_receiver ?_ ?_ fun sent hmem pdu hpdu => .inl (hsent sent hmem pdu hpdu)⟩
  · rw [hrx, hpassed, hdelivered]
    exact h.receiving
  · rw [hrx, hpassed]
    exact fun i b hreceived => hreceived

/-- The AMD PDU that is built is a segment of an accepted SDU. -/
theorem Linked.createAmdPdu (hout : Linked c peer other) (hin : Linked c other peer) (maxSize : Nat)
    (hpeer' : peer' = { peer with
      entity := { peer.entity with tx := (peer.entity.tx.createAmdPdu c maxSize).1 }
      sent := peer.sent ++ ((peer.entity.tx.createAmdPdu c maxSize).2.map fun (sdu, pdu) =>
        { number := sdu, pdu := .amd sdu pdu }).toList }) :
    Linked c peer' other ∧ Linked c other peer' := by
  subst hpeer'
  obtain ⟨sdus, a, n, h⟩ := hout
  obtain ⟨n', hn, hcovering, hsends⟩ := h.covering.createAmdPdu maxSize
  rcases hbuilt : (peer.entity.tx.createAmdPdu c maxSize).2 with _ | ⟨sdu, pdu⟩
  · refine ⟨⟨sdus, a, n', ?_⟩, hin.of_receiver rfl rfl rfl fun sent hsent pdu _ => ?_⟩
    · refine h.grow (List.prefix_refl sdus) hn hcovering h.sizes (createAmdPdu_ackBuffer maxSize)
        fun sent hsent _ _ _ => .inl ?_
      simpa using hsent
    · simpa using hsent
  · refine ⟨⟨sdus, a, n', ?_⟩, hin.of_receiver rfl rfl rfl fun sent hsent pdu hpdu => ?_⟩
    · refine h.grow (List.prefix_refl sdus) hn hcovering h.sizes (createAmdPdu_ackBuffer maxSize)
        fun sent hsent sdu' pdu' hpdu => ?_
      rcases List.mem_append.mp hsent with hold | hnew
      · exact .inl hold
      · obtain rfl := List.mem_singleton.mp hnew
        obtain ⟨s, hs, p, hsdu⟩ := hsends _ hbuilt
        obtain ⟨rfl, rfl⟩ := Prod.mk.inj hsdu
        cases hpdu
        have hlength := (hcovering.submitted s (by simp [hs])).2
        exact .inr (hcovering.builtFrom hs (h.sizes _ hlength) p)
    · rcases List.mem_append.mp hsent with hold | hnew
      · exact hold
      · obtain rfl := List.mem_singleton.mp hnew
        cases hpdu

/-- The STATUS PDU that is built reports on the SDUs of the other side. -/
theorem Linked.createStatusPdu (hout : Linked c peer other) (hin : Linked c other peer)
    (hr : Representable c peer.entity.rx maxSize) (hgrant : 3 ≤ maxSize) :
    ∃ pdu, peer.entity.rx.createStatusPdu c maxSize false =
        .ok (peer.entity.rx.statusConstructed, some pdu) ∧
      ∀ peer', peer' = { peer with
          entity := { peer.entity with rx := peer.entity.rx.statusConstructed }
          sent := peer.sent ++
            [{ number := peer.numberOf c (.status pdu), pdu := .status pdu }] } →
        Linked c peer' other ∧ Linked c other peer' := by
  obtain ⟨sdus, a, n, h⟩ := hin
  obtain ⟨pdu, hrun, hreports⟩ := h.receiving.createStatusPdu h.sizes hr hgrant
  refine ⟨pdu, hrun, ?_⟩
  rintro peer' rfl
  obtain ⟨hreceiving, hkeeps⟩ := h.receiving.statusConstructed
  constructor
  · obtain ⟨sdus, a, n, h⟩ := hout
    refine ⟨sdus, a, n, h.of_sender rfl fun sent hsent sdu pdu hpdu => ?_⟩
    rcases List.mem_append.mp hsent with hold | hnew
    · exact hold
    · obtain rfl := List.mem_singleton.mp hnew
      cases hpdu
  · refine ⟨sdus, a, n, h.of_receiver hreceiving hkeeps fun sent hsent pdu hpdu => ?_⟩
    rcases List.mem_append.mp hsent with hold | hnew
    · exact .inl hold
    · obtain rfl := List.mem_singleton.mp hnew
      cases hpdu
      exact .inr (hreports.grow (List.prefix_refl sdus) le_rfl h.covering.le_length hkeeps)

theorem Linked.createPdu (hout : Linked c peer other) (hin : Linked c other peer)
    (hr : peer.entity.reportsStatus = true → 3 ≤ maxSize →
      Representable c peer.entity.rx maxSize) :
    ∃ peer', peer.createPdu c maxSize = .ok peer' ∧ Linked c peer' other ∧ Linked c other peer' := by
  rw [Peer.createPdu, AmEntity.createPdu]
  by_cases hstatus : peer.entity.reportsStatus = true ∧ 3 ≤ maxSize
  · obtain ⟨pdu, hrun, hlinked⟩ := hout.createStatusPdu hin (hr hstatus.1 hstatus.2) hstatus.2
    rw [AmEntity.createReport, if_pos hstatus.1, hrun]
    exact ⟨_, rfl, hlinked _ rfl⟩
  · have hnone : peer.entity.createReport c maxSize = .ok (peer.entity.rx, none) := by
      rw [AmEntity.createReport]
      split_ifs with hreports
      · have hgrant : ¬ 3 ≤ maxSize := fun hgrant => hstatus ⟨hreports, hgrant⟩
        rw [AmReceiver.createStatusPdu, if_pos (not_le.mp hgrant)]
      · rfl
    rw [hnone]
    refine ⟨_, rfl, hout.createAmdPdu hin maxSize ?_⟩
    simp only [Option.map_map]
    rfl

/-- A PDU is in time when it does no harm: an AMD PDU is discarded or is neither overtaken by
the window nor overlaps segments of an open SDU, and a STATUS PDU does not lag behind the SDUs
that were reported, unless nothing waits for an acknowledgement. -/
def InTime (c : AmConfig) (peer : Peer) (sent : Sent) : Prop :=
  match sent.pdu with
  | .amd _ pdu => peer.entity.rx.discards c pdu = false →
    Timely peer.entity.rx peer.passed sent.number pdu
  | .status _ => (∀ i, peer.entity.tx.Reported i → i < sent.number) ∨
    peer.entity.tx.waitBuffer = [] ∧ peer.entity.tx.retBuffer = []

theorem Linked.receivePdu (hout : Linked c peer other) (hin : Linked c other peer) {sent : Sent}
    (hsent : sent ∈ other.sent) (htime : InTime c peer sent) (stale : Bool) :
    ∃ peer', peer.receivePdu c stale sent.pdu = .ok peer' ∧ Linked c peer' other ∧
      Linked c other peer' := by
  rw [InTime] at htime
  rw [Peer.receivePdu]
  rcases hpdu : sent.pdu with ⟨sdu, pdu⟩ | pdu
  · rw [hpdu] at htime
    obtain ⟨sdus, a, n, h⟩ := hin
    obtain ⟨hdec, hbuilt⟩ := h.built sent hsent sdu pdu hpdu
    obtain ⟨r', sdu', hrun, hreceiving, hkeeps⟩ := h.receiving.reception hdec hbuilt htime
      (h.sizes _ hbuilt.lt) stale
    rw [AmEntity.receivePdu, hrun]
    refine ⟨_, rfl, ?_, ?_⟩
    · obtain ⟨sdus, a, n, h⟩ := hout
      exact ⟨sdus, a, n, h.of_sender rfl fun sent hmem _ _ _ => hmem⟩
    · exact ⟨sdus, a, n, h.of_receiver hreceiving hkeeps fun sent hmem _ _ => .inl hmem⟩
  · rw [hpdu] at htime
    refine ⟨_, rfl, ?_, ?_⟩
    · obtain ⟨sdus, a, n, h⟩ := hout
      have hfresh : a ≤ sent.number ∨
          peer.entity.tx.waitBuffer = [] ∧ peer.entity.tx.retBuffer = [] := by
        refine htime.imp_left fun hreported => ?_
        rcases a with _ | a
        · exact Nat.zero_le _
        · exact hreported a ((h.covering.reported_iff a).mpr (Nat.lt_succ_self a))
      obtain ⟨a', hge, hcovering, hacks, hall⟩ := h.covering.receiveStatusPdu_acks h.acks
        (h.reports sent hsent pdu hpdu) hfresh
      refine ⟨sdus, a', n, hcovering, h.sizes, h.built, h.receiving, hacks, h.reports,
        fun i hi => ?_⟩
      by_cases hia : i < a
      · exact h.reported i hia
      · have hlength := hi.trans_le (hcovering.le.trans hcovering.le_length)
        exact h.receiving.got_of_received (hcovering.size_pos i hlength)
          (hall i (not_lt.mp hia) hi)
    · refine hin.of_receiver rfl ?_ (List.append_nil _) fun sent hmem _ _ => hmem
      rw [AmReceiver.number, AmReceiver.modulusRx_eq, Circular.distance_self]
      rfl

theorem Linked.timerCycle (hout : Linked c peer other) (hin : Linked c other peer)
    (currentTime : Int) :
    ∃ peer', peer.timerCycle c currentTime = .ok peer' ∧ Linked c peer' other ∧
      Linked c other peer' := by
  obtain ⟨sdus, a, n, h⟩ := hin
  obtain ⟨r', hrun, hreceiving, hkeeps⟩ := h.receiving.timerCycle currentTime
  rw [Peer.timerCycle, AmEntity.timerCycle, hrun]
  refine ⟨_, rfl, ?_, ?_⟩
  · obtain ⟨sdus, a, n, h⟩ := hout
    exact ⟨sdus, a, n, h.grow (List.prefix_refl sdus) le_rfl (h.covering.timerCycle currentTime)
      h.sizes (timerCycle_ackBuffer currentTime) fun sent hmem _ _ _ => .inl hmem⟩
  · exact ⟨sdus, a, n, h.of_receiver hreceiving hkeeps fun sent hmem _ _ => .inl hmem⟩

end

/-! ## Runs -/

namespace Peers

variable {c : AmConfig} {peers : Peers} {side : Side}

/-- No operation has faulted, and both directions are safe. -/
def RunsSafe (s : Except Fault Peers) : Prop :=
  ∃ peers, s = .ok peers ∧ ∀ side, Safe (peers.peer side) (peers.peer side.pair)

/-- SDUs that are accepted fit into the reassembly buffer, a STATUS PDU is built where it can
report all that is missing, and PDUs that are received are in time. -/
def Orderly (c : AmConfig) : Except Fault Peers → Event → Prop
  | .ok peers, .receiveSdu side data _ =>
    (peers.peer side).entity.tx.txCurrentSize + data.length ≤ c.txMaxSize →
      data.length ≤ reassembleBufferLen
  | .ok peers, .createPdu side maxSize => (peers.peer side).entity.reportsStatus = true →
    3 ≤ maxSize → Representable c (peers.peer side).entity.rx maxSize
  | .ok peers, .receivePdu side position _ => ∀ sent,
    (peers.peer side.pair).sent[position]? = some sent → InTime c (peers.peer side) sent
  | _, _ => True

def RunsLinked (c : AmConfig) (s : Except Fault Peers) : Prop :=
  ∃ peers, s = .ok peers ∧ ∀ side, Linked c (peers.peer side) (peers.peer side.pair)

theorem linked_set {peer : Peer} (hout : Linked c peer (peers.peer side.pair))
    (hin : Linked c (peers.peer side.pair) peer) :
    RunsLinked c (.ok (peers.set peer side)) := by
  refine ⟨_, rfl, fun side' => ?_⟩
  cases side <;> cases side' <;> assumption

theorem runsLinked_after {s : Except Fault Peers} {event : Event} (h : RunsLinked c s)
    (horderly : Orderly c s event) : RunsLinked c (after c s event) := by
  obtain ⟨peers, rfl, h⟩ := h
  have hin (side : Side) : Linked c (peers.peer side.pair) (peers.peer side) := by
    have hpair := h side.pair
    cases side <;> exact hpair
  cases event with
  | receiveSdu side data sduId =>
    exact linked_set ((h side).receiveSdu data sduId horderly)
      ((hin side).of_receiver rfl rfl rfl fun sent hmem _ _ => hmem)
  | createPdu side maxSize =>
    obtain ⟨peer', hrun, hout', hin'⟩ := (h side).createPdu (hin side) horderly
    rw [after, Fallible.ok_bind, next, hrun]
    exact linked_set hout' hin'
  | receivePdu side position stale =>
    rw [after, Fallible.ok_bind, next]
    rcases hsent : (peers.peer side.pair).sent[position]? with _ | sent
    · exact ⟨peers, rfl, h⟩
    · obtain ⟨peer', hrun, hout', hin'⟩ := (h side).receivePdu (hin side)
        (List.mem_of_getElem? hsent) (horderly sent hsent) stale
      dsimp only
      rw [hrun]
      exact linked_set hout' hin'
  | timerCycle side currentTime =>
    obtain ⟨peer', hrun, hout', hin'⟩ := (h side).timerCycle (hin side) currentTime
    rw [after, Fallible.ok_bind, next, hrun]
    exact linked_set hout' hin'

/-- In every run whose steps are orderly no operation faults and both directions stay safe. -/
theorem safe_of_run {events : List Event} {s : Except Fault Peers}
    (hrun : System.Run (system c) (Orderly c) events s) : RunsSafe s := by
  have hinit : ∀ s, (system c).init s → RunsLinked c s := by
    rintro s rfl
    refine ⟨cleared c, rfl, fun side => ?_⟩
    cases side <;> exact linked_cleared c
  have hlinked : RunsLinked c s := by
    refine hrun.invariant hinit fun s event s' h horderly hstep => ?_
    obtain rfl := hstep
    exact runsLinked_after h horderly
  obtain ⟨peers, rfl, hlinked⟩ := hlinked
  refine ⟨peers, rfl, fun side => ?_⟩
  obtain ⟨sdus, a, n, h⟩ := hlinked side
  exact h.safe

private def oneAccepted : Except Fault Peers :=
  after .test (.ok (cleared .test)) (.receiveSdu .ue [1] 7)

private def oneSent : Except Fault Peers := after .test oneAccepted (.createPdu .ue 100)

private def oneReceived : Except Fault Peers := after .test oneSent (.receivePdu .gnb 0 true)

private def oneAnswered : Except Fault Peers := after .test oneReceived (.createPdu .gnb 100)

private def oneReported : Except Fault Peers := after .test oneAnswered (.receivePdu .ue 0 false)

/-- An SDU is delivered, acknowledged and reported. -/
theorem safe_of_run_reported : RunsSafe oneReported := by
  have haccepted : Orderly .test (.ok (cleared .test)) (.receiveSdu .ue [1] 7) :=
    fun _ => by decide
  have hsent : Orderly .test oneAccepted (.createPdu .ue 100) :=
    fun hreports => absurd hreports (by decide)
  have hreceived : Orderly .test oneSent (.receivePdu .gnb 0 true) := by
    intro sent hsent
    cases hsent
    exact fun _ => ⟨le_rfl, fun _ item hitem => absurd hitem List.not_mem_nil⟩
  have hanswered : Orderly .test oneReceived (.createPdu .gnb 100) :=
    fun _ _ => representable_of_eq rfl (by decide)
  have hreported : Orderly .test oneAnswered (.receivePdu .ue 0 false) := by
    have hfacts : oneAnswered.map (fun peers =>
        (peers.gnb.sent[0]?, peers.ue.entity.tx.consumer)) =
        .ok (some { number := 1, pdu := .status { ackSn := 1 } }, []) := by decide
    rcases hresult : oneAnswered with fault | peers
    · exact trivial
    · rw [hresult] at hfacts
      obtain ⟨hfirst, hconsumer⟩ := Prod.mk.inj (Except.ok.inj hfacts)
      intro sent hsent
      obtain rfl := Option.some.inj (hfirst.symm.trans hsent)
      refine .inl fun i hi => ?_
      simp [Reported, peer, hconsumer] at hi
  exact safe_of_run (.snoc (.snoc (.snoc (.snoc (.snoc (.nil rfl) haccepted rfl) hsent rfl)
    hreceived rfl) hanswered rfl) hreported rfl)

/-- The first SDU is lost, and a grant of three octets leaves no room to report it. -/
private def firstLost : List Event :=
  [.receiveSdu .ue [1] 0, .receiveSdu .ue [2] 1, .createPdu .ue 100, .createPdu .ue 100,
    .timerCycle .gnb 1, .receivePdu .gnb 1 false, .timerCycle .gnb 402, .createPdu .gnb 3,
    .receivePdu .ue 0 false]

/-- An SDU that was never received is reported as successful. -/
theorem lost_sdu_reported :
    ¬ ∀ (c : AmConfig) (events : List Event) (s : Except Fault Peers),
      System.Run (system c) System.unrestricted events s → RunsSafe s := by
  intro h
  obtain ⟨peers, hpeers, hsafe⟩ := h .test firstLost _
    (System.run_foldl (S := system .test) (f := after .test) (fun _ _ => rfl) rfl firstLost)
  have hresult : (firstLost.foldl (after .test) (.ok (cleared .test))).map
      (fun peers => (peers.gnb.delivered, peers.ue.entity.tx.consumer)) =
      .ok ([[2]], [.sduSuccessfulDelivery 0 0, .sduSuccessfulDelivery 1 1]) := by decide
  rw [hpeers] at hresult
  obtain ⟨hdelivered, hconsumer⟩ := Prod.mk.inj (Except.ok.inj hresult)
  obtain ⟨numbers, _, _, heq, hreported⟩ := hsafe .ue
  have hlength : numbers.length = 1 := by
    have hmap := congrArg List.length (heq.symm.trans hdelivered)
    simpa using hmap
  obtain ⟨i, rfl⟩ := List.length_eq_one_iff.mp hlength
  have hfirst : 0 ∈ [i] := hreported 0 ⟨0, by simp [peer, hconsumer]⟩
  have hsecond : 1 ∈ [i] := hreported 1 ⟨1, by simp [peer, hconsumer]⟩
  rw [List.mem_singleton] at hfirst hsecond
  omega

end Peers

end Quicup.Ueransim.Rlc
