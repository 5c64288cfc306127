import Quicup.Core.System
import Quicup.Ueransim.Rls.UdpTask

/-!
# The UE tables of the gNB's radio link

The table of identifiers and the table of UEs, with the signals announced to the
control task. The entry of a UE keeps no identifier, so a lost UE leaves its
identifier behind unless that is zero. The entry is then made again for the next
heartbeat, without an announcement.
-/

namespace Quicup.Ueransim

open Function

/-- The task, all it has put out, and the identifier each id was last heard with. -/
structure Observed where
  task : RlsUdpTask
  log : List RlsUdpOutput := []
  heardAs : Nat → UInt64 := fun _ => 0

inductive RlsUdpEvent
  | receive (time : Int) (address : InetAddress) (msg : RlsMessage)
  | heartbeatCycle (time : Int)

namespace Observed

/-- A heartbeat of a signal that is strong enough. -/
def Accepted (task : RlsUdpTask) : RlsMessage → Prop
  | .heartBeat _ simPos =>
    ¬ estimateSimulatedDbm task.phyLocation simPos < RlsUdpTask.minAllowedDbm
  | _ => False

instance (task : RlsUdpTask) (msg : RlsMessage) : Decidable (Accepted task msg) := by
  cases msg <;> simp only [Accepted] <;> infer_instance

/-- The id that a message is taken for: that of its identifier, or the next one. -/
def idOf (task : RlsUdpTask) (sti : UInt64) : Nat :=
  (task.stiToUe.lookup sti).getD (task.newIdCounter + 1)

def next (s : Observed) : RlsUdpEvent → Observed
  | .receive time address msg =>
    let (task, out) := s.task.receiveRlsPdu time address msg
    { task
      log := s.log ++ out
      heardAs :=
        if Accepted s.task msg then update s.heardAs (idOf s.task msg.sti) msg.sti
        else s.heardAs }
  | .heartbeatCycle time =>
    let (task, out) := s.task.heartbeatCycle time
    { s with task, log := s.log ++ out }

/-- Times are arbitrary, those of a clock among them. -/
def system : System Observed RlsUdpEvent where
  init s := s.task.stiToUe = ∅ ∧ s.task.ueMap = ∅ ∧ s.log = []
  step s e t := t = s.next e

/-! ## Consistency -/

/-- Whether the last signal of a UE is its detection. Nothing when a signal repeats
the one before it. -/
def announce (ueId : Nat) (present : Option Bool) : RlsUdpOutput → Option Bool
  | .signalDetected id => if id = ueId then
      if present = some false then some true else none
    else present
  | .signalLost id => if id = ueId then
      if present = some true then some false else none
    else present
  | _ => present

def announced (ueId : Nat) (log : List RlsUdpOutput) : Option Bool :=
  log.foldl (announce ueId) (some false)

/-- The tables belong together, and a UE is in its table from the one signal that
detects it to the one that loses it. -/
structure Consistent (holds : Nat → UInt64 → Prop) (s : Observed) : Prop where
  maps : ∀ sti ueId, s.task.stiToUe.lookup sti = some ueId ↔ holds ueId sti
  unshared : ∀ sti sti' ueId, s.task.stiToUe.lookup sti = some ueId →
    s.task.stiToUe.lookup sti' = some ueId → sti = sti'
  announced : ∀ ueId, Observed.announced ueId s.log = some (s.task.ueMap.lookup ueId).isSome

/-- A UE is held for the identifier its heartbeats come with. -/
def HeldFor (s : Observed) (ueId : Nat) (sti : UInt64) : Prop :=
  ueId ∈ s.task.ueMap ∧ s.heardAs ueId = sti

/-- A UE is held for the identifier in its entry. -/
def StoredFor (s : Observed) (ueId : Nat) (sti : UInt64) : Prop :=
  ∃ info, s.task.ueMap.lookup ueId = some info ∧ info.sti = sti

/-- A cycle loses no UE but that of identifier zero. -/
def ZeroLost (s : Observed) : RlsUdpEvent → Prop
  | .heartbeatCycle time => ∀ sti ueId info, s.task.stiToUe.lookup sti = some ueId →
    s.task.ueMap.lookup ueId = some info →
      time - info.lastSeen > RlsUdpTask.heartbeatThreshold → sti = 0
  | _ => True

/-- Heartbeats come with identifier zero. -/
def ZeroHeard (s : Observed) : RlsUdpEvent → Prop
  | .receive _ _ msg => Accepted s.task msg → msg.sti = 0
  | _ => True

/-- Consistency with what heartbeats came with, entries without an identifier, and ids
below the counter. -/
structure Kept (s : Observed) : Prop where
  consistent : Consistent s.HeldFor s
  blank : ∀ ueId info, s.task.ueMap.lookup ueId = some info → info.sti = 0
  counted : ∀ ueId, ueId ∈ s.task.ueMap → ueId ≤ s.task.newIdCounter

variable {s t : Observed}

/-- An id is heard with one identifier at a time. -/
theorem Consistent.ofMaps
    (hmaps : ∀ sti ueId, s.task.stiToUe.lookup sti = some ueId ↔ s.HeldFor ueId sti)
    (hannounced : ∀ ueId, Observed.announced ueId s.log = some (s.task.ueMap.lookup ueId).isSome) :
    Consistent s.HeldFor s :=
  ⟨hmaps, fun _ _ _ hsti hsti' => ((hmaps _ _).mp hsti).2.symm.trans ((hmaps _ _).mp hsti').2,
    hannounced⟩

/-! ## Signals -/

theorem announced_append (ueId : Nat) (log out : List RlsUdpOutput) :
    announced ueId (log ++ out) = out.foldl (announce ueId) (announced ueId log) :=
  List.foldl_append ..

/-- What the lost signals of one cycle do: they concern each UE at most once. -/
theorem foldl_announce_lost {ids : List Nat} (h : ids.Nodup) (ueId : Nat) (present : Bool)
    (hpresent : ueId ∈ ids → present = true) :
    (ids.map RlsUdpOutput.signalLost).foldl (announce ueId) (some present) =
      some (present && decide (ueId ∉ ids)) := by
  induction ids generalizing present with
  | nil => simp
  | cons id rest ih =>
    obtain ⟨hid, hrest⟩ := List.nodup_cons.mp h
    rw [List.map_cons, List.foldl_cons]
    by_cases hsame : id = ueId
    · have htrue := hpresent (hsame ▸ List.mem_cons_self)
      rw [hsame] at hid
      simp only [announce, hsame, if_true, htrue]
      rw [ih hrest false fun hmem => absurd hmem hid]
      simp
    · simp only [announce, hsame, if_false]
      rw [ih hrest present fun hmem => hpresent (List.mem_cons_of_mem _ hmem)]
      simp [Ne.symm hsame]

/-! ## Reception -/

section Receive

variable {time : Int} {address : InetAddress} {msg : RlsMessage} {ueId other : Nat}

/-- A message that is no accepted heartbeat leaves tables and signals alone. -/
theorem next_refused (time : Int) (address : InetAddress) (h : ¬ Accepted s.task msg) :
    (s.next (.receive time address msg)).task = s.task ∧
      (s.next (.receive time address msg)).heardAs = s.heardAs ∧
      ∀ ueId, announced ueId (s.next (.receive time address msg)).log = announced ueId s.log := by
  simp only [next, if_neg h, announced_append]
  cases msg with
  | heartBeat sti simPos =>
    have hweak : estimateSimulatedDbm s.task.phyLocation simPos < RlsUdpTask.minAllowedDbm :=
      not_not.mp h
    simp [RlsUdpTask.receiveRlsPdu, hweak]
  | _ =>
    simp only [RlsUdpTask.receiveRlsPdu]
    split <;> simp [announce]

/-- A heartbeat of a known identifier refreshes its UE. -/
theorem next_known (time : Int) (address : InetAddress) (h : Accepted s.task msg)
    (hknown : s.task.stiToUe.lookup msg.sti = some ueId) :
    (s.next (.receive time address msg)).task =
        { s.task with ueMap := s.task.refresh ueId address time } ∧
      (s.next (.receive time address msg)).heardAs =
        update s.heardAs ueId msg.sti ∧
      ∀ other, announced other (s.next (.receive time address msg)).log =
        announced other s.log := by
  simp only [next, if_pos h, idOf, hknown, announced_append]
  cases msg with
  | heartBeat sti simPos =>
    simp only [RlsMessage.sti] at hknown
    have hstrong : ¬ estimateSimulatedDbm s.task.phyLocation simPos < RlsUdpTask.minAllowedDbm := h
    simp [RlsUdpTask.receiveRlsPdu, hstrong, hknown, RlsMessage.sti, announce]
  | _ => exact h.elim

/-- A heartbeat of a new identifier makes a UE under the next id and announces it. -/
theorem next_new (time : Int) (address : InetAddress) (h : Accepted s.task msg)
    (hnew : s.task.stiToUe.lookup msg.sti = none) :
    let ueId := s.task.newIdCounter + 1
    (s.next (.receive time address msg)).task =
        { s.task with
          newIdCounter := ueId
          stiToUe := s.task.stiToUe.insert msg.sti ueId
          ueMap := s.task.refresh ueId address time } ∧
      (s.next (.receive time address msg)).heardAs =
        update s.heardAs ueId msg.sti ∧
      ∀ other, announced other (s.next (.receive time address msg)).log =
        announce other (announced other s.log) (.signalDetected ueId) := by
  simp only [next, if_pos h, idOf, hnew, announced_append]
  cases msg with
  | heartBeat sti simPos =>
    simp only [RlsMessage.sti] at hnew
    have hstrong : ¬ estimateSimulatedDbm s.task.phyLocation simPos < RlsUdpTask.minAllowedDbm := h
    simp [RlsUdpTask.receiveRlsPdu, hstrong, hnew, RlsMessage.sti, announce]
  | _ => exact h.elim

theorem lookup_refresh_ne (h : other ≠ ueId) :
    (s.task.refresh ueId address time).lookup other = s.task.ueMap.lookup other :=
  AList.lookup_insert_ne h

theorem mem_refresh :
    other ∈ s.task.refresh ueId address time ↔ other = ueId ∨ other ∈ s.task.ueMap :=
  AList.mem_insert _

/-- No entry gets an identifier. -/
theorem Kept.blank_refresh (h : s.Kept) (ueId : Nat) :
    ∀ other info, (s.task.refresh ueId address time).lookup other = some info → info.sti = 0 := by
  intro other info hinfo
  by_cases hother : other = ueId
  · rw [hother, RlsUdpTask.refresh, AList.lookup_insert] at hinfo
    rw [← Option.some.inj hinfo]
    cases hold : s.task.ueMap.lookup ueId with
    | none => rfl
    | some old => exact h.blank ueId old hold
  · rw [lookup_refresh_ne hother] at hinfo
    exact h.blank other info hinfo

theorem Kept.known (h : s.Kept) (haccepted : Accepted s.task msg)
    (hknown : s.task.stiToUe.lookup msg.sti = some ueId) :
    (s.next (.receive time address msg)).Kept := by
  obtain ⟨htask, hheard, hlog⟩ := next_known time address haccepted hknown
  obtain ⟨hmem, hsti⟩ := (h.consistent.maps msg.sti ueId).mp hknown
  have hheard : (s.next (.receive time address msg)).heardAs = s.heardAs := by
    rw [hheard, ← hsti, update_eq_self]
  have hsame (other : Nat) : other ∈ s.task.refresh ueId address time ↔ other ∈ s.task.ueMap := by
    rw [mem_refresh]
    exact ⟨fun hor => hor.elim (fun heq => heq ▸ hmem) id, .inr⟩
  refine ⟨.ofMaps ?_ fun other => ?_, ?_, ?_⟩
  · simp only [HeldFor, htask, hheard, hsame]
    exact h.consistent.maps
  · rw [hlog, h.consistent.announced, htask]
    congr 1
    rw [Bool.eq_iff_iff, AList.lookup_isSome, AList.lookup_isSome, hsame]
  · rw [htask]
    exact h.blank_refresh ueId
  · simp only [htask, hsame]
    exact h.counted

theorem Kept.new (h : s.Kept) (haccepted : Accepted s.task msg)
    (hnew : s.task.stiToUe.lookup msg.sti = none) :
    (s.next (.receive time address msg)).Kept := by
  obtain ⟨htask, hheard, hlog⟩ := next_new time address haccepted hnew
  have hfresh : s.task.newIdCounter + 1 ∉ s.task.ueMap := fun hmem =>
    absurd (h.counted _ hmem) (by omega)
  refine ⟨.ofMaps (fun sti ueId => ?_) fun ueId => ?_, ?_, ?_⟩
  · simp only [HeldFor, htask, hheard, mem_refresh]
    by_cases hue : ueId = s.task.newIdCounter + 1
    · rw [hue, update_self]
      by_cases hsti : sti = msg.sti
      · subst hsti
        simp
      · rw [AList.lookup_insert_ne hsti, h.consistent.maps]
        exact ⟨fun hheld => absurd hheld.1 hfresh, fun hheld => absurd hheld.2.symm hsti⟩
    · rw [update_of_ne hue]
      have hheld : (ueId = s.task.newIdCounter + 1 ∨ ueId ∈ s.task.ueMap) ∧ s.heardAs ueId = sti ↔
          s.HeldFor ueId sti := by simp [HeldFor, hue]
      rw [hheld, ← h.consistent.maps]
      by_cases hsti : sti = msg.sti
      · subst hsti
        simp [hnew, Ne.symm hue]
      · rw [AList.lookup_insert_ne hsti]
  · rw [hlog, h.consistent.announced, htask]
    by_cases hue : ueId = s.task.newIdCounter + 1
    · subst hue
      have habsent := AList.lookup_eq_none.mpr hfresh
      simp [announce, habsent, RlsUdpTask.refresh]
    · simp [announce, Ne.symm hue, lookup_refresh_ne hue]
  · rw [htask]
    exact h.blank_refresh _
  · simp only [htask, mem_refresh]
    rintro ueId (rfl | hmem)
    · exact Nat.le_refl _
    · exact Nat.le_succ_of_le (h.counted ueId hmem)

theorem Kept.receive (h : s.Kept) : (s.next (.receive time address msg)).Kept := by
  by_cases haccepted : Accepted s.task msg
  · cases hknown : s.task.stiToUe.lookup msg.sti with
    | none => exact h.new haccepted hknown
    | some ueId => exact h.known haccepted hknown
  · obtain ⟨htask, hheard, hlog⟩ := next_refused time address haccepted
    refine ⟨.ofMaps ?_ fun ueId => ?_, ?_, ?_⟩
    · simp only [HeldFor, htask, hheard]
      exact h.consistent.maps
    · rw [hlog, htask]
      exact h.consistent.announced ueId
    · exact htask ▸ h.blank
    · exact htask ▸ h.counted

end Receive

/-! ## Cycles -/

section Cycle

variable {time : Int}

/-- The signals of a cycle are those of UEs that are in the table. -/
theorem Kept.announced_cycle (h : s.Kept) (ueId : Nat) :
    announced ueId (s.next (.heartbeatCycle time)).log =
      some ((s.next (.heartbeatCycle time)).task.ueMap.lookup ueId).isSome := by
  have hpresent : ueId ∈ s.task.lostUeId time → (s.task.ueMap.lookup ueId).isSome = true := by
    intro hlost
    obtain ⟨info, hinfo, -⟩ := RlsUdpTask.mem_lostUeId.mp hlost
    rw [hinfo]
    rfl
  simp only [next, announced_append, RlsUdpTask.heartbeatCycle_ueMap]
  rw [h.consistent.announced, RlsUdpTask.heartbeatCycle,
    foldl_announce_lost RlsUdpTask.nodup_lostUeId ueId _ hpresent]
  split
  · rename_i hlost
    simp [hlost]
  · rename_i hlost
    simp [hlost]

/-- The identifiers taken out are those of the lost UEs, which all have zero. -/
theorem Kept.mem_lostSti (h : s.Kept) (hzero : ZeroLost s (.heartbeatCycle time)) {sti : UInt64}
    {ueId : Nat} (hmaps : s.task.stiToUe.lookup sti = some ueId) :
    sti ∈ s.task.lostSti time ↔ ueId ∈ s.task.lostUeId time := by
  rw [RlsUdpTask.mem_lostSti, RlsUdpTask.mem_lostUeId]
  constructor
  · rintro ⟨other, info, hinfo, hlost, rfl⟩
    have hother := (h.consistent.maps _ _).mpr
      ⟨AList.lookup_isSome.mp (hinfo ▸ rfl), (rfl : s.heardAs other = s.heardAs other)⟩
    rw [h.blank other info hinfo] at hmaps
    rw [hzero _ other info hother hinfo hlost, hmaps] at hother
    rw [Option.some.inj hother]
    exact ⟨info, hinfo, hlost⟩
  · rintro ⟨info, hinfo, hlost⟩
    exact ⟨ueId, info, hinfo, hlost,
      (h.blank ueId info hinfo).trans (hzero sti ueId info hmaps hinfo hlost).symm⟩

theorem Kept.cycle (h : s.Kept) (hzero : ZeroLost s (.heartbeatCycle time)) :
    (s.next (.heartbeatCycle time)).Kept := by
  have hmem (ueId : Nat) : ueId ∈ (s.task.heartbeatCycle time).1.ueMap ↔
      ueId ∉ s.task.lostUeId time ∧ ueId ∈ s.task.ueMap := by
    rw [← AList.lookup_isSome, RlsUdpTask.heartbeatCycle_ueMap, ← AList.lookup_isSome]
    split
    · rename_i hlost
      simp [hlost]
    · rename_i hlost
      simp [hlost]
  refine ⟨.ofMaps (fun sti ueId => ?_) fun ueId => h.announced_cycle ueId,
    fun ueId info hinfo => ?_, fun ueId hue => h.counted ueId ((hmem ueId).mp hue).2⟩
  · simp only [next, HeldFor, hmem, RlsUdpTask.heartbeatCycle_stiToUe]
    by_cases hmaps : s.task.stiToUe.lookup sti = some ueId
    · have hheld := (h.consistent.maps sti ueId).mp hmaps
      by_cases hlost : ueId ∈ s.task.lostUeId time
      · simp [(h.mem_lostSti hzero hmaps).mpr hlost, hlost]
      · rw [if_neg fun hsti => hlost ((h.mem_lostSti hzero hmaps).mp hsti)]
        exact ⟨fun _ => ⟨⟨hlost, hheld.1⟩, hheld.2⟩, fun _ => hmaps⟩
    · have hheld : ¬ s.HeldFor ueId sti := fun hheld => hmaps ((h.consistent.maps _ _).mpr hheld)
      constructor
      · intro hsome
        split at hsome
        · exact nomatch hsome
        · exact absurd hsome hmaps
      · rintro ⟨⟨-, hin⟩, hheard⟩
        exact absurd ⟨hin, hheard⟩ hheld
  · simp only [next, RlsUdpTask.heartbeatCycle_ueMap] at hinfo
    split at hinfo
    · exact nomatch hinfo
    · exact h.blank ueId info hinfo

/-- The identifier of a lost UE stays unless it is zero. -/
theorem Kept.zeroLost (h : s.Kept)
    (ht : Consistent (s.next (.heartbeatCycle time)).HeldFor (s.next (.heartbeatCycle time))) :
    ZeroLost s (.heartbeatCycle time) := by
  intro sti ueId info hmaps hinfo hlost
  by_contra hsti
  have hnot : sti ∉ s.task.lostSti time := by
    rw [RlsUdpTask.mem_lostSti]
    rintro ⟨other, info', hinfo', -, rfl⟩
    exact hsti (h.blank other info' hinfo')
  have hleft : (s.next (.heartbeatCycle time)).task.stiToUe.lookup sti = some ueId := by
    simp only [next, RlsUdpTask.heartbeatCycle_stiToUe, if_neg hnot, hmaps]
  obtain ⟨hin, -⟩ := (ht.maps sti ueId).mp hleft
  rw [← AList.lookup_isSome] at hin
  simp only [next, RlsUdpTask.heartbeatCycle_ueMap,
    if_pos (RlsUdpTask.mem_lostUeId.mpr ⟨info, hinfo, hlost⟩)] at hin
  exact nomatch hin

end Cycle

/-! ## Runs -/

theorem Kept.init (h : system.init s) : s.Kept := by
  obtain ⟨hsti, hue, hlog⟩ := h
  have hnone (ueId : Nat) : ueId ∉ s.task.ueMap := by
    rw [hue]
    exact AList.notMem_empty ueId
  refine ⟨.ofMaps (fun sti ueId => ?_) fun ueId => ?_, fun ueId info hinfo => ?_,
    fun ueId hin => absurd hin (hnone ueId)⟩
  · rw [hsti]
    exact ⟨nofun, fun hheld => absurd hheld.1 (hnone ueId)⟩
  · rw [hlog, hue]
    rfl
  · rw [hue] at hinfo
    exact nomatch hinfo

variable {e : RlsUdpEvent} {events : List RlsUdpEvent}

theorem Kept.step (h : s.Kept) (hzero : ZeroLost s e) (hstep : system.step s e t) : t.Kept := by
  cases hstep
  cases e with
  | receive => exact h.receive
  | heartbeatCycle => exact h.cycle hzero

/-- The tables belong together throughout exactly the runs that lose no UE but that of
identifier zero. -/
theorem heldFor_iff :
    system.RunWithin (fun s => Consistent s.HeldFor s) events s ↔
      system.Run ZeroLost events s := by
  refine System.Run.within_iff (fun _ => Kept.init) (fun _ h => h.consistent)
    (fun _ _ _ => Kept.step) fun s e t h hstep ht => ?_
  cases hstep
  cases e with
  | receive => trivial
  | heartbeatCycle => exact h.zeroLost ht

/-- The only identifier of the table is zero. -/
def ZeroKeyed (s : Observed) : Prop :=
  ∀ sti ueId, s.task.stiToUe.lookup sti = some ueId → sti = 0

/-- Entries without an identifier are those of identifier zero. -/
theorem Kept.storedFor (h : s.Kept) (hkeyed : s.ZeroKeyed) : Consistent s.StoredFor s := by
  refine ⟨fun sti ueId => ⟨fun hmaps => ?_, ?_⟩, h.consistent.unshared, h.consistent.announced⟩
  · obtain ⟨hin, -⟩ := (h.consistent.maps sti ueId).mp hmaps
    obtain ⟨info, hinfo⟩ := Option.isSome_iff_exists.mp (AList.lookup_isSome.mpr hin)
    exact ⟨info, hinfo, (h.blank ueId info hinfo).trans (hkeyed sti ueId hmaps).symm⟩
  · rintro ⟨info, hinfo, rfl⟩
    have hheld := (h.consistent.maps _ _).mpr
      ⟨AList.lookup_isSome.mp (hinfo ▸ rfl), (rfl : s.heardAs ueId = s.heardAs ueId)⟩
    rwa [h.blank ueId info hinfo, ← hkeyed _ _ hheld]

theorem ZeroKeyed.step (h : s.ZeroKeyed) (hzero : ZeroHeard s e) : (s.next e).ZeroKeyed := by
  intro sti ueId hmaps
  cases e with
  | receive time address msg =>
    by_cases haccepted : Accepted s.task msg
    · cases hknown : s.task.stiToUe.lookup msg.sti with
      | some known =>
        rw [(next_known time address haccepted hknown).1] at hmaps
        exact h sti ueId hmaps
      | none =>
        by_cases hsti : sti = msg.sti
        · exact hsti.trans (hzero haccepted)
        · rw [(next_new time address haccepted hknown).1, AList.lookup_insert_ne hsti] at hmaps
          exact h sti ueId hmaps
    · rw [(next_refused time address haccepted).1] at hmaps
      exact h sti ueId hmaps
  | heartbeatCycle time =>
    simp only [next, RlsUdpTask.heartbeatCycle_stiToUe] at hmaps
    split at hmaps
    · exact nomatch hmaps
    · exact h sti ueId hmaps

/-- Read by the identifiers of the entries, the tables belong together throughout
exactly the runs that hear nothing but identifier zero. -/
theorem storedFor_iff :
    system.RunWithin (fun s => Consistent s.StoredFor s) events s ↔
      system.Run ZeroHeard events s := by
  refine System.Run.within_iff
    (fun s hinit => (⟨.init hinit, fun sti ueId hmaps => ?_⟩ : s.Kept ∧ s.ZeroKeyed))
    (fun _ h => h.1.storedFor h.2) (fun s e t h hzero hstep => ?_) fun s e t h hstep ht => ?_
  · rw [hinit.1] at hmaps
    exact nomatch hmaps
  · have hlost : ZeroLost s e := by
      cases e with
      | receive => trivial
      | heartbeatCycle => exact fun sti ueId _ hmaps _ _ => h.2 sti ueId hmaps
    exact ⟨h.1.step hlost hstep, hstep ▸ h.2.step hzero⟩
  · cases e with
    | heartbeatCycle => trivial
    | receive time address msg =>
      intro haccepted
      cases hknown : s.task.stiToUe.lookup msg.sti with
      | some known => exact h.2 _ _ hknown
      | none =>
        cases hstep
        obtain ⟨info, hinfo, hsti⟩ := (ht.maps msg.sti (s.task.newIdCounter + 1)).mp (by
          rw [(next_new time address haccepted hknown).1, AList.lookup_insert])
        exact hsti.symm.trans (h.1.receive.blank _ info hinfo)

private def ueAddress : InetAddress := ⟨[10, 0, 0, 9], 4997⟩

private def firstTask : RlsUdpTask := { sti := 77 }

end Observed

end Quicup.Ueransim
