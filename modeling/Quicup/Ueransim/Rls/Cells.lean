import Mathlib.Data.List.Sort
import Quicup.Core.System
import Quicup.Ueransim.Rls.Pdu
import Quicup.Ueransim.Utils.Network

/-!
# The cell tables of the UE's radio link

The UE's task of `rls/udp_task.cpp`. A cell gets an id with its first acknowledged heartbeat, and
its signal is announced whenever it changes. The entry of a new cell has the signal 0 already, so
a first signal of 0 changes nothing and is not announced.
-/

namespace Quicup.Ueransim

open Function

namespace Ue

structure CellInfo where
  address : InetAddress := ⟨[], 0⟩
  lastSeen : Int := 0
  dbm : Int := 0
  cellId : Nat := 0
  deriving DecidableEq

structure RlsUdpTask where
  sti : UInt64
  searchSpace : List InetAddress := []
  simPos : Vector3 := {}
  cells : AList fun _ : UInt64 => CellInfo := ∅
  cellIdToSti : AList fun _ : Nat => UInt64 := ∅
  cellIdCounter : Nat := 0

/-- What the task sends, and what it pushes to the control task, which hands signals on to RRC. -/
inductive RlsUdpOutput
  | signalChanged (cellId : Nat) (dbm : Int)
  | receiveRlsMessage (cellId : Nat) (msg : RlsMessage)
  | send (address : InetAddress) (msg : RlsMessage)
  deriving DecidableEq

/-- `INT32_MIN`, which stands for a signal that is lost. -/
def lostDbm : Int := -2147483648

namespace RlsUdpTask

def heartbeatThreshold : Int := 2000

variable (task : RlsUdpTask)

/-- `onSignalChangeOrLost`, where reading a cell that there is not makes one. -/
def onSignalChangeOrLost (cellId : Nat) : RlsUdpTask × List RlsUdpOutput :=
  match task.cellIdToSti.lookup cellId with
  | none => (task, [.signalChanged cellId lostDbm])
  | some sti =>
    match task.cells.lookup sti with
    | some cell => (task, [.signalChanged cellId cell.dbm])
    | none => ({ task with cells := task.cells.insert sti {} }, [.signalChanged cellId 0])

/-- The entry of a cell with the next id, unless there is one. -/
def enter (sti : UInt64) : RlsUdpTask :=
  match task.cells.lookup sti with
  | some _ => task
  | none =>
    let cellId := task.cellIdCounter + 1
    { task with
      cellIdCounter := cellId
      cells := task.cells.insert sti { cellId }
      cellIdToSti := task.cellIdToSti.insert cellId sti }

def receiveRlsPdu (time : Int) (address : InetAddress) (msg : RlsMessage) :
    RlsUdpTask × List RlsUdpOutput :=
  match msg with
  | .heartBeatAck sti dbm =>
    let task := task.enter sti
    let oldDbm := ((task.cells.lookup sti).map CellInfo.dbm).getD lostDbm
    let cell := (task.cells.lookup sti).getD {}
    let task := { task with
      cells := task.cells.insert sti { cell with address, lastSeen := time, dbm } }
    if oldDbm ≠ dbm then task.onSignalChangeOrLost cell.cellId else (task, [])
  | msg =>
    match task.cells.lookup msg.sti with
    | none => (task, [])
    | some cell => (task, [.receiveRlsMessage cell.cellId msg])

/-- The cells not refreshed within the threshold, in the order of a set. The time that has passed is
an unsigned number. -/
def toRemove (time : Int) : List (UInt64 × Nat) :=
  ((task.cells.entries.filter fun item =>
    (time - item.2.lastSeen) % 2 ^ 64 > heartbeatThreshold).map fun item =>
      (item.1, item.2.cellId)).insertionSort fun a b => a.1 ≤ b.1

/-- The signals of several cells. -/
def signalAll : RlsUdpTask → List Nat → RlsUdpTask × List RlsUdpOutput
  | task, [] => (task, [])
  | task, cellId :: rest =>
    let (task, out) := task.onSignalChangeOrLost cellId
    let (task, outs) := signalAll task rest
    (task, out ++ outs)

def heartbeatCycle (time : Int) : RlsUdpTask × List RlsUdpOutput :=
  let removed := task.toRemove time
  let task := { task with
    cells := (removed.map Prod.fst).foldl (fun cells sti => cells.erase sti) task.cells
    cellIdToSti := (removed.map Prod.snd).foldl (fun map cellId => map.erase cellId)
      task.cellIdToSti }
  let (task, out) := task.signalAll (removed.map Prod.snd)
  (task, out ++ task.searchSpace.map fun address => .send address (.heartBeat task.sti task.simPos))

end RlsUdpTask

/-! ## Histories -/

/-- The task, all it has put out, and all ids it has given to cells. -/
structure CellHistory where
  task : RlsUdpTask
  log : List RlsUdpOutput := []
  given : List (Nat × UInt64) := []

inductive CellEvent
  | receive (time : Int) (address : InetAddress) (msg : RlsMessage)
  | heartbeatCycle (time : Int)

namespace CellHistory

variable (s : CellHistory)

/-- The id that a message makes the task give to its cell. -/
def gives (task : RlsUdpTask) : RlsMessage → List (Nat × UInt64)
  | .heartBeatAck sti _ => if sti ∈ task.cells then [] else [(task.cellIdCounter + 1, sti)]
  | _ => []

def next : CellEvent → CellHistory
  | .receive time address msg =>
    let (task, out) := s.task.receiveRlsPdu time address msg
    { task, log := s.log ++ out, given := s.given ++ gives s.task msg }
  | .heartbeatCycle time =>
    let (task, out) := s.task.heartbeatCycle time
    { s with task, log := s.log ++ out }

/-- The task from its start on. Times are arbitrary, those of a clock among them. -/
def system : System CellHistory CellEvent where
  init s := s.task.cells = ∅ ∧ s.task.cellIdToSti = ∅ ∧ s.log = [] ∧ s.given = []
  step s e t := t = s.next e

/-- What a layer makes of a signal, where signals below a limit are lost. -/
def replay (limit : Int) (signals : Nat → Option Int) : RlsUdpOutput → Nat → Option Int
  | .signalChanged cellId dbm =>
    update signals cellId (if dbm < limit then none else some dbm)
  | _ => signals

/-- The signals by what was announced. -/
def replayed (limit : Int) (log : List RlsUdpOutput) : Nat → Option Int :=
  log.foldl (replay limit) fun _ => none

/-- The signal of a cell in the tables. -/
def signal (task : RlsUdpTask) (cellId : Nat) : Option Int :=
  (task.cellIdToSti.lookup cellId).bind fun sti => (task.cells.lookup sti).map CellInfo.dbm

/-- The tables are each other's inverse, and no id was given twice. -/
structure Linked : Prop where
  inverse : ∀ sti cellId, (∃ cell, s.task.cells.lookup sti = some cell ∧ cell.cellId = cellId) ↔
    s.task.cellIdToSti.lookup cellId = some sti
  unshared : ∀ cellId sti sti', (cellId, sti) ∈ s.given → (cellId, sti') ∈ s.given → sti = sti'

/-- The tables belong together, and signals are what was announced. -/
structure Consistent (limit : Int) : Prop extends s.Linked where
  announced : ∀ cellId, replayed limit s.log cellId = signal s.task cellId

/-- An acknowledged heartbeat has a signal above the limit, and not the signal 0 where it is the
first one of its cell. -/
def Announces (limit : Int) (s : CellHistory) : CellEvent → Prop
  | .receive _ _ (.heartBeatAck sti dbm) => limit ≤ dbm ∧ (dbm = 0 → sti ∈ s.task.cells)
  | _ => True

variable {s t : CellHistory} {limit : Int}

/-- The ids so far are below the counter. -/
structure Kept (limit : Int) (s : CellHistory) : Prop extends s.Consistent limit where
  counted : ∀ cellId sti, (cellId, sti) ∈ s.given → cellId ≤ s.task.cellIdCounter
  mapped : ∀ cellId sti, s.task.cellIdToSti.lookup cellId = some sti →
    cellId ≤ s.task.cellIdCounter

/-! ## Signals -/

theorem replayed_append (log out : List RlsUdpOutput) :
    replayed limit (log ++ out) = out.foldl (replay limit) (replayed limit log) :=
  List.foldl_append ..

/-- What is not lost is not below the limit. -/
theorem le_of_replayed {log : List RlsUdpOutput} {cellId : Nat} {dbm : Int}
    (h : replayed limit log cellId = some dbm) : limit ≤ dbm := by
  induction log using List.reverseRecOn with
  | nil => cases h
  | append_singleton log out ih =>
    rw [replayed_append] at h
    cases out with
    | signalChanged id signal =>
      change update (replayed limit log) id _ cellId = some dbm at h
      by_cases hid : cellId = id
      · rw [hid, update_self] at h
        split at h
        · cases h
        · next hnot =>
          obtain rfl := Option.some.inj h
          exact Int.not_lt.mp hnot
      · rw [update_of_ne hid] at h
        exact ih h
    | receiveRlsMessage id msg => exact ih h
    | send address msg => exact ih h

/-- Signals that are lost leave the other ones. -/
theorem foldl_replay_lost (hlimit : lostDbm < limit) (ids : List Nat)
    (signals : Nat → Option Int) (cellId : Nat) :
    (ids.map fun id => RlsUdpOutput.signalChanged id lostDbm).foldl (replay limit) signals cellId =
      if cellId ∈ ids then none else signals cellId := by
  induction ids generalizing signals with
  | nil => simp
  | cons id rest ih =>
    rw [List.map_cons, List.foldl_cons, ih, replay, if_pos hlimit]
    by_cases hrest : cellId ∈ rest
    · simp [hrest]
    · by_cases hid : cellId = id
      · simp [hid]
      · simp [hrest, hid]

theorem foldl_replay_send (addresses : List InetAddress) (msg : RlsMessage)
    (signals : Nat → Option Int) :
    (addresses.map fun address => RlsUdpOutput.send address msg).foldl (replay limit) signals =
      signals := by
  induction addresses with
  | nil => rfl
  | cons address rest ih => exact ih

/-! ## Reception -/

section Receive

variable {time : Int} {address : InetAddress} {sti other : UInt64} {dbm : Int}

/-- The entry that an acknowledged heartbeat finds or makes. -/
def cellOf (task : RlsUdpTask) (sti : UInt64) : CellInfo :=
  (task.cells.lookup sti).getD { cellId := task.cellIdCounter + 1 }

/-- The id of an entry belongs to no other cell. -/
theorem Kept.eq_of_cellOf (h : s.Kept limit)
    (hother : s.task.cellIdToSti.lookup (cellOf s.task sti).cellId = some other) : other = sti := by
  unfold cellOf at hother
  cases hcell : s.task.cells.lookup sti with
  | none =>
    rw [hcell] at hother
    exact absurd (h.mapped _ _ hother) (Nat.not_succ_le_self _)
  | some cell =>
    rw [hcell] at hother
    have hmapped := (h.inverse sti cell.cellId).mp ⟨cell, hcell, rfl⟩
    exact Option.some.inj (hother.symm.trans hmapped)

/-- Behind `enter` a cell has an entry and an id. -/
theorem Kept.enter (h : s.Kept limit) (sti : UInt64) :
    let cell := cellOf s.task sti
    (s.task.enter sti).cells.lookup sti = some cell ∧
    (∀ other, other ≠ sti →
      (s.task.enter sti).cells.lookup other = s.task.cells.lookup other) ∧
    (∀ cellId, (s.task.enter sti).cellIdToSti.lookup cellId =
      if cellId = cell.cellId then some sti else s.task.cellIdToSti.lookup cellId) ∧
    (s.task.enter sti).cellIdCounter =
      if sti ∈ s.task.cells then s.task.cellIdCounter else s.task.cellIdCounter + 1 := by
  unfold RlsUdpTask.enter cellOf
  cases hcell : s.task.cells.lookup sti with
  | none =>
    have hnot : sti ∉ s.task.cells := AList.lookup_eq_none.mp hcell
    refine ⟨AList.lookup_insert _, fun other hother => AList.lookup_insert_ne hother,
      fun cellId => ?_, (if_neg hnot).symm⟩
    by_cases hid : cellId = s.task.cellIdCounter + 1
    · rw [hid]
      simp
    · simp [AList.lookup_insert_ne hid, hid]
  | some cell =>
    have hmem : sti ∈ s.task.cells := AList.lookup_isSome.mp (by rw [hcell]; rfl)
    have hmapped := (h.inverse sti cell.cellId).mp ⟨cell, hcell, rfl⟩
    refine ⟨hcell, fun other _ => rfl, fun cellId => ?_, (if_pos hmem).symm⟩
    by_cases hid : cellId = cell.cellId
    · rw [hid, hmapped]
      simp
    · simp [hid]

/-- What an acknowledged heartbeat does to the tables, and the signal that is announced. -/
theorem Kept.receive_ack (h : s.Kept limit) (time : Int) (address : InetAddress) (sti : UInt64)
    (dbm : Int) :
    let t := s.next (.receive time address (.heartBeatAck sti dbm))
    let cell := cellOf s.task sti
    (∀ other, t.task.cells.lookup other =
      if other = sti then some { cell with address, lastSeen := time, dbm }
      else s.task.cells.lookup other) ∧
    (∀ cellId, t.task.cellIdToSti.lookup cellId =
      if cellId = cell.cellId then some sti else s.task.cellIdToSti.lookup cellId) ∧
    t.task.cellIdCounter =
      (if sti ∈ s.task.cells then s.task.cellIdCounter else s.task.cellIdCounter + 1) ∧
    t.log = s.log ++ (if cell.dbm ≠ dbm then [.signalChanged cell.cellId dbm] else []) := by
  intro t cell
  obtain ⟨hcell, hothers, hmap, hcounter⟩ := h.enter sti
  let behind : RlsUdpTask := { s.task.enter sti with
    cells := (s.task.enter sti).cells.insert sti { cell with address, lastSeen := time, dbm } }
  have hsignal : behind.onSignalChangeOrLost cell.cellId =
      (behind, [.signalChanged cell.cellId dbm]) := by
    unfold RlsUdpTask.onSignalChangeOrLost
    have hsti : behind.cellIdToSti.lookup cell.cellId = some sti := (hmap _).trans (if_pos rfl)
    have hentry : behind.cells.lookup sti =
        some { cell with address, lastSeen := time, dbm } := AList.lookup_insert _
    rw [hsti]
    dsimp only
    rw [hentry]
  have hreceive : s.task.receiveRlsPdu time address (.heartBeatAck sti dbm) =
      (behind, if cell.dbm ≠ dbm then [.signalChanged cell.cellId dbm] else []) := by
    simp only [RlsUdpTask.receiveRlsPdu, hcell, Option.map_some, Option.getD_some]
    change (if cell.dbm ≠ dbm then behind.onSignalChangeOrLost cell.cellId else (behind, [])) = _
    rw [hsignal]
    split <;> rfl
  have ht : t.task = behind ∧
      t.log = s.log ++ (if cell.dbm ≠ dbm then [.signalChanged cell.cellId dbm] else []) := by
    simp only [t, next, hreceive, and_self]
  rw [ht.1]
  refine ⟨fun other => ?_, hmap, hcounter, ht.2⟩
  by_cases hother : other = sti
  · rw [hother, if_pos rfl]
    exact AList.lookup_insert _
  · rw [if_neg hother]
    exact (AList.lookup_insert_ne hother).trans (hothers other hother)

/-- Another message leaves the tables. -/
theorem next_receive_other {msg : RlsMessage} (time : Int) (address : InetAddress)
    (h : ∀ sti dbm, msg ≠ .heartBeatAck sti dbm) :
    (s.next (.receive time address msg)).task = s.task ∧
      (s.next (.receive time address msg)).given = s.given ∧
      replayed limit (s.next (.receive time address msg)).log = replayed limit s.log := by
  cases msg with
  | heartBeatAck sti dbm => exact absurd rfl (h sti dbm)
  | _ =>
    simp only [next, RlsUdpTask.receiveRlsPdu, gives, replayed_append]
    split <;> simp [replay]

theorem mem_gives {task : RlsUdpTask} {cellId : Nat} :
    (cellId, other) ∈ gives task (.heartBeatAck sti dbm) ↔
      sti ∉ task.cells ∧ cellId = task.cellIdCounter + 1 ∧ other = sti := by
  by_cases hmem : sti ∈ task.cells
  · simp [gives, hmem]
  · simp [gives, hmem]

/-- The tables stay each other's inverse, whatever the signal. -/
theorem Kept.linked_ack (h : s.Kept limit) :
    (s.next (.receive time address (.heartBeatAck sti dbm))).Linked := by
  obtain ⟨hcells, hmap, -, -⟩ := h.receive_ack time address sti dbm
  refine ⟨fun other cellId => ?_, ?_⟩
  · rw [hcells, hmap]
    by_cases hother : other = sti
    · subst hother
      rw [if_pos rfl]
      by_cases hid : cellId = (cellOf s.task other).cellId
      · rw [if_pos hid]
        exact iff_of_true ⟨_, rfl, hid.symm⟩ rfl
      · rw [if_neg hid]
        constructor
        · rintro ⟨cell, hcell, rfl⟩
          obtain rfl := Option.some.inj hcell
          exact absurd rfl hid
        · intro hmapped
          obtain ⟨cell, hcell, rfl⟩ := (h.inverse other cellId).mpr hmapped
          exact absurd (by rw [cellOf, hcell]; rfl) hid
    · rw [if_neg hother, h.inverse]
      by_cases hid : cellId = (cellOf s.task sti).cellId
      · rw [if_pos hid, hid]
        constructor
        · exact fun hmapped => absurd (h.eq_of_cellOf hmapped) hother
        · exact fun hsame => absurd (Option.some.inj hsame).symm hother
      · rw [if_neg hid]
  · change ∀ cellId sti' sti'', (cellId, sti') ∈ s.given ++ gives s.task _ → _
    intro cellId sti' sti'' hsti' hsti''
    have hnew {other : UInt64} (hother : (cellId, other) ∈ gives s.task (.heartBeatAck sti dbm)) :
        cellId = s.task.cellIdCounter + 1 ∧ other = sti := (mem_gives.mp hother).2
    rcases List.mem_append.mp hsti' with hold | hgiven <;>
      rcases List.mem_append.mp hsti'' with hold' | hgiven'
    · exact h.unshared cellId sti' sti'' hold hold'
    · exact absurd ((hnew hgiven').1 ▸ h.counted _ _ hold) (Nat.not_succ_le_self _)
    · exact absurd ((hnew hgiven).1 ▸ h.counted _ _ hold') (Nat.not_succ_le_self _)
    · exact (hnew hgiven).2.trans (hnew hgiven').2.symm

/-- The signals of the tables behind an acknowledged heartbeat. -/
theorem Kept.signal_ack (h : s.Kept limit) :
    signal (s.next (.receive time address (.heartBeatAck sti dbm))).task =
      update (signal s.task) (cellOf s.task sti).cellId (some dbm) := by
  obtain ⟨hcells, hmap, -, -⟩ := h.receive_ack time address sti dbm
  ext1 cellId
  unfold signal
  rw [hmap]
  by_cases hid : cellId = (cellOf s.task sti).cellId
  · rw [if_pos hid, hid, update_self, Option.bind_some, hcells, if_pos rfl]
    rfl
  · rw [if_neg hid, update_of_ne hid]
    cases hmapped : s.task.cellIdToSti.lookup cellId with
    | none => rfl
    | some other =>
      have hother : other ≠ sti := by
        rintro rfl
        obtain ⟨cell, hcell, rfl⟩ := (h.inverse other cellId).mpr hmapped
        exact hid (by rw [cellOf, hcell]; rfl)
      rw [Option.bind_some, Option.bind_some, hcells, if_neg hother]

theorem Kept.ack_iff (h : s.Kept limit) :
    (s.next (.receive time address (.heartBeatAck sti dbm))).Consistent limit ↔
      s.Announces limit (.receive time address (.heartBeatAck sti dbm)) := by
  obtain ⟨-, -, -, hlog⟩ := h.receive_ack time address sti dbm
  have hknown {cell : CellInfo} (hcell : s.task.cells.lookup sti = some cell) :
      replayed limit s.log (cellOf s.task sti).cellId = some cell.dbm := by
    have hmapped := (h.inverse sti cell.cellId).mp ⟨cell, hcell, rfl⟩
    rw [h.announced, signal, cellOf, hcell, Option.getD_some, hmapped, Option.bind_some, hcell]
    rfl
  have hnew (hcell : s.task.cells.lookup sti = none) :
      replayed limit s.log (cellOf s.task sti).cellId = none := by
    rw [h.announced, signal]
    cases hmapped : s.task.cellIdToSti.lookup (cellOf s.task sti).cellId with
    | none => rfl
    | some other =>
      rw [cellOf, hcell] at hmapped
      exact absurd (h.mapped _ _ hmapped) (Nat.not_succ_le_self _)
  have hbehind : replayed limit (s.next (.receive time address (.heartBeatAck sti dbm))).log =
      if (cellOf s.task sti).dbm ≠ dbm then
        update (replayed limit s.log) (cellOf s.task sti).cellId
          (if dbm < limit then none else some dbm)
      else replayed limit s.log := by
    rw [hlog, replayed_append]
    split <;> rfl
  constructor
  · intro hconsistent
    have hsame := hconsistent.announced (cellOf s.task sti).cellId
    rw [hbehind, h.signal_ack, update_self] at hsame
    split at hsame
    · next hne =>
      rw [update_self] at hsame
      split at hsame
      · cases hsame
      · next hnot =>
        refine ⟨Int.not_lt.mp hnot, fun hzero => ?_⟩
        by_contra habsent
        rw [cellOf, AList.lookup_eq_none.mpr habsent] at hne
        exact hne hzero.symm
    · refine ⟨le_of_replayed hsame, fun _ => ?_⟩
      by_contra habsent
      rw [hnew (AList.lookup_eq_none.mpr habsent)] at hsame
      cases hsame
  · rintro ⟨hle, hzero⟩
    refine ⟨h.linked_ack, fun cellId => ?_⟩
    rw [hbehind, h.signal_ack]
    split
    · rw [if_neg (Int.not_lt.mpr hle)]
      by_cases hid : cellId = (cellOf s.task sti).cellId
      · rw [hid, update_self, update_self]
      · rw [update_of_ne hid, update_of_ne hid, h.announced]
    · next hsame =>
      have hdbm : (cellOf s.task sti).dbm = dbm := not_not.mp hsame
      by_cases hid : cellId = (cellOf s.task sti).cellId
      · rw [hid, update_self]
        cases hcell : s.task.cells.lookup sti with
        | none =>
          rw [cellOf, hcell] at hdbm
          exact absurd (hzero hdbm.symm) (AList.lookup_eq_none.mp hcell)
        | some cell =>
          rw [hknown hcell, ← hdbm, cellOf, hcell]
          rfl
      · rw [update_of_ne hid, h.announced]

/-- The ids stay below the counter. -/
theorem Kept.ack (h : s.Kept limit)
    (hannounces : s.Announces limit (.receive time address (.heartBeatAck sti dbm))) :
    (s.next (.receive time address (.heartBeatAck sti dbm))).Kept limit := by
  obtain ⟨-, hmap, hcounter, -⟩ := h.receive_ack time address sti dbm
  have hgrows : s.task.cellIdCounter ≤
      (s.next (.receive time address (.heartBeatAck sti dbm))).task.cellIdCounter := by
    rw [hcounter]
    split
    · exact Nat.le_refl _
    · exact Nat.le_succ _
  refine ⟨h.ack_iff.mpr hannounces, fun cellId other hgiven => ?_, fun cellId other hmapped => ?_⟩
  · rcases List.mem_append.mp hgiven with hold | hnew
    · exact Nat.le_trans (h.counted cellId other hold) hgrows
    · obtain ⟨habsent, rfl, -⟩ := mem_gives.mp hnew
      rw [hcounter, if_neg habsent]
  · rw [hmap] at hmapped
    split at hmapped
    · next hid =>
      rw [hid, cellOf, hcounter]
      cases hcell : s.task.cells.lookup sti with
      | none =>
        rw [if_neg (AList.lookup_eq_none.mp hcell)]
        exact Nat.le_refl _
      | some cell =>
        rw [if_pos (AList.lookup_isSome.mp (by rw [hcell]; rfl))]
        exact h.mapped _ _ ((h.inverse sti cell.cellId).mp ⟨cell, hcell, rfl⟩)
    · exact Nat.le_trans (h.mapped cellId other hmapped) hgrows

end Receive

/-! ## Cycles -/

section Cycle

variable {time : Int} {task : RlsUdpTask} {sti : UInt64} {cellId : Nat}

theorem mem_toRemove :
    (sti, cellId) ∈ task.toRemove time ↔ ∃ cell, task.cells.lookup sti = some cell ∧
      cell.cellId = cellId ∧
        (time - cell.lastSeen) % 2 ^ 64 > RlsUdpTask.heartbeatThreshold := by
  rw [RlsUdpTask.toRemove, List.mem_insertionSort, List.mem_map]
  constructor
  · rintro ⟨item, hitem, heq⟩
    obtain ⟨rfl, rfl⟩ := Prod.mk.inj heq
    obtain ⟨hentry, hlate⟩ := List.mem_filter.mp hitem
    exact ⟨item.2, AList.mem_lookup_iff.mpr hentry, rfl, of_decide_eq_true hlate⟩
  · rintro ⟨cell, hcell, rfl, hlate⟩
    exact ⟨⟨sti, cell⟩,
      List.mem_filter.mpr ⟨AList.mem_lookup_iff.mp hcell, decide_eq_true hlate⟩, rfl⟩

/-- Ids that belong to no cell are announced as lost. -/
theorem signalAll_of_none {ids : List Nat}
    (h : ∀ cellId ∈ ids, task.cellIdToSti.lookup cellId = none) :
    task.signalAll ids = (task, ids.map fun cellId => .signalChanged cellId lostDbm) := by
  induction ids with
  | nil => rfl
  | cons cellId rest ih =>
    obtain ⟨hfirst, hrest⟩ := List.forall_mem_cons.mp h
    simp only [RlsUdpTask.signalAll, RlsUdpTask.onSignalChangeOrLost, hfirst, ih hrest,
      List.map_cons, List.singleton_append]

/-- What a cycle does to the tables, and what is announced. -/
theorem next_cycle (limit : Int) (hlimit : lostDbm < limit) :
    let t := s.next (.heartbeatCycle time)
    let removed := s.task.toRemove time
    (∀ sti, t.task.cells.lookup sti =
      if sti ∈ removed.map Prod.fst then none else s.task.cells.lookup sti) ∧
    (∀ cellId, t.task.cellIdToSti.lookup cellId =
      if cellId ∈ removed.map Prod.snd then none else s.task.cellIdToSti.lookup cellId) ∧
    t.task.cellIdCounter = s.task.cellIdCounter ∧ t.given = s.given ∧
    ∀ cellId, replayed limit t.log cellId =
      if cellId ∈ removed.map Prod.snd then none else replayed limit s.log cellId := by
  intro t removed
  let behind : RlsUdpTask := { s.task with
    cells := (removed.map Prod.fst).foldl (fun cells sti => cells.erase sti) s.task.cells
    cellIdToSti := (removed.map Prod.snd).foldl (fun map cellId => map.erase cellId)
      s.task.cellIdToSti }
  have hmap (cellId : Nat) : behind.cellIdToSti.lookup cellId =
      if cellId ∈ removed.map Prod.snd then none else s.task.cellIdToSti.lookup cellId :=
    lookup_foldl_erase ..
  have hsignals : behind.signalAll (removed.map Prod.snd) =
      (behind, (removed.map Prod.snd).map fun cellId => .signalChanged cellId lostDbm) :=
    signalAll_of_none fun cellId hid => (hmap cellId).trans (if_pos hid)
  have hcycle : s.task.heartbeatCycle time = (behind,
      ((removed.map Prod.snd).map fun cellId => .signalChanged cellId lostDbm) ++
        s.task.searchSpace.map fun address =>
          .send address (.heartBeat s.task.sti s.task.simPos)) := by
    have hbehind : s.task.heartbeatCycle time =
        let signalled := behind.signalAll (removed.map Prod.snd)
        (signalled.1, signalled.2 ++ signalled.1.searchSpace.map fun address =>
          .send address (.heartBeat signalled.1.sti signalled.1.simPos)) := rfl
    rw [hbehind, hsignals]
  have ht : t.task = behind ∧ t.given = s.given ∧ t.log = s.log ++
      (((removed.map Prod.snd).map fun cellId => .signalChanged cellId lostDbm) ++
        s.task.searchSpace.map fun address =>
          .send address (.heartBeat s.task.sti s.task.simPos)) := by
    simp only [t, next, hcycle, and_self]
  rw [ht.1]
  refine ⟨fun sti => lookup_foldl_erase .., hmap, rfl, ht.2.1, fun cellId => ?_⟩
  rw [ht.2.2, replayed_append, List.foldl_append, foldl_replay_send, foldl_replay_lost hlimit]

/-- A cell is taken out of both tables or of neither. -/
theorem Kept.removed_iff (h : s.Kept limit)
    (hmapped : s.task.cellIdToSti.lookup cellId = some sti) :
    sti ∈ (s.task.toRemove time).map Prod.fst ↔ cellId ∈ (s.task.toRemove time).map Prod.snd := by
  constructor
  · intro hmem
    obtain ⟨⟨sti', other⟩, hremoved, rfl⟩ := List.mem_map.mp hmem
    obtain ⟨cell, hcell, rfl, -⟩ := mem_toRemove.mp hremoved
    obtain ⟨cell', hcell', rfl⟩ := (h.inverse sti' cellId).mpr hmapped
    obtain rfl := Option.some.inj (hcell.symm.trans hcell')
    exact List.mem_map_of_mem hremoved
  · intro hmem
    obtain ⟨⟨other, cellId'⟩, hremoved, rfl⟩ := List.mem_map.mp hmem
    obtain ⟨cell, hcell, rfl, -⟩ := mem_toRemove.mp hremoved
    have hmapped' := (h.inverse other cell.cellId).mp ⟨cell, hcell, rfl⟩
    obtain rfl := Option.some.inj (hmapped.symm.trans hmapped')
    exact List.mem_map_of_mem hremoved

theorem Kept.cycle (h : s.Kept limit) (hlimit : lostDbm < limit) :
    (s.next (.heartbeatCycle time)).Kept limit := by
  obtain ⟨hcells, hmap, hcounter, hgiven, hlog⟩ := @next_cycle s time limit hlimit
  refine ⟨⟨⟨fun sti cellId => ?_, ?_⟩, fun cellId => ?_⟩, ?_, fun cellId sti hmapped => ?_⟩
  · rw [hcells, hmap]
    by_cases hmapped : s.task.cellIdToSti.lookup cellId = some sti
    · by_cases hid : cellId ∈ (s.task.toRemove time).map Prod.snd
      · rw [if_pos hid, if_pos ((h.removed_iff hmapped).mpr hid)]
        exact ⟨fun hsome => hsome.elim fun _ hcell => (Option.some_ne_none _ hcell.1.symm).elim,
          fun hsome => (Option.some_ne_none _ hsome.symm).elim⟩
      · rw [if_neg hid, if_neg fun hsti => hid ((h.removed_iff hmapped).mp hsti)]
        exact h.inverse sti cellId
    · constructor
      · rintro ⟨cell, hcell, hid⟩
        split at hcell
        · cases hcell
        · exact absurd ((h.inverse sti cellId).mp ⟨cell, hcell, hid⟩) hmapped
      · intro hsome
        split at hsome
        · cases hsome
        · exact absurd hsome hmapped
  · rw [hgiven]
    exact h.unshared
  · rw [hlog, h.announced, signal, signal, hmap]
    split
    · rfl
    · next hid =>
      cases hmapped : s.task.cellIdToSti.lookup cellId with
      | none => rfl
      | some sti =>
        rw [Option.bind_some, Option.bind_some, hcells,
          if_neg fun hsti => hid ((h.removed_iff hmapped).mp hsti)]
  · rw [hgiven, hcounter]
    exact h.counted
  · rw [hmap] at hmapped
    split at hmapped
    · cases hmapped
    · exact hcounter ▸ h.mapped cellId sti hmapped

end Cycle

/-! ## Runs -/

theorem Kept.init (h : system.init s) : s.Kept limit := by
  obtain ⟨hcells, hmap, hlog, hgiven⟩ := h
  refine ⟨⟨⟨fun sti cellId => ?_, fun cellId sti sti' hmem _ => ?_⟩, fun cellId => ?_⟩,
    fun cellId sti hmem => ?_, fun cellId sti hmapped => ?_⟩
  · rw [hcells, hmap]
    exact ⟨fun hsome => hsome.elim fun _ hcell => (Option.some_ne_none _ hcell.1.symm).elim,
      fun hsome => (Option.some_ne_none _ hsome.symm).elim⟩
  · rw [hgiven] at hmem
    cases hmem
  · rw [hlog, signal, hmap]
    rfl
  · rw [hgiven] at hmem
    cases hmem
  · rw [hmap] at hmapped
    cases hmapped

theorem Kept.receive_other (h : s.Kept limit) {msg : RlsMessage} (time : Int)
    (address : InetAddress) (hother : ∀ sti dbm, msg ≠ .heartBeatAck sti dbm) :
    (s.next (.receive time address msg)).Kept limit := by
  obtain ⟨htask, hgiven, hlog⟩ := @next_receive_other s limit msg time address hother
  refine ⟨⟨⟨?_, ?_⟩, ?_⟩, ?_, ?_⟩
  · rw [htask]
    exact h.inverse
  · rw [hgiven]
    exact h.unshared
  · rw [hlog, htask]
    exact h.announced
  · rw [hgiven, htask]
    exact h.counted
  · rw [htask]
    exact h.mapped

theorem Kept.step (hlimit : lostDbm < limit) {e : CellEvent} (h : s.Kept limit)
    (hannounces : s.Announces limit e) (hstep : system.step s e t) : t.Kept limit := by
  obtain rfl : t = s.next e := hstep
  cases e with
  | heartbeatCycle time => exact h.cycle hlimit
  | receive time address msg =>
    cases msg with
    | heartBeatAck sti dbm => exact h.ack hannounces
    | _ => exact h.receive_other time address fun _ _ heq => RlsMessage.noConfusion heq

theorem within_iff (hlimit : lostDbm < limit) {events : List CellEvent} :
    system.RunWithin (fun t => t.Consistent limit) events s ↔
      system.Run (Announces limit) events s := by
  apply System.Run.within_iff (fun _ => Kept.init) (fun _ h => h.toConsistent)
    fun _ _ _ h hannounces hstep => h.step hlimit hannounces hstep
  rintro s e t hkept hstep hconsistent
  obtain rfl : t = s.next e := hstep
  cases e with
  | heartbeatCycle time => trivial
  | receive time address msg =>
    cases msg with
    | heartBeatAck sti dbm => exact hkept.ack_iff.mp hconsistent
    | _ => trivial

/-- The signals below this one are lost for RRC. The task itself takes only `lostDbm` so. -/
def rrcLimit : Int := -120

private def cellAddress : InetAddress := ⟨[10, 0, 0, 1], 4997⟩

private def firstTask : RlsUdpTask := { sti := 77 }

end CellHistory

end Ue

end Quicup.Ueransim
