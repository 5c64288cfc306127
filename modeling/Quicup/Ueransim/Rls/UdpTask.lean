import Mathlib.Data.List.Dedup
import Mathlib.Data.List.Sort
import Quicup.Ueransim.Rls.Pdu
import Quicup.Ueransim.Utils.Network

/-!
# The UDP task of the gNB's radio link

The tables of `rls/udp_task.cpp`. A UE is known by the identifier it sends and gets
an id of the gNB with its first heartbeat. Times are milliseconds of the clock.
-/

namespace Quicup.Ueransim

structure UeInfo where
  sti : UInt64 := 0
  address : InetAddress := ⟨[], 0⟩
  lastSeen : Int := 0
  deriving DecidableEq

structure RlsUdpTask where
  sti : UInt64
  phyLocation : Vector3 := {}
  stiToUe : AList fun _ : UInt64 => Nat := ∅
  ueMap : AList fun _ : Nat => UeInfo := ∅
  newIdCounter : Nat := 0

/-- What the task sends, and what it pushes to the control task. -/
inductive RlsUdpOutput
  | signalDetected (ueId : Nat)
  | signalLost (ueId : Nat)
  | receiveRlsMessage (ueId : Nat) (msg : RlsMessage)
  | send (address : InetAddress) (msg : RlsMessage)
  deriving DecidableEq

/-- The distance is rounded down. -/
def estimateSimulatedDbm (myPos uePos : Vector3) : Int :=
  let deltaX := myPos.x.toInt - uePos.x.toInt
  let deltaY := myPos.y.toInt - uePos.y.toInt
  let deltaZ := myPos.z.toInt - uePos.z.toInt
  let distance := Nat.sqrt (deltaX * deltaX + deltaY * deltaY + deltaZ * deltaZ).toNat
  if distance = 0 then -1 else -distance

namespace RlsUdpTask

def heartbeatThreshold : Int := 2000

def minAllowedDbm : Int := -120

variable (task : RlsUdpTask)

/-- The entry of a UE, inserted when it is missing, with its address and time set. -/
def refresh (ueId : Nat) (address : InetAddress) (time : Int) : AList fun _ : Nat => UeInfo :=
  task.ueMap.insert ueId
    { (task.ueMap.lookup ueId).getD {} with address, lastSeen := time }

def receiveRlsPdu (time : Int) (address : InetAddress) (msg : RlsMessage) :
    RlsUdpTask × List RlsUdpOutput :=
  match msg with
  | .heartBeat sti simPos =>
    let dbm := estimateSimulatedDbm task.phyLocation simPos
    if dbm < minAllowedDbm then (task, [])
    else
      let ack := .send address (.heartBeatAck task.sti dbm)
      match task.stiToUe.lookup sti with
      | some ueId => ({ task with ueMap := task.refresh ueId address time }, [ack])
      | none =>
        let ueId := task.newIdCounter + 1
        ({ task with
            newIdCounter := ueId
            stiToUe := task.stiToUe.insert sti ueId
            ueMap := task.refresh ueId address time },
          [.signalDetected ueId, ack])
  | msg =>
    match task.stiToUe.lookup msg.sti with
    | none => (task, [])
    | some ueId => (task, [.receiveRlsMessage ueId msg])

/-- The entries not refreshed within the threshold. -/
def lost (time : Int) : List (Sigma fun _ : Nat => UeInfo) :=
  task.ueMap.entries.filter fun item => time - item.2.lastSeen > heartbeatThreshold

def lostUeId (time : Int) : List Nat :=
  ((task.lost time).map Sigma.fst).insertionSort (· ≤ ·)

def lostSti (time : Int) : List UInt64 :=
  ((task.lost time).map fun item => item.2.sti).dedup

/-- The identifiers are taken from the entries, where nothing has set them. -/
def heartbeatCycle (time : Int) : RlsUdpTask × List RlsUdpOutput :=
  ({ task with
      stiToUe := (task.lostSti time).foldl (fun stiToUe sti => stiToUe.erase sti) task.stiToUe
      ueMap := (task.lostUeId time).foldl (fun ueMap ueId => ueMap.erase ueId) task.ueMap },
    (task.lostUeId time).map .signalLost)

section Cycle

variable {task} {time : Int}

theorem mem_lost {item : Sigma fun _ : Nat => UeInfo} : item ∈ task.lost time ↔
    task.ueMap.lookup item.1 = some item.2 ∧ time - item.2.lastSeen > heartbeatThreshold := by
  rw [lost, List.mem_filter, decide_eq_true_iff]
  exact and_congr_left' AList.mem_lookup_iff.symm

theorem mem_lostUeId {ueId : Nat} : ueId ∈ task.lostUeId time ↔
    ∃ info, task.ueMap.lookup ueId = some info ∧ time - info.lastSeen > heartbeatThreshold := by
  rw [lostUeId, List.mem_insertionSort, List.mem_map]
  constructor
  · rintro ⟨item, hitem, rfl⟩
    exact ⟨item.2, mem_lost.mp hitem⟩
  · rintro ⟨info, hinfo⟩
    exact ⟨⟨ueId, info⟩, mem_lost.mpr hinfo, rfl⟩

theorem mem_lostSti {sti : UInt64} : sti ∈ task.lostSti time ↔
    ∃ ueId info, task.ueMap.lookup ueId = some info ∧
      time - info.lastSeen > heartbeatThreshold ∧ info.sti = sti := by
  rw [lostSti, List.mem_dedup, List.mem_map]
  constructor
  · rintro ⟨item, hitem, rfl⟩
    obtain ⟨hinfo, hlost⟩ := mem_lost.mp hitem
    exact ⟨item.1, item.2, hinfo, hlost, rfl⟩
  · rintro ⟨ueId, info, hinfo, hlost, rfl⟩
    exact ⟨⟨ueId, info⟩, mem_lost.mpr ⟨hinfo, hlost⟩, rfl⟩

/-- The ids of one cycle are distinct. -/
theorem nodup_lostUeId : (task.lostUeId time).Nodup := by
  have hkeys : (task.ueMap.entries.map Sigma.fst).Nodup := task.ueMap.nodupKeys
  have hlost : ((task.lost time).map Sigma.fst).Nodup :=
    hkeys.sublist (List.filter_sublist.map Sigma.fst)
  exact (List.perm_insertionSort _ _).nodup_iff.mpr hlost

theorem heartbeatCycle_stiToUe (sti : UInt64) :
    (task.heartbeatCycle time).1.stiToUe.lookup sti =
      if sti ∈ task.lostSti time then none else task.stiToUe.lookup sti :=
  lookup_foldl_erase ..

theorem heartbeatCycle_ueMap (ueId : Nat) :
    (task.heartbeatCycle time).1.ueMap.lookup ueId =
      if ueId ∈ task.lostUeId time then none else task.ueMap.lookup ueId :=
  lookup_foldl_erase ..

end Cycle

end RlsUdpTask

end Quicup.Ueransim
