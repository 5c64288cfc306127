import Mathlib.Data.List.AList

/-!
# Session keys and the session tree of the gNB

The session index packs a UE and a PDU session into one 64-bit key. The tree of
`gtp/utils.cpp` maps downlink TEIDs to these keys; its map by UE is read and
erased from but never filled. The rate limiter is the interface of the source.
-/

namespace Quicup.Ueransim

/-! ## Session indices -/

def makeSessionResInd (ueId psi : Int32) : UInt64 :=
  ((ueId.toInt64 <<< 32) ||| psi.toInt64).toUInt64

def getUeId (sessionResInd : UInt64) : Int32 :=
  ((sessionResInd >>> 32) &&& 0xFFFFFFFF).toUInt32.toInt32

def getPsi (sessionResInd : UInt64) : Int32 :=
  (sessionResInd &&& 0xFFFFFFFF).toUInt32.toInt32

private theorem mask_getElem {i : Nat} (hi : i < 32) : (4294967295#32)[i] = true :=
  BitVec.getElem_allOnes i hi

private theorem msb_of_nonneg {v : Int32} (h : 0 ≤ v) : v.toBitVec.msb = false := by
  rw [Int32.le_iff_toInt_le] at h
  by_contra hm
  have hneg := BitVec.toInt_neg_of_msb_true (x := v.toBitVec) (by simpa using hm)
  have hv : v.toInt = v.toBitVec.toInt := rfl
  have h0 : (0 : Int32).toInt = 0 := rfl
  omega

/-- The PDU session of an index is recovered whatever its sign. -/
theorem getPsi_makeSessionResInd (ueId psi : Int32) :
    getPsi (makeSessionResInd ueId psi) = psi := by
  apply Int32.toBitVec_inj.mp
  simp only [getPsi, makeSessionResInd]
  ext i hi
  have h64 : i < 64 := by omega
  simp [mask_getElem hi, BitVec.getElem_signExtend, h64, hi]

/-- The UE of an index is recovered when the PDU session is not negative, as its
sign would spread over the high half. -/
theorem getUeId_makeSessionResInd (ueId : Int32) {psi : Int32} (h : 0 ≤ psi) :
    getUeId (makeSessionResInd ueId psi) = ueId := by
  apply Int32.toBitVec_inj.mp
  simp only [getUeId, makeSessionResInd]
  ext i hi
  have h64 : i < 64 := by omega
  have h64' : 32 + i < 64 := by omega
  have h32 : ¬ 32 + i < 32 := by omega
  simp [mask_getElem hi, BitVec.getElem_signExtend, hi, msb_of_nonneg h, h64, h64', h32]

/-- No index of a UE other than zero is the index that stands for no session. -/
theorem makeSessionResInd_ne_zero {ueId psi : Int32} (hue : ueId ≠ 0) (h : 0 ≤ psi) :
    makeSessionResInd ueId psi ≠ 0 := by
  intro h0
  have hu := getUeId_makeSessionResInd ueId h
  rw [h0] at hu
  exact hue hu.symm

/-! ## The session tree -/

structure PduSessionTree where
  mapByDownTeid : AList fun _ : UInt32 => UInt64 := ∅
  mapByUeId : AList fun _ : Int32 => AList fun _ : Int32 => UInt64 := ∅

namespace PduSessionTree

def insert (tree : PduSessionTree) (session : UInt64) (downTeid : UInt32) : PduSessionTree :=
  { tree with mapByDownTeid := tree.mapByDownTeid.insert downTeid session }

/-- Zero when no session has the TEID. -/
def findByDownTeid (tree : PduSessionTree) (teid : UInt32) : UInt64 :=
  (tree.mapByDownTeid.lookup teid).getD 0

def remove (tree : PduSessionTree) (session : UInt64) (downTeid : UInt32) : PduSessionTree :=
  let ueId := getUeId session
  let psi := getPsi session
  { mapByDownTeid := tree.mapByDownTeid.erase downTeid
    mapByUeId := match tree.mapByUeId.lookup ueId with
      | none => tree.mapByUeId
      | some map =>
        let map := map.erase psi
        if map.entries.isEmpty then tree.mapByUeId.erase ueId
        else tree.mapByUeId.insert ueId map }

def enumerateByUe (tree : PduSessionTree) (ue : Int32) : List UInt64 :=
  match tree.mapByUeId.lookup ue with
  | none => []
  | some map => map.entries.map Sigma.snd

section Lookup

variable (tree : PduSessionTree) (session : UInt64) {teid teid' : UInt32}

@[simp] theorem findByDownTeid_insert :
    (tree.insert session teid).findByDownTeid teid = session := by
  simp [findByDownTeid, insert]

@[simp] theorem findByDownTeid_insert_ne (h : teid ≠ teid') :
    (tree.insert session teid').findByDownTeid teid = tree.findByDownTeid teid := by
  simp [findByDownTeid, insert, h]

@[simp] theorem findByDownTeid_remove_ne (h : teid ≠ teid') :
    (tree.remove session teid').findByDownTeid teid = tree.findByDownTeid teid := by
  simp [findByDownTeid, remove, h]

/-- Removing from a tree whose map by UE is empty leaves that map empty. -/
theorem mapByUeId_remove (h : tree.mapByUeId = ∅) :
    (tree.remove session teid).mapByUeId = ∅ := by
  simp [remove, h]

/-- No session of a UE is found through an empty map. -/
theorem enumerateByUe_of_empty (h : tree.mapByUeId = ∅) (ue : Int32) :
    tree.enumerateByUe ue = [] := by
  simp [enumerateByUe, h]

end Lookup

end PduSessionTree

/-! ## Rate limiting -/

/-- The rate limiter interface, over the state of an implementation. A packet is
asked for with its size and may change the state even when it is refused. -/
structure IRateLimiter (ρ : Type) where
  allowDownlinkPacket : UInt64 → UInt64 → ρ → Bool × ρ
  allowUplinkPacket : UInt64 → UInt64 → ρ → Bool × ρ
  updateUeUplinkLimit : Int32 → UInt64 → ρ → ρ
  updateUeDownlinkLimit : Int32 → UInt64 → ρ → ρ
  updateSessionUplinkLimit : UInt64 → UInt64 → ρ → ρ
  updateSessionDownlinkLimit : UInt64 → UInt64 → ρ → ρ

end Quicup.Ueransim
