import Quicup.Open5gs.Core.Hash

/-!
# Indexes of owners

A table that holds, for each owner with a key, an entry with the pointer to its key and
the owner. A search for what memory holds behind the pointer finds the owner, as long as
no two owners have the same content there.
-/

namespace Quicup.Open5gs.OgsHash

open Function

variable {κ ν : Type} {mem mem' : κ → List UInt8} {klen : Nat} {ptr ptr' : ν → Option κ}
  {ht : OgsHash κ ν} {v : ν} {p : κ}

/-- The key that a pointer stands for. -/
def keyAt (mem : κ → List UInt8) (klen : Nat) (p : κ) : List UInt8 := (mem p).take klen

/-- Each owner with a key pointer has an entry with it, and there are no other entries. -/
structure Indexed (mem : κ → List UInt8) (klen : Nat) (ptr : ν → Option κ) (ht : OgsHash κ ν) :
    Prop where
  wellFormed : ht.WellFormed mem
  entry : ∀ e ∈ ht, ptr e.val = some e.key ∧ e.klen = klen
  owner : ∀ v p, ptr v = some p → ∃ e ∈ ht, e.val = v
  size : ∀ v p, ptr v = some p → klen ≤ (mem p).length

theorem make_indexed (seed : UInt32) : (make seed : OgsHash κ ν).Indexed mem klen fun _ => none where
  wellFormed := make_wellFormed seed
  entry _ h := nomatch h.choose_spec
  owner := nofun
  size := nofun

namespace Indexed

/-- The content of an entry is the key of its owner. -/
theorem content_eq (h : ht.Indexed mem klen ptr) {e : HashEntry κ ν} (he : e ∈ ht) :
    content mem e = keyAt mem klen e.key := by
  rw [content, (h.entry e he).2, keyAt]

/-- The entry of an owner. -/
theorem exists_entry (h : ht.Indexed mem klen ptr) (hp : ptr v = some p) :
    ∃ e ∈ ht, e.val = v ∧ content mem e = keyAt mem klen p := by
  obtain ⟨e, he, rfl⟩ := h.owner v p hp
  obtain rfl := Option.some.inj ((h.entry e he).1.symm.trans hp)
  exact ⟨e, he, rfl, h.content_eq he⟩

/-- A search for the key of an owner finds the owner. -/
theorem find_owner (h : ht.Indexed mem klen ptr) (hp : ptr v = some p) :
    (ht.findEntry mem (keyAt mem klen p)).map HashEntry.val = some v := by
  obtain ⟨e, he, rfl, hcontent⟩ := h.exists_entry hp
  rw [h.wellFormed.findEntry_eq_some_iff.mpr ⟨he, hcontent⟩]
  rfl

/-- What a search finds is an owner of the key. -/
theorem owner_of_find (h : ht.Indexed mem klen ptr) {k : List UInt8}
    (hfind : (ht.findEntry mem k).map HashEntry.val = some v) :
    ∃ p, ptr v = some p ∧ keyAt mem klen p = k := by
  obtain ⟨e, he, rfl⟩ := Option.map_eq_some_iff.mp hfind
  obtain ⟨hmem, hcontent⟩ := h.wellFormed.findEntry_eq_some_iff.mp he
  exact ⟨e.key, (h.entry e hmem).1, (h.content_eq hmem).symm.trans hcontent⟩

/-- Two owners have different keys. -/
theorem owner_unique (h : ht.Indexed mem klen ptr) {v' : ν} {p' : κ} (hp : ptr v = some p)
    (hp' : ptr v' = some p') (hsame : keyAt mem klen p = keyAt mem klen p') : v = v' := by
  have hfind := h.find_owner hp
  rw [hsame, h.find_owner hp'] at hfind
  exact (Option.some.inj hfind).symm

/-- The index stays exact while memory keeps the keys of the owners. -/
theorem congr (h : ht.Indexed mem klen ptr)
    (hmem : ∀ v p, ptr v = some p → mem' p = mem p) : ht.Indexed mem' klen ptr where
  wellFormed := by
    apply h.wellFormed.congr
    intro e he
    rw [content, content, hmem e.val e.key (h.entry e he).1]
  entry := h.entry
  owner := h.owner
  size v p hp := by
    rw [hmem v p hp]
    exact h.size v p hp

variable [DecidableEq ν]

/-- A key that no owner has is entered for a new owner. -/
theorem set_some (h : ht.Indexed mem klen ptr) (hklen : klen ≠ 0) (hsize : klen ≤ (mem p).length)
    (hnew : ptr v = none)
    (hfresh : (ht.findEntry mem (keyAt mem klen p)).map HashEntry.val = none) :
    ∃ ht', ht.set mem p klen (some v) = .ok ht' ∧
      ht'.Indexed mem klen (update ptr v (some p)) := by
  have hlen : (keyAt mem klen p).length = klen := by
    rw [keyAt, List.length_take, Nat.min_eq_left hsize]
  have hnone : ht.findEntry mem (keyAt mem klen p) = none := Option.map_eq_none_iff.mp hfresh
  obtain ⟨ht', bound, hset, hwell, hmem, hbound, hval, hkey⟩ :=
    h.wellFormed.set_some hklen (rfl : (mem p).take klen = keyAt mem klen p) hlen v
  replace hkey : p = bound.key := by
    rw [← hkey, show ht.findEntry mem ((mem p).take klen) = none from hnone]
    rfl
  have hother (e : HashEntry κ ν) (he : e ∈ ht) : e.val ≠ v := by
    rintro rfl
    cases hnew.symm.trans (h.entry e he).1
  refine ⟨ht', hset, hwell, fun e he => ?_, fun w q hq => ?_, fun w q hq => ?_⟩
  · rcases (hmem e).mp he with ⟨he, -⟩ | rfl
    · rw [update_of_ne (hother e he)]
      exact h.entry e he
    · rw [hval, update_self, hkey]
      refine ⟨rfl, ?_⟩
      rw [(hwell.keyed e he).2, hbound]
      exact hlen
  · by_cases hw : w = v
    · exact ⟨bound, (hmem bound).mpr (.inr rfl), hval.trans hw.symm⟩
    · rw [update_of_ne hw] at hq
      obtain ⟨e, he, rfl⟩ := h.owner w q hq
      refine ⟨e, (hmem e).mpr (.inl ⟨he, fun hsame => ?_⟩), rfl⟩
      exact h.wellFormed.findEntry_eq_none_iff.mp hnone e he hsame
  · by_cases hw : w = v
    · rw [hw, update_self] at hq
      obtain rfl := Option.some.inj hq
      exact hsize
    · rw [update_of_ne hw] at hq
      exact h.size w q hq

/-- The key of an owner is deleted. -/
theorem set_none (h : ht.Indexed mem klen ptr) (hklen : klen ≠ 0) (hp : ptr v = some p) :
    ∃ ht', ht.set mem p klen none = .ok ht' ∧
      ht'.Indexed mem klen (update ptr v none) := by
  obtain ⟨ht', hset, hwell, hmem⟩ :=
    h.wellFormed.set_none hklen (rfl : (mem p).take klen = keyAt mem klen p)
  refine ⟨ht', hset, hwell, fun e he => ?_, fun w q hq => ?_, fun w q hq => ?_⟩
  · obtain ⟨he, hne⟩ := (hmem e).mp he
    have hother : e.val ≠ v := by
      rintro rfl
      obtain rfl := Option.some.inj ((h.entry e he).1.symm.trans hp)
      exact hne (h.content_eq he)
    rw [update_of_ne hother]
    exact h.entry e he
  · by_cases hw : w = v
    · rw [hw, update_self] at hq
      cases hq
    · rw [update_of_ne hw] at hq
      obtain ⟨e, he, rfl⟩ := h.owner w q hq
      refine ⟨e, (hmem e).mpr ⟨he, fun hsame => hw ?_⟩, rfl⟩
      exact h.owner_unique (h.entry e he).1 hp ((h.content_eq he).symm.trans hsame)
  · by_cases hw : w = v
    · rw [hw, update_self] at hq
      cases hq
    · rw [update_of_ne hw] at hq
      exact h.size w q hq

end Indexed

/-! ## Shared keys -/

/-- Owners may have a key in common: its entry keeps the pointer of one of them, and
leads to one of them. -/
structure Backed (mem : ν → List UInt8) (klen : Nat) (live : ν → Prop) (ht : OgsHash ν ν) : Prop where
  wellFormed : ht.WellFormed mem
  klen_eq : ∀ e ∈ ht, e.klen = klen
  key : ∀ e ∈ ht, live e.key
  val : ∀ e ∈ ht, live e.val
  same : ∀ e ∈ ht, keyAt mem klen e.val = keyAt mem klen e.key

theorem make_backed (seed : UInt32) (mem : ν → List UInt8) (klen : Nat) (live : ν → Prop) :
    (make seed : OgsHash ν ν).Backed mem klen live where
  wellFormed := make_wellFormed seed
  klen_eq _ h := nomatch h.choose_spec
  key _ h := nomatch h.choose_spec
  val _ h := nomatch h.choose_spec
  same _ h := nomatch h.choose_spec

namespace Backed

variable {mem mem' : ν → List UInt8} {live live' : ν → Prop} {ht : OgsHash ν ν}

theorem content_eq (h : ht.Backed mem klen live) {e : HashEntry ν ν} (he : e ∈ ht) :
    content mem e = keyAt mem klen e.key := by
  rw [content, h.klen_eq e he, keyAt]

/-- What a search finds is an owner. -/
theorem live_of_find (h : ht.Backed mem klen live) {k : List UInt8}
    (hfind : (ht.findEntry mem k).map HashEntry.val = some v) : live v := by
  obtain ⟨e, he, rfl⟩ := Option.map_eq_some_iff.mp hfind
  exact h.val e (h.wellFormed.findEntry_eq_some_iff.mp he).1

/-- Memory keeps the keys of the owners. -/
theorem congr (h : ht.Backed mem klen live) (hmem : ∀ v, live v → mem' v = mem v) :
    ht.Backed mem' klen live where
  wellFormed := by
    apply h.wellFormed.congr
    intro e he
    rw [content, content, hmem e.key (h.key e he)]
  klen_eq := h.klen_eq
  key := h.key
  val := h.val
  same e he := by
    rw [keyAt, keyAt, hmem e.val (h.val e he), hmem e.key (h.key e he)]
    exact h.same e he

/-- The key of a new owner is entered. -/
theorem set_some (h : ht.Backed mem klen live) (hklen : klen ≠ 0) (hsize : klen ≤ (mem v).length)
    (hlive : ∀ w, live w → live' w) (hv : live' v) :
    ∃ ht', ht.set mem v klen (some v) = .ok ht' ∧ ht'.Backed mem klen live' := by
  have hlen : (keyAt mem klen v).length = klen := by
    rw [keyAt, List.length_take, Nat.min_eq_left hsize]
  obtain ⟨ht', bound, hset, hwell, hmem, hbound, hval, hkey⟩ :=
    h.wellFormed.set_some hklen (rfl : (mem v).take klen = keyAt mem klen v) hlen v
  change content mem bound = keyAt mem klen v at hbound
  change ((ht.findEntry mem (keyAt mem klen v)).map HashEntry.key).getD v = bound.key at hkey
  have hboundMem : bound ∈ ht' := (hmem bound).mpr (.inr rfl)
  have hklen' : bound.klen = klen := by
    rw [(hwell.keyed bound hboundMem).2, hbound, hlen]
  have hboundKey : live' bound.key := by
    cases hfind : ht.findEntry mem (keyAt mem klen v) with
    | none =>
      rw [hfind] at hkey
      exact hkey ▸ hv
    | some e =>
      rw [hfind] at hkey
      exact hkey ▸ hlive _ (h.key e (h.wellFormed.findEntry_eq_some_iff.mp hfind).1)
  refine ⟨ht', hset, hwell, fun e he => ?_, fun e he => ?_, fun e he => ?_, fun e he => ?_⟩ <;>
    rcases (hmem e).mp he with ⟨he, -⟩ | rfl
  · exact h.klen_eq e he
  · exact hklen'
  · exact hlive _ (h.key e he)
  · exact hboundKey
  · exact hlive _ (h.val e he)
  · rwa [hval]
  · exact h.same e he
  · rw [content, hklen'] at hbound
    rw [hval]
    exact hbound.symm

/-- The key of an owner is deleted, and with it every entry that leads to the owner. -/
theorem set_none (h : ht.Backed mem klen live) (hklen : klen ≠ 0)
    (hlive : ∀ w, live w → w ≠ v → live' w) :
    ∃ ht', ht.set mem v klen none = .ok ht' ∧ ht'.Backed mem klen live' := by
  obtain ⟨ht', hset, hwell, hmem⟩ :=
    h.wellFormed.set_none hklen (rfl : (mem v).take klen = keyAt mem klen v)
  have hother {e : HashEntry ν ν} (he : e ∈ ht') : e ∈ ht ∧ e.key ≠ v ∧ e.val ≠ v := by
    obtain ⟨he, hne⟩ := (hmem e).mp he
    rw [h.content_eq he] at hne
    refine ⟨he, fun hkey => hne (congrArg _ hkey), fun hval => hne ?_⟩
    exact (h.same e he).symm.trans (congrArg _ hval)
  refine ⟨ht', hset, hwell, fun e he => ?_, fun e he => ?_, fun e he => ?_, fun e he => ?_⟩
  · exact h.klen_eq e (hother he).1
  · exact hlive _ (h.key e (hother he).1) (hother he).2.1
  · exact hlive _ (h.val e (hother he).1) (hother he).2.2
  · exact h.same e (hother he).1

end Backed

/-! ## Keys of their own lengths

An owner keeps its key with the length of it, which is zero while it has none. -/

/-- The key that an owner keeps. -/
def ownKey (mem : ν → List UInt8) (klen : ν → Nat) (v : ν) : List UInt8 := (mem v).take (klen v)

/-- An entry has the pointer to the key of an owner, and leads to an owner of this key. -/
structure Keyed (mem : ν → List UInt8) (klen : ν → Nat) (ht : OgsHash ν ν) : Prop where
  wellFormed : ht.WellFormed mem
  klen_eq : ∀ e ∈ ht, e.klen = klen e.key
  klen_ne_zero : ∀ e ∈ ht, e.klen ≠ 0
  same : ∀ e ∈ ht, ownKey mem klen e.val = content mem e

/-- The table has an entry for a key. -/
def Holds (mem : κ → List UInt8) (ht : OgsHash κ ν) (k : List UInt8) : Prop :=
  ∃ e ∈ ht, content mem e = k

/-- Every key that an owner keeps has an entry. -/
def Covers (mem : ν → List UInt8) (klen : ν → Nat) (ht : OgsHash ν ν) : Prop :=
  ∀ v, klen v ≠ 0 → ht.Holds mem (ownKey mem klen v)

namespace Keyed

variable {mem mem' : ν → List UInt8} {klen klen' : ν → Nat} {ht : OgsHash ν ν} {k : List UInt8}
  {e : HashEntry ν ν}

theorem make (seed : UInt32) : (make seed : OgsHash ν ν).Keyed mem klen where
  wellFormed := make_wellFormed seed
  klen_eq _ h := nomatch h.choose_spec
  klen_ne_zero _ h := nomatch h.choose_spec
  same _ h := nomatch h.choose_spec

/-- The content of an entry is the key of the owner whose pointer it has. -/
theorem content_eq (h : ht.Keyed mem klen) (he : e ∈ ht) :
    content mem e = ownKey mem klen e.key := by
  rw [content, h.klen_eq e he, ownKey]

/-- An entry has the pointer to a key of an owner. -/
theorem key_ne_zero (h : ht.Keyed mem klen) (he : e ∈ ht) : klen e.key ≠ 0 := by
  rw [← h.klen_eq e he]
  exact h.klen_ne_zero e he

/-- An entry leads to an owner with a key. -/
theorem val_ne_zero (h : ht.Keyed mem klen) (he : e ∈ ht) : klen e.val ≠ 0 := by
  intro hzero
  have hlen := (h.wellFormed.keyed e he).2
  rw [← h.same e he, ownKey, hzero, List.take_zero, List.length_nil] at hlen
  exact h.klen_ne_zero e he hlen

/-- What a search finds is an owner of the key. -/
theorem owner_of_find (h : ht.Keyed mem klen)
    (hfind : (ht.findEntry mem k).map HashEntry.val = some v) :
    klen v ≠ 0 ∧ ownKey mem klen v = k := by
  obtain ⟨e, he, rfl⟩ := Option.map_eq_some_iff.mp hfind
  obtain ⟨hmem, hcontent⟩ := h.wellFormed.findEntry_eq_some_iff.mp he
  exact ⟨h.val_ne_zero hmem, (h.same e hmem).trans hcontent⟩

/-- A search finds something where the table has an entry. -/
theorem exists_find_iff (h : ht.Keyed mem klen) :
    (∃ v, (ht.findEntry mem k).map HashEntry.val = some v) ↔ ht.Holds mem k := by
  constructor
  · rintro ⟨v, hfind⟩
    obtain ⟨e, he, -⟩ := Option.map_eq_some_iff.mp hfind
    exact ⟨e, h.wellFormed.findEntry_eq_some_iff.mp he⟩
  · rintro ⟨e, he⟩
    exact ⟨e.val, Option.map_eq_some_iff.mpr ⟨e, h.wellFormed.findEntry_eq_some_iff.mpr he, rfl⟩⟩

section Congr

variable (h : ht.Keyed mem klen) (hsame : ∀ w, klen w ≠ 0 → mem' w = mem w ∧ klen' w = klen w)

include h hsame

theorem content_congr {e : HashEntry ν ν} (he : e ∈ ht) : content mem' e = content mem e := by
  rw [content, content, (hsame e.key (h.key_ne_zero he)).1]

/-- What memory holds for an owner without key does not matter. -/
theorem congr : ht.Keyed mem' klen' := by
  refine ⟨h.wellFormed.congr fun e he => h.content_congr hsame he, fun e he => ?_,
    h.klen_ne_zero, fun e he => ?_⟩
  · rw [(hsame e.key (h.key_ne_zero he)).2]
    exact h.klen_eq e he
  · obtain ⟨hmem, hklen⟩ := hsame e.val (h.val_ne_zero he)
    rw [h.content_congr hsame he, ownKey, hmem, hklen]
    exact h.same e he

theorem holds_congr : ht.Holds mem' k ↔ ht.Holds mem k := by
  refine exists_congr fun e => and_congr_right fun he => ?_
  rw [h.content_congr hsame he]

end Congr

/-- The key of an owner is deleted, and with it its entry: for the others the table is as it
was. -/
theorem set_none [DecidableEq ν] (h : ht.Keyed mem klen) (hklen : klen v ≠ 0) :
    ∃ ht', ht.set mem v (klen v) none = .ok ht' ∧
      ht'.Keyed mem (update klen v 0) ∧
      ∀ k, ht'.Holds mem k ↔ ht.Holds mem k ∧ k ≠ ownKey mem klen v := by
  obtain ⟨ht', hset, hwell, hmem⟩ :=
    h.wellFormed.set_none hklen (rfl : (mem v).take (klen v) = ownKey mem klen v)
  refine ⟨ht', hset, ⟨hwell, fun e he => ?_, fun e he => ?_, fun e he => ?_⟩, fun k => ?_⟩
  · obtain ⟨he, hne⟩ := (hmem e).mp he
    have hkey : e.key ≠ v := fun hkey => hne ((h.content_eq he).trans (congrArg _ hkey))
    rw [update_of_ne hkey]
    exact h.klen_eq e he
  · exact h.klen_ne_zero e ((hmem e).mp he).1
  · obtain ⟨he, hne⟩ := (hmem e).mp he
    have hval : e.val ≠ v := fun hval => hne ((h.same e he).symm.trans (congrArg _ hval))
    rw [ownKey, update_of_ne hval]
    exact h.same e he
  · constructor
    · rintro ⟨e, he, rfl⟩
      obtain ⟨he, hne⟩ := (hmem e).mp he
      exact ⟨⟨e, he, rfl⟩, hne⟩
    · rintro ⟨⟨e, he, rfl⟩, hne⟩
      exact ⟨e, (hmem e).mpr ⟨he, hne⟩, rfl⟩

/-- The key of an owner is entered, or its entry leads to the owner from then on. -/
theorem set_some (h : ht.Keyed mem klen) (hklen : klen v ≠ 0) (hsize : klen v ≤ (mem v).length) :
    ∃ ht', ht.set mem v (klen v) (some v) = .ok ht' ∧ ht'.Keyed mem klen ∧
      ∀ k, ht'.Holds mem k ↔ ht.Holds mem k ∨ k = ownKey mem klen v := by
  have hlen : (ownKey mem klen v).length = klen v := by
    rw [ownKey, List.length_take, Nat.min_eq_left hsize]
  obtain ⟨ht', bound, hset, hwell, hmem, hbound, hval, hkey⟩ :=
    h.wellFormed.set_some hklen (rfl : (mem v).take (klen v) = ownKey mem klen v) hlen v
  change content mem bound = ownKey mem klen v at hbound
  change ((ht.findEntry mem (ownKey mem klen v)).map HashEntry.key).getD v = bound.key at hkey
  have hboundMem : bound ∈ ht' := (hmem bound).mpr (.inr rfl)
  have hboundLen : bound.klen = klen v := by
    rw [(hwell.keyed bound hboundMem).2, hbound, hlen]
  have hboundKey : klen bound.key = klen v := by
    rw [← hkey]
    cases hfind : ht.findEntry mem (ownKey mem klen v) with
    | none => rfl
    | some found =>
      obtain ⟨hfound, hcontent⟩ := h.wellFormed.findEntry_eq_some_iff.mp hfind
      change klen found.key = klen v
      rw [← h.klen_eq found hfound, (h.wellFormed.keyed found hfound).2, hcontent, hlen]
  refine ⟨ht', hset, ⟨hwell, fun e he => ?_, fun e he => ?_, fun e he => ?_⟩, fun k => ?_⟩
  · rcases (hmem e).mp he with ⟨he, -⟩ | rfl
    · exact h.klen_eq e he
    · exact hboundLen.trans hboundKey.symm
  · rcases (hmem e).mp he with ⟨he, -⟩ | rfl
    · exact h.klen_ne_zero e he
    · rw [hboundLen]
      exact hklen
  · rcases (hmem e).mp he with ⟨he, -⟩ | rfl
    · exact h.same e he
    · rw [hval]
      exact hbound.symm
  · constructor
    · rintro ⟨e, he, rfl⟩
      rcases (hmem e).mp he with ⟨he, -⟩ | rfl
      · exact .inl ⟨e, he, rfl⟩
      · exact .inr hbound
    · rintro (⟨e, he, rfl⟩ | rfl)
      · by_cases hsame : content mem e = ownKey mem klen v
        · exact ⟨bound, hboundMem, hbound.trans hsame.symm⟩
        · exact ⟨e, (hmem e).mpr (.inl ⟨he, hsame⟩), rfl⟩
      · exact ⟨bound, hboundMem, hbound⟩

end Keyed

/-- A table after the key of one owner was deleted and another was entered, if it has one
then. -/
structure Rekeyed (mem : ν → List UInt8) (klen : ν → Nat) (ht : OgsHash ν ν)
    (mem' : ν → List UInt8) (klen' : ν → Nat) (ht' : OgsHash ν ν) (v : ν) : Prop where
  keyed : ht'.Keyed mem' klen'
  others : ∀ w, w ≠ v → klen' w = klen w ∧ ownKey mem' klen' w = ownKey mem klen w
  holds : ∀ k, ht'.Holds mem' k ↔ (ht.Holds mem k ∧ k ≠ ownKey mem klen v) ∨
    (klen' v ≠ 0 ∧ k = ownKey mem' klen' v)

/-- Every key keeps its entry unless another owner has the one that is given up. -/
theorem Rekeyed.covers_iff {mem mem' : ν → List UInt8} {klen klen' : ν → Nat}
    {ht ht' : OgsHash ν ν} (h : Rekeyed mem klen ht mem' klen' ht' v)
    (hcovers : ht.Covers mem klen) :
    ht'.Covers mem' klen' ↔ ∀ w, w ≠ v → klen w ≠ 0 → ownKey mem klen w = ownKey mem klen v →
      klen' v ≠ 0 ∧ ownKey mem' klen' v = ownKey mem klen v := by
  constructor
  · intro hcovers' w hw hklen hsame
    obtain ⟨hklen', hown⟩ := h.others w hw
    have hholds := hcovers' w (hklen'.trans_ne hklen)
    rw [hown, hsame, h.holds] at hholds
    rcases hholds with ⟨-, hne⟩ | ⟨hv, hentered⟩
    · exact absurd rfl hne
    · exact ⟨hv, hentered.symm⟩
  · intro hshared w hklen'
    by_cases hw : w = v
    · subst hw
      exact (h.holds _).mpr (.inr ⟨hklen', rfl⟩)
    · obtain ⟨hlen, hown⟩ := h.others w hw
      have hklen : klen w ≠ 0 := by rwa [hlen] at hklen'
      rw [hown, h.holds]
      by_cases hsame : ownKey mem klen w = ownKey mem klen v
      · obtain ⟨hv, hentered⟩ := hshared w hw hklen hsame
        exact .inr ⟨hv, hsame.trans hentered.symm⟩
      · exact .inl ⟨hcovers w hklen, hsame⟩

end Quicup.Open5gs.OgsHash
