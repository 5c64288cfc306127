import Mathlib.Data.Nat.ModEq
import Quicup.Core.Fallible
import Quicup.Core.System
import Quicup.Open5gs.Core.HashIndex
import Quicup.Open5gs.Core.Pool

/-!
# Pools whose entries carry ids

`ogs-pool.h` with the ring of free entries as it is stored, the index table, and the hash from
the ids of a counter to the entries that carry them.
-/

namespace Quicup.Open5gs

open Fallible OgsHash Function

/-- `OGS_MAX_POOL_ID` -/
def ogsMaxPoolId : UInt32 := 0x7fffffff

/-- `OGS_NEXT_ID` from 1 to `OGS_MAX_POOL_ID` -/
def nextPoolId (id : UInt32) : UInt32 := if id = ogsMaxPoolId then 1 else id + 1

/-- The memory of an id. -/
def idOctets (id : UInt32) : List UInt8 := (octetsBE 4 id.toNat).reverse

/-- `OGS_POOL`. An entry is given as its place in `array`, and `ids` are their `id` fields. `live`
are the entries that callers hold. -/
structure IdPool where
  size : Nat
  avail : Nat
  head : Nat := 0
  tail : Nat := 0
  free : Nat → Option Nat
  index : Nat → Option Nat := fun _ => none
  id : UInt32 := 0
  ids : Nat → UInt32 := fun _ => 0
  idHash : OgsHash Nat Nat
  live : List Nat := []

namespace IdPool

/-- `ogs_pool_init` -/
def init (size : Nat) (seed : UInt32) : IdPool where
  size
  avail := size
  free i := if i < size then some i else none
  idHash := OgsHash.make seed

/-- The key of an entry in the hash. -/
def mem (pool : IdPool) (n : Nat) : List UInt8 := idOctets (pool.ids n)

/-- The entry `n` is taken from the head of the ring. -/
def taken (pool : IdPool) (n : Nat) : IdPool :=
  { pool with
    avail := pool.avail - 1
    free := update pool.free pool.head none
    head := (pool.head + 1) % pool.size
    index := update pool.index n (some n)
    live := n :: pool.live }

/-- `ogs_pool_alloc` -/
def alloc (pool : IdPool) : Option Nat × IdPool :=
  if pool.avail > 0 then
    match pool.free pool.head with
    | none => (none, pool)
    | some n => (some n, pool.taken n)
  else (none, pool)

/-- `ogs_pool_free` -/
def release (pool : IdPool) (n : Nat) : IdPool :=
  if pool.avail < pool.size then { pool with
    avail := pool.avail + 1
    free := update pool.free pool.tail (some n)
    tail := (pool.tail + 1) % pool.size
    index := update pool.index n none
    live := pool.live.erase n }
  else pool

/-- `ogs_pool_id_calloc` -/
def idCalloc (pool : IdPool) : Except Fault (Option Nat × IdPool) :=
  match pool.alloc with
  | (none, pool) => .ok (none, pool)
  | (some n, pool) => do
    let pool := { pool with
      id := nextPoolId pool.id, ids := update pool.ids n (nextPoolId pool.id) }
    let idHash ← pool.idHash.set pool.mem n 4 (some n)
    return (some n, { pool with idHash })

/-- `ogs_pool_id_free` -/
def idFree (pool : IdPool) (n : Nat) : Except Fault IdPool :=
  if 1 ≤ pool.ids n ∧ pool.ids n ≤ ogsMaxPoolId then do
    let idHash ← pool.idHash.set pool.mem n 4 none
    return { pool with idHash }.release n
  else .error .assertion

/-- `ogs_pool_find_by_id` -/
def findById (pool : IdPool) (id : UInt32) : Except Fault (Option Nat) :=
  pool.idHash.get pool.mem (idOctets id)

/-! ## The ring -/

variable {pool t : IdPool} {fs : List Nat} {n : Nat} {id : UInt32}

/-- The free entries stand in the ring from its head to its tail. -/
structure Ring (pool : IdPool) (fs : List Nat) : Prop where
  avail : pool.avail = fs.length
  le : fs.length ≤ pool.size
  head : pool.head < pool.size ∨ pool.size = 0
  tail : pool.tail = (pool.head + fs.length) % pool.size
  free : ∀ i (h : i < fs.length), pool.free ((pool.head + i) % pool.size) = some fs[i]

theorem init_ring (size : Nat) (seed : UInt32) : (init size seed).Ring (List.range size) where
  avail := List.length_range.symm
  le := Nat.le_of_eq List.length_range
  head := (Nat.eq_zero_or_pos size).symm
  tail := by
    rw [List.length_range, show (init size seed).head = 0 from rfl, Nat.zero_add]
    exact (Nat.mod_self size).symm
  free i h := by
    rw [List.length_range] at h
    rw [List.getElem_range]
    have hmod : ((init size seed).head + i) % (init size seed).size = i := by
      rw [show (init size seed).head = 0 from rfl, Nat.zero_add]
      exact Nat.mod_eq_of_lt h
    rw [hmod]
    exact if_pos h

theorem mod_ne {size head i j : Nat} (hi : i < size) (hj : j < size) (hne : i ≠ j) :
    (head + i) % size ≠ (head + j) % size := by
  intro h
  have hmod : i ≡ j [MOD size] := Nat.ModEq.add_left_cancel' head h
  rw [Nat.ModEq, Nat.mod_eq_of_lt hi, Nat.mod_eq_of_lt hj] at hmod
  exact hne hmod

/-- The ring changes and the entries that are live, and nothing of the ids. -/
structure Kept (pool : IdPool) (live : List Nat) (t : IdPool) : Prop where
  size : t.size = pool.size
  id : t.id = pool.id
  ids : t.ids = pool.ids
  idHash : t.idHash = pool.idHash
  live : t.live = live

/-- The entry at the head is taken. -/
theorem Ring.alloc (h : pool.Ring (n :: fs)) :
    ∃ t, pool.alloc = (some n, t) ∧ t.Ring fs ∧ pool.Kept (n :: pool.live) t := by
  have hle := h.le
  have havail := h.avail
  rw [List.length_cons] at hle havail
  have hhead := h.head.resolve_right (by omega)
  have hfirst : pool.free pool.head = some n := by
    have hfree := h.free 0 (Nat.succ_pos _)
    rwa [Nat.add_zero, Nat.mod_eq_of_lt hhead] at hfree
  have hstep (i : Nat) : ((pool.head + 1) % pool.size + i) % pool.size =
      (pool.head + (i + 1)) % pool.size := by
    rw [Nat.mod_add_mod, Nat.add_assoc, Nat.add_comm 1 i]
  refine ⟨pool.taken n, by rw [IdPool.alloc, if_pos (by omega), hfirst],
    ⟨?_, Nat.le_of_succ_le hle, .inl (Nat.mod_lt _ (by omega)), ?_, fun i hi => ?_⟩,
    ⟨rfl, rfl, rfl, rfl, rfl⟩⟩
  · simp only [taken, havail, Nat.add_sub_cancel]
  · simp only [taken, hstep]
    exact h.tail
  · simp only [taken, hstep]
    rw [update_of_ne]
    · exact h.free (i + 1) (Nat.succ_lt_succ hi)
    · conv_rhs => rw [← Nat.mod_eq_of_lt hhead, ← Nat.add_zero pool.head]
      exact mod_ne (by omega) (by omega) (Nat.succ_ne_zero i)

theorem Ring.alloc_nil (h : pool.Ring []) : pool.alloc = (none, pool) := by
  rw [IdPool.alloc, if_neg (by rw [h.avail]; exact Nat.lt_irrefl 0)]

/-- An entry is given back behind the tail. -/
theorem Ring.release (h : pool.Ring fs) (hroom : fs.length < pool.size) :
    (pool.release n).Ring (fs ++ [n]) ∧ pool.Kept (pool.live.erase n) (pool.release n) := by
  have hhead := h.head.resolve_right (by omega)
  rw [IdPool.release, if_pos (by rw [h.avail]; exact hroom)]
  refine ⟨⟨?_, ?_, .inl hhead, ?_, fun i hi => ?_⟩, ⟨rfl, rfl, rfl, rfl, rfl⟩⟩
  · simp [h.avail]
  · simp only [List.length_append, List.length_singleton]
    omega
  · simp only [h.tail, List.length_append, List.length_singleton]
    rw [Nat.mod_add_mod, Nat.add_assoc]
  · simp only [h.tail]
    rw [List.length_append, List.length_singleton] at hi
    rcases Nat.lt_succ_iff_lt_or_eq.mp hi with hlt | rfl
    · rw [update_of_ne (mod_ne (by omega) hroom (Nat.ne_of_lt hlt)), h.free i hlt,
        List.getElem_append_left hlt]
    · rw [update_self]
      simp

/-! ## Ids -/

theorem idOctets_injective {id' : UInt32} (h : idOctets id = idOctets id') : id = id' := by
  have hnat := congrArg natBE (List.reverse_injective h)
  have hid : id.toNat < 256 ^ 4 := id.toNat_lt
  have hid' : id'.toNat < 256 ^ 4 := id'.toNat_lt
  rw [natBE_octetsBE, natBE_octetsBE, Nat.mod_eq_of_lt hid, Nat.mod_eq_of_lt hid'] at hnat
  exact UInt32.toNat.inj hnat

@[simp] theorem length_idOctets (id : UInt32) : (idOctets id).length = 4 := by
  rw [idOctets, List.length_reverse, length_octetsBE]

theorem keyAt_mem (pool : IdPool) (n : Nat) : keyAt pool.mem 4 n = idOctets (pool.ids n) :=
  List.take_of_length_le (Nat.le_of_eq (length_idOctets _))

def Valid (id : UInt32) : Prop := 1 ≤ id ∧ id ≤ ogsMaxPoolId

theorem toNat_nextPoolId (h : id.toNat < 0x7fffffff) : (nextPoolId id).toNat = id.toNat + 1 := by
  have hne : id ≠ ogsMaxPoolId := fun heq => Nat.ne_of_lt h (congrArg UInt32.toNat heq)
  rw [nextPoolId, if_neg hne, UInt32.toNat_add]
  change (id.toNat + 1) % 4294967296 = id.toNat + 1
  omega

theorem valid_nextPoolId (h : id ≤ ogsMaxPoolId) : Valid (nextPoolId id) := by
  have hle : id.toNat ≤ 0x7fffffff := h
  rcases Nat.lt_or_eq_of_le hle with hlt | heq
  · have hnext := toNat_nextPoolId hlt
    refine ⟨UInt32.le_iff_toNat_le.mpr ?_, UInt32.le_iff_toNat_le.mpr ?_⟩
    · change 1 ≤ (nextPoolId id).toNat
      omega
    · change (nextPoolId id).toNat ≤ 0x7fffffff
      omega
  · obtain rfl : id = ogsMaxPoolId := UInt32.toNat.inj heq
    exact ⟨by decide, by decide⟩

/-- The key pointers of the live entries. -/
def ptr (live : List Nat) (n : Nat) : Option Nat := if n ∈ live then some n else none

/-- What is asked of a pool. -/
structure Good (pool : IdPool) : Prop where
  avail : pool.avail + pool.live.length = pool.size
  nodup : pool.live.Nodup
  valid : ∀ n ∈ pool.live, Valid (pool.ids n)
  distinct : ∀ m ∈ pool.live, ∀ n ∈ pool.live, pool.ids m = pool.ids n → m = n
  found : ∀ id, ∃ found, pool.findById id = .ok found ∧
    ∀ n, found = some n ↔ n ∈ pool.live ∧ pool.ids n = id

/-- What the steps keep: the ring has the entries that are not live, and the hash those that
are. -/
structure Inv (pool : IdPool) (fs : List Nat) : Prop where
  ring : pool.Ring fs
  perm : (fs ++ pool.live).Perm (List.range pool.size)
  counter : pool.id ≤ ogsMaxPoolId
  valid : ∀ n ∈ pool.live, Valid (pool.ids n)
  indexed : pool.idHash.Indexed pool.mem 4 (ptr pool.live)

theorem ptr_eq_some_iff {live : List Nat} {n p : Nat} : ptr live n = some p ↔ n ∈ live ∧ p = n := by
  unfold ptr
  split
  · next h => simp [h, eq_comm]
  · next h => simp [h]

theorem Inv.nodup (h : pool.Inv fs) : (fs ++ pool.live).Nodup :=
  h.perm.nodup_iff.mpr List.nodup_range

theorem findById_eq (pool : IdPool) (id : UInt32) : pool.findById id =
    .ok ((pool.idHash.findEntry pool.mem (idOctets id)).map HashEntry.val) := by
  rw [findById, OgsHash.get, if_neg]
  rw [length_idOctets]
  decide

theorem Inv.good (h : pool.Inv fs) : pool.Good where
  avail := by
    have hlen := h.perm.length_eq
    rw [List.length_append, List.length_range] at hlen
    rw [h.ring.avail, hlen]
  nodup := h.nodup.of_append_right
  valid := h.valid
  distinct m hm n hn hid := by
    refine h.indexed.owner_unique (ptr_eq_some_iff.mpr ⟨hm, rfl⟩) (ptr_eq_some_iff.mpr ⟨hn, rfl⟩) ?_
    rw [keyAt_mem, keyAt_mem, hid]
  found id := by
    refine ⟨_, findById_eq pool id, fun n => ⟨fun hfind => ?_, ?_⟩⟩
    · obtain ⟨p, hp, hkey⟩ := h.indexed.owner_of_find hfind
      obtain ⟨hn, rfl⟩ := ptr_eq_some_iff.mp hp
      rw [keyAt_mem] at hkey
      exact ⟨hn, idOctets_injective hkey⟩
    · rintro ⟨hn, rfl⟩
      rw [← keyAt_mem]
      exact h.indexed.find_owner (ptr_eq_some_iff.mpr ⟨hn, rfl⟩)

theorem init_inv (size : Nat) (seed : UInt32) : (init size seed).Inv (List.range size) where
  ring := init_ring size seed
  perm := by
    rw [show (init size seed).live = [] from rfl, List.append_nil]
    exact .refl _
  counter := show (0 : UInt32) ≤ ogsMaxPoolId by decide
  valid _ h := absurd h List.not_mem_nil
  indexed := make_indexed seed

theorem Inv.congr_mem (h : pool.Inv fs) (hn : n ∉ pool.live) (id : UInt32) :
    pool.idHash.Indexed (fun m => idOctets (update pool.ids n id m)) 4 (ptr pool.live) :=
  h.indexed.congr fun m p hp => by
    obtain ⟨hm, rfl⟩ := ptr_eq_some_iff.mp hp
    have hne : p ≠ n := fun heq => hn (heq ▸ hm)
    rw [update_of_ne hne]
    rfl

/-- An entry gets an id that no live entry has. -/
theorem Inv.idCalloc (h : pool.Inv (n :: fs))
    (hfresh : ∀ m ∈ pool.live, pool.ids m ≠ nextPoolId pool.id) :
    ∃ t, pool.idCalloc = .ok (some n, t) ∧ t.Inv fs ∧ t.live = n :: pool.live ∧
      t.id = nextPoolId pool.id ∧ t.ids = update pool.ids n (nextPoolId pool.id) := by
  obtain ⟨t, halloc, hring, hkept⟩ := h.ring.alloc
  have hnew : n ∉ pool.live := fun hn => (List.nodup_cons.mp h.nodup).1 (List.mem_append_right _ hn)
  have hold := h.congr_mem hnew (nextPoolId pool.id)
  have hkey : keyAt (fun m => idOctets (update pool.ids n (nextPoolId pool.id) m)) 4 n =
      idOctets (nextPoolId pool.id) := by
    rw [keyAt, update_self, List.take_of_length_le (Nat.le_of_eq (length_idOctets _))]
  have hnone : (pool.idHash.findEntry
      (fun m => idOctets (update pool.ids n (nextPoolId pool.id) m))
      (idOctets (nextPoolId pool.id))).map HashEntry.val = none := by
    rw [Option.eq_none_iff_forall_ne_some]
    intro m hm
    obtain ⟨p, hp, hsame⟩ := hold.owner_of_find hm
    obtain ⟨hlive, rfl⟩ := ptr_eq_some_iff.mp hp
    have hne : p ≠ n := fun heq => hnew (heq ▸ hlive)
    rw [keyAt, update_of_ne hne,
      List.take_of_length_le (Nat.le_of_eq (length_idOctets _))] at hsame
    exact hfresh p hlive (idOctets_injective hsame)
  obtain ⟨idHash, hset, hindexed⟩ := hold.set_some (v := n) (p := n) (by decide)
    (Nat.le_of_eq (length_idOctets _).symm) (if_neg hnew) (by rw [hkey, hnone])
  refine ⟨{ t with
    id := nextPoolId t.id, ids := update t.ids n (nextPoolId t.id), idHash }, ?_, ?_, hkept.live,
    congrArg nextPoolId hkept.id, by simp only [hkept.ids, hkept.id]⟩
  · rw [IdPool.idCalloc, halloc]
    simp only [hkept.id, hkept.ids, hkept.idHash]
    exact bind_eq_ok.mpr ⟨idHash, hset, rfl⟩
  · have hvalid := valid_nextPoolId h.counter
    refine ⟨⟨hring.avail, hring.le, hring.head, hring.tail, hring.free⟩, ?_, ?_, fun m hm => ?_, ?_⟩
    · simp only [hkept.live, hkept.size]
      exact List.perm_middle.trans h.perm
    · simp only [hkept.id]
      exact hvalid.2
    · simp only [hkept.ids, hkept.id]
      simp only [hkept.live] at hm
      rcases List.mem_cons.mp hm with rfl | hm
      · rwa [update_self]
      · have hne : m ≠ n := fun heq => hnew (heq ▸ hm)
        rw [update_of_ne hne]
        exact h.valid m hm
    · have hptr : update (ptr pool.live) n (some n) = ptr (n :: pool.live) := by
        funext m
        by_cases hm : m = n
        · rw [hm, update_self, ptr, if_pos (List.mem_cons_self ..)]
        · rw [update_of_ne hm, ptr, ptr]
          simp [hm]
      rw [hptr] at hindexed
      simp only [hkept.live, hkept.ids, hkept.id]
      exact hindexed

/-- A live entry is given back with its id. -/
theorem Inv.idFree (h : pool.Inv fs) (hn : n ∈ pool.live) :
    ∃ t, pool.idFree n = .ok t ∧ t.Inv (fs ++ [n]) ∧ t.live = pool.live.erase n ∧
      t.id = pool.id ∧ t.ids = pool.ids := by
  have hlen := h.perm.length_eq
  have hpos := List.length_pos_of_mem hn
  rw [List.length_append, List.length_range] at hlen
  obtain ⟨idHash, hset, hindexed⟩ :=
    h.indexed.set_none (by decide) (ptr_eq_some_iff.mpr ⟨hn, rfl⟩)
  have hring : { pool with idHash }.Ring fs :=
    ⟨h.ring.avail, h.ring.le, h.ring.head, h.ring.tail, h.ring.free⟩
  obtain ⟨hring, hkept⟩ := hring.release (n := n) (show fs.length < pool.size by omega)
  refine ⟨{ pool with idHash }.release n, ?_, ⟨hring, ?_, ?_, fun m hm => ?_, ?_⟩, hkept.live,
    hkept.id, hkept.ids⟩
  · have hvalid : 1 ≤ pool.ids n ∧ pool.ids n ≤ ogsMaxPoolId := h.valid n hn
    rw [IdPool.idFree, if_pos hvalid, hset]
    rfl
  · rw [hkept.live, hkept.size, List.append_assoc]
    exact ((List.perm_cons_erase hn).symm.append_left fs).trans h.perm
  · rw [hkept.id]
    exact h.counter
  · rw [hkept.ids]
    rw [hkept.live] at hm
    exact h.valid m (List.mem_of_mem_erase hm)
  · have hptr : update (ptr pool.live) n none = ptr (pool.live.erase n) := by
      have hnodup := h.nodup.of_append_right
      funext m
      by_cases hm : m = n
      · rw [hm, update_self, ptr, if_neg hnodup.not_mem_erase]
      · rw [update_of_ne hm, ptr, ptr]
        simp [List.mem_erase_of_ne hm]
    rw [hptr] at hindexed
    have hmem : ({ pool with idHash }.release n).mem = pool.mem := by
      funext m
      rw [mem, hkept.ids]
      rfl
    rw [hkept.live, hkept.idHash, hmem]
    exact hindexed

end IdPool

/-! ## Runs -/

/-- `ogs_pool_id_calloc`, or `ogs_pool_id_free` of an entry. -/
inductive IdEvent
  | alloc
  | free (n : Nat)
  deriving DecidableEq

inductive IdStep (pool : IdPool) : IdEvent → IdPool → Prop
  | alloc {node t} : pool.idCalloc = .ok (node, t) → IdStep pool .alloc t
  | free {n t} : n ∈ pool.live → pool.idFree n = .ok t → IdStep pool (.free n) t

/-- Pools of any size, with entries that are freed while they are live. -/
def idSystem : System IdPool IdEvent where
  init pool := ∃ size seed, pool = .init size seed
  step := IdStep

/-- The counter does not come to an id that a live entry has when an entry is to be had. -/
def FreshId (pool : IdPool) : IdEvent → Prop
  | .alloc => pool.avail > 0 → ∀ n ∈ pool.live, pool.ids n ≠ nextPoolId pool.id
  | .free _ => True

namespace IdPool

theorem inv_of_init {pool : IdPool} (h : idSystem.init pool) : ∃ fs, pool.Inv fs := by
  obtain ⟨size, seed, rfl⟩ := h
  exact ⟨_, init_inv size seed⟩

variable {s t : IdPool} {e : IdEvent}

theorem inv_of_step (h : ∃ fs, s.Inv fs) (hfresh : FreshId s e) (hstep : IdStep s e t) :
    ∃ fs, t.Inv fs := by
  obtain ⟨fs, hs⟩ := h
  cases hstep with
  | alloc hrun =>
    cases fs with
    | nil =>
      rw [idCalloc, hs.ring.alloc_nil] at hrun
      obtain ⟨-, rfl⟩ := Prod.mk.inj (Except.ok.inj hrun)
      exact ⟨[], hs⟩
    | cons n fs =>
      have havail : s.avail > 0 := by
        rw [hs.ring.avail]
        exact Nat.succ_pos _
      obtain ⟨t', hrun', ht, -⟩ := hs.idCalloc (hfresh havail)
      obtain ⟨-, rfl⟩ := Prod.mk.inj (Except.ok.inj (hrun.symm.trans hrun'))
      exact ⟨fs, ht⟩
  | free hn hrun =>
    obtain ⟨t', hrun', ht, -⟩ := hs.idFree hn
    obtain rfl := Except.ok.inj (hrun.symm.trans hrun')
    exact ⟨_, ht⟩

/-- A step behind which the pool is as it should be had a fresh id to give. -/
theorem fresh_of_good (h : ∃ fs, s.Inv fs) (hstep : IdStep s e t) (hgood : t.Good) :
    FreshId s e := by
  cases hstep with
  | alloc hrun =>
    intro havail m hm hsame
    obtain ⟨fs, hs⟩ := h
    rw [hs.ring.avail] at havail
    obtain ⟨n, fs, rfl⟩ := List.exists_cons_of_length_pos havail
    obtain ⟨taken, halloc, -, hkept⟩ := hs.ring.alloc
    rw [idCalloc, halloc] at hrun
    obtain ⟨idHash, -, ht⟩ := bind_eq_ok.mp hrun
    obtain ⟨-, rfl⟩ := Prod.mk.inj (Except.ok.inj ht)
    have hne : m ≠ n := fun heq =>
      (List.nodup_cons.mp hs.nodup).1 (List.mem_append_right _ (heq ▸ hm))
    refine hne (hgood.distinct m ?_ n ?_ ?_)
    · simp only [hkept.live]
      exact List.mem_cons_of_mem n hm
    · simp only [hkept.live]
      exact List.mem_cons_self ..
    · simp only [hkept.ids, hkept.id]
      rw [update_of_ne hne, update_self, hsame]
  | free _ _ => trivial

end IdPool

/-- The runs in which the pool is always as it should be are those in which the counter never comes
to the id of a live entry. -/
theorem pool_ids_kept_iff (events : List IdEvent) (pool : IdPool) :
    idSystem.RunWithin IdPool.Good events pool ↔ idSystem.Run FreshId events pool :=
  System.Run.within_iff (fun _ => IdPool.inv_of_init) (fun _ ⟨_, h⟩ => h.good)
    (fun _ _ _ => IdPool.inv_of_step) fun _ _ _ => IdPool.fresh_of_good

/-! ## The counter wraps -/

/-- One entry stays live with the first id while another is taken and freed. -/
theorem exists_turns (k : Nat) (hk : k < 0x7fffffff) : ∃ events pool,
    idSystem.Run FreshId events pool ∧ pool.Inv [1] ∧ pool.live = [0] ∧ pool.ids 0 = 1 ∧
      pool.id.toNat = k + 1 := by
  induction k with
  | zero =>
    have hinit := IdPool.init_inv 2 0
    obtain ⟨t, hrun, ht, hlive, hid, hids⟩ :=
      IdPool.Inv.idCalloc (n := 0) hinit fun m hm => absurd hm List.not_mem_nil
    have hfresh : FreshId (.init 2 0) .alloc := fun _ m hm => absurd hm List.not_mem_nil
    refine ⟨_, t, .single ⟨2, 0, rfl⟩ hfresh (.alloc hrun), ht, hlive, ?_, ?_⟩
    · rw [hids, update_self]
      rfl
    · rw [hid]
      rfl
  | succ k ih =>
    obtain ⟨events, pool, hrun, hinv, hlive, hid, hcounter⟩ := ih (by omega)
    have hnext : (nextPoolId pool.id).toNat = k + 2 := by
      rw [IdPool.toNat_nextPoolId (by omega), hcounter]
    have hfresh : ∀ m ∈ pool.live, pool.ids m ≠ nextPoolId pool.id := by
      intro m hm heq
      rw [hlive] at hm
      rw [List.mem_singleton.mp hm, hid] at heq
      rw [← heq] at hnext
      exact absurd hnext (by change 1 ≠ k + 2; omega)
    obtain ⟨t, halloc, ht, htlive, htid, htids⟩ := hinv.idCalloc hfresh
    rw [hlive] at htlive
    obtain ⟨t', hfree, ht', hlive', hid', hids'⟩ :=
      ht.idFree (n := 1) (by rw [htlive]; exact List.mem_cons_self ..)
    have hguard : FreshId pool .alloc := fun _ => hfresh
    have hother : FreshId t (.free 1) := trivial
    refine ⟨_, t', .snoc (.snoc hrun hguard (.alloc halloc)) hother (.free ?_ hfree), ht', ?_, ?_, ?_⟩
    · rw [htlive]
      exact List.mem_cons_self ..
    · rw [hlive', htlive]
      rfl
    · rw [hids', htids, update_of_ne Nat.zero_ne_one, hid]
    · rw [hid', htid, hnext]

/-- With an entry live all the time, its id is given again when the counter has wrapped. -/
theorem not_pool_ids_kept : ∃ events pool,
    idSystem.Run System.unrestricted events pool ∧ ¬pool.Good := by
  obtain ⟨events, pool, hrun, hinv, hlive, hid, hcounter⟩ := exists_turns 0x7ffffffe (by decide)
  have hlast : nextPoolId pool.id = 1 := by
    obtain hmax : pool.id = ogsMaxPoolId := UInt32.toNat.inj hcounter
    rw [hmax]
    rfl
  obtain ⟨t, halloc, -, hkept⟩ := hinv.ring.alloc
  have hset (mem : Nat → List UInt8) : ∃ idHash, t.idHash.set mem 1 4 (some 1) = .ok idHash := by
    unfold OgsHash.set
    rw [if_neg (by decide)]
    dsimp only
    split <;> exact ⟨_, rfl⟩
  have hreturns : Returns pool.idCalloc := by
    obtain ⟨idHash, hset⟩ := hset
      { t with id := nextPoolId t.id, ids := update t.ids 1 (nextPoolId t.id) }.mem
    rw [IdPool.idCalloc, halloc]
    exact returns_bind.mpr ⟨idHash, hset, returns_pure _⟩
  obtain ⟨⟨node, t'⟩, hcalloc⟩ := hreturns
  have hstep : IdStep pool .alloc t' := .alloc hcalloc
  refine ⟨_, t', .snoc (hrun.mono fun _ _ _ => trivial) trivial hstep, fun hgood => ?_⟩
  have hfresh := IdPool.fresh_of_good ⟨_, hinv⟩ hstep hgood
  have havail : pool.avail > 0 := by
    rw [hinv.ring.avail]
    decide
  refine hfresh havail 0 ?_ (hid.trans hlast.symm)
  rw [hlive]
  exact List.mem_singleton_self 0

end Quicup.Open5gs
