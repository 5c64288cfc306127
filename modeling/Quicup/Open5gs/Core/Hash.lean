import Mathlib.Data.List.Nodup
import Mathlib.Logic.Function.Basic
import Quicup.Core.Cursor

/-!
# Hash tables

`ogs-hash.c` for keys that are given with their length. A table keeps the pointer
it was given for a key and reads the key through it on every search, so what it
holds depends on the memory behind the pointers. While that memory stays as it
was when the key was entered, the table is a finite map on key contents.
-/

namespace Quicup.Open5gs

open Function

/-- An entry. `key` is the pointer to the key. -/
structure HashEntry (κ ν : Type) where
  hash : UInt32
  key : κ
  klen : Nat
  val : ν

/-- A table with its chains by index. The chains behind `max` are empty. -/
structure OgsHash (κ ν : Type) where
  array : Nat → List (HashEntry κ ν)
  count : Nat
  max : Nat
  seed : UInt32

/-- The popular `times 33` hash. -/
def hashfuncDefault (key : List UInt8) (hash : UInt32) : UInt32 :=
  key.foldl (fun hash p => hash * 33 + p.toUInt32) hash

namespace OgsHash

variable {κ ν : Type} (mem : κ → List UInt8)

def initialMax : Nat := 15

def make (seed : UInt32) : OgsHash κ ν := ⟨fun _ => [], 0, initialMax, seed⟩

/-- What memory holds behind the pointer of an entry. -/
def content (e : HashEntry κ ν) : List UInt8 := (mem e.key).take e.klen

def slot (hash : UInt32) (max : Nat) : Nat := hash.toNat &&& max

/-- The test of the scan: equal hashes, equal lengths, and `memcmp`. -/
def isMatch (hash : UInt32) (key : List UInt8) (e : HashEntry κ ν) : Bool :=
  e.hash == hash && e.klen == key.length && content mem e == key

variable (ht : OgsHash κ ν)

/-- The chain that a key belongs to. -/
def index (key : List UInt8) : Nat := slot (hashfuncDefault key ht.seed) ht.max

def findEntry (key : List UInt8) : Option (HashEntry κ ν) :=
  (ht.array (ht.index key)).find? (isMatch mem (hashfuncDefault key ht.seed) key)

def get (key : List UInt8) : Except Fault (Option ν) :=
  if key.length = 0 then .error .assertion else .ok ((ht.findEntry mem key).map HashEntry.val)

/-- The entries in the order of `ogs_hash_first` and `ogs_hash_next`. -/
def entries : List (HashEntry κ ν) := (List.range (ht.max + 1)).flatMap ht.array

def expandArray : OgsHash κ ν :=
  let newMax := ht.max * 2 + 1
  { ht with
    array := ht.entries.foldl
      (fun array e =>
        update array (slot e.hash newMax) (e :: array (slot e.hash newMax)))
      fun _ => []
    max := newMax }

/-- The collision check at the end of an insertion. -/
def checkCollisions : OgsHash κ ν := if ht.count > ht.max then ht.expandArray else ht

/-- The value of the first entry that matches is replaced. -/
def setVal (p : HashEntry κ ν → Bool) (val : ν) : List (HashEntry κ ν) → List (HashEntry κ ν)
  | [] => []
  | e :: rest => if p e then { e with val } :: rest else e :: setVal p val rest

/-- A chain is written back. -/
def withChain (i : Nat) (chain : List (HashEntry κ ν)) : OgsHash κ ν :=
  { ht with array := update ht.array i chain }

/-- The key is the memory behind `key`, of length `klen`. Without a value the entry
is deleted, and an entry that is there keeps its key pointer. -/
def set (key : κ) (klen : Nat) (val : Option ν) : Except Fault (OgsHash κ ν) :=
  if klen = 0 then .error .assertion
  else
    let k := (mem key).take klen
    let hash := hashfuncDefault k ht.seed
    let i := ht.index k
    match ht.findEntry mem k, val with
    | none, none => .ok ht
    | none, some val =>
      .ok (checkCollisions
        { ht.withChain i (ht.array i ++ [⟨hash, key, klen, val⟩]) with count := ht.count + 1 })
    | some _, none =>
      .ok { ht.withChain i ((ht.array i).eraseP (isMatch mem hash k)) with count := ht.count - 1 }
    | some _, some val =>
      .ok (checkCollisions (ht.withChain i (setVal (isMatch mem hash k) val (ht.array i))))

/-! ## Well-formed tables -/

instance : Membership (HashEntry κ ν) (OgsHash κ ν) := ⟨fun ht e => ∃ i, e ∈ ht.array i⟩

/-- Every entry is in its chain, under the hash and the length of what memory holds
for it, and no two entries of a chain hold the same. -/
structure WellFormed : Prop where
  placed : ∀ i, ∀ e ∈ ht.array i, slot e.hash ht.max = i
  keyed : ∀ e ∈ ht, e.hash = hashfuncDefault (content mem e) ht.seed ∧
    e.klen = (content mem e).length
  distinct : ∀ i, ((ht.array i).map (content mem)).Nodup

variable {mem ht} {e e' : HashEntry κ ν} {k : List UInt8}

theorem make_wellFormed (seed : UInt32) : (make seed : OgsHash κ ν).WellFormed mem where
  placed _ _ h := nomatch h
  keyed _ h := nomatch h.choose_spec
  distinct _ := List.nodup_nil

namespace WellFormed

theorem mem_index (h : ht.WellFormed mem) (he : e ∈ ht) (hk : content mem e = k) :
    e ∈ ht.array (ht.index k) := by
  obtain ⟨i, hi⟩ := he
  have hslot := h.placed i e hi
  rw [(h.keyed e ⟨i, hi⟩).1, hk] at hslot
  rwa [index, hslot]

/-- The table is a map on key contents. -/
theorem unique (h : ht.WellFormed mem) (he : e ∈ ht) (he' : e' ∈ ht)
    (hsame : content mem e = content mem e') : e = e' :=
  List.inj_on_of_nodup_map (h.distinct _) (h.mem_index he hsame) (h.mem_index he' rfl) hsame

theorem isMatch_iff (h : ht.WellFormed mem) (he : e ∈ ht) :
    isMatch mem (hashfuncDefault k ht.seed) k e = true ↔ content mem e = k := by
  obtain ⟨hhash, hklen⟩ := h.keyed e he
  rw [isMatch, Bool.and_eq_true, Bool.and_eq_true, beq_iff_eq, beq_iff_eq, beq_iff_eq]
  constructor
  · exact And.right
  · intro hk
    exact ⟨⟨hhash.trans (by rw [hk]), hklen.trans (by rw [hk])⟩, hk⟩

/-- A search finds the entry that holds the key. -/
theorem findEntry_eq_some_iff (h : ht.WellFormed mem) :
    ht.findEntry mem k = some e ↔ e ∈ ht ∧ content mem e = k := by
  constructor
  · intro hfind
    have he : e ∈ ht := ⟨_, List.mem_of_find?_eq_some hfind⟩
    exact ⟨he, (h.isMatch_iff he).mp (List.find?_some hfind)⟩
  · rintro ⟨he, hk⟩
    have hmatch : isMatch mem (hashfuncDefault k ht.seed) k e = true := (h.isMatch_iff he).mpr hk
    cases hfind : ht.findEntry mem k with
    | none => exact absurd hmatch (List.find?_eq_none.mp hfind e (h.mem_index he hk))
    | some found =>
      have hfound : found ∈ ht := ⟨_, List.mem_of_find?_eq_some hfind⟩
      have hsame := (h.isMatch_iff hfound).mp (List.find?_some hfind)
      rw [h.unique hfound he (hsame.trans hk.symm)]

theorem findEntry_eq_none_iff (h : ht.WellFormed mem) :
    ht.findEntry mem k = none ↔ ∀ e ∈ ht, content mem e ≠ k := by
  constructor
  · intro hnone e he hk
    have hsome := h.findEntry_eq_some_iff.mpr ⟨he, hk⟩
    exact nomatch hnone.symm.trans hsome
  · intro habsent
    cases hfind : ht.findEntry mem k with
    | none => rfl
    | some found =>
      obtain ⟨hfound, hk⟩ := h.findEntry_eq_some_iff.mp hfind
      exact absurd hk (habsent found hfound)

/-- The table stays well formed while memory keeps the keys. -/
theorem congr (h : ht.WellFormed mem) {mem' : κ → List UInt8}
    (hmem : ∀ e ∈ ht, content mem' e = content mem e) : ht.WellFormed mem' where
  placed := h.placed
  keyed e he := by
    rw [hmem e he]
    exact h.keyed e he
  distinct i := by
    rw [List.map_congr_left fun e he => hmem e ⟨i, he⟩]
    exact h.distinct i

end WellFormed

/-! ## Expansion -/

theorem mem_entries (hplaced : ∀ i, ∀ e ∈ ht.array i, slot e.hash ht.max = i) :
    e ∈ ht.entries ↔ e ∈ ht := by
  rw [entries, List.mem_flatMap]
  constructor
  · rintro ⟨i, -, hi⟩
    exact ⟨i, hi⟩
  · rintro ⟨i, hi⟩
    have hle : slot e.hash ht.max ≤ ht.max := Nat.and_le_right
    rw [hplaced i e hi] at hle
    exact ⟨i, List.mem_range.mpr (Nat.lt_succ_of_le hle), hi⟩

/-- The loop over the entries puts each in front of its new chain. -/
theorem expandArray_array (i : Nat) :
    ht.expandArray.array i =
      (ht.entries.filter fun e => slot e.hash (ht.max * 2 + 1) = i).reverse := by
  suffices hloop : ∀ (l : List (HashEntry κ ν)) (array : Nat → List (HashEntry κ ν)),
      l.foldl (fun array e => update array (slot e.hash (ht.max * 2 + 1))
        (e :: array (slot e.hash (ht.max * 2 + 1)))) array i =
        (l.filter fun e => slot e.hash (ht.max * 2 + 1) = i).reverse ++ array i by
    exact (hloop _ _).trans (List.append_nil _)
  intro l
  induction l with
  | nil => exact fun _ => rfl
  | cons e rest ih =>
    intro array
    rw [List.foldl_cons, ih, List.filter_cons]
    by_cases hslot : slot e.hash (ht.max * 2 + 1) = i
    · rw [hslot, update_self, if_pos (decide_eq_true rfl), List.reverse_cons,
        List.append_assoc]
      rfl
    · rw [update_of_ne (Ne.symm hslot), if_neg (by rwa [decide_eq_true_iff])]

theorem mem_expandArray (hplaced : ∀ i, ∀ e ∈ ht.array i, slot e.hash ht.max = i) :
    e ∈ ht.expandArray ↔ e ∈ ht := by
  rw [← mem_entries hplaced]
  constructor
  · rintro ⟨i, hi⟩
    rw [expandArray_array, List.mem_reverse] at hi
    exact List.mem_of_mem_filter hi
  · intro he
    refine ⟨slot e.hash (ht.max * 2 + 1), ?_⟩
    rw [expandArray_array, List.mem_reverse]
    exact List.mem_filter.mpr ⟨he, decide_eq_true rfl⟩

namespace WellFormed

theorem entries_distinct (h : ht.WellFormed mem) : (ht.entries.map (content mem)).Nodup := by
  rw [entries, List.map_flatMap, List.nodup_flatMap]
  refine ⟨fun i _ => h.distinct i, ?_⟩
  -- one content has one hash and with it one chain
  refine List.nodup_range.imp fun {i j} hij => ?_
  rw [Function.onFun_apply, List.disjoint_left]
  intro k hi hj
  obtain ⟨e, he, rfl⟩ := List.mem_map.mp hi
  obtain ⟨e', he', hsame⟩ := List.mem_map.mp hj
  have hhash : e.hash = e'.hash := by
    rw [(h.keyed e ⟨i, he⟩).1, (h.keyed e' ⟨j, he'⟩).1, hsame]
  exact hij ((h.placed i e he).symm.trans (hhash ▸ h.placed j e' he'))

theorem expandArray (h : ht.WellFormed mem) : ht.expandArray.WellFormed mem where
  placed i e he := by
    rw [expandArray_array, List.mem_reverse, List.mem_filter, decide_eq_true_iff] at he
    exact he.2
  keyed e he := h.keyed e ((mem_expandArray h.placed).mp he)
  distinct i := by
    rw [expandArray_array, List.map_reverse, List.nodup_reverse]
    exact h.entries_distinct.sublist (List.filter_sublist.map _)

theorem checkCollisions (h : ht.WellFormed mem) : ht.checkCollisions.WellFormed mem := by
  rw [OgsHash.checkCollisions]
  split
  · exact h.expandArray
  · exact h

theorem mem_checkCollisions (h : ht.WellFormed mem) : e ∈ ht.checkCollisions ↔ e ∈ ht := by
  rw [OgsHash.checkCollisions]
  split
  · exact mem_expandArray h.placed
  · exact .rfl

end WellFormed

/-! ## Updates -/

variable {chain : List (HashEntry κ ν)} {p : HashEntry κ ν → Bool} {i : Nat}

/-- A chain of distinct contents loses the one entry that matches. -/
theorem mem_eraseP_chain (hdistinct : (chain.map (content mem)).Nodup)
    (hp : ∀ e ∈ chain, p e = true ↔ content mem e = k) :
    e ∈ chain.eraseP p ↔ e ∈ chain ∧ content mem e ≠ k := by
  induction chain with
  | nil => exact ⟨nofun, fun h => nomatch h.1⟩
  | cons first rest ih =>
    rw [List.map_cons, List.nodup_cons] at hdistinct
    have hfirst := hp first List.mem_cons_self
    by_cases hmatch : p first = true
    · rw [List.eraseP_cons_of_pos hmatch, List.mem_cons]
      -- the others hold something else
      have hother (he : e ∈ rest) : content mem e ≠ k := fun hk =>
        hdistinct.1 (List.mem_map.mpr ⟨e, he, hk.trans (hfirst.mp hmatch).symm⟩)
      constructor
      · exact fun he => ⟨.inr he, hother he⟩
      · rintro ⟨rfl | he, hk⟩
        · exact absurd (hfirst.mp hmatch) hk
        · exact he
    · rw [List.eraseP_cons_of_neg hmatch, List.mem_cons, List.mem_cons,
        ih hdistinct.2 fun e he => hp e (List.mem_cons_of_mem _ he)]
      constructor
      · rintro (rfl | ⟨he, hk⟩)
        · exact ⟨.inl rfl, fun hk => hmatch (hfirst.mpr hk)⟩
        · exact ⟨.inr he, hk⟩
      · rintro ⟨rfl | he, hk⟩
        · exact .inl rfl
        · exact .inr ⟨he, hk⟩

theorem mem_setVal_chain {val : ν} (hdistinct : (chain.map (content mem)).Nodup)
    (hp : ∀ e ∈ chain, p e = true ↔ content mem e = k) :
    e ∈ setVal p val chain ↔
      (e ∈ chain ∧ content mem e ≠ k) ∨ ∃ e₀ ∈ chain, content mem e₀ = k ∧ e = { e₀ with val } := by
  induction chain with
  | nil => exact ⟨nofun, fun h => h.elim (fun h => nomatch h.1) fun ⟨_, h, _⟩ => nomatch h⟩
  | cons first rest ih =>
    rw [List.map_cons, List.nodup_cons] at hdistinct
    have hfirst := hp first List.mem_cons_self
    have hother {e : HashEntry κ ν} (he : e ∈ rest) (hsame : content mem e = content mem first) :
        False :=
      hdistinct.1 (List.mem_map.mpr ⟨e, he, hsame⟩)
    rw [setVal]
    split
    · rename_i hmatch
      have hk := hfirst.mp hmatch
      rw [List.mem_cons, List.mem_cons]
      constructor
      · rintro (he | he)
        · exact .inr ⟨first, List.mem_cons_self, hk, he⟩
        · exact .inl ⟨.inr he, fun hsame => hother he (hsame.trans hk.symm)⟩
      · rintro (⟨rfl | he, hne⟩ | ⟨e₀, he₀, hsame, rfl⟩)
        · exact absurd hk hne
        · exact .inr he
        · rcases List.mem_cons.mp he₀ with rfl | he₀
          · exact .inl rfl
          · exact absurd (hsame.trans hk.symm) (hother he₀)
    · rename_i hmatch
      rw [List.mem_cons, ih hdistinct.2 fun e he => hp e (List.mem_cons_of_mem _ he)]
      constructor
      · rintro (rfl | ⟨he, hk⟩ | ⟨e₀, he₀, hk, he⟩)
        · exact .inl ⟨List.mem_cons_self, fun hk => hmatch (hfirst.mpr hk)⟩
        · exact .inl ⟨List.mem_cons_of_mem _ he, hk⟩
        · exact .inr ⟨e₀, List.mem_cons_of_mem _ he₀, hk, he⟩
      · rintro (⟨he, hk⟩ | ⟨e₀, he₀, hk, he⟩)
        · exact (List.mem_cons.mp he).imp_right fun he => .inl ⟨he, hk⟩
        · rcases List.mem_cons.mp he₀ with rfl | he₀
          · exact absurd (hfirst.mpr hk) hmatch
          · exact .inr (.inr ⟨e₀, he₀, hk, he⟩)

theorem map_content_setVal (p : HashEntry κ ν → Bool) (val : ν) (chain : List (HashEntry κ ν)) :
    (setVal p val chain).map (content mem) = chain.map (content mem) := by
  induction chain with
  | nil => rfl
  | cons first rest ih =>
    rw [setVal]
    split
    · rfl
    · rw [List.map_cons, ih, List.map_cons]

theorem withChain_array_self (i : Nat) (chain : List (HashEntry κ ν)) :
    (ht.withChain i chain).array i = chain :=
  update_self ..

theorem withChain_array_of_ne {j : Nat} (hij : j ≠ i) (chain : List (HashEntry κ ν)) :
    (ht.withChain i chain).array j = ht.array j :=
  update_of_ne hij ..

theorem mem_withChain (hplaced : ∀ i, ∀ e ∈ ht.array i, slot e.hash ht.max = i) :
    e ∈ ht.withChain i chain ↔ e ∈ chain ∨ (e ∈ ht ∧ slot e.hash ht.max ≠ i) := by
  constructor
  · rintro ⟨j, hj⟩
    by_cases hij : j = i
    · rw [hij, withChain_array_self] at hj
      exact .inl hj
    · rw [withChain_array_of_ne hij] at hj
      exact .inr ⟨⟨j, hj⟩, by rwa [hplaced j e hj]⟩
  · rintro (he | ⟨⟨j, hj⟩, hne⟩)
    · exact ⟨i, by rwa [withChain_array_self]⟩
    · rw [hplaced j e hj] at hne
      exact ⟨j, by rwa [withChain_array_of_ne hne]⟩

namespace WellFormed

theorem withChain (h : ht.WellFormed mem) {i : Nat} {chain : List (HashEntry κ ν)}
    (hplaced : ∀ e ∈ chain, slot e.hash ht.max = i)
    (hkeyed : ∀ e ∈ chain, e.hash = hashfuncDefault (content mem e) ht.seed ∧
      e.klen = (content mem e).length)
    (hdistinct : (chain.map (content mem)).Nodup) : (ht.withChain i chain).WellFormed mem where
  placed j e he := by
    by_cases hij : j = i
    · rw [hij, withChain_array_self] at he
      exact hij ▸ hplaced e he
    · rw [withChain_array_of_ne hij] at he
      exact h.placed j e he
  keyed e he := by
    rcases (mem_withChain h.placed).mp he with he | ⟨he, -⟩
    · exact hkeyed e he
    · exact h.keyed e he
  distinct j := by
    by_cases hij : j = i
    · rwa [hij, withChain_array_self]
    · rw [withChain_array_of_ne hij]
      exact h.distinct j

theorem withCount (h : ht.WellFormed mem) (count : Nat) :
    ({ ht with count } : OgsHash κ ν).WellFormed mem :=
  ⟨h.placed, h.keyed, h.distinct⟩

theorem slot_of_content (h : ht.WellFormed mem) (he : e ∈ ht) (hk : content mem e = k) :
    slot e.hash ht.max = ht.index k := by
  rw [(h.keyed e he).1, hk, index]

theorem isMatch_chain (h : ht.WellFormed mem) :
    ∀ e ∈ ht.array (ht.index k),
      isMatch mem (hashfuncDefault k ht.seed) k e = true ↔ content mem e = k :=
  fun _ he => h.isMatch_iff ⟨_, he⟩

variable {key : κ} {klen : Nat}

/-- Deleting a key leaves the entries that hold another one. -/
theorem set_none (h : ht.WellFormed mem) (hklen : klen ≠ 0) (hk : (mem key).take klen = k) :
    ∃ t, ht.set mem key klen none = .ok t ∧ t.WellFormed mem ∧
      ∀ e, e ∈ t ↔ e ∈ ht ∧ content mem e ≠ k := by
  cases hfind : ht.findEntry mem k with
  | none =>
    have habsent := h.findEntry_eq_none_iff.mp hfind
    refine ⟨ht, ?_, h, fun e => ⟨fun he => ⟨he, habsent e he⟩, And.left⟩⟩
    simp only [OgsHash.set, if_neg hklen, hk, hfind]
  | some found =>
    have hsub : (ht.array (ht.index k)).eraseP (isMatch mem (hashfuncDefault k ht.seed) k) ⊆
        ht.array (ht.index k) := List.eraseP_subset
    have hchain : (ht.withChain (ht.index k) ((ht.array (ht.index k)).eraseP
        (isMatch mem (hashfuncDefault k ht.seed) k))).WellFormed mem :=
      h.withChain (fun e he => h.placed _ e (hsub he)) (fun e he => h.keyed e ⟨_, hsub he⟩)
        ((h.distinct _).sublist ((List.eraseP_sublist ..).map _))
    refine ⟨_, ?_, hchain.withCount (ht.count - 1), fun e => (mem_withChain h.placed).trans ?_⟩
    · simp only [OgsHash.set, if_neg hklen, hk, hfind]
    rw [mem_eraseP_chain (h.distinct _) h.isMatch_chain]
    constructor
    · rintro (⟨he, hne⟩ | ⟨he, hslot⟩)
      · exact ⟨⟨_, he⟩, hne⟩
      · exact ⟨he, fun hsame => hslot (h.slot_of_content he hsame)⟩
    · rintro ⟨⟨i, hi⟩, hne⟩
      by_cases hslot : i = ht.index k
      · exact .inl ⟨hslot ▸ hi, hne⟩
      · exact .inr ⟨⟨i, hi⟩, by rwa [h.placed i e hi]⟩

/-- A chain that binds the key to `bound` and keeps what else it held. -/
theorem of_chain (h : ht.WellFormed mem) {chain : List (HashEntry κ ν)} {bound : HashEntry κ ν}
    (hbound : content mem bound = k) (hhash : bound.hash = hashfuncDefault k ht.seed)
    (hklen : bound.klen = k.length) (hdistinct : (chain.map (content mem)).Nodup)
    (hchain : ∀ e, e ∈ chain ↔ (e ∈ ht.array (ht.index k) ∧ content mem e ≠ k) ∨ e = bound) :
    (ht.withChain (ht.index k) chain).WellFormed mem ∧
      ∀ e, e ∈ ht.withChain (ht.index k) chain ↔ (e ∈ ht ∧ content mem e ≠ k) ∨ e = bound := by
  constructor
  · refine h.withChain (fun e he => ?_) (fun e he => ?_) hdistinct
    · rcases (hchain e).mp he with ⟨he, -⟩ | rfl
      · exact h.placed _ e he
      · rw [hhash, index]
    · rcases (hchain e).mp he with ⟨he, -⟩ | rfl
      · exact h.keyed e ⟨_, he⟩
      · rw [hbound]
        exact ⟨hhash, hklen⟩
  · intro e
    rw [mem_withChain h.placed, hchain]
    constructor
    · rintro ((⟨he, hne⟩ | he) | ⟨he, hslot⟩)
      · exact .inl ⟨⟨_, he⟩, hne⟩
      · exact .inr he
      · exact .inl ⟨he, fun hsame => hslot (h.slot_of_content he hsame)⟩
    · rintro (⟨⟨i, hi⟩, hne⟩ | he)
      · by_cases hslot : i = ht.index k
        · exact .inl (.inl ⟨hslot ▸ hi, hne⟩)
        · exact .inr ⟨⟨i, hi⟩, by rwa [h.placed i e hi]⟩
      · exact .inl (.inr he)

/-- Setting a key leaves the entries that hold another one, and one that binds the
key: the entry found, with the new value, or else a new one. -/
theorem set_some (h : ht.WellFormed mem) (hklen : klen ≠ 0) (hk : (mem key).take klen = k)
    (hlength : k.length = klen) (val : ν) :
    ∃ t bound, ht.set mem key klen (some val) = .ok t ∧ t.WellFormed mem ∧
      (∀ e, e ∈ t ↔ (e ∈ ht ∧ content mem e ≠ k) ∨ e = bound) ∧
      content mem bound = k ∧ bound.val = val ∧
      ((ht.findEntry mem k).map HashEntry.key).getD key = bound.key := by
  cases hfind : ht.findEntry mem k with
  | none =>
    have habsent := h.findEntry_eq_none_iff.mp hfind
    let bound : HashEntry κ ν := ⟨hashfuncDefault k ht.seed, key, klen, val⟩
    have hbound : content mem bound = k := hk
    have hdistinct : ((ht.array (ht.index k) ++ [bound]).map (content mem)).Nodup := by
      rw [List.map_append, List.nodup_append]
      refine ⟨h.distinct _, List.nodup_singleton _, fun _ hold _ hnew hsame => ?_⟩
      obtain ⟨e, he, rfl⟩ := List.mem_map.mp hold
      exact habsent e ⟨_, he⟩ (hsame.trans ((List.mem_singleton.mp hnew).trans hbound))
    have hchain (e : HashEntry κ ν) : e ∈ ht.array (ht.index k) ++ [bound] ↔
        (e ∈ ht.array (ht.index k) ∧ content mem e ≠ k) ∨ e = bound := by
      rw [List.mem_append, List.mem_singleton]
      exact or_congr_left ⟨fun he => ⟨he, habsent e ⟨_, he⟩⟩, And.left⟩
    obtain ⟨hwell, hmem⟩ := h.of_chain hbound rfl hlength.symm hdistinct hchain
    have hcount := hwell.withCount (ht.count + 1)
    refine ⟨_, bound, ?_, hcount.checkCollisions, fun e =>
      hcount.mem_checkCollisions.trans (hmem e), hbound, rfl, rfl⟩
    simp only [OgsHash.set, if_neg hklen, hk, hfind, bound]
  | some found =>
    obtain ⟨hfound, hsame⟩ := h.findEntry_eq_some_iff.mp hfind
    let bound : HashEntry κ ν := { found with val }
    have hbound : content mem bound = k := hsame
    obtain ⟨hhash, hfoundLen⟩ := h.keyed found hfound
    rw [hsame] at hhash hfoundLen
    let p : HashEntry κ ν → Bool := isMatch mem (hashfuncDefault k ht.seed) k
    have hdistinct : ((setVal p val (ht.array (ht.index k))).map (content mem)).Nodup := by
      rw [map_content_setVal]
      exact h.distinct _
    have hchain (e : HashEntry κ ν) : e ∈ setVal p val (ht.array (ht.index k)) ↔
        (e ∈ ht.array (ht.index k) ∧ content mem e ≠ k) ∨ e = bound := by
      rw [mem_setVal_chain (h.distinct _) h.isMatch_chain]
      refine or_congr_right ⟨?_, fun he => ⟨found, h.mem_index hfound hsame, hsame, he⟩⟩
      rintro ⟨e₀, he₀, hk₀, rfl⟩
      rw [h.unique ⟨_, he₀⟩ hfound (hk₀.trans hsame.symm)]
    obtain ⟨hwell, hmem⟩ := h.of_chain hbound hhash hfoundLen hdistinct hchain
    refine ⟨_, bound, ?_, hwell.checkCollisions, fun e =>
      hwell.mem_checkCollisions.trans (hmem e), hbound, rfl, rfl⟩
    simp only [OgsHash.set, if_neg hklen, hk, hfind, p]

end WellFormed

end OgsHash

end Quicup.Open5gs
