import Quicup.Open5gs.Upf.Session

/-!
# Owners of UE addresses

A call frees the addresses of a session before it hands out new ones, and assigns only
the pointers that the session type asks for. Ownership is sound as long as every pointer
that was freed is assigned again, and no address is handed out that a session has.
-/

namespace Quicup.Open5gs

open Pfcp Function

/-! ## What is handed out -/

/-- The slots of a subnet among what is held. -/
def usedSlotsOf (held : List (Nat × IpVersion × UeIpPtr)) (k : Nat) : List Nat :=
  held.filterMap fun entry =>
    match entry.2.2 with
    | .slot k' i => if k' = k then some i else none
    | .cell _ => none

/-- The pools of the subnets and the memory of static addresses hold what is handed out. -/
structure UeIpsHold (ueIps : UeIps) (held : List (Nat × IpVersion × UeIpPtr)) : Prop where
  pools : ∀ k, (ueIps.pool k).Holds (usedSlotsOf held k)
  cells : ∀ sess version n, (sess, version, .cell n) ∈ held → ueIps.cells n ≠ none
  next : ∀ n, ueIps.next ≤ n → ueIps.cells n = none
  distinct : (held.map fun entry => entry.2.2).Nodup

section Hold

variable {ueIps ueIps' : UeIps} {held : List (Nat × IpVersion × UeIpPtr)} {sess k i n : Nat}
  {version : IpVersion} {p : UeIpPtr} {pool : OgsPool} {dnn : Option (List Char)}
  {addr : Vector UInt32 4} {calloc : Bool}

theorem usedSlotsOf_cons_slot :
    usedSlotsOf ((sess, version, .slot k i) :: held) n =
      if k = n then i :: usedSlotsOf held n else usedSlotsOf held n := by
  by_cases h : k = n <;> simp [usedSlotsOf, h]

theorem usedSlotsOf_cons_cell :
    usedSlotsOf ((sess, version, .cell i) :: held) n = usedSlotsOf held n := by
  simp [usedSlotsOf]

theorem usedSlotsOf_perm {held' : List (Nat × IpVersion × UeIpPtr)} (h : held.Perm held') :
    (usedSlotsOf held k).Perm (usedSlotsOf held' k) :=
  h.filterMap _

/-- A slot that is handed out belongs to a subnet. -/
theorem UeIpsHold.subnet (h : UeIpsHold ueIps held) (hmem : (sess, version, .slot k i) ∈ held) :
    k < ueIps.subnets.length := by
  by_contra hk
  have hused : i ∈ usedSlotsOf held k :=
    List.mem_filterMap.mpr ⟨_, hmem, by simp⟩
  have hrange := (h.pools k).mem_iff.mp (List.mem_append_right _ hused)
  rw [UeIps.pool, List.getElem?_eq_none (by omega)] at hrange
  cases hrange

theorem pool_setPool (hk : k < ueIps.subnets.length) :
    (ueIps.setPool k pool).pool n = if n = k then pool else ueIps.pool n := by
  rw [UeIps.pool, UeIps.getElem?_setPool]
  by_cases h : n = k
  · subst h
    simp [List.getElem?_eq_getElem hk]
  · simp [h, Ne.symm h, UeIps.pool]

@[simp] theorem addr_setPool {slotAddr : Nat → Nat → Vector UInt32 4} :
    (ueIps.setPool k pool).addr slotAddr p = ueIps.addr slotAddr p := by
  cases p <;> rfl

/-- What is handed out can be given back, and leaves the other addresses. -/
theorem UeIpsHold.release (slotAddr : Nat → Nat → Vector UInt32 4) (h : UeIpsHold ueIps held)
    (hmem : (sess, version, p) ∈ held) :
    ∃ ueIps', ueIps.release p = .ok ueIps' ∧ UeIpsHold ueIps' (held.erase (sess, version, p)) ∧
      ∀ q, q ≠ p → ueIps'.addr slotAddr q = ueIps.addr slotAddr q := by
  have hperm := List.perm_cons_erase hmem
  have hdistinct := h.distinct
  rw [(hperm.map _).nodup_iff, List.map_cons, List.nodup_cons] at hdistinct
  obtain ⟨hnot, hrest⟩ := hdistinct
  have hcells (sess' : Nat) (version' : IpVersion) (n : Nat)
      (hin : (sess', version', .cell n) ∈ held.erase (sess, version, p)) :
      UeIpPtr.cell n ≠ p ∧ ueIps.cells n ≠ none := by
    refine ⟨?_, h.cells sess' version' n (List.mem_of_mem_erase hin)⟩
    rintro rfl
    exact hnot (List.mem_map.mpr ⟨_, hin, rfl⟩)
  cases p with
  | cell n =>
    obtain ⟨words, hwords⟩ := Option.ne_none_iff_exists'.mp (h.cells sess version n hmem)
    refine ⟨ueIps.setCell n none, ?_, ⟨?_, ?_, ?_, hrest⟩, ?_⟩
    · rw [UeIps.release, hwords]
    · intro k
      apply (h.pools k).perm
      refine (usedSlotsOf_perm hperm).trans ?_
      rw [usedSlotsOf_cons_cell]
    · intro sess' version' m hin
      obtain ⟨hne, hsome⟩ := hcells sess' version' m hin
      rwa [UeIps.cells_setCell, if_neg fun hm => hne (congrArg _ hm)]
    · intro m hm
      rw [UeIps.cells_setCell]
      split
      · rfl
      · exact h.next m hm
    · intro q hq
      cases q with
      | slot k i => rfl
      | cell m => exact (UeIps.cells_setCell ..).trans (if_neg fun hm => hq (congrArg _ hm))
  | slot k i =>
    have hk := h.subnet hmem
    refine ⟨_, rfl, ⟨?_, ?_, h.next, hrest⟩, fun q _ => addr_setPool⟩
    · intro j
      rw [pool_setPool hk]
      have hj := (h.pools j).perm (usedSlotsOf_perm hperm)
      rw [usedSlotsOf_cons_slot] at hj
      by_cases hjk : j = k
      · subst hjk
        rw [if_pos rfl] at hj ⊢
        exact hj.release
      · rw [if_neg (Ne.symm hjk)] at hj
        rw [if_neg hjk]
        exact hj
    · intro sess' version' m hin
      exact (hcells sess' version' m hin).2

/-- Memory that was never handed out is handed out. -/
theorem UeIpsHold.cell (slotAddr : Nat → Nat → Vector UInt32 4) (h : UeIpsHold ueIps held)
    (addr : Vector UInt32 4) (sess : Nat) (version : IpVersion) :
    UeIpsHold { ueIps.setCell ueIps.next (some addr) with next := ueIps.next + 1 }
        ((sess, version, .cell ueIps.next) :: held) ∧
      ∀ q, q ∈ held.map (fun entry => entry.2.2) → q ≠ .cell ueIps.next ∧
        (ueIps.setCell ueIps.next (some addr)).addr slotAddr q = ueIps.addr slotAddr q := by
  have hfresh (q : UeIpPtr) (hq : q ∈ held.map fun entry => entry.2.2) :
      q ≠ .cell ueIps.next := by
    rintro rfl
    obtain ⟨⟨sess', version', q⟩, hin, hqq⟩ := List.mem_map.mp hq
    obtain rfl : q = .cell ueIps.next := hqq
    exact h.cells sess' version' ueIps.next hin (h.next ueIps.next (Nat.le_refl _))
  refine ⟨⟨?_, ?_, ?_, ?_⟩, fun q hq => ⟨hfresh q hq, ?_⟩⟩
  · intro j
    rw [usedSlotsOf_cons_cell]
    exact h.pools j
  · intro sess' version' m hin
    change (ueIps.setCell ueIps.next (some addr)).cells m ≠ none
    rw [UeIps.cells_setCell]
    split
    · nofun
    · next hm =>
      rcases List.mem_cons.mp hin with heq | hin
      · cases heq
        exact absurd rfl hm
      · exact h.cells sess' version' m hin
  · intro m hm
    change ueIps.next + 1 ≤ m at hm
    change (ueIps.setCell ueIps.next (some addr)).cells m = none
    rw [UeIps.cells_setCell, if_neg (by omega)]
    exact h.next m (by omega)
  · rw [List.map_cons, List.nodup_cons]
    exact ⟨fun hin => hfresh _ hin rfl, h.distinct⟩
  · cases q with
    | slot k i => rfl
    | cell m => exact (UeIps.cells_setCell ..).trans (if_neg fun hm => hfresh _ hq (congrArg _ hm))

/-- A free slot is handed out. -/
theorem UeIpsHold.slot (h : UeIpsHold ueIps held) (hk : k < ueIps.subnets.length)
    (hfirst : (ueIps.pool k).alloc.1 = some i) (sess : Nat) (version : IpVersion) :
    UeIpsHold (ueIps.setPool k (ueIps.pool k).alloc.2) ((sess, version, .slot k i) :: held) ∧
      ∀ q, q ∈ held.map (fun entry => entry.2.2) → q ≠ .slot k i := by
  obtain ⟨hholds, hnot⟩ := (h.pools k).alloc hfirst
  have hfresh (q : UeIpPtr) (hq : q ∈ held.map fun entry => entry.2.2) : q ≠ .slot k i := by
    rintro rfl
    obtain ⟨⟨sess', version', q⟩, hin, hqq⟩ := List.mem_map.mp hq
    obtain rfl : q = .slot k i := hqq
    exact hnot (List.mem_filterMap.mpr ⟨_, hin, by simp⟩)
  refine ⟨⟨?_, ?_, h.next, ?_⟩, hfresh⟩
  · intro j
    rw [pool_setPool hk, usedSlotsOf_cons_slot]
    by_cases hjk : j = k
    · subst hjk
      rw [if_pos rfl, if_pos rfl]
      exact hholds
    · rw [if_neg hjk, if_neg (Ne.symm hjk)]
      exact h.pools j
  · intro sess' version' m hin
    rcases List.mem_cons.mp hin with heq | hin
    · cases heq
    · exact h.cells sess' version' m hin
  · rw [List.map_cons, List.nodup_cons]
    exact ⟨fun hin => hfresh _ hin rfl, h.distinct⟩

/-- What is handed out next was free, and the other addresses stay. -/
theorem UeIpsHold.alloc (slotAddr : Nat → Nat → Vector UInt32 4) (h : UeIpsHold ueIps held)
    (halloc : ueIps.alloc version dnn addr calloc = .ok (.ok p, ueIps')) (sess : Nat) :
    UeIpsHold ueIps' ((sess, version, p) :: held) ∧ (ueIps'.addr slotAddr p).isSome ∧
      ∀ q, q ∈ held.map (fun entry => entry.2.2) →
        q ≠ p ∧ ueIps'.addr slotAddr q = ueIps.addr slotAddr q := by
  unfold UeIps.alloc at halloc
  split at halloc
  · cases halloc
  · next k hfind =>
    have hk : k < ueIps.subnets.length := (List.findIdx?_eq_some_iff_getElem.mp hfind).1
    split at halloc
    · split at halloc
      · obtain ⟨hp, rfl⟩ := Prod.mk.inj (Except.ok.inj halloc)
        obtain rfl := Except.ok.inj hp
        obtain ⟨hhold, hother⟩ := h.cell slotAddr addr sess version
        refine ⟨hhold, ?_, hother⟩
        exact congrArg Option.isSome ((UeIps.cells_setCell ..).trans (if_pos rfl))
      · cases halloc
    · split at halloc
      · cases halloc
      · split at halloc
        · cases halloc
        · next i pool hpool =>
          obtain ⟨hp, rfl⟩ := Prod.mk.inj (Except.ok.inj halloc)
          obtain rfl := Except.ok.inj hp
          obtain ⟨hhold, hother⟩ := h.slot hk (congrArg Prod.fst hpool) sess version
          rw [hpool] at hhold
          exact ⟨hhold, rfl, fun q hq => ⟨hother q hq, addr_setPool⟩⟩

/-- An address of one version leaves the subnets that serve the other. -/
theorem alloc_other {result : Except UInt8 UeIpPtr} {version' : IpVersion}
    (dnn' : Option (List Char))
    (halloc : ueIps.alloc version dnn addr calloc = .ok (result, ueIps'))
    (hne : version' ≠ version) :
    ueIps'.findSubnet version' dnn' = ueIps.findSubnet version' dnn' ∧
      ∀ k, ueIps'.findSubnet version' dnn' = some k →
        ueIps'.family k = ueIps.family k ∧ ueIps'.pool k = ueIps.pool k := by
  have hsubnets : ueIps'.subnets = ueIps.subnets ∨ ∃ k pool, ueIps' = ueIps.setPool k pool ∧
      ueIps.findSubnet version dnn = some k ∧ ueIps.family k ≠ afUnspec := by
    unfold UeIps.alloc at halloc
    split at halloc
    · obtain ⟨-, rfl⟩ := Prod.mk.inj (Except.ok.inj halloc)
      exact .inl rfl
    · next k hfind =>
      split at halloc
      · split at halloc <;>
          (obtain ⟨-, rfl⟩ := Prod.mk.inj (Except.ok.inj halloc); exact .inl rfl)
      · split at halloc
        · cases halloc
        · next hfamily =>
          split at halloc
          · obtain ⟨-, rfl⟩ := Prod.mk.inj (Except.ok.inj halloc)
            exact .inl rfl
          · obtain ⟨-, rfl⟩ := Prod.mk.inj (Except.ok.inj halloc)
            exact .inr ⟨k, _, rfl, hfind, hfamily⟩
  rcases hsubnets with hsame | ⟨k, pool, rfl, hfind, hfamily⟩
  · simp only [UeIps.findSubnet, UeIps.family, UeIps.pool, hsame, true_and]
    exact fun k _ => trivial
  · obtain ⟨hk, hserves, -⟩ := List.findIdx?_eq_some_iff_getElem.mp hfind
    have hfam : ueIps.subnets[k].family ≠ afUnspec := by
      simpa [UeIps.family, List.getElem?_eq_getElem hk] using hfamily
    -- the subnet serves its own version only
    have hnot (subnet : Subnet) (hsubnet : subnet.family = ueIps.subnets[k].family) :
        Subnet.serves version' dnn' subnet = false := by
      have hversion : ueIps.subnets[k].family = version.family := by
        simp only [Subnet.serves, decide_eq_true_eq] at hserves
        exact hserves.1.resolve_left hfam
      apply decide_eq_false
      rintro ⟨hfamily', -⟩
      rw [hsubnet, or_iff_right hfam, hversion] at hfamily'
      cases version <;> cases version' <;> first | exact hne rfl | cases hfamily'
    have hmap : (ueIps.setPool k pool).subnets.map (Subnet.serves version' dnn') =
        ueIps.subnets.map (Subnet.serves version' dnn') := by
      apply List.ext_getElem?
      intro j
      rw [List.getElem?_map, List.getElem?_map, UeIps.getElem?_setPool]
      split
      · next hj =>
        subst hj
        rw [List.getElem?_eq_getElem hk]
        have hpool := hnot { ueIps.subnets[k] with pool } rfl
        exact congrArg some (hpool.trans (hnot _ rfl).symm)
      · rfl
    have hfindIdx (subnets : List Subnet) : subnets.findIdx? (Subnet.serves version' dnn') =
        (subnets.map (Subnet.serves version' dnn')).findIdx? id := by
      rw [List.findIdx?_map, Function.id_comp]
    have hsame : (ueIps.setPool k pool).findSubnet version' dnn' =
        ueIps.findSubnet version' dnn' := by
      rw [UeIps.findSubnet, UeIps.findSubnet, hfindIdx, hmap, ← hfindIdx]
    refine ⟨hsame, fun j hj => ?_⟩
    rw [hsame] at hj
    have hjk : j ≠ k := by
      rintro rfl
      obtain ⟨hlt, hserves', -⟩ := List.findIdx?_eq_some_iff_getElem.mp hj
      rw [hnot _ rfl] at hserves'
      cases hserves'
    rw [pool_setPool hk, if_neg hjk]
    refine ⟨?_, rfl⟩
    rw [UeIps.family, UeIps.getElem?_setPool, if_neg (Ne.symm hjk)]
    rfl

end Hold

/-! ## Owners -/

variable {cfg : N4Config} {ctx ctx' : N4Context} {own : IpVersion → Nat → Option UeIpPtr}
  {sess : Nat} {version : IpVersion} {p : UeIpPtr}

/-- The pointer of one session for one version is set. -/
def setOwn (own : IpVersion → Nat → Option UeIpPtr) (version : IpVersion) (sess : Nat)
    (p : Option UeIpPtr) : IpVersion → Nat → Option UeIpPtr :=
  update own version (update (own version) sess p)

theorem setOwn_apply (version' : IpVersion) (sess' : Nat) (p : Option UeIpPtr) :
    setOwn own version sess p version' sess' =
      if version' = version ∧ sess' = sess then p else own version' sess' := by
  by_cases hversion : version' = version
  · subst hversion
    by_cases hsess : sess' = sess <;> simp [setOwn, hsess]
  · simp [setOwn, hversion]

/-- Each session owns what its pointers say: that is what is handed out to it, and the
tables lead from its addresses to it. -/
structure Owned (cfg : N4Config) (own : IpVersion → Nat → Option UeIpPtr) (ctx : N4Context) :
    Prop where
  hold : UeIpsHold ctx.ueIps ctx.held
  record : ∀ sess version p, (sess, version, p) ∈ ctx.held ↔ own version sess = some p
  index : ∀ version,
    (ctx.ipHash version).Indexed (ctx.ueIpMem cfg) version.klen (own version)
  once : ctx.freedTwice = false

section Record

variable {held : List (Nat × IpVersion × UeIpPtr)}

/-- What is handed out to a session is its own. -/
theorem record_cons
    (hrecord : ∀ sess version p, (sess, version, p) ∈ held ↔ own version sess = some p)
    (hown : own version sess = none) (n : Nat) (version' : IpVersion) (q : UeIpPtr) :
    (n, version', q) ∈ (sess, version, p) :: held ↔
      setOwn own version sess (some p) version' n = some q := by
  rw [List.mem_cons, hrecord, setOwn_apply]
  constructor
  · rintro (heq | hq)
    · cases heq
      rw [if_pos ⟨rfl, rfl⟩]
    · rw [if_neg]
      · exact hq
      · rintro ⟨rfl, rfl⟩
        cases hown.symm.trans hq
  · intro hq
    split at hq
    · next heq =>
      obtain ⟨rfl, rfl⟩ := heq
      obtain rfl := Option.some.inj hq
      exact .inl rfl
    · exact .inr hq

/-- What a session gives back is nobody's. -/
theorem record_erase
    (hrecord : ∀ sess version p, (sess, version, p) ∈ held ↔ own version sess = some p)
    (hnodup : held.Nodup) (hown : own version sess = some p) (n : Nat) (version' : IpVersion)
    (q : UeIpPtr) :
    (n, version', q) ∈ held.erase (sess, version, p) ↔
      setOwn own version sess none version' n = some q := by
  rw [hnodup.mem_erase_iff, hrecord, setOwn_apply]
  constructor
  · rintro ⟨hne, hq⟩
    rw [if_neg]
    · exact hq
    · rintro ⟨rfl, rfl⟩
      obtain rfl := Option.some.inj (hown.symm.trans hq)
      exact hne rfl
  · intro hq
    split at hq
    · cases hq
    · next hne =>
      refine ⟨?_, hq⟩
      rintro heq
      cases heq
      exact hne ⟨rfl, rfl⟩

end Record

/-- The tables stay exact when one of them follows the pointer of a session. -/
theorem indexed_setIpHash {mem : UeIpPtr → List UInt8} {ht : OgsHash UeIpPtr Nat}
    {q : Option UeIpPtr}
    (h : ∀ version, (ctx.ipHash version).Indexed mem version.klen (own version))
    (hht : ht.Indexed mem version.klen (update (own version) sess q))
    (version' : IpVersion) : ((ctx.setIpHash version ht).ipHash version').Indexed mem
      version'.klen (setOwn own version sess q version') := by
  rw [N4Context.ipHash_setIpHash]
  split
  · next heq =>
    subst heq
    rw [setOwn, update_self]
    exact hht
  · next hne =>
    rw [setOwn, update_of_ne hne]
    exact h version'

/-- What the operations on addresses leave as it was. -/
structure SameSessions (ctx ctx' : N4Context) : Prop where
  sessList : ctx'.sessList = ctx.sessList
  upfSessPool : ctx'.upfSessPool = ctx.upfSessPool
  upfN4SeidPool : ctx'.upfN4SeidPool = ctx.upfN4SeidPool
  upfN4SeidHash : ctx'.upfN4SeidHash = ctx.upfN4SeidHash
  smfN4SeidHash : ctx'.smfN4SeidHash = ctx.smfN4SeidHash
  smfN4FSeidHash : ctx'.smfN4FSeidHash = ctx.smfN4FSeidHash
  sess : ∀ n, { ctx'.sess n with ueIp := (ctx.sess n).ueIp } = ctx.sess n

theorem SameSessions.refl (ctx : N4Context) : SameSessions ctx ctx :=
  ⟨rfl, rfl, rfl, rfl, rfl, rfl, fun _ => rfl⟩

theorem SameSessions.trans {ctx'' : N4Context} (h : SameSessions ctx ctx')
    (h' : SameSessions ctx' ctx'') : SameSessions ctx ctx'' where
  sessList := h'.sessList.trans h.sessList
  upfSessPool := h'.upfSessPool.trans h.upfSessPool
  upfN4SeidPool := h'.upfN4SeidPool.trans h.upfN4SeidPool
  upfN4SeidHash := h'.upfN4SeidHash.trans h.upfN4SeidHash
  smfN4SeidHash := h'.smfN4SeidHash.trans h.smfN4SeidHash
  smfN4FSeidHash := h'.smfN4FSeidHash.trans h.smfN4FSeidHash
  sess n := by
    have hn := h.sess n
    rw [← h'.sess n] at hn
    exact hn

theorem SameSessions.setUeIpPtr (ctx : N4Context) (sess : Nat) (version : IpVersion)
    (q : Option UeIpPtr) : SameSessions ctx (ctx.setUeIpPtr sess version q) where
  sessList := rfl
  upfSessPool := rfl
  upfN4SeidPool := rfl
  upfN4SeidHash := rfl
  smfN4SeidHash := rfl
  smfN4FSeidHash := rfl
  sess n := by
    by_cases hn : n = sess
    · subst hn
      simp [N4Context.setUeIpPtr, N4Context.setSess]
    · simp [N4Context.setUeIpPtr, N4Context.setSess, hn]

theorem klen_pos (version : IpVersion) : version.klen ≠ 0 := by cases version <;> decide

@[simp] theorem length_addrMem (addr : Vector UInt32 4) : (N4Context.addrMem addr).length = 16 := by
  obtain ⟨⟨words⟩, hsize⟩ := addr
  match words, hsize with
  | [a, b, c, d], _ => simp [N4Context.addrMem]

theorem klen_le (version : IpVersion) : version.klen ≤ 16 := by cases version <;> decide

/-- What a session owns is handed out. -/
theorem Owned.mem_held (h : Owned cfg own ctx) (hown : own version sess = some p) :
    p ∈ ctx.held.map fun entry => entry.2.2 :=
  List.mem_map.mpr ⟨_, (h.record sess version p).mpr hown, rfl⟩

/-- The memory behind a pointer that is owned. -/
theorem Owned.addr_isSome (h : Owned cfg own ctx) (hown : own version sess = some p) :
    (ctx.ueIps.addr cfg.slotAddr p).isSome := by
  cases p with
  | slot k i => rfl
  | cell n =>
    have hsome := h.hold.cells sess version n ((h.record ..).mpr hown)
    exact Option.isSome_iff_ne_none.mpr hsome

variable {version' : IpVersion} {ueIps : UeIps}

/-- Nobody else owns the pointer. -/
theorem Owned.unique (h : Owned cfg own ctx) {sess' : Nat} (hown : own version sess = some p)
    (hown' : own version' sess' = some p) : version' = version ∧ sess' = sess := by
  have hmem := (h.record sess version p).mpr hown
  have hmem' := (h.record sess' version' p).mpr hown'
  have heq := List.inj_on_of_nodup_map h.hold.distinct hmem' hmem rfl
  cases heq
  exact ⟨rfl, rfl⟩

/-- An address of a session is taken out of the table and freed. -/
theorem Owned.drop (h : Owned cfg own ctx) (hptr : (ctx.sess sess).ueIp version = own version sess) :
    ∃ ctx', ctx.dropUeIp cfg sess version = .ok ctx' ∧ Owned cfg (setOwn own version sess none) ctx' ∧
      SameSessions ctx ctx' ∧ ctx'.sess = ctx.sess ∧
      ctx'.ueIps = ctx.ueIps.giveBack (own version sess) := by
  rw [N4Context.dropUeIp, hptr]
  cases hown : own version sess with
  | none =>
    have hsame : setOwn own version sess none = own := by
      funext version' sess'
      rw [setOwn_apply]
      split
      · next heq => rw [heq.1, heq.2, hown]
      · rfl
    rw [hsame]
    exact ⟨ctx, rfl, h, .refl ctx, rfl, rfl⟩
  | some p =>
    have hmem := (h.record sess version p).mpr hown
    obtain ⟨ht, hset, hindexed⟩ := (h.index version).set_none (klen_pos version) hown
    obtain ⟨ueIps, hrelease, hhold, haddr⟩ := h.hold.release cfg.slotAddr hmem
    have hsome := h.addr_isSome hown
    have hother {version' : IpVersion} {sess' : Nat} {q : UeIpPtr}
        (hq : setOwn own version sess none version' sess' = some q) :
        own version' sess' = some q ∧ q ≠ p := by
      rw [setOwn_apply] at hq
      split at hq
      · cases hq
      · next hne =>
        refine ⟨hq, ?_⟩
        rintro rfl
        exact hne (h.unique hown hq)
    refine ⟨{ ctx.setIpHash version ht with
        ueIps
        held := ctx.held.erase (sess, version, p)
        freedTwice := false }, ?_, ⟨hhold, ?_, ?_, rfl⟩, ⟨rfl, rfl, rfl, rfl, rfl, rfl, fun _ => rfl⟩,
      rfl, ?_⟩
    · have hnone : (ctx.ueIps.addr cfg.slotAddr p).isNone = false := by
        rw [Option.isNone_eq_false_iff]
        exact hsome
      have hheld : decide ((sess, version, p) ∉ (ctx.setIpHash version ht).held) = false :=
        decide_eq_false (not_not.mpr hmem)
      simp only [hnone, hset, Fallible.ok_bind, N4Context.ueIpFree, hheld]
      rw [if_neg Bool.false_ne_true]
      change (do
        let ueIps ← ctx.ueIps.release p
        return _) = _
      rw [hrelease]
      simp only [Fallible.ok_bind, N4Context.setIpHash, h.once, Bool.or_self]
      rfl
    · exact record_erase h.record (h.hold.distinct.of_map _) hown
    · intro version'
      have hmemory (sess' : Nat) (q : UeIpPtr)
          (hq : setOwn own version sess none version' sess' = some q) :
          ((ueIps.addr cfg.slotAddr q).map N4Context.addrMem).getD [] = ctx.ueIpMem cfg q := by
        rw [haddr q (hother hq).2]
        rfl
      exact (indexed_setIpHash h.index hindexed version').congr hmemory
    · rw [UeIps.giveBack, Option.map_some, hrelease]

/-- What a call for an address of a version needs of the subnets and of the other owners:
the slot that it may take was set up, and the address that is next is not one of theirs. -/
structure Takable (cfg : N4Config) (ueIps : UeIps) (other : Nat → Option UeIpPtr)
    (version : IpVersion) (dnn : Option (List Char)) (addr : Vector UInt32 4) : Prop where
  setUp : ∀ k, ueIps.findSubnet version dnn = some k → addr = Vector.replicate 4 0 →
    ueIps.family k ≠ afUnspec
  fresh : ∀ words, ueIps.nextAddr cfg.slotAddr version dnn addr = some words →
    ∀ n q addr', other n = some q → ueIps.addr cfg.slotAddr q = some addr' →
      (N4Context.addrMem addr').take version.klen ≠ (N4Context.addrMem words).take version.klen

/-- A call for an address of a version succeeds. -/
def Grants (ueIps : UeIps) (version : IpVersion) (dnn : Option (List Char))
    (addr : Vector UInt32 4) (calloc : Bool) : Bool :=
  (ueIps.findSubnet version dnn).isSome ∧ (addr = Vector.replicate 4 0 ∨ calloc)

variable {dnn : Option (List Char)} {addr : Vector UInt32 4}

/-- What a call for an address of a version does. -/
theorem alloc_cases (cfg : N4Config) (calloc : Bool)
    (h : ∀ k, ueIps.findSubnet version dnn = some k →
      addr = Vector.replicate 4 0 → ueIps.family k ≠ afUnspec) :
    if Grants ueIps version dnn addr calloc then
      ∃ p ueIps', ueIps.alloc version dnn addr calloc = .ok (.ok p, ueIps') ∧
        ueIps'.addr cfg.slotAddr p = ueIps.nextAddr cfg.slotAddr version dnn addr
    else ∃ cause, ueIps.alloc version dnn addr calloc = .ok (.error cause, ueIps) ∧
      cause ≠ causeRequestAccepted := by
  unfold Grants UeIps.alloc UeIps.nextAddr
  cases hfind : ueIps.findSubnet version dnn with
  | none => exact ⟨_, rfl, by decide⟩
  | some k =>
    obtain ⟨hk, hserves, -⟩ := List.findIdx?_eq_some_iff_getElem.mp hfind
    by_cases haddr : addr = Vector.replicate 4 0
    · have hfree : (ueIps.pool k).free ≠ [] := by
        simp only [Subnet.serves, decide_eq_true_eq] at hserves
        simpa [UeIps.pool, List.getElem?_eq_getElem hk] using hserves.2.2
      obtain ⟨i, free, hcons⟩ := List.exists_cons_of_ne_nil hfree
      simp only [haddr, ne_eq, not_true, if_false, if_neg (h k hfind haddr), OgsPool.alloc, hcons]
      simp [UeIps.addr, hcons]
    · cases calloc with
      | true =>
        simp [haddr]
        exact (UeIps.cells_setCell ..).trans (if_pos rfl)
      | false =>
        simp [haddr]
        decide

theorem setOwn_none (hown : own version sess = none) : setOwn own version sess none = own := by
  funext version' sess'
  rw [setOwn_apply]
  split
  · next heq => rw [heq.1, heq.2, hown]
  · rfl

/-- A session that owns no address of a version takes one, or none. -/
theorem Owned.take (h : Owned cfg own ctx) (hown : own version sess = none) (calloc : Bool)
    (htakable : Takable cfg ctx.ueIps (own version) version dnn addr) :
    ∃ cause q ctx', ctx.takeUeIp cfg sess version dnn addr calloc = .ok (cause, ctx') ∧
      Owned cfg (setOwn own version sess q) ctx' ∧ SameSessions ctx ctx' ∧
      (∀ n version', (ctx'.sess n).ueIp version' =
        if version' = version ∧ n = sess then q else (ctx.sess n).ueIp version') ∧
      (cause = causeRequestAccepted ↔ Grants ctx.ueIps version dnn addr calloc) ∧
      (∃ result, ctx.ueIps.alloc version dnn addr calloc = .ok (result, ctx'.ueIps)) ∧
      ∀ n version' q, own version' n = some q →
        ctx'.ueIps.addr cfg.slotAddr q = ctx.ueIps.addr cfg.slotAddr q := by
  have hcases := alloc_cases cfg calloc htakable.setUp
  split at hcases
  · next hgrants =>
    obtain ⟨p, ueIps, halloc, haddr⟩ := hcases
    obtain ⟨hhold, hsome, hother⟩ := h.hold.alloc cfg.slotAddr halloc sess
    obtain ⟨words, hwords⟩ := Option.isSome_iff_exists.mp hsome
    let ctx₁ : N4Context :=
      { ctx with ueIps, held := (sess, version, p) :: ctx.held }.setUeIpPtr sess version (some p)
    have hmemory (version' : IpVersion) (n : Nat) (q : UeIpPtr)
        (hq : own version' n = some q) : ctx₁.ueIpMem cfg q = ctx.ueIpMem cfg q := by
      have haddr' := (hother q (h.mem_held hq)).2
      exact congrArg (fun addr => (Option.map N4Context.addrMem addr).getD []) haddr'
    have hindex (version' : IpVersion) :
        (ctx₁.ipHash version').Indexed (ctx₁.ueIpMem cfg) version'.klen (own version') :=
      (h.index version').congr (hmemory version')
    have hmem : ctx₁.ueIpMem cfg p = N4Context.addrMem words :=
      congrArg (fun addr => (Option.map N4Context.addrMem addr).getD []) hwords
    have hfresh : ((ctx₁.ipHash version).findEntry (ctx₁.ueIpMem cfg)
        (OgsHash.keyAt (ctx₁.ueIpMem cfg) version.klen p)).map HashEntry.val = none := by
      cases hfind : ((ctx₁.ipHash version).findEntry (ctx₁.ueIpMem cfg)
        (OgsHash.keyAt (ctx₁.ueIpMem cfg) version.klen p)).map HashEntry.val with
      | none => rfl
      | some n =>
        obtain ⟨q, hq, hkey⟩ := (hindex version).owner_of_find hfind
        obtain ⟨addr', haddr'⟩ := Option.isSome_iff_exists.mp (h.addr_isSome hq)
        refine absurd ?_ (htakable.fresh words (haddr ▸ hwords) n q addr' hq haddr')
        rw [OgsHash.keyAt, OgsHash.keyAt, hmem, hmemory version n q hq, N4Context.ueIpMem,
          haddr'] at hkey
        exact hkey
    have hsize : version.klen ≤ (ctx₁.ueIpMem cfg p).length := by
      rw [hmem, length_addrMem]
      exact klen_le version
    obtain ⟨ht, hset, hht⟩ :=
      (hindex version).set_some (klen_pos version) hsize hown hfresh
    refine ⟨causeRequestAccepted, some p, ctx₁.setIpHash version ht, ?_, ⟨hhold, ?_, ?_, h.once⟩,
      ?_, ?_, iff_of_true rfl hgrants, ⟨_, halloc⟩, fun n version' q hq => ?_⟩
    · rw [N4Context.takeUeIp, halloc]
      change (do
        let ht ← (ctx₁.ipHash version).set (ctx₁.ueIpMem cfg) p version.klen (some sess)
        return _) = _
      rw [hset]
      rfl
    · exact record_cons h.record hown
    · exact indexed_setIpHash hindex hht
    · exact ⟨rfl, rfl, rfl, rfl, rfl, rfl, (SameSessions.setUeIpPtr ctx sess version (some p)).sess⟩
    · intro n version'
      exact N4Context.ueIp_setUeIpPtr ..
    · exact (hother q (h.mem_held hq)).2
  · next hgrants =>
    obtain ⟨cause, halloc, hcause⟩ := hcases
    refine ⟨cause, none, ({ ctx with ueIps := ctx.ueIps } : N4Context).setUeIpPtr sess version none,
      ?_, ?_, .setUeIpPtr .., fun n version' => N4Context.ueIp_setUeIpPtr .., ?_, ⟨_, halloc⟩,
      fun _ _ _ _ => rfl⟩
    · rw [N4Context.takeUeIp, halloc]
      rfl
    · rw [setOwn_none hown]
      exact ⟨h.hold, h.record, h.index, h.once⟩
    · exact iff_of_false hcause hgrants

/-! ## Calls -/

/-- An address of one version leaves what a call for the other needs. -/
theorem Takable.alloc {ueIps' : UeIps} {other : Nat → Option UeIpPtr} {dnn' : Option (List Char)}
    {addr' : Vector UInt32 4} {calloc : Bool} {result : Except UInt8 UeIpPtr}
    (h : Takable cfg ueIps other version' dnn' addr')
    (halloc : ueIps.alloc version dnn addr calloc = .ok (result, ueIps')) (hne : version' ≠ version)
    (haddr : ∀ n q, other n = some q → ueIps'.addr cfg.slotAddr q = ueIps.addr cfg.slotAddr q) :
    Takable cfg ueIps' other version' dnn' addr' := by
  obtain ⟨hfind, hsubnet⟩ := alloc_other dnn' halloc hne
  constructor
  · intro k hk hzero
    rw [(hsubnet k hk).1]
    exact h.setUp k (hfind ▸ hk) hzero
  · intro words hwords n q addr'' hq hold
    apply h.fresh words ?_ n q addr'' hq (haddr n q hq ▸ hold)
    rw [UeIps.nextAddr] at hwords ⊢
    cases hk : ueIps'.findSubnet version' dnn' with
    | none =>
      rw [hk] at hwords
      cases hwords
    | some k =>
      rw [hk, Option.bind_some, (hsubnet k hk).2] at hwords
      rw [← hfind, hk]
      exact hwords

/-- The addresses once those of a session are given back. -/
def N4Context.freed (ctx : N4Context) (sess : Nat) : UeIps :=
  (ctx.ueIps.giveBack ((ctx.sess sess).ueIp .v4)).giveBack ((ctx.sess sess).ueIp .v6)

/-- The call assigns the pointer of a version. For both versions, it assigns that of
IPv6 only if it gets the IPv4 address that it wants. -/
def UeIpCall.Assigns (call : UeIpCall) (ueIps : UeIps) (version : IpVersion) : Prop :=
  call.wants version = true ∧
    (version = .v6 → call.wants .v4 = true → Grants ueIps .v4 call.dnn (call.addr .v4) (call.calloc .v4))

/-- The pointers of the other sessions. -/
def N4Context.others (ctx : N4Context) (sess : Nat) (version : IpVersion) (n : Nat) :
    Option UeIpPtr :=
  if n ∈ ctx.sessList ∧ n ≠ sess then (ctx.sess n).ueIp version else none

/-- A call assigns every pointer that it frees, and takes only addresses that are set up
and that no other session has. -/
structure UeIpCall.Sound (cfg : N4Config) (ctx : N4Context) (sess : Nat) (call : UeIpCall) :
    Prop where
  assigns : ∀ version, (ctx.sess sess).ueIp version ≠ none → call.Assigns (ctx.freed sess) version
  takable : ∀ version, call.Assigns (ctx.freed sess) version →
    Takable cfg (ctx.freed sess) (ctx.others sess version) version call.dnn (call.addr version)

/-- The pointers of the sessions in the list. -/
def N4Context.pointers (ctx : N4Context) (version : IpVersion) (n : Nat) : Option UeIpPtr :=
  if n ∈ ctx.sessList then (ctx.sess n).ueIp version else none

variable {call : UeIpCall}

/-- A session gets the address of a version if the call wants it. Else its pointer has to
be null. -/
theorem Owned.assign (h : Owned cfg own ctx) (hown : own version sess = none)
    (hnull : call.wants version = false → (ctx.sess sess).ueIp version = none)
    (htakable : call.wants version = true →
      Takable cfg ctx.ueIps (own version) version call.dnn (call.addr version)) :
    ∃ cause q ctx', ctx.assignUeIp cfg sess call version = .ok (cause, ctx') ∧
      Owned cfg (setOwn own version sess q) ctx' ∧ SameSessions ctx ctx' ∧
      (∀ n version', (ctx'.sess n).ueIp version' =
        if version' = version ∧ n = sess then q else (ctx.sess n).ueIp version') ∧
      (cause = causeRequestAccepted ↔ (call.wants version = true →
        Grants ctx.ueIps version call.dnn (call.addr version) (call.calloc version))) ∧
      ∀ version' other dnn addr, version' ≠ version →
        (∀ n q, other n = some q → own version' n = some q) →
        Takable cfg ctx.ueIps other version' dnn addr →
        Takable cfg ctx'.ueIps other version' dnn addr := by
  unfold N4Context.assignUeIp
  cases hwants : call.wants version with
  | true =>
    obtain ⟨cause, q, ctx', htake, howned, hsame, hptr, hcause, ⟨result, halloc⟩, haddr⟩ :=
      h.take hown (call.calloc version) (htakable hwants)
    refine ⟨cause, q, ctx', htake, howned, hsame, hptr, by simpa using hcause, ?_⟩
    intro version' other dnn addr hne hother htak
    exact htak.alloc halloc hne fun n q hq => haddr n version' q (hother n q hq)
  | false =>
    refine ⟨causeRequestAccepted, none, ctx, rfl, ?_, .refl ctx, ?_, by simp, ?_⟩
    · rw [setOwn_none hown]
      exact h
    · intro n version'
      split
      · next heq => rw [heq.1, heq.2, hnull hwants]
      · rfl
    · exact fun version' other dnn addr _ _ htak => htak

/-- Both addresses of a session are given back. The pointers stay. -/
theorem Owned.dropUeIps (h : Owned cfg own ctx)
    (hptr : ∀ version, (ctx.sess sess).ueIp version = own version sess) :
    ∃ ctx', ctx.dropUeIps cfg sess = .ok ctx' ∧
      Owned cfg (fun version n => if n = sess then none else own version n) ctx' ∧
      SameSessions ctx ctx' ∧ ctx'.sess = ctx.sess ∧ ctx'.ueIps = ctx.freed sess := by
  obtain ⟨ctx₁, hdrop₁, howned₁, hsame₁, hsess₁, hueIps₁⟩ := h.drop (hptr .v4)
  have hptr₁ : (ctx₁.sess sess).ueIp .v6 = setOwn own .v4 sess none .v6 sess := by
    rw [hsess₁, setOwn_apply, if_neg (by simp)]
    exact hptr .v6
  obtain ⟨ctx₂, hdrop₂, howned₂, hsame₂, hsess₂, hueIps₂⟩ := howned₁.drop hptr₁
  refine ⟨ctx₂, ?_, ?_, hsame₁.trans hsame₂, hsess₂.trans hsess₁, ?_⟩
  · rw [N4Context.dropUeIps, hdrop₁]
    exact hdrop₂
  · have hown : setOwn (setOwn own .v4 sess none) .v6 sess none =
        fun version n => if n = sess then none else own version n := by
      funext version n
      rw [setOwn_apply, setOwn_apply]
      cases version <;> by_cases hn : n = sess <;> simp [hn]
    rwa [hown] at howned₂
  · rw [hueIps₂, hueIps₁, ← hptr₁, hsess₁, ← hptr]
    rfl

/-- Where the pointers of a session are what it owns, and those of the others are as they
were, each session owns what its pointers say. -/
theorem Owned.settle (h : Owned cfg own ctx') (hsame : SameSessions ctx ctx')
    (hsess : sess ∈ ctx.sessList) (hself : ∀ version, (ctx'.sess sess).ueIp version = own version sess)
    (hothers : ∀ version n, n ≠ sess →
      (ctx'.sess n).ueIp version = (ctx.sess n).ueIp version ∧
        own version n = ctx.others sess version n) : Owned cfg ctx'.pointers ctx' := by
  have hown : ctx'.pointers = own := by
    funext version n
    rw [N4Context.pointers, hsame.sessList]
    by_cases hn : n = sess
    · subst hn
      rw [if_pos hsess, hself]
    · obtain ⟨hptr, heq⟩ := hothers version n hn
      rw [hptr, heq, N4Context.others]
      simp [hn]
  rwa [hown]

/-- The state of a call once the addresses of the session are given back. -/
structure Dropped (cfg : N4Config) (ctx : N4Context) (sess : Nat) (call : UeIpCall)
    (ctx₀ : N4Context) : Prop where
  owned : Owned cfg (ctx.others sess) ctx₀
  same : SameSessions ctx ctx₀
  memory : ctx₀.sess = ctx.sess
  ueIps : ctx₀.ueIps = ctx.freed sess
  inList : sess ∈ ctx.sessList
  sound : call.Sound cfg ctx sess

section Dropped

variable {ctx₀ : N4Context}

theorem Dropped.others_self (_ : Dropped cfg ctx sess call ctx₀) (version : IpVersion) :
    ctx.others sess version sess = none := if_neg (by simp)

/-- A pointer that is not assigned is null. -/
theorem Dropped.null (h : Dropped cfg ctx sess call ctx₀)
    (hnot : ¬ call.Assigns (ctx.freed sess) version) : (ctx₀.sess sess).ueIp version = none := by
  by_contra hne
  rw [h.memory] at hne
  exact hnot (h.sound.assigns version hne)

theorem Dropped.takable (h : Dropped cfg ctx sess call ctx₀)
    (hassigns : call.Assigns (ctx.freed sess) version) :
    Takable cfg ctx₀.ueIps (ctx.others sess version) version call.dnn (call.addr version) := by
  rw [h.ueIps]
  exact h.sound.takable version hassigns

/-- A pointer that the call does not want is null. -/
theorem Dropped.null_of_wants (h : Dropped cfg ctx sess call ctx₀)
    (hwants : call.wants version = false) : (ctx₀.sess sess).ueIp version = none := by
  apply h.null
  rintro ⟨hwants', -⟩
  cases hwants.symm.trans hwants'

/-- A call for one version. -/
theorem Dropped.assignOne (h : Dropped cfg ctx sess call ctx₀)
    (hassigns : call.wants version = true → call.Assigns (ctx.freed sess) version)
    (hother : ∀ version', version' ≠ version → call.wants version' = false) :
    ∃ cause ctx', ctx₀.assignUeIp cfg sess call version = .ok (cause, ctx') ∧
      Owned cfg ctx'.pointers ctx' ∧ SameSessions ctx ctx' := by
  obtain ⟨cause, q, ctx', hassign, howned, hsame, hptr, -, -⟩ :=
    h.owned.assign (h.others_self version) h.null_of_wants
      fun hwants => h.takable (hassigns hwants)
  refine ⟨cause, ctx', hassign, ?_, h.same.trans hsame⟩
  apply howned.settle (h.same.trans hsame) h.inList
  · intro version'
    rw [hptr, setOwn_apply]
    by_cases hversion : version' = version
    · rw [if_pos ⟨hversion, rfl⟩, if_pos ⟨hversion, rfl⟩]
    · rw [if_neg fun hand => hversion hand.1, if_neg fun hand => hversion hand.1,
        h.null_of_wants (hother version' hversion), h.others_self]
  · intro version' n hn
    rw [hptr, setOwn_apply, h.memory, if_neg fun hand => hn hand.2, if_neg fun hand => hn hand.2]
    exact ⟨rfl, rfl⟩

/-- A call for both versions. -/
theorem Dropped.assignTwo (h : Dropped cfg ctx sess call ctx₀)
    (htype : call.sessionType = pduSessionTypeIpv4v6) :
    ∃ cause ctx', ctx₀.assignUeIps cfg sess call = .ok (cause, ctx') ∧
      Owned cfg ctx'.pointers ctx' ∧ SameSessions ctx ctx' := by
  obtain ⟨cause₁, q₁, ctx₁, hassign₁, howned₁, hsame₁, hptr₁, hcause₁, htak₁⟩ :=
    h.owned.assign (h.others_self .v4) h.null_of_wants
      fun hwants => h.takable ⟨hwants, fun hversion => by cases hversion⟩
  have hrun : ctx₀.assignUeIps cfg sess call = if cause₁ ≠ causeRequestAccepted then
      .ok (cause₁, ctx₁) else do
        let assigned ← ctx₁.assignUeIp cfg sess call .v6
        if assigned.1 ≠ causeRequestAccepted then
          return (assigned.1, (← assigned.2.dropUeIp cfg sess .v4).setUeIpPtr sess .v4 none)
        else return assigned := by
    rw [N4Context.assignUeIps, if_neg (by rw [htype]; decide), if_neg (by rw [htype]; decide),
      if_pos htype, hassign₁]
    rfl
  have hnot (version : IpVersion) {n : Nat} (hn : n ≠ sess) (version' : IpVersion) :
      ¬ (version' = version ∧ n = sess) := fun hand => hn hand.2
  have hown6 : setOwn (ctx.others sess) .v4 sess q₁ .v6 = ctx.others sess .v6 := by
    funext n
    rw [setOwn_apply, if_neg (by simp)]
  have hptr6 : (ctx₁.sess sess).ueIp .v6 = (ctx₀.sess sess).ueIp .v6 := by
    rw [hptr₁, if_neg (by simp)]
  rw [hrun]
  by_cases haccepted : cause₁ = causeRequestAccepted
  · have hassigns6 (hwants : call.wants .v6 = true) : call.Assigns (ctx.freed sess) .v6 :=
      ⟨hwants, fun _ hwants4 => h.ueIps ▸ hcause₁.mp haccepted hwants4⟩
    have htakable6 (hwants : call.wants .v6 = true) : Takable cfg ctx₁.ueIps
        (setOwn (ctx.others sess) .v4 sess q₁ .v6) .v6 call.dnn (call.addr .v6) := by
      rw [hown6]
      exact htak₁ .v6 _ _ _ (by decide) (fun _ _ => id) (h.takable (hassigns6 hwants))
    obtain ⟨cause₂, q₂, ctx₂, hassign₂, howned₂, hsame₂, hptr₂, -, -⟩ :=
      howned₁.assign ((congrFun hown6 sess).trans (h.others_self .v6))
        (fun hwants => hptr6.trans (h.null_of_wants hwants)) htakable6
    have hself (version : IpVersion) : (ctx₂.sess sess).ueIp version =
        setOwn (setOwn (ctx.others sess) .v4 sess q₁) .v6 sess q₂ version sess := by
      rw [hptr₂, hptr₁, setOwn_apply, setOwn_apply]
      cases version <;> simp
    have hsame := (h.same.trans hsame₁).trans hsame₂
    rw [if_neg (not_not.mpr haccepted), hassign₂]
    simp only [Fallible.ok_bind]
    by_cases haccepted₂ : cause₂ = causeRequestAccepted
    · rw [if_neg (not_not.mpr haccepted₂)]
      refine ⟨cause₂, ctx₂, rfl, howned₂.settle hsame h.inList hself fun version n hn => ?_, hsame⟩
      rw [hptr₂, hptr₁, h.memory, setOwn_apply, setOwn_apply, if_neg (hnot _ hn _),
        if_neg (hnot _ hn _), if_neg (hnot _ hn _), if_neg (hnot _ hn _)]
      exact ⟨rfl, rfl⟩
    · rw [if_pos haccepted₂]
      obtain ⟨ctx₃, hdrop, howned₃, hsame₃, hsess₃, -⟩ := howned₂.drop (hself .v4)
      rw [hdrop]
      have hsame' := hsame.trans (hsame₃.trans (.setUeIpPtr ctx₃ sess .v4 none))
      refine ⟨cause₂, ctx₃.setUeIpPtr sess .v4 none, rfl, ?_, hsame'⟩
      have howned : Owned cfg (setOwn (setOwn (setOwn (ctx.others sess) .v4 sess q₁) .v6 sess q₂)
          .v4 sess none) (ctx₃.setUeIpPtr sess .v4 none) :=
        ⟨howned₃.hold, howned₃.record, howned₃.index, howned₃.once⟩
      apply howned.settle hsame' h.inList
      · intro version
        rw [N4Context.ueIp_setUeIpPtr, setOwn_apply, hsess₃]
        split
        · rfl
        · exact hself version
      · intro version n hn
        rw [N4Context.ueIp_setUeIpPtr, hsess₃, hptr₂, hptr₁, h.memory, setOwn_apply, setOwn_apply,
          setOwn_apply, if_neg (hnot _ hn _), if_neg (hnot _ hn _), if_neg (hnot _ hn _),
          if_neg (hnot _ hn _), if_neg (hnot _ hn _), if_neg (hnot _ hn _)]
        exact ⟨rfl, rfl⟩
  · rw [if_pos haccepted]
    refine ⟨cause₁, ctx₁, rfl, ?_, h.same.trans hsame₁⟩
    apply howned₁.settle (h.same.trans hsame₁) h.inList
    · intro version
      rw [setOwn_apply, hptr₁]
      cases version with
      | v4 => rw [if_pos ⟨rfl, rfl⟩, if_pos ⟨rfl, rfl⟩]
      | v6 =>
        have hnot6 : ¬ call.Assigns (ctx.freed sess) .v6 := by
          rintro ⟨-, hgrants⟩
          exact haccepted (hcause₁.mpr fun hwants => h.ueIps ▸ hgrants rfl hwants)
        rw [if_neg (by simp), if_neg (by simp), h.null hnot6, h.others_self]
    · intro version n hn
      rw [hptr₁, h.memory, setOwn_apply, if_neg (hnot _ hn _), if_neg (hnot _ hn _)]
      exact ⟨rfl, rfl⟩

end Dropped

/-- After a call that is sound, each session owns what its pointers say. -/
theorem Owned.setUeIp (h : Owned cfg ctx.pointers ctx) (hsess : sess ∈ ctx.sessList)
    (hsound : call.Sound cfg ctx sess) :
    ∃ cause ctx', ctx.upfSessSetUeIp cfg sess call = .ok (cause, ctx') ∧
      Owned cfg ctx'.pointers ctx' ∧ SameSessions ctx ctx' := by
  obtain ⟨ctx₀, hdrop, howned, hsame₀, hsess₀, hueIps⟩ :=
    h.dropUeIps fun version => (if_pos hsess : ctx.pointers version sess = _).symm
  have hothers : (fun version n => if n = sess then none else ctx.pointers version n) =
      ctx.others sess := by
    funext version n
    by_cases hn : n = sess <;> simp [N4Context.others, N4Context.pointers, hn]
  rw [hothers] at howned
  have hdropped : Dropped cfg ctx sess call ctx₀ :=
    ⟨howned, hsame₀, hsess₀, hueIps, hsess, hsound⟩
  rw [N4Context.upfSessSetUeIp, hdrop]
  simp only [Fallible.ok_bind]
  by_cases htype4 : call.sessionType = pduSessionTypeIpv4
  · have hrun : ctx₀.assignUeIps cfg sess call = ctx₀.assignUeIp cfg sess call .v4 := by
      rw [N4Context.assignUeIps, if_pos htype4]
    rw [hrun]
    apply hdropped.assignOne
    · exact fun hwants => ⟨hwants, fun hversion => by cases hversion⟩
    · rintro (_ | _) hversion
      · exact absurd rfl hversion
      · simp [UeIpCall.wants, htype4, pduSessionTypeIpv4, pduSessionTypeIpv6, pduSessionTypeIpv4v6]
  by_cases htype6 : call.sessionType = pduSessionTypeIpv6
  · have hrun : ctx₀.assignUeIps cfg sess call = ctx₀.assignUeIp cfg sess call .v6 := by
      rw [N4Context.assignUeIps, if_neg htype4, if_pos htype6]
    have hwants4 : call.wants .v4 = false := by
      simp [UeIpCall.wants, htype6, pduSessionTypeIpv4, pduSessionTypeIpv6, pduSessionTypeIpv4v6]
    rw [hrun]
    apply hdropped.assignOne
    · intro hwants
      refine ⟨hwants, fun _ hwants' => ?_⟩
      cases hwants4.symm.trans hwants'
    · rintro (_ | _) hversion
      · exact hwants4
      · exact absurd rfl hversion
  by_cases htype46 : call.sessionType = pduSessionTypeIpv4v6
  · exact hdropped.assignTwo htype46
  -- no pointer is assigned
  have hwants (version : IpVersion) : call.wants version = false := by
    cases version <;> simp [UeIpCall.wants, htype4, htype6, htype46]
  refine ⟨causeServiceNotSupported, ctx₀, ?_, ?_, hsame₀⟩
  · rw [N4Context.assignUeIps, if_neg htype4, if_neg htype6, if_neg htype46]
    rfl
  · apply howned.settle hsame₀ hsess
    · intro version
      rw [hdropped.null_of_wants (hwants version), hdropped.others_self]
    · intro version n hn
      rw [hsess₀]
      exact ⟨rfl, rfl⟩

end Quicup.Open5gs
