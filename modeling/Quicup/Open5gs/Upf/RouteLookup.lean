import Quicup.Open5gs.Upf.RouteSlots
import Mathlib.Data.Fintype.Basic

/-!
# The framed route of an address

A route is added to a trie for a session and cleared without regard to who owns it. The
lookup of an address is exact as long as no prefix that another owner has is cleared.
-/

namespace Quicup.Open5gs

open BitTrie Function

variable {σ : Type} [DecidableEq σ] {sess : σ} {trie : BitTrie σ} {bits : List (Bool × Bool)}
  {tries : RouteTries σ} {route : IpSubnet} {routes : List IpSubnet} {bit : Bool} {value : Option σ}

/-! ## The loops on a trie -/

/-- The path of a route, which ends in front of the first bit that is not in the mask. -/
def pathOf (bits : List (Bool × Bool)) : List Bool := (bits.takeWhile Prod.fst).map Prod.snd

@[simp] theorem pathOf_cons_true : pathOf ((true, bit) :: bits) = bit :: pathOf bits :=
  rfl

@[simp] theorem pathOf_cons_false : pathOf ((false, bit) :: bits) = [] := rfl

omit [DecidableEq σ] in
/-- Adding a route puts the session at the end of its path. -/
theorem addFramedRoute_eq_insert : addFramedRoute sess bits trie = trie.insert sess (pathOf bits) := by
  induction bits generalizing trie with
  | nil => cases trie <;> rfl
  | cons head bits ih =>
    obtain ⟨_ | _, bit⟩ := head
    · cases trie <;> rfl
    · cases trie <;> cases bit <;> simp [addFramedRoute, BitTrie.insert, child, BitTrie.get, ih]

/-- The walk takes a step unless there is no node. -/
theorem lt_freeWalk_i (i freeFrom : Nat) (htrie : trie ≠ nil) :
    i < (freeWalk bits i freeFrom trie).i := by
  induction bits generalizing trie i freeFrom with
  | nil =>
    cases trie with
    | nil => exact absurd rfl htrie
    | node left value right => exact Nat.lt_succ_self i
  | cons head bits ih =>
    cases trie with
    | nil => exact absurd rfl htrie
    | node left value right =>
      have hchild (freeFrom : Nat) (child : BitTrie σ) :
          i < (freeWalk bits (i + 1) freeFrom child).i := by
        by_cases hnil : child = nil
        · subst hnil
          cases bits <;> exact Nat.lt_succ_self i
        · exact (Nat.lt_succ_self i).trans (ih (i + 1) freeFrom hnil)
      obtain ⟨_ | _, _ | _⟩ := head
      · exact Nat.lt_succ_self i
      · exact Nat.lt_succ_self i
      · exact hchild _ left
      · exact hchild _ right

/-- What a walk from a depth leaves of a trie that clearing the route should lead to: all
of it was of no use, or it is what cutting at the depth found below leaves. -/
def FreeWalk.Leaves (walk : FreeWalk σ) (i freeFrom : Nat) (bits : List (Bool × Bool))
    (cleared : BitTrie σ) : Prop :=
  walk.freeFrom = freeFrom ∧ cleared = nil ∨
    i < walk.freeFrom ∧ cleared ≠ nil ∧
      (if walk.freeFrom < walk.i then cutTrie (walk.freeFrom - i) bits walk.trie
        else walk.trie) = cleared

/-- A walk through a child, with the node that the child hangs from. -/
theorem FreeWalk.Leaves.step {walk : FreeWalk σ} {i freeFrom : Nat} {cleared : BitTrie σ}
    (head : Bool × Bool) (inUse : Prop) [Decidable inUse] (hang : BitTrie σ → BitTrie σ)
    (h : walk.Leaves (i + 1) (if inUse then i + 1 else freeFrom) bits cleared)
    (hwalk : i + 1 < walk.i ∨ walk.trie = nil) (hhang : ∀ t, hang t ≠ nil)
    (hcut : ∀ d t, cutTrie (d + 1) (head :: bits) (hang t) = hang (cutTrie d bits t)) :
    ({ walk with trie := hang walk.trie } : FreeWalk σ).Leaves i freeFrom (head :: bits)
      (if cleared = nil ∧ ¬ inUse then nil else hang cleared) := by
  rcases h with ⟨hfree, rfl⟩ | ⟨hlt, hne, heq⟩
  · by_cases huse : inUse
    · rw [if_pos huse] at hfree
      rw [if_neg fun hand => hand.2 huse]
      refine .inr ⟨?_, hhang nil, ?_⟩
      · exact hfree ▸ Nat.lt_succ_self i
      · have hdepth : walk.freeFrom - i = 0 + 1 := by omega
        dsimp only
        rw [hdepth, hcut]
        split
        · cases bits <;> rfl
        · next hge => rw [hwalk.resolve_left (hfree ▸ hge)]
    · rw [if_neg huse] at hfree
      rw [if_pos ⟨rfl, huse⟩]
      exact .inl ⟨hfree, rfl⟩
  · rw [if_neg fun hand => hne hand.1]
    refine .inr ⟨by dsimp only; omega, hhang cleared, ?_⟩
    have hdepth : walk.freeFrom - i = walk.freeFrom - (i + 1) + 1 := by omega
    dsimp only
    rw [hdepth, hcut, ← heq, apply_ite hang]

theorem prune_eq_ite {left right : BitTrie σ} :
    prune left value right =
      if left = nil ∧ value = none ∧ right = nil then nil else node left value right := by
  cases left <;> cases value <;> cases right <;> simp [prune]

/-- The end of the walk at the node of the route. -/
theorem leaves_end (i freeFrom : Nat) (left right : BitTrie σ) (bits : List (Bool × Bool)) :
    (⟨node left none right, i + 1, if left ≠ nil ∨ right ≠ nil then i + 1 else freeFrom⟩ :
      FreeWalk σ).Leaves i freeFrom bits (prune left none right) := by
  rw [prune_eq_ite]
  by_cases huse : left ≠ nil ∨ right ≠ nil
  · rw [if_pos huse, if_neg fun hnil => by simp_all]
    refine .inr ⟨Nat.lt_succ_self i, nofun, ?_⟩
    rw [if_neg (Nat.lt_irrefl (i + 1))]
  · rw [if_neg huse]
    left
    simpa [not_or] using huse

theorem freeWalk_leaves (i freeFrom : Nat) :
    (freeWalk bits i freeFrom trie).Leaves i freeFrom bits (trie.erase (pathOf bits)) := by
  induction bits generalizing trie i freeFrom with
  | nil =>
    cases trie with
    | nil => exact .inl ⟨rfl, rfl⟩
    | node left value right => exact leaves_end i freeFrom left right []
  | cons head bits ih =>
    cases trie with
    | nil => exact .inl ⟨rfl, by simp [erase]⟩
    | node left value right =>
      have hwalk (freeFrom : Nat) (trie : BitTrie σ) :
          i + 1 < (freeWalk bits (i + 1) freeFrom trie).i ∨
            (freeWalk bits (i + 1) freeFrom trie).trie = nil := by
        cases trie with
        | nil => right; cases bits <;> rfl
        | node left value right => exact .inl (lt_freeWalk_i (i + 1) freeFrom (node_ne_nil left value right))
      obtain ⟨_ | _, _ | _⟩ := head
      · exact leaves_end i freeFrom left right _
      · exact leaves_end i freeFrom left right _
      · have hstep := FreeWalk.Leaves.step (true, false) (right ≠ nil ∨ value.isSome)
          (fun t => node t value right) (ih (i + 1) (if _ then i + 1 else freeFrom))
          (hwalk _ left) (fun t => node_ne_nil t value right) fun _ _ => rfl
        have herase : (node left value right).erase (false :: pathOf bits) =
            if left.erase (pathOf bits) = nil ∧ ¬ (right ≠ nil ∨ value.isSome) then nil
            else node (left.erase (pathOf bits)) value right := by
          rw [erase, if_neg Bool.false_ne_true, prune_eq_ite]
          cases value <;> simp
        rw [pathOf_cons_true, herase]
        exact hstep
      · have hstep := FreeWalk.Leaves.step (true, true) (left ≠ nil ∨ value.isSome)
          (fun t => node left value t) (ih (i + 1) (if _ then i + 1 else freeFrom))
          (hwalk _ right) (fun t => node_ne_nil left value t) fun _ _ => rfl
        have herase : (node left value right).erase (true :: pathOf bits) =
            if right.erase (pathOf bits) = nil ∧ ¬ (left ≠ nil ∨ value.isSome) then nil
            else node left value (right.erase (pathOf bits)) := by
          rw [erase, if_pos rfl, prune_eq_ite]
          cases value <;> simp [and_comm]
        rw [pathOf_cons_true, herase]
        exact hstep

/-- Clearing a route removes the value at the end of its path. -/
theorem free_eq_erase : (freeWalk bits 0 0 trie).free bits = trie.erase (pathOf bits) := by
  rw [FreeWalk.free]
  have hleaves : (freeWalk bits 0 0 trie).Leaves 0 0 bits (trie.erase (pathOf bits)) :=
    freeWalk_leaves 0 0
  rcases hleaves with ⟨hfree, hnil⟩ | ⟨-, -, heq⟩
  · rw [hfree, hnil]
    split
    · rw [cutTrie.eq_def]
    · next hstop =>
      cases trie with
      | nil => cases bits <;> rfl
      | node left value right =>
        exact absurd (lt_freeWalk_i 0 0 (node_ne_nil left value right)) hstop
  · exact heq

/-! ## The tries as a map -/

/-- What a route is added under: its trie and its path. -/
def IpSubnet.key (route : IpSubnet) : Bool × List Bool :=
  (route.family = afInet, pathOf route.bits)

/-- The session under a key. -/
def RouteTries.lookup (tries : RouteTries σ) (key : Bool × List Bool) : Option σ :=
  (if key.1 then tries.ipv4FramedRoutes else tries.ipv6FramedRoutes).get key.2

omit [DecidableEq σ] in
theorem lookup_setTrie {key : Bool × List Bool} (htrie : ∀ path, trie.get path =
      if path = pathOf route.bits then value else (tries.trie route.family).get path) :
    (tries.setTrie route.family trie).lookup key =
      if key = route.key then value else tries.lookup key := by
  obtain ⟨isIpv4, path⟩ := key
  by_cases hfamily : route.family = afInet <;> cases isIpv4 <;>
    simp_all [RouteTries.lookup, RouteTries.setTrie, RouteTries.trie, IpSubnet.key]

omit [DecidableEq σ] in
theorem lookup_add {key : Bool × List Bool} :
    (addFramedRouteToTrie tries route sess).lookup key =
      if key = route.key then some sess else tries.lookup key := by
  apply lookup_setTrie
  intro path
  rw [addFramedRoute_eq_insert, get_insert]

theorem lookup_free {key : Bool × List Bool} :
    (freeFramedRouteFromTrie tries route).lookup key =
      if key = route.key then none else tries.lookup key := by
  apply lookup_setTrie
  intro path
  rw [free_eq_erase, get_erase]

omit [DecidableEq σ] in
theorem lookup_foldl_add {key : Bool × List Bool} :
    (routes.foldl (fun tries route => addFramedRouteToTrie tries route sess) tries).lookup key =
      if key ∈ routes.map IpSubnet.key then some sess else tries.lookup key := by
  induction routes generalizing tries with
  | nil => rfl
  | cons route routes ih =>
    rw [List.foldl_cons, ih, lookup_add, List.map_cons]
    by_cases hmem : key ∈ routes.map IpSubnet.key <;> by_cases hkey : key = route.key <;>
      simp [hmem, hkey]

theorem lookup_foldl_free {key : Bool × List Bool} :
    (routes.foldl freeFramedRouteFromTrie tries).lookup key =
      if key ∈ routes.map IpSubnet.key then none else tries.lookup key := by
  induction routes generalizing tries with
  | nil => rfl
  | cons route routes ih =>
    rw [List.foldl_cons, ih, lookup_free, List.map_cons]
    by_cases hmem : key ∈ routes.map IpSubnet.key <;> by_cases hkey : key = route.key <;>
      simp [hmem, hkey]

theorem IpSubnet.SameRoute.key {a b : IpSubnet} (h : a.SameRoute b) : a.key = b.key := by
  obtain ⟨family, mask, first, sub, -⟩ := h
  by_cases hfamily : a.family = afInet
  · simp only [IpSubnet.key, IpSubnet.bits, addrBits, ← family, hfamily, if_true, mask, first]
  · simp only [IpSubnet.key, IpSubnet.bits, ← family, mask, sub hfamily]

theorem map_key_eq {routes' : List IpSubnet} (h : List.Forall₂ IpSubnet.SameRoute routes routes') :
    routes.map IpSubnet.key = routes'.map IpSubnet.key := by
  induction h with
  | nil => rfl
  | cons hsame _ ih => rw [List.map_cons, List.map_cons, hsame.key, ih]

/-! ## Owners -/

/-- The keys of the routes that a session owns by its latest calls. -/
def RouteState.ipv4Keys (st : RouteState σ) (sess : σ) : List (Bool × List Bool) :=
  (callRoutes (st.latestIpv4 sess)).map IpSubnet.key

def RouteState.ipv6Keys (st : RouteState σ) (sess : σ) : List (Bool × List Bool) :=
  (callRoutes (st.latestIpv6 sess)).map IpSubnet.key

/-- Each key leads to one of the sessions that own it, and to none if there is none. -/
structure Exact (lookup : Bool × List Bool → Option σ) (owned : Bool × List Bool → σ → Prop) :
    Prop where
  some : ∀ key sess, lookup key = some sess → owned key sess
  none : ∀ key sess, lookup key = none → ¬ owned key sess

omit [DecidableEq σ] in
/-- A session replaces routes. Those that it frees may be its own only, or are added again. -/
theorem Exact.replace {lookup lookup' : Bool × List Bool → Option σ}
    {owned owned' : Bool × List Bool → σ → Prop} (sess : σ)
    (freed added kept : List (Bool × List Bool)) (h : Exact lookup owned)
    (hlookup : ∀ key, lookup' key =
      if key ∈ added then .some sess else if key ∈ freed then .none else lookup key)
    (hother : ∀ key other, other ≠ sess → (owned' key other ↔ owned key other))
    (hself : ∀ key, owned' key sess ↔ key ∈ added ∨ key ∈ kept)
    (hwas : ∀ key, owned key sess → key ∈ kept ∨ key ∈ freed)
    (hkept : ∀ key ∈ kept, owned key sess)
    (hshared : ∀ key ∈ freed, key ∈ kept ∨ (∃ other, other ≠ sess ∧ owned key other) →
      key ∈ added) : Exact lookup' owned' where
  some key other hsome := by
    rw [hlookup] at hsome
    by_cases hadded : key ∈ added
    · rw [if_pos hadded] at hsome
      obtain rfl := Option.some.inj hsome
      exact (hself key).mpr (.inl hadded)
    · rw [if_neg hadded] at hsome
      by_cases hfreed : key ∈ freed
      · rw [if_pos hfreed] at hsome
        cases hsome
      · rw [if_neg hfreed] at hsome
        have howned := h.some key other hsome
        by_cases hsess : other = sess
        · subst hsess
          exact (hself key).mpr (.inr ((hwas key howned).resolve_right hfreed))
        · exact (hother key other hsess).mpr howned
  none key other hnone howned := by
    rw [hlookup] at hnone
    have hadded : key ∉ added := by
      intro hadded
      rw [if_pos hadded] at hnone
      cases hnone
    have hbefore : owned key other := by
      by_cases hsess : other = sess
      · subst hsess
        exact hkept key (((hself key).mp howned).resolve_left hadded)
      · exact (hother key other hsess).mp howned
    rw [if_neg hadded] at hnone
    by_cases hfreed : key ∈ freed
    · apply hadded
      apply hshared key hfreed
      by_cases hsess : other = sess
      · subst hsess
        exact .inl (((hself key).mp howned).resolve_left hadded)
      · exact .inr ⟨other, hsess, hbefore⟩
    · rw [if_neg hfreed] at hnone
      exact h.none key other hnone hbefore

/-! ## A call of a setter -/

/-- The keys of the slots in use. -/
def Slots.keys (slots : Slots) : List (Bool × List Bool) :=
  (usedSlots slots.toList).map IpSubnet.key

section Call

variable {slots : List IpSubnet} {tries : RouteTries σ} {framedRoutes : List (List Char)}
  {loop : RouteLoop σ} {key : Bool × List Bool}

omit [DecidableEq σ] in
theorem Stores.lookup (h : Stores sess slots tries framedRoutes loop) :
    loop.tries.lookup key =
      if key ∈ (parsedRoutes framedRoutes).map IpSubnet.key then some sess
      else tries.lookup key := by
  rw [h.tries, lookup_foldl_add, map_key_eq h.stored]

omit [DecidableEq σ] in
theorem Stores.mem_keys (h : Stores sess slots tries framedRoutes loop)
    (hkey : key ∈ (parsedRoutes framedRoutes).map IpSubnet.key) : key ∈ loop.array.keys := by
  rw [← map_key_eq h.stored] at hkey
  rw [Slots.keys, usedSlots_array h, if_neg]
  · rw [List.map_append]
    exact List.mem_append_left _ hkey
  · intro hnil
    rw [hnil] at hkey
    cases hkey

end Call

variable {st : RouteState σ} {framedRoutes : List (List Char)} {other : σ} {key : Bool × List Bool}
  {family : Nat} {mask sub : List Bool} {addr : Vector UInt32 4}

theorem lookup_setIpv4 : (st.setIpv4 sess framedRoutes).routes.tries.lookup key =
    if key ∈ (callRoutes framedRoutes).map IpSubnet.key then some sess
    else if key ∈ (st.routes.ipv4FramedRoutes sess).keys then none
    else st.routes.tries.lookup key := by
  have hloop := storeFramedRoutes_spec sess (clearUsed (st.routes.ipv4FramedRoutes sess).calloc)
    (by simp) ((usedSlots (st.routes.ipv4FramedRoutes sess).toList).foldl freeFramedRouteFromTrie
      st.routes.tries) framedRoutes
  rw [RouteState.setIpv4, upfSessSetUeIpv4FramedRoutes, hloop.lookup, lookup_foldl_free]
  rfl

theorem lookup_setIpv6 : (st.setIpv6 sess framedRoutes).routes.tries.lookup key =
    if key ∈ (callRoutes framedRoutes).map IpSubnet.key then some sess
    else if key ∈ (st.routes.ipv6FramedRoutes sess).keys then none
    else st.routes.tries.lookup key := by
  have hloop := storeFramedRoutes_spec sess (st.routes.ipv6FramedRoutes sess).calloc
    (by simp) ((usedSlots (st.routes.ipv6FramedRoutes sess).toList).foldl freeFramedRouteFromTrie
      st.routes.tries) framedRoutes
  rw [RouteState.setIpv6, upfSessSetUeIpv6FramedRoutes, hloop.lookup, lookup_foldl_free]
  rfl

@[simp] theorem ipv4Keys_setIpv4 : (st.setIpv4 sess framedRoutes).ipv4Keys other =
    if other = sess then (callRoutes framedRoutes).map IpSubnet.key else st.ipv4Keys other := by
  by_cases h : other = sess <;> simp [RouteState.ipv4Keys, RouteState.setIpv4, h]

@[simp] theorem ipv6Keys_setIpv4 : (st.setIpv4 sess framedRoutes).ipv6Keys other =
    st.ipv6Keys other := rfl

@[simp] theorem ipv6Keys_setIpv6 : (st.setIpv6 sess framedRoutes).ipv6Keys other =
    if other = sess then (callRoutes framedRoutes).map IpSubnet.key else st.ipv6Keys other := by
  by_cases h : other = sess <;> simp [RouteState.ipv6Keys, RouteState.setIpv6, h]

@[simp] theorem ipv4Keys_setIpv6 : (st.setIpv6 sess framedRoutes).ipv4Keys other =
    st.ipv4Keys other := rfl

/-- The slots in use hold the routes of the latest calls, perhaps among others. -/
structure RouteState.Holds (st : RouteState σ) : Prop where
  ipv4 : ∀ sess, ∀ key ∈ st.ipv4Keys sess, key ∈ (st.routes.ipv4FramedRoutes sess).keys
  ipv6 : ∀ sess, ∀ key ∈ st.ipv6Keys sess, key ∈ (st.routes.ipv6FramedRoutes sess).keys

theorem RouteState.Holds.setIpv4 (h : st.Holds) : (st.setIpv4 sess framedRoutes).Holds where
  ipv4 other key hkey := by
    rw [ipv4Keys_setIpv4] at hkey
    by_cases hother : other = sess
    · subst hother
      rw [if_pos rfl] at hkey
      simp only [RouteState.setIpv4, upfSessSetUeIpv4FramedRoutes, update_self]
      exact (storeFramedRoutes_spec ..).mem_keys hkey
    · rw [if_neg hother] at hkey
      simp only [RouteState.setIpv4, upfSessSetUeIpv4FramedRoutes, update_of_ne hother]
      exact h.ipv4 other key hkey
  ipv6 := h.ipv6

theorem RouteState.Holds.setIpv6 (h : st.Holds) : (st.setIpv6 sess framedRoutes).Holds where
  ipv4 := h.ipv4
  ipv6 other key hkey := by
    rw [ipv6Keys_setIpv6] at hkey
    by_cases hother : other = sess
    · subst hother
      rw [if_pos rfl] at hkey
      simp only [RouteState.setIpv6, upfSessSetUeIpv6FramedRoutes, update_self]
      exact (storeFramedRoutes_spec ..).mem_keys hkey
    · rw [if_neg hother] at hkey
      simp only [RouteState.setIpv6, upfSessSetUeIpv6FramedRoutes, update_of_ne hother]
      exact h.ipv6 other key hkey

/-- A session owns a key by a route of one of its latest calls. -/
def RouteState.Owns (st : RouteState σ) (key : Bool × List Bool) (sess : σ) : Prop :=
  key ∈ st.ipv4Keys sess ∨ key ∈ st.ipv6Keys sess

/-- A call clears no key that another session owns, or its own other array, unless it
adds the key again. -/
def RouteState.SparesShared (st : RouteState σ) : RouteEvent σ → Prop
  | .setIpv4 sess framedRoutes =>
    ∀ key ∈ (st.routes.ipv4FramedRoutes sess).keys,
      key ∈ st.ipv6Keys sess ∨ (∃ other, other ≠ sess ∧ st.Owns key other) →
        key ∈ (callRoutes framedRoutes).map IpSubnet.key
  | .setIpv6 sess framedRoutes =>
    ∀ key ∈ (st.routes.ipv6FramedRoutes sess).keys,
      key ∈ st.ipv4Keys sess ∨ (∃ other, other ≠ sess ∧ st.Owns key other) →
        key ∈ (callRoutes framedRoutes).map IpSubnet.key
  | .remove sess =>
    ∀ key ∈ (st.routes.ipv4FramedRoutes sess).keys ++ (st.routes.ipv6FramedRoutes sess).keys,
      ¬ ∃ other, other ≠ sess ∧ st.Owns key other

theorem exact_setIpv4 (h : Exact st.routes.tries.lookup st.Owns) (hholds : st.Holds)
    (hshared : st.SparesShared (.setIpv4 sess framedRoutes)) :
    Exact (st.setIpv4 sess framedRoutes).routes.tries.lookup
      (st.setIpv4 sess framedRoutes).Owns := by
  apply Exact.replace sess (st.routes.ipv4FramedRoutes sess).keys
    ((callRoutes framedRoutes).map IpSubnet.key) (st.ipv6Keys sess) h
  · exact fun key => lookup_setIpv4
  · intro key other hother
    simp [RouteState.Owns, hother]
  · intro key
    simp [RouteState.Owns]
  · exact fun key howned => howned.symm.imp_right (hholds.ipv4 sess key)
  · exact fun key => Or.inr
  · exact hshared

theorem exact_setIpv6 (h : Exact st.routes.tries.lookup st.Owns) (hholds : st.Holds)
    (hshared : st.SparesShared (.setIpv6 sess framedRoutes)) :
    Exact (st.setIpv6 sess framedRoutes).routes.tries.lookup
      (st.setIpv6 sess framedRoutes).Owns := by
  apply Exact.replace sess (st.routes.ipv6FramedRoutes sess).keys
    ((callRoutes framedRoutes).map IpSubnet.key) (st.ipv4Keys sess) h
  · exact fun key => lookup_setIpv6
  · intro key other hother
    simp [RouteState.Owns, hother]
  · intro key
    simp [RouteState.Owns, or_comm]
  · exact fun key howned => howned.imp_right (hholds.ipv6 sess key)
  · exact fun key => Or.inl
  · exact hshared

theorem exact_remove (h : Exact st.routes.tries.lookup st.Owns) (hholds : st.Holds)
    (hshared : st.SparesShared (.remove sess)) :
    Exact (st.after (.remove sess)).routes.tries.lookup (st.after (.remove sess)).Owns := by
  apply Exact.replace sess
    ((st.routes.ipv4FramedRoutes sess).keys ++ (st.routes.ipv6FramedRoutes sess).keys) [] [] h
  · intro key
    have hv6 : ((st.setIpv4 sess []).routes.ipv6FramedRoutes sess).keys =
        (st.routes.ipv6FramedRoutes sess).keys := rfl
    have hnil : (callRoutes []).map IpSubnet.key = [] := rfl
    rw [RouteState.after, lookup_setIpv6, lookup_setIpv4, hv6, hnil]
    by_cases h4 : key ∈ (st.routes.ipv4FramedRoutes sess).keys <;>
      by_cases h6 : key ∈ (st.routes.ipv6FramedRoutes sess).keys <;> simp [h4, h6]
  · intro key other hother
    simp [RouteState.Owns, RouteState.after, hother]
  · intro key
    simp [RouteState.Owns, RouteState.after, callRoutes, parsedRoutes]
  · intro key howned
    right
    exact List.mem_append.mpr (howned.imp (hholds.ipv4 sess key) (hholds.ipv6 sess key))
  · rintro key ⟨⟩
  · rintro key hkey (hkept | hother)
    · cases hkept
    · exact absurd hother (hshared key hkey)

/-! ## Routes that contain an address -/

theorem firstWord_and (a b : Vector UInt32 4) :
    (Vector.zipWith (· &&& ·) a b)[0]! = a[0]! &&& b[0]! := by
  simp

@[simp] theorem length_wordBits (w : UInt32) : (wordBits w).length = 32 := by simp [wordBits]

theorem wordBits_and (a b : UInt32) :
    wordBits (a &&& b) = List.zipWith (· && ·) (wordBits a) (wordBits b) := by
  simp [wordBits, List.zipWith_map]

theorem wordBits_injective {a b : UInt32} (h : wordBits a = wordBits b) : a = b := by
  apply UInt32.toNat_inj.mp
  apply Nat.eq_of_testBit_eq
  intro i
  by_cases hi : i < 32
  · have hget := congrArg (fun bits => bits[31 - i]?) h
    have hsub : 31 - (31 - i) = i := by omega
    simpa [wordBits, hsub, show 31 - i < 32 by omega] using hget
  · have hpow : 2 ^ 32 ≤ 2 ^ i := Nat.pow_le_pow_right (by decide) (by omega)
    rw [Nat.testBit_lt_two_pow (a.toNat_lt.trans_le hpow),
      Nat.testBit_lt_two_pow (b.toNat_lt.trans_le hpow)]

theorem addrBits_and (family : Nat) (a b : Vector UInt32 4) :
    addrBits family (Vector.zipWith (· &&& ·) a b) =
      List.zipWith (· && ·) (addrBits family a) (addrBits family b) := by
  unfold addrBits
  split
  · rw [firstWord_and, wordBits_and]
  · obtain ⟨⟨a⟩, ha⟩ := a
    obtain ⟨⟨b⟩, hb⟩ := b
    match a, b, ha, hb with
    | [a0, a1, a2, a3], [b0, b1, b2, b3], _, _ =>
      simp [wordBits_and, List.zipWith_append]

@[simp] theorem length_addrBits (family : Nat) (a : Vector UInt32 4) :
    (addrBits family a).length = if family = afInet then 32 else 128 := by
  unfold addrBits
  split
  · exact length_wordBits _
  · obtain ⟨⟨a⟩, ha⟩ := a
    match a, ha with
    | [a0, a1, a2, a3], _ => simp

theorem addrBits_injective (hfamily : family ≠ afInet) {a b : Vector UInt32 4}
    (h : addrBits family a = addrBits family b) : a = b := by
  obtain ⟨⟨a⟩, ha⟩ := a
  obtain ⟨⟨b⟩, hb⟩ := b
  match a, b, ha, hb with
  | [a0, a1, a2, a3], [b0, b1, b2, b3], _, _ =>
    simp only [addrBits, if_neg hfamily] at h
    obtain ⟨h0, h⟩ := List.append_inj h (by simp)
    obtain ⟨h1, h⟩ := List.append_inj h (by simp)
    obtain ⟨h2, h⟩ := List.append_inj h (by simp)
    obtain ⟨h3, -⟩ := List.append_inj h (by simp)
    rw [wordBits_injective h0, wordBits_injective h1, wordBits_injective h2,
      wordBits_injective h3]

/-- A route contains the addresses whose bits under the mask are those of the subnet. -/
theorem contains_iff_bits {route : IpSubnet} :
    route.Contains family addr ↔ route.family = family ∧
      addrBits family route.sub =
        List.zipWith (· && ·) (addrBits family addr) (addrBits family route.mask) := by
  rw [IpSubnet.Contains, ← addrBits_and]
  by_cases hfamily : family = afInet
  · rw [if_pos hfamily, addrBits, addrBits, if_pos hfamily, if_pos hfamily,
      firstWord_and]
    exact and_congr_right fun _ => ⟨congrArg wordBits, wordBits_injective⟩
  · rw [if_neg hfamily]
    exact and_congr_right fun _ => ⟨congrArg (addrBits family), addrBits_injective hfamily⟩

/-- The mask is a run of ones and then zeros. -/
def IpSubnet.Contiguous (route : IpSubnet) : Prop :=
  ∀ bit ∈ (addrBits route.family route.mask).dropWhile id, bit = false

instance (route : IpSubnet) : Decidable route.Contiguous :=
  inferInstanceAs (Decidable (∀ _ ∈ _, _))

def IpSubnet.prefixLen (route : IpSubnet) : Nat := (addrBits route.family route.mask).count true

theorem zipWith_and_of_false {bits : List Bool} (hmask : ∀ bit ∈ mask, bit = false)
    (hlen : bits.length = mask.length) : List.zipWith (· && ·) bits mask = mask := by
  induction mask generalizing bits with
  | nil => exact List.zipWith_nil_right
  | cons m mask ih =>
    obtain ⟨rfl, hfalse⟩ := List.forall_mem_cons.mp hmask
    cases bits with
    | nil => cases hlen
    | cons b bits =>
      rw [List.zipWith_cons_cons, ih hfalse (Nat.succ.inj hlen), Bool.and_false]

/-- Under a contiguous mask the path of a subnet is the part that its addresses share. -/
theorem pathOf_prefix_iff {addr : List Bool} (hmask : ∀ bit ∈ mask.dropWhile id, bit = false)
    (hsub : sub.length = mask.length) (haddr : addr.length = mask.length)
    (hfix : sub = List.zipWith (· && ·) sub mask) :
    (pathOf (mask.zip sub)).IsPrefix addr ↔ sub = List.zipWith (· && ·) addr mask := by
  induction mask generalizing sub addr with
  | nil =>
    rw [List.length_eq_zero_iff.mp hsub, List.length_eq_zero_iff.mp haddr]
    exact iff_of_true (List.nil_prefix ..) rfl
  | cons m mask ih =>
    match sub, addr, hsub, haddr with
    | b :: sub, a :: addr, hsub, haddr =>
      cases m with
      | false =>
        have hfalse : ∀ bit ∈ false :: mask, bit = false := hmask
        rw [List.zip_cons_cons, pathOf_cons_false, hfix, zipWith_and_of_false hfalse hsub,
          zipWith_and_of_false hfalse haddr]
        exact iff_of_true (List.nil_prefix ..) rfl
      | true =>
        obtain ⟨-, hfix⟩ := List.cons.inj hfix
        rw [List.zip_cons_cons, pathOf_cons_true, List.cons_prefix_cons,
          ih hmask (Nat.succ.inj hsub) (Nat.succ.inj haddr) hfix, List.zipWith_cons_cons,
          Bool.and_true, List.cons.injEq]

theorem length_pathOf (hmask : ∀ bit ∈ mask.dropWhile id, bit = false)
    (hsub : sub.length = mask.length) : (pathOf (mask.zip sub)).length = mask.count true := by
  induction mask generalizing sub with
  | nil => rfl
  | cons m mask ih =>
    match sub, hsub with
    | b :: sub, hsub =>
      cases m with
      | false =>
        rw [List.count_eq_zero_of_not_mem]
        · rfl
        · exact fun htrue => Bool.noConfusion (hmask true htrue)
      | true =>
        rw [List.zip_cons_cons, pathOf_cons_true, List.length_cons,
          ih hmask (Nat.succ.inj hsub), List.count_cons_self]

theorem parseFramedRoute_fixed {slot route : IpSubnet} {s : List Char}
    (h : parseFramedRoute slot s = some route) :
    route.sub = Vector.zipWith (· &&& ·) route.sub route.mask := by
  have hfix (route : IpSubnet) : (fixSubnet route).sub =
      Vector.zipWith (· &&& ·) (fixSubnet route).sub (fixSubnet route).mask := by
    ext i hi
    simp [fixSubnet, UInt32.and_assoc]
  have hogs {ipstr : List Char} {mask : Option (List Char)}
      (h : ogsIpsubnet slot ipstr mask = some route) : ∃ before, route = fixSubnet before := by
    unfold ogsIpsubnet at h
    split at h
    · obtain ⟨parsed, -, h⟩ := Option.bind_eq_some_iff.mp h
      split at h
      · exact ⟨parsed, (Option.some.inj h).symm⟩
      · obtain ⟨mask, -, h⟩ := Option.bind_eq_some_iff.mp h
        exact ⟨_, (Option.some.inj h).symm⟩
    · cases h
  have hparse : ∃ before, route = fixSubnet before := by
    unfold parseFramedRoute at h
    split at h
    · exact hogs h
    · exact hogs h
  obtain ⟨before, rfl⟩ := hparse
  exact hfix before

/-! ## Lookups in runs -/

/-- The routes that a session owns. -/
def RouteState.owned (st : RouteState σ) (sess : σ) : List IpSubnet :=
  callRoutes (st.latestIpv4 sess) ++ callRoutes (st.latestIpv6 sess)

theorem mem_callRoutes {route : IpSubnet} (h : route ∈ callRoutes framedRoutes) :
    ∃ s, parseFramedRoute emptySlot s = some route := by
  obtain ⟨s, -, hs⟩ := List.mem_filterMap.mp h
  exact ⟨s, hs⟩

/-- A lookup that finds a session finds an owner of a longest route that contains the
address. It finds none exactly if no session owns a route that does. -/
structure RouteState.Finds (st : RouteState σ) (found : Option σ) (family : Nat)
    (addr : Vector UInt32 4) : Prop where
  some : ∀ sess, found = some sess → ∃ route ∈ st.owned sess, route.Contains family addr ∧
    ∀ other, ∀ route' ∈ st.owned other, route'.Contains family addr →
      route'.prefixLen ≤ route.prefixLen
  none : found = none ↔ ∀ sess, ∀ route ∈ st.owned sess, ¬ route.Contains family addr

/-- What runs keep. -/
structure RouteState.Consistent (st : RouteState σ) : Prop where
  holds : st.Holds
  exact : Exact st.routes.tries.lookup st.Owns
  contiguous : ∀ sess, ∀ route ∈ st.owned sess, route.Contiguous

omit [DecidableEq σ] in
theorem owns_iff : st.Owns key sess ↔ ∃ route ∈ st.owned sess, route.key = key := by
  simp only [RouteState.Owns, RouteState.ipv4Keys, RouteState.ipv6Keys, RouteState.owned,
    List.mem_append, List.mem_map, or_and_right, exists_or]

omit [DecidableEq σ] in
/-- The routes that contain an address are those whose path it starts with. -/
theorem RouteState.Consistent.contains_iff (h : st.Consistent) {route : IpSubnet}
    (hroute : route ∈ st.owned sess) (hfamily : route.family = family) :
    route.Contains family addr ↔ (pathOf route.bits).IsPrefix (addrBits family addr) := by
  subst hfamily
  have hfix : route.sub = Vector.zipWith (· &&& ·) route.sub route.mask := by
    rcases List.mem_append.mp hroute with hmem | hmem
    all_goals
      obtain ⟨s, hs⟩ := mem_callRoutes hmem
      exact parseFramedRoute_fixed hs
  rw [contains_iff_bits, IpSubnet.bits, pathOf_prefix_iff (h.contiguous sess route hroute) (by simp)
    (by simp) (by rw [← addrBits_and, ← hfix])]
  exact and_iff_right rfl

omit [DecidableEq σ] in
theorem RouteState.Consistent.length_path (h : st.Consistent) {route : IpSubnet}
    (hroute : route ∈ st.owned sess) : (pathOf route.bits).length = route.prefixLen :=
  length_pathOf (h.contiguous sess route hroute) (by simp)

omit [DecidableEq σ] in
/-- The longest match in the trie of a family is exact. -/
theorem RouteState.Consistent.finds (h : st.Consistent)
    (hfamily : family = afInet ∨ family = afInet6) (addr : Vector UInt32 4) :
    st.Finds ((st.routes.tries.trie family).longest none (addrBits family addr)) family addr := by
  have hlookup (path : List Bool) : st.routes.tries.lookup (decide (family = afInet), path) =
      (st.routes.tries.trie family).get path := by
    rw [RouteTries.lookup, RouteTries.trie]
    simp only [decide_eq_true_eq]
  have hfamily_of {sess : σ} {route : IpSubnet} (hroute : route ∈ st.owned sess)
      (hkey : decide (route.family = afInet) = decide (family = afInet)) :
      route.family = family := by
    have hknown : route.family = afInet ∨ route.family = afInet6 := by
      rcases List.mem_append.mp hroute with hmem | hmem
      all_goals
        obtain ⟨s, hs⟩ := mem_callRoutes hmem
        exact parseFramedRoute_family hs
    rw [decide_eq_decide] at hkey
    rcases hknown with hr | hr <;> rcases hfamily with hf | hf
    · exact hr.trans hf.symm
    · exact absurd (hkey.mp hr) (by rw [hf]; decide)
    · exact absurd (hkey.mpr hf) (by rw [hr]; decide)
    · exact hr.trans hf.symm
  -- a route that contains the address has a value on the way of the lookup
  have hvalue {sess : σ} {route : IpSubnet} (hroute : route ∈ st.owned sess)
      (hcontains : route.Contains family addr) :
      (pathOf route.bits).IsPrefix (addrBits family addr) ∧
        (st.routes.tries.trie family).get (pathOf route.bits) ≠ none := by
    refine ⟨(h.contains_iff hroute hcontains.1).mp hcontains, fun hnone => ?_⟩
    rw [← hlookup] at hnone
    refine h.exact.none _ sess hnone (owns_iff.mpr ⟨route, hroute, ?_⟩)
    rw [IpSubnet.key, hcontains.1]
  constructor
  · intro sess hfound
    obtain ⟨path, hpath, hget, hmax⟩ := longest_eq_some hfound
    rw [← hlookup] at hget
    obtain ⟨route, hroute, hkey⟩ := owns_iff.mp (h.exact.some _ sess hget)
    obtain ⟨hkeyFamily, rfl⟩ := Prod.mk.inj hkey
    have hrouteFamily := hfamily_of hroute hkeyFamily
    refine ⟨route, hroute, (h.contains_iff hroute hrouteFamily).mpr hpath, ?_⟩
    intro other route' hroute' hcontains
    obtain ⟨hunder, hne⟩ := hvalue hroute' hcontains
    obtain ⟨owner, howner⟩ := Option.ne_none_iff_exists'.mp hne
    rw [← h.length_path hroute', ← h.length_path hroute]
    exact hmax _ owner hunder howner
  · rw [longest_eq_none_iff]
    constructor
    · intro hnone sess route hroute hcontains
      obtain ⟨hunder, hne⟩ := hvalue hroute hcontains
      exact hne (hnone _ hunder)
    · intro hno path hpath
      rw [← hlookup]
      cases hget : st.routes.tries.lookup (decide (family = afInet), path) with
      | none => rfl
      | some owner =>
        obtain ⟨route, hroute, hkey⟩ := owns_iff.mp (h.exact.some _ owner hget)
        obtain ⟨hkeyFamily, rfl⟩ := Prod.mk.inj hkey
        exact absurd ((h.contains_iff hroute (hfamily_of hroute hkeyFamily)).mpr hpath)
          (hno owner route hroute)

/-- The routes of a call. -/
def RouteEvent.added : RouteEvent σ → List IpSubnet
  | .setIpv4 _ framedRoutes => callRoutes framedRoutes
  | .setIpv6 _ framedRoutes => callRoutes framedRoutes
  | .remove _ => []

/-- The routes of a call have contiguous masks, and it clears no key that is shared. -/
def RouteState.Spares (st : RouteState σ) (e : RouteEvent σ) : Prop :=
  (∀ route ∈ e.added, route.Contiguous) ∧ st.SparesShared e

instance (st : RouteState σ) (key : Bool × List Bool) (sess : σ) : Decidable (st.Owns key sess) :=
  inferInstanceAs (Decidable (_ ∨ _))

instance [Fintype σ] (st : RouteState σ) (e : RouteEvent σ) : Decidable (st.Spares e) :=
  match e with
  | .setIpv4 _ _ => inferInstanceAs (Decidable ((∀ _ ∈ _, _) ∧ ∀ _ ∈ _, _ → _))
  | .setIpv6 _ _ => inferInstanceAs (Decidable ((∀ _ ∈ _, _) ∧ ∀ _ ∈ _, _ → _))
  | .remove _ => inferInstanceAs (Decidable ((∀ _ ∈ _, _) ∧ ∀ _ ∈ _, _))

theorem mem_owned_setIpv4 {route : IpSubnet}
    (h : route ∈ (st.setIpv4 sess framedRoutes).owned other) :
    route ∈ st.owned other ∨ route ∈ callRoutes framedRoutes := by
  by_cases hother : other = sess
  · subst hother
    simp only [RouteState.owned, RouteState.setIpv4, update_self] at h
    exact (List.mem_append.mp h).symm.imp_left (List.mem_append_right _)
  · simp only [RouteState.owned, RouteState.setIpv4, update_of_ne hother] at h
    exact .inl h

theorem mem_owned_setIpv6 {route : IpSubnet}
    (h : route ∈ (st.setIpv6 sess framedRoutes).owned other) :
    route ∈ st.owned other ∨ route ∈ callRoutes framedRoutes := by
  by_cases hother : other = sess
  · subst hother
    simp only [RouteState.owned, RouteState.setIpv6, update_self] at h
    exact (List.mem_append.mp h).imp_left (List.mem_append_left _)
  · simp only [RouteState.owned, RouteState.setIpv6, update_of_ne hother] at h
    exact .inl h

theorem RouteState.Consistent.after (h : st.Consistent) {e : RouteEvent σ} (he : st.Spares e) :
    (st.after e).Consistent := by
  obtain ⟨hadded, hshared⟩ := he
  cases e with
  | setIpv4 sess framedRoutes =>
    refine ⟨h.holds.setIpv4, exact_setIpv4 h.exact h.holds hshared, fun other route hroute => ?_⟩
    exact (mem_owned_setIpv4 hroute).elim (h.contiguous other route) (hadded route)
  | setIpv6 sess framedRoutes =>
    refine ⟨h.holds.setIpv6, exact_setIpv6 h.exact h.holds hshared, fun other route hroute => ?_⟩
    exact (mem_owned_setIpv6 hroute).elim (h.contiguous other route) (hadded route)
  | remove sess =>
    refine ⟨h.holds.setIpv4.setIpv6, exact_remove h.exact h.holds hshared,
      fun other route hroute => ?_⟩
    rcases mem_owned_setIpv6 hroute with hroute | hnil
    · rcases mem_owned_setIpv4 hroute with hroute | hnil
      · exact h.contiguous other route hroute
      · cases hnil
    · cases hnil

/-- In a run whose calls all meet the conditions, an address that is no UE's own leads to
an owner of a longest framed route that contains it. -/
theorem framed_route_of_address {events : List (RouteEvent σ)}
    (h : System.Run (routeSystem σ) RouteState.Spares events st) :
    (∀ (ipv4Hash : UInt32 → Option σ) addr, ipv4Hash addr = none →
        st.Finds (upfSessFindByIpv4 ipv4Hash st.routes.tries addr) afInet #v[addr, 0, 0, 0]) ∧
      ∀ (ipv6Hash : UInt32 × UInt32 → Option σ) addr6, ipv6Hash (addr6[0]!, addr6[1]!) = none →
        st.Finds (upfSessFindByIpv6 ipv6Hash st.routes.tries addr6) afInet6 addr6 := by
  have hst : st.Consistent := by
    apply h.invariant
    · rintro st rfl
      refine ⟨⟨?_, ?_⟩, ⟨?_, ?_⟩, ?_⟩
      · rintro sess key ⟨⟩
      · rintro sess key ⟨⟩
      · rintro ⟨isIpv4, path⟩ sess hsome
        cases isIpv4 <;> simp [RouteTries.lookup] at hsome
      · rintro key sess - (⟨⟨⟩⟩ | ⟨⟨⟩⟩)
      · rintro sess route ⟨⟩
    · rintro st e st' hst he rfl
      exact hst.after he
  constructor
  · intro ipv4Hash addr hown
    rw [upfSessFindByIpv4, hown]
    exact hst.finds (.inl rfl) #v[addr, 0, 0, 0]
  · intro ipv6Hash addr6 hown
    rw [upfSessFindByIpv6, hown]
    exact hst.finds (.inr rfl) addr6

/-- One session has a route inside a route of another, and is removed. -/
def nestedRoutes : RouteState Bool :=
  (((({} : RouteState Bool).after (.setIpv4 false ["10.0.0.0/8".toList])).after
    (.setIpv4 true ["10.1.0.0/16".toList]))).after (.remove true)

theorem framed_route_of_address_nested :
    nestedRoutes.Finds (upfSessFindByIpv4 (fun _ => none) nestedRoutes.routes.tries 0x0a010203) afInet
      #v[0x0a010203, 0, 0, 0] :=
  (framed_route_of_address
    (.snoc (.snoc (.snoc (.nil rfl) (by decide) rfl) (by decide) rfl) (by decide +kernel) rfl)).1
    (fun _ => none) 0x0a010203 rfl

/-- Two sessions have one route, and one of them is removed. -/
def sharedRoutes : List (RouteEvent Bool) :=
  [.setIpv4 false ["10.0.0.0/8".toList], .setIpv4 true ["10.0.0.0/8".toList], .remove true]

/-- Nothing leads to the route of the session that is left. -/
theorem framed_route_of_address_fails :
    ¬ ∀ events (st : RouteState Bool),
      System.Run (routeSystem Bool) System.unrestricted events st →
        ∀ (ipv4Hash : UInt32 → Option Bool) addr, ipv4Hash addr = none →
          st.Finds (upfSessFindByIpv4 ipv4Hash st.routes.tries addr) afInet #v[addr, 0, 0, 0] := by
  intro h
  have hrun := System.run_foldl (S := routeSystem Bool) (f := RouteState.after)
    (fun _ _ => rfl) rfl sharedRoutes
  have hnone := (h _ _ hrun (fun _ => none) 0x0a010203 rfl).none.mp (by decide +kernel)
  revert hnone
  decide +kernel

end Quicup.Open5gs
