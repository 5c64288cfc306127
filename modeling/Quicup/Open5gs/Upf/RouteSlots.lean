import Quicup.Open5gs.Upf.FramedRoute
import Quicup.Open5gs.Upf.GtpPath

/-!
# The framed routes that a session stores

The IPv6 setter does not clear the slots of the routes that it replaces. They show
behind the routes of a call that stores fewer.
-/

namespace Quicup.Open5gs

open Function

variable {σ : Type} {slot route a b : IpSubnet} {s : List Char} {slots rest routes : List IpSubnet}
  {framedRoutes : List (List Char)} {sess : σ} {loop : RouteLoop σ} {tries : RouteTries σ}

/-! ## What a slot held before -/

/-- Routes of one string that differ at most in words that IPv4 does not use. -/
structure IpSubnet.SameRoute (a b : IpSubnet) : Prop where
  family : a.family = b.family
  mask : a.mask = b.mask
  first : a.sub[0]! = b.sub[0]!
  sub : a.family ≠ afInet → a.sub = b.sub
  known : a.family = afInet ∨ a.family = afInet6

theorem IpSubnet.SameRoute.eq (h : a.SameRoute b) (hfamily : a.family ≠ afInet) : a = b := by
  obtain ⟨family, mask, _, sub, _⟩ := h
  cases a
  cases b
  simp_all

theorem IpSubnet.SameRoute.fixSubnet (h : a.SameRoute b) :
    (fixSubnet a).SameRoute (fixSubnet b) := by
  obtain ⟨family, mask, first, sub, known⟩ := h
  refine ⟨family, mask, ?_, fun hfamily => ?_, known⟩
  · have hfirst : a.sub[0] = b.sub[0] := by simpa using first
    simp [Open5gs.fixSubnet, hfirst, mask]
  · simp only [Open5gs.fixSubnet, mask, sub hfamily]

/-- Options of a relation: both absent, or both present and related. -/
abbrev SameResult (a b : Option IpSubnet) : Prop := Option.Rel IpSubnet.SameRoute a b

theorem parseIp_same {mask : Vector UInt32 4} {networkAllowed : Bool} :
    SameResult (parseIp { a with mask } s networkAllowed)
      (parseIp { b with mask } s networkAllowed) := by
  unfold parseIp
  split
  · split
    · exact .none
    · exact .some ⟨rfl, rfl, rfl, fun _ => rfl, .inr rfl⟩
  · split
    · exact .some ⟨rfl, rfl, by simp, fun h => absurd rfl h, .inl rfl⟩
    · split
      · cases parseNetwork s with
        | none => exact .none
        | some words => exact .some ⟨rfl, rfl, by simp, fun h => absurd rfl h, .inl rfl⟩
      · exact .none

theorem ipsubnetMask_congr (h : a.SameRoute b) : ipsubnetMask a s = ipsubnetMask b s := by
  simp only [ipsubnetMask, h.family, h.mask]

theorem ogsIpsubnet_same {mask : Option (List Char)} :
    SameResult (ogsIpsubnet a s mask) (ogsIpsubnet b s mask) := by
  unfold ogsIpsubnet
  split
  · have hparse : SameResult
        (parseIp { a with mask := Vector.replicate 4 0xffffffff } s mask.isNone)
        (parseIp { b with mask := Vector.replicate 4 0xffffffff } s mask.isNone) := parseIp_same
    revert hparse
    generalize parseIp { a with mask := Vector.replicate 4 0xffffffff } s mask.isNone = ra
    generalize parseIp { b with mask := Vector.replicate 4 0xffffffff } s mask.isNone = rb
    intro hparse
    cases hparse with
    | none => exact .none
    | some hsame =>
      cases mask with
      | none => exact .some hsame.fixSubnet
      | some mask =>
        simp only [Option.bind_eq_bind, Option.bind_some, ipsubnetMask_congr hsame]
        cases ipsubnetMask _ mask with
        | none => exact .none
        | some words =>
          apply Option.Rel.some
          apply IpSubnet.SameRoute.fixSubnet
          exact ⟨hsame.family, rfl, hsame.first, hsame.sub, hsame.known⟩
  · exact .none

/-- What a slot held before shows only in words that IPv4 does not use. -/
theorem parseFramedRoute_same (a b : IpSubnet) (s : List Char) :
    SameResult (parseFramedRoute a s) (parseFramedRoute b s) := by
  unfold parseFramedRoute
  split
  · exact ogsIpsubnet_same
  · exact ogsIpsubnet_same

/-- A route has a family. -/
theorem parseFramedRoute_family (h : parseFramedRoute slot s = some route) :
    route.family = afInet ∨ route.family = afInet6 := by
  have hsame := parseFramedRoute_same slot slot s
  rw [h] at hsame
  cases hsame with
  | some hsame => exact hsame.known

/-! ## The loop that stores routes -/

/-- The routes that strings describe. -/
def parsedRoutes (framedRoutes : List (List Char)) : List IpSubnet :=
  framedRoutes.filterMap (parseFramedRoute emptySlot)

/-- The routes of a call, which takes no more strings than there are slots. -/
def callRoutes (framedRoutes : List (List Char)) : List IpSubnet :=
  parsedRoutes (framedRoutes.take ogsMaxNumOfFramedRoutesInPdi)

/-- The last string is no route. -/
def lastInvalid (framedRoutes : List (List Char)) : Bool :=
  framedRoutes.getLast?.any fun s => (parseFramedRoute emptySlot s).isNone

/-- The slots behind those that a call has filled. -/
def slotsBehind (slots : List IpSubnet) (framedRoutes : List (List Char)) : List IpSubnet :=
  let behind := slots.drop (parsedRoutes framedRoutes).length
  if lastInvalid framedRoutes then behind.modifyHead fun _ => emptySlot else behind

theorem length_parsedRoutes_le (framedRoutes : List (List Char)) :
    (parsedRoutes framedRoutes).length ≤ framedRoutes.length := List.length_filterMap_le ..

theorem parsedRoutes_append_singleton (framedRoutes : List (List Char)) (s : List Char) :
    parsedRoutes (framedRoutes ++ [s]) =
      parsedRoutes framedRoutes ++ (parseFramedRoute emptySlot s).toList := by
  rw [parsedRoutes, List.filterMap_append, parsedRoutes]
  cases h : parseFramedRoute emptySlot s <;> simp [h]

theorem eq_emptySlot_of_mem_slotsBehind (hslots : ∀ slot ∈ slots, slot = emptySlot)
    (h : slot ∈ slotsBehind slots framedRoutes) : slot = emptySlot := by
  have hdrop (slot : IpSubnet) (h : slot ∈ slots.drop (parsedRoutes framedRoutes).length) :
      slot = emptySlot := hslots slot (List.mem_of_mem_drop h)
  rw [slotsBehind] at h
  revert h hdrop
  cases slots.drop (parsedRoutes framedRoutes).length with
  | nil => split <;> rintro ⟨⟩
  | cons first tail =>
    intro h hdrop
    split at h
    · rcases List.mem_cons.mp h with rfl | htail
      · rfl
      · exact hdrop slot (List.mem_cons_of_mem _ htail)
    · exact hdrop slot h

/-- What the loop has done for strings: the routes are those of the strings up to words
that IPv4 does not use. -/
structure Stores (sess : σ) (slots : List IpSubnet) (tries : RouteTries σ)
    (framedRoutes : List (List Char)) (loop : RouteLoop σ) : Prop where
  stored : List.Forall₂ IpSubnet.SameRoute loop.stored (parsedRoutes framedRoutes)
  exact : (∀ slot ∈ slots, slot = emptySlot) → loop.stored = parsedRoutes framedRoutes
  slots : loop.slots = slotsBehind slots framedRoutes
  tries : loop.tries = loop.stored.foldl (fun tries route => addFramedRouteToTrie tries route sess)
    tries

theorem RouteLoop.store_invalid (hslots : loop.slots = slot :: rest)
    (hparse : parseFramedRoute slot s = none) :
    (loop.store sess s).stored = loop.stored ∧ (loop.store sess s).slots = emptySlot :: rest ∧
      (loop.store sess s).tries = loop.tries := by
  unfold store
  split
  · next hnil => cases hslots.symm.trans hnil
  · next hcons =>
    obtain ⟨rfl, rfl⟩ := List.cons.inj (hslots.symm.trans hcons)
    split
    · exact ⟨rfl, rfl, rfl⟩
    · next hroute => cases hparse.symm.trans hroute

theorem RouteLoop.store_route (hslots : loop.slots = slot :: rest)
    (hparse : parseFramedRoute slot s = some route) :
    (loop.store sess s).stored = loop.stored ++ [route] ∧ (loop.store sess s).slots = rest ∧
      (loop.store sess s).tries = addFramedRouteToTrie loop.tries route sess := by
  unfold store
  split
  · next hnil => cases hslots.symm.trans hnil
  · next hcons =>
    obtain ⟨rfl, rfl⟩ := List.cons.inj (hslots.symm.trans hcons)
    split
    · next hnone => cases hparse.symm.trans hnone
    · next hroute =>
      obtain rfl := Option.some.inj (hparse.symm.trans hroute)
      exact ⟨rfl, rfl, rfl⟩

theorem Stores.store (h : Stores sess slots tries framedRoutes loop)
    (hlen : framedRoutes.length < ogsMaxNumOfFramedRoutesInPdi) :
    Stores sess slots tries (framedRoutes ++ [s]) (loop.store sess s) := by
  have hstored := h.stored.length_eq
  have hle := length_parsedRoutes_le framedRoutes
  have hsize := loop.size
  rw [List.length_append] at hsize
  obtain ⟨slot, rest, hslots⟩ : ∃ slot rest, loop.slots = slot :: rest :=
    List.exists_cons_of_length_pos (by omega)
  obtain ⟨first, hfirst⟩ : ∃ first, slots.drop (parsedRoutes framedRoutes).length = first :: rest := by
    have hbehind := h.slots
    rw [hslots, slotsBehind] at hbehind
    revert hbehind
    cases slots.drop (parsedRoutes framedRoutes).length with
    | nil => split <;> rintro ⟨⟩
    | cons first tail =>
      intro hbehind
      refine ⟨first, ?_⟩
      split at hbehind <;> rw [(List.cons.inj hbehind).2]
  have hsame := parseFramedRoute_same slot emptySlot s
  cases hparse : parseFramedRoute slot s with
  | none =>
    obtain ⟨h1, h2, h3⟩ := RouteLoop.store_invalid hslots hparse
    have hempty : parseFramedRoute emptySlot s = none := by
      rw [hparse] at hsame
      cases h0 : parseFramedRoute emptySlot s with
      | none => rfl
      | some route => rw [h0] at hsame; cases hsame
    have hparsed : parsedRoutes (framedRoutes ++ [s]) = parsedRoutes framedRoutes := by
      rw [parsedRoutes_append_singleton, hempty]
      exact List.append_nil _
    have hlast : lastInvalid (framedRoutes ++ [s]) = true := by
      simp [lastInvalid, hempty]
    constructor
    · rw [h1, hparsed]
      exact h.stored
    · rw [h1, hparsed]
      exact h.exact
    · rw [h2, slotsBehind, hparsed, hlast, hfirst]
      rfl
    · rw [h3, h1, h.tries]
  | some route =>
    obtain ⟨h1, h2, h3⟩ := RouteLoop.store_route hslots hparse
    obtain ⟨route', hroute', hsame⟩ : ∃ route', parseFramedRoute emptySlot s = some route' ∧
        route.SameRoute route' := by
      rw [hparse] at hsame
      cases h0 : parseFramedRoute emptySlot s with
      | none => rw [h0] at hsame; cases hsame
      | some route' =>
        rw [h0] at hsame
        cases hsame with
        | some hsame => exact ⟨route', rfl, hsame⟩
    have hparsed : parsedRoutes (framedRoutes ++ [s]) = parsedRoutes framedRoutes ++ [route'] := by
      rw [parsedRoutes_append_singleton, hroute']
      rfl
    have hlast : lastInvalid (framedRoutes ++ [s]) = false := by
      simp [lastInvalid, hroute']
    constructor
    · rw [h1, hparsed]
      exact List.rel_append h.stored (.cons hsame .nil)
    · intro hempty
      have hslot : slot = emptySlot := by
        have hmem : slot ∈ loop.slots := hslots ▸ List.mem_cons_self ..
        rw [h.slots] at hmem
        exact eq_emptySlot_of_mem_slotsBehind hempty hmem
      rw [hslot, hroute'] at hparse
      rw [h1, hparsed, h.exact hempty, Option.some.inj hparse]
    · rw [h2, slotsBehind, hparsed, hlast, List.length_append, ← List.drop_drop, hfirst]
      rfl
    · rw [h3, h1, List.foldl_append, ← h.tries]
      rfl

/-- The loop of a call stores the routes of the call. -/
theorem storeFramedRoutes_spec (sess : σ) (slots : List IpSubnet)
    (hsize : slots.length = ogsMaxNumOfFramedRoutesInPdi) (tries : RouteTries σ)
    (framedRoutes : List (List Char)) :
    Stores sess slots tries (framedRoutes.take ogsMaxNumOfFramedRoutesInPdi)
      (storeFramedRoutes sess slots hsize tries framedRoutes) := by
  have hlen : (framedRoutes.take ogsMaxNumOfFramedRoutesInPdi).length ≤
      ogsMaxNumOfFramedRoutesInPdi := List.length_take_le ..
  unfold storeFramedRoutes
  generalize framedRoutes.take ogsMaxNumOfFramedRoutesInPdi = taken at hlen
  induction taken using List.reverseRecOn with
  | nil => exact ⟨.nil, fun _ => rfl, rfl, rfl⟩
  | append_singleton before s ih =>
    rw [List.length_append, List.length_singleton] at hlen
    rw [List.foldl_append]
    exact (ih (by omega)).store (by omega)

/-! ## The array behind a call -/

theorem family_ne_zero {routes' : List IpSubnet}
    (h : List.Forall₂ IpSubnet.SameRoute routes routes') : ∀ route ∈ routes, route.family ≠ 0 := by
  induction h with
  | nil => rintro route ⟨⟩
  | cons hsame _ ih =>
    refine List.forall_mem_cons.mpr ⟨?_, ih⟩
    rcases hsame.known with hfamily | hfamily <;> rw [hfamily] <;> decide

/-- The routes of a call, and behind them the slots left. An array without routes is freed. -/
theorem usedSlots_array (h : Stores sess slots tries framedRoutes loop) :
    usedSlots loop.array.toList =
      if loop.stored = [] then [] else loop.stored ++ usedSlots loop.slots := by
  rw [RouteLoop.array]
  split
  · rfl
  · apply List.takeWhile_append_of_pos
    intro route hroute
    exact decide_eq_true (family_ne_zero h.stored route hroute)

/-- An array whose slots are all empty once those in use are cleared. -/
def Slots.Clean (slots : Slots) : Prop := ∀ slot ∈ clearUsed slots.calloc, slot = emptySlot

theorem clearUsed_append (h : ∀ route ∈ routes, route.family ≠ 0) :
    clearUsed (routes ++ slots) = List.replicate routes.length emptySlot ++ clearUsed slots := by
  induction routes with
  | nil => rfl
  | cons route routes ih =>
    obtain ⟨hroute, hroutes⟩ := List.forall_mem_cons.mp h
    rw [List.cons_append, clearUsed, if_neg hroute, ih hroutes]
    rfl

theorem clearUsed_eq_self (h : ∀ slot ∈ slots, slot = emptySlot) : clearUsed slots = slots := by
  cases slots with
  | nil => rfl
  | cons slot slots => rw [h slot (List.mem_cons_self ..)]; rfl

theorem usedSlots_eq_nil (h : ∀ slot ∈ slots, slot = emptySlot) : usedSlots slots = [] := by
  cases slots with
  | nil => rfl
  | cons slot slots => rw [h slot (List.mem_cons_self ..)]; rfl

theorem Slots.clean_none : Slots.Clean none := by
  have hempty : ∀ slot ∈ Slots.calloc none, slot = emptySlot :=
    fun slot => List.eq_of_mem_replicate
  rw [Clean, clearUsed_eq_self hempty]
  exact hempty

section Call

variable {sess : σ} {tries : RouteTries σ} {framedRoutes : List (List Char)} {loop : RouteLoop σ}

/-- Where the loop started with empty slots, it leaves the routes of the call and a clean array. -/
theorem Stores.of_empty (h : Stores sess slots tries framedRoutes loop)
    (hempty : ∀ slot ∈ slots, slot = emptySlot) :
    usedSlots loop.array.toList = parsedRoutes framedRoutes ∧ loop.array.Clean := by
  have hleft : ∀ slot ∈ loop.slots, slot = emptySlot := by
    rw [h.slots]
    exact fun slot => eq_emptySlot_of_mem_slotsBehind hempty
  rw [usedSlots_array h, usedSlots_eq_nil hleft, List.append_nil, ← h.exact hempty]
  constructor
  · split
    · next hnil => exact hnil.symm
    · rfl
  · rw [RouteLoop.array]
    split
    · exact Slots.clean_none
    · intro slot hslot
      change slot ∈ clearUsed (loop.stored ++ loop.slots) at hslot
      rw [clearUsed_append (family_ne_zero h.stored), clearUsed_eq_self hleft] at hslot
      rcases List.mem_append.mp hslot with hslot | hslot
      · exact List.eq_of_mem_replicate hslot
      · exact hleft slot hslot

/-- The IPv6 setter shows no slot of an earlier call behind the routes of a call: there
are none, the first slot behind is empty, or it was cleared for a last string that is no
route. -/
def Fits (slots : Slots) (framedRoutes : List (List Char)) : Prop :=
  parsedRoutes framedRoutes = [] ∨ lastInvalid framedRoutes = true ∨
    usedSlots (slots.calloc.drop (parsedRoutes framedRoutes).length) = []

instance (slots : Slots) (framedRoutes : List (List Char)) : Decidable (Fits slots framedRoutes) :=
  inferInstanceAs (Decidable (_ ∨ _ ∨ _))

theorem usedSlots_slotsBehind_eq_nil (slots : Slots) (framedRoutes : List (List Char)) :
    usedSlots (slotsBehind slots.calloc framedRoutes) = [] ↔
      lastInvalid framedRoutes = true ∨
        usedSlots (slots.calloc.drop (parsedRoutes framedRoutes).length) = [] := by
  rw [slotsBehind]
  cases lastInvalid framedRoutes with
  | false => simp
  | true =>
    cases slots.calloc.drop (parsedRoutes framedRoutes).length with
    | nil => simp [usedSlots]
    | cons slot rest => simp [usedSlots, emptySlot]

/-- The routes in use behind a call of the IPv6 setter are those of the call exactly if
no slot of an earlier call shows. -/
theorem Stores.used_iff {slots : Slots} (h : Stores sess slots.calloc tries framedRoutes loop)
    (hfamily : ∀ route ∈ parsedRoutes framedRoutes, route.family ≠ afInet) :
    usedSlots loop.array.toList = parsedRoutes framedRoutes ↔ Fits slots framedRoutes := by
  have hstored : loop.stored = parsedRoutes framedRoutes := by
    have hrel := h.stored
    revert hrel hfamily
    generalize parsedRoutes framedRoutes = routes
    generalize loop.stored = stored
    intro hfamily hrel
    induction hrel with
    | nil => rfl
    | cons hsame _ ih =>
      obtain ⟨hroute, hroutes⟩ := List.forall_mem_cons.mp hfamily
      rw [hsame.eq (hsame.family ▸ hroute), ih hroutes]
  rw [usedSlots_array h, hstored, h.slots, Fits]
  split
  · next hnil => simp [hnil]
  · next hne => simp [hne, usedSlots_slotsBehind_eq_nil]

end Call

/-! ## The check of a source address -/

variable {pkbuf : Pkbuf} {i : Nat} {addr : Vector UInt32 4} {st : RouteState σ}

/-- Reading stops at the first word that differs. -/
theorem wordsIn_cons {sub mask w : UInt32} {rest : List (UInt32 × UInt32)} {b : Bool}
    (hword : pkbuf.word i = .ok w) (hrest : wordsIn pkbuf (i + 4) rest = .ok b) :
    wordsIn pkbuf i ((sub, mask) :: rest) = .ok (decide (sub = w &&& mask) && b) := by
  rw [wordsIn, hword, Fallible.ok_bind, hrest]
  by_cases h : sub = w &&& mask
  · simp [h]
  · simp [h]
    rfl

theorem wordsIn_ipv4 (haddr : pkbuf.word i = .ok addr[0]!) (hroute : route.family = afInet) :
    wordsIn pkbuf i ((route.sub.toList.zip route.mask.toList).take 1) =
      .ok (decide (route.Contains afInet addr)) := by
  obtain ⟨family, sub, mask⟩ := route
  obtain rfl : family = afInet := hroute
  have hlist : (sub.toList.zip mask.toList).take 1 = [(sub[0]!, mask[0]!)] := by
    obtain ⟨⟨sub⟩, hsub⟩ := sub
    obtain ⟨⟨mask⟩, hmask⟩ := mask
    match sub, mask, hsub, hmask with
    | a :: _, b :: _, _, _ => rfl
  rw [hlist, wordsIn_cons haddr rfl, Bool.and_true]
  simp [IpSubnet.Contains]

theorem wordsIn_ipv6 (haddr : pkbuf.words i = .ok addr) (hroute : route.family = afInet6) :
    wordsIn pkbuf i ((route.sub.toList.zip route.mask.toList).take 4) =
      .ok (decide (route.Contains afInet6 addr)) := by
  obtain ⟨family, sub, mask⟩ := route
  obtain rfl : family = afInet6 := hroute
  obtain ⟨w0, h0, hrest⟩ := Fallible.bind_eq_ok.mp haddr
  obtain ⟨w1, h1, hrest⟩ := Fallible.bind_eq_ok.mp hrest
  obtain ⟨w2, h2, hrest⟩ := Fallible.bind_eq_ok.mp hrest
  obtain ⟨w3, h3, hrest⟩ := Fallible.bind_eq_ok.mp hrest
  obtain rfl : #v[w0, w1, w2, w3] = addr := Except.ok.inj hrest
  obtain ⟨⟨sub⟩, hsub⟩ := sub
  obtain ⟨⟨mask⟩, hmask⟩ := mask
  match sub, mask, hsub, hmask with
  | [a0, a1, a2, a3], [b0, b1, b2, b3], _, _ =>
    have hread : wordsIn pkbuf i [(a0, b0), (a1, b1), (a2, b2), (a3, b3)] = _ :=
      wordsIn_cons h0 <| wordsIn_cons h1 <| wordsIn_cons h2 <| wordsIn_cons h3 <|
        (rfl : wordsIn pkbuf (i + 4 + 4 + 4 + 4) [] = .ok true)
    refine hread.trans ?_
    simp [IpSubnet.Contains, afInet, afInet6]

/-- The check accepts an address of the first words of a packet exactly if a used slot
contains it. -/
theorem checkFramedRoutes_eq {slots : Slots} {family len : Nat}
    (hwords : ∀ route ∈ usedSlots slots.toList,
      wordsIn pkbuf i ((route.sub.toList.zip route.mask.toList).take len) =
        .ok (decide (route.Contains family addr))) :
    checkFramedRoutes slots len pkbuf i =
      .ok (decide (∃ route ∈ usedSlots slots.toList, route.Contains family addr)) := by
  cases slots with
  | none => simp [checkFramedRoutes, Slots.toList, usedSlots]; rfl
  | some slots =>
    have hfind := Fallible.findM?_eq_find? hwords
    rw [Slots.toList, usedSlots] at hfind ⊢
    rw [checkFramedRoutes, hfind]
    apply congrArg Except.ok
    rw [Bool.eq_iff_iff, List.find?_isSome]
    simp only [decide_eq_true_eq]

/-! ## Runs -/

/-- The arrays of a session hold the routes of its latest calls, and the check accepts
the addresses that these contain. -/
structure RouteState.Latest (st : RouteState σ) (sess : σ) : Prop where
  slotsIpv4 : usedSlots (st.routes.ipv4FramedRoutes sess).toList = callRoutes (st.latestIpv4 sess)
  slotsIpv6 : usedSlots (st.routes.ipv6FramedRoutes sess).toList = callRoutes (st.latestIpv6 sess)
  checkIpv4 : ∀ pkbuf i (addr : Vector UInt32 4), pkbuf.word i = .ok addr[0]! →
    checkFramedRoutes (st.routes.ipv4FramedRoutes sess) 1 pkbuf i =
      .ok (decide (∃ route ∈ callRoutes (st.latestIpv4 sess), route.Contains afInet addr))
  checkIpv6 : ∀ pkbuf i addr, pkbuf.words i = .ok addr →
    checkFramedRoutes (st.routes.ipv6FramedRoutes sess) 4 pkbuf i =
      .ok (decide (∃ route ∈ callRoutes (st.latestIpv6 sess), route.Contains afInet6 addr))

/-- The routes of a call are of the IP version of the setter, and no slot of an earlier
call shows behind those of the IPv6 setter. -/
def RouteState.Shows (st : RouteState σ) : RouteEvent σ → Prop
  | .setIpv4 _ framedRoutes => ∀ route ∈ callRoutes framedRoutes, route.family = afInet
  | .setIpv6 sess framedRoutes =>
    (∀ route ∈ callRoutes framedRoutes, route.family = afInet6) ∧
      Fits (st.routes.ipv6FramedRoutes sess) (framedRoutes.take ogsMaxNumOfFramedRoutesInPdi)
  | .remove _ => True

instance (st : RouteState σ) (e : RouteEvent σ) : Decidable (st.Shows e) :=
  match e with
  | .setIpv4 _ _ => inferInstanceAs (Decidable (∀ _ ∈ _, _))
  | .setIpv6 _ _ => inferInstanceAs (Decidable (_ ∧ _))
  | .remove _ => inferInstanceAs (Decidable True)

/-- What runs keep for the arrays of a session. -/
structure RouteState.Stored (st : RouteState σ) (sess : σ) : Prop where
  clean : (st.routes.ipv4FramedRoutes sess).Clean
  slotsIpv4 : usedSlots (st.routes.ipv4FramedRoutes sess).toList = callRoutes (st.latestIpv4 sess)
  slotsIpv6 : usedSlots (st.routes.ipv6FramedRoutes sess).toList = callRoutes (st.latestIpv6 sess)
  familyIpv4 : ∀ route ∈ callRoutes (st.latestIpv4 sess), route.family = afInet
  familyIpv6 : ∀ route ∈ callRoutes (st.latestIpv6 sess), route.family = afInet6

theorem RouteState.Stored.latest {sess : σ} (h : st.Stored sess) :
    st.Latest sess where
  slotsIpv4 := h.slotsIpv4
  slotsIpv6 := h.slotsIpv6
  checkIpv4 pkbuf i addr haddr := by
    rw [← h.slotsIpv4]
    apply checkFramedRoutes_eq
    intro route hroute
    exact wordsIn_ipv4 haddr (h.familyIpv4 route (h.slotsIpv4 ▸ hroute))
  checkIpv6 pkbuf i addr haddr := by
    rw [← h.slotsIpv6]
    apply checkFramedRoutes_eq
    intro route hroute
    exact wordsIn_ipv6 haddr (h.familyIpv6 route (h.slotsIpv6 ▸ hroute))

variable [DecidableEq σ]

/-- The IPv4 setter leaves the routes of the call, whatever it finds in a clean array. -/
theorem setIpv4_self {st : FramedRoutes σ} {sess : σ} (framedRoutes : List (List Char))
    (hclean : (st.ipv4FramedRoutes sess).Clean) :
    usedSlots
        ((upfSessSetUeIpv4FramedRoutes sess framedRoutes st).ipv4FramedRoutes sess).toList =
          callRoutes framedRoutes ∧
      ((upfSessSetUeIpv4FramedRoutes sess framedRoutes st).ipv4FramedRoutes sess).Clean := by
  simp only [upfSessSetUeIpv4FramedRoutes, update_self]
  exact (storeFramedRoutes_spec ..).of_empty hclean

/-- The IPv6 setter leaves the routes of the call exactly if no slot of an earlier call shows. -/
theorem setIpv6_self_iff {st : FramedRoutes σ} {sess : σ} {framedRoutes : List (List Char)}
    (hfamily : ∀ route ∈ callRoutes framedRoutes, route.family ≠ afInet) :
    usedSlots
        ((upfSessSetUeIpv6FramedRoutes sess framedRoutes st).ipv6FramedRoutes sess).toList =
          callRoutes framedRoutes ↔
      Fits (st.ipv6FramedRoutes sess) (framedRoutes.take ogsMaxNumOfFramedRoutesInPdi) := by
  simp only [upfSessSetUeIpv6FramedRoutes, update_self]
  exact (storeFramedRoutes_spec ..).used_iff hfamily

theorem RouteState.Stored.setIpv4 {sess sess' : σ} {framedRoutes : List (List Char)}
    (h : st.Stored sess') (hroutes : ∀ route ∈ callRoutes framedRoutes, route.family = afInet) :
    (st.setIpv4 sess framedRoutes).Stored sess' := by
  by_cases hsess : sess' = sess
  · subst hsess
    obtain ⟨hused, hclean⟩ := setIpv4_self framedRoutes h.clean
    refine ⟨hclean, ?_, h.slotsIpv6, ?_, h.familyIpv6⟩
    · simp only [RouteState.setIpv4, update_self]
      exact hused
    · simp only [RouteState.setIpv4, update_self]
      exact hroutes
  · obtain ⟨clean, slotsIpv4, slotsIpv6, familyIpv4, familyIpv6⟩ := h
    constructor <;>
      simpa only [RouteState.setIpv4, upfSessSetUeIpv4FramedRoutes, update_of_ne hsess]

theorem RouteState.Stored.setIpv6 {sess sess' : σ} {framedRoutes : List (List Char)}
    (h : st.Stored sess') (hroutes : ∀ route ∈ callRoutes framedRoutes, route.family = afInet6)
    (hfits : Fits (st.routes.ipv6FramedRoutes sess)
      (framedRoutes.take ogsMaxNumOfFramedRoutesInPdi)) :
    (st.setIpv6 sess framedRoutes).Stored sess' := by
  by_cases hsess : sess' = sess
  · subst hsess
    have hne (route : IpSubnet) (hroute : route ∈ callRoutes framedRoutes) :
        route.family ≠ afInet := by
      rw [hroutes route hroute]
      decide
    refine ⟨h.clean, h.slotsIpv4, ?_, h.familyIpv4, ?_⟩
    · simp only [RouteState.setIpv6, update_self]
      exact (setIpv6_self_iff hne).mpr hfits
    · simp only [RouteState.setIpv6, update_self]
      exact hroutes
  · obtain ⟨clean, slotsIpv4, slotsIpv6, familyIpv4, familyIpv6⟩ := h
    constructor <;>
      simpa only [RouteState.setIpv6, upfSessSetUeIpv6FramedRoutes, update_of_ne hsess]

theorem RouteState.Stored.after {e : RouteEvent σ} {sess : σ} (h : st.Stored sess) (he : st.Shows e) :
    (st.after e).Stored sess := by
  cases e with
  | setIpv4 sess' framedRoutes => exact h.setIpv4 he
  | setIpv6 sess' framedRoutes => exact h.setIpv6 he.1 he.2
  | remove sess' =>
    apply RouteState.Stored.setIpv6
    · apply h.setIpv4
      rintro route ⟨⟩
    · rintro route ⟨⟩
    · exact .inl rfl

/-- In a run whose calls all meet the conditions, the arrays of every session hold the
routes of its latest calls, and the check of a source address goes by these. -/
theorem latest_routes {events : List (RouteEvent σ)} {st : RouteState σ}
    (h : System.Run (routeSystem σ) RouteState.Shows events st) (sess : σ) : st.Latest sess := by
  have hstored : ∀ sess, st.Stored sess := by
    apply h.invariant
    · rintro st rfl sess
      refine ⟨Slots.clean_none, rfl, rfl, ?_, ?_⟩ <;> rintro route ⟨⟩
    · rintro st e st' hst he rfl sess
      exact (hst sess).after he
  exact (hstored sess).latest

/-- The routes of a first call. -/
def twoRoutes : List (List Char) := ["2001:db8:1::/48".toList, "2001:db8:2::/48".toList]

/-- The route of a second call. -/
def otherRoute : List (List Char) := ["2001:db8:3::/48".toList]

theorem latest_routes_replaced :
    RouteState.Latest
      ((((({} : RouteState Nat).after (.setIpv6 0 twoRoutes)).after (.setIpv6 0 [])).after
        (.setIpv6 0 otherRoute))) 0 :=
  latest_routes (.snoc (.snoc (.snoc (.nil rfl) (by decide) rfl) (by decide) rfl) (by decide) rfl) 0

/-- A second route shows behind the one that replaces the first. -/
theorem latest_routes_fails :
    ¬ ∀ events (st : RouteState Nat), System.Run (routeSystem Nat) System.unrestricted events st →
      ∀ sess, st.Latest sess := by
  intro h
  have hrun := System.run_foldl (S := routeSystem Nat) (f := RouteState.after) (fun _ _ => rfl) rfl
    [.setIpv6 0 twoRoutes, .setIpv6 0 otherRoute]
  have hlen := congrArg List.length (h _ _ hrun 0).slotsIpv6
  revert hlen
  decide

end Quicup.Open5gs
