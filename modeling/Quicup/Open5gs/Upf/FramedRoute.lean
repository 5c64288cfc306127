import Quicup.Core.PrefixTrie
import Quicup.Core.System
import Quicup.Open5gs.Core.Sockaddr

/-!
# Framed routes of the UPF

`context.c`: a session keeps its framed routes in an array of slots for each IP version.
Two tries lead from the bits of an address to the session that a route was added for last.
-/

namespace Quicup.Open5gs

open BitTrie

variable {σ : Type}

/-! ## The tries -/

/-- The bits of a word, the most significant one first. -/
def wordBits (w : UInt32) : List Bool := (List.range 32).map fun i => w.toNat.testBit (31 - i)

/-- The bits of the first word of an IPv4 address, or of all words of an IPv6 address. -/
def addrBits (family : Nat) (addr : Vector UInt32 4) : List Bool :=
  if family = afInet then wordBits addr[0]! else addr.toList.flatMap wordBits

/-- The bits of the mask and of the address of a route. -/
def IpSubnet.bits (route : IpSubnet) : List (Bool × Bool) :=
  (addrBits route.family route.mask).zip (addrBits route.family route.sub)

/-- The loop of `add_framed_route_to_trie`, which ends at the first bit that is not in
the mask. A node that is not there is made. -/
def addFramedRoute (sess : σ) : List (Bool × Bool) → BitTrie σ → BitTrie σ
  | (true, bit) :: bits, trie =>
    if bit then node (trie.child false) (trie.get []) (addFramedRoute sess bits (trie.child true))
    else node (addFramedRoute sess bits (trie.child false)) (trie.get []) (trie.child true)
  | _, trie => node (trie.child false) (some sess) (trie.child true)

/-- What the first loop of `free_framed_route_from_trie` leaves. -/
structure FreeWalk (σ : Type) where
  trie : BitTrie σ
  i : Nat
  freeFrom : Nat

/-- The first loop of `free_framed_route_from_trie`, which clears the session of the
route and finds the depth below which no node is of use. -/
def freeWalk [DecidableEq σ] : List (Bool × Bool) → Nat → Nat → BitTrie σ → FreeWalk σ
  | _, i, freeFrom, nil => ⟨nil, i, freeFrom⟩
  | (true, true) :: bits, i, freeFrom, node left sess right =>
    let walk := freeWalk bits (i + 1) (if left ≠ nil ∨ sess.isSome then i + 1 else freeFrom) right
    { walk with trie := node left sess walk.trie }
  | (true, false) :: bits, i, freeFrom, node left sess right =>
    let walk := freeWalk bits (i + 1) (if right ≠ nil ∨ sess.isSome then i + 1 else freeFrom) left
    { walk with trie := node walk.trie sess right }
  | _, i, freeFrom, node left _ right =>
    ⟨node left none right, i + 1, if left ≠ nil ∨ right ≠ nil then i + 1 else freeFrom⟩

/-- Unlink the node at a depth. -/
def cutTrie : Nat → List (Bool × Bool) → BitTrie σ → BitTrie σ
  | depth + 1, (_, bit) :: bits, node left sess right =>
    if bit then node left sess (cutTrie depth bits right)
    else node (cutTrie depth bits left) sess right
  | _, _, _ => nil

/-- The second loop of `free_framed_route_from_trie` frees the nodes from a depth on. -/
def FreeWalk.free (walk : FreeWalk σ) (bits : List (Bool × Bool)) : BitTrie σ :=
  if walk.freeFrom < walk.i then cutTrie walk.freeFrom bits walk.trie else walk.trie

/-- `self.ipv4_framed_routes` and `self.ipv6_framed_routes` -/
structure RouteTries (σ : Type) where
  ipv4FramedRoutes : BitTrie σ := nil
  ipv6FramedRoutes : BitTrie σ := nil

/-- The trie for a family. -/
def RouteTries.trie (tries : RouteTries σ) (family : Nat) : BitTrie σ :=
  if family = afInet then tries.ipv4FramedRoutes else tries.ipv6FramedRoutes

def RouteTries.setTrie (tries : RouteTries σ) (family : Nat) (trie : BitTrie σ) : RouteTries σ :=
  if family = afInet then { tries with ipv4FramedRoutes := trie }
  else { tries with ipv6FramedRoutes := trie }

/-- `add_framed_route_to_trie` -/
def addFramedRouteToTrie (tries : RouteTries σ) (route : IpSubnet) (sess : σ) : RouteTries σ :=
  tries.setTrie route.family (addFramedRoute sess route.bits (tries.trie route.family))

/-- `free_framed_route_from_trie` -/
def freeFramedRouteFromTrie [DecidableEq σ] (tries : RouteTries σ) (route : IpSubnet) :
    RouteTries σ :=
  tries.setTrie route.family
    ((freeWalk route.bits 0 0 (tries.trie route.family)).free route.bits)

/-- `upf_sess_find_by_ipv4`, with the table of the addresses of the UEs. -/
def upfSessFindByIpv4 (ipv4Hash : UInt32 → Option σ) (tries : RouteTries σ) (addr : UInt32) :
    Option σ :=
  (ipv4Hash addr).or (tries.ipv4FramedRoutes.longest none (wordBits addr))

/-- `upf_sess_find_by_ipv6`, with the table of the prefixes of the UEs. -/
def upfSessFindByIpv6 (ipv6Hash : UInt32 × UInt32 → Option σ) (tries : RouteTries σ)
    (addr6 : Vector UInt32 4) : Option σ :=
  (ipv6Hash (addr6[0]!, addr6[1]!)).or
    (tries.ipv6FramedRoutes.longest none (addr6.toList.flatMap wordBits))

/-! ## The slots of a session -/

def emptySlot : IpSubnet := ⟨0, Vector.replicate 4 0, Vector.replicate 4 0⟩

/-- `parse_framed_route`, with what the slot holds. -/
def parseFramedRoute (subnet : IpSubnet) (framedRoute : List Char) : Option IpSubnet :=
  match framedRoute.dropWhile (· ≠ '/') with
  | [] => ogsIpsubnet subnet framedRoute none
  | _ :: mask => ogsIpsubnet subnet (framedRoute.takeWhile (· ≠ '/')) (some mask)

/-- A route contains an address of its family that is its subnet under the mask. -/
def IpSubnet.Contains (route : IpSubnet) (family : Nat) (addr : Vector UInt32 4) : Prop :=
  route.family = family ∧
    if family = afInet then route.sub[0]! = addr[0]! &&& route.mask[0]!
    else route.sub = Vector.zipWith (· &&& ·) addr route.mask

instance (route : IpSubnet) (family : Nat) (addr : Vector UInt32 4) :
    Decidable (route.Contains family addr) :=
  inferInstanceAs (Decidable (_ ∧ _))

/-- The slots in front of the first empty one. -/
def usedSlots (slots : List IpSubnet) : List IpSubnet :=
  slots.takeWhile fun slot => slot.family ≠ 0

/-- Clear the slots in front of the first empty one. -/
def clearUsed : List IpSubnet → List IpSubnet
  | [] => []
  | slot :: slots => if slot.family = 0 then slot :: slots else emptySlot :: clearUsed slots

@[simp] theorem length_clearUsed {slots : List IpSubnet} :
    (clearUsed slots).length = slots.length := by
  induction slots with
  | nil => rfl
  | cons slot slots ih => by_cases h : slot.family = 0 <;> simp [clearUsed, h, ih]

/-- The array of a session, or none. -/
abbrev Slots := Option (Vector IpSubnet ogsMaxNumOfFramedRoutesInPdi)

def Slots.toList (slots : Slots) : List IpSubnet :=
  match slots with
  | none => []
  | some slots => slots.toList

/-- The slots of an array, which is made if there is none. -/
def Slots.calloc (slots : Slots) : List IpSubnet :=
  match slots with
  | none => List.replicate ogsMaxNumOfFramedRoutesInPdi emptySlot
  | some slots => slots.toList

@[simp] theorem Slots.length_calloc (slots : Slots) :
    slots.calloc.length = ogsMaxNumOfFramedRoutesInPdi := by
  cases slots <;> simp [calloc]

/-- The loop that stores routes: the `j` slots that it has filled, and those left. -/
structure RouteLoop (σ : Type) where
  stored : List IpSubnet
  slots : List IpSubnet
  size : (stored ++ slots).length = ogsMaxNumOfFramedRoutesInPdi
  tries : RouteTries σ

/-- One string of the loop. The slot of a string that is no route is cleared, and left
for the next string. -/
def RouteLoop.store (sess : σ) (loop : RouteLoop σ) (framedRoute : List Char) : RouteLoop σ :=
  match hslots : loop.slots with
  | [] => loop
  | slot :: slots =>
    match parseFramedRoute slot framedRoute with
    | none =>
      { loop with
        slots := emptySlot :: slots
        size := by simpa [hslots] using loop.size }
    | some route =>
      { stored := loop.stored ++ [route]
        slots := slots
        size := by simpa [hslots] using loop.size
        tries := addFramedRouteToTrie loop.tries route sess }

/-- The array after the loop, which is freed when no route was stored. -/
def RouteLoop.array (loop : RouteLoop σ) : Slots :=
  if loop.stored = [] then none else some ⟨(loop.stored ++ loop.slots).toArray, loop.size⟩

/-- The second loop of both setters, over the strings up to a null pointer. -/
def storeFramedRoutes (sess : σ) (slots : List IpSubnet)
    (hsize : slots.length = ogsMaxNumOfFramedRoutesInPdi) (tries : RouteTries σ)
    (framedRoutes : List (List Char)) : RouteLoop σ :=
  (framedRoutes.take ogsMaxNumOfFramedRoutesInPdi).foldl (RouteLoop.store sess)
    ⟨[], slots, hsize, tries⟩

/-- The tries, and the framed routes of each session. -/
structure FramedRoutes (σ : Type) where
  tries : RouteTries σ := {}
  ipv4FramedRoutes : σ → Slots := fun _ => none
  ipv6FramedRoutes : σ → Slots := fun _ => none

variable [DecidableEq σ]

/-- `upf_sess_set_ue_ipv4_framed_routes` -/
def upfSessSetUeIpv4FramedRoutes (sess : σ) (framedRoutes : List (List Char))
    (st : FramedRoutes σ) : FramedRoutes σ :=
  let slots := st.ipv4FramedRoutes sess
  let tries := (usedSlots slots.toList).foldl freeFramedRouteFromTrie st.tries
  let loop := storeFramedRoutes sess (clearUsed slots.calloc) (by simp) tries framedRoutes
  { st with
    tries := loop.tries
    ipv4FramedRoutes := Function.update st.ipv4FramedRoutes sess loop.array }

/-- `upf_sess_set_ue_ipv6_framed_routes`, which leaves the slots of the old routes as they are. -/
def upfSessSetUeIpv6FramedRoutes (sess : σ) (framedRoutes : List (List Char))
    (st : FramedRoutes σ) : FramedRoutes σ :=
  let slots := st.ipv6FramedRoutes sess
  let tries := (usedSlots slots.toList).foldl freeFramedRouteFromTrie st.tries
  let loop := storeFramedRoutes sess slots.calloc (by simp) tries framedRoutes
  { st with
    tries := loop.tries
    ipv6FramedRoutes := Function.update st.ipv6FramedRoutes sess loop.array }

/-! ## Runs -/

/-- The framed routes, with the strings of the latest call of each setter on a session. -/
structure RouteState (σ : Type) where
  routes : FramedRoutes σ := {}
  latestIpv4 : σ → List (List Char) := fun _ => []
  latestIpv6 : σ → List (List Char) := fun _ => []

inductive RouteEvent (σ : Type)
  | setIpv4 (sess : σ) (framedRoutes : List (List Char))
  | setIpv6 (sess : σ) (framedRoutes : List (List Char))
  | remove (sess : σ)
  deriving DecidableEq

def RouteState.setIpv4 (sess : σ) (framedRoutes : List (List Char)) (st : RouteState σ) :
    RouteState σ :=
  { st with
    routes := upfSessSetUeIpv4FramedRoutes sess framedRoutes st.routes
    latestIpv4 := Function.update st.latestIpv4 sess framedRoutes }

def RouteState.setIpv6 (sess : σ) (framedRoutes : List (List Char)) (st : RouteState σ) :
    RouteState σ :=
  { st with
    routes := upfSessSetUeIpv6FramedRoutes sess framedRoutes st.routes
    latestIpv6 := Function.update st.latestIpv6 sess framedRoutes }

/-- `upf_sess_remove` calls both setters without routes. -/
def RouteState.after (st : RouteState σ) : RouteEvent σ → RouteState σ
  | .setIpv4 sess framedRoutes => st.setIpv4 sess framedRoutes
  | .setIpv6 sess framedRoutes => st.setIpv6 sess framedRoutes
  | .remove sess => (st.setIpv4 sess []).setIpv6 sess []

def routeSystem (σ : Type) [DecidableEq σ] : System (RouteState σ) (RouteEvent σ) where
  init st := st = {}
  step st e st' := st' = st.after e

end Quicup.Open5gs
