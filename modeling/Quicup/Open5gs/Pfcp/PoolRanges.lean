import Quicup.Open5gs.Pfcp.UePool

/-!
# The addresses in a pool

The step from one address of a range to the next adds a number whose octets are
swapped, so that a carry out of an octet goes to the octet on its right and the last one
is lost. A pool holds the addresses of its ranges when no such carry is reached.
-/

namespace Quicup.Open5gs.Pfcp

namespace IpVersion

variable (version : IpVersion)

/-- The word that is stepped. -/
def last (a : Vector UInt32 4) : UInt32 :=
  match version with
  | .v4 => a[0]!
  | .v6 => a[1]!

/-- The number of the word in front of it. -/
def upper (a : Vector UInt32 4) : Nat :=
  match version with
  | .v4 => 0
  | .v6 => (swap32 a[0]!).toNat

/-- An address, or a prefix of 64 bits, as a number. -/
def num (a : Vector UInt32 4) : Nat := version.upper a * 2 ^ 32 + (swap32 (version.last a)).toNat

/-- The number of bits of these numbers. -/
def bits : Nat :=
  match version with
  | .v4 => 32
  | .v6 => 64

variable {version} {a b start : Vector UInt32 4} {inc k : Nat}

private theorem swap32_inj {v w : UInt32} (h : (swap32 v).toNat = (swap32 w).toNat) : v = w := by
  rw [← swap32_swap32 v, ← swap32_swap32 w, UInt32.toNat.inj h]

theorem num_div : version.num a / 2 ^ 32 = version.upper a := by
  have hlt := (swap32 (version.last a)).toNat_lt
  rw [num]
  omega

theorem num_mod : version.num a % 2 ^ 32 = (swap32 (version.last a)).toNat := by
  have hlt := (swap32 (version.last a)).toNat_lt
  rw [num]
  omega

theorem same_iff : version.same a b = true ↔ version.num a = version.num b := by
  have hwords : version.num a = version.num b ↔
      version.upper a = version.upper b ∧ version.last a = version.last b := by
    constructor
    · intro h
      refine ⟨by rw [← num_div, h, num_div], swap32_inj ?_⟩
      rw [← num_mod, h, num_mod]
    · rintro ⟨hupper, hlast⟩
      rw [num, num, hupper, hlast]
  rw [hwords]
  cases version with
  | v4 => simp [same, upper, last]
  | v6 =>
    simp only [same, upper, last, decide_eq_true_eq]
    exact and_congr_left' ⟨fun h => by rw [h], swap32_inj⟩

@[simp] theorem num_complete : version.num (version.complete a inc) = version.num a := by
  cases version <;> rfl

@[simp] theorem upper_address : version.upper (version.address start inc) = version.upper start := by
  cases version <;> rfl

@[simp] theorem last_address : version.last (version.address start inc) =
    version.last start + swap32 (.ofNat inc) := by
  cases version <;> rfl

/-- A carry of the last word depends on its octets only. -/
theorem carryFree_num : CarryFree (version.num start) k ↔
    CarryFree (swap32 (version.last start)).toNat k := by
  rw [carryFree_iff, carryFree_iff, num]
  have h0 : (version.upper start * 2 ^ 32 + (swap32 (version.last start)).toNat) % 256 =
      (swap32 (version.last start)).toNat % 256 := by omega
  have h1 : (version.upper start * 2 ^ 32 + (swap32 (version.last start)).toNat) / 2 ^ 8 % 256 =
      (swap32 (version.last start)).toNat / 2 ^ 8 % 256 := by omega
  have h2 : (version.upper start * 2 ^ 32 + (swap32 (version.last start)).toNat) / 2 ^ 16 % 256 =
      (swap32 (version.last start)).toNat / 2 ^ 16 % 256 := by omega
  have h3 : (version.upper start * 2 ^ 32 + (swap32 (version.last start)).toNat) / 2 ^ 24 % 256 =
      (swap32 (version.last start)).toNat / 2 ^ 24 % 256 := by omega
  rw [h0, h1, h2, h3]

/-- A step of a range stays in its word and is without a carry. -/
def Steps (l k : Nat) : Prop := l / 2 ^ 32 = (l + k) / 2 ^ 32 ∧ CarryFree l k

/-- The address that is stepped to is the next one exactly when nothing carries. -/
theorem num_address_eq_iff : version.num (version.address start inc) = version.num start + inc ↔
    Steps (version.num start) inc := by
  have hnum : version.num (version.address start inc) = version.upper start * 2 ^ 32 +
      (swap32 (version.last start + swap32 (.ofNat inc))).toNat := by
    rw [num, upper_address, last_address]
  have hlt := (swap32 (version.last start + swap32 (.ofNat inc))).toNat_lt
  have hword : (version.num start + inc) / 2 ^ 32 = version.num start / 2 ^ 32 →
      (UInt32.ofNat inc).toNat = inc := by
    intro h
    rw [UInt32.toNat_ofNat', Nat.mod_eq_of_lt]
    omega
  rw [Steps, carryFree_num]
  constructor
  · intro h
    have hdiv : (version.num start + inc) / 2 ^ 32 = version.num start / 2 ^ 32 := by
      rw [← h, num_div, num_div, upper_address]
    refine ⟨hdiv.symm, ?_⟩
    have hfree := toNat_swap32_add_eq_iff (w := version.last start) (k := .ofNat inc)
    rw [hword hdiv] at hfree
    refine hfree.mp ?_
    rw [hnum, num] at h
    omega
  · rintro ⟨hdiv, hcarry⟩
    have hfree := toNat_swap32_add_eq_iff (w := version.last start) (k := .ofNat inc)
    rw [hword hdiv.symm] at hfree
    rw [hnum, hfree.mpr hcarry, num, Nat.add_assoc]

/-- Any two addresses of a range that follow in two steps are different. -/
theorem num_address_ne {j : Nat} (h : j % 2 ^ 32 ≠ k % 2 ^ 32) :
    version.num (version.address start j) ≠ version.num (version.address start k) := by
  intro heq
  have hlast : version.last start + swap32 (.ofNat j) = version.last start + swap32 (.ofNat k) := by
    refine swap32_inj ?_
    rw [← last_address, ← last_address, ← num_mod, heq, num_mod]
  have hswap := congrArg swap32 ((UInt32.add_right_inj _).mp hlast)
  rw [swap32_swap32, swap32_swap32] at hswap
  refine h ?_
  rw [← UInt32.toNat_ofNat', ← UInt32.toNat_ofNat', hswap]

end IpVersion

namespace UePoolSubnet

variable (subnet : UePoolSubnet) (version : IpVersion)

/-! ## Termination -/

section Termination

variable (start stop : Vector UInt32 4)

private theorem pigeonhole {x y z a b : Nat} (hx : x = a ∨ x = b) (hy : y = a ∨ y = b)
    (hz : z = a ∨ z = b) (hxy : x ≠ y) (hxz : x ≠ z) (hyz : y ≠ z) : False := by
  omega

/-- Of three addresses in a row at most two are excluded. -/
theorem exists_kept (inc : Nat) : ∃ k ≤ 2,
    subnet.excluded version (version.address start (inc + k)) = false := by
  by_contra hnone
  have hexcluded : ∀ k ≤ 2, version.num (version.address start (inc + k)) =
      version.num subnet.sub ∨ version.num (version.address start (inc + k)) =
        version.num subnet.gw := by
    intro k hk
    have htrue := (Bool.eq_false_or_eq_true (subnet.excluded version
      (version.address start (inc + k)))).resolve_right fun h => hnone ⟨k, hk, h⟩
    rw [excluded, Bool.or_eq_true, IpVersion.same_iff, IpVersion.same_iff] at htrue
    exact htrue
  have hne : ∀ j k, j < k → k ≤ 2 → version.num (version.address start (inc + j)) ≠
      version.num (version.address start (inc + k)) :=
    fun j k hjk hk => IpVersion.num_address_ne (by omega)
  exact pigeonhole (hexcluded 0 (by omega)) (hexcluded 1 (by omega)) (hexcluded 2 (by omega))
    (hne 0 1 (by omega) (by omega)) (hne 0 2 (by omega) (by omega)) (hne 1 2 (by omega) (by omega))

/-- A turn whose address is kept takes an entry, and any other turn does not. -/
theorem fill_ok_succ {turns inc room : Nat}
    (hkept : subnet.excluded version (version.address start inc) = false →
      ∃ pool, subnet.fill version start stop turns (inc + 1) room = .ok pool)
    (hskip : subnet.excluded version (version.address start inc) = true →
      ∃ pool, subnet.fill version start stop turns (inc + 1) (room + 1) = .ok pool) :
    ∃ pool, subnet.fill version start stop (turns + 1) inc (room + 1) = .ok pool := by
  rw [fill]
  split
  · exact ⟨_, rfl⟩
  · cases hexcluded : subnet.excluded version (version.address start inc) with
    | true => exact hskip hexcluded
    | false =>
      obtain ⟨pool, hpool⟩ := hkept hexcluded
      exact ⟨_, by rw [if_neg (by decide), hpool]; rfl⟩

/-- Three turns for each entry are enough. -/
theorem fill_ok (room turns inc : Nat) (hturns : 3 * room ≤ turns) :
    ∃ pool, subnet.fill version start stop turns inc room = .ok pool := by
  induction room generalizing turns inc with
  | zero => exact ⟨[], by cases turns <;> rfl⟩
  | succ room ih =>
    obtain ⟨turns, rfl⟩ : ∃ t, turns = t + 1 + 1 + 1 := ⟨turns - 3, by omega⟩
    obtain ⟨k, hk, hkept⟩ := subnet.exists_kept version start inc
    refine subnet.fill_ok_succ version start stop (fun _ => ih _ _ (by omega)) fun h0 => ?_
    refine subnet.fill_ok_succ version start stop (fun _ => ih _ _ (by omega)) fun h1 => ?_
    refine subnet.fill_ok_succ version start stop (fun _ => ih _ _ (by omega)) fun h2 => ?_
    obtain rfl | rfl | rfl : k = 0 ∨ k = 1 ∨ k = 2 := by omega
    · rw [Nat.add_zero, h0] at hkept
      cases hkept
    · rw [h1] at hkept
      cases hkept
    · rw [show inc + 2 = inc + 1 + 1 from rfl, h2] at hkept
      cases hkept

theorem fillRanges_ok (ranges : List (Option (Vector UInt32 4) × Option (Vector UInt32 4)))
    (room : Nat) : ∃ pool, subnet.fillRanges version ranges room = .ok pool := by
  induction ranges generalizing room with
  | nil => exact ⟨[], rfl⟩
  | cons range ranges ih =>
    obtain ⟨filled, hfilled⟩ := subnet.fill_ok version (subnet.start range.1)
      (subnet.stop version range.2) room (3 * room) 0 (Nat.le_refl _)
    obtain ⟨rest, hrest⟩ := ih (room - filled.length)
    exact ⟨filled ++ rest, by rw [fillRanges, hfilled, Fallible.ok_bind, hrest]; rfl⟩

end Termination

/-! ## The addresses of a range -/

/-- What `ogs_ipsubnet` leaves in a subnet with a prefix of so many bits. -/
structure IsPrefix (len : Nat) : Prop where
  mask : ∀ i : Fin 4, (swap32 subnet.mask[i]).toNat = 2 ^ 32 - 2 ^ (32 - (len - 32 * i))
  sub : ∀ i : Fin 4, (swap32 subnet.sub[i]).toNat % 2 ^ (32 - (len - 32 * i)) = 0

/-- The last address of the subnet. -/
def lastNum (len : Nat) : Nat := version.num subnet.sub + 2 ^ (version.bits - len) - 1

/-- The number behind the last address of a range. -/
def bound (len : Nat) (high : Option (Vector UInt32 4)) : Nat :=
  match high with
  | some high => version.num high + 1
  | none => subnet.lastNum version len

/-- The number that ends the loop: the one behind the last address, but with its last
octet overflown. -/
def endNum (len : Nat) (high : Option (Vector UInt32 4)) : Nat :=
  match high with
  | some high =>
    if version.num high % 256 = 255 then version.num high - 255 else version.num high + 1
  | none => subnet.lastNum version len

variable {subnet version} {len : Nat}

private theorem broadcast_word (h : subnet.IsPrefix len) (i : Fin 4) :
    (swap32 subnet.broadcast[i]).toNat =
      (swap32 subnet.sub[i]).toNat + (2 ^ (32 - (len - 32 * i)) - 1) := by
  have hword : subnet.broadcast[i] = subnet.sub[i] + ~~~subnet.mask[i] := by
    simp [broadcast]
  have hhost : (swap32 (~~~subnet.mask[i])).toNat = 2 ^ (32 - (len - 32 * i)) - 1 := by
    have hle : 2 ^ (32 - (len - 32 * i)) ≤ 2 ^ 32 := Nat.pow_le_pow_right (by decide) (by omega)
    have hpos : 0 < 2 ^ (32 - (len - 32 * i)) := Nat.pow_pos (by decide)
    rw [toNat_swap32_not, h.mask]
    omega
  have hlt : 2 ^ (32 - (len - 32 * i)) - 1 < 2 ^ (32 - (len - 32 * i)) :=
    Nat.sub_lt (Nat.pow_pos (by decide)) Nat.one_pos
  have hfree := carryFree_forall_iff.mpr (agreeLeft_of_aligned (h.sub i) hlt) _ (Nat.le_refl _)
  have hsum := toNat_swap32_add_eq_iff (w := subnet.sub[i]) (k := swap32 (~~~subnet.mask[i]))
  rw [hhost, swap32_swap32] at hsum
  rw [hword]
  exact hsum.mpr hfree

/-- The broadcast address is the last one of the subnet. -/
theorem num_broadcast (h : subnet.IsPrefix len) :
    version.num subnet.broadcast = subnet.lastNum version len := by
  have h0 : (swap32 subnet.broadcast[0]!).toNat =
      (swap32 subnet.sub[0]!).toNat + (2 ^ (32 - len) - 1) := broadcast_word h 0
  have h1 : (swap32 subnet.broadcast[1]!).toNat =
      (swap32 subnet.sub[1]!).toNat + (2 ^ (32 - (len - 32)) - 1) := broadcast_word h 1
  have hpos : ∀ n : Nat, 0 < 2 ^ n := fun n => Nat.pow_pos (by decide)
  cases version with
  | v4 =>
    have hhost := hpos (32 - len)
    simp only [IpVersion.num, IpVersion.upper, IpVersion.last, lastNum, IpVersion.bits, h0]
    omega
  | v6 =>
    simp only [IpVersion.num, IpVersion.upper, IpVersion.last, lastNum, IpVersion.bits, h0, h1]
    rcases Nat.le_total len 32 with hlen | hlen
    · have hhost := hpos (32 - len)
      rw [Nat.sub_eq_zero_of_le hlen, Nat.sub_zero, show 64 - len = 32 - len + 32 by omega,
        Nat.pow_add]
      omega
    · have hhost := hpos (64 - len)
      rw [Nat.sub_eq_zero_of_le hlen, show 32 - (len - 32) = 64 - len by omega, Nat.pow_zero]
      omega

theorem num_stop (h : subnet.IsPrefix len) (high : Option (Vector UInt32 4)) :
    version.num (subnet.stop version high) = subnet.endNum version len high := by
  cases high with
  | none => exact num_broadcast h
  | some high =>
    rw [stop, endNum]
    split
    case isTrue hlast =>
      have hmod : (swap32 (version.last high)).toNat % 256 = 255 := by
        rw [← IpVersion.num_mod]
        omega
      have hwrap := toNat_swap32_add_wrap (w := version.last high) (k := .ofNat 1)
        (by rw [hmod]; rfl) (by decide)
      rw [IpVersion.num, IpVersion.upper_address, IpVersion.last_address, hwrap, hmod,
        IpVersion.num]
      omega
    case isFalse hlast =>
      refine IpVersion.num_address_eq_iff.mpr ⟨by omega, ?_⟩
      rw [carryFree_iff]
      omega

/-! ## When a range is walked from end to end -/

variable (subnet version)

/-- The loop steps from the first address of a range to the last, one by one, and ends
behind it. -/
def Walked (len : Nat) (range : Option (Vector UInt32 4) × Option (Vector UInt32 4)) : Prop :=
  let first := version.num (subnet.start range.1)
  let bound := subnet.bound version len range.2
  (∀ k < bound - first,
    version.num (version.address (subnet.start range.1) k) = first + k ∧
      first + k ≠ version.num (subnet.stop version range.2)) ∧
    version.num (version.address (subnet.start range.1) (bound - first)) =
      version.num (subnet.stop version range.2)

/-- The ends agree in the octets left of the last nonzero octet of the low one, and the
last octet of a high end is not 255 where that of the low one is zero. -/
def Regular (len : Nat) (range : Option (Vector UInt32 4) × Option (Vector UInt32 4)) : Prop :=
  let first := version.num (subnet.start range.1)
  match range.2 with
  | some high => first / 2 ^ 32 = version.num high / 2 ^ 32 ∧ AgreeLeft first (version.num high) ∧
      (version.num high % 256 = 255 → first % 256 ≠ 0)
  | none => first / 2 ^ 32 = subnet.lastNum version len / 2 ^ 32 ∧
      AgreeLeft first (subnet.lastNum version len)

variable {subnet version} {n room turns : Nat} {low : Option (Vector UInt32 4)}
  {pool : List (Vector UInt32 4)} {high : Vector UInt32 4}
  {range : Option (Vector UInt32 4) × Option (Vector UInt32 4)}

private theorem walked_steps {l : Nat} :
    (∀ k ≤ n, IpVersion.Steps l k) ↔ l / 2 ^ 32 = (l + n) / 2 ^ 32 ∧ AgreeLeft l (l + n) := by
  rw [← carryFree_forall_iff]
  constructor
  · exact fun h => ⟨(h n (Nat.le_refl n)).1, fun k hk => (h k hk).2⟩
  · rintro ⟨hword, hfree⟩ k hk
    exact ⟨by omega, hfree k hk⟩

/-- A range without a high end is walked exactly when it is regular. -/
private theorem walked_none_iff (h : subnet.IsPrefix len)
    (hle : version.num (subnet.start low) ≤ subnet.lastNum version len) :
    subnet.Walked version len (low, none) ↔ subnet.Regular version len (low, none) := by
  obtain ⟨n, hn⟩ := Nat.exists_eq_add_of_le hle
  have hsteps := walked_steps (l := version.num (subnet.start low)) (n := n)
  simp only [Walked, Regular, bound, num_stop h, endNum, hn, Nat.add_sub_cancel_left] at hsteps ⊢
  rw [← hsteps]
  constructor
  · rintro ⟨hwalk, hend⟩ k hk
    refine IpVersion.num_address_eq_iff.mp ?_
    rcases Nat.lt_or_eq_of_le hk with hlt | rfl
    · exact (hwalk k hlt).1
    · exact hend
  · intro hall
    refine ⟨fun k hk => ⟨IpVersion.num_address_eq_iff.mpr (hall k hk.le), by omega⟩, ?_⟩
    exact IpVersion.num_address_eq_iff.mpr (hall n (Nat.le_refl n))

/-- A number whose last octet is not 255 agrees with the next one to the left of it. -/
private theorem succ_div_octet {i : Nat} (h : n % 256 ≠ 255) :
    (n + 1) / 256 ^ (i + 1) = n / 256 ^ (i + 1) := by
  rw [Nat.pow_succ', ← Nat.div_div_eq_div_mul, ← Nat.div_div_eq_div_mul]
  congr 1
  omega

private theorem mod_add_of_div_eq {l : Nat} (h : l / 256 = (l + n) / 256)
    (hlast : (l + n) % 256 = 255) : l % 256 + n = 255 := by
  omega

/-- A range with a high end is walked exactly when it is regular. -/
private theorem walked_some_iff (h : subnet.IsPrefix len)
    (hle : version.num (subnet.start low) ≤ version.num high) :
    subnet.Walked version len (low, some high) ↔ subnet.Regular version len (low, some high) := by
  obtain ⟨n, hn⟩ := Nat.exists_eq_add_of_le hle
  have hsteps := walked_steps (l := version.num (subnet.start low)) (n := n)
  have hbound : version.num high + 1 - version.num (subnet.start low) = n + 1 := by omega
  have hmod : version.num (subnet.start low) % 2 ^ 32 =
      (swap32 (version.last (subnet.start low))).toNat := IpVersion.num_mod
  simp only [Walked, Regular, bound, num_stop h, endNum, hbound]
  rw [hn] at *
  rw [← and_assoc, ← hsteps]
  constructor
  · rintro ⟨hwalk, -⟩
    refine ⟨fun k hk => IpVersion.num_address_eq_iff.mp (hwalk k (by omega)).1, fun hlast hzero => ?_⟩
    have hmissed := (hwalk (n - 255) (by omega)).2
    rw [if_pos hlast] at hmissed
    omega
  · rintro ⟨hall, hlast⟩
    obtain ⟨hword, hagree⟩ := hsteps.mp hall
    by_cases hoctet : (version.num (subnet.start low) + n) % 256 = 255
    · -- the last octet overflows on the way to the end, as it does in the end itself
      have hzero := hlast hoctet
      have hoverflow := mod_add_of_div_eq (hagree 0 (by decide) hzero) hoctet
      have hlow : (swap32 (version.last (subnet.start low))).toNat % 256 + n = 255 := by
        rw [← hmod]
        omega
      have hwrap := toNat_swap32_add_wrap (w := version.last (subnet.start low))
        (k := .ofNat (n + 1))
      rw [UInt32.toNat_ofNat', Nat.mod_eq_of_lt (show n + 1 < 2 ^ 32 by omega)] at hwrap
      rw [if_pos hoctet]
      refine ⟨fun k hk => ⟨IpVersion.num_address_eq_iff.mpr (hall k (by omega)), by omega⟩, ?_⟩
      rw [IpVersion.num, IpVersion.upper_address, IpVersion.last_address,
        hwrap (by omega) (by omega), IpVersion.num]
      rw [IpVersion.num] at hoverflow
      omega
    · rw [if_neg hoctet]
      refine ⟨fun k hk => ⟨IpVersion.num_address_eq_iff.mpr (hall k (by omega)), by omega⟩, ?_⟩
      rw [Nat.add_assoc]
      refine IpVersion.num_address_eq_iff.mpr
        (walked_steps.mpr ⟨by omega, ?_⟩ (n + 1) (Nat.le_refl _))
      intro i hi hne
      rw [← Nat.add_assoc, succ_div_octet hoctet]
      exact hagree i hi hne

/-- A range without addresses, whose low end follows the high one. -/
private theorem walked_empty_iff (h : subnet.IsPrefix len)
    (hnext : version.num (subnet.start low) = version.num high + 1) :
    subnet.Walked version len (low, some high) ↔ subnet.Regular version len (low, some high) := by
  have hzero : version.num (version.address (subnet.start low) 0) =
      version.num (subnet.start low) + 0 :=
    IpVersion.num_address_eq_iff.mpr ⟨by rw [Nat.add_zero], carryFree_iff.mpr (by omega)⟩
  simp only [Walked, Regular, bound, num_stop h, endNum, hnext, Nat.sub_self, hzero]
  by_cases hoctet : version.num high % 256 = 255
  · rw [if_pos hoctet]
    constructor
    · rintro ⟨-, hend⟩
      omega
    · rintro ⟨-, -, hlast⟩
      exact absurd (by omega) (hlast hoctet)
  · rw [if_neg hoctet]
    refine ⟨fun _ => ⟨by omega, fun i _ _ => succ_div_octet hoctet, fun hlast => absurd hlast hoctet⟩,
      fun _ => ⟨fun k hk => absurd hk (Nat.not_lt_zero k), rfl⟩⟩

/-- The ends of a range are in order. -/
def Ordered (subnet : UePoolSubnet) (version : IpVersion) (len : Nat)
    (range : Option (Vector UInt32 4) × Option (Vector UInt32 4)) : Prop :=
  version.num (subnet.start range.1) ≤ subnet.bound version len range.2

instance (len : Nat) (range : Option (Vector UInt32 4) × Option (Vector UInt32 4)) :
    Decidable (subnet.Ordered version len range) :=
  inferInstanceAs (Decidable (version.num (subnet.start range.1) ≤
    subnet.bound version len range.2))

/-- A range whose ends are in order is walked from end to end exactly when it is regular. -/
theorem walked_iff (h : subnet.IsPrefix len) (hle : subnet.Ordered version len range) :
    subnet.Walked version len range ↔ subnet.Regular version len range := by
  obtain ⟨low, high | high⟩ := range
  · exact walked_none_iff h hle
  · rw [Ordered, bound] at hle
    rcases Nat.lt_or_eq_of_le hle with hlt | heq
    · exact walked_some_iff h (Nat.le_of_lt_succ hlt)
    · exact walked_empty_iff h heq

/-! ## What a pool holds -/

variable (subnet version)

/-- Neither the network address nor that of the TUN device. -/
def kept (n : Nat) : Bool := n ≠ version.num subnet.sub ∧ n ≠ version.num subnet.gw

/-- The addresses of a range, in order. -/
def addresses (len : Nat) (range : Option (Vector UInt32 4) × Option (Vector UInt32 4)) :
    List Nat :=
  let first := version.num (subnet.start range.1)
  (List.range' first (subnet.bound version len range.2 - first)).filter (subnet.kept version)

/-- So many entries are taken by the first addresses of the range, before anything
carries and before the loop finds an end. -/
def FullBefore (len : Nat) (range : Option (Vector UInt32 4) × Option (Vector UInt32 4))
    (room : Nat) : Prop :=
  let first := version.num (subnet.start range.1)
  room = 0 ∨ ∃ n < subnet.bound version len range.2 - first,
    first / 2 ^ 32 = (first + n) / 2 ^ 32 ∧ AgreeLeft first (first + n) ∧
      (subnet.endNum version len range.2 < first ∨
        first + n < subnet.endNum version len range.2) ∧
      room ≤ ((List.range' first (n + 1)).filter (subnet.kept version)).length

/-- Each range that the loop comes to is regular, or fills the pool before that matters. -/
def Sound (len : Nat) : List (Option (Vector UInt32 4) × Option (Vector UInt32 4)) → Nat → Prop
  | [], _ => True
  | range :: ranges, room =>
    (subnet.Ordered version len range ∧ subnet.Regular version len range ∨
      subnet.FullBefore version len range room) ∧
    Sound len ranges (room - (subnet.addresses version len range).length)

variable {subnet version} {start stop : Vector UInt32 4} {l m : Nat}

theorem excluded_eq (a : Vector UInt32 4) :
    subnet.excluded version a = !subnet.kept version (version.num a) := by
  rw [Bool.eq_iff_iff, excluded, Bool.or_eq_true, IpVersion.same_iff, IpVersion.same_iff, kept,
    Bool.not_eq_true', decide_eq_false_iff_not, not_and_or, not_not, not_not]

/-- From a turn on that has not stepped out of the range, the loop takes the addresses
that are left until the pool is full. -/
theorem map_num_fill
    (hgood : ∀ k < m, version.num (version.address start k) = l + k ∧ l + k ≠ version.num stop)
    {inc : Nat} (hinc : inc ≤ m) (hrun : subnet.fill version start stop turns inc room = .ok pool)
    (hlast : version.num (version.address start m) = version.num stop ∨
      room ≤ ((List.range' (l + inc) (m - inc)).filter (subnet.kept version)).length) :
    pool.map version.num =
      ((List.range' (l + inc) (m - inc)).filter (subnet.kept version)).take room := by
  induction turns generalizing inc room pool with
  | zero =>
    cases room with
    | zero =>
      rw [fill] at hrun
      cases hrun
      rfl
    | succ room => cases hrun
  | succ turns ih =>
    cases room with
    | zero =>
      rw [fill] at hrun
      cases hrun
      rfl
    | succ room =>
      rw [fill] at hrun
      rcases Nat.lt_or_eq_of_le hinc with hlt | rfl
      · obtain ⟨hnum, hne⟩ := hgood inc hlt
        have hrange : List.range' (l + inc) (m - inc) =
            (l + inc) :: List.range' (l + (inc + 1)) (m - (inc + 1)) := by
          rw [show m - inc = (m - (inc + 1)) + 1 by omega, List.range'_succ]
          rfl
        rw [if_neg (mt IpVersion.same_iff.mp (by rwa [hnum]))] at hrun
        rw [excluded_eq, hnum] at hrun
        rw [hrange, List.filter_cons] at hlast ⊢
        cases hkept : subnet.kept version (l + inc) with
        | true =>
          rw [hkept] at hrun hlast
          obtain ⟨rest, hrest, rfl⟩ := Fallible.map_eq_ok.mp hrun
          rw [if_pos rfl, List.take_succ_cons, List.map_cons, IpVersion.num_complete, hnum]
          rw [if_pos rfl, List.length_cons, Nat.add_le_add_iff_right] at hlast
          rw [ih hlt hrest hlast]
        | false =>
          rw [hkept] at hrun hlast
          rw [if_neg Bool.false_ne_true] at hlast ⊢
          exact ih hlt hrun hlast
      · rw [Nat.sub_self, List.range'_zero] at hlast ⊢
        have hend := hlast.resolve_right (Nat.not_succ_le_zero room)
        rw [if_pos (IpVersion.same_iff.mpr hend)] at hrun
        cases hrun
        rfl

/-- A range that is regular, or that is cut before that matters, gives its addresses. -/
theorem map_num_range (h : subnet.IsPrefix len)
    (hsound : subnet.Ordered version len range ∧ subnet.Regular version len range ∨
      subnet.FullBefore version len range room)
    (hrun : subnet.fill version (subnet.start range.1) (subnet.stop version range.2) turns 0 room =
      .ok pool) : pool.map version.num = (subnet.addresses version len range).take room := by
  rw [addresses]
  rcases hsound with ⟨hordered, hregular⟩ | rfl | ⟨n, hn, hword, hagree, hend, hroom⟩
  · obtain ⟨hwalk, hend⟩ := (walked_iff h hordered).mpr hregular
    have hwhole := map_num_fill (l := version.num (subnet.start range.1)) hwalk (Nat.zero_le _) hrun
      (.inl hend)
    rwa [Nat.add_zero, Nat.sub_zero] at hwhole
  · have hnone := map_num_fill (m := 0) (l := version.num (subnet.start range.1))
      (fun k hk => absurd hk (Nat.not_lt_zero k)) (Nat.le_refl 0) hrun (.inr (Nat.zero_le _))
    rwa [List.take_zero] at hnone ⊢
  · have hsteps := walked_steps.mpr ⟨hword, hagree⟩
    have hcut := map_num_fill (m := n + 1) (l := version.num (subnet.start range.1))
      (fun k hk => ⟨IpVersion.num_address_eq_iff.mpr (hsteps k (Nat.le_of_lt_succ hk)),
        by rw [num_stop h]; omega⟩) (Nat.zero_le _) hrun
      (.inr (by rwa [Nat.add_zero, Nat.sub_zero]))
    rw [Nat.add_zero, Nat.sub_zero] at hcut
    obtain ⟨rest, hrest⟩ := Nat.exists_eq_add_of_le (Nat.succ_le_of_lt hn)
    rw [hrest, ← List.range'_append_1, List.filter_append, List.take_append_of_le_length hroom]
    exact hcut

theorem map_num_fillRanges (h : subnet.IsPrefix len)
    {ranges : List (Option (Vector UInt32 4) × Option (Vector UInt32 4))}
    (hsound : subnet.Sound version len ranges room)
    (hrun : subnet.fillRanges version ranges room = .ok pool) :
    pool.map version.num = (ranges.flatMap (subnet.addresses version len)).take room := by
  induction ranges generalizing room pool with
  | nil =>
    cases hrun
    rw [List.flatMap_nil, List.take_nil]
    rfl
  | cons range ranges ih =>
    obtain ⟨hrange, hranges⟩ := hsound
    obtain ⟨filled, hfilled, hrun⟩ := Fallible.bind_eq_ok.mp hrun
    obtain ⟨rest, hrest, hpool⟩ := Fallible.bind_eq_ok.mp hrun
    cases hpool
    have hnum := map_num_range h hrange hfilled
    have hlength : filled.length = min room (subnet.addresses version len range).length := by
      rw [← List.length_map version.num, hnum, List.length_take]
    have hleft : room - filled.length = room - (subnet.addresses version len range).length := by
      omega
    rw [hleft] at hrest
    rw [List.map_append, hnum, ih hranges hrest, List.flatMap_cons, List.take_append]

end UePoolSubnet

/-- The family of a subnet. -/
theorem UePoolSubnet.generate_eq {subnet : UePoolSubnet} {version : IpVersion}
    (hfamily : subnet.family = version.family) (sess : Nat) :
    subnet.generate sess = some <$> subnet.fillRanges version subnet.ranges sess := by
  cases version with
  | v4 => exact if_pos hfamily
  | v6 =>
    have hne : subnet.family ≠ afInet := by
      rw [hfamily]
      decide
    exact (if_neg hne).trans (if_pos hfamily)

/-- A pool is generated for every subnet with a prefix. A range whose ends are in order is
walked from end to end exactly when it is regular, and where each range that is come to is
regular or fills the pool before that matters, the pool holds the addresses of the ranges
in order up to the number of sessions, without duplicates for disjoint ranges. -/
theorem pool_of_ranges (subnet : UePoolSubnet) (version : IpVersion) (len sess : Nat)
    (hfamily : subnet.family = version.family) (h : subnet.IsPrefix len) :
    (∀ range, subnet.Ordered version len range →
      (subnet.Walked version len range ↔ subnet.Regular version len range)) ∧
    ∃ pool, subnet.generate sess = .ok (some pool) ∧
      (subnet.Sound version len subnet.ranges sess →
        pool.map version.num =
          (subnet.ranges.flatMap (subnet.addresses version len)).take sess ∧
        (subnet.ranges.Pairwise (fun r r' => (subnet.addresses version len r).Disjoint
          (subnet.addresses version len r')) → (pool.map version.num).Nodup)) := by
  refine ⟨fun range hordered => UePoolSubnet.walked_iff h hordered, ?_⟩
  obtain ⟨pool, hpool⟩ := subnet.fillRanges_ok version subnet.ranges sess
  refine ⟨pool, by rw [UePoolSubnet.generate_eq hfamily, hpool]; rfl, fun hsound => ?_⟩
  have hnum := UePoolSubnet.map_num_fillRanges h hsound hpool
  refine ⟨hnum, fun hdisjoint => ?_⟩
  rw [hnum]
  refine List.Nodup.sublist (List.take_sublist _ _) (List.nodup_flatMap.mpr ⟨fun range _ => ?_,
    hdisjoint⟩)
  exact List.Nodup.filter _ List.nodup_range'

section Subnet16

/-- An IPv4 address as it lies in memory. -/
private def ipv4 (addr : UInt32) : Vector UInt32 4 := #v[swap32 addr, 0, 0, 0]

/-- 10.45.0.0/16 with the gateway 10.45.0.1 and one range. -/
private def subnet16 (low high : UInt32) : UePoolSubnet where
  family := afInet
  sub := ipv4 0x0a2d0000
  mask := ipv4 0xffff0000
  gw := ipv4 0x0a2d0001
  range := [(some (ipv4 low), some (ipv4 high))]

private theorem subnet16_isPrefix (low high : UInt32) : (subnet16 low high).IsPrefix 16 where
  mask := show ∀ i : Fin 4, (swap32 (ipv4 0xffff0000)[i]).toNat =
    2 ^ 32 - 2 ^ (32 - (16 - 32 * i.val)) by decide
  sub := show ∀ i : Fin 4, (swap32 (ipv4 0x0a2d0000)[i]).toNat %
    2 ^ (32 - (16 - 32 * i.val)) = 0 by decide

/-- The range from 10.45.1.254 to 10.45.1.255 is regular. -/
theorem pool_of_ranges_octet : ∃ pool,
    (subnet16 0x0a2d01fe 0x0a2d01ff).generate 3 = .ok (some pool) ∧
      pool.map IpVersion.v4.num = [0x0a2d01fe, 0x0a2d01ff] := by
  obtain ⟨-, pool, hpool, hsound⟩ := pool_of_ranges (subnet16 0x0a2d01fe 0x0a2d01ff) .v4 16 3 rfl
    (subnet16_isPrefix _ _)
  refine ⟨pool, hpool, (hsound ⟨.inl ⟨?_, ?_⟩, trivial⟩).1.trans ?_⟩
  · decide
  · exact ⟨by decide, by decide, by decide⟩
  · decide

/-- The range from 10.45.1.0 to 10.45.1.255 gives no address. -/
theorem pool_of_octet_empty : ¬ ∀ (subnet : UePoolSubnet) (version : IpVersion) (len sess : Nat),
    subnet.family = version.family → subnet.IsPrefix len →
    (∀ range ∈ subnet.ranges, subnet.Ordered version len range) →
    ∃ pool, subnet.generate sess = .ok (some pool) ∧ pool.map version.num =
      (subnet.ranges.flatMap (subnet.addresses version len)).take sess := by
  intro h
  obtain ⟨pool, hpool, hnum⟩ := h (subnet16 0x0a2d0100 0x0a2d01ff) .v4 16 2 rfl
    (subnet16_isPrefix _ _) (by decide)
  have hempty : (subnet16 0x0a2d0100 0x0a2d01ff).generate 2 = .ok (some []) := by decide
  rw [hempty] at hpool
  rw [← Option.some.inj (Except.ok.inj hpool)] at hnum
  exact absurd hnum (by decide)

end Subnet16

end Quicup.Open5gs.Pfcp
