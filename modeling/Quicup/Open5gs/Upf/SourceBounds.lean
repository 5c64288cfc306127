import Quicup.Open5gs.Upf.UplinkSafety

/-!
# What the spoofing test reads of a packet

The test of `_gtpv1_u_recv_cb` for a spoofed source, with the log of the packets that it
drops, returns just when the words that it compares or shows lie in the packet.
-/

namespace Quicup.Open5gs

open Pkbuf Fallible

/-- The log of a packet that is dropped for its source. That of an IPv6 packet shows the whole
address. -/
def UpfSess.logSpoofing (sess : UpfSess) (pdr : Pdr) (far : Far) (pkbuf : Pkbuf) :
    Except Fault Unit := do
  match ← sess.checkSource pdr far pkbuf with
  | some _ => return ()
  | none =>
    match ← ipV pkbuf, sess.ipv6 with
    | 6, some _ => (pkbuf.words 8).map fun _ => ()
    | _, _ => return ()

/-! ## Sources -/

/-- The words of a packet from an offset on are those of a subnet under its masks. -/
def WordsCovered (packet : List UInt8) : Nat → List (UInt32 × UInt32) → Prop
  | _, [] => True
  | i, (sub, mask) :: rest => sub = wordAt packet i &&& mask ∧ WordsCovered packet (i + 4) rest

/-- The address of so many words at an offset is in a framed route. -/
def InFramedRoute (routes : Option (Vector IpSubnet ogsMaxNumOfFramedRoutesInPdi)) (addrLen : Nat)
    (packet : List UInt8) (i : Nat) : Prop :=
  ∃ slots, routes = some slots ∧
    ∃ route ∈ slots.toList.takeWhile fun route => decide (route.family ≠ 0),
      WordsCovered packet i ((route.sub.toList.zip route.mask.toList).take addrLen)

/-- A word of the address of the UE is that of a packet at an offset. -/
def UeIp.WordAt (ue : UeIp) (k : Nat) (packet : List UInt8) (i : Nat) : Prop :=
  ue.addr[k]? = some (wordAt packet i)

/-- An IPv4 packet comes from the UE or from behind it. -/
def UpfSess.HasSourceIpv4 (sess : UpfSess) (ue : UeIp) (packet : List UInt8) : Prop :=
  ue.WordAt 0 packet 12 ∨ InFramedRoute sess.ipv4FramedRoutes 1 packet 12

def LinkLocalSource (packet : List UInt8) : Prop := wordAt packet 8 &&& 0xffc00000 = 0xfe800000

/-- The interface identifier of a link-local source is that of the UE. -/
def UeIp.HasIdentifier (ue : UeIp) (packet : List UInt8) : Prop :=
  LinkLocalSource packet ∧ ue.WordAt 2 packet 16 ∧ ue.WordAt 3 packet 20

/-- The source address of an IPv6 packet has the prefix of the UE. -/
def UeIp.HasPrefix (ue : UeIp) (packet : List UInt8) : Prop :=
  ue.WordAt 0 packet 8 ∧ ue.WordAt 1 packet 12

/-- An IPv6 packet comes from the UE or from behind it. -/
def UpfSess.HasSourceIpv6 (sess : UpfSess) (ue : UeIp) (packet : List UInt8) : Prop :=
  ue.HasIdentifier packet ∨ ue.HasPrefix packet ∨ InFramedRoute sess.ipv6FramedRoutes 4 packet 8

/-- The source address of an IPv6 packet lies in it. A source with the prefix of the UE needs
its first half only, or three words of a link-local one whose third is not that of the UE. -/
def UeIp.SourceInside (ue : UeIp) (packet : List UInt8) : Prop :=
  23 < packet.length ∨ (15 < packet.length ∧ ue.HasPrefix packet ∧
    (LinkLocalSource packet → 19 < packet.length ∧ ¬ue.WordAt 2 packet 16))

/-- What the test for spoofing reads of a packet lies in it. -/
def UpfSess.SourceInside (sess : UpfSess) (packet : List UInt8) : Prop :=
  (versionAt packet = 4 → sess.ipv4 ≠ none → 15 < packet.length) ∧
    (versionAt packet = 6 → ∀ ue, sess.ipv6 = some ue → ue.SourceInside packet)

/-- A packet has a source that its session allows. -/
def UpfSess.HasSource (sess : UpfSess) (packet : List UInt8) : Prop :=
  (versionAt packet = 4 ∧ ∃ ue, sess.ipv4 = some ue ∧ sess.HasSourceIpv4 ue packet) ∨
    (versionAt packet = 6 ∧ ∃ ue, sess.ipv6 = some ue ∧ sess.HasSourceIpv6 ue packet)

/-- The source of a packet is tested, other than between networks. -/
def Pdr.TestsSource (pdr : Pdr) (far : Far) : Prop :=
  pdr.fromAccess = true ∧ far.dstIfType ≠ some ogsPfcp3gppInterfaceTypeN9ForRoaming

section Source

variable {packet : List UInt8} {sess : UpfSess} {ue : UeIp} {i : Nat}
  {pairs : List (UInt32 × UInt32)} {routes : Option (Vector IpSubnet ogsMaxNumOfFramedRoutesInPdi)}

theorem wordIs_ofData_iff {w : UInt32} {b : Bool} :
    wordIs (ofData packet) i w = .ok b ↔ i + 3 < packet.length ∧ (b = true ↔ wordAt packet i = w) := by
  rw [wordIs, bind_eq_ok]
  simp only [word_ofData_iff]
  constructor
  · rintro ⟨_, ⟨hinside, rfl⟩, h⟩
    obtain rfl := Except.ok.inj h
    exact ⟨hinside, decide_eq_true_iff⟩
  · rintro ⟨hinside, hb⟩
    refine ⟨_, ⟨hinside, rfl⟩, congrArg Except.ok ?_⟩
    rw [Bool.eq_iff_iff, hb, decide_eq_true_iff]

/-- The comparison with a word of the address of the UE. -/
theorem wordIs_addr_iff {k : Nat} (hk : k < 4) {b : Bool} :
    wordIs (ofData packet) i ue.addr[k] = .ok b ↔
      i + 3 < packet.length ∧ (b = true ↔ ue.WordAt k packet i) := by
  rw [wordIs_ofData_iff, UeIp.WordAt, Vector.getElem?_eq_getElem hk, Option.some.injEq,
    eq_comm (a := ue.addr[k])]

theorem wordsIn_ofData_iff {b : Bool} (hinside : i + 4 * pairs.length ≤ packet.length) :
    wordsIn (ofData packet) i pairs = .ok b ↔ (b = true ↔ WordsCovered packet i pairs) := by
  induction pairs generalizing i with
  | nil =>
    rw [wordsIn, WordsCovered, iff_true]
    exact ⟨fun h => (Except.ok.inj h).symm, fun h => congrArg Except.ok h.symm⟩
  | cons pair rest ih =>
    obtain ⟨sub, mask⟩ := pair
    rw [List.length_cons] at hinside
    have hword : (ofData packet).word i = .ok (wordAt packet i) :=
      word_ofData_iff.mpr ⟨by omega, rfl⟩
    rw [wordsIn, WordsCovered, hword, ok_bind]
    split_ifs with hsub
    · rw [and_iff_right hsub]
      exact ih (by omega)
    · simp only [hsub, false_and, iff_false, Bool.not_eq_true]
      exact ⟨fun h => (Except.ok.inj h).symm, fun h => congrArg Except.ok h.symm⟩

theorem checkFramedRoutes_ofData_iff {addrLen : Nat} {b : Bool}
    (hinside : i + 4 * addrLen ≤ packet.length) :
    checkFramedRoutes routes addrLen (ofData packet) i = .ok b ↔
      (b = true ↔ InFramedRoute routes addrLen packet i) := by
  cases routes with
  | none =>
    have hnot : ¬InFramedRoute none addrLen packet i := by
      rintro ⟨slots, h, -⟩
      cases h
    rw [iff_false_right hnot, Bool.not_eq_true]
    exact ⟨fun h => (Except.ok.inj h).symm, fun h => congrArg Except.ok h.symm⟩
  | some slots =>
    have htest (route : IpSubnet) (b : Bool) :
        wordsIn (ofData packet) i ((route.sub.toList.zip route.mask.toList).take addrLen) = .ok b ↔
          True ∧ (b = true ↔
            WordsCovered packet i ((route.sub.toList.zip route.mask.toList).take addrLen)) := by
      rw [true_and]
      apply wordsIn_ofData_iff
      have hle := List.length_take_le addrLen (route.sub.toList.zip route.mask.toList)
      omega
    have hroute : InFramedRoute (some slots) addrLen packet i ↔
        ∃ route ∈ slots.toList.takeWhile fun route => decide (route.family ≠ 0),
          WordsCovered packet i ((route.sub.toList.zip route.mask.toList).take addrLen) := by
      constructor
      · rintro ⟨_, ⟨⟩, h⟩
        exact h
      · intro h
        exact ⟨slots, rfl, h⟩
    rw [hroute]
    have hreturns : Returns ((slots.toList.takeWhile fun route =>
        decide (route.family ≠ 0)).findM? fun route =>
          wordsIn (ofData packet) i ((route.sub.toList.zip route.mask.toList).take addrLen)) :=
      (returns_findM?_iff htest).mpr fun _ _ _ _ _ => trivial
    obtain ⟨found, hfound⟩ := hreturns
    rw [← isSome_of_findM?_iff htest hfound]
    constructor
    · intro h
      obtain ⟨found', hfound', h⟩ := bind_eq_ok.mp h
      obtain rfl := Except.ok.inj (hfound.symm.trans hfound')
      obtain rfl := Except.ok.inj h
      exact Iff.rfl
    · intro h
      refine bind_eq_ok.mpr ⟨found, hfound, congrArg Except.ok ?_⟩
      exact (Bool.eq_iff_iff.mpr h).symm

/-- A subnet that covers words has read them all. -/
theorem inside_of_wordsIn (hne : pairs ≠ []) (h : wordsIn (ofData packet) i pairs = .ok true) :
    i + 4 * pairs.length ≤ packet.length := by
  induction pairs generalizing i with
  | nil => exact absurd rfl hne
  | cons pair rest ih =>
    obtain ⟨sub, mask⟩ := pair
    obtain ⟨word, hword, h⟩ := bind_eq_ok.mp h
    have hinside := (word_ofData_iff.mp hword).1
    rw [List.length_cons]
    split_ifs at h
    · by_cases hrest : rest = []
      · rw [hrest, List.length_nil]
        omega
      · have hle := ih hrest h
        omega
    · cases Except.ok.inj h

/-- A framed route that an IPv6 address is in has read the whole of it. -/
theorem inside_of_checkFramedRoutes (h : checkFramedRoutes routes 4 (ofData packet) 8 = .ok true) :
    23 < packet.length := by
  cases routes with
  | none => cases Except.ok.inj h
  | some slots =>
    obtain ⟨found, hfound, h⟩ := bind_eq_ok.mp h
    obtain ⟨route, rfl⟩ := Option.isSome_iff_exists.mp (Except.ok.inj h)
    obtain ⟨before, after, -, -, hroute⟩ := findM?_eq_some_iff.mp hfound
    have hlength : ((route.sub.toList.zip route.mask.toList).take 4).length = 4 := by simp
    have hne : (route.sub.toList.zip route.mask.toList).take 4 ≠ [] := by
      apply List.ne_nil_of_length_pos
      omega
    have hle := inside_of_wordsIn hne hroute
    omega

theorem sourceIpv4_ofData_iff {b : Bool} :
    sess.sourceIpv4 ue (ofData packet) = .ok b ↔
      15 < packet.length ∧ (b = true ↔ sess.HasSourceIpv4 ue packet) := by
  rw [UpfSess.sourceIpv4, UpfSess.HasSourceIpv4,
    branch_eq_ok_iff fun _ => wordIs_addr_iff (by decide), pure_eq_ok_iff]
  by_cases hinside : 15 < packet.length
  · rw [checkFramedRoutes_ofData_iff hinside]
    tauto
  · exact iff_of_false (fun h => hinside h.1) fun h => hinside h.1

/-- The third word is compared for a link-local source only, and the fourth after it. -/
theorem linkLocal_andM_iff {third fourth : Except Fault Bool} {isThird isFourth : Prop}
    (hthird : ∀ b, third = .ok b ↔ 19 < packet.length ∧ (b = true ↔ isThird))
    (hfourth : ∀ b, fourth = .ok b ↔ 23 < packet.length ∧ (b = true ↔ isFourth)) {b : Bool} :
    (pure (decide (wordAt packet 8 &&& 0xffc00000 = 0xfe800000)) <&&> third <&&> fourth) = .ok b ↔
      (LinkLocalSource packet → 19 < packet.length ∧ (isThird → 23 < packet.length)) ∧
        (b = true ↔ LinkLocalSource packet ∧ isThird ∧ isFourth) := by
  rw [andM_eq_ok_iff, andM_eq_ok_iff, LinkLocalSource]
  simp only [hthird, hfourth, pure_eq_ok_iff]
  by_cases hlocal : wordAt packet 8 &&& 0xffc00000 = 0xfe800000
  · by_cases hisThird : isThird
    · simp [hlocal, hisThird, and_assoc]
    · simp [hlocal, hisThird]
  · simp [hlocal]

/-- The second half of a prefix is compared only after the first. -/
theorem prefix_andM_iff {first second : Except Fault Bool} {isFirst isSecond : Prop}
    (hfirst : ∀ b, first = .ok b ↔ 11 < packet.length ∧ (b = true ↔ isFirst))
    (hsecond : ∀ b, second = .ok b ↔ 15 < packet.length ∧ (b = true ↔ isSecond)) {b : Bool} :
    (first <&&> second) = .ok b ↔
      (11 < packet.length ∧ (isFirst → 15 < packet.length)) ∧
        (b = true ↔ isFirst ∧ isSecond) := by
  rw [andM_eq_ok_iff]
  simp only [hfirst, hsecond]
  by_cases hisFirst : isFirst
  · simp [hisFirst, and_assoc]
  · simp [hisFirst]

/-- The tests of an IPv6 source one after the other. -/
theorem sourceIpv6_eq_ok_iff {b : Bool} :
    sess.sourceIpv6 ue (ofData packet) = .ok b ↔
      11 < packet.length ∧
      (LinkLocalSource packet → 19 < packet.length ∧
        (ue.WordAt 2 packet 16 → 23 < packet.length)) ∧
      (ue.HasIdentifier packet → b = true) ∧
      (¬ue.HasIdentifier packet → (ue.WordAt 0 packet 8 → 15 < packet.length) ∧
        (ue.HasPrefix packet → b = true) ∧
        (¬ue.HasPrefix packet →
          checkFramedRoutes sess.ipv6FramedRoutes 4 (ofData packet) 8 = .ok b)) := by
  have htrue : (pure true : Except Fault Bool) = .ok b ↔ b = true := by
    rw [pure_eq_ok_iff, eq_comm]
  have hword {k : Nat} (hk : k < 4) (i : Nat) (b : Bool) := @wordIs_addr_iff packet ue i k hk b
  have hidentifier (b : Bool) :=
    @linkLocal_andM_iff packet _ _ _ _ (hword (by decide : 2 < 4) 16) (hword (by decide : 3 < 4) 20) b
  have hprefix (b : Bool) :=
    @prefix_andM_iff packet _ _ _ _ (hword (by decide : 0 < 4) 8) (hword (by decide : 1 < 4) 12) b
  constructor
  · intro h
    obtain ⟨word, hword, h⟩ := bind_eq_ok.mp h
    obtain ⟨hinside, rfl⟩ := word_ofData_iff.mp hword
    obtain ⟨hlocal, hyes, hno⟩ := (branch_eq_ok_iff hidentifier).mp h
    refine ⟨hinside, hlocal, fun h => htrue.mp (hyes h), fun hnot => ?_⟩
    obtain ⟨hfirst, hyes, hno⟩ := (branch_eq_ok_iff hprefix).mp (hno hnot)
    exact ⟨hfirst.2, fun h => htrue.mp (hyes h), hno⟩
  · rintro ⟨hinside, hlocal, hyes, hno⟩
    refine bind_eq_ok.mpr ⟨_, word_ofData_iff.mpr ⟨hinside, rfl⟩, ?_⟩
    refine (branch_eq_ok_iff hidentifier).mpr ⟨hlocal, ?_, fun hnot => ?_⟩
    · exact fun h => htrue.mpr (hyes h)
    · obtain ⟨hfirst, hyes, hno⟩ := hno hnot
      refine (branch_eq_ok_iff hprefix).mpr ⟨⟨hinside, hfirst⟩, ?_, hno⟩
      exact fun h => htrue.mpr (hyes h)

/-- The three tests of an IPv6 source that the packet holds all of. -/
theorem sourceIpv6_long_iff {b : Bool} (hlong : 23 < packet.length) :
    sess.sourceIpv6 ue (ofData packet) = .ok b ↔ (b = true ↔ sess.HasSourceIpv6 ue packet) := by
  have h19 : 19 < packet.length := by omega
  have h15 : 15 < packet.length := by omega
  have h11 : 11 < packet.length := by omega
  rw [sourceIpv6_eq_ok_iff, UpfSess.HasSourceIpv6, checkFramedRoutes_ofData_iff (by omega)]
  tauto

/-- An IPv6 source that does not lie in the packet is allowed just when it has the prefix of
the UE, and is not taken for that of an interface identifier. -/
theorem sourceIpv6_short_iff (hshort : ¬23 < packet.length) :
    sess.sourceIpv6 ue (ofData packet) = .ok true ↔ ue.SourceInside packet := by
  rw [sourceIpv6_eq_ok_iff, UeIp.SourceInside, or_iff_right hshort]
  constructor
  · rintro ⟨-, hlocal, -, hprefix⟩
    have hidentifier : ¬ue.HasIdentifier packet := fun h => hshort ((hlocal h.1).2 h.2.1)
    obtain ⟨hfirst, -, hroutes⟩ := hprefix hidentifier
    have hown : ue.HasPrefix packet := by
      by_contra hnot
      exact hshort (inside_of_checkFramedRoutes (hroutes hnot))
    refine ⟨hfirst hown.1, hown, fun h => ⟨(hlocal h).1, fun hthird => ?_⟩⟩
    exact hshort ((hlocal h).2 hthird)
  · rintro ⟨hinside, hown, hlocal⟩
    refine ⟨by omega, fun h => ⟨(hlocal h).1, fun hthird => absurd hthird (hlocal h).2⟩, ?_⟩
    exact ⟨fun _ => rfl, fun _ => ⟨fun _ => hinside, fun _ => rfl, fun hnot => absurd hown hnot⟩⟩

theorem sourceIpv6_ofData_iff {b : Bool} (hinside : ue.SourceInside packet) :
    sess.sourceIpv6 ue (ofData packet) = .ok b ↔ (b = true ↔ sess.HasSourceIpv6 ue packet) := by
  by_cases hlong : 23 < packet.length
  · exact sourceIpv6_long_iff hlong
  have hsource : sess.HasSourceIpv6 ue packet := .inr (.inl (hinside.resolve_left hlong).2.1)
  have htrue : sess.sourceIpv6 ue (ofData packet) = .ok true :=
    (sourceIpv6_short_iff hlong).mpr hinside
  rw [htrue, iff_true_right hsource]
  exact ⟨fun h => (Except.ok.inj h).symm, fun h => congrArg Except.ok h.symm⟩

/-! ## The test -/

variable {pdr : Pdr} {far : Far}

/-- The Ethernet type of a packet of a version. -/
def familyEthertype (version : UInt8) : UInt16 := if version = 4 then ethertypeIp else ethertypeIpv6

theorem checkSource_of_not_testsSource (htests : ¬pdr.TestsSource far) (pkbuf : Pkbuf) :
    sess.checkSource pdr far pkbuf = .ok (some (none, 0)) := by
  rw [UpfSess.checkSource]
  split_ifs with haccess hroaming
  · rfl
  · exact absurd ⟨haccess, hroaming⟩ htests
  · rfl

theorem checkSource_ipv4 (htests : pdr.TestsSource far) (hne : packet ≠ [])
    (hversion : versionAt packet = 4) (hue : sess.ipv4 = some ue) :
    sess.checkSource pdr far (ofData packet) = do
      if ← sess.sourceIpv4 ue (ofData packet) then return some (ue.subnet, ethertypeIp)
      else return none := by
  have hipV : ipV (ofData packet) = .ok 4 := ipV_ofData_iff.mpr ⟨List.length_pos_iff.mpr hne, hversion⟩
  rw [UpfSess.checkSource, if_pos htests.1, if_neg htests.2, hipV, ok_bind, hue]
  cases sess.ipv6 with
  | none => rfl
  | some _ => rfl

theorem checkSource_ipv6 (htests : pdr.TestsSource far) (hne : packet ≠ [])
    (hversion : versionAt packet = 6) (hue : sess.ipv6 = some ue) :
    sess.checkSource pdr far (ofData packet) = do
      if ← sess.sourceIpv6 ue (ofData packet) then return some (ue.subnet, ethertypeIpv6)
      else return none := by
  have hipV : ipV (ofData packet) = .ok 6 := ipV_ofData_iff.mpr ⟨List.length_pos_iff.mpr hne, hversion⟩
  rw [UpfSess.checkSource, if_pos htests.1, if_neg htests.2, hipV, ok_bind, hue]
  cases sess.ipv4 with
  | none => rfl
  | some _ => rfl

theorem checkSource_other (htests : pdr.TestsSource far) (hne : packet ≠ [])
    (hipv4 : versionAt packet = 4 → sess.ipv4 = none)
    (hipv6 : versionAt packet = 6 → sess.ipv6 = none) :
    sess.checkSource pdr far (ofData packet) = .ok none := by
  have hipV : ipV (ofData packet) = .ok (versionAt packet) :=
    ipV_ofData_iff.mpr ⟨List.length_pos_iff.mpr hne, rfl⟩
  rw [UpfSess.checkSource, if_pos htests.1, if_neg htests.2, hipV, ok_bind]
  split
  · rename_i hversion hue
    rw [hipv4 hversion] at hue
    cases hue
  · rename_i _ hversion hue
    rw [hipv6 hversion] at hue
    cases hue
  · rfl

/-- A packet is in a family that the session has an address in, or in none. -/
theorem family_cases (sess : UpfSess) (packet : List UInt8) :
    (∃ ue, versionAt packet = 4 ∧ sess.ipv4 = some ue) ∨
      (∃ ue, versionAt packet = 6 ∧ sess.ipv6 = some ue) ∨
      ((versionAt packet = 4 → sess.ipv4 = none) ∧ (versionAt packet = 6 → sess.ipv6 = none)) := by
  cases hipv4 : sess.ipv4 with
  | none =>
    cases hipv6 : sess.ipv6 with
    | none => exact .inr (.inr ⟨fun _ => rfl, fun _ => rfl⟩)
    | some ue =>
      by_cases hversion : versionAt packet = 6
      · exact .inr (.inl ⟨ue, hversion, rfl⟩)
      · exact .inr (.inr ⟨fun _ => rfl, fun h => absurd h hversion⟩)
  | some ue =>
    by_cases hversion : versionAt packet = 4
    · exact .inl ⟨ue, hversion, rfl⟩
    · cases hipv6 : sess.ipv6 with
      | none => exact .inr (.inr ⟨fun h => absurd h hversion, fun _ => rfl⟩)
      | some ue =>
        by_cases hversion' : versionAt packet = 6
        · exact .inr (.inl ⟨ue, hversion', rfl⟩)
        · exact .inr (.inr ⟨fun h => absurd h hversion, fun h => absurd h hversion'⟩)

theorem sourceInside_ipv4_iff (hversion : versionAt packet = 4) (hue : sess.ipv4 = some ue) :
    sess.SourceInside packet ↔ 15 < packet.length := by
  simp [UpfSess.SourceInside, hversion, hue]

theorem sourceInside_ipv6_iff (hversion : versionAt packet = 6) (hue : sess.ipv6 = some ue) :
    sess.SourceInside packet ↔ ue.SourceInside packet := by
  simp [UpfSess.SourceInside, hversion, hue]

theorem hasSource_ipv4_iff (hversion : versionAt packet = 4) (hue : sess.ipv4 = some ue) :
    sess.HasSource packet ↔ sess.HasSourceIpv4 ue packet := by
  simp [UpfSess.HasSource, hversion, hue]

theorem hasSource_ipv6_iff (hversion : versionAt packet = 6) (hue : sess.ipv6 = some ue) :
    sess.HasSource packet ↔ sess.HasSourceIpv6 ue packet := by
  simp [UpfSess.HasSource, hversion, hue]

/-- What the test for spoofing yields for a source that lies in the packet. -/
theorem checkSource_ofData_iff (htests : pdr.TestsSource far) (hne : packet ≠ [])
    (hinside : sess.SourceInside packet) {found : Option (Option PfcpSubnet × UInt16)} :
    sess.checkSource pdr far (ofData packet) = .ok found ↔
      (sess.HasSource packet → found =
        some (sess.familySubnet (versionAt packet), familyEthertype (versionAt packet))) ∧
      (¬sess.HasSource packet → found = none) := by
  obtain ⟨ue, hversion, hue⟩ | ⟨ue, hversion, hue⟩ | ⟨hipv4, hipv6⟩ := family_cases sess packet
  · have hsubnet : sess.familySubnet 4 = ue.subnet := by simp [UpfSess.familySubnet, hue]
    have hlength := (sourceInside_ipv4_iff hversion hue).mp hinside
    rw [checkSource_ipv4 htests hne hversion hue, hasSource_ipv4_iff hversion hue, hversion, hsubnet,
      branch_eq_ok_iff fun _ => sourceIpv4_ofData_iff, and_iff_right hlength, pure_eq_ok_iff,
      pure_eq_ok_iff, eq_comm, eq_comm (a := none)]
    rfl
  · have hsubnet : sess.familySubnet 6 = ue.subnet := by simp [UpfSess.familySubnet, hue]
    have hue_inside := (sourceInside_ipv6_iff hversion hue).mp hinside
    have hsource (b : Bool) : sess.sourceIpv6 ue (ofData packet) = .ok b ↔
        True ∧ (b = true ↔ sess.HasSourceIpv6 ue packet) := by
      rw [true_and, sourceIpv6_ofData_iff hue_inside]
    rw [checkSource_ipv6 htests hne hversion hue, hasSource_ipv6_iff hversion hue, hversion, hsubnet,
      branch_eq_ok_iff hsource, true_and, pure_eq_ok_iff, pure_eq_ok_iff, eq_comm,
      eq_comm (a := none)]
    rfl
  · have hnot : ¬sess.HasSource packet := by
      rintro (⟨hversion, ue, hue, -⟩ | ⟨hversion, ue, hue, -⟩)
      · rw [hipv4 hversion] at hue
        cases hue
      · rw [hipv6 hversion] at hue
        cases hue
    rw [checkSource_other htests hne hipv4 hipv6]
    constructor
    · intro h
      exact ⟨fun hsource => absurd hsource hnot, fun _ => (Except.ok.inj h).symm⟩
    · intro h
      exact congrArg Except.ok (h.2 hnot).symm

/-- The test and its log return just when the source lies in the packet. -/
theorem returns_logSpoofing_iff (htests : pdr.TestsSource far) (hne : packet ≠ []) :
    Returns (sess.logSpoofing pdr far (ofData packet)) ↔ sess.SourceInside packet := by
  have hipV : ipV (ofData packet) = .ok (versionAt packet) :=
    ipV_ofData_iff.mpr ⟨List.length_pos_iff.mpr hne, rfl⟩
  constructor
  · intro h
    obtain ⟨found, hfound, h⟩ := returns_bind.mp h
    obtain ⟨ue, hversion, hue⟩ | ⟨ue, hversion, hue⟩ | ⟨hipv4, hipv6⟩ := family_cases sess packet
    · rw [checkSource_ipv4 htests hne hversion hue,
        branch_eq_ok_iff fun _ => sourceIpv4_ofData_iff] at hfound
      exact (sourceInside_ipv4_iff hversion hue).mpr hfound.1
    · rw [sourceInside_ipv6_iff hversion hue]
      by_cases hlong : 23 < packet.length
      · exact .inl hlong
      rw [checkSource_ipv6 htests hne hversion hue] at hfound
      obtain ⟨own, hown, hfound⟩ := bind_eq_ok.mp hfound
      cases own with
      | true => exact (sourceIpv6_short_iff hlong).mp hown
      | false =>
        -- a packet that is dropped shows the whole of its source
        obtain rfl := Except.ok.inj hfound
        simp only [hipV, hversion, hue, ok_bind] at h
        obtain ⟨_, h⟩ := h
        obtain ⟨words, hwords, -⟩ := map_eq_ok.mp h
        exact absurd (words_ofData_iff.mp hwords).1 hlong
    · refine ⟨fun hversion hue => absurd (hipv4 hversion) hue, fun hversion ue hue => ?_⟩
      rw [hipv6 hversion] at hue
      cases hue
  · intro hinside
    by_cases hsource : sess.HasSource packet
    · have hfound := (checkSource_ofData_iff htests hne hinside).mpr
        ⟨fun _ => rfl, fun hnot => absurd hsource hnot⟩
      exact returns_bind.mpr ⟨_, hfound, returns_pure _⟩
    · have hfound := (checkSource_ofData_iff htests hne hinside).mpr
        ⟨fun h => absurd h hsource, fun _ => rfl⟩
      refine returns_bind.mpr ⟨_, hfound, ?_⟩
      dsimp only
      rw [hipV, ok_bind]
      split
      · rename_i hversion hue
        have hlong : 23 < packet.length := by
          refine ((sourceInside_ipv6_iff hversion hue).mp hinside).elim id fun hshort => ?_
          exact absurd ((hasSource_ipv6_iff hversion hue).mpr (.inr (.inl hshort.2.1))) hsource
        exact ⟨_, map_eq_ok.mpr ⟨_, words_ofData_iff.mpr ⟨hlong, rfl⟩, rfl⟩⟩
      · exact returns_pure _

theorem logSpoofing_of_not_testsSource (htests : ¬pdr.TestsSource far) (pkbuf : Pkbuf) :
    sess.logSpoofing pdr far pkbuf = .ok () := by
  rw [UpfSess.logSpoofing, checkSource_of_not_testsSource htests, ok_bind]
  rfl

end Source

end Quicup.Open5gs
