import Mathlib.Data.List.TakeDrop
import Quicup.Open5gs.Gtp.Tft

/-!
# Templates that are read safely and read back

A template is read without a failed assertion, and each component from within the content that its
filter declares, just when its fields are complete and the contents end between two components. A
template of which only the flags are sent comes without a length from the builder.
-/

namespace Quicup.Open5gs

open Fallible AssertedRead

/-! ## Components -/

/-- The types that the `switch` has a case for. -/
def tftTypes : List Nat := [48, 16, 17, 35, 33, 34, 32, 64, 80, 65, 81]

/-- Components of the types that a template has. -/
def TftComponents (cs : List PfComponent) : Prop := ∀ c ∈ cs, c ≠ .matchAll

/-- The octets of components. -/
def componentOctets (cs : List PfComponent) : List UInt8 := cs.flatMap PfComponent.octets

section Components

variable {type : UInt8} {s rest : List UInt8} {found : Option PfComponent} {c : PfComponent}

theorem tftFields_unknown (h : type.toNat ∉ tftTypes) : tftFields type = pure none := by
  unfold tftFields
  split
  all_goals first
    | rfl
    | rename_i hvalue
      rw [hvalue] at h
      exact absurd h (by decide)

/-- Every component of a known type is read behind its type. -/
theorem tftFields_fields (hc : c ≠ .matchAll) (rest : List UInt8) :
    tftFields c.type (c.fields ++ rest) = .ok (some c, rest) := by
  cases c with
  | matchAll => exact absurd rfl hc
  | protocolIdentifierNextHeader proto => exact (takeOctet_codes.one _).mpr ⟨proto, rfl, rfl⟩
  | ipv4RemoteAddress addr mask =>
    exact ((takeOctets_codes 4).two (takeOctets_codes 4) _).mpr ⟨addr, mask, rfl, rfl⟩
  | ipv4LocalAddress addr mask =>
    exact ((takeOctets_codes 4).two (takeOctets_codes 4) _).mpr ⟨addr, mask, rfl, rfl⟩
  | ipv6RemoteAddress addr mask =>
    exact ((takeOctets_codes 16).two (takeOctets_codes 16) _).mpr ⟨addr, mask, rfl, rfl⟩
  | ipv6RemoteAddressPrefixLength addr prefixlen =>
    exact ((takeOctets_codes 16).two takeOctet_codes _).mpr ⟨addr, prefixlen, rfl, rfl⟩
  | ipv6LocalAddress addr mask =>
    exact ((takeOctets_codes 16).two (takeOctets_codes 16) _).mpr ⟨addr, mask, rfl, rfl⟩
  | ipv6LocalAddressPrefixLength addr prefixlen =>
    exact ((takeOctets_codes 16).two takeOctet_codes _).mpr ⟨addr, prefixlen, rfl, rfl⟩
  | singleLocalPort low => exact (takeBe16_codes.one _).mpr ⟨low, rfl, rfl⟩
  | localPortRange low high =>
    exact (takeBe16_codes.two takeBe16_codes _).mpr ⟨low, high, rfl, rfl⟩
  | singleRemotePort low => exact (takeBe16_codes.one _).mpr ⟨low, rfl, rfl⟩
  | remotePortRange low high =>
    exact (takeBe16_codes.two takeBe16_codes _).mpr ⟨low, high, rfl, rfl⟩

/-- What is read as a component stands behind its type. -/
theorem tftFields_known (h : type.toNat ∈ tftTypes) (hrun : tftFields type s = .ok (found, rest)) :
    ∃ c, found = some c ∧ c ≠ .matchAll ∧ c.type = type ∧ s = c.fields ++ rest := by
  have htype {x : UInt8} (hx : type.toNat = x.toNat) : type = x := UInt8.toNat_inj.mp hx
  simp only [tftTypes, List.mem_cons, List.not_mem_nil, or_false] at h
  rcases h with h | h | h | h | h | h | h | h | h | h | h
  · obtain rfl := htype (x := 48) h
    obtain ⟨proto, rfl, rfl⟩ := (takeOctet_codes.one _).mp hrun
    exact ⟨_, rfl, nofun, rfl, rfl⟩
  · obtain rfl := htype (x := 16) h
    obtain ⟨addr, mask, rfl, rfl⟩ := ((takeOctets_codes 4).two (takeOctets_codes 4) _).mp hrun
    exact ⟨_, rfl, nofun, rfl, rfl⟩
  · obtain rfl := htype (x := 17) h
    obtain ⟨addr, mask, rfl, rfl⟩ := ((takeOctets_codes 4).two (takeOctets_codes 4) _).mp hrun
    exact ⟨_, rfl, nofun, rfl, rfl⟩
  · obtain rfl := htype (x := 35) h
    obtain ⟨addr, prefixlen, rfl, rfl⟩ := ((takeOctets_codes 16).two takeOctet_codes _).mp hrun
    exact ⟨_, rfl, nofun, rfl, rfl⟩
  · obtain rfl := htype (x := 33) h
    obtain ⟨addr, prefixlen, rfl, rfl⟩ := ((takeOctets_codes 16).two takeOctet_codes _).mp hrun
    exact ⟨_, rfl, nofun, rfl, rfl⟩
  · obtain rfl := htype (x := 34) h
    obtain ⟨addr, mask, rfl, rfl⟩ := ((takeOctets_codes 16).two (takeOctets_codes 16) _).mp hrun
    exact ⟨_, rfl, nofun, rfl, rfl⟩
  · obtain rfl := htype (x := 32) h
    obtain ⟨addr, mask, rfl, rfl⟩ := ((takeOctets_codes 16).two (takeOctets_codes 16) _).mp hrun
    exact ⟨_, rfl, nofun, rfl, rfl⟩
  · obtain rfl := htype (x := 64) h
    obtain ⟨low, rfl, rfl⟩ := (takeBe16_codes.one _).mp hrun
    exact ⟨_, rfl, nofun, rfl, rfl⟩
  · obtain rfl := htype (x := 80) h
    obtain ⟨low, rfl, rfl⟩ := (takeBe16_codes.one _).mp hrun
    exact ⟨_, rfl, nofun, rfl, rfl⟩
  · obtain rfl := htype (x := 65) h
    obtain ⟨low, high, rfl, rfl⟩ := (takeBe16_codes.two takeBe16_codes _).mp hrun
    exact ⟨_, rfl, nofun, rfl, rfl⟩
  · obtain rfl := htype (x := 81) h
    obtain ⟨low, high, rfl, rfl⟩ := (takeBe16_codes.two takeBe16_codes _).mp hrun
    exact ⟨_, rfl, nofun, rfl, rfl⟩

theorem tftFields_iff : tftFields type s = .ok (found, rest) ↔
    (∃ c, found = some c ∧ c ≠ .matchAll ∧ c.type = type ∧ s = c.fields ++ rest) ∨
      found = none ∧ type.toNat ∉ tftTypes ∧ s = rest := by
  constructor
  · intro h
    by_cases hknown : type.toNat ∈ tftTypes
    · exact .inl (tftFields_known hknown h)
    · rw [tftFields_unknown hknown, pure_iff] at h
      exact .inr ⟨h.1.symm, hknown, h.2⟩
  · rintro (⟨c, rfl, hc, rfl, rfl⟩ | ⟨rfl, hunknown, rfl⟩)
    · exact tftFields_fields hc rest
    · rw [tftFields_unknown hunknown, pure_iff]
      exact ⟨rfl, rfl⟩

theorem length_componentOctets_cons (c : PfComponent) (cs : List PfComponent) :
    (componentOctets (c :: cs)).length = c.octets.length + (componentOctets cs).length :=
  List.length_append ..

variable {contentLength slots len : Nat} {cs : List PfComponent}

/-- One turn of the loop. -/
theorem tftComponents_succ_iff (hlen : len < contentLength) {stored : Option (List PfComponent)} :
    tftComponents contentLength (slots + 1) len s = .ok (stored, rest) ↔
      (∃ c more t, c ≠ .matchAll ∧ s = c.octets ++ t ∧
        tftComponents contentLength slots (len + c.octets.length) t = .ok (more, rest) ∧
        stored = more.map (c :: ·)) ∨
      ∃ type : UInt8, stored = none ∧ type.toNat ∉ tftTypes ∧ s = type :: rest := by
  rw [tftComponents, if_pos hlen, bind_iff]
  simp only [takeOctet_iff]
  constructor
  · rintro ⟨type, t, rfl, h⟩
    obtain ⟨found, u, hfields, hfound⟩ := bind_iff.mp h
    obtain ⟨c, rfl, hc, rfl, rfl⟩ | ⟨rfl, hunknown, rfl⟩ := tftFields_iff.mp hfields
    · obtain ⟨more, v, hmore, hstored⟩ := bind_iff.mp hfound
      obtain ⟨rfl, rfl⟩ := pure_iff.mp hstored
      exact .inl ⟨c, more, u, hc, rfl, hmore, rfl⟩
    · obtain ⟨rfl, rfl⟩ := pure_iff.mp hfound
      exact .inr ⟨type, rfl, hunknown, rfl⟩
  · rintro (⟨c, more, t, hc, rfl, hmore, rfl⟩ | ⟨type, rfl, hunknown, rfl⟩)
    · refine ⟨c.type, c.fields ++ t, rfl, bind_iff.mpr ⟨some c, t, tftFields_fields hc t, ?_⟩⟩
      exact bind_iff.mpr ⟨more, rest, hmore, pure_iff.mpr ⟨rfl, rfl⟩⟩
    · refine ⟨type, rest, rfl, bind_iff.mpr ⟨none, rest, ?_, pure_iff.mpr ⟨rfl, rfl⟩⟩⟩
      rw [tftFields_unknown hunknown]
      rfl

theorem tftComponents_done (hlen : ¬len < contentLength) :
    tftComponents contentLength slots len = pure (some []) := by
  cases slots with
  | zero => rw [tftComponents, if_neg hlen]
  | succ slots => rw [tftComponents, if_neg hlen]

/-- The loop goes on until the content is used up. -/
theorem tftComponents_some (h : tftComponents contentLength slots len s = .ok (some cs, rest)) :
    TftComponents cs ∧ cs.length ≤ slots ∧ s = componentOctets cs ++ rest ∧
      contentLength ≤ len + (componentOctets cs).length := by
  induction slots generalizing len s cs with
  | zero =>
    by_cases hlen : len < contentLength
    · rw [tftComponents, if_pos hlen] at h
      obtain ⟨type, t, -, h⟩ := bind_iff.mp h
      cases h
    · rw [tftComponents_done hlen, pure_iff] at h
      obtain ⟨hcs, rfl⟩ := h
      obtain rfl := Option.some.inj hcs
      exact ⟨nofun, Nat.le_refl 0, rfl, by omega⟩
  | succ slots ih =>
    by_cases hlen : len < contentLength
    · obtain ⟨c, more, t, hc, rfl, hmore, hstored⟩ | ⟨type, hnone, -⟩ :=
        (tftComponents_succ_iff hlen).mp h
      · obtain ⟨more, rfl, rfl⟩ := Option.map_eq_some_iff.mp hstored.symm
        obtain ⟨hall, hslots, rfl, hend⟩ := ih hmore
        refine ⟨List.forall_mem_cons.mpr ⟨hc, hall⟩, Nat.succ_le_succ hslots,
          (List.append_assoc ..).symm, ?_⟩
        rw [length_componentOctets_cons]
        omega
      · cases hnone
    · rw [tftComponents_done hlen, pure_iff] at h
      obtain ⟨hcs, rfl⟩ := h
      obtain rfl := Option.some.inj hcs
      exact ⟨nofun, Nat.zero_le _, rfl, by omega⟩

theorem length_octets_pos (c : PfComponent) : 0 < c.octets.length := Nat.succ_pos _

/-- Components that end with the content are stored. -/
theorem tftComponents_eq (hcs : TftComponents cs) (hslots : cs.length ≤ slots)
    (hend : len + (componentOctets cs).length = contentLength) :
    tftComponents contentLength slots len (componentOctets cs ++ rest) = .ok (some cs, rest) := by
  induction cs generalizing slots len with
  | nil =>
    rw [tftComponents_done (by rw [← hend]; exact Nat.not_lt.mpr (Nat.le_refl _)), pure_iff]
    exact ⟨rfl, rfl⟩
  | cons c cs ih =>
    obtain ⟨hc, hcs⟩ := List.forall_mem_cons.mp hcs
    have hpos := length_octets_pos c
    rw [length_componentOctets_cons] at hend
    obtain ⟨slots, rfl⟩ : ∃ n, slots = n + 1 :=
      Nat.exists_eq_add_one.mpr (Nat.lt_of_lt_of_le (Nat.succ_pos _) hslots)
    have hend : len + c.octets.length + (componentOctets cs).length = contentLength := by omega
    have hmore := ih hcs (Nat.le_of_succ_le_succ hslots) hend
    exact (tftComponents_succ_iff (by omega)).mpr
      (.inl ⟨c, some cs, _, hc, List.append_assoc .., hmore, rfl⟩)

/-- The loop is left at an octet of an unknown type in front of the end of the content. -/
theorem tftComponents_none_iff :
    tftComponents contentLength slots len s = .ok (none, rest) ↔
      ∃ (cs : List PfComponent) (type : UInt8), TftComponents cs ∧ cs.length < slots ∧
        len + (componentOctets cs).length < contentLength ∧ type.toNat ∉ tftTypes ∧
        s = componentOctets cs ++ type :: rest := by
  induction slots generalizing len s with
  | zero =>
    refine iff_of_false (fun h => ?_) fun ⟨_, _, _, hslots, _⟩ => Nat.not_lt_zero _ hslots
    by_cases hlen : len < contentLength
    · rw [tftComponents, if_pos hlen] at h
      obtain ⟨type, t, -, h⟩ := bind_iff.mp h
      cases h
    · rw [tftComponents_done hlen, pure_iff] at h
      exact nomatch h.1
  | succ slots ih =>
    by_cases hlen : len < contentLength
    · rw [tftComponents_succ_iff hlen]
      constructor
      · rintro (⟨c, more, t, hc, rfl, hmore, hstored⟩ | ⟨type, -, hunknown, rfl⟩)
        · obtain rfl := Option.map_eq_none_iff.mp hstored.symm
          obtain ⟨cs, type, hcs, hslots, hend, hunknown, rfl⟩ := ih.mp hmore
          refine ⟨c :: cs, type, List.forall_mem_cons.mpr ⟨hc, hcs⟩, Nat.succ_lt_succ hslots, ?_,
            hunknown, (List.append_assoc ..).symm⟩
          rw [length_componentOctets_cons]
          omega
        · exact ⟨[], type, nofun, Nat.succ_pos _, hlen, hunknown, rfl⟩
      · rintro ⟨cs, type, hcs, hslots, hend, hunknown, rfl⟩
        cases cs with
        | nil => exact .inr ⟨type, rfl, hunknown, rfl⟩
        | cons c cs =>
          obtain ⟨hc, hcs⟩ := List.forall_mem_cons.mp hcs
          rw [length_componentOctets_cons] at hend
          refine .inl ⟨c, none, _, hc, List.append_assoc .., ih.mpr ?_, rfl⟩
          exact ⟨cs, type, hcs, Nat.lt_of_succ_lt_succ hslots, by omega, hunknown, rfl⟩
    · rw [tftComponents_done hlen, pure_iff]
      refine iff_of_false (fun h => nomatch h.1) ?_
      rintro ⟨cs, type, -, -, hend, -⟩
      omega

end Components

/-! ## Packet filters -/

/-- A filter holds its components, and they lie in the content that it declares. -/
structure TftPacketFilter.Inside (pf : TftPacketFilter) : Prop where
  few : pf.content.component.length ≤ maxNumOfPacketFilterComponent
  inside : (componentOctets pf.content.component).length ≤ pf.content.length.toNat

/-- So many packet filters stand at the front. The contents of each end between two components, or an
octet of an unknown type comes first. -/
inductive FilterOctets (bare : Bool) : Nat → List UInt8 → Prop
  | done {rest} : FilterOctets bare 0 rest
  | bare {n flags rest} : bare = true → FilterOctets bare n rest →
      FilterOctets bare (n + 1) (flags :: rest)
  | filter {n flags precedence length cs rest} : bare = false → TftComponents cs →
      cs.length ≤ maxNumOfPacketFilterComponent → (componentOctets cs).length = length.toNat →
      FilterOctets bare n rest →
      FilterOctets bare (n + 1) (flags :: precedence :: length :: (componentOctets cs ++ rest))
  | unknown {n flags precedence length cs type rest} : bare = false → TftComponents cs →
      cs.length < maxNumOfPacketFilterComponent → (componentOctets cs).length < length.toNat →
      type.toNat ∉ tftTypes →
      FilterOctets bare (n + 1) (flags :: precedence :: length :: (componentOctets cs ++ type :: rest))

/-- The string has its flags, and the packet filters that they announce. -/
def CompleteTft (octets : List UInt8) : Prop :=
  ∃ flags rest, octets = flags :: rest ∧
    (Tft.code flags = Tft.codeIgnoreThisIe ∨ Tft.hasNoFilters flags = true ∨
      FilterOctets (Tft.hasBareFilters flags) (Tft.numOfPacketFilter flags) rest)

/-- The parser returns, and has read every component from the content of its filter. -/
def TftReadInside (octets : List UInt8) : Prop :=
  ∃ tft size, parseTft octets = .ok (tft, size) ∧ ∀ pf ∈ tft.pf, pf.Inside

section Filters

variable {bare : Bool} {n : Nat} {s rest left : List UInt8} {flags precedence length : UInt8}
  {pf : List TftPacketFilter} {done : Bool} {cs : List PfComponent}

/-- A bare filter is read as its flags. -/
theorem tftPacketFilters_bare (hrun : tftPacketFilters true n rest = .ok ((pf, done), left)) :
    tftPacketFilters true (n + 1) (flags :: rest) = .ok (({ flags } :: pf, done), left) :=
  bind_iff.mpr ⟨flags, rest, takeOctet_iff.mpr rfl, bind_iff.mpr ⟨_, _, hrun, rfl⟩⟩

/-- A filter is read with its components. -/
theorem tftPacketFilters_filter (hcs : TftComponents cs)
    (hslots : cs.length ≤ maxNumOfPacketFilterComponent)
    (hlen : (componentOctets cs).length = length.toNat)
    (hrun : tftPacketFilters false n rest = .ok ((pf, done), left)) :
    tftPacketFilters false (n + 1) (flags :: precedence :: length :: (componentOctets cs ++ rest)) =
      .ok ((⟨flags, precedence, ⟨length, cs⟩⟩ :: pf, done), left) := by
  have hcomponents : tftComponents length.toNat maxNumOfPacketFilterComponent 0
      (componentOctets cs ++ rest) = .ok (some cs, rest) :=
    tftComponents_eq hcs hslots ((Nat.zero_add _).trans hlen)
  refine bind_iff.mpr ⟨flags, _, takeOctet_iff.mpr rfl, ?_⟩
  refine bind_iff.mpr ⟨precedence, _, takeOctet_iff.mpr rfl, ?_⟩
  refine bind_iff.mpr ⟨length, _, takeOctet_iff.mpr rfl, ?_⟩
  exact bind_iff.mpr ⟨some cs, rest, hcomponents, bind_iff.mpr ⟨_, _, hrun, rfl⟩⟩

theorem tftPacketFilters_inside_iff :
    (∃ pf done rest, tftPacketFilters bare n s = .ok ((pf, done), rest) ∧
      ∀ x ∈ pf, x.Inside) ↔ FilterOctets bare n s := by
  induction n generalizing s with
  | zero => exact ⟨fun _ => .done, fun _ => ⟨[], true, s, rfl, nofun⟩⟩
  | succ n ih =>
    constructor
    · rintro ⟨pf, done, rest, hrun, hinside⟩
      obtain ⟨flags, t, ht, hbehind⟩ := bind_iff.mp hrun
      obtain rfl := takeOctet_iff.mp ht
      cases bare with
      | true =>
        obtain ⟨⟨more, done'⟩, u, hmore, hend⟩ := bind_iff.mp hbehind
        obtain ⟨hpf, rfl⟩ := pure_iff.mp hend
        cases hpf
        exact .bare rfl (ih.mp ⟨more, _, u, hmore, (List.forall_mem_cons.mp hinside).2⟩)
      | false =>
        obtain ⟨precedence, u, hu, hcontent⟩ := bind_iff.mp hbehind
        obtain rfl := takeOctet_iff.mp hu
        obtain ⟨length, v, hv, hcomponents⟩ := bind_iff.mp hcontent
        obtain rfl := takeOctet_iff.mp hv
        obtain ⟨found, w, hfound, hfilters⟩ := bind_iff.mp hcomponents
        cases found with
        | none =>
          obtain ⟨cs, type, hcs, hslots, hlen, hunknown, rfl⟩ := tftComponents_none_iff.mp hfound
          exact .unknown rfl hcs hslots (by omega) hunknown
        | some cs =>
          obtain ⟨hcs, hslots, rfl, hlen⟩ := tftComponents_some hfound
          obtain ⟨⟨more, done'⟩, x, hmore, hend⟩ := bind_iff.mp hfilters
          obtain ⟨hpf, rfl⟩ := pure_iff.mp hend
          cases hpf
          obtain ⟨hfirst, hrest⟩ := List.forall_mem_cons.mp hinside
          have hsum : (componentOctets cs).length ≤ length.toNat := hfirst.inside
          exact .filter rfl hcs hslots (by omega) (ih.mp ⟨more, _, _, hmore, hrest⟩)
    · intro h
      cases h with
      | @bare _ flags _ hbare hrest =>
        subst hbare
        obtain ⟨pf, done, rest, hrun, hinside⟩ := ih.mpr hrest
        have hfirst : TftPacketFilter.Inside { flags } := ⟨Nat.zero_le _, Nat.zero_le _⟩
        exact ⟨_, done, rest, tftPacketFilters_bare hrun, List.forall_mem_cons.mpr ⟨hfirst, hinside⟩⟩
      | @filter _ flags precedence length cs _ hbare hcs hslots hlen hrest =>
        subst hbare
        obtain ⟨pf, done, rest, hrun, hinside⟩ := ih.mpr hrest
        have hfirst : TftPacketFilter.Inside ⟨flags, precedence, ⟨length, cs⟩⟩ := ⟨hslots, hlen.le⟩
        exact ⟨_, done, rest, tftPacketFilters_filter hcs hslots hlen hrun,
          List.forall_mem_cons.mpr ⟨hfirst, hinside⟩⟩
      | @unknown _ flags precedence length cs type rest hbare hcs hslots hlen hunknown =>
        subst hbare
        have hcomponents : tftComponents length.toNat maxNumOfPacketFilterComponent 0
            (componentOctets cs ++ type :: rest) = .ok (none, rest) :=
          tftComponents_none_iff.mpr ⟨cs, type, hcs, hslots, by omega, hunknown, rfl⟩
        refine ⟨[], false, rest, ?_, nofun⟩
        refine bind_iff.mpr ⟨flags, _, takeOctet_iff.mpr rfl, ?_⟩
        refine bind_iff.mpr ⟨precedence, _, takeOctet_iff.mpr rfl, ?_⟩
        exact bind_iff.mpr ⟨length, _, takeOctet_iff.mpr rfl,
          bind_iff.mpr ⟨none, rest, hcomponents, rfl⟩⟩

theorem tftReadInside_iff (octets : List UInt8) : TftReadInside octets ↔ CompleteTft octets := by
  have hrun (flags : UInt8) (rest : List UInt8) : parseTft (flags :: rest) =
      if Tft.code flags = Tft.codeIgnoreThisIe then .ok (⟨flags, []⟩, some 1)
      else if Tft.hasNoFilters flags then .ok (⟨flags, []⟩, some 1)
      else tftPacketFilters (Tft.hasBareFilters flags) (Tft.numOfPacketFilter flags) rest >>=
        fun x => pure (⟨flags, x.1.1⟩,
          if x.1.2 then some ((flags :: rest).length - x.2.length) else none) := rfl
  constructor
  · rintro ⟨tft, size, h, hinside⟩
    cases octets with
    | nil => cases h
    | cons flags rest =>
      refine ⟨flags, rest, rfl, ?_⟩
      rw [hrun] at h
      split_ifs at h with hignored hnone
      · exact .inl hignored
      · exact .inr (.inl hnone)
      · obtain ⟨⟨⟨pf, done⟩, left⟩, hfilters, h⟩ := bind_eq_ok.mp h
        cases h
        exact .inr (.inr (tftPacketFilters_inside_iff.mp ⟨pf, done, left, hfilters, hinside⟩))
  · rintro ⟨flags, rest, rfl, h⟩
    rw [TftReadInside, hrun]
    split_ifs with hignored hnone
    · exact ⟨_, _, rfl, List.forall_mem_nil _⟩
    · exact ⟨_, _, rfl, List.forall_mem_nil _⟩
    · obtain ⟨pf, done, left, hfilters, hinside⟩ := tftPacketFilters_inside_iff.mpr
        ((h.resolve_left hignored).resolve_left hnone)
      exact ⟨_, _, bind_eq_ok.mpr ⟨_, hfilters, rfl⟩, hinside⟩

end Filters

/-! ## Templates that are built -/

/-- The octets of a packet filter. -/
def TftPacketFilter.octets (bare : Bool) (pf : TftPacketFilter) : List UInt8 :=
  if bare then [pf.flags]
  else pf.flags :: pf.precedence :: pf.content.length :: componentOctets pf.content.component

/-- A filter that comes with the operation: bare, or with content of the declared length. -/
def TftPacketFilter.WellFormed (bare : Bool) (pf : TftPacketFilter) : Prop :=
  if bare then pf.precedence = 0 ∧ pf.content = {}
  else TftComponents pf.content.component ∧
    pf.content.component.length ≤ maxNumOfPacketFilterComponent ∧
    (componentOctets pf.content.component).length = pf.content.length.toNat

namespace Tft

def octets (tft : Tft) : List UInt8 :=
  tft.flags :: tft.pf.flatMap (TftPacketFilter.octets (hasBareFilters tft.flags))

/-- A template of an operation, with as many filters as its flags say and none where the operation
comes without. -/
structure WellFormed (tft : Tft) : Prop where
  code_ne : code tft.flags ≠ codeIgnoreThisIe
  none : hasNoFilters tft.flags = true → tft.pf = []
  count : tft.pf.length = numOfPacketFilter tft.flags
  filters : ∀ pf ∈ tft.pf, pf.WellFormed (hasBareFilters tft.flags)

/-- What is built, into an IE of which only the length matters, is parsed as the template again. -/
def ReadBack (tft : Tft) (octet : TlvOctet) (buffer : List UInt8) : Prop :=
  ∃ size octet' n, tft.build octet buffer = .ok (some size, octet') ∧
    parseTft octet'.octets = .ok (tft, some n)

end Tft

section Build

variable {bare : Bool} {room : Nat} {written rest buffer : List UInt8} {octet : TlvOctet} {tft : Tft}

/-- Parts that have room are written one behind the other. -/
theorem putAll_eq {α : Type} {put : List UInt8 → α → Except Fault (List UInt8 × Bool)}
    {octets : α → List UInt8} {parts : List α}
    (hput : ∀ part ∈ parts, ∀ written, written.length + (octets part).length ≤ room →
      put written part = .ok (written ++ octets part, true))
    (hroom : written.length + (parts.flatMap octets).length ≤ room) :
    putAll put written parts = .ok (written ++ parts.flatMap octets, true) := by
  induction parts generalizing written with
  | nil =>
    rw [List.flatMap_nil, List.append_nil]
    rfl
  | cons part parts ih =>
    obtain ⟨hpart, hparts⟩ := List.forall_mem_cons.mp hput
    rw [List.flatMap_cons, List.length_append] at hroom
    rw [putAll, hpart written (by omega), ok_bind]
    dsimp only
    rw [if_pos rfl, ih hparts (by rw [List.length_append]; omega), List.flatMap_cons,
      List.append_assoc]

theorem PfComponent.putTft_eq {c : PfComponent} (hc : c ≠ .matchAll)
    (hroom : written.length + c.octets.length ≤ room) :
    c.putTft room written = .ok (written ++ c.octets, true) := by
  have hlength : c.octets.length = 1 + c.fields.length := Nat.add_comm ..
  rw [PfComponent.putTft, putOctets_eq (by rw [List.length_singleton]; omega), ok_bind, if_neg hc,
    putOctets_eq (by rw [List.length_append, List.length_singleton]; omega), ok_bind,
    List.append_assoc]
  rfl

theorem TftPacketFilter.putTft_eq {pf : TftPacketFilter} (h : pf.WellFormed bare)
    (hroom : written.length + (pf.octets bare).length ≤ room) :
    pf.putTft bare room written = .ok (written ++ pf.octets bare, true) := by
  cases bare with
  | true =>
    have hroom : written.length + 1 ≤ room := hroom
    rw [TftPacketFilter.putTft, putOctets_eq hroom, ok_bind, if_pos rfl]
    rfl
  | false =>
    obtain ⟨hcs, -, -⟩ := h
    have hsingle (x : UInt8) : [x].length = 1 := rfl
    have hlength : (pf.octets false).length =
        (componentOctets pf.content.component).length + 1 + 1 + 1 := rfl
    have hcomponents : putAll (PfComponent.putTft room)
        (written ++ [pf.flags] ++ [pf.precedence] ++ [pf.content.length]) pf.content.component =
        .ok (written ++ [pf.flags] ++ [pf.precedence] ++ [pf.content.length] ++
          componentOctets pf.content.component, true) := by
      refine putAll_eq (fun c hc _ => PfComponent.putTft_eq (hcs c hc)) ?_
      change _ + (componentOctets pf.content.component).length ≤ room
      simp only [List.length_append, hsingle]
      omega
    rw [TftPacketFilter.putTft, putOctets_eq (by rw [hsingle]; omega), ok_bind,
      if_neg Bool.false_ne_true, putOctets_eq (by rw [List.length_append, hsingle, hsingle]; omega),
      ok_bind, putOctets_eq (by simp only [List.length_append, hsingle]; omega), ok_bind, hcomponents]
    simp [TftPacketFilter.octets]

/-- Filters are read back from their octets. -/
theorem tftPacketFilters_octets {pf : List TftPacketFilter} (h : ∀ x ∈ pf, x.WellFormed bare) :
    tftPacketFilters bare pf.length (pf.flatMap (TftPacketFilter.octets bare) ++ rest) =
      .ok ((pf, true), rest) := by
  induction pf with
  | nil => rfl
  | cons x pf ih =>
    obtain ⟨hx, hpf⟩ := List.forall_mem_cons.mp h
    obtain ⟨flags, precedence, ⟨length, cs⟩⟩ := x
    cases bare with
    | true =>
      obtain ⟨hprecedence, hcontent⟩ := hx
      cases hprecedence
      cases hcontent
      exact tftPacketFilters_bare (ih hpf)
    | false =>
      obtain ⟨hcs, hslots, hlen⟩ := hx
      rw [List.flatMap_cons, List.append_assoc]
      exact tftPacketFilters_filter hcs hslots hlen (ih hpf)

/-- Only the flags are written, and the length of the IE is left as it was. -/
theorem Tft.build_none (hcode : code tft.flags ≠ codeIgnoreThisIe)
    (hnone : hasNoFilters tft.flags = true) (hbuffer : 255 ≤ buffer.length) :
    tft.build octet buffer =
      .ok (some 1, ⟨tft.flags :: buffer.drop 1, octet.len⟩) := by
  have hroom : ([] : List UInt8).length + [tft.flags].length ≤ buffer.length := by
    simp only [List.length_nil, List.length_singleton]
    omega
  rw [Tft.build, if_neg (by omega), if_neg hcode, putOctets_eq hroom, ok_bind, if_pos hnone]
  rfl

theorem Tft.WellFormed.build_filters (h : tft.WellFormed) (hnone : hasNoFilters tft.flags = false)
    (hbuffer : 255 ≤ buffer.length) (hroom : tft.octets.length ≤ buffer.length) :
    tft.build octet buffer =
      .ok (some tft.octets.length, ⟨overBuffer buffer tft.octets, tft.octets.length⟩) := by
  have hfirst : ([] : List UInt8).length + [tft.flags].length ≤ buffer.length := by
    simp only [List.length_nil, List.length_singleton]
    omega
  have hfilters : putAll (TftPacketFilter.putTft (hasBareFilters tft.flags) buffer.length)
      [tft.flags] tft.pf = .ok (tft.octets, true) := by
    refine putAll_eq (fun pf hpf _ => TftPacketFilter.putTft_eq (h.filters pf hpf)) ?_
    rw [Nat.add_comm]
    exact hroom
  rw [Tft.build, if_neg (by omega), if_neg h.code_ne, putOctets_eq hfirst, ok_bind,
    if_neg (Bool.eq_false_iff.mp hnone), ← h.count, List.takeD_eq_take _ (Nat.le_refl _),
    List.take_length, List.nil_append, hfilters]
  rfl

theorem Tft.WellFormed.parse_octets (h : tft.WellFormed) (hnone : hasNoFilters tft.flags = false) :
    parseTft tft.octets = .ok (tft, some tft.octets.length) := by
  have hfilters : tftPacketFilters (hasBareFilters tft.flags) tft.pf.length
      (tft.pf.flatMap (TftPacketFilter.octets (hasBareFilters tft.flags)) ++ []) =
        .ok ((tft.pf, true), []) := tftPacketFilters_octets h.filters
  rw [List.append_nil, h.count] at hfilters
  change (if code tft.flags = codeIgnoreThisIe then _ else if hasNoFilters tft.flags = true then _
    else _ : Except Fault _) = _
  rw [if_neg h.code_ne, if_neg (Bool.eq_false_iff.mp hnone)]
  exact bind_eq_ok.mpr ⟨_, hfilters, rfl⟩

/-- A well-formed template is read back, unless it has flags alone and the IE had no length. -/
theorem Tft.WellFormed.readBack_iff (h : tft.WellFormed) (hbuffer : 255 ≤ buffer.length)
    (hroom : tft.octets.length ≤ buffer.length) :
    tft.ReadBack octet buffer ↔ hasNoFilters tft.flags = false ∨ 0 < octet.len := by
  cases hnone : hasNoFilters tft.flags with
  | false =>
    refine iff_of_true
      ⟨_, _, tft.octets.length, h.build_filters hnone hbuffer hroom, ?_⟩ (.inl rfl)
    rw [TlvOctet.octets, overBuffer, List.take_left]
    exact h.parse_octets hnone
  | true =>
    rw [Tft.ReadBack, Tft.build_none h.code_ne hnone hbuffer]
    constructor
    · rintro ⟨size, octet', n, hbuild, hparse⟩
      cases hbuild
      refine .inr (Nat.pos_of_ne_zero fun hzero => ?_)
      rw [TlvOctet.octets, hzero] at hparse
      cases hparse
    · rintro (hsome | hlen)
      · cases hsome
      obtain ⟨len, hlen⟩ := Nat.exists_eq_add_one.mpr hlen
      refine ⟨1, _, 1, rfl, ?_⟩
      have hpf : tft = ⟨tft.flags, []⟩ := by
        rw [← h.none hnone]
      rw [TlvOctet.octets, hlen, List.take_succ_cons]
      change (if code tft.flags = codeIgnoreThisIe then _
        else if hasNoFilters tft.flags = true then _ else _ : Except Fault _) = _
      rw [if_neg h.code_ne, if_pos hnone, hpf]
      rfl

end Build

/-- A string is read safely as a template just when its filters are complete. A template that is
built is read back just when the builder comes to the length of the IE, or finds one there. -/
theorem tft_read_iff (octets : List UInt8) (tft : Tft) (octet : TlvOctet) (buffer : List UInt8) :
    (TftReadInside octets ↔ CompleteTft octets) ∧
      (tft.WellFormed → 255 ≤ buffer.length → tft.octets.length ≤ buffer.length →
        (tft.ReadBack octet buffer ↔ Tft.hasNoFilters tft.flags = false ∨ 0 < octet.len)) :=
  ⟨tftReadInside_iff octets, fun h hbuffer hroom => h.readBack_iff hbuffer hroom⟩

theorem tft_read_delete :
    TftReadInside [0x40] ∧ (Tft.ReadBack ⟨0xa1, [⟨0x11, 0, {}⟩]⟩ ⟨[], 0⟩ (List.replicate 255 0)) := by
  have hbuffer : (List.replicate 255 (0 : UInt8)).length = 255 := List.length_replicate
  obtain ⟨hinside, hback⟩ := tft_read_iff [0x40] ⟨0xa1, [⟨0x11, 0, {}⟩]⟩ ⟨[], 0⟩
    (List.replicate 255 0)
  constructor
  · exact hinside.mpr ⟨0x40, [], rfl, .inr (.inl rfl)⟩
  · refine (hback ⟨by decide, by decide, rfl, ?_⟩ hbuffer.ge ?_).mpr (.inl rfl)
    · exact List.forall_mem_singleton.mpr ⟨rfl, rfl⟩
    · rw [hbuffer]
      decide

/-- A port that goes past the end of the content of its filter, a template that is cut off, and one
that deletes, which comes with no octets from the builder. -/
theorem not_tftReadInside :
    ¬TftReadInside [0x21, 0x31, 0, 2, 64, 1, 2] ∧ ¬TftReadInside [0x21] ∧
      ¬Tft.ReadBack ⟨0x40, []⟩ ⟨[], 0⟩ (List.replicate 255 0) := by
  refine ⟨?_, ?_, ?_⟩
  · rintro ⟨tft, size, h, hinside⟩
    cases h
    exact absurd (hinside _ List.mem_cons_self).inside (by decide)
  · rintro ⟨tft, size, h, -⟩
    cases h
  · have hbuffer : (List.replicate 255 (0 : UInt8)).length = 255 := List.length_replicate
    rintro ⟨size, octet', n, hbuild, hparse⟩
    rw [Tft.build_none (by decide) rfl hbuffer.ge] at hbuild
    cases hbuild
    cases hparse

end Quicup.Open5gs
