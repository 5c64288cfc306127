import Quicup.Open5gs.Gtp.HeaderBounds

/-!
# The header parser with and without a descriptor

Without a descriptor `ogs_gtpu_parse_header` goes over any number of extension headers. With
one it refuses eight of them, and it reads the mandatory header of a datagram that has none.
Either way it looks for a next header that is announced by the last octet of the datagram.
-/

namespace Quicup.Open5gs

open Pkbuf Fallible

/-- The loop over the extension headers without a descriptor: `i` stays zero. -/
def gtpuSkipExtensionHeaders (pkbuf : Pkbuf) : Nat → Nat → Except Fault (Option Nat)
  | 0, _ => .error .hang
  | turns + 1, len => do
    let type ← pkbuf.octet (len - 1)
    if type = 0 then return some len
    else do
      let units ← pkbuf.octet len
      let next := (len + units.toNat * 4) % 65536
      if units = 0 then return none
      else if units.toNat * 4 > 4 then return none
      else if pkbuf.len < next then return none
      else gtpuSkipExtensionHeaders pkbuf turns next

/-- `ogs_gtpu_parse_header` without a descriptor. The loop has as many turns as the packet has
octets. -/
def gtpuSkipHeader (pkbuf : Pkbuf) : Except Fault (Option Nat) :=
  if pkbuf.len < 8 then .ok none
  else do
    let flags ← pkbuf.octet 0
    if flags &&& gtpuFlagsE ≠ 0 then
      if pkbuf.len < 12 then return none
      else do
        let len ← gtpuSkipExtensionHeaders pkbuf pkbuf.len 12
        return len.filter (· ≤ pkbuf.len)
    else
      let len := if flags &&& (gtpuFlagsS ||| gtpuFlagsPn) ≠ 0 then 12 else 8
      return (some len).filter (· ≤ pkbuf.len)

section Modes

variable (packet : List UInt8)

/-- From the offset behind a type octet on, the headers that are skipped lead to a header length
or to a refusal. -/
inductive SkippedHeaders : Nat → Option Nat → Prop
  | last {len} : len - 1 < packet.length → octetAt packet (len - 1) = 0 →
      SkippedHeaders len (some len)
  | refused {len} : octetAt packet (len - 1) ≠ 0 → len < packet.length →
      (octetAt packet len = 1 → packet.length < len + 4) → SkippedHeaders len none
  | header {len found} : octetAt packet (len - 1) ≠ 0 → octetAt packet len = 1 →
      len + 4 ≤ packet.length → SkippedHeaders (len + 4) found → SkippedHeaders len found

/-- A chain of extension headers that lies in the packet, with the lengths of its headers. -/
inductive ExtensionChain : Nat → List Nat → Prop
  | last {len} : len ≤ packet.length → octetAt packet (len - 1) = 0 → ExtensionChain len []
  | header {len lens} : octetAt packet (len - 1) ≠ 0 → len < packet.length →
      octetAt packet len ≠ 0 → ExtensionChain (len + (octetAt packet len).toNat * 4) lens →
      ExtensionChain len ((octetAt packet len).toNat * 4 :: lens)

/-- Headers of four octets lead from one offset to another. -/
inductive ShortHeaders : Nat → Nat → Prop
  | here {len} : ShortHeaders len len
  | header {len stop} : octetAt packet (len - 1) ≠ 0 → octetAt packet len = 1 →
      len + 4 ≤ packet.length → ShortHeaders (len + 4) stop → ShortHeaders len stop

/-- The header is complete in the packet and has extension headers of these lengths. -/
def WellFormedHeader (lens : List Nat) : Prop :=
  8 ≤ packet.length ∧
    if octetAt packet 0 &&& gtpuFlagsE ≠ 0 then 12 ≤ packet.length ∧ ExtensionChain packet 12 lens
    else plainLength packet ≤ packet.length ∧ lens = []

/-- The mandatory header, the optional word and the extension headers. -/
def headerLength (lens : List Nat) : Nat :=
  if octetAt packet 0 &&& gtpuFlagsE ≠ 0 then 8 + 4 + lens.sum else plainLength packet + lens.sum

/-- In both modes the parser stays inside the packet and returns the same. What it returns is the
length of a complete header, and a complete header with eight extension headers at most is
accepted. -/
def ParsedAlike : Prop :=
  ∃ found, (∃ desc, gtpuParseHeader (ofData packet) = .ok (found, desc)) ∧
    gtpuSkipHeader (ofData packet) = .ok found ∧
    (∀ len, found = some len → len ≤ packet.length ∧
      ∃ lens, WellFormedHeader packet lens ∧ len = headerLength packet lens) ∧
    ∀ lens, WellFormedHeader packet lens → lens.length ≤ 8 →
      found = some (headerLength packet lens)

/-- With so many entries left, no header is announced by the last octet of the packet behind headers
of four octets, and a complete chain that has few headers, or headers of four octets alone, leaves
an entry and has no others. -/
structure ShortChain (left len : Nat) : Prop where
  announced : ShortHeaders packet len packet.length → octetAt packet (packet.length - 1) = 0
  short : ∀ lens, ExtensionChain packet len lens → (lens.length ≤ left ∨ ∀ n ∈ lens, n = 4) →
    lens.length < left ∧ ∀ n ∈ lens, n = 4

variable {packet} {left len : Nat} {found : Option Nat} {lens : List Nat}

theorem gtpuSkipExtensionHeaders_ofData_iff {turns : Nat} (hmax : packet.length < 65532)
    (hlen : len ≤ packet.length) (hturns : packet.length < len + 4 * turns) :
    gtpuSkipExtensionHeaders (ofData packet) turns len = .ok found ↔
      SkippedHeaders packet len found := by
  induction turns generalizing len with
  | zero => omega
  | succ turns ih =>
    have hnext (hone : octetAt packet len = 1) :
        (len + (octetAt packet len).toNat * 4) % 65536 = len + 4 := by
      rw [hone, UInt8.toNat_one]
      omega
    constructor
    · intro h
      obtain ⟨type, htype, h⟩ := bind_eq_ok.mp h
      obtain ⟨hinside, rfl⟩ := octet_ofData_iff.mp htype
      split_ifs at h with hlast
      · obtain rfl := Except.ok.inj h
        exact .last hinside hlast
      obtain ⟨units, hunits, h⟩ := bind_eq_ok.mp h
      obtain ⟨hlt, rfl⟩ := octet_ofData_iff.mp hunits
      dsimp only at h
      split_ifs at h with hzero hlong hshort
      · obtain rfl := Except.ok.inj h
        exact .refused hlast hlt fun hone => absurd hzero ((units_accepted_iff _).mpr hone).1
      · obtain rfl := Except.ok.inj h
        exact .refused hlast hlt fun hone => absurd hlong ((units_accepted_iff _).mpr hone).2
      · obtain rfl := Except.ok.inj h
        refine .refused hlast hlt fun hone => ?_
        rw [hnext hone] at hshort
        exact hshort
      · have hone : octetAt packet len = 1 := (units_accepted_iff _).mp ⟨hzero, hlong⟩
        rw [hnext hone] at h hshort
        have hroom : len + 4 ≤ packet.length := Nat.le_of_not_lt hshort
        exact .header hlast hone hroom ((ih hroom (by omega)).mp h)
    · intro h
      cases h with
      | last hinside hlast =>
        refine bind_eq_ok.mpr ⟨_, octet_ofData_iff.mpr ⟨hinside, rfl⟩, ?_⟩
        rw [if_pos hlast]
        rfl
      | refused hmore hlt hnot =>
        refine bind_eq_ok.mpr ⟨_, octet_ofData_iff.mpr ⟨by omega, rfl⟩, ?_⟩
        rw [if_neg hmore]
        refine bind_eq_ok.mpr ⟨_, octet_ofData_iff.mpr ⟨hlt, rfl⟩, ?_⟩
        dsimp only
        split_ifs with hzero hlong hshort
        · rfl
        · rfl
        · rfl
        · have hone : octetAt packet len = 1 := (units_accepted_iff _).mp ⟨hzero, hlong⟩
          rw [hnext hone] at hshort
          exact absurd (hnot hone) hshort
      | header hmore hone hroom hrest =>
        obtain ⟨hzero, hlong⟩ := (units_accepted_iff _).mpr hone
        refine bind_eq_ok.mpr ⟨_, octet_ofData_iff.mpr ⟨by omega, rfl⟩, ?_⟩
        rw [if_neg hmore]
        refine bind_eq_ok.mpr ⟨_, octet_ofData_iff.mpr ⟨by omega, rfl⟩, ?_⟩
        have hshort : ¬(ofData packet).len < len + 4 := Nat.not_lt.mpr hroom
        dsimp only
        rw [if_neg hzero, if_neg hlong, hnext hone, if_neg hshort]
        exact (ih hroom (by omega)).mpr hrest

/-! ## One header of a chain -/

theorem extensionChain_last_iff (hlen : len ≤ packet.length) (hlast : octetAt packet (len - 1) = 0) :
    ExtensionChain packet len lens ↔ lens = [] := by
  constructor
  · intro h
    cases h with
    | last => rfl
    | header hmore => exact absurd hlast hmore
  · rintro rfl
    exact .last hlen hlast

theorem not_extensionChain_nil (hmore : octetAt packet (len - 1) ≠ 0) :
    ¬ExtensionChain packet len [] := by
  intro h
  cases h with
  | last _ hlast => exact hmore hlast

theorem extensionChain_header_iff (hmore : octetAt packet (len - 1) ≠ 0)
    (hone : octetAt packet len = 1) (hlt : len < packet.length) :
    ExtensionChain packet len lens ↔
      ∃ rest, lens = 4 :: rest ∧ ExtensionChain packet (len + 4) rest := by
  have hfour : (octetAt packet len).toNat * 4 = 4 := by rw [hone, UInt8.toNat_one]
  constructor
  · intro h
    cases h with
    | last _ hlast => exact absurd hlast hmore
    | header _ _ _ hrest =>
      rw [hfour] at hrest ⊢
      exact ⟨_, rfl, hrest⟩
  · rintro ⟨rest, rfl, hrest⟩
    have hchain := ExtensionChain.header hmore hlt (hone ▸ by decide) (hfour.symm ▸ hrest)
    rwa [hfour] at hchain

theorem shortHeaders_of_end (hmore : octetAt packet (len - 1) = 0 ∨ octetAt packet len ≠ 1 ∨
    packet.length < len + 4) {stop : Nat} (h : ShortHeaders packet len stop) : stop = len := by
  cases h with
  | here => rfl
  | header hnext hone hroom =>
    rcases hmore with hlast | hne | hshort
    · exact absurd hlast hnext
    · exact absurd hone hne
    · omega

/-- Behind the end of the chain no header is looked for. -/
theorem shortChain_last (hlen : len ≤ packet.length) (hlast : octetAt packet (len - 1) = 0) :
    ShortChain packet left len ↔ 0 < left := by
  constructor
  · intro h
    exact (h.short [] (.last hlen hlast) (.inl (Nat.zero_le _))).1
  · intro h
    refine ⟨fun hheaders => ?_, fun lens hchain _ => ?_⟩
    · rw [shortHeaders_of_end (.inl hlast) hheaders]
      exact hlast
    · rw [(extensionChain_last_iff hlen hlast).mp hchain]
      exact ⟨h, nofun⟩

/-- A header that is not there is not looked for. -/
theorem shortChain_end (hmore : octetAt packet (packet.length - 1) ≠ 0) :
    ¬ShortChain packet left packet.length :=
  fun h => hmore (h.announced .here)

/-- A header that is refused leaves no complete chain of few headers. -/
theorem shortChain_refused (hmore : octetAt packet (len - 1) ≠ 0) (hlt : len < packet.length)
    (hnot : octetAt packet len = 1 → packet.length < len + 4) :
    ShortChain packet left len ↔ ∀ lens, ExtensionChain packet len lens → ¬lens.length ≤ left := by
  have hfour {lens : List Nat} (hchain : ExtensionChain packet len lens) : ¬∀ n ∈ lens, n = 4 := by
    intro hall
    cases hchain with
    | last _ hlast => exact hmore hlast
    | header _ _ _ hrest =>
      have hunits : (octetAt packet len).toNat * 4 = 4 := hall _ List.mem_cons_self
      have hone : octetAt packet len = 1 := by
        rw [← UInt8.toNat_inj, UInt8.toNat_one]
        omega
      rw [hunits] at hrest
      have hroom := hnot hone
      cases hrest with
      | last hend => omega
      | header _ hend => omega
  constructor
  · intro h lens hchain hfew
    exact hfour hchain (h.short lens hchain (.inl hfew)).2
  · intro h
    refine ⟨fun hheaders => ?_, fun lens hchain hshort => ?_⟩
    · have hend : octetAt packet len ≠ 1 ∨ packet.length < len + 4 := by
        by_cases hone : octetAt packet len = 1
        · exact .inr (hnot hone)
        · exact .inl hone
      have := shortHeaders_of_end (.inr hend) hheaders
      omega
    · rcases hshort with hfew | hall
      · exact absurd hfew (h lens hchain)
      · exact absurd hall (hfour hchain)

/-- A header of four octets takes an entry. -/
theorem shortChain_header (hmore : octetAt packet (len - 1) ≠ 0) (hone : octetAt packet len = 1)
    (hroom : len + 4 ≤ packet.length) :
    ShortChain packet left len ↔ ShortChain packet (left - 1) (len + 4) := by
  have hlt : len < packet.length := by omega
  constructor
  · intro h
    refine ⟨fun hheaders => h.announced (.header hmore hone hroom hheaders), fun lens hchain hs => ?_⟩
    have hlonger := h.short (4 :: lens)
      ((extensionChain_header_iff hmore hone hlt).mpr ⟨lens, rfl, hchain⟩)
    rw [List.length_cons, List.forall_mem_cons] at hlonger
    have hfew : lens.length + 1 ≤ left ∨ 4 = 4 ∧ ∀ n ∈ lens, n = 4 := by
      rcases hs with hfew | hall
      · by_cases hleft : left = 0
        · have hnil : lens = [] := List.length_eq_zero_iff.mp (by omega)
          exact .inr ⟨rfl, hnil ▸ nofun⟩
        · exact .inl (by omega)
      · exact .inr ⟨rfl, hall⟩
    obtain ⟨hless, -, hall⟩ := hlonger hfew
    exact ⟨by omega, hall⟩
  · intro h
    refine ⟨fun hheaders => ?_, fun lens hchain hs => ?_⟩
    · cases hheaders with
      | here => omega
      | header _ _ _ hrest => exact h.announced hrest
    · obtain ⟨rest, rfl, hrest⟩ := (extensionChain_header_iff hmore hone hlt).mp hchain
      rw [List.length_cons, List.forall_mem_cons] at hs ⊢
      obtain ⟨hless, hall⟩ := h.short rest hrest (hs.imp (by omega) And.right)
      exact ⟨by omega, rfl, hall⟩

/-! ## Chains -/

/-- What a walk comes to: the end of the chain, the end of the packet, a header of four octets or one
that is refused. -/
theorem walk_cases (hlen : len ≤ packet.length) :
    octetAt packet (len - 1) = 0 ∨ octetAt packet (len - 1) ≠ 0 ∧
      (len = packet.length ∨ octetAt packet len = 1 ∧ len + 4 ≤ packet.length ∨
        len < packet.length ∧ (octetAt packet len = 1 → packet.length < len + 4)) := by
  by_cases hlast : octetAt packet (len - 1) = 0
  · exact .inl hlast
  · refine .inr ⟨hlast, ?_⟩
    by_cases hone : octetAt packet len = 1
    · simp only [hone, true_and, true_imp_iff]
      omega
    · simp only [hone, false_and, false_imp_iff, false_or, and_true]
      omega

theorem skippedHeaders_header_iff (hmore : octetAt packet (len - 1) ≠ 0)
    (hone : octetAt packet len = 1) (hroom : len + 4 ≤ packet.length) :
    SkippedHeaders packet len found ↔ SkippedHeaders packet (len + 4) found := by
  constructor
  · intro h
    cases h with
    | last _ hlast => exact absurd hlast hmore
    | refused _ _ hnot => exact absurd hroom (Nat.not_le.mpr (hnot hone))
    | header _ _ _ hrest => exact hrest
  · exact .header hmore hone hroom

/-- Without a descriptor the walk is refused unless the headers of four octets go to the end of the
packet or to the end of the chain. -/
theorem skippedHeaders_none_iff {len : Nat} (hlen : len ≤ packet.length) :
    SkippedHeaders packet len none ↔ ShortChain packet 0 len := by
  obtain hlast | ⟨hmore, rfl | ⟨hone, hroom⟩ | ⟨hlt, hnot⟩⟩ := walk_cases hlen
  · rw [shortChain_last hlen hlast]
    refine iff_of_false (fun h => ?_) (Nat.lt_irrefl 0)
    cases h with
    | refused hmore => exact hmore hlast
    | header hmore => exact hmore hlast
  · refine iff_of_false (fun h => ?_) (shortChain_end hmore)
    cases h with
    | refused _ hlt => exact Nat.lt_irrefl _ hlt
    | header _ _ hroom => omega
  · rw [skippedHeaders_header_iff hmore hone hroom, shortChain_header hmore hone hroom]
    exact skippedHeaders_none_iff hroom
  · rw [shortChain_refused hmore hlt hnot]
    refine iff_of_true (.refused hmore hlt hnot) fun lens hchain hfew => ?_
    obtain rfl : lens = [] := List.length_eq_zero_iff.mp (by omega)
    exact not_extensionChain_nil hmore hchain
termination_by packet.length - len

theorem extensionHeaders_header_iff (hmore : octetAt packet (len - 1) ≠ 0)
    (hone : octetAt packet len = 1) (hroom : len + 4 ≤ packet.length) {desc : FlaggedHeaderDesc} :
    (∃ desc', ExtensionHeaders packet (left + 1) desc len (found, desc')) ↔
      ∃ desc', ExtensionHeaders packet left (desc.extract (octetAt packet (len - 1))
        (octetAt packet (len + 1)) (octetAt packet (len + 2))) (len + 4) (found, desc') := by
  constructor
  · rintro ⟨desc', hdesc⟩
    cases hdesc with
    | last _ hlast => exact absurd hlast hmore
    | refused _ _ hnot => exact absurd hroom (Nat.not_le.mpr (hnot hone))
    | header _ _ _ hrest => exact ⟨desc', hrest⟩
  · rintro ⟨desc', hdesc⟩
    exact ⟨desc', .header hmore hone hroom hdesc⟩

/-- The two modes agree on a short chain. -/
theorem headers_alike_iff (hpos : 0 < len) (hlen : len ≤ packet.length) (desc : FlaggedHeaderDesc) :
    (∃ found, (∃ desc', ExtensionHeaders packet left desc len (found, desc')) ∧
      SkippedHeaders packet len found ∧
      ∀ lens, ExtensionChain packet len lens → lens.length ≤ left →
        found = some (len + lens.sum)) ↔ ShortChain packet left len := by
  induction left generalizing len desc with
  | zero =>
    rw [← skippedHeaders_none_iff hlen]
    constructor
    · rintro ⟨found, ⟨desc', hdesc⟩, hskipped, -⟩
      cases hdesc
      exact hskipped
    · intro h
      refine ⟨none, ⟨desc, .tooMany (by omega)⟩, h, fun lens hchain hfew => ?_⟩
      obtain rfl : lens = [] := List.length_eq_zero_iff.mp (by omega)
      cases h with
      | refused hmore => exact absurd hchain (not_extensionChain_nil hmore)
      | header hmore => exact absurd hchain (not_extensionChain_nil hmore)
  | succ left ih =>
    obtain hlast | ⟨hmore, rfl | ⟨hone, hroom⟩ | ⟨hlt, hnot⟩⟩ := walk_cases hlen
    · rw [shortChain_last hlen hlast]
      refine iff_of_true ?_ (Nat.succ_pos left)
      have hinside : len - 1 < packet.length := by omega
      refine ⟨some len, ⟨desc, .last hinside hlast⟩, .last hinside hlast, fun lens hchain _ => ?_⟩
      rw [(extensionChain_last_iff hlen hlast).mp hchain]
      rfl
    · refine iff_of_false ?_ (shortChain_end hmore)
      rintro ⟨found, ⟨desc', hdesc⟩, -, -⟩
      cases hdesc with
      | last _ hlast => exact hmore hlast
      | refused _ hlt => exact Nat.lt_irrefl _ hlt
      | header _ _ hroom => omega
    · have hlt : len < packet.length := by omega
      rw [shortChain_header hmore hone hroom, Nat.add_sub_cancel,
        ← ih (Nat.add_pos_left hpos 4) hroom (desc.extract (octetAt packet (len - 1))
          (octetAt packet (len + 1)) (octetAt packet (len + 2)))]
      simp only [skippedHeaders_header_iff hmore hone hroom, extensionChain_header_iff hmore hone hlt]
      refine exists_congr fun found => and_congr (extensionHeaders_header_iff hmore hone hroom)
        (and_congr_right' ⟨?_, ?_⟩)
      · intro h lens hchain hfew
        rw [h (4 :: lens) ⟨lens, rfl, hchain⟩ (Nat.succ_le_succ hfew), List.sum_cons, Nat.add_assoc]
      · rintro h _ ⟨rest, rfl, hrest⟩ hfew
        rw [h rest hrest (Nat.le_of_succ_le_succ hfew), List.sum_cons, Nat.add_assoc]
    · rw [shortChain_refused hmore hlt hnot]
      constructor
      · rintro ⟨found, ⟨desc', hdesc⟩, -, haccepted⟩ lens hchain hfew
        have hfound := haccepted lens hchain hfew
        cases hdesc with
        | last _ hlast => exact hmore hlast
        | refused => cases hfound
        | header _ hone hroom => exact absurd hroom (Nat.not_le.mpr (hnot hone))
      · intro h
        exact ⟨none, ⟨desc, .refused hmore hlt hnot⟩, .refused hmore hlt hnot,
          fun lens hchain hfew => absurd hfew (h lens hchain)⟩

/-- A length that the walk leads to is that of a complete chain. -/
theorem SkippedHeaders.chain (h : SkippedHeaders packet len found) (hlen : len ≤ packet.length)
    {n : Nat} (hn : found = some n) :
    n ≤ packet.length ∧ ∃ lens, ExtensionChain packet len lens ∧ n = len + lens.sum := by
  induction h with
  | last hinside hlast =>
    obtain rfl := Option.some.inj hn
    exact ⟨hlen, [], .last hlen hlast, rfl⟩
  | refused => cases hn
  | header hmore hone hroom _ ih =>
    obtain ⟨hle, lens, hchain, rfl⟩ := ih hroom hn
    refine ⟨hle, 4 :: lens, (extensionChain_header_iff hmore hone (by omega)).mpr ⟨lens, rfl, hchain⟩, ?_⟩
    rw [List.sum_cons, Nat.add_assoc]

/-! ## Datagrams -/

theorem gtpuSkipHeader_of_inside (hinside : 7 < packet.length) :
    gtpuSkipHeader (ofData packet) =
      if octetAt packet 0 &&& gtpuFlagsE ≠ 0 then
        if packet.length < 12 then .ok none
        else do
          let len ← gtpuSkipExtensionHeaders (ofData packet) packet.length 12
          return len.filter (· ≤ packet.length)
      else .ok ((some (plainLength packet)).filter (· ≤ packet.length)) := by
  have hlen : (ofData packet).len = packet.length := rfl
  have hflags : (ofData packet).octet 0 = .ok (octetAt packet 0) :=
    octet_ofData_iff.mpr ⟨by omega, rfl⟩
  rw [gtpuSkipHeader, hlen, if_neg (by omega), hflags, ok_bind]
  rfl

theorem gtpuSkipHeader_extended_iff (hmax : packet.length < 65532) (hword : 12 ≤ packet.length)
    (hext : octetAt packet 0 &&& gtpuFlagsE ≠ 0) :
    gtpuSkipHeader (ofData packet) = .ok found ↔ SkippedHeaders packet 12 found := by
  have hwalk {found : Option Nat} := @gtpuSkipExtensionHeaders_ofData_iff packet 12 found _ hmax hword
    (by omega : packet.length < 12 + 4 * packet.length)
  have hfilter {found : Option Nat} (h : SkippedHeaders packet 12 found) :
      found.filter (· ≤ packet.length) = found := by
    cases found with
    | none => rfl
    | some n => exact Option.filter_some_pos (decide_eq_true (h.chain hword rfl).1)
  rw [gtpuSkipHeader_of_inside (by omega), if_pos hext, if_neg (by omega)]
  constructor
  · intro h
    obtain ⟨n, hn, h⟩ := bind_eq_ok.mp h
    have hskipped := hwalk.mp hn
    obtain rfl := Except.ok.inj h
    rwa [hfilter hskipped]
  · intro h
    refine bind_eq_ok.mpr ⟨found, hwalk.mpr h, ?_⟩
    rw [hfilter h]
    rfl

theorem gtpuParseHeader_extended_iff (hword : 12 ≤ packet.length)
    (hext : octetAt packet 0 &&& gtpuFlagsE ≠ 0) {parsed : Option Nat × FlaggedHeaderDesc} :
    gtpuParseHeader (ofData packet) = .ok parsed ↔
      ExtensionHeaders packet 8 (mandatoryDesc packet) 12 parsed := by
  rw [gtpuParseHeader_ofData_iff]
  constructor
  · intro h
    cases h with
    | plain _ hnone => exact absurd hnone hext
    | truncated _ hnone => exact absurd hnone hext
    | noWord _ _ hshort => omega
    | extended _ _ hchain => exact hchain
  · exact .extended hword hext

/-- The header is mandatory, and the chain that it announces is short. -/
def HasShortHeader (packet : List UInt8) : Prop :=
  8 ≤ packet.length ∧
    (octetAt packet 0 &&& gtpuFlagsE ≠ 0 → 12 ≤ packet.length → ShortChain packet 8 12)

theorem parsedAlike_plain (hinside : 7 < packet.length)
    (hext : octetAt packet 0 &&& gtpuFlagsE = 0) : ParsedAlike packet := by
  refine ⟨(some (plainLength packet)).filter (· ≤ packet.length), ⟨mandatoryDesc packet, ?_⟩, ?_, ?_, ?_⟩
  · rw [gtpuParseHeader_of_inside hinside, if_neg (not_not.mpr hext)]
  · rw [gtpuSkipHeader_of_inside hinside, if_neg (not_not.mpr hext)]
  · intro len hlen
    obtain ⟨h, hle⟩ := Option.filter_eq_some_iff.mp hlen
    obtain rfl := Option.some.inj h
    have hle : plainLength packet ≤ packet.length := of_decide_eq_true hle
    refine ⟨hle, [], ⟨hinside, ?_⟩, ?_⟩
    · rw [if_neg (not_not.mpr hext)]
      exact ⟨hle, rfl⟩
    · rw [headerLength, if_neg (not_not.mpr hext)]
      rfl
  · rintro lens ⟨-, h⟩ -
    rw [if_neg (not_not.mpr hext)] at h
    obtain ⟨hle, rfl⟩ := h
    rw [headerLength, if_neg (not_not.mpr hext)]
    exact Option.filter_some_pos (decide_eq_true hle)

theorem parsedAlike_noWord (hinside : 7 < packet.length)
    (hext : octetAt packet 0 &&& gtpuFlagsE ≠ 0) (hword : packet.length < 12) :
    ParsedAlike packet := by
  refine ⟨none, ⟨mandatoryDesc packet, ?_⟩, ?_, nofun, ?_⟩
  · rw [gtpuParseHeader_of_inside hinside, if_pos hext, if_pos hword]
  · rw [gtpuSkipHeader_of_inside hinside, if_pos hext, if_pos hword]
  · rintro lens ⟨-, h⟩ -
    rw [if_pos hext] at h
    omega

theorem parsedAlike_extended_iff (hmax : packet.length < 65532) (hword : 12 ≤ packet.length)
    (hext : octetAt packet 0 &&& gtpuFlagsE ≠ 0) :
    ParsedAlike packet ↔ ShortChain packet 8 12 := by
  rw [← headers_alike_iff (by decide) hword (mandatoryDesc packet), ParsedAlike]
  simp only [gtpuParseHeader_extended_iff hword hext, gtpuSkipHeader_extended_iff hmax hword hext,
    WellFormedHeader, headerLength, if_pos hext]
  refine exists_congr fun found => and_congr_right fun _ => and_congr_right fun hskipped => ?_
  constructor
  · rintro ⟨-, haccepted⟩ lens hchain hfew
    exact haccepted lens ⟨by omega, hword, hchain⟩ hfew
  · intro haccepted
    refine ⟨fun n hn => ?_, fun lens hcomplete hfew => haccepted lens hcomplete.2.2 hfew⟩
    obtain ⟨hle, lens, hchain, hlength⟩ := hskipped.chain hword hn
    exact ⟨hle, lens, ⟨by omega, hword, hchain⟩, hlength⟩

/-- A datagram is parsed alike just when it has a short header. The length field of UDP leaves room
for no more than 65527 octets. -/
theorem parsedAlike_iff (hmax : packet.length ≤ 65527) :
    ParsedAlike packet ↔ HasShortHeader packet := by
  by_cases hinside : 8 ≤ packet.length
  · by_cases hext : octetAt packet 0 &&& gtpuFlagsE = 0
    · exact iff_of_true (parsedAlike_plain hinside hext) ⟨hinside, fun h => absurd hext h⟩
    by_cases hword : 12 ≤ packet.length
    · rw [parsedAlike_extended_iff (by omega) hword hext, HasShortHeader]
      simp only [hinside, hext, hword, true_and, ne_eq, not_false_eq_true, true_imp_iff]
    · exact iff_of_true (parsedAlike_noWord hinside hext (by omega))
        ⟨hinside, fun _ h => absurd h hword⟩
  · refine iff_of_false ?_ fun h => hinside h.1
    rintro ⟨found, ⟨desc, hdesc⟩, -⟩
    cases gtpuParseHeader_ofData_iff.mp hdesc with
    | plain h => omega
    | truncated h => omega
    | noWord h => omega
    | extended h => omega

theorem parsedAlike_gPdu : ParsedAlike [0x30, 0xff, 0, 0, 0, 0, 0, 1] :=
  (parsedAlike_iff (by decide)).mpr ⟨by decide, fun h => absurd rfl h⟩

/-- The last octet of the datagram announces a header behind it. -/
theorem not_parsedAlike : ¬ParsedAlike [0x34, 0xff, 0, 4, 0, 0, 0, 1, 0, 0, 0, 0x85] := by
  rintro ⟨found, ⟨desc, hdesc⟩, -⟩
  cases hdesc

end Modes

end Quicup.Open5gs
