import Quicup.Open5gs.Gtp.Header
import Quicup.Open5gs.Pfcp.PacketBounds

/-!
# What the header parser reads of a datagram

`ogs_gtpu_parse_header` returns just when the mandatory header lies in the datagram, and with
it the length octet of each extension header that the parser comes to. An echo request whose
header is accepted is answered from within the datagram.
-/

namespace Quicup.Open5gs

open Pkbuf Fallible

section Header

variable (packet : List UInt8)

/-- From the offset behind a type octet on, with so many entries left, the extension headers
lead to a header length or to a refusal, inside the packet. -/
inductive ExtensionHeaders :
    Nat → FlaggedHeaderDesc → Nat → Option Nat × FlaggedHeaderDesc → Prop
  | tooMany {desc len} : len - 1 < packet.length → ExtensionHeaders 0 desc len (none, desc)
  | last {left desc len} : len - 1 < packet.length → octetAt packet (len - 1) = 0 →
      ExtensionHeaders (left + 1) desc len (some len, desc)
  | refused {left desc len} : octetAt packet (len - 1) ≠ 0 → len < packet.length →
      (octetAt packet len = 1 → packet.length < len + 4) →
      ExtensionHeaders (left + 1) desc len (none, desc)
  | header {left desc len parsed} : octetAt packet (len - 1) ≠ 0 → octetAt packet len = 1 →
      len + 4 ≤ packet.length →
      ExtensionHeaders left (desc.extract (octetAt packet (len - 1)) (octetAt packet (len + 1))
        (octetAt packet (len + 2))) (len + 4) parsed →
      ExtensionHeaders (left + 1) desc len parsed

/-- The descriptor with what the mandatory header says. -/
def mandatoryDesc : FlaggedHeaderDesc where
  flags := octetAt packet 0
  type := octetAt packet 1
  teid := wordAt packet 4

/-- The length of a header without extension headers. -/
def plainLength : Nat :=
  if octetAt packet 0 &&& (gtpuFlagsS ||| gtpuFlagsPn) ≠ 0 then 12 else 8

/-- What the parser reads of the header lies in the packet, and leads to the length of the
header unless the packet is refused. -/
inductive GtpuHeader : Option Nat × FlaggedHeaderDesc → Prop
  | plain : 7 < packet.length → octetAt packet 0 &&& gtpuFlagsE = 0 →
      plainLength packet ≤ packet.length →
      GtpuHeader (some (plainLength packet), mandatoryDesc packet)
  | truncated : 7 < packet.length → octetAt packet 0 &&& gtpuFlagsE = 0 →
      packet.length < plainLength packet → GtpuHeader (none, mandatoryDesc packet)
  | noWord : 7 < packet.length → octetAt packet 0 &&& gtpuFlagsE ≠ 0 → packet.length < 12 →
      GtpuHeader (none, mandatoryDesc packet)
  | extended {parsed} : 11 < packet.length → octetAt packet 0 &&& gtpuFlagsE ≠ 0 →
      ExtensionHeaders packet 8 (mandatoryDesc packet) 12 parsed → GtpuHeader parsed

variable {packet} {desc : FlaggedHeaderDesc} {left len : Nat}
  {parsed : Option Nat × FlaggedHeaderDesc}

/-- Only a header of four octets passes the tests of the loop. -/
theorem units_accepted_iff (units : UInt8) :
    (units ≠ 0 ∧ ¬units.toNat * 4 > 4) ↔ units = 1 := by
  rw [← UInt8.toNat_inj, Ne, ← UInt8.toNat_inj]
  simp only [UInt8.toNat_zero, UInt8.toNat_one]
  omega

theorem gtpuParseExtensionHeaders_ofData_iff :
    gtpuParseExtensionHeaders (ofData packet) left desc len = .ok parsed ↔
      ExtensionHeaders packet left desc len parsed := by
  induction left generalizing desc len with
  | zero =>
    rw [gtpuParseExtensionHeaders, bind_eq_ok]
    simp only [octet_ofData_iff]
    constructor
    · rintro ⟨_, ⟨hlt, -⟩, h⟩
      obtain rfl := Except.ok.inj h
      exact .tooMany hlt
    · rintro ⟨hlt⟩
      exact ⟨_, ⟨hlt, rfl⟩, rfl⟩
  | succ left ih =>
    constructor
    · intro h
      obtain ⟨type, htype, h⟩ := bind_eq_ok.mp h
      obtain ⟨hinside, rfl⟩ := octet_ofData_iff.mp htype
      split_ifs at h with hlast
      · obtain rfl := Except.ok.inj h
        exact .last hinside hlast
      obtain ⟨units, hunits, h⟩ := bind_eq_ok.mp h
      obtain ⟨hlen, rfl⟩ := octet_ofData_iff.mp hunits
      have hrefused (hnot : octetAt packet len = 1 → packet.length < len + 4)
          (h : (pure (none, desc) : Except Fault _) = .ok parsed) :
          ExtensionHeaders packet (left + 1) desc len parsed := by
        obtain rfl := Except.ok.inj h
        exact .refused hlast hlen hnot
      split_ifs at h with hzero hlong hshort
      · exact hrefused (fun hone => absurd hzero ((units_accepted_iff _).mpr hone).1) h
      · exact hrefused (fun hone => absurd hlong ((units_accepted_iff _).mpr hone).2) h
      · refine hrefused (fun hone => ?_) h
        rw [hone] at hshort
        exact hshort
      · obtain ⟨first, hfirst, h⟩ := bind_eq_ok.mp h
        obtain ⟨second, hsecond, h⟩ := bind_eq_ok.mp h
        obtain ⟨-, rfl⟩ := octet_ofData_iff.mp hfirst
        obtain ⟨-, rfl⟩ := octet_ofData_iff.mp hsecond
        have hone : octetAt packet len = 1 := (units_accepted_iff _).mp ⟨hzero, hlong⟩
        rw [hone] at h hshort
        exact .header hlast hone (Nat.le_of_not_lt hshort) (ih.mp h)
    · intro h
      cases h with
      | last htype hlast => exact gtpuParseExtensionHeaders_end (octet_ofData_iff.mpr ⟨htype, hlast⟩)
      | refused hmore hlen hnot =>
        refine bind_eq_ok.mpr ⟨_, octet_ofData_iff.mpr ⟨by omega, rfl⟩, ?_⟩
        rw [if_neg hmore]
        refine bind_eq_ok.mpr ⟨_, octet_ofData_iff.mpr ⟨hlen, rfl⟩, ?_⟩
        split_ifs with hzero hlong hshort
        · rfl
        · rfl
        · rfl
        · have hone : octetAt packet len = 1 := (units_accepted_iff _).mp ⟨hzero, hlong⟩
          rw [hone] at hshort
          exact absurd (hnot hone) hshort
      | header hmore hone hlen hrest =>
        rw [gtpuParseExtensionHeaders_step (octet_ofData_iff.mpr ⟨by omega, rfl⟩)
          (octet_ofData_iff.mpr ⟨by omega, hone⟩) (octet_ofData_iff.mpr ⟨by omega, rfl⟩)
          (octet_ofData_iff.mpr ⟨by omega, rfl⟩) hmore hlen]
        exact ih.mpr hrest

/-- The length that a chain leads to ends inside the packet, behind the optional word. -/
theorem ExtensionHeaders.bounds (h : ExtensionHeaders packet left desc len parsed) :
    ∀ n, parsed.1 = some n → len ≤ n ∧ n - 1 < packet.length := by
  induction h with
  | tooMany => exact fun n h => by cases h
  | last hlt =>
    intro n h
    obtain rfl := Option.some.inj h
    exact ⟨le_rfl, hlt⟩
  | refused => exact fun n h => by cases h
  | header _ _ _ _ ih =>
    intro n h
    obtain ⟨hle, hlt⟩ := ih n h
    exact ⟨by omega, hlt⟩

/-- The test at the end of the parser finds nothing to refuse behind extension headers. -/
theorem ExtensionHeaders.filter_eq (h : ExtensionHeaders packet left desc 12 parsed) :
    parsed.1.filter (· ≤ packet.length) = parsed.1 := by
  obtain ⟨found, desc⟩ := parsed
  cases found with
  | none => rfl
  | some n =>
    obtain ⟨hle, hlt⟩ := h.bounds n rfl
    exact Option.filter_some_pos (decide_eq_true (by omega))

/-- The parser on a datagram that the mandatory header lies in. -/
theorem gtpuParseHeader_of_inside (hinside : 7 < packet.length) :
    gtpuParseHeader (ofData packet) =
      if octetAt packet 0 &&& gtpuFlagsE ≠ 0 then
        if packet.length < 12 then .ok (none, mandatoryDesc packet)
        else do
          let (len, desc) ← gtpuParseExtensionHeaders (ofData packet) 8 (mandatoryDesc packet) 12
          return (len.filter (· ≤ packet.length), desc)
      else
        .ok ((some (plainLength packet)).filter (· ≤ packet.length), mandatoryDesc packet) := by
  have hlen : (ofData packet).len = packet.length := rfl
  have hflags : (ofData packet).octet 0 = .ok (octetAt packet 0) :=
    octet_ofData_iff.mpr ⟨by omega, rfl⟩
  have htype : (ofData packet).octet 1 = .ok (octetAt packet 1) :=
    octet_ofData_iff.mpr ⟨by omega, rfl⟩
  have hteid : (ofData packet).word 4 = .ok (wordAt packet 4) :=
    word_ofData_iff.mpr ⟨hinside, rfl⟩
  rw [gtpuParseHeader, hflags, ok_bind, htype, ok_bind, hteid, ok_bind]
  dsimp only
  rw [hlen, if_neg (by omega)]
  rfl

theorem gtpuParseHeader_ofData_iff :
    gtpuParseHeader (ofData packet) = .ok parsed ↔ GtpuHeader packet parsed := by
  constructor
  · intro h
    have hinside : 7 < packet.length := by
      obtain ⟨flags, -, h⟩ := bind_eq_ok.mp h
      obtain ⟨type, -, h⟩ := bind_eq_ok.mp h
      obtain ⟨teid, hteid, -⟩ := bind_eq_ok.mp h
      exact (word_ofData_iff.mp hteid).1
    rw [gtpuParseHeader_of_inside hinside] at h
    split_ifs at h with hext hword
    · obtain rfl := Except.ok.inj h
      exact .noWord hinside hext hword
    · obtain ⟨found, hfound, h⟩ := bind_eq_ok.mp h
      have hchain := gtpuParseExtensionHeaders_ofData_iff.mp hfound
      obtain rfl := Except.ok.inj h
      rw [hchain.filter_eq]
      exact .extended (Nat.le_of_not_lt hword) hext hchain
    · rw [Ne, not_not] at hext
      by_cases hplain : plainLength packet ≤ packet.length
      · rw [Option.filter_some, if_pos (decide_eq_true hplain)] at h
        obtain rfl := Except.ok.inj h
        exact .plain hinside hext hplain
      · rw [Option.filter_some, if_neg (by simpa using hplain)] at h
        obtain rfl := Except.ok.inj h
        exact .truncated hinside hext (Nat.lt_of_not_le hplain)
  · intro h
    cases h with
    | plain hinside hext hplain =>
      rw [gtpuParseHeader_of_inside hinside, if_neg (not_not.mpr hext),
        Option.filter_some, if_pos (decide_eq_true hplain)]
    | truncated hinside hext hplain =>
      rw [gtpuParseHeader_of_inside hinside, if_neg (not_not.mpr hext),
        Option.filter_some, if_neg (by simpa using hplain)]
    | noWord hinside hext hword =>
      rw [gtpuParseHeader_of_inside hinside, if_pos hext, if_pos hword]
    | extended hinside hext hchain =>
      rw [gtpuParseHeader_of_inside (by omega), if_pos hext, if_neg (by omega)]
      refine bind_eq_ok.mpr ⟨_, gtpuParseExtensionHeaders_ofData_iff.mpr hchain, ?_⟩
      obtain ⟨found, desc⟩ := parsed
      dsimp only
      rw [hchain.filter_eq]
      rfl

/-- An accepted header has eight octets or more, all in the packet. -/
theorem GtpuHeader.bounds (h : GtpuHeader packet (some len, desc)) :
    8 ≤ len ∧ len ≤ packet.length := by
  cases h with
  | plain hinside hext hplain =>
    refine ⟨?_, hplain⟩
    rw [plainLength]
    split_ifs
    · decide
    · decide
  | extended hinside hext hchain =>
    obtain ⟨hle, hlt⟩ := hchain.bounds len rfl
    omega

end Header

end Quicup.Open5gs
