import Quicup.Open5gs.Pfcp.RuleMatch

/-!
# What matching reads of a packet

The matching of `rule-match.c` returns just when the headers that it follows, and the ports
that it compares, lie in the packet.
-/

namespace Quicup.Open5gs

open Pkbuf Fallible

/-! ## Octets of a packet -/

def octetAt (packet : List UInt8) (i : Nat) : UInt8 := packet.getD i 0

def halfAt (packet : List UInt8) (i : Nat) : UInt16 :=
  .ofNat (natBE [octetAt packet i, octetAt packet (i + 1)])

def wordAt (packet : List UInt8) (i : Nat) : UInt32 :=
  .ofNat (natBE [octetAt packet i, octetAt packet (i + 1), octetAt packet (i + 2),
    octetAt packet (i + 3)])

def wordsAt (packet : List UInt8) (i : Nat) : Vector UInt32 4 :=
  #v[wordAt packet i, wordAt packet (i + 4), wordAt packet (i + 8), wordAt packet (i + 12)]

section Octets

variable {packet : List UInt8} {i : Nat}

theorem octet_ofData_iff {x : UInt8} :
    (ofData packet).octet i = .ok x ↔ i < packet.length ∧ octetAt packet i = x := by
  rw [octet, ofData, List.append_nil, octetAt, List.getD_eq_getElem?_getD]
  by_cases hi : i < packet.length
  · rw [List.getElem?_eq_getElem hi]
    simp [hi]
  · rw [List.getElem?_eq_none (Nat.le_of_not_lt hi)]
    simp [hi]

theorem half_ofData_iff {x : UInt16} :
    (ofData packet).half i = .ok x ↔ i + 1 < packet.length ∧ halfAt packet i = x := by
  rw [half]
  simp only [bind_eq_ok, octet_ofData_iff]
  constructor
  · rintro ⟨_, ⟨-, rfl⟩, _, ⟨hi, rfl⟩, h⟩
    exact ⟨hi, Except.ok.inj h⟩
  · rintro ⟨hi, rfl⟩
    exact ⟨_, ⟨by omega, rfl⟩, _, ⟨hi, rfl⟩, rfl⟩

theorem word_ofData_iff {x : UInt32} :
    (ofData packet).word i = .ok x ↔ i + 3 < packet.length ∧ wordAt packet i = x := by
  rw [word]
  simp only [bind_eq_ok, octet_ofData_iff]
  constructor
  · rintro ⟨_, ⟨-, rfl⟩, _, ⟨-, rfl⟩, _, ⟨-, rfl⟩, _, ⟨hi, rfl⟩, h⟩
    exact ⟨hi, Except.ok.inj h⟩
  · rintro ⟨hi, rfl⟩
    exact ⟨_, ⟨by omega, rfl⟩, _, ⟨by omega, rfl⟩, _, ⟨by omega, rfl⟩, _, ⟨hi, rfl⟩, rfl⟩

theorem words_ofData_iff {x : Vector UInt32 4} :
    (ofData packet).words i = .ok x ↔ i + 15 < packet.length ∧ wordsAt packet i = x := by
  rw [words]
  simp only [bind_eq_ok, word_ofData_iff]
  constructor
  · rintro ⟨_, ⟨-, rfl⟩, _, ⟨-, rfl⟩, _, ⟨-, rfl⟩, _, ⟨hi, rfl⟩, h⟩
    exact ⟨by omega, Except.ok.inj h⟩
  · rintro ⟨hi, rfl⟩
    exact ⟨_, ⟨by omega, rfl⟩, _, ⟨by omega, rfl⟩, _, ⟨by omega, rfl⟩, _, ⟨by omega, rfl⟩, rfl⟩

end Octets

/-! ## Headers -/

variable (packet : List UInt8)

/-- From an offset on, the options of a jumbo frame lead to the length of its payload, inside
the packet. -/
inductive JumboOption : Nat → UInt32 → Prop
  | jumbo {jp} : jp + 5 < packet.length → octetAt packet jp = ip6optJumbo →
      JumboOption jp (wordAt packet (jp + 2))
  | pad {jp len} : jp + 5 < packet.length → octetAt packet jp = 0 →
      JumboOption (jp + 1) len → JumboOption jp len
  | other {jp len} : jp + 5 < packet.length → octetAt packet jp ≠ ip6optJumbo →
      octetAt packet jp ≠ 0 → JumboOption (jp + (2 + (wordAt packet (jp + 2)).toNat)) len →
      JumboOption jp len

/-- From an offset and the number of the header there, the extension headers lead to the
number and the offset of the header behind them, inside the packet. -/
inductive HeaderChain (endp : Nat) : Nat → UInt8 → UInt8 × Nat → Prop
  | payload {p nxt} : endp ≤ p → HeaderChain endp p nxt (nxt, p)
  | upperLayer {p nxt} : isExtension nxt = false → nxt ≠ ipprotoFragment → nxt ≠ ipprotoAh →
      HeaderChain endp p nxt (nxt, p)
  | extension {p nxt upper} : p < endp → isExtension nxt = true → p + 1 < packet.length →
      HeaderChain endp (p + ((octetAt packet (p + 1)).toNat * 8 + 8)) (octetAt packet p) upper →
      HeaderChain endp p nxt upper
  | fragment {p nxt upper} : p < endp → nxt = ipprotoFragment → p < packet.length →
      HeaderChain endp (p + 8) (octetAt packet p) upper → HeaderChain endp p nxt upper
  | ah {p nxt upper} : p < endp → nxt = ipprotoAh → p + 1 < packet.length →
      HeaderChain endp (p + ((octetAt packet (p + 1)).toNat + 2) * 4) (octetAt packet p) upper →
      HeaderChain endp p nxt upper

/-- The headers of an IPv6 packet lie in it, and lead to an upper layer unless the packet is
refused. -/
inductive Ipv6Headers : Option (UInt8 × UInt16) → Prop
  | refused : 6 < packet.length → halfAt packet 4 = 0 → octetAt packet 6 ≠ 0 → Ipv6Headers none
  | jumbo {len upper} : 6 < packet.length → halfAt packet 4 = 0 → octetAt packet 6 = 0 →
      JumboOption packet 42 len → len ≠ 0 → HeaderChain packet (40 + len.toNat) 40 0 upper →
      Ipv6Headers (some (upper.1, .ofNat upper.2))
  | sized {upper} : 6 < packet.length → halfAt packet 4 ≠ 0 →
      HeaderChain packet (40 + (halfAt packet 4).toNat) 40 (octetAt packet 6) upper →
      Ipv6Headers (some (upper.1, .ofNat upper.2))

def versionAt : UInt8 := octetAt packet 0 >>> 4

/-- What matching reads of the headers of a packet lies in it. Four words are read for each
address of IPv4, too. -/
inductive IpHeaders : Option IpHeader → Prop
  | ipv4 : versionAt packet = 4 → 31 < packet.length →
      IpHeaders (some ⟨octetAt packet 9, (octetAt packet 0 &&& 0xf).toUInt16 * 4,
        wordsAt packet 12, wordsAt packet 16, 1⟩)
  | ipv6 {upper} : versionAt packet = 6 → Ipv6Headers packet (some upper) → 39 < packet.length →
      IpHeaders (some ⟨upper.1, upper.2, wordsAt packet 8, wordsAt packet 24, 4⟩)
  | refused : versionAt packet = 6 → Ipv6Headers packet none → IpHeaders none
  | other : 0 < packet.length → versionAt packet ≠ 4 → versionAt packet ≠ 6 → IpHeaders none

variable {packet} {b : Bool} {upper : UInt8 × Nat} {header : Option IpHeader} {i : Nat}
  {rule : PfcpRule}

theorem jumboEnd_ofData_iff {p jp endp : Nat} :
    jumboEnd (ofData packet) p jp = .ok endp ↔
      ∃ len, JumboOption packet jp len ∧ len ≠ 0 ∧ p + len.toNat = endp := by
  rw [jumboEnd_eq]
  constructor
  · intro h
    obtain ⟨len, hlen, h⟩ := bind_eq_ok.mp h
    obtain ⟨type, htype, h⟩ := bind_eq_ok.mp h
    obtain ⟨hjp, rfl⟩ := word_ofData_iff.mp hlen
    obtain ⟨hlt, rfl⟩ := octet_ofData_iff.mp htype
    split at h
    · rename_i hjumbo
      split at h
      · cases h
      · exact ⟨_, .jumbo (by omega) hjumbo, by assumption, Except.ok.inj h⟩
    rename_i hjumbo
    split at h
    · rename_i hpad
      obtain ⟨len, hoption, hne, rfl⟩ := jumboEnd_ofData_iff.mp h
      exact ⟨len, .pad (by omega) hpad hoption, hne, rfl⟩
    · rename_i hpad
      obtain ⟨len, hoption, hne, rfl⟩ := jumboEnd_ofData_iff.mp h
      exact ⟨len, .other (by omega) hjumbo hpad hoption, hne, rfl⟩
  · rintro ⟨len, hoption, hne, rfl⟩
    have hread (hjp : jp + 5 < packet.length) :
        (ofData packet).word (jp + 2) = .ok (wordAt packet (jp + 2)) ∧
          (ofData packet).octet jp = .ok (octetAt packet jp) :=
      ⟨word_ofData_iff.mpr ⟨by omega, rfl⟩, octet_ofData_iff.mpr ⟨by omega, rfl⟩⟩
    cases hoption with
    | jumbo hjp hjumbo =>
      rw [(hread hjp).1, (hread hjp).2, ok_bind, ok_bind, if_pos hjumbo, if_neg hne]
    | pad hjp hpad hoption =>
      have hjumbo : octetAt packet jp ≠ ip6optJumbo := by
        rw [hpad]
        decide
      rw [(hread hjp).1, (hread hjp).2, ok_bind, ok_bind, if_neg hjumbo, if_pos hpad]
      exact jumboEnd_ofData_iff.mpr ⟨len, hoption, hne, rfl⟩
    | other hjp hjumbo hpad hoption =>
      rw [(hread hjp).1, (hread hjp).2, ok_bind, ok_bind, if_neg hjumbo, if_neg hpad]
      exact jumboEnd_ofData_iff.mpr ⟨len, hoption, hne, rfl⟩
termination_by packet.length - jp

theorem headerChain_of_extensions {endp p : Nat} {nxt : UInt8}
    (h : extensions (ofData packet) endp p nxt = .ok upper) :
    HeaderChain packet endp p nxt upper := by
  rw [extensions.eq_def] at h
  split at h
  · rename_i hp
    split at h
    · rename_i hext
      obtain ⟨len, hlen, h⟩ := bind_eq_ok.mp h
      obtain ⟨next, hnext, h⟩ := bind_eq_ok.mp h
      obtain ⟨hlt, rfl⟩ := octet_ofData_iff.mp hlen
      obtain ⟨-, rfl⟩ := octet_ofData_iff.mp hnext
      exact .extension hp hext hlt (headerChain_of_extensions h)
    rename_i hext
    split at h
    · rename_i hnxt
      obtain ⟨next, hnext, h⟩ := bind_eq_ok.mp h
      obtain ⟨hlt, rfl⟩ := octet_ofData_iff.mp hnext
      exact .fragment hp hnxt hlt (headerChain_of_extensions h)
    rename_i hnotFragment
    split at h
    · rename_i hnxt
      obtain ⟨len, hlen, h⟩ := bind_eq_ok.mp h
      obtain ⟨next, hnext, h⟩ := bind_eq_ok.mp h
      obtain ⟨hlt, rfl⟩ := octet_ofData_iff.mp hlen
      obtain ⟨-, rfl⟩ := octet_ofData_iff.mp hnext
      exact .ah hp hnxt hlt (headerChain_of_extensions h)
    · rename_i hnotAh
      obtain rfl := Except.ok.inj h
      exact .upperLayer (Bool.eq_false_iff.mpr hext) hnotFragment hnotAh
  · rename_i hp
    obtain rfl := Except.ok.inj h
    exact .payload (Nat.le_of_not_lt hp)
termination_by endp - p

theorem extensions_ofData_iff {endp p : Nat} {nxt : UInt8} :
    extensions (ofData packet) endp p nxt = .ok upper ↔ HeaderChain packet endp p nxt upper := by
  refine ⟨headerChain_of_extensions, fun h => ?_⟩
  have hfragment : isExtension ipprotoFragment = false := by decide
  have hah : isExtension ipprotoAh = false := by decide
  induction h with
  | payload hp => rw [extensions.eq_def, dif_neg (Nat.not_lt.mpr hp)]
  | upperLayer hext hnotFragment hnotAh =>
    rw [extensions.eq_def, hext, if_neg Bool.false_ne_true, if_neg hnotFragment, if_neg hnotAh,
      dite_eq_ite, ite_self]
  | extension hp hext hlt _ ih =>
    rw [extensions.eq_def, dif_pos hp, if_pos hext, octet_ofData_iff.mpr ⟨hlt, rfl⟩, ok_bind,
      octet_ofData_iff.mpr ⟨by omega, rfl⟩, ok_bind]
    exact ih
  | fragment hp hnxt hlt _ ih =>
    rw [extensions.eq_def, dif_pos hp, hnxt, hfragment, if_neg Bool.false_ne_true, if_pos rfl,
      octet_ofData_iff.mpr ⟨hlt, rfl⟩, ok_bind]
    exact ih
  | ah hp hnxt hlt _ ih =>
    rw [extensions.eq_def, dif_pos hp, hnxt, hah, if_neg Bool.false_ne_true, if_neg (by decide),
      if_pos rfl, octet_ofData_iff.mpr ⟨hlt, rfl⟩, ok_bind,
      octet_ofData_iff.mpr ⟨by omega, rfl⟩, ok_bind]
    exact ih

theorem decodeIpv6Header_ofData_iff {upper : Option (UInt8 × UInt16)} :
    decodeIpv6Header (ofData packet) = .ok upper ↔ Ipv6Headers packet upper := by
  rw [decodeIpv6Header]
  constructor
  · intro h
    obtain ⟨nxt, hnxt, h⟩ := bind_eq_ok.mp h
    obtain ⟨plen, hplen, h⟩ := bind_eq_ok.mp h
    obtain ⟨hlt, rfl⟩ := octet_ofData_iff.mp hnxt
    obtain ⟨-, rfl⟩ := half_ofData_iff.mp hplen
    split at h
    · rename_i hrefused
      obtain rfl := Except.ok.inj h
      exact .refused hlt hrefused.1 hrefused.2
    rename_i haccepted
    obtain ⟨endp, hendp, h⟩ := bind_eq_ok.mp h
    obtain ⟨last, hlast, h⟩ := bind_eq_ok.mp h
    obtain rfl := Except.ok.inj h
    have hchain := extensions_ofData_iff.mp hlast
    rw [payloadEnd] at hendp
    split at hendp
    · rename_i hzero
      have hnxt : octetAt packet 6 = 0 := by
        by_contra hne
        exact haccepted ⟨hzero, hne⟩
      rw [hnxt] at hchain
      obtain ⟨len, hoption, hne, rfl⟩ := jumboEnd_ofData_iff.mp hendp
      exact .jumbo hlt hzero hnxt hoption hne hchain
    · rename_i hsized
      obtain rfl := Except.ok.inj hendp
      exact .sized hlt hsized hchain
  · intro h
    have hread (hlt : 6 < packet.length) :
        (ofData packet).octet 6 = .ok (octetAt packet 6) ∧
          (ofData packet).half 4 = .ok (halfAt packet 4) :=
      ⟨octet_ofData_iff.mpr ⟨hlt, rfl⟩, half_ofData_iff.mpr ⟨by omega, rfl⟩⟩
    cases h with
    | refused hlt hzero hnxt =>
      rw [(hread hlt).1, (hread hlt).2, ok_bind, ok_bind, if_pos ⟨hzero, hnxt⟩]
      rfl
    | jumbo hlt hzero hnxt hoption hne hchain =>
      rw [(hread hlt).1, (hread hlt).2, ok_bind, ok_bind, if_neg fun h => h.2 hnxt, payloadEnd,
        if_pos hzero, jumboEnd_ofData_iff.mpr ⟨_, hoption, hne, rfl⟩, ok_bind, hnxt,
        extensions_ofData_iff.mpr hchain]
      rfl
    | sized hlt hsized hchain =>
      rw [(hread hlt).1, (hread hlt).2, ok_bind, ok_bind, if_neg fun h => hsized h.1, payloadEnd,
        if_neg hsized, ok_bind, extensions_ofData_iff.mpr hchain]
      rfl

theorem ipV_ofData_iff {version : UInt8} :
    ipV (ofData packet) = .ok version ↔ 0 < packet.length ∧ versionAt packet = version := by
  rw [ipV, bind_eq_ok]
  simp only [octet_ofData_iff]
  constructor
  · rintro ⟨_, ⟨hlt, rfl⟩, h⟩
    exact ⟨hlt, Except.ok.inj h⟩
  · rintro ⟨hlt, rfl⟩
    exact ⟨_, ⟨hlt, rfl⟩, rfl⟩

theorem ipHeader_ofData_iff : ipHeader (ofData packet) = .ok header ↔ IpHeaders packet header := by
  rw [ipHeader]
  constructor
  · intro h
    obtain ⟨version, hversion, h⟩ := bind_eq_ok.mp h
    obtain ⟨hlt, rfl⟩ := ipV_ofData_iff.mp hversion
    split at h
    · rename_i h4
      obtain ⟨proto, hproto, h⟩ := bind_eq_ok.mp h
      obtain ⟨ipHl, hipHl, h⟩ := bind_eq_ok.mp h
      obtain ⟨src, hsrc, h⟩ := bind_eq_ok.mp h
      obtain ⟨dst, hdst, h⟩ := bind_eq_ok.mp h
      obtain ⟨-, rfl⟩ := octet_ofData_iff.mp hproto
      obtain ⟨-, rfl⟩ := octet_ofData_iff.mp hipHl
      obtain ⟨-, rfl⟩ := words_ofData_iff.mp hsrc
      obtain ⟨hdst, rfl⟩ := words_ofData_iff.mp hdst
      obtain rfl := Except.ok.inj h
      exact .ipv4 h4 (by omega)
    rename_i h4
    split at h
    · rename_i h6
      obtain ⟨decoded, hdecoded, h⟩ := bind_eq_ok.mp h
      have hheaders := decodeIpv6Header_ofData_iff.mp hdecoded
      cases decoded with
      | none =>
        obtain rfl := Except.ok.inj h
        exact .refused h6 hheaders
      | some upper =>
        obtain ⟨src, hsrc, h⟩ := bind_eq_ok.mp h
        obtain ⟨dst, hdst, h⟩ := bind_eq_ok.mp h
        obtain ⟨-, rfl⟩ := words_ofData_iff.mp hsrc
        obtain ⟨hdst, rfl⟩ := words_ofData_iff.mp hdst
        obtain rfl := Except.ok.inj h
        exact .ipv6 h6 hheaders (by omega)
    · rename_i h6
      obtain rfl := Except.ok.inj h
      exact .other hlt h4 h6
  · intro h
    cases h with
    | ipv4 h4 hlt =>
      have hversion : ipV (ofData packet) = .ok 4 := ipV_ofData_iff.mpr ⟨by omega, h4⟩
      rw [hversion, ok_bind, if_pos rfl, octet_ofData_iff.mpr ⟨by omega, rfl⟩, ok_bind,
        octet_ofData_iff.mpr ⟨by omega, rfl⟩, ok_bind, words_ofData_iff.mpr ⟨by omega, rfl⟩,
        ok_bind, words_ofData_iff.mpr ⟨by omega, rfl⟩]
      rfl
    | ipv6 h6 hheaders hlt =>
      have hversion : ipV (ofData packet) = .ok 6 := ipV_ofData_iff.mpr ⟨by omega, h6⟩
      rw [hversion, ok_bind, if_neg (by decide), if_pos rfl,
        decodeIpv6Header_ofData_iff.mpr hheaders, ok_bind]
      dsimp only
      rw [words_ofData_iff.mpr ⟨by omega, rfl⟩, ok_bind, words_ofData_iff.mpr ⟨by omega, rfl⟩]
      rfl
    | refused h6 hheaders =>
      have hlt : 6 < packet.length := by
        cases hheaders with
        | refused hlt => exact hlt
      have hversion : ipV (ofData packet) = .ok 6 := ipV_ofData_iff.mpr ⟨by omega, h6⟩
      rw [hversion, ok_bind, if_neg (by decide), if_pos rfl,
        decodeIpv6Header_ofData_iff.mpr hheaders]
      rfl
    | other hlt h4 h6 =>
      rw [ipV_ofData_iff.mpr ⟨hlt, rfl⟩, ok_bind, if_neg h4, if_neg h6]
      rfl

/-! ## Rules -/

/-- The bounds of a port, of which those of zero are not set. -/
def IpfwPort.takes (port : IpfwPort) (x : UInt16) : Prop :=
  (port.low ≠ 0 → ¬x < port.low) ∧ (port.high ≠ 0 → ¬x > port.high)

def IpfwPort.isSet (port : IpfwPort) : Prop := port.low ≠ 0 ∨ port.high ≠ 0

/-- The ports that a rule compares lie in the packet. The destination port is compared when
the source port is taken. -/
def IpfwRule.PortsInside (ipfw : IpfwRule) (packet : List UInt8) (ipHlen : Nat) : Prop :=
  (ipfw.portSrc.isSet → ipHlen + 1 < packet.length) ∧
    (ipfw.portSrc.takes (halfAt packet ipHlen) → ipfw.portDst.isSet →
      ipHlen + 3 < packet.length)

/-- The addresses of a packet are those that a rule is for. -/
def PfcpRule.covers (rule : PfcpRule) (h : IpHeader) : Bool :=
  rule.ipfw.ipSrc.covers h.srcAddr h.addrLen && rule.ipfw.ipDst.covers h.dstAddr h.addrLen

/-- A rule compares the ports of the packets of TCP or UDP that it is for. -/
def PfcpRule.ComparesPorts (rule : PfcpRule) (h : IpHeader) : Prop :=
  rule.covers h = true ∧ rule.ipfw.proto = h.proto ∧
    (h.proto = ipprotoTcp ∨ h.proto = ipprotoUdp)

/-- What a rule reads of a packet lies in it. -/
def PfcpRule.Inside (rule : PfcpRule) (packet : List UInt8) : Prop :=
  ∃ header, IpHeaders packet header ∧ ∀ h, header = some h → rule.ComparesPorts h →
    rule.ipfw.PortsInside packet h.ipHlen.toNat

/-- A rule is for a packet. -/
def PfcpRule.Matches (rule : PfcpRule) (packet : List UInt8) : Prop :=
  ∃ h, IpHeaders packet (some h) ∧ rule.covers h = true ∧
    (rule.ipfw.proto = 0 ∨ rule.ipfw.proto = h.proto) ∧
    (rule.ComparesPorts h → rule.ipfw.portSrc.takes (halfAt packet h.ipHlen.toNat) ∧
      rule.ipfw.portDst.takes (halfAt packet (h.ipHlen.toNat + 2)))

/-- What the rules of a detection rule read of a packet lies in it, up to the first that
matches. The packet is not empty. -/
def Pdr.RulesInside (pdr : Pdr) (packet : List UInt8) : Prop :=
  pdr.ruleList ≠ [] → packet ≠ [] ∧ ∀ before rule after, pdr.ruleList = before ++ rule :: after →
    (∀ r ∈ before, ¬r.Matches packet) → rule.Inside packet

/-- A detection rule without rules takes every packet. -/
def Pdr.RulesMatch (pdr : Pdr) (packet : List UInt8) : Prop :=
  pdr.ruleList = [] ∨ ∃ rule ∈ pdr.ruleList, rule.Matches packet

theorem boundHolds_ofData_iff {bound : UInt16} {test : UInt16 → Bool} :
    boundHolds bound test (ofData packet) i = .ok b ↔
      (bound ≠ 0 → i + 1 < packet.length) ∧
        (b = true ↔ bound = 0 ∨ test (halfAt packet i) = true) := by
  rw [boundHolds]
  by_cases hbound : bound = 0
  · rw [if_pos hbound]
    constructor
    · intro h
      obtain rfl := Except.ok.inj h
      exact ⟨fun hne => absurd hbound hne, by simp [hbound]⟩
    · rintro ⟨-, hb⟩
      rw [hb.mpr (.inl hbound)]
      rfl
  · rw [if_neg hbound, bind_eq_ok]
    simp only [half_ofData_iff]
    constructor
    · rintro ⟨_, ⟨hlt, rfl⟩, h⟩
      obtain rfl := Except.ok.inj h
      exact ⟨fun _ => hlt, by simp [hbound]⟩
    · rintro ⟨hlt, hb⟩
      refine ⟨_, ⟨hlt hbound, rfl⟩, congrArg Except.ok ?_⟩
      rw [Bool.eq_iff_iff, hb]
      simp [hbound]

theorem admits_ofData_iff {port : IpfwPort} :
    port.admits (ofData packet) i = .ok b ↔
      (port.isSet → i + 1 < packet.length) ∧ (b = true ↔ port.takes (halfAt packet i)) := by
  have htakes : port.takes (halfAt packet i) ↔
      (port.low = 0 ∨ decide ¬halfAt packet i < port.low) ∧
        (port.high = 0 ∨ decide ¬halfAt packet i > port.high) := by
    rw [IpfwPort.takes, decide_eq_true_iff, decide_eq_true_iff]
    tauto
  rw [IpfwPort.admits, bind_eq_ok, IpfwPort.isSet, htakes]
  simp only [boundHolds_ofData_iff]
  constructor
  · rintro ⟨low, ⟨hlow, hlowTest⟩, h⟩
    cases low with
    | true =>
      rw [if_pos rfl, boundHolds_ofData_iff] at h
      refine ⟨fun hset => hset.elim hlow h.1, h.2.trans ?_⟩
      exact ⟨fun hhigh => ⟨hlowTest.mp rfl, hhigh⟩, fun hboth => hboth.2⟩
    | false =>
      obtain rfl := Except.ok.inj h
      have hne : port.low ≠ 0 := fun hzero => Bool.false_ne_true (hlowTest.mpr (.inl hzero))
      refine ⟨fun _ => hlow hne, ?_⟩
      exact ⟨fun h => absurd h Bool.false_ne_true, fun hboth => hlowTest.mpr hboth.1⟩
  · rintro ⟨hinside, hb⟩
    by_cases hlow : port.low = 0 ∨ decide ¬halfAt packet i < port.low
    · refine ⟨true, ⟨fun h => hinside (.inl h), iff_of_true rfl hlow⟩, ?_⟩
      rw [if_pos rfl, boundHolds_ofData_iff]
      refine ⟨fun h => hinside (.inr h), hb.trans ?_⟩
      exact ⟨fun hboth => hboth.2, fun hhigh => ⟨hlow, hhigh⟩⟩
    · refine ⟨false, ⟨fun h => hinside (.inl h), iff_of_false Bool.false_ne_true hlow⟩, ?_⟩
      have hfalse : b = false := Bool.eq_false_iff.mpr fun htrue => hlow (hb.mp htrue).1
      rw [hfalse]
      rfl

theorem portsMatch_ofData_iff {ipfw : IpfwRule} {ipHlen : Nat} :
    ipfw.portsMatch (ofData packet) ipHlen = .ok b ↔ ipfw.PortsInside packet ipHlen ∧
      (b = true ↔ ipfw.portSrc.takes (halfAt packet ipHlen) ∧
        ipfw.portDst.takes (halfAt packet (ipHlen + 2))) := by
  rw [IpfwRule.portsMatch, bind_eq_ok, IpfwRule.PortsInside]
  simp only [admits_ofData_iff]
  constructor
  · rintro ⟨src, ⟨hsrc, htakes⟩, h⟩
    cases src with
    | true =>
      rw [if_pos rfl, admits_ofData_iff] at h
      refine ⟨⟨hsrc, fun _ => h.1⟩, h.2.trans ?_⟩
      exact ⟨fun hdst => ⟨htakes.mp rfl, hdst⟩, fun hboth => hboth.2⟩
    | false =>
      obtain rfl := Except.ok.inj h
      have hnot : ¬ipfw.portSrc.takes (halfAt packet ipHlen) := fun h =>
        Bool.false_ne_true (htakes.mpr h)
      exact ⟨⟨hsrc, fun h => absurd h hnot⟩, iff_of_false Bool.false_ne_true fun h => hnot h.1⟩
  · rintro ⟨⟨hsrc, hdst⟩, hb⟩
    by_cases htakes : ipfw.portSrc.takes (halfAt packet ipHlen)
    · refine ⟨true, ⟨hsrc, iff_of_true rfl htakes⟩, ?_⟩
      rw [if_pos rfl, admits_ofData_iff]
      exact ⟨hdst htakes, hb.trans ⟨fun h => h.2, fun h => ⟨htakes, h⟩⟩⟩
    · refine ⟨false, ⟨hsrc, iff_of_false Bool.false_ne_true htakes⟩, ?_⟩
      have hfalse : b = false := Bool.eq_false_iff.mpr fun h => htakes (hb.mp h).1
      rw [hfalse]
      rfl

/-- The headers of a packet are read in one way only. -/
theorem IpHeaders.unique {header' : Option IpHeader} (h : IpHeaders packet header)
    (h' : IpHeaders packet header') : header = header' := by
  have hok := ipHeader_ofData_iff.mpr h
  rw [ipHeader_ofData_iff.mpr h'] at hok
  exact (Except.ok.inj hok).symm

/-- What a rule does with a packet whose headers are read. -/
private theorem matchesHeader_iff {h : IpHeader} :
    (if rule.ipfw.ipSrc.covers h.srcAddr h.addrLen && rule.ipfw.ipDst.covers h.dstAddr h.addrLen then
      if rule.ipfw.proto = 0 then return true
      else if rule.ipfw.proto = h.proto then
        if rule.ipfw.proto = ipprotoTcp then rule.ipfw.portsMatch (ofData packet) h.ipHlen.toNat
        else if rule.ipfw.proto = ipprotoUdp then
          rule.ipfw.portsMatch (ofData packet) h.ipHlen.toNat
        else return true
      else return false
    else return false : Except Fault Bool) = .ok b ↔
      (rule.ComparesPorts h → rule.ipfw.PortsInside packet h.ipHlen.toNat) ∧
        (b = true ↔ rule.covers h = true ∧ (rule.ipfw.proto = 0 ∨ rule.ipfw.proto = h.proto) ∧
          (rule.ComparesPorts h → rule.ipfw.portSrc.takes (halfAt packet h.ipHlen.toNat) ∧
            rule.ipfw.portDst.takes (halfAt packet (h.ipHlen.toNat + 2)))) := by
  have hconst (c : Bool) : (pure c : Except Fault Bool) = .ok b ↔ b = c :=
    ⟨fun h => (Except.ok.inj h).symm, fun h => congrArg Except.ok h.symm⟩
  change (if rule.covers h = true then _ else _) = _ ↔ _
  rw [PfcpRule.ComparesPorts]
  by_cases hcovers : rule.covers h = true
  · rw [if_pos hcovers]
    by_cases hzero : rule.ipfw.proto = 0
    · have hports : ¬(rule.ipfw.proto = h.proto ∧ (h.proto = ipprotoTcp ∨ h.proto = ipprotoUdp)) := by
        rintro ⟨hproto, hports⟩
        rw [← hproto, hzero] at hports
        exact absurd hports (by decide)
      rw [if_pos hzero, hconst]
      tauto
    rw [if_neg hzero]
    by_cases hproto : rule.ipfw.proto = h.proto
    · rw [if_pos hproto, hproto]
      by_cases htcp : h.proto = ipprotoTcp
      · rw [if_pos htcp, portsMatch_ofData_iff]
        tauto
      rw [if_neg htcp]
      by_cases hudp : h.proto = ipprotoUdp
      · rw [if_pos hudp, portsMatch_ofData_iff]
        tauto
      · rw [if_neg hudp, hconst]
        tauto
    · rw [if_neg hproto, hconst, ← Bool.not_eq_true]
      tauto
  · rw [if_neg hcovers, hconst, ← Bool.not_eq_true]
    tauto

theorem matchesPacket_ofData_iff :
    rule.matchesPacket (ofData packet) = .ok b ↔
      rule.Inside packet ∧ (b = true ↔ rule.Matches packet) := by
  rw [PfcpRule.matchesPacket, bind_eq_ok]
  simp only [ipHeader_ofData_iff]
  constructor
  · rintro ⟨header, hheaders, h⟩
    cases header with
    | none =>
      obtain rfl := Except.ok.inj h
      refine ⟨⟨none, hheaders, fun h hnone => by cases hnone⟩, ?_⟩
      refine iff_of_false Bool.false_ne_true ?_
      rintro ⟨h, hsome, -⟩
      cases hheaders.unique hsome
    | some h' =>
      obtain ⟨hinside, hb⟩ := matchesHeader_iff.mp h
      refine ⟨⟨some h', hheaders, ?_⟩, hb.trans ⟨fun hmatches => ⟨h', hheaders, hmatches⟩, ?_⟩⟩
      · rintro _ ⟨⟩
        exact hinside
      · rintro ⟨h, hsome, hmatches⟩
        obtain rfl := Option.some.inj (hheaders.unique hsome)
        exact hmatches
  · rintro ⟨⟨header, hheaders, hinside⟩, hb⟩
    refine ⟨header, hheaders, ?_⟩
    cases header with
    | none =>
      have hfalse : b = false := by
        refine Bool.eq_false_iff.mpr fun htrue => ?_
        obtain ⟨h, hsome, -⟩ := hb.mp htrue
        cases hheaders.unique hsome
      rw [hfalse]
      rfl
    | some h' =>
      refine matchesHeader_iff.mpr ⟨hinside h' rfl, hb.trans ⟨?_, fun h => ⟨h', hheaders, h⟩⟩⟩
      rintro ⟨h, hsome, hmatches⟩
      obtain rfl := Option.some.inj (hheaders.unique hsome)
      exact hmatches

theorem rulesAdmit_ofData_iff {pdr : Pdr} :
    pdr.rulesAdmit (ofData packet) = .ok b ↔
      pdr.RulesInside packet ∧ (b = true ↔ pdr.RulesMatch packet) := by
  rw [Pdr.rulesAdmit, Pdr.RulesInside, Pdr.RulesMatch]
  by_cases hlist : pdr.ruleList = []
  · rw [if_pos (by simp [hlist])]
    constructor
    · intro h
      obtain rfl := Except.ok.inj h
      exact ⟨fun hne => absurd hlist hne, iff_of_true rfl (.inl hlist)⟩
    · rintro ⟨-, hb⟩
      rw [hb.mpr (.inl hlist)]
      rfl
  · rw [if_neg (by simpa using hlist), Pdr.ruleFindByPacket]
    by_cases hempty : packet = []
    · have hlen : (ofData packet).len = 0 := congrArg List.length hempty
      rw [if_pos hlen]
      refine iff_of_false (fun h => ?_) fun h => (h.1 hlist).1 hempty
      obtain ⟨_, h, -⟩ := bind_eq_ok.mp h
      cases h
    · have hlen : (ofData packet).len ≠ 0 := fun h => hempty (List.eq_nil_of_length_eq_zero h)
      have htest (rule : PfcpRule) (b : Bool) : rule.matchesPacket (ofData packet) = .ok b ↔
          rule.Inside packet ∧ (b = true ↔ rule.Matches packet) := matchesPacket_ofData_iff
      rw [if_neg hlen, forall_prop_of_true hlist, ← returns_findM?_iff htest, bind_eq_ok]
      constructor
      · rintro ⟨found, hfound, h⟩
        obtain rfl := Except.ok.inj h
        refine ⟨⟨hempty, found, hfound⟩, (isSome_of_findM?_iff htest hfound).trans ?_⟩
        exact (or_iff_right hlist).symm
      · rintro ⟨⟨-, found, hfound⟩, hb⟩
        refine ⟨found, hfound, congrArg Except.ok ?_⟩
        rw [Bool.eq_iff_iff, hb, isSome_of_findM?_iff htest hfound]
        exact (or_iff_right hlist).symm

end Quicup.Open5gs
