import Quicup.Open5gs.Pfcp.PacketBounds

/-!
# How far the headers of an IPv6 packet reach

`decode_ipv6_header` goes where the lengths in the packet say. It returns a header length inside the
packet just when every header that it comes to lies there. A jumbo option for a payload of no octets
is read over and over.
-/

namespace Quicup.Open5gs

open Pkbuf

variable (packet : List UInt8)

/-- From an offset and the number of the header there, the extension headers stay inside the packet,
and so does the offset behind them as 16 bits hold it. -/
inductive ChainInside (endp : Nat) : Nat → UInt8 → Prop
  | payload {p nxt} : endp ≤ p → p % 65536 ≤ packet.length → ChainInside endp p nxt
  | upperLayer {p nxt} : isExtension nxt = false → nxt ≠ ipprotoFragment → nxt ≠ ipprotoAh →
      p % 65536 ≤ packet.length → ChainInside endp p nxt
  | extension {p nxt} : p < endp → isExtension nxt = true → p + 1 < packet.length →
      ChainInside endp (p + ((octetAt packet (p + 1)).toNat * 8 + 8)) (octetAt packet p) →
      ChainInside endp p nxt
  | fragment {p nxt} : p < endp → nxt = ipprotoFragment → p < packet.length →
      ChainInside endp (p + 8) (octetAt packet p) → ChainInside endp p nxt
  | ah {p nxt} : p < endp → nxt = ipprotoAh → p + 1 < packet.length →
      ChainInside endp (p + ((octetAt packet (p + 1)).toNat + 2) * 4) (octetAt packet p) →
      ChainInside endp p nxt

/-- The fields of the packet keep the decoder inside it: there is no payload and no jumbo option to
look for, or the headers in front of a payload of some octets stay inside. -/
inductive HeadersInside : Prop
  | refused : 6 < packet.length → halfAt packet 4 = 0 → octetAt packet 6 ≠ 0 → HeadersInside
  | jumbo {len} : 6 < packet.length → halfAt packet 4 = 0 → octetAt packet 6 = 0 →
      JumboOption packet 42 len → len ≠ 0 → ChainInside packet (40 + len.toNat) 40 0 → HeadersInside
  | sized : 6 < packet.length → halfAt packet 4 ≠ 0 →
      ChainInside packet (40 + (halfAt packet 4).toNat) 40 (octetAt packet 6) → HeadersInside

/-- The decoder returns from within the packet, with a header length that the packet has. -/
def HeaderDecoded : Prop :=
  ∃ upper, decodeIpv6Header (ofData packet) = .ok upper ∧
    ∀ proto hlen, upper = some (proto, hlen) → hlen.toNat ≤ packet.length

variable {packet} {endp p : Nat} {nxt : UInt8}

theorem ChainInside.upper (h : ChainInside packet endp p nxt) :
    ∃ upper, HeaderChain packet endp p nxt upper ∧ upper.2 % 65536 ≤ packet.length := by
  induction h with
  | payload hp hinside => exact ⟨_, .payload hp, hinside⟩
  | upperLayer hext hfragment hah hinside => exact ⟨_, .upperLayer hext hfragment hah, hinside⟩
  | extension hp hext hlt _ ih =>
    obtain ⟨upper, hchain, hinside⟩ := ih
    exact ⟨upper, .extension hp hext hlt hchain, hinside⟩
  | fragment hp hnxt hlt _ ih =>
    obtain ⟨upper, hchain, hinside⟩ := ih
    exact ⟨upper, .fragment hp hnxt hlt hchain, hinside⟩
  | ah hp hnxt hlt _ ih =>
    obtain ⟨upper, hchain, hinside⟩ := ih
    exact ⟨upper, .ah hp hnxt hlt hchain, hinside⟩

theorem HeaderChain.inside {upper : UInt8 × Nat} (h : HeaderChain packet endp p nxt upper)
    (hinside : upper.2 % 65536 ≤ packet.length) : ChainInside packet endp p nxt := by
  induction h with
  | payload hp => exact .payload hp hinside
  | upperLayer hext hfragment hah => exact .upperLayer hext hfragment hah hinside
  | extension hp hext hlt _ ih => exact .extension hp hext hlt (ih hinside)
  | fragment hp hnxt hlt _ ih => exact .fragment hp hnxt hlt (ih hinside)
  | ah hp hnxt hlt _ ih => exact .ah hp hnxt hlt (ih hinside)

/-- The length that is returned is the offset as 16 bits hold it. -/
theorem toNat_hlen (n : Nat) : (UInt16.ofNat n).toNat = n % 65536 := UInt16.toNat_ofNat'

theorem headerDecoded_iff (packet : List UInt8) : HeaderDecoded packet ↔ HeadersInside packet := by
  simp only [HeaderDecoded, decodeIpv6Header_ofData_iff]
  constructor
  · rintro ⟨upper, hheaders, hlength⟩
    cases hheaders with
    | refused hlt hzero hnxt => exact .refused hlt hzero hnxt
    | jumbo hlt hzero hnxt hoption hne hchain =>
      have hinside := hlength _ _ rfl
      rw [toNat_hlen] at hinside
      exact .jumbo hlt hzero hnxt hoption hne (hchain.inside hinside)
    | sized hlt hsized hchain =>
      have hinside := hlength _ _ rfl
      rw [toNat_hlen] at hinside
      exact .sized hlt hsized (hchain.inside hinside)
  · intro h
    have hfits {upper : UInt8 × Nat} (hinside : upper.2 % 65536 ≤ packet.length) (proto : UInt8)
        (hlen : UInt16) (hsome : some (upper.1, UInt16.ofNat upper.2) = some (proto, hlen)) :
        hlen.toNat ≤ packet.length := by
      cases hsome
      rwa [toNat_hlen]
    cases h with
    | refused hlt hzero hnxt => exact ⟨none, .refused hlt hzero hnxt, nofun⟩
    | jumbo hlt hzero hnxt hoption hne hchain =>
      obtain ⟨upper, hchain, hinside⟩ := hchain.upper
      exact ⟨_, .jumbo hlt hzero hnxt hoption hne hchain, hfits hinside⟩
    | sized hlt hsized hchain =>
      obtain ⟨upper, hchain, hinside⟩ := hchain.upper
      exact ⟨_, .sized hlt hsized hchain, hfits hinside⟩

/-- A packet of IPv6 with a jumbo option for a payload of no octets. -/
def emptyJumbo : List UInt8 :=
  [0x60, 0, 0, 0, 0, 0, 0, 64] ++ (List.replicate 32 0 ++ [59, 0, 0xc2, 4, 0, 0, 0, 0])

/-- The decoder does not return from it. -/
theorem not_headerDecoded : versionAt emptyJumbo = 6 ∧ ¬HeaderDecoded emptyJumbo := by
  refine ⟨by decide, ?_⟩
  rintro ⟨upper, hdecoded, -⟩
  cases decodeIpv6Header_ofData_iff.mp hdecoded with
  | refused _ _ hnxt => exact hnxt (by decide)
  | sized _ hsized => exact hsized (by decide)
  | jumbo _ _ _ hoption hne =>
    cases hoption with
    | jumbo => exact hne (by decide)
    | pad _ hpad => exact absurd hpad (by decide)
    | other _ hjumbo => exact hjumbo (by decide)

end Quicup.Open5gs
