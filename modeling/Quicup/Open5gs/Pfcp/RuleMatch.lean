import Quicup.Open5gs.Core.Pkbuf
import Quicup.Open5gs.Pfcp.Context

/-!
# Matching packets with SDF rules

`rule-match.c`: the rules of a detection rule are compared with the addresses, the
protocol and the ports of a packet. The headers of the packet are read where the
packet says they are.
-/

namespace Quicup.Open5gs

open Pkbuf Fallible

def ipprotoHopopts : UInt8 := 0

def ipprotoTcp : UInt8 := 6

def ipprotoUdp : UInt8 := 17

def ipprotoRouting : UInt8 := 43

def ipprotoFragment : UInt8 := 44

def ipprotoAh : UInt8 := 51

def ipprotoDstopts : UInt8 := 60

def ip6optJumbo : UInt8 := 0xc2

/-! ## The headers of an IPv6 packet -/

/-- The loop of `decode_ipv6_header` over the options of a jumbo frame, which yields
where the payload ends. A jumbo payload of no octets leaves the loop where it is. -/
def jumboEnd (pkbuf : Pkbuf) (p jp : Nat) : Except Fault Nat :=
  match pkbuf.word (jp + 2) with
  | .error fault => .error fault
  | .ok jpLen =>
    match htype : pkbuf.octet jp with
    | .error fault => .error fault
    | .ok type =>
      if type = ip6optJumbo then
        if jpLen = 0 then .error .hang else .ok (p + jpLen.toNat)
      else if type = 0 then jumboEnd pkbuf p (jp + 1)
      else jumboEnd pkbuf p (jp + (2 + jpLen.toNat))
termination_by pkbuf.size - jp
decreasing_by
  all_goals
    have hjp := lt_size htype
    omega

/-- The headers whose length field counts units of eight octets behind the first. -/
def isExtension (nxt : UInt8) : Bool :=
  nxt ∈ [ipprotoHopopts, ipprotoRouting, ipprotoDstopts, 135, 139, 140, 253, 254]

/-- The loop of `decode_ipv6_header` over the extension headers, which yields the
number of the header behind them and where it starts. -/
def extensions (pkbuf : Pkbuf) (endp p : Nat) (nxt : UInt8) : Except Fault (UInt8 × Nat) :=
  if hp : p < endp then
    if isExtension nxt then do
      let ip6eLen ← pkbuf.octet (p + 1)
      extensions pkbuf endp (p + (ip6eLen.toNat * 8 + 8)) (← pkbuf.octet p)
    else if nxt = ipprotoFragment then do
      extensions pkbuf endp (p + 8) (← pkbuf.octet p)
    else if nxt = ipprotoAh then do
      let ip6eLen ← pkbuf.octet (p + 1)
      extensions pkbuf endp (p + (ip6eLen.toNat + 2) * 4) (← pkbuf.octet p)
    else .ok (nxt, p)
  else .ok (nxt, p)
termination_by endp - p

/-- `endp` behind the loop over the options. A frame is jumbo when its length is zero. -/
def payloadEnd (pkbuf : Pkbuf) (p : Nat) (plen : UInt16) : Except Fault Nat :=
  if plen = 0 then jumboEnd pkbuf p (p + 2) else .ok (p + plen.toNat)

/-- `decode_ipv6_header`, where `none` is `OGS_ERROR`. -/
def decodeIpv6Header (pkbuf : Pkbuf) : Except Fault (Option (UInt8 × UInt16)) := do
  let nxt ← pkbuf.octet 6
  let plen ← pkbuf.half 4
  if plen = 0 ∧ nxt ≠ 0 then
    return none
  let endp ← payloadEnd pkbuf 40 plen
  let (proto, hlen) ← extensions pkbuf endp 40 nxt
  return some (proto, UInt16.ofNat hlen)

/-! ## Rules -/

/-- What a rule is compared with. `addrLen` counts words. -/
structure IpHeader where
  proto : UInt8
  ipHlen : UInt16
  srcAddr : Vector UInt32 4
  dstAddr : Vector UInt32 4
  addrLen : Nat

/-- `ip_v` of the header at the front. -/
def ipV (pkbuf : Pkbuf) : Except Fault UInt8 := do
  return (← pkbuf.octet 0) >>> 4

/-- The header of a packet that a rule can match. -/
def ipHeader (pkbuf : Pkbuf) : Except Fault (Option IpHeader) := do
  let version ← ipV pkbuf
  if version = 4 then
    let proto ← pkbuf.octet 9
    let ipHl := (← pkbuf.octet 0) &&& 0xf
    return some ⟨proto, ipHl.toUInt16 * 4, ← pkbuf.words 12, ← pkbuf.words 16, 1⟩
  else if version = 6 then
    match ← decodeIpv6Header pkbuf with
    | none => return none
    | some (proto, ipHlen) =>
      return some ⟨proto, ipHlen, ← pkbuf.words 8, ← pkbuf.words 24, 4⟩
  else
    return none

/-- The first words of a masked address are those of the rule. -/
def IpfwAddr.covers (ip : IpfwAddr) (addr : Vector UInt32 4) (addrLen : Nat) : Bool :=
  (List.zipWith (· &&& ·) addr.toList ip.mask.toList).take addrLen = ip.addr.toList.take addrLen

/-- A bound of zero is not set. The port at an offset is read for a bound that is. -/
def boundHolds (bound : UInt16) (test : UInt16 → Bool) (pkbuf : Pkbuf) (i : Nat) :
    Except Fault Bool := do
  if bound = 0 then return true
  else return test (← pkbuf.half i)

def IpfwPort.admits (port : IpfwPort) (pkbuf : Pkbuf) (i : Nat) : Except Fault Bool := do
  if ← boundHolds port.low (fun x => ¬x < port.low) pkbuf i then
    boundHolds port.high (fun x => ¬x > port.high) pkbuf i
  else return false

/-- The ports of a TCP or UDP header against those of a rule. -/
def IpfwRule.portsMatch (ipfw : IpfwRule) (pkbuf : Pkbuf) (ipHlen : Nat) : Except Fault Bool := do
  if ← ipfw.portSrc.admits pkbuf ipHlen then ipfw.portDst.admits pkbuf (ipHlen + 2)
  else return false

/-- The body of the loop over the rules. -/
def PfcpRule.matchesPacket (rule : PfcpRule) (pkbuf : Pkbuf) : Except Fault Bool := do
  match ← ipHeader pkbuf with
  | none => return false
  | some h =>
    if rule.ipfw.ipSrc.covers h.srcAddr h.addrLen && rule.ipfw.ipDst.covers h.dstAddr h.addrLen then
      if rule.ipfw.proto = 0 then return true
      else if rule.ipfw.proto = h.proto then
        if rule.ipfw.proto = ipprotoTcp then rule.ipfw.portsMatch pkbuf h.ipHlen.toNat
        else if rule.ipfw.proto = ipprotoUdp then rule.ipfw.portsMatch pkbuf h.ipHlen.toNat
        else return true
      else return false
    else return false

/-- `ogs_pfcp_pdr_rule_find_by_packet` -/
def Pdr.ruleFindByPacket (pdr : Pdr) (pkbuf : Pkbuf) : Except Fault (Option PfcpRule) :=
  if pkbuf.len = 0 then .error .assertion
  else pdr.ruleList.findM? fun rule => rule.matchesPacket pkbuf

/-- The test of the packet loops: a detection rule without SDF rules takes every packet. -/
def Pdr.rulesAdmit (pdr : Pdr) (pkbuf : Pkbuf) : Except Fault Bool := do
  if pdr.ruleList.isEmpty then return true
  else return (← pdr.ruleFindByPacket pkbuf).isSome

/-! ## Packets in larger blocks

A match that stays inside a packet is the same for the packet in every block. -/

theorem jumboEnd_eq (pkbuf : Pkbuf) (p jp : Nat) :
    jumboEnd pkbuf p jp = (do
      let jpLen ← pkbuf.word (jp + 2)
      let type ← pkbuf.octet jp
      if type = ip6optJumbo then
        if jpLen = 0 then .error .hang else .ok (p + jpLen.toNat)
      else if type = 0 then jumboEnd pkbuf p (jp + 1)
      else jumboEnd pkbuf p (jp + (2 + jpLen.toNat))) := by
  rw [jumboEnd]
  cases pkbuf.word (jp + 2) with
  | error fault => rfl
  | ok jpLen =>
    dsimp only
    split
    · rename_i htype
      rw [htype]
      rfl
    · rename_i htype
      rw [htype]
      rfl

theorem jumboEnd_of_ofData {data room : List UInt8} {p jp endp : Nat}
    (h : jumboEnd (ofData data) p jp = .ok endp) : jumboEnd ⟨data, room⟩ p jp = .ok endp := by
  rw [jumboEnd_eq] at h ⊢
  obtain ⟨jpLen, hjpLen, h⟩ := bind_eq_ok.mp h
  obtain ⟨type, htype, h⟩ := bind_eq_ok.mp h
  refine bind_eq_ok.mpr ⟨jpLen, stable_word _ data room _ hjpLen, ?_⟩
  refine bind_eq_ok.mpr ⟨type, stable_octet _ data room _ htype, ?_⟩
  have hjp : jp < (ofData data).size := lt_size htype
  by_cases hjumbo : type = ip6optJumbo
  · rw [if_pos hjumbo] at h ⊢
    exact h
  rw [if_neg hjumbo] at h ⊢
  by_cases hpad : type = 0
  · rw [if_pos hpad] at h ⊢
    exact jumboEnd_of_ofData h
  · rw [if_neg hpad] at h ⊢
    exact jumboEnd_of_ofData h
termination_by (ofData data).size - jp

theorem stable_extensions (endp p : Nat) (nxt : UInt8) :
    Stable fun pkbuf => extensions pkbuf endp p nxt := by
  by_cases hp : p < endp
  · simp only [extensions.eq_def _ endp p, dif_pos hp]
    refine stable_ite (stable_bind (stable_octet _) fun ip6eLen => ?_) <|
      stable_ite ?_ <| stable_ite (stable_bind (stable_octet _) fun ip6eLen => ?_) ?_
    · exact stable_bind (stable_octet p) fun next => stable_extensions _ _ next
    · exact stable_bind (stable_octet p) fun next => stable_extensions _ _ next
    · exact stable_bind (stable_octet p) fun next => stable_extensions _ _ next
    · exact stable_const _
  · simp only [extensions.eq_def _ endp p, dif_neg hp]
    exact stable_const _
termination_by endp - p

theorem stable_payloadEnd (p : Nat) (plen : UInt16) :
    Stable fun pkbuf => payloadEnd pkbuf p plen :=
  stable_ite (fun _ _ _ => jumboEnd_of_ofData) (stable_const _)

theorem stable_decodeIpv6Header : Stable decodeIpv6Header := by
  refine stable_bind (stable_octet 6) fun nxt => stable_bind (stable_half 4) fun plen => ?_
  refine stable_ite (stable_const _) (stable_bind (stable_payloadEnd 40 plen) fun endp => ?_)
  exact stable_map _ (stable_extensions endp 40 nxt)

theorem stable_ipV : Stable ipV := stable_map _ (stable_octet 0)

theorem stable_ipHeader : Stable ipHeader := by
  refine stable_bind stable_ipV fun version => stable_ite ?_ (stable_ite ?_ (stable_const _))
  · refine stable_bind (stable_octet 9) fun proto => stable_bind (stable_octet 0) fun ipHl => ?_
    exact stable_bind (stable_words 12) fun _ => stable_map _ (stable_words 16)
  · refine stable_bind stable_decodeIpv6Header fun decoded => ?_
    cases decoded with
    | none => exact stable_const _
    | some decoded => exact stable_bind (stable_words 8) fun _ => stable_map _ (stable_words 24)

theorem stable_boundHolds (bound : UInt16) (test : UInt16 → Bool) (i : Nat) :
    Stable fun pkbuf => boundHolds bound test pkbuf i :=
  stable_ite (stable_const _) (stable_map _ (stable_half i))

theorem stable_admits (port : IpfwPort) (i : Nat) : Stable fun pkbuf => port.admits pkbuf i :=
  stable_bind (stable_boundHolds _ _ i) fun _ =>
    stable_ite (stable_boundHolds _ _ i) (stable_const _)

theorem stable_portsMatch (ipfw : IpfwRule) (ipHlen : Nat) :
    Stable fun pkbuf => ipfw.portsMatch pkbuf ipHlen :=
  stable_bind (stable_admits _ _) fun _ => stable_ite (stable_admits _ _) (stable_const _)

theorem stable_matchesPacket (rule : PfcpRule) : Stable rule.matchesPacket := by
  refine stable_bind stable_ipHeader fun header => ?_
  cases header with
  | none => exact stable_const _
  | some h =>
    refine stable_ite (stable_ite (stable_const _) (stable_ite ?_ (stable_const _))) (stable_const _)
    exact stable_ite (stable_portsMatch _ _) (stable_ite (stable_portsMatch _ _) (stable_const _))

theorem stable_ruleFindByPacket (pdr : Pdr) : Stable pdr.ruleFindByPacket := by
  intro data room found h
  rw [Pdr.ruleFindByPacket] at h ⊢
  split at h
  · exact nomatch h
  · rename_i hlen
    have hfound := stable_findM? stable_matchesPacket pdr.ruleList data room found h
    exact (if_neg hlen).trans hfound

theorem stable_rulesAdmit (pdr : Pdr) : Stable pdr.rulesAdmit :=
  stable_ite (stable_const _) (stable_map _ (stable_ruleFindByPacket pdr))

end Quicup.Open5gs
