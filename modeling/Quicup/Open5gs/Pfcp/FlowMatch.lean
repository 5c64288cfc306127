import Quicup.Open5gs.Pfcp.Flows
import Quicup.Open5gs.Pfcp.Ipfw

/-!
# The first rule that takes a flow

The rules of a detection rule are for flows. `ogs_pfcp_pdr_rule_find_by_packet` finds the first
rule that takes the flow of a packet. A rule that `ogs_ipfw_rule_swap` turned round is for the
flow in the other direction.
-/

namespace Quicup.Open5gs

open Pkbuf Fallible

/-! ## Rules for flows -/

/-- The words of an address, masked, are those of the rule. -/
def IpfwAddr.CoversWords (ip : IpfwAddr) (addr : List UInt32) : Prop :=
  List.zipWith (· &&& ·) addr ip.mask.toList = ip.addr.toList.take addr.length

/-- The address is in the prefix of the rule. -/
def IpfwAddr.Contains (ip : IpfwAddr) (addr : List UInt32) : Prop :=
  List.zipWith (· &&& ·) addr ip.mask.toList =
    (List.zipWith (· &&& ·) ip.addr.toList ip.mask.toList).take addr.length

instance (ip : IpfwAddr) (addr : List UInt32) : Decidable (ip.CoversWords addr) :=
  inferInstanceAs (Decidable (_ = _))

instance IpfwAddr.decidableContains (ip : IpfwAddr) (addr : List UInt32) :
    Decidable (ip.Contains addr) :=
  inferInstanceAs (Decidable (_ = _))

instance (port : IpfwPort) (x : UInt16) : Decidable (port.takes x) :=
  inferInstanceAs (Decidable (_ ∧ _))

instance (port : IpfwPort) : Decidable port.isSet := inferInstanceAs (Decidable (_ ∨ _))

/-- The bounds of the ports that are set hold for those of the flow. -/
def IpfwRule.TakesPorts (ipfw : IpfwRule) (flow : PacketFlow) : Prop :=
  ∀ ports ∈ flow.ports, ipfw.portSrc.takes ports.1 ∧ ipfw.portDst.takes ports.2

instance (ipfw : IpfwRule) (flow : PacketFlow) : Decidable (ipfw.TakesPorts flow) :=
  Option.decidableForallMem flow.ports

/-- The rule names no address of the other family. -/
def CompiledRule.Agrees (rule : CompiledRule) : Family → Prop
  | .ipv4 => rule.ipv6Src = false ∧ rule.ipv6Dst = false
  | .ipv6 => rule.ipv4Src = false ∧ rule.ipv4Dst = false

instance (rule : CompiledRule) : (family : Family) → Decidable (rule.Agrees family)
  | .ipv4 => inferInstanceAs (Decidable (_ ∧ _))
  | .ipv6 => inferInstanceAs (Decidable (_ ∧ _))

/-- The family, the prefixes and the protocol of a rule are those of a flow. -/
def CompiledRule.Names (rule : CompiledRule) (flow : PacketFlow) : Prop :=
  rule.Agrees flow.family ∧ rule.ipSrc.Contains flow.src ∧ rule.ipDst.Contains flow.dst ∧
    (rule.proto = 0 ∨ rule.proto = flow.proto)

instance (rule : CompiledRule) (flow : PacketFlow) : Decidable (rule.Names flow) :=
  inferInstanceAs (Decidable (_ ∧ _))

/-- A rule takes a flow that it names, and whose ports it takes if it has a protocol. -/
def CompiledRule.Takes (rule : CompiledRule) (flow : PacketFlow) : Prop :=
  rule.Names flow ∧ (rule.proto ≠ 0 → rule.TakesPorts flow)

instance (rule : CompiledRule) (flow : PacketFlow) : Decidable (rule.Takes flow) :=
  inferInstanceAs (Decidable (_ ∧ _))

/-! ## The octets of a block

Matching reads the octets of a block alike, in the packet and behind it. -/

section Flat

variable {α β : Type} {f : Pkbuf → Except Fault α}

def Flat (f : Pkbuf → Except Fault α) : Prop :=
  ∀ data room, f ⟨data, room⟩ = f (ofData (data ++ room))

theorem flat_const (x : Except Fault α) : Flat fun _ => x := fun _ _ => rfl

theorem flat_bind {g : Pkbuf → α → Except Fault β} (hf : Flat f)
    (hg : ∀ a, Flat fun pkbuf => g pkbuf a) : Flat fun pkbuf => f pkbuf >>= g pkbuf := by
  intro data room
  change f ⟨data, room⟩ >>= _ = _
  rw [hf data room]
  exact congrArg _ (funext fun a => hg a data room)

theorem flat_map (g : α → β) (hf : Flat f) : Flat fun pkbuf => f pkbuf >>= fun a => pure (g a) :=
  flat_bind hf fun a => flat_const (pure (g a))

theorem flat_ite {c : Prop} [Decidable c] {g : Pkbuf → Except Fault α} (hf : Flat f) (hg : Flat g) :
    Flat fun pkbuf => if c then f pkbuf else g pkbuf := by
  split
  · exact hf
  · exact hg

theorem flat_octet (i : Nat) : Flat fun pkbuf => pkbuf.octet i := by
  intro data room
  simp only [octet, ofData, List.append_nil]

theorem flat_half (i : Nat) : Flat fun pkbuf => pkbuf.half i :=
  flat_bind (flat_octet i) fun _ => flat_map _ (flat_octet (i + 1))

theorem flat_word (i : Nat) : Flat fun pkbuf => pkbuf.word i :=
  flat_bind (flat_octet i) fun _ => flat_bind (flat_octet (i + 1)) fun _ =>
    flat_bind (flat_octet (i + 2)) fun _ => flat_map _ (flat_octet (i + 3))

theorem flat_words (i : Nat) : Flat fun pkbuf => pkbuf.words i :=
  flat_bind (flat_word i) fun _ => flat_bind (flat_word (i + 4)) fun _ =>
    flat_bind (flat_word (i + 8)) fun _ => flat_map _ (flat_word (i + 12))

theorem jumboEnd_block (data room : List UInt8) (p jp : Nat) :
    jumboEnd ⟨data, room⟩ p jp = jumboEnd (ofData (data ++ room)) p jp := by
  have hword : Pkbuf.word ⟨data, room⟩ (jp + 2) = (ofData (data ++ room)).word (jp + 2) :=
    flat_word (jp + 2) data room
  have hoctet : Pkbuf.octet ⟨data, room⟩ jp = (ofData (data ++ room)).octet jp :=
    flat_octet jp data room
  rw [jumboEnd_eq, jumboEnd_eq (ofData _), hword, hoctet]
  refine congrArg _ (funext fun jpLen => ?_)
  cases htype : (ofData (data ++ room)).octet jp with
  | error fault => rfl
  | ok type =>
    have hjp : jp < (ofData (data ++ room)).size := lt_size htype
    rw [ok_bind, ok_bind]
    refine ite_congr rfl (fun _ => rfl) fun _ => ite_congr rfl (fun _ => ?_) fun _ => ?_
    · exact jumboEnd_block data room p (jp + 1)
    · exact jumboEnd_block data room p (jp + (2 + jpLen.toNat))
termination_by (ofData (data ++ room)).size - jp

theorem flat_extensions (endp p : Nat) (nxt : UInt8) :
    Flat fun pkbuf => extensions pkbuf endp p nxt := by
  by_cases hp : p < endp
  · simp only [extensions.eq_def _ endp p, dif_pos hp]
    refine flat_ite (flat_bind (flat_octet _) fun ip6eLen => ?_) <|
      flat_ite ?_ <| flat_ite (flat_bind (flat_octet _) fun ip6eLen => ?_) (flat_const _)
    · exact flat_bind (flat_octet p) fun next => flat_extensions _ _ next
    · exact flat_bind (flat_octet p) fun next => flat_extensions _ _ next
    · exact flat_bind (flat_octet p) fun next => flat_extensions _ _ next
  · simp only [extensions.eq_def _ endp p, dif_neg hp]
    exact flat_const _
termination_by endp - p

theorem flat_decodeIpv6Header : Flat decodeIpv6Header := by
  refine flat_bind (flat_octet 6) fun nxt => flat_bind (flat_half 4) fun plen => ?_
  refine flat_ite (flat_const _) (flat_bind ?_ fun endp => ?_)
  · exact flat_ite (fun data room => jumboEnd_block data room 40 42) (flat_const _)
  · exact flat_map _ (flat_extensions endp 40 nxt)

theorem flat_ipHeader : Flat ipHeader := by
  have hversion : Flat ipV := flat_map _ (flat_octet 0)
  refine flat_bind hversion fun version => flat_ite ?_ (flat_ite ?_ (flat_const _))
  · refine flat_bind (flat_octet 9) fun proto => flat_bind (flat_octet 0) fun ipHl => ?_
    exact flat_bind (flat_words 12) fun _ => flat_map _ (flat_words 16)
  · refine flat_bind flat_decodeIpv6Header fun decoded => ?_
    cases decoded with
    | none => exact flat_const _
    | some decoded => exact flat_bind (flat_words 8) fun _ => flat_map _ (flat_words 24)

theorem flat_portsMatch (ipfw : IpfwRule) (ipHlen : Nat) :
    Flat fun pkbuf => ipfw.portsMatch pkbuf ipHlen := by
  have hbound (bound : UInt16) (test : UInt16 → Bool) (i : Nat) :
      Flat fun pkbuf => boundHolds bound test pkbuf i :=
    flat_ite (flat_const _) (flat_map _ (flat_half i))
  have hadmits (port : IpfwPort) (i : Nat) : Flat fun pkbuf => port.admits pkbuf i :=
    flat_bind (hbound _ _ i) fun _ => flat_ite (hbound _ _ i) (flat_const _)
  exact flat_bind (hadmits _ _) fun _ => flat_ite (hadmits _ _) (flat_const _)

theorem flat_matchesPacket (rule : PfcpRule) : Flat rule.matchesPacket := by
  refine flat_bind flat_ipHeader fun header => ?_
  cases header with
  | none => exact flat_const _
  | some h =>
    refine flat_ite (flat_ite (flat_const _) (flat_ite ?_ (flat_const _))) (flat_const _)
    exact flat_ite (flat_portsMatch _ _) (flat_ite (flat_portsMatch _ _) (flat_const _))

end Flat

/-! ## Matching a flow -/

/-- The masked addresses of a flow are those of the rule. -/
def IpfwRule.CoversFlow (ipfw : IpfwRule) (flow : PacketFlow) : Prop :=
  ipfw.ipSrc.CoversWords flow.src ∧ ipfw.ipDst.CoversWords flow.dst

instance (ipfw : IpfwRule) (flow : PacketFlow) : Decidable (ipfw.CoversFlow flow) :=
  inferInstanceAs (Decidable (_ ∧ _))

/-- What the comparison of a rule with a flow comes to. -/
def IpfwRule.Matched (ipfw : IpfwRule) (flow : PacketFlow) : Prop :=
  (ipfw.CoversFlow flow ∧ (ipfw.proto = 0 ∨ ipfw.proto = flow.proto)) ∧
    (ipfw.proto ≠ 0 → ipfw.TakesPorts flow)

instance (ipfw : IpfwRule) (flow : PacketFlow) : Decidable (ipfw.Matched flow) :=
  inferInstanceAs (Decidable (_ ∧ _))

/-- The rule compares ports of TCP or UDP with a later fragment, which has none: octets of the
payload are read for them. -/
def IpfwRule.ReadsPayload (ipfw : IpfwRule) (flow : PacketFlow) : Prop :=
  ipfw.CoversFlow flow ∧ ipfw.proto = flow.proto ∧ hasPorts flow.proto = true ∧
    flow.ports = none ∧ (ipfw.portSrc.isSet ∨ ipfw.portDst.isSet)

instance (ipfw : IpfwRule) (flow : PacketFlow) : Decidable (ipfw.ReadsPayload flow) :=
  inferInstanceAs (Decidable (_ ∧ _))

section Matching

variable {data room : List UInt8} {layout : Layout}

theorem zipWith_take {α β γ : Type} (f : α → β → γ) (xs : List α) (ys : List β) (n : Nat) :
    List.zipWith f (xs.take n) ys = (List.zipWith f xs ys).take n := by
  induction xs generalizing ys n with
  | nil => simp
  | cons x xs ih =>
    cases n with
    | zero => simp
    | succ n =>
      cases ys with
      | nil => simp
      | cons y ys => simp [ih]

theorem length_addressAt (family : Family) (i : Nat) :
    (addressAt data family i).length = family.words := by
  cases family <;> rfl

/-- The address of a packet of the family is covered when its words are. -/
theorem IpfwAddr.covers_iff {ip : IpfwAddr} {family : Family} {i : Nat} :
    ip.covers (wordsAt data i) family.words = true ↔ ip.CoversWords (addressAt data family i) := by
  rw [IpfwAddr.covers, IpfwAddr.CoversWords, decide_eq_true_iff, length_addressAt, addressAt,
    zipWith_take]

theorem LeadsTo.headerChain {endp p : Nat} {nxt proto : UInt8} {upper : Option Nat}
    (h : LeadsTo data endp p nxt proto upper) (hlength : endp ≤ data.length) :
    ∃ q, HeaderChain data endp p nxt (proto, q) ∧ ∀ i, upper = some i → i = q := by
  have hupperLayer {nxt : UInt8} (hnxt : isUpperLayer nxt = true) :
      isExtension nxt = false ∧ nxt ≠ ipprotoFragment ∧ nxt ≠ ipprotoAh := by
    simpa [isUpperLayer, and_assoc] using hnxt
  induction h with
  | @upperLayer p nxt hnxt hp =>
    obtain ⟨hextension, hfragment, hah⟩ := hupperLayer hnxt
    refine ⟨p, .upperLayer hextension hfragment hah, ?_⟩
    rintro _ ⟨⟩
    rfl
  | @header p nxt proto upper hnxt hoffset h ih =>
    obtain ⟨q, hchain, hq⟩ := ih
    have hle := h.le.1
    have height : 8 ≤ headerOctets data p nxt := eight_le_headerOctets p nxt
    refine ⟨q, ?_, hq⟩
    rw [headerOctets] at hchain
    by_cases hextension : isExtension nxt = true
    · rw [if_pos hextension] at hchain
      exact .extension (by omega) hextension (by omega) hchain
    rw [if_neg hextension] at hchain
    by_cases hfragment : nxt = ipprotoFragment
    · rw [if_pos hfragment] at hchain
      exact .fragment (by omega) hfragment (by omega) hchain
    rw [if_neg hfragment] at hchain
    have hah : nxt = ipprotoAh := by
      simpa [isUpperLayer, hextension, hfragment] using hnxt
    exact .ah (by omega) hah (by omega) hchain
  | @laterFragment p _ hnxt hp =>
    obtain ⟨hextension, hfragment, hah⟩ := hupperLayer hnxt
    have hupper : HeaderChain data endp (p + 8) (octetAt data p) (octetAt data p, p + 8) :=
      .upperLayer hextension hfragment hah
    refine ⟨p + 8, .fragment (by omega) rfl (by omega) hupper, fun i hi => ?_⟩
    exact absurd hi (Option.some_ne_none i).symm

/-- The headers that matching reads of a well-formed packet. Its ports are where the headers
end. -/
theorem WellFormed.ipHeaders (h : WellFormed data layout) (hblock : 31 < data.length) :
    ∃ hlen : UInt16, IpHeaders data (some ⟨layout.proto, hlen,
        wordsAt data layout.family.source, wordsAt data layout.family.destination,
        layout.family.words⟩) ∧
      ∀ i < 65536, layout.upper = some i → hlen.toNat = i := by
  cases h with
  | ipv4 hversion =>
    refine ⟨_, .ipv4 hversion hblock, fun i _ hupper => ?_⟩
    change ipv4Upper data = some i at hupper
    rw [ipv4Upper] at hupper
    split_ifs at hupper
    obtain rfl := Option.some.inj hupper
    have hle : (octetAt data 0 &&& 0xf).toNat ≤ 15 := by
      rw [UInt8.toNat_and]
      exact Nat.and_le_right
    rw [UInt16.toNat_mul, UInt8.toNat_toUInt16, ipv4HeaderOctets]
    exact Nat.mod_eq_of_lt (show _ * 4 < 65536 by omega)
  | @ipv6 proto upper hversion hplen hlength hleads =>
    obtain ⟨q, hchain, hq⟩ := hleads.headerChain hlength
    refine ⟨.ofNat q, .ipv6 hversion (.sized (by omega) hplen hchain) (by omega), ?_⟩
    intro i hi hupper
    obtain rfl := hq i hupper
    exact Nat.mod_eq_of_lt hi

/-- A bound that is not set holds for every port. -/
theorem IpfwPort.takes_of_not_isSet {port : IpfwPort} (h : ¬port.isSet) (x : UInt16) :
    port.takes x :=
  ⟨fun hlow => absurd (.inl hlow) h, fun hhigh => absurd (.inr hhigh) h⟩

variable {ipfw : IpfwRule}

/-- The ports that a rule compares are those of the flow, and lie in the packet. -/
theorem WellFormed.takesPorts_iff (h : WellFormed data layout) {hlen : Nat}
    (hupper : ∀ i, layout.upper = some i → hlen = i) (hcovers : ipfw.CoversFlow (layout.flow data))
    (hproto : ipfw.proto = layout.proto) (hports : hasPorts layout.proto = true)
    (hpayload : ¬ipfw.ReadsPayload (layout.flow data)) :
    ipfw.PortsInside data hlen ∧
      (ipfw.portSrc.takes (halfAt data hlen) ∧ ipfw.portDst.takes (halfAt data (hlen + 2)) ↔
        ipfw.TakesPorts (layout.flow data)) := by
  have hat : layout.ports = layout.upper := if_pos hports
  have hflow : (layout.flow data).ports =
      layout.ports.map fun i => (halfAt data i, halfAt data (i + 2)) := rfl
  rw [IpfwRule.TakesPorts, hflow, hat]
  cases hi : layout.upper with
  | some i =>
    obtain rfl := hupper i hi
    have hinside := (h.inside.2 hlen (hat.trans hi)).2
    refine ⟨⟨fun _ => by omega, fun _ _ => by omega⟩, ?_⟩
    simp only [Option.map_some, Option.mem_some_iff, forall_eq']
  | none =>
    have hnone : (layout.flow data).ports = none := by
      rw [hflow, hat, hi]
      rfl
    have hunset : ¬(ipfw.portSrc.isSet ∨ ipfw.portDst.isSet) := fun hset =>
      hpayload ⟨hcovers, hproto, hports, hnone, hset⟩
    rw [not_or] at hunset
    refine ⟨⟨fun hset => absurd hset hunset.1, fun _ hset => absurd hset hunset.2⟩, ?_⟩
    refine iff_of_true ⟨?_, ?_⟩ nofun
    · exact IpfwPort.takes_of_not_isSet hunset.1 _
    · exact IpfwPort.takes_of_not_isSet hunset.2 _

theorem ne_zero_of_hasPorts {proto : UInt8} (h : hasPorts proto = true) : proto ≠ 0 := by
  rintro rfl
  exact absurd h (by decide)

theorem Layout.takesPorts_of_not_hasPorts (h : ¬hasPorts layout.proto = true) :
    ipfw.TakesPorts (layout.flow data) := by
  have hnone : (layout.flow data).ports = none := by
    change (if hasPorts layout.proto then layout.upper else none).map _ = none
    rw [if_neg h]
    rfl
  rw [IpfwRule.TakesPorts, hnone]
  exact nofun

/-- Matching compares a rule with the flow of the packet. -/
theorem WellFormed.matchesPacket_ofData (h : WellFormed data layout) (hblock : 31 < data.length)
    (hbound : ∀ i, layout.upper = some i → i < 65536)
    (hpayload : ¬ipfw.ReadsPayload (layout.flow data)) :
    PfcpRule.matchesPacket ⟨ipfw⟩ (ofData data) =
      .ok (decide (ipfw.Matched (layout.flow data))) := by
  obtain ⟨hlen, hheaders, hupper⟩ := h.ipHeaders hblock
  generalize hheader : IpHeader.mk layout.proto hlen (wordsAt data layout.family.source)
    (wordsAt data layout.family.destination) layout.family.words = header at hheaders
  have hupper (i : Nat) (hi : layout.upper = some i) : hlen.toNat = i :=
    hupper i (hbound i hi) hi
  have hcovers : (PfcpRule.mk ipfw).covers header = true ↔
      ipfw.CoversFlow (layout.flow data) := by
    rw [PfcpRule.covers, Bool.and_eq_true, ← hheader]
    exact and_congr IpfwAddr.covers_iff IpfwAddr.covers_iff
  have hproto : header.proto = layout.proto := by rw [← hheader]
  have hipHlen : header.ipHlen.toNat = hlen.toNat := by rw [← hheader]
  have hcompares : (PfcpRule.mk ipfw).ComparesPorts header ↔
      ipfw.CoversFlow (layout.flow data) ∧ ipfw.proto = layout.proto ∧
        hasPorts layout.proto = true := by
    rw [PfcpRule.ComparesPorts, hcovers, hproto, hasPorts, Bool.or_eq_true, decide_eq_true_iff,
      decide_eq_true_iff]
  refine matchesPacket_ofData_iff.mpr ⟨⟨some header, hheaders, ?_⟩, ?_⟩
  · rintro _ ⟨⟩ hcompared
    obtain ⟨hcovered, hsame, hports⟩ := hcompares.mp hcompared
    rw [hipHlen]
    exact (h.takesPorts_iff hupper hcovered hsame hports hpayload).1
  have htakes (hcovered : ipfw.CoversFlow (layout.flow data))
      (hsame : ipfw.proto = 0 ∨ ipfw.proto = layout.proto) :
      ((PfcpRule.mk ipfw).ComparesPorts header →
        ipfw.portSrc.takes (halfAt data header.ipHlen.toNat) ∧
          ipfw.portDst.takes (halfAt data (header.ipHlen.toNat + 2))) ↔
      (ipfw.proto ≠ 0 → ipfw.TakesPorts (layout.flow data)) := by
    rw [hcompares, hipHlen]
    by_cases hports : hasPorts layout.proto = true
    · constructor
      · intro hall hne
        have hsame := hsame.resolve_left hne
        have hiff := (h.takesPorts_iff hupper hcovered hsame hports hpayload).2
        exact hiff.mp (hall ⟨hcovered, hsame, hports⟩)
      · rintro hall ⟨-, hsame, -⟩
        have hiff := (h.takesPorts_iff hupper hcovered hsame hports hpayload).2
        refine hiff.mpr (hall ?_)
        rw [hsame]
        exact ne_zero_of_hasPorts hports
    · refine iff_of_true (fun hcompared => absurd hcompared.2.2 hports) fun _ => ?_
      exact Layout.takesPorts_of_not_hasPorts hports
  rw [decide_eq_true_iff, IpfwRule.Matched]
  constructor
  · rintro ⟨⟨hcovered, hsame⟩, hports⟩
    refine ⟨header, hheaders, hcovers.mpr hcovered, ?_, (htakes hcovered hsame).mpr hports⟩
    rw [hproto]
    exact hsame
  · rintro ⟨header', hheaders', hcovered, hsame, hports⟩
    obtain rfl := Option.some.inj (hheaders.unique hheaders')
    rw [hproto] at hsame
    have hcovered := hcovers.mp hcovered
    exact ⟨⟨hcovered, hsame⟩, (htakes hcovered hsame).mp hports⟩

theorem WellFormed.upper_le (h : WellFormed data layout) {i : Nat} (hi : layout.upper = some i) :
    i ≤ data.length := by
  cases h with
  | ipv4 _ _ htotal hlength =>
    change ipv4Upper data = some i at hi
    rw [ipv4Upper] at hi
    split_ifs at hi
    obtain rfl := Option.some.inj hi
    omega
  | ipv6 _ _ hlength hleads =>
    have hle := hleads.le.2 i hi
    omega

theorem WellFormed.matchesPacket (h : WellFormed data layout) (hlength : data.length < 65536)
    (hblock : 32 ≤ data.length + room.length) (hpayload : ¬ipfw.ReadsPayload (layout.flow data)) :
    PfcpRule.matchesPacket ⟨ipfw⟩ ⟨data, room⟩ =
      .ok (decide (ipfw.Matched (layout.flow data))) := by
  have hflow := h.flow_append room
  rw [← hflow] at hpayload ⊢
  rw [flat_matchesPacket]
  refine (h.append room).matchesPacket_ofData ?_ (fun i hi => ?_) hpayload
  · rw [List.length_append]
    omega
  · have hle := h.upper_le hi
    omega

end Matching

/-! ## Rules that are turned round -/

section Swap

variable {ipfw : IpfwRule} {flow : PacketFlow}

theorem takesPorts_swap :
    (Pfcp.ipfwRuleSwap ipfw).TakesPorts flow.mirror ↔ ipfw.TakesPorts flow := by
  rw [IpfwRule.TakesPorts, IpfwRule.TakesPorts, PacketFlow.mirror]
  cases flow.ports with
  | none => simp
  | some ports =>
    simp only [Option.map_some, Option.mem_some_iff, forall_eq']
    exact and_comm

/-- A rule that is turned round compares with the flow in the other direction as it did with
the flow. -/
theorem matched_swap : (Pfcp.ipfwRuleSwap ipfw).Matched flow.mirror ↔ ipfw.Matched flow :=
  and_congr (and_congr_left' and_comm) (imp_congr_right fun _ => takesPorts_swap)

theorem readsPayload_swap :
    (Pfcp.ipfwRuleSwap ipfw).ReadsPayload flow.mirror ↔ ipfw.ReadsPayload flow := by
  refine and_congr and_comm (and_congr_right' (and_congr_right' (and_congr ?_ or_comm)))
  exact Option.map_eq_none_iff

end Swap

/-! ## The first rule that takes a flow -/

/-- The addresses and the protocol of a rule of the other family happen to compare equal, or
the rule reads the payload of a later fragment. -/
def CompiledRule.Astray (rule : CompiledRule) (flow : PacketFlow) : Prop :=
  (¬rule.Agrees flow.family ∧ rule.CoversFlow flow ∧
    (rule.proto = 0 ∨ rule.proto = flow.proto)) ∨ rule.ReadsPayload flow

instance (rule : CompiledRule) (flow : PacketFlow) : Decidable (rule.Astray flow) :=
  inferInstanceAs (Decidable (_ ∨ _))

/-- A masked address covers what its prefix contains. -/
theorem IpfwAddr.Masked.coversWords_iff {ip : IpfwAddr} (h : ip.Masked) {addr : List UInt32} :
    ip.CoversWords addr ↔ ip.Contains addr := by
  have hmasked : List.zipWith (· &&& ·) ip.addr.toList ip.mask.toList = ip.addr.toList := by
    refine List.ext_getElem (by simp) fun i hi _ => ?_
    rw [List.getElem_zipWith, Vector.getElem_toList, Vector.getElem_toList]
    exact h i (by simpa using hi)
  rw [IpfwAddr.CoversWords, IpfwAddr.Contains, hmasked]

theorem CompiledRule.Made.matched_iff {rule : CompiledRule} (h : rule.Made) {flow : PacketFlow}
    (hastray : ¬rule.Astray flow) : rule.Matched flow ↔ rule.Takes flow := by
  obtain ⟨hsrc, hdst⟩ := h.masked
  have hcovers : rule.CoversFlow flow ↔
      rule.ipSrc.Contains flow.src ∧ rule.ipDst.Contains flow.dst :=
    and_congr hsrc.coversWords_iff hdst.coversWords_iff
  refine and_congr ?_ Iff.rfl
  rw [CompiledRule.Names, hcovers, and_assoc]
  refine (and_iff_right_of_imp fun hnames => ?_).symm
  by_contra hfamily
  exact hastray (.inl ⟨hfamily, hcovers.mpr ⟨hnames.1, hnames.2.1⟩, hnames.2.2⟩)

section Find

variable {data room : List UInt8} {layout : Layout} {rule : CompiledRule}

theorem WellFormed.matchesPacket_made (h : WellFormed data layout) (hlength : data.length < 65536)
    (hblock : 32 ≤ data.length + room.length) (hmade : rule.Made)
    (hastray : ¬rule.Astray (layout.flow data)) :
    rule.toPfcpRule.matchesPacket ⟨data, room⟩ =
      .ok (decide (rule.Takes (layout.flow data))) := by
  have hpayload : ¬rule.ReadsPayload (layout.flow data) := fun hreads => hastray (.inr hreads)
  refine (h.matchesPacket hlength hblock hpayload).trans (congrArg Except.ok ?_)
  exact decide_eq_decide.mpr (hmade.matched_iff hastray)

theorem WellFormed.ruleFindByPacket_eq (h : WellFormed data layout) (hlength : data.length < 65536)
    (hblock : 32 ≤ data.length + room.length) {pdr : Pdr} {rules : List CompiledRule}
    (hrules : pdr.ruleList = rules.map CompiledRule.toPfcpRule) (hmade : ∀ rule ∈ rules, rule.Made)
    (hastray : ∀ rule ∈ rules, ¬rule.Astray (layout.flow data)) :
    pdr.ruleFindByPacket ⟨data, room⟩ =
      .ok ((rules.find? fun rule => rule.Takes (layout.flow data)).map
        CompiledRule.toPfcpRule) := by
  have hlen : Pkbuf.len ⟨data, room⟩ ≠ 0 := by
    have hinside := h.inside.1
    have hdst : layout.family.destination ≠ 0 := by cases layout.family <;> decide
    change data.length ≠ 0
    omega
  rw [Pdr.ruleFindByPacket, if_neg hlen, hrules, findM?_map, findM?_eq_find? fun rule hrule =>
    h.matchesPacket_made hlength hblock (hmade rule hrule) (hastray rule hrule)]
  rfl

/-- The parser of the headers refuses an IPv6 packet without payload. -/
theorem ruleFindByPacket_noPayload (pdr : Pdr) (hversion : versionAt data = 6)
    (hplen : halfAt data 4 = 0) (hnxt : octetAt data 6 ≠ 0) (hlength : 40 ≤ data.length) :
    pdr.ruleFindByPacket ⟨data, room⟩ = .ok none := by
  have hrefused : ipHeader (ofData data) = .ok none :=
    ipHeader_ofData_iff.mpr (.refused hversion (.refused (by omega) hplen hnxt))
  have hheader : ipHeader ⟨data, room⟩ = .ok none := stable_ipHeader data room none hrefused
  have hlen : Pkbuf.len ⟨data, room⟩ ≠ 0 := by
    change data.length ≠ 0
    omega
  rw [Pdr.ruleFindByPacket, if_neg hlen]
  refine findM?_eq_none_iff.mpr fun rule _ => ?_
  rw [PfcpRule.matchesPacket, hheader]
  rfl

theorem WellFormed.matchesPacket_swap (h : WellFormed data layout) (hlength : data.length < 65536)
    (hblock : 32 ≤ data.length + room.length) (hpayload : ¬rule.ReadsPayload (layout.flow data)) :
    (ipfwCopyAndSwap rule).toPfcpRule.matchesPacket ⟨layout.exchange data, room⟩ =
      .ok (decide (rule.Matched (layout.flow data))) := by
  have hexchanged : (layout.exchange data).length = data.length := Layout.length_exchange
  have hmirror : (ipfwCopyAndSwap rule).ReadsPayload (layout.flow (layout.exchange data)) ↔
      rule.ReadsPayload (layout.flow data) := by
    rw [h.flow_exchange]
    exact readsPayload_swap
  refine (h.exchange.matchesPacket (by omega) (by omega) (mt hmirror.mp hpayload)).trans ?_
  rw [h.flow_exchange]
  exact congrArg Except.ok (decide_eq_decide.mpr matched_swap)

end Find

/-- Of a list of compiled rules, the first is found that takes the flow of a well-formed packet,
unless a rule goes astray. An IPv6 packet without payload is dropped. A rule that is turned
round matches the packet in the other direction as it did the packet. -/
theorem ruleFindByPacket_first :
    (∀ (pdr : Pdr) (rules : List CompiledRule) (data room : List UInt8) (layout : Layout),
      pdr.ruleList = rules.map CompiledRule.toPfcpRule → (∀ rule ∈ rules, rule.Made) →
      WellFormed data layout → data.length < 65536 → 32 ≤ data.length + room.length →
      (∀ rule ∈ rules, ¬rule.Astray (layout.flow data)) →
      pdr.ruleFindByPacket ⟨data, room⟩ =
        .ok ((rules.find? fun rule => rule.Takes (layout.flow data)).map
          CompiledRule.toPfcpRule)) ∧
    (∀ (pdr : Pdr) (data room : List UInt8), versionAt data = 6 → halfAt data 4 = 0 →
      octetAt data 6 ≠ 0 → 40 ≤ data.length → pdr.ruleFindByPacket ⟨data, room⟩ = .ok none) ∧
    ∀ (rule : CompiledRule) (data room : List UInt8) (layout : Layout),
      WellFormed data layout → data.length < 65536 → 32 ≤ data.length + room.length →
      ¬rule.ReadsPayload (layout.flow data) →
      ∃ b, rule.toPfcpRule.matchesPacket ⟨data, room⟩ = .ok b ∧
        (ipfwCopyAndSwap rule).toPfcpRule.matchesPacket ⟨layout.exchange data, room⟩ = .ok b := by
  refine ⟨?_, ?_, ?_⟩
  · intro pdr rules data room layout hrules hmade h hlength hblock hastray
    exact h.ruleFindByPacket_eq hlength hblock hrules hmade hastray
  · intro pdr data room hversion hplen hnxt hlength
    exact ruleFindByPacket_noPayload pdr hversion hplen hnxt hlength
  · intro rule data room layout h hlength hblock hpayload
    exact ⟨_, h.matchesPacket hlength hblock hpayload, h.matchesPacket_swap hlength hblock hpayload⟩

/-- A TCP segment from port 81 of 10.0.0.1 to port 1234 of 10.0.0.2, without data. -/
def tcpSegment : List UInt8 :=
  [0x45, 0, 0, 40, 0, 0, 0, 0, 64, 6, 0, 0, 10, 0, 0, 1, 10, 0, 0, 2] ++
    [0, 81, 0x04, 0xd2, 0, 0, 0, 0, 0, 0, 0, 0, 0x50, 2, 0, 0, 0, 0, 0, 0]

/-- `permit out 6 from 10.0.0.0/8 81 to assigned` -/
def tcpFrom81 : CompiledRule :=
  ipfwCompileRule [.proto 6, .ipSrcMask 0x0a000000 0xff000000, .ipSrcport 81 81]

/-- `permit out ip from any 80 to assigned` -/
def ipFrom80 : CompiledRule := ipfwCompileRule [.ipSrcport 80 80]

theorem wellFormed_tcpSegment : WellFormed tcpSegment ⟨.ipv4, 6, some 20⟩ := by
  refine .ipv4 (by decide) (by decide) (by decide) (by decide) ?_
  rintro _ ⟨⟩
  decide

theorem made_tcpFrom81 : tcpFrom81.Made := .compiled (by
  simp only [List.forall_mem_cons, IpfwInsn.Masked]
  exact ⟨trivial, by decide, trivial, nofun⟩)

theorem made_ipFrom80 : ipFrom80.Made := .compiled (by
  simp only [List.forall_mem_cons, IpfwInsn.Masked]
  exact ⟨trivial, nofun⟩)

/-- A detection rule with this SDF rule. -/
def pdrOf (rule : CompiledRule) : Pdr where
  id := 1
  srcIf := ogsPfcpInterfaceCore
  far := none
  ruleList := [rule.toPfcpRule]

theorem ruleFindByPacket_first_tcp :
    (pdrOf tcpFrom81).ruleFindByPacket ⟨tcpSegment, []⟩ = .ok (some tcpFrom81.toPfcpRule) := by
  have hfound := ruleFindByPacket_first.1 (pdrOf tcpFrom81) [tcpFrom81] tcpSegment []
    ⟨.ipv4, 6, some 20⟩ rfl (List.forall_mem_singleton.mpr made_tcpFrom81) wellFormed_tcpSegment
    (by decide) (by decide) (List.forall_mem_singleton.mpr (by decide))
  exact hfound.trans (by decide)

/-- A rule without protocol takes a segment from another port. -/
theorem not_ruleFindByPacket_first :
    ¬∀ (pdr : Pdr) (rules : List CompiledRule) (data room : List UInt8) (layout : Layout),
      pdr.ruleList = rules.map CompiledRule.toPfcpRule → (∀ rule ∈ rules, rule.Made) →
      WellFormed data layout → data.length < 65536 → 32 ≤ data.length + room.length →
      (∀ rule ∈ rules, ¬rule.Astray (layout.flow data)) →
      pdr.ruleFindByPacket ⟨data, room⟩ =
        .ok ((rules.find? fun rule => rule.Names (layout.flow data) ∧
          rule.TakesPorts (layout.flow data)).map CompiledRule.toPfcpRule) := by
  intro hall
  have hnone := hall (pdrOf ipFrom80) [ipFrom80] tcpSegment [] ⟨.ipv4, 6, some 20⟩ rfl
    (List.forall_mem_singleton.mpr made_ipFrom80) wellFormed_tcpSegment (by decide) (by decide)
    (List.forall_mem_singleton.mpr (by decide))
  have hfound : (pdrOf ipFrom80).ruleFindByPacket ⟨tcpSegment, []⟩ =
      .ok (some ipFrom80.toPfcpRule) := by decide
  rw [hfound] at hnone
  exact absurd hnone (by decide)

end Quicup.Open5gs
