import Quicup.Open5gs.Gtp.TftTrip
import Quicup.Open5gs.Pfcp.FlowMatch

/-!
# Packet filters of compiled rules

`ogs_pf_content_from_ipfw_rule` writes a rule as the components of a packet filter, which the UE
and the UPF read. A range of ports that begins at 0 is left out.
-/

namespace Quicup.Open5gs

open Fallible

/-! ## Masks -/

/-- `p[i / 8] & (1 << (7 - (i % 8)))` -/
def bitSet (p : List UInt8) (i : Nat) : Bool := (p.getD (i / 8) 0).toNat.testBit (7 - i % 8)

/-- `contigmask`: the first bit that is unset, unless one is set behind it. -/
def contigmask (p : List UInt8) (len : Nat) : Int :=
  let i := (List.range len).findIdx fun n => !bitSet p n
  if (List.range len).any fun n => i < n && bitSet p n then -1 else i

/-- The number that the words of an address write, the first word in front. -/
def number : List UInt32 → Nat
  | [] => 0
  | w :: ws => w.toNat * 2 ^ (32 * ws.length) + number ws

/-! ## Components -/

def flowDownlinkOnly : UInt8 := 1
def flowUplinkOnly : UInt8 := 2
def flowBidirectional : UInt8 := 3

/-- Components with what is added to `len` for each of them. -/
abbrev Parts := List (PfComponent × Nat)

/-- The `switch` on the direction. -/
def switchDirection (direction : UInt8) (down up : Parts) : Except Fault Parts :=
  if direction = flowDownlinkOnly ∨ direction = flowBidirectional then .ok down
  else if direction = flowUplinkOnly then .ok up
  else .error .assertion

namespace IpfwAddr

variable (ip : IpfwAddr)

/-- `addr[0]` or `mask[0]` as it is in memory. -/
def firstWord (words : Vector UInt32 4) : Vector UInt8 4 :=
  ⟨(octetsBE 4 (words.toList.headD 0).toNat).toArray, length_octetsBE ..⟩

/-- All of `addr` or `mask` as it is in memory. -/
def allWords (words : Vector UInt32 4) : Vector UInt8 16 :=
  ⟨(octetsBE 16 (number words.toList)).toArray, length_octetsBE ..⟩

/-- `contigmask` of 128 bits, in the octet of the component. -/
def prefixlen : UInt8 := .ofNat (contigmask (allWords ip.mask).toList 128 % 256).toNat

def ipv4Remote : Parts := [(.ipv4RemoteAddress (firstWord ip.addr) (firstWord ip.mask), 9)]

def ipv4Local (noLocal : Bool) : Parts :=
  if noLocal then [] else [(.ipv4LocalAddress (firstWord ip.addr) (firstWord ip.mask), 9)]

def ipv6Remote (noLocal : Bool) : Parts :=
  if noLocal then [(.ipv6RemoteAddress (allWords ip.addr) (allWords ip.mask), 33)]
  else [(.ipv6RemoteAddressPrefixLength (allWords ip.addr) ip.prefixlen, 18)]

def ipv6Local (noLocal : Bool) : Parts :=
  if noLocal then [] else [(.ipv6LocalAddressPrefixLength (allWords ip.addr) ip.prefixlen, 18)]

end IpfwAddr

namespace IpfwPort

variable (port : IpfwPort)

def remotePart : Parts :=
  if port.low = port.high then [(.singleRemotePort port.low, 3)]
  else [(.remotePortRange port.low port.high, 5)]

def localPart : Parts :=
  if port.low = port.high then [(.singleLocalPort port.low, 3)]
  else [(.localPortRange port.low port.high, 5)]

end IpfwPort

namespace CompiledRule

variable (rule : CompiledRule)

def protoPart : Parts :=
  if rule.proto = 0 then [] else [(.protocolIdentifierNextHeader rule.proto, 2)]

/-- The fields behind the protocol: whether one is set, and what is written for it where the `switch`
is on a downlink or bidirectional flow, and on an uplink flow. -/
def fields (noLocal : Bool) : List (Bool × Parts × Parts) := [
  (rule.ipv4Src, rule.ipSrc.ipv4Remote, rule.ipSrc.ipv4Local noLocal),
  (rule.ipv4Dst, rule.ipDst.ipv4Local noLocal, rule.ipDst.ipv4Remote),
  (rule.ipv6Src, rule.ipSrc.ipv6Remote noLocal, rule.ipSrc.ipv6Local noLocal),
  (rule.ipv6Dst, rule.ipDst.ipv6Local noLocal, rule.ipDst.ipv6Remote noLocal),
  (rule.portSrc.low ≠ 0, rule.portSrc.remotePart, rule.portSrc.localPart),
  (rule.portDst.low ≠ 0, rule.portDst.localPart, rule.portDst.remotePart)]

end CompiledRule

/-- `ogs_pf_content_from_ipfw_rule` -/
def pfContentFromIpfwRule (direction : UInt8) (rule : CompiledRule) (noLocal : Bool) :
    Except Fault PfContent := do
  let parts ← (rule.fields noLocal).mapM fun (isSet, down, up) =>
    if isSet then switchDirection direction down up else .ok []
  let parts := rule.protoPart ++ parts.flatten
  return ⟨.ofNat (parts.map Prod.snd).sum, parts.map Prod.fst⟩

/-! ## What components and rules say of a flow -/

/-- A flow as a packet filter sees it. -/
structure PfFlow where
  family : Family
  proto : UInt8
  remoteAddr : Nat
  localAddr : Nat
  remotePort : Option UInt16
  localPort : Option UInt16

/-- The source is remote, but for uplink flows the destination. -/
def PacketFlow.seen (flow : PacketFlow) (direction : UInt8) : PfFlow :=
  if direction = flowUplinkOnly then
    ⟨flow.family, flow.proto, number flow.dst, number flow.src, flow.ports.map Prod.snd,
      flow.ports.map Prod.fst⟩
  else ⟨flow.family, flow.proto, number flow.src, number flow.dst, flow.ports.map Prod.fst,
    flow.ports.map Prod.snd⟩

def InRange (low high : UInt16) (port : Option UInt16) : Prop := ∃ x ∈ port, low ≤ x ∧ x ≤ high

def MaskedAlike (x addr mask : Nat) : Prop := x &&& mask = addr &&& mask

/-- The first bits of two addresses of 128 bits are the same. -/
def PrefixAlike (x addr prefixlen : Nat) : Prop :=
  x / 2 ^ (128 - prefixlen) = addr / 2 ^ (128 - prefixlen)

def PfComponent.Holds (flow : PfFlow) : PfComponent → Prop
  | matchAll => True
  | protocolIdentifierNextHeader proto => flow.proto = proto
  | ipv4RemoteAddress addr mask =>
    flow.family = .ipv4 ∧ MaskedAlike flow.remoteAddr (natBE addr.toList) (natBE mask.toList)
  | ipv4LocalAddress addr mask =>
    flow.family = .ipv4 ∧ MaskedAlike flow.localAddr (natBE addr.toList) (natBE mask.toList)
  | ipv6RemoteAddress addr mask =>
    flow.family = .ipv6 ∧ MaskedAlike flow.remoteAddr (natBE addr.toList) (natBE mask.toList)
  | ipv6RemoteAddressPrefixLength addr prefixlen =>
    flow.family = .ipv6 ∧ PrefixAlike flow.remoteAddr (natBE addr.toList) prefixlen.toNat
  | ipv6LocalAddress addr mask =>
    flow.family = .ipv6 ∧ MaskedAlike flow.localAddr (natBE addr.toList) (natBE mask.toList)
  | ipv6LocalAddressPrefixLength addr prefixlen =>
    flow.family = .ipv6 ∧ PrefixAlike flow.localAddr (natBE addr.toList) prefixlen.toNat
  | singleLocalPort low => InRange low low flow.localPort
  | localPortRange low high => InRange low high flow.localPort
  | singleRemotePort low => InRange low low flow.remotePort
  | remotePortRange low high => InRange low high flow.remotePort

/-- Ports are not named, or the port lies between both bounds. -/
def IpfwPort.Admits (port : IpfwPort) (x : Option UInt16) : Prop :=
  port = ⟨0, 0⟩ ∨ InRange port.low port.high x

/-- The rule names the flow and its ports. -/
def CompiledRule.Denotes (rule : CompiledRule) (flow : PacketFlow) : Prop :=
  rule.Names flow ∧ rule.portSrc.Admits (flow.ports.map Prod.fst) ∧
    rule.portDst.Admits (flow.ports.map Prod.snd)

/-- The flow of a packet: addresses of its family, and ports only of TCP and UDP. -/
structure PacketFlow.Possible (flow : PacketFlow) : Prop where
  src : flow.src.length = flow.family.words
  dst : flow.dst.length = flow.family.words
  ports : flow.ports ≠ none → hasPorts flow.proto = true

/-- `n` ones in front of zeros -/
def Contiguous (mask : Vector UInt32 4) : Prop :=
  ∃ n ≤ 128, number mask.toList = 2 ^ 128 - 2 ^ (128 - n)

/-- The masks of the addresses of IPv6 are contiguous. -/
structure CompiledRule.ContiguousMasks (rule : CompiledRule) : Prop where
  src : rule.ipv6Src = true → Contiguous rule.ipSrc.mask
  dst : rule.ipv6Dst = true → Contiguous rule.ipDst.mask

/-- The components say of flows what the rule says, and their length is that of the octets which the
builders of QoS rules and of traffic flow templates write for them. -/
structure PfContent.Renders (content : PfContent) (direction : UInt8) (rule : CompiledRule) :
    Prop where
  flows : ∀ flow : PacketFlow, flow.Possible →
    ((∀ c ∈ content.component, c.Holds (flow.seen direction)) ↔ rule.Denotes flow)
  inQosRule : ∀ (code : QosCode) (flags : UInt8), ¬code.hasBareFilters →
    (QosPacketFilter.build code ⟨flags, content⟩).length = 2 + content.length.toNat
  inTft : ∀ (room : Nat) (written : List UInt8), written.length + content.length.toNat ≤ room →
    ∃ octets, octets.length = content.length.toNat ∧
      putAll (PfComponent.putTft room) written content.component = .ok (written ++ octets, true)

/-! ## Numbers and masks -/

theorem number_lt (ws : List UInt32) : number ws < 2 ^ (32 * ws.length) := by
  induction ws with
  | nil => simp [number]
  | cons w ws ih =>
    have hw : w.toNat + 1 ≤ 2 ^ 32 := w.toNat_lt
    have hmul := Nat.mul_le_mul_right (2 ^ (32 * ws.length)) hw
    rw [number, List.length_cons, Nat.mul_succ, Nat.pow_add, Nat.mul_comm _ (2 ^ 32)]
    rw [Nat.add_one_mul] at hmul
    omega

variable {xs ys : List UInt32} {n : Nat}

theorem number_and (h : xs.length = ys.length) :
    number (List.zipWith (· &&& ·) xs ys) = number xs &&& number ys := by
  induction xs generalizing ys with
  | nil => simp [number]
  | cons x xs ih =>
    cases ys with
    | nil => cases h
    | cons y ys =>
      have hlength : xs.length = ys.length := Nat.succ.inj h
      have hx := number_lt xs
      have hy := number_lt ys
      rw [← hlength] at hy
      simp only [List.zipWith_cons_cons, number, List.length_zipWith, ← hlength, Nat.min_self,
        ih hlength, UInt32.toNat_and]
      refine Nat.eq_of_testBit_eq fun i => ?_
      have hand : number xs &&& number ys < 2 ^ (32 * xs.length) := Nat.and_lt_two_pow _ hy
      simp only [Nat.mul_comm _ (2 ^ (32 * xs.length)), Nat.testBit_and,
        Nat.testBit_two_pow_mul_add _ hand, Nat.testBit_two_pow_mul_add _ hx,
        Nat.testBit_two_pow_mul_add _ hy]
      split_ifs <;> rfl

theorem number_inj (hlength : xs.length = ys.length) : number xs = number ys ↔ xs = ys := by
  refine ⟨fun h => ?_, congrArg number⟩
  induction xs generalizing ys with
  | nil => exact (List.length_eq_zero_iff.mp hlength.symm).symm
  | cons x xs ih =>
    cases ys with
    | nil => cases hlength
    | cons y ys =>
      have htail : xs.length = ys.length := Nat.succ.inj hlength
      have hx := number_lt xs
      have hy := number_lt ys
      rw [← htail] at hy
      simp only [number, ← htail] at h
      have hpos : 0 < 2 ^ (32 * xs.length) := by positivity
      have hdiv := congrArg (· / 2 ^ (32 * xs.length)) h
      simp only [Nat.mul_comm _ (2 ^ (32 * xs.length)), Nat.mul_add_div hpos, Nat.div_eq_of_lt hx,
        Nat.div_eq_of_lt hy, Nat.add_zero] at hdiv
      rw [UInt32.toNat_inj.mp hdiv] at h ⊢
      rw [ih htail (Nat.add_left_cancel h)]

theorem natBE_firstWord (words : Vector UInt32 4) :
    natBE (IpfwAddr.firstWord words).toList = (words.toList.headD 0).toNat := by
  have hlt : (words.toList.headD 0).toNat < 256 ^ 4 := UInt32.toNat_lt _
  change natBE (octetsBE 4 _) = _
  rw [natBE_octetsBE, Nat.mod_eq_of_lt hlt]

theorem natBE_allWords (words : Vector UInt32 4) :
    natBE (IpfwAddr.allWords words).toList = number words.toList := by
  have hlt := number_lt words.toList
  rw [Vector.length_toList] at hlt
  have hmod : number words.toList % 256 ^ 16 = number words.toList := Nat.mod_eq_of_lt hlt
  change natBE (octetsBE 16 (number words.toList)) = _
  rw [natBE_octetsBE, hmod]

/-- The bits of the octets are those of the number, the highest one in front. -/
theorem bitSet_octetsBE {i : Nat} (v : Nat) (hi : i < 8 * n) :
    bitSet (octetsBE n v) i = v.testBit (8 * n - 1 - i) := by
  induction n generalizing i with
  | zero => omega
  | succ n ih =>
    rw [octetsBE]
    by_cases hfirst : i < 8
    · have hpow : 256 ^ n = 2 ^ (8 * n) := by rw [Nat.pow_mul]
      have hbit : 8 * n + (7 - i) = 8 * (n + 1) - 1 - i := by omega
      rw [bitSet, Nat.div_eq_of_lt hfirst, Nat.mod_eq_of_lt hfirst, List.getD_cons_zero,
        UInt8.toNat_ofNat', Nat.testBit_mod_two_pow, hpow, Nat.testBit_div_two_pow, Nat.add_comm,
        hbit]
      simp [show 7 - i < 8 by omega]
    · have hrest := ih (i := i - 8) (by omega)
      have hquot : i / 8 = (i - 8) / 8 + 1 := by omega
      have hmod : i % 8 = (i - 8) % 8 := by omega
      have hbit : 8 * n - 1 - (i - 8) = 8 * (n + 1) - 1 - i := by omega
      rw [bitSet, hquot, hmod, List.getD_cons_succ, ← hbit, ← hrest, bitSet]

theorem testBit_ones (n j : Nat) :
    (2 ^ 128 - 2 ^ (128 - n)).testBit j = (decide (j < 128) && decide (128 - n ≤ j)) := by
  have hpos : 0 < 2 ^ (128 - n) := Nat.two_pow_pos _
  have hlt : 2 ^ (128 - n) - 1 < 2 ^ 128 :=
    Nat.lt_of_lt_of_le (Nat.sub_lt hpos Nat.one_pos) (Nat.pow_le_pow_right (by simp) (by omega))
  have hbit := Nat.testBit_two_pow_sub_succ hlt j
  rw [Nat.sub_add_cancel hpos, Nat.testBit_two_pow_sub_one] at hbit
  rw [hbit]
  simp only [← decide_not, Nat.not_lt]

theorem contigmask_eq {p : List UInt8} {len : Nat} (hn : n ≤ len)
    (hbit : ∀ i < len, bitSet p i = decide (i < n)) : contigmask p len = n := by
  have hfirst : (List.range len).findIdx (fun i => !bitSet p i) = n := by
    by_cases hall : n = len
    · have hnone : ∀ i ∈ List.range len, (!bitSet p i) = false := by
        intro i hi
        have hi := List.mem_range.mp hi
        simp [hbit i hi, hall, hi]
      rw [List.findIdx_eq_length_of_false hnone, List.length_range, hall]
    · have hlt : n < len := by omega
      refine (List.findIdx_eq (by simpa using hlt)).mpr ⟨?_, fun j hj => ?_⟩
      · simp [hbit n hlt]
      · simp [hbit j (by omega), hj]
  unfold contigmask
  simp only [hfirst]
  refine if_neg ?_
  rw [List.any_eq_true]
  rintro ⟨i, hi, h⟩
  rw [hbit i (List.mem_range.mp hi), Bool.and_eq_true] at h
  exact Nat.lt_asymm (of_decide_eq_true h.1) (of_decide_eq_true h.2)

theorem contigmask_ones (hn : n ≤ 128) :
    contigmask (octetsBE 16 (2 ^ 128 - 2 ^ (128 - n))) 128 = n := by
  refine contigmask_eq hn fun i hi => ?_
  rw [bitSet_octetsBE _ hi, testBit_ones, Bool.eq_iff_iff]
  simp only [Bool.and_eq_true, decide_eq_true_eq]
  omega

/-- With a mask of ones in front two addresses are alike when their prefixes are. -/
theorem maskedAlike_iff_prefixAlike {x a : Nat} (n : Nat) (hx : x < 2 ^ 128) (ha : a < 2 ^ 128) :
    MaskedAlike x a (2 ^ 128 - 2 ^ (128 - n)) ↔ PrefixAlike x a n := by
  have hhigh {v j : Nat} (hv : v < 2 ^ 128) (hj : ¬j < 128) : v.testBit j = false :=
    Nat.testBit_lt_two_pow (Nat.lt_of_lt_of_le hv (Nat.pow_le_pow_right (by simp) (by omega)))
  constructor
  · intro h
    refine Nat.eq_of_testBit_eq fun j => ?_
    have hj := congrArg (·.testBit (128 - n + j)) h
    simp only [Nat.testBit_and, testBit_ones, Nat.le_add_right, decide_true, Bool.and_true] at hj
    rw [Nat.testBit_div_two_pow, Nat.testBit_div_two_pow, Nat.add_comm]
    by_cases hlow : 128 - n + j < 128
    · simpa only [hlow, decide_true, Bool.and_true] using hj
    · rw [hhigh hx hlow, hhigh ha hlow]
  · intro h
    refine Nat.eq_of_testBit_eq fun j => ?_
    rw [Nat.testBit_and, Nat.testBit_and, testBit_ones]
    by_cases hj : 128 - n ≤ j
    · have hbit := congrArg (·.testBit (j - (128 - n))) h
      simp only [Nat.testBit_div_two_pow, Nat.sub_add_cancel hj] at hbit
      rw [hbit]
    · simp [hj]

/-! ## Addresses -/

namespace IpfwAddr

variable {ip : IpfwAddr} {addr : List UInt32}

theorem contains_zero (addr : List UInt32) : zero.Contains addr := by
  have hzero (xs : List UInt32) (n : Nat) :
      List.zipWith (· &&& ·) xs (List.replicate n 0) = List.replicate (min xs.length n) 0 :=
    List.ext_getElem (by simp) fun i _ _ => by simp
  simp only [Contains, zero, Vector.toList_replicate, hzero, List.length_replicate,
    List.take_replicate, Nat.min_self]

/-- An address of IPv4 lies in the prefix when it is the same under the mask. -/
theorem contains_iff_masked (haddr : addr.length = 1) :
    ip.Contains addr ↔ MaskedAlike (number addr) (natBE (firstWord ip.addr).toList)
      (natBE (firstWord ip.mask).toList) := by
  obtain ⟨x, rfl⟩ := List.length_eq_one_iff.mp haddr
  obtain ⟨⟨⟨words⟩, haddr⟩, ⟨⟨masks⟩, hmask⟩⟩ := ip
  obtain ⟨w, ws, rfl⟩ := List.exists_cons_of_length_eq_add_one haddr
  obtain ⟨m, ms, rfl⟩ := List.exists_cons_of_length_eq_add_one hmask
  rw [natBE_firstWord, natBE_firstWord]
  simp [Contains, MaskedAlike, number, ← UInt32.toNat_inj]

/-- Under a mask of ones in front an address of IPv6 lies in the prefix of their number. -/
theorem contains_iff_prefix (hmask : Contiguous ip.mask) (haddr : addr.length = 4) :
    ip.Contains addr ↔
      PrefixAlike (number addr) (natBE (allWords ip.addr).toList) ip.prefixlen.toNat := by
  obtain ⟨n, hn, hnumber⟩ := hmask
  have hprefixlen : ip.prefixlen.toNat = n := by
    rw [prefixlen, allWords, hnumber]
    change (UInt8.ofNat (contigmask (octetsBE 16 _) 128 % 256).toNat).toNat = n
    rw [contigmask_ones hn, UInt8.toNat_ofNat']
    omega
  have hlength (words : Vector UInt32 4) : words.toList.length = 4 := Vector.length_toList
  have hlt {words : List UInt32} (hwords : words.length = 4) : number words < 2 ^ 128 := by
    have hlt := number_lt words
    rwa [hwords] at hlt
  rw [hprefixlen, natBE_allWords,
    ← maskedAlike_iff_prefixAlike n (hlt haddr) (hlt (hlength ip.addr)), ← hnumber, MaskedAlike,
    ← number_and (haddr.trans (hlength _).symm), ← number_and ((hlength _).trans (hlength _).symm),
    number_inj (by simp [haddr]), Contains, List.take_of_length_le (by simp [haddr])]

end IpfwAddr

/-- Where no address of either family is named, all of the end is zero. -/
def CompiledRule.ZeroUnnamed (rule : CompiledRule) : Prop :=
  (rule.ipv4Src = false → rule.ipv6Src = false → rule.ipSrc = .zero) ∧
    (rule.ipv4Dst = false → rule.ipv6Dst = false → rule.ipDst = .zero)

variable {rule : CompiledRule}

theorem CompiledRule.ZeroUnnamed.take (h : rule.ZeroUnnamed) (cmd : IpfwInsn) :
    (rule.take cmd).ZeroUnnamed := by
  cases cmd with
  | proto | ipSrcport | ipDstport | other => exact h
  | ipSrc | ipSrcMask => exact ⟨nofun, h.2⟩
  | ip6Src | ip6SrcMask => exact ⟨fun _ => nofun, h.2⟩
  | ipDst | ipDstMask => exact ⟨h.1, nofun⟩
  | ip6Dst | ip6DstMask => exact ⟨h.1, fun _ => nofun⟩

theorem CompiledRule.ZeroUnnamed.foldl (h : rule.ZeroUnnamed) (cmds : List IpfwInsn) :
    (cmds.foldl CompiledRule.take rule).ZeroUnnamed := by
  induction cmds generalizing rule with
  | nil => exact h
  | cons cmd cmds ih => exact ih (h.take cmd)

theorem CompiledRule.Made.zeroUnnamed (h : rule.Made) : rule.ZeroUnnamed := by
  induction h with
  | @compiled cmds _ =>
    have hzero : CompiledRule.zero.ZeroUnnamed := ⟨fun _ _ => rfl, fun _ _ => rfl⟩
    exact hzero.foldl cmds
  | swapped _ ih => exact ⟨ih.2, ih.1⟩

/-- What the components of an end that has the address say. -/
def EndShown (ipv4 ipv6 : Bool) (ip : IpfwAddr) (family : Family) (addr : List UInt32) : Prop :=
  (ipv4 = true → family = .ipv4 ∧ MaskedAlike (number addr)
    (natBE (IpfwAddr.firstWord ip.addr).toList) (natBE (IpfwAddr.firstWord ip.mask).toList)) ∧
  (ipv6 = true → family = .ipv6 ∧ PrefixAlike (number addr)
    (natBE (IpfwAddr.allWords ip.addr).toList) ip.prefixlen.toNat)

theorem endShown_iff {ipv4 ipv6 : Bool} {ip : IpfwAddr} {family : Family} {addr : List UInt32}
    (hzero : ipv4 = false → ipv6 = false → ip = .zero) (hmask : ipv6 = true → Contiguous ip.mask)
    (haddr : addr.length = family.words) :
    EndShown ipv4 ipv6 ip family addr ↔
      (ipv4 = true → family = .ipv4) ∧ (ipv6 = true → family = .ipv6) ∧ ip.Contains addr := by
  unfold EndShown
  cases family with
  | ipv4 =>
    rw [ip.contains_iff_masked haddr]
    cases ipv4 with
    | true => simp [and_comm]
    | false =>
      cases ipv6 with
      | true => simp
      | false =>
        have hcontains := IpfwAddr.contains_zero addr
        rw [IpfwAddr.contains_iff_masked haddr] at hcontains
        simp [hzero rfl rfl, hcontains]
  | ipv6 =>
    cases ipv6 with
    | true =>
      rw [IpfwAddr.contains_iff_prefix (hmask rfl) haddr]
      simp
    | false =>
      cases ipv4 with
      | true => simp
      | false =>
        have hcontains := IpfwAddr.contains_zero addr
        simp [hzero rfl rfl, hcontains]

/-! ## The components of a rule -/

section Rule

variable {direction : UInt8} {rule : CompiledRule} {flow : PacketFlow} {port : IpfwPort}

/-- What the `switch` takes in a direction that it has a case for. -/
def side (direction : UInt8) (down up : Parts) : Parts :=
  if direction = flowUplinkOnly then up else down

/-- The directions of a flow. -/
def FlowDirection (direction : UInt8) : Prop :=
  direction = flowDownlinkOnly ∨ direction = flowUplinkOnly ∨ direction = flowBidirectional

def CompiledRule.parts (direction : UInt8) (rule : CompiledRule) : Parts :=
  rule.protoPart ++ (rule.fields false).flatMap fun (isSet, down, up) =>
    if isSet then side direction down up else []

theorem pfContentFromIpfwRule_eq (h : FlowDirection direction) :
    pfContentFromIpfwRule direction rule false =
      .ok ⟨.ofNat ((rule.parts direction).map Prod.snd).sum,
        (rule.parts direction).map Prod.fst⟩ := by
  have hswitch (isSet : Bool) (down up : Parts) :
      (if isSet then switchDirection direction down up else .ok []) =
        (pure (if isSet then side direction down up else []) : Except Fault Parts) := by
    rcases h with rfl | rfl | rfl <;> cases isSet <;> rfl
  unfold pfContentFromIpfwRule
  simp only [hswitch, List.mapM_pure]
  rfl

theorem forall_field {P : PfComponent × Nat → Prop} {isSet : Bool} {parts : Parts} :
    (∀ part ∈ if isSet then parts else [], P part) ↔ (isSet = true → ∀ part ∈ parts, P part) := by
  cases isSet <;> simp

theorem holds_remotePart {flow : PfFlow} :
    (∀ part ∈ port.remotePart, part.1.Holds flow) ↔
      InRange port.low port.high flow.remotePort := by
  unfold IpfwPort.remotePart
  split_ifs with h
  · rw [← h]
    simp [PfComponent.Holds]
  · simp [PfComponent.Holds]

theorem holds_localPart {flow : PfFlow} :
    (∀ part ∈ port.localPart, part.1.Holds flow) ↔
      InRange port.low port.high flow.localPort := by
  unfold IpfwPort.localPart
  split_ifs with h
  · rw [← h]
    simp [PfComponent.Holds]
  · simp [PfComponent.Holds]

/-- Whichever side is remote, the components are about the source and the destination. -/
theorem holds_parts_iff :
    (∀ c ∈ (rule.parts direction).map Prod.fst, c.Holds (flow.seen direction)) ↔
      (rule.proto ≠ 0 → rule.proto = flow.proto) ∧
        EndShown rule.ipv4Src rule.ipv6Src rule.ipSrc flow.family flow.src ∧
        EndShown rule.ipv4Dst rule.ipv6Dst rule.ipDst flow.family flow.dst ∧
        (rule.portSrc.low ≠ 0 →
          InRange rule.portSrc.low rule.portSrc.high (flow.ports.map Prod.fst)) ∧
        (rule.portDst.low ≠ 0 →
          InRange rule.portDst.low rule.portDst.high (flow.ports.map Prod.snd)) := by
  have hproto : (∀ part ∈ rule.protoPart, part.1.Holds (flow.seen direction)) ↔
      (rule.proto ≠ 0 → rule.proto = flow.proto) := by
    have hseen : (flow.seen direction).proto = flow.proto := by
      unfold PacketFlow.seen
      split_ifs <;> rfl
    unfold CompiledRule.protoPart
    split_ifs with h
    · simp [h]
    · simp [h, PfComponent.Holds, hseen, eq_comm]
  simp only [CompiledRule.parts, List.forall_mem_map, List.forall_mem_append, hproto, EndShown,
    List.forall_mem_flatMap, CompiledRule.fields, List.forall_mem_cons, forall_field]
  unfold side PacketFlow.seen
  by_cases hup : direction = flowUplinkOnly
  · simp only [hup, if_true, holds_remotePart, holds_localPart]
    simp [IpfwAddr.ipv4Remote, IpfwAddr.ipv4Local, IpfwAddr.ipv6Remote, IpfwAddr.ipv6Local,
      PfComponent.Holds]
    tauto
  · simp only [hup, if_false, holds_remotePart, holds_localPart]
    simp [IpfwAddr.ipv4Remote, IpfwAddr.ipv4Local, IpfwAddr.ipv6Remote, IpfwAddr.ipv6Local,
      PfComponent.Holds]
    tauto

/-! ## Lengths -/

/-- Each component that is written comes with the number of its octets. -/
structure Parts.Counted (parts : Parts) (n : Nat) : Prop where
  known : ∀ c ∈ parts.map Prod.fst, c ≠ .matchAll
  sum_eq : (parts.map Prod.snd).sum = ((parts.map Prod.fst).flatMap PfComponent.octets).length
  sum_le : (parts.map Prod.snd).sum ≤ n

namespace Parts.Counted

theorem append {xs ys : Parts} {m n : Nat} (hx : Counted xs m) (hy : Counted ys n) :
    Counted (xs ++ ys) (m + n) where
  known := by
    rw [List.map_append, List.forall_mem_append]
    exact ⟨hx.known, hy.known⟩
  sum_eq := by
    rw [List.map_append, List.map_append, List.sum_append, List.flatMap_append, List.length_append,
      hx.sum_eq, hy.sum_eq]
  sum_le := by
    rw [List.map_append, List.sum_append]
    exact Nat.add_le_add hx.sum_le hy.sum_le

theorem nil (n : Nat) : Counted [] n := ⟨List.forall_mem_nil _, rfl, Nat.zero_le n⟩

theorem single {c : PfComponent} {k n : Nat} (hc : c ≠ .matchAll) (hk : k = c.octets.length)
    (hn : k ≤ n) : Counted [(c, k)] n where
  known := by simpa using hc
  sum_eq := by simpa using hk
  sum_le := by simpa using hn

theorem flatMap {α : Type} {f : α → Parts} {xs : List α} {n : Nat} (h : ∀ x ∈ xs, Counted (f x) n) :
    Counted (xs.flatMap f) (xs.length * n) := by
  induction xs with
  | nil => exact nil _
  | cons x xs ih =>
    obtain ⟨hx, hxs⟩ := List.forall_mem_cons.mp h
    rw [List.flatMap_cons, List.length_cons, Nat.succ_mul, Nat.add_comm]
    exact hx.append (ih hxs)

end Parts.Counted

theorem CompiledRule.counted_parts (direction : UInt8) (rule : CompiledRule) :
    (rule.parts direction).Counted 110 := by
  have hproto : rule.protoPart.Counted 2 := by
    unfold protoPart
    split_ifs
    · exact .nil 2
    · exact .single nofun rfl (Nat.le_refl 2)
  have haddr (ip : IpfwAddr) : (ip.ipv4Remote.Counted 18 ∧ (ip.ipv4Local false).Counted 18) ∧
      (ip.ipv6Remote false).Counted 18 ∧ (ip.ipv6Local false).Counted 18 := by
    refine ⟨⟨.single nofun ?_ ?_, .single nofun ?_ ?_⟩, .single nofun ?_ ?_, .single nofun ?_ ?_⟩
    all_goals simp [PfComponent.octets, PfComponent.fields]
  have hport (port : IpfwPort) : port.remotePart.Counted 18 ∧ port.localPart.Counted 18 := by
    unfold IpfwPort.remotePart IpfwPort.localPart
    split_ifs
    · exact ⟨.single nofun rfl (by decide), .single nofun rfl (by decide)⟩
    · exact ⟨.single nofun rfl (by decide), .single nofun rfl (by decide)⟩
  have hfields : ∀ field ∈ rule.fields false, field.2.1.Counted 18 ∧ field.2.2.Counted 18 := by
    simp only [fields, List.forall_mem_cons]
    exact ⟨(haddr _).1, (haddr _).1.symm, (haddr _).2, (haddr _).2.symm, hport _, (hport _).symm,
      List.forall_mem_nil _⟩
  change Parts.Counted _ (2 + (rule.fields false).length * 18)
  refine hproto.append (Parts.Counted.flatMap fun field hfield => ?_)
  obtain ⟨isSet, down, up⟩ := field
  obtain ⟨hdown, hup⟩ := hfields _ hfield
  unfold side
  dsimp only
  split_ifs
  · exact hup
  · exact hdown
  · exact .nil 18

/-! ## Ranges from 0 on -/

/-- A range from 0 on is left out, and nothing else keeps out a flow of a port behind it, or of
none. -/
def IpfwPort.Lost (port other : IpfwPort) (proto : UInt8) : Prop :=
  port.low = 0 ∧ port.high ≠ 0 ∧ (other.low = 0 ∨
    port.high < 65535 ∧ other.low ≤ other.high ∧ (proto = 0 ∨ hasPorts proto = true))

section Ports

variable {port other : IpfwPort} {proto : UInt8} {ports : Option (UInt16 × UInt16)}

theorem IpfwPort.Lost.exists_ports (h : port.Lost other proto) :
    ∃ x : Option (UInt16 × UInt16), (x ≠ none → proto = 0 ∨ hasPorts proto = true) ∧
      (other.low ≠ 0 → InRange other.low other.high (x.map Prod.snd)) ∧
      ¬port.Admits (x.map Prod.fst) := by
  obtain ⟨hlow, hhigh, h⟩ := h
  have hset : port ≠ ⟨0, 0⟩ := by
    rintro rfl
    exact hhigh rfl
  rcases h with hother | ⟨hmax, hle, hproto⟩
  · refine ⟨none, nofun, fun h => absurd hother h, ?_⟩
    rintro (h | ⟨x, ⟨⟩, -⟩)
    exact hset h
  · refine ⟨some (65535, other.low), fun _ => hproto, fun _ => ⟨_, rfl, UInt16.le_refl _, hle⟩, ?_⟩
    rintro (h | ⟨x, ⟨⟩, -, h⟩)
    · exact hset h
    · exact UInt16.not_le.mpr hmax h

theorem IpfwPort.admits_of_not_lost (h : ¬port.Lost other proto)
    (hports : ports ≠ none → proto = 0 ∨ hasPorts proto = true)
    (hport : port.low ≠ 0 → InRange port.low port.high (ports.map Prod.fst))
    (hother : other.low ≠ 0 → InRange other.low other.high (ports.map Prod.snd)) :
    port.Admits (ports.map Prod.fst) := by
  by_cases hlow : port.low = 0
  · by_cases hhigh : port.high = 0
    · obtain ⟨low, high⟩ := port
      exact .inl (congrArg₂ IpfwPort.mk hlow hhigh)
    · refine .inr ?_
      have hset : other.low ≠ 0 := fun h0 => h ⟨hlow, hhigh, .inl h0⟩
      obtain ⟨y, hy, hge, hle⟩ := hother hset
      obtain ⟨⟨x, _⟩, rfl, -⟩ := Option.map_eq_some_iff.mp hy
      have hmax : ¬port.high < 65535 := fun hmax =>
        h ⟨hlow, hhigh, .inr ⟨hmax, UInt16.le_trans hge hle, hports nofun⟩⟩
      refine ⟨x, rfl, ?_, ?_⟩
      · rw [hlow]
        exact UInt16.zero_le
      · have hx := x.toNat_lt
        rw [UInt16.lt_iff_toNat_lt] at hmax
        rw [UInt16.le_iff_toNat_le]
        change ¬_ < 65535 at hmax
        omega
  · exact .inr (hport hlow)

theorem IpfwPort.Admits.inRange {x : Option UInt16} (h : port.Admits x) (hlow : port.low ≠ 0) :
    InRange port.low port.high x := by
  rcases h with rfl | h
  · exact absurd rfl hlow
  · exact h

end Ports

/-! ## Rules that are rendered -/

/-- Unless the rule names addresses of both families, no range from 0 on is lost. -/
def CompiledRule.NoneLost (rule : CompiledRule) : Prop :=
  (∃ family, rule.Agrees family) → ¬rule.portSrc.Lost rule.portDst rule.proto ∧
    ¬rule.portDst.Lost rule.portSrc rule.proto

/-- Everything but the ports of a flow is what the rule names, if the components hold of it. -/
theorem holds_parts_iff_names (hmade : rule.Made) (hmasks : rule.ContiguousMasks)
    (hflow : flow.Possible) :
    (∀ c ∈ (rule.parts direction).map Prod.fst, c.Holds (flow.seen direction)) ↔
      rule.Names flow ∧
        (rule.portSrc.low ≠ 0 →
          InRange rule.portSrc.low rule.portSrc.high (flow.ports.map Prod.fst)) ∧
        (rule.portDst.low ≠ 0 →
          InRange rule.portDst.low rule.portDst.high (flow.ports.map Prod.snd)) := by
  obtain ⟨hsrc, hdst⟩ := hmade.zeroUnnamed
  rw [holds_parts_iff, endShown_iff hsrc hmasks.src hflow.src,
    endShown_iff hdst hmasks.dst hflow.dst]
  have hagrees : rule.Agrees flow.family ↔
      ((rule.ipv4Src = true → flow.family = .ipv4) ∧ (rule.ipv6Src = true → flow.family = .ipv6)) ∧
        (rule.ipv4Dst = true → flow.family = .ipv4) ∧
          (rule.ipv6Dst = true → flow.family = .ipv6) := by
    cases flow.family <;> simp [CompiledRule.Agrees]
  rw [CompiledRule.Names, hagrees, ← or_iff_not_imp_left]
  constructor
  · rintro ⟨hproto, ⟨hsrc4, hsrc6, hsrc⟩, ⟨hdst4, hdst6, hdst⟩, hports⟩
    exact ⟨⟨⟨⟨hsrc4, hsrc6⟩, hdst4, hdst6⟩, hsrc, hdst, hproto⟩, hports⟩
  · rintro ⟨⟨⟨⟨hsrc4, hsrc6⟩, hdst4, hdst6⟩, hsrc, hdst, hproto⟩, hports⟩
    exact ⟨hproto, ⟨hsrc4, hsrc6, hsrc⟩, ⟨hdst4, hdst6, hdst⟩, hports⟩

/-- A flow of the addresses of the rule, in a family that it agrees with. -/
def CompiledRule.namedFlow (rule : CompiledRule) (family : Family) (ports : Option (UInt16 × UInt16)) :
    PacketFlow where
  family := family
  src := rule.ipSrc.addr.toList.take family.words
  dst := rule.ipDst.addr.toList.take family.words
  proto := if rule.proto = 0 then ipprotoTcp else rule.proto
  ports := ports

variable {family : Family}

theorem CompiledRule.namedFlow_names (h : rule.Agrees family) (ports : Option (UInt16 × UInt16)) :
    rule.Names (rule.namedFlow family ports) := by
  have hlength (words : Vector UInt32 4) : (words.toList.take family.words).length = family.words := by
    cases family <;> simp [Family.words]
  have hcontains (ip : IpfwAddr) : ip.Contains (ip.addr.toList.take family.words) := by
    rw [IpfwAddr.Contains, zipWith_take, hlength]
  refine ⟨h, hcontains _, hcontains _, ?_⟩
  change rule.proto = 0 ∨ rule.proto = if rule.proto = 0 then ipprotoTcp else rule.proto
  split_ifs with hproto
  · exact .inl hproto
  · exact .inr rfl

theorem CompiledRule.namedFlow_possible {ports : Option (UInt16 × UInt16)}
    (h : ports ≠ none → rule.proto = 0 ∨ hasPorts rule.proto = true) :
    (rule.namedFlow family ports).Possible where
  src := by cases family <;> simp [namedFlow, Family.words]
  dst := by cases family <;> simp [namedFlow, Family.words]
  ports hports := by
    change hasPorts (if rule.proto = 0 then ipprotoTcp else rule.proto) = true
    split_ifs with hproto
    · rfl
    · exact (h hports).resolve_left hproto

theorem CompiledRule.NoneLost.denotes (h : rule.NoneLost) (hnames : rule.Names flow)
    (hflow : flow.Possible)
    (hsrc : rule.portSrc.low ≠ 0 →
      InRange rule.portSrc.low rule.portSrc.high (flow.ports.map Prod.fst))
    (hdst : rule.portDst.low ≠ 0 →
      InRange rule.portDst.low rule.portDst.high (flow.ports.map Prod.snd)) :
    rule.Denotes flow := by
  obtain ⟨hlostSrc, hlostDst⟩ := h ⟨flow.family, hnames.1⟩
  have hproto (hports : flow.ports ≠ none) : rule.proto = 0 ∨ hasPorts rule.proto = true := by
    refine hnames.2.2.2.imp_right fun heq => ?_
    rw [heq]
    exact hflow.ports hports
  have hswap : (flow.ports.map Prod.swap).map Prod.fst = flow.ports.map Prod.snd ∧
      (flow.ports.map Prod.swap).map Prod.snd = flow.ports.map Prod.fst := by
    cases flow.ports <;> exact ⟨rfl, rfl⟩
  refine ⟨hnames, IpfwPort.admits_of_not_lost hlostSrc hproto hsrc hdst, ?_⟩
  rw [← hswap.1]
  refine IpfwPort.admits_of_not_lost hlostDst (fun hports => hproto fun hnone => hports ?_) ?_ ?_
  · rw [hnone]
    rfl
  · rw [hswap.1]
    exact hdst
  · rw [hswap.2]
    exact hsrc

/-- The components of a rule say what the rule says unless a range from 0 on is lost. -/
theorem flows_iff (direction : UInt8) (hmade : rule.Made) (hmasks : rule.ContiguousMasks) :
    (∀ flow : PacketFlow, flow.Possible →
      ((∀ c ∈ (rule.parts direction).map Prod.fst, c.Holds (flow.seen direction)) ↔
        rule.Denotes flow)) ↔ rule.NoneLost := by
  constructor
  · rintro h ⟨family, hfamily⟩
    constructor
    · intro hlost
      obtain ⟨ports, hports, hother, hnot⟩ := hlost.exists_ports
      have hpossible : (rule.namedFlow family ports).Possible := rule.namedFlow_possible hports
      exact hnot ((h _ hpossible).mp ((holds_parts_iff_names hmade hmasks hpossible).mpr
        ⟨rule.namedFlow_names hfamily ports, fun hset => absurd hlost.1 hset, hother⟩)).2.1
    · intro hlost
      obtain ⟨ports, hports, hother, hnot⟩ := hlost.exists_ports
      have hpossible : (rule.namedFlow family (ports.map Prod.swap)).Possible :=
        rule.namedFlow_possible fun hset => hports fun hnone => hset (by rw [hnone]; rfl)
      refine hnot ?_
      have hdenotes := (h _ hpossible).mp ((holds_parts_iff_names hmade hmasks hpossible).mpr
        ⟨rule.namedFlow_names hfamily _, ?_, fun hset => absurd hlost.1 hset⟩)
      · have hadmits := hdenotes.2.2
        cases ports <;> exact hadmits
      · cases ports <;> exact hother
  · intro h flow hflow
    rw [holds_parts_iff_names hmade hmasks hflow]
    constructor
    · rintro ⟨hnames, hsrc, hdst⟩
      exact h.denotes hnames hflow hsrc hdst
    · rintro ⟨hnames, hsrc, hdst⟩
      exact ⟨hnames, hsrc.inRange, hdst.inRange⟩

/-- The content that is built from a rule says of flows what the rule says, in as many octets as
its length counts, if and only if no range of ports from 0 on is lost. -/
theorem pfContent_renders_iff (hdirection : FlowDirection direction) (hmade : rule.Made)
    (hmasks : rule.ContiguousMasks) :
    (∃ content, pfContentFromIpfwRule direction rule false = .ok content ∧
      content.Renders direction rule) ↔ rule.NoneLost := by
  rw [← flows_iff direction hmade hmasks, pfContentFromIpfwRule_eq hdirection]
  obtain ⟨hknown, hsum, hle⟩ := rule.counted_parts direction
  have hlength : (UInt8.ofNat ((rule.parts direction).map Prod.snd).sum).toNat =
      (((rule.parts direction).map Prod.fst).flatMap PfComponent.octets).length := by
    rw [UInt8.toNat_ofNat', ← hsum]
    omega
  constructor
  · rintro ⟨content, ⟨⟩, h⟩
    exact h.flows
  · intro h
    refine ⟨_, rfl, h, fun code flags hcode => ?_, fun room written hroom => ?_⟩
    · rw [QosPacketFilter.build, if_neg hcode]
      change _ + 1 + 1 = 2 + UInt8.toNat _
      rw [hlength, Nat.add_comm 2]
    · rw [hlength] at hroom
      exact ⟨_, hlength.symm, putAll_eq (fun c hc _ => PfComponent.putTft_eq (hknown c hc)) hroom⟩

end Rule

/-- From any address and any port to the port 80 of one address, over TCP. -/
def webRule : CompiledRule :=
  ipfwCompileRule [.proto 6, .ipDst 0x0a000001, .ipDstport 80 80]

theorem pfContent_renders_webRule :
    (∃ content, pfContentFromIpfwRule flowUplinkOnly webRule false = .ok content ∧
      content.Renders flowUplinkOnly webRule) ↔ webRule.NoneLost :=
  pfContent_renders_iff (.inr (.inl rfl))
    (.compiled (by
      intro cmd hcmd
      simp only [List.mem_cons, List.not_mem_nil, or_false] at hcmd
      rcases hcmd with rfl | rfl | rfl <;> trivial))
    ⟨nofun, nofun⟩

/-- Of the source ports from 0 to 1023 nothing is written, so the components hold of port 65535. -/
theorem not_pfContent_renders :
    ∃ rule : CompiledRule, rule.Made ∧ rule.ContiguousMasks ∧
      ¬∃ content, pfContentFromIpfwRule flowDownlinkOnly rule false = .ok content ∧
        content.Renders flowDownlinkOnly rule := by
  refine ⟨ipfwCompileRule [.proto 6, .ipSrcport 0 1023], .compiled ?_, ⟨nofun, nofun⟩, ?_⟩
  · intro cmd hcmd
    simp only [List.mem_cons, List.not_mem_nil, or_false] at hcmd
    rcases hcmd with rfl | rfl <;> trivial
  · rintro ⟨content, hcontent, hrenders⟩
    obtain rfl : PfContent.mk 2 [.protocolIdentifierNextHeader 6] = content :=
      Except.ok.inj (by rw [← hcontent]; rfl)
    let flow : PacketFlow := ⟨.ipv4, [0], [0], 6, some (65535, 80)⟩
    have hdenotes := (hrenders.flows flow ⟨rfl, rfl, fun _ => rfl⟩).mp (by
      intro c hc
      obtain rfl := List.mem_singleton.mp hc
      rfl)
    rcases hdenotes.2.1 with h | ⟨x, ⟨⟩, -, h⟩
    · cases h
    · exact absurd h (by decide)

end Quicup.Open5gs
