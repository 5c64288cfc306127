import Quicup.Open5gs.Pfcp.PacketBounds

/-!
# The flow that a packet belongs to

A well-formed packet belongs to a flow: its family of addresses, its source and destination,
its protocol and its ports. With addresses and ports exchanged it belongs to the flow in the
other direction.
-/

namespace Quicup.Open5gs

/-! ## Flows -/

inductive Family
  | ipv4
  | ipv6
  deriving DecidableEq

namespace Family

/-- The version in the first octet of a packet. -/
def version : Family → UInt8
  | ipv4 => 4
  | ipv6 => 6

/-- The words of an address. -/
def words : Family → Nat
  | ipv4 => 1
  | ipv6 => 4

/-- Where the source address of a packet is. -/
def source : Family → Nat
  | ipv4 => 12
  | ipv6 => 8

/-- The destination address follows the source address. -/
def destination (family : Family) : Nat := family.source + 4 * family.words

end Family

/-- What the rules are for. Only TCP and UDP have ports, and of a datagram in fragments only
the first. -/
structure PacketFlow where
  family : Family
  src : List UInt32
  dst : List UInt32
  proto : UInt8
  ports : Option (UInt16 × UInt16)
  deriving DecidableEq

/-- The flow in the other direction. -/
def PacketFlow.mirror (flow : PacketFlow) : PacketFlow :=
  { flow with
    src := flow.dst
    dst := flow.src
    ports := flow.ports.map Prod.swap }

def hasPorts (proto : UInt8) : Bool := proto = ipprotoTcp || proto = ipprotoUdp

/-- What the headers of a packet lead to: the protocol of the upper layer, with the offset of
its header unless an earlier fragment has it. -/
structure Layout where
  family : Family
  proto : UInt8
  upper : Option Nat
  deriving DecidableEq

/-- Where the ports are. -/
def Layout.ports (layout : Layout) : Option Nat :=
  if hasPorts layout.proto then layout.upper else none

def addressAt (packet : List UInt8) (family : Family) (i : Nat) : List UInt32 :=
  (wordsAt packet i).toList.take family.words

/-- The flow of a packet with these headers. -/
def Layout.flow (layout : Layout) (packet : List UInt8) : PacketFlow where
  family := layout.family
  src := addressAt packet layout.family layout.family.source
  dst := addressAt packet layout.family layout.family.destination
  proto := layout.proto
  ports := layout.ports.map fun i => (halfAt packet i, halfAt packet (i + 2))

/-! ## Well-formed packets -/

/-- The header is none of those that another header follows. -/
def isUpperLayer (nxt : UInt8) : Bool :=
  !isExtension nxt && nxt ≠ ipprotoFragment && nxt ≠ ipprotoAh

section WellFormed

variable (packet : List UInt8)

/-- The octets of a header that another header follows. -/
def headerOctets (p : Nat) (nxt : UInt8) : Nat :=
  if isExtension nxt then (octetAt packet (p + 1)).toNat * 8 + 8
  else if nxt = ipprotoFragment then 8
  else ((octetAt packet (p + 1)).toNat + 2) * 4

/-- The offset that a fragment header has, in units of eight octets. -/
def fragmentOffset (p : Nat) : UInt16 := halfAt packet (p + 2) >>> 3

/-- From an offset and the number of the header there, the headers of an IPv6 packet lead to
its upper layer. -/
inductive LeadsTo (endp : Nat) : Nat → UInt8 → UInt8 → Option Nat → Prop
  | upperLayer {p nxt} : isUpperLayer nxt = true → p ≤ endp → LeadsTo endp p nxt nxt (some p)
  | header {p nxt proto upper} : isUpperLayer nxt = false →
      (nxt = ipprotoFragment → fragmentOffset packet p = 0) →
      LeadsTo endp (p + headerOctets packet p nxt) (octetAt packet p) proto upper →
      LeadsTo endp p nxt proto upper
  | laterFragment {p} : fragmentOffset packet p ≠ 0 → isUpperLayer (octetAt packet p) = true →
      p + 8 ≤ endp → LeadsTo endp p ipprotoFragment (octetAt packet p) none

/-- The octets of the header of an IPv4 packet. -/
def ipv4HeaderOctets : Nat := (octetAt packet 0 &&& 0xf).toNat * 4

/-- The upper layer of an IPv4 packet is behind its header, unless the packet is a later
fragment. -/
def ipv4Upper : Option Nat :=
  if halfAt packet 6 &&& 0x1fff = 0 then some (ipv4HeaderOctets packet) else none

/-- The length of an IPv4 packet, and that of an IPv6 packet behind its first header, are in
the packet. The ports lie before its end. -/
inductive WellFormed : Layout → Prop
  | ipv4 : versionAt packet = 4 → 20 ≤ ipv4HeaderOctets packet →
      ipv4HeaderOctets packet ≤ (halfAt packet 2).toNat →
      (halfAt packet 2).toNat ≤ packet.length →
      (∀ i, (Layout.mk .ipv4 (octetAt packet 9) (ipv4Upper packet)).ports = some i →
        i + 4 ≤ (halfAt packet 2).toNat) →
      WellFormed ⟨.ipv4, octetAt packet 9, ipv4Upper packet⟩
  | ipv6 {proto upper} : versionAt packet = 6 → halfAt packet 4 ≠ 0 →
      40 + (halfAt packet 4).toNat ≤ packet.length →
      LeadsTo packet (40 + (halfAt packet 4).toNat) 40 (octetAt packet 6) proto upper →
      (∀ i, (Layout.mk .ipv6 proto upper).ports = some i →
        i + 4 ≤ 40 + (halfAt packet 4).toNat) →
      WellFormed ⟨.ipv6, proto, upper⟩

end WellFormed

/-! ## Packets with the same headers -/

section Headers

variable {packet packet' : List UInt8} {i j p endp : Nat} {layout : Layout} {nxt proto : UInt8}
  {upper : Option Nat}

theorem halfAt_congr (h : ∀ k < 2, octetAt packet' (j + k) = octetAt packet (i + k)) :
    halfAt packet' j = halfAt packet i := by
  have hfirst : octetAt packet' j = octetAt packet i := h 0 (by decide)
  have hsecond : octetAt packet' (j + 1) = octetAt packet (i + 1) := h 1 (by decide)
  rw [halfAt, halfAt, hfirst, hsecond]

theorem wordAt_congr (h : ∀ k < 4, octetAt packet' (j + k) = octetAt packet (i + k)) :
    wordAt packet' j = wordAt packet i := by
  have hfirst : octetAt packet' j = octetAt packet i := h 0 (by decide)
  rw [wordAt, wordAt, hfirst, h 1 (by decide), h 2 (by decide), h 3 (by decide)]

theorem addressAt_congr {family : Family}
    (h : ∀ k < 4 * family.words, octetAt packet' (j + k) = octetAt packet (i + k)) :
    addressAt packet' family j = addressAt packet family i := by
  have hword (m : Nat) (hm : m + 4 ≤ 4 * family.words) :
      wordAt packet' (j + m) = wordAt packet (i + m) := by
    refine wordAt_congr fun k hk => ?_
    rw [Nat.add_assoc, Nat.add_assoc]
    exact h (m + k) (by omega)
  cases family with
  | ipv4 =>
    have hfirst : wordAt packet' j = wordAt packet i := wordAt_congr h
    change [wordAt packet' j] = [wordAt packet i]
    rw [hfirst]
  | ipv6 =>
    have hfirst : wordAt packet' (j + 0) = wordAt packet (i + 0) := hword 0 (by decide)
    rw [Nat.add_zero, Nat.add_zero] at hfirst
    have hsecond : wordAt packet' (j + 4) = wordAt packet (i + 4) := hword 4 (by decide)
    have hthird : wordAt packet' (j + 8) = wordAt packet (i + 8) := hword 8 (by decide)
    have hfourth : wordAt packet' (j + 12) = wordAt packet (i + 12) := hword 12 (by decide)
    simp only [addressAt, wordsAt, hfirst, hsecond, hthird, hfourth]

theorem eight_le_headerOctets (p : Nat) (nxt : UInt8) : 8 ≤ headerOctets packet p nxt := by
  rw [headerOctets]
  split_ifs <;> omega

/-- The headers go on to the right. -/
theorem LeadsTo.le (h : LeadsTo packet endp p nxt proto upper) :
    p ≤ endp ∧ ∀ i, upper = some i → p ≤ i ∧ i ≤ endp := by
  induction h with
  | upperLayer _ hp =>
    refine ⟨hp, ?_⟩
    rintro _ ⟨⟩
    exact ⟨Nat.le_refl _, hp⟩
  | header _ _ _ ih =>
    refine ⟨by omega, fun i hi => ?_⟩
    have hle := ih.2 i hi
    omega
  | laterFragment _ _ hp => exact ⟨by omega, nofun⟩

theorem fragmentOffset_congr (hread : ∀ k < 8, octetAt packet' (p + k) = octetAt packet (p + k)) :
    fragmentOffset packet' p = fragmentOffset packet p := by
  have hhalf : halfAt packet' (p + 2) = halfAt packet (p + 2) := by
    refine halfAt_congr fun k hk => ?_
    rw [Nat.add_assoc]
    exact hread (2 + k) (by omega)
  rw [fragmentOffset, fragmentOffset, hhalf]

theorem LeadsTo.congr (h : LeadsTo packet endp p nxt proto upper)
    (hsame : ∀ k, p ≤ k → k < endp → (∀ i, upper = some i → k < i) →
      octetAt packet' k = octetAt packet k) : LeadsTo packet' endp p nxt proto upper := by
  induction h with
  | upperLayer hnxt hp => exact .upperLayer hnxt hp
  | @header p nxt proto upper hnxt hoffset h ih =>
    have height : 8 ≤ headerOctets packet p nxt := eight_le_headerOctets p nxt
    have hread (k : Nat) (hk : k < 8) : octetAt packet' (p + k) = octetAt packet (p + k) := by
      refine hsame (p + k) (by omega) ?_ fun i hi => ?_
      · have hle := h.le.1
        omega
      · have hle := (h.le.2 i hi).1
        omega
    have hnext : octetAt packet' p = octetAt packet p := hread 0 (by decide)
    have hfragment := fragmentOffset_congr hread
    have hoctets : headerOctets packet' p nxt = headerOctets packet p nxt := by
      rw [headerOctets, headerOctets, hread 1 (by decide)]
    refine .header hnxt (fun hfrag => hfragment.trans (hoffset hfrag)) ?_
    rw [hoctets, hnext]
    exact ih fun k hk => hsame k (by omega)
  | @laterFragment p hoffset hnxt hp =>
    have hread (k : Nat) (hk : k < 8) : octetAt packet' (p + k) = octetAt packet (p + k) :=
      hsame (p + k) (by omega) (by omega) nofun
    have hnext : octetAt packet' p = octetAt packet p := hread 0 (by decide)
    have hfragment := fragmentOffset_congr hread
    rw [← hfragment] at hoffset
    rw [← hnext] at hnxt ⊢
    exact .laterFragment hoffset hnxt hp

theorem Layout.upper_of_ports (h : layout.ports = some i) :
    hasPorts layout.proto = true ∧ layout.upper = some i := by
  rw [Layout.ports] at h
  split_ifs at h with hproto
  exact ⟨hproto, h⟩

/-- The addresses lie in the packet, and the ports behind them. -/
theorem WellFormed.inside (h : WellFormed packet layout) :
    layout.family.destination + 4 * layout.family.words ≤ packet.length ∧
      ∀ i, layout.ports = some i →
        layout.family.destination + 4 * layout.family.words ≤ i ∧ i + 4 ≤ packet.length := by
  cases h with
  | ipv4 _ hheader htotal hlength hports =>
    change 20 ≤ packet.length ∧ ∀ i, _ → 20 ≤ i ∧ i + 4 ≤ packet.length
    refine ⟨by omega, fun i hi => ?_⟩
    have hend := hports i hi
    have hupper : ipv4Upper packet = some i := (Layout.upper_of_ports hi).2
    rw [ipv4Upper] at hupper
    split_ifs at hupper
    obtain rfl := Option.some.inj hupper
    omega
  | ipv6 _ _ hlength hleads hports =>
    change 40 ≤ packet.length ∧ ∀ i, _ → 40 ≤ i ∧ i + 4 ≤ packet.length
    refine ⟨by omega, fun i hi => ?_⟩
    have hend := hports i hi
    have hle := hleads.le.2 i (Layout.upper_of_ports hi).2
    omega

/-- The headers of a packet do not depend on its addresses and ports, or on what is behind
it. -/
theorem WellFormed.congr (h : WellFormed packet layout) (hlength : packet.length ≤ packet'.length)
    (hsame : ∀ k < packet.length, (k < layout.family.source ∨
        layout.family.destination + 4 * layout.family.words ≤ k) →
      (∀ i, layout.ports = some i → k < i ∨ i + 4 ≤ k) →
      octetAt packet' k = octetAt packet k) : WellFormed packet' layout := by
  have hinside := h.inside
  have hfront (k : Nat) (hk : k < layout.family.source) :
      octetAt packet' k = octetAt packet k := by
    have hdst : layout.family.source ≤ layout.family.destination := Nat.le_add_right _ _
    refine hsame k (by omega) (.inl hk) fun i hi => .inl ?_
    have hi := (hinside.2 i hi).1
    omega
  cases h with
  | ipv4 hversion hheader htotal hlen hports =>
    have hfront (k : Nat) (hk : k < 12) : octetAt packet' k = octetAt packet k := hfront k hk
    have hversion' : versionAt packet' = 4 := by
      rw [versionAt, hfront 0 (by decide)]
      exact hversion
    have hoctets : ipv4HeaderOctets packet' = ipv4HeaderOctets packet := by
      rw [ipv4HeaderOctets, ipv4HeaderOctets, hfront 0 (by decide)]
    have hlen' : halfAt packet' 2 = halfAt packet 2 :=
      halfAt_congr fun k hk => hfront (2 + k) (by omega)
    have hoffset : halfAt packet' 6 = halfAt packet 6 :=
      halfAt_congr fun k hk => hfront (6 + k) (by omega)
    have hupper : ipv4Upper packet' = ipv4Upper packet := by
      rw [ipv4Upper, ipv4Upper, hoffset, hoctets]
    rw [← hoctets] at hheader htotal
    rw [← hlen'] at htotal hlen hports
    rw [← hupper, ← hfront 9 (by decide)] at hports ⊢
    exact .ipv4 hversion' hheader htotal (hlen.trans hlength) hports
  | @ipv6 proto upper hversion hplen hlen hleads hports =>
    have hfront (k : Nat) (hk : k < 8) : octetAt packet' k = octetAt packet k := hfront k hk
    have hversion' : versionAt packet' = 6 := by
      rw [versionAt, hfront 0 (by decide)]
      exact hversion
    have hplen' : halfAt packet' 4 = halfAt packet 4 :=
      halfAt_congr fun k hk => hfront (4 + k) (by omega)
    have hleads' : LeadsTo packet' (40 + (halfAt packet 4).toNat) 40 (octetAt packet 6) proto
        upper := by
      refine hleads.congr fun k hk hend hupper => hsame k (by omega) (.inr hk) fun i hi => ?_
      exact .inl (hupper i (Layout.upper_of_ports hi).2)
    rw [← hplen'] at hplen hlen hleads' hports
    rw [← hfront 6 (by decide)] at hleads'
    exact .ipv6 hversion' hplen (hlen.trans hlength) hleads' hports

theorem octetAt_append {room : List UInt8} {k : Nat} (hk : k < packet.length) :
    octetAt (packet ++ room) k = octetAt packet k := by
  rw [octetAt, octetAt, List.getD_eq_getElem?_getD, List.getD_eq_getElem?_getD,
    List.getElem?_append_left hk]

theorem WellFormed.append (h : WellFormed packet layout) (room : List UInt8) :
    WellFormed (packet ++ room) layout := by
  refine h.congr ?_ fun k hk _ _ => octetAt_append hk
  rw [List.length_append]
  exact Nat.le_add_right _ _

/-- What is behind a packet does not change its flow. -/
theorem WellFormed.flow_append (h : WellFormed packet layout) (room : List UInt8) :
    layout.flow (packet ++ room) = layout.flow packet := by
  obtain ⟨haddress, hports⟩ := h.inside
  have hdst : layout.family.destination = layout.family.source + 4 * layout.family.words := rfl
  have hsrc : addressAt (packet ++ room) layout.family layout.family.source =
      addressAt packet layout.family layout.family.source :=
    addressAt_congr fun k hk => octetAt_append (by omega)
  have hdst : addressAt (packet ++ room) layout.family layout.family.destination =
      addressAt packet layout.family layout.family.destination :=
    addressAt_congr fun k hk => octetAt_append (by omega)
  rw [Layout.flow, Layout.flow, hsrc, hdst]
  refine congrArg _ (Option.map_congr fun i hi => ?_)
  have hinside := (hports i hi).2
  have hfirst : halfAt (packet ++ room) i = halfAt packet i :=
    halfAt_congr fun k hk => octetAt_append (by omega)
  have hsecond : halfAt (packet ++ room) (i + 2) = halfAt packet (i + 2) :=
    halfAt_congr fun k hk => octetAt_append (by omega)
  rw [hfirst, hsecond]

end Headers

/-! ## The packet in the other direction -/

/-- The index that two spans of `n` octets exchanged have in place of `k`. -/
def exchanged (i j n k : Nat) : Nat :=
  if i ≤ k ∧ k < i + n then k - i + j else if j ≤ k ∧ k < j + n then k - j + i else k

def exchangeSpans (packet : List UInt8) (i j n : Nat) : List UInt8 :=
  (List.range packet.length).map fun k => octetAt packet (exchanged i j n k)

/-- The packet with its source and destination addresses and ports exchanged. -/
def Layout.exchange (layout : Layout) (packet : List UInt8) : List UInt8 :=
  let family := layout.family
  let readdressed := exchangeSpans packet family.source family.destination (4 * family.words)
  match layout.ports with
  | some i => exchangeSpans readdressed i (i + 2) 2
  | none => readdressed

section Exchange

variable {packet : List UInt8} {i k : Nat}

theorem length_exchangeSpans (packet : List UInt8) (i j n : Nat) :
    (exchangeSpans packet i j n).length = packet.length := by
  rw [exchangeSpans, List.length_map, List.length_range]

theorem octetAt_exchangeSpans {j n : Nat} (hi : i + n ≤ packet.length) (hj : j + n ≤ packet.length)
    (k : Nat) : octetAt (exchangeSpans packet i j n) k = octetAt packet (exchanged i j n k) := by
  by_cases hk : k < packet.length
  · rw [octetAt, exchangeSpans, List.getD_eq_getElem?_getD, List.getElem?_map,
      List.getElem?_range hk]
    rfl
  · have hsame : exchanged i j n k = k := by
      rw [exchanged, if_neg (by omega), if_neg (by omega)]
    have hbehind : (exchangeSpans packet i j n).length ≤ k := by
      rw [length_exchangeSpans]
      exact Nat.le_of_not_lt hk
    rw [hsame, octetAt, octetAt, List.getD_eq_getElem?_getD, List.getD_eq_getElem?_getD,
      List.getElem?_eq_none hbehind, List.getElem?_eq_none (Nat.le_of_not_lt hk)]

variable {layout : Layout}

theorem Layout.length_exchange : (layout.exchange packet).length = packet.length := by
  rw [Layout.exchange]
  cases layout.ports with
  | none => exact length_exchangeSpans ..
  | some i => exact (length_exchangeSpans ..).trans (length_exchangeSpans ..)

/-- The addresses of the exchanged packet, and what is neither address nor port. -/
theorem WellFormed.octetAt_exchange (h : WellFormed packet layout)
    (hk : ∀ i, layout.ports = some i → k < i ∨ i + 4 ≤ k) :
    octetAt (layout.exchange packet) k = octetAt packet (exchanged layout.family.source
      layout.family.destination (4 * layout.family.words) k) := by
  obtain ⟨haddress, hports⟩ := h.inside
  have hdst : layout.family.destination = layout.family.source + 4 * layout.family.words := rfl
  rw [Layout.exchange]
  cases hat : layout.ports with
  | none => exact octetAt_exchangeSpans (by omega) haddress k
  | some i =>
    obtain ⟨-, hend⟩ := hports i hat
    have hsame : exchanged i (i + 2) 2 k = k := by
      have hk := hk i hat
      rw [exchanged, if_neg (by omega), if_neg (by omega)]
    have hlength := length_exchangeSpans packet layout.family.source
      layout.family.destination (4 * layout.family.words)
    dsimp only
    rw [octetAt_exchangeSpans (by omega) (by omega), hsame]
    exact octetAt_exchangeSpans (by omega) haddress k

/-- The ports of the exchanged packet, and what is behind them. -/
theorem WellFormed.octetAt_exchange_ports (h : WellFormed packet layout)
    (hi : layout.ports = some i) (hk : i ≤ k) :
    octetAt (layout.exchange packet) k = octetAt packet (exchanged i (i + 2) 2 k) := by
  obtain ⟨haddress, hports⟩ := h.inside
  obtain ⟨hbehind, hend⟩ := hports i hi
  have hdst : layout.family.destination = layout.family.source + 4 * layout.family.words := rfl
  have hlength := length_exchangeSpans packet layout.family.source
    layout.family.destination (4 * layout.family.words)
  have hport : i ≤ exchanged i (i + 2) 2 k := by
    rw [exchanged]
    split_ifs <;> omega
  have hsame : exchanged layout.family.source layout.family.destination
      (4 * layout.family.words) (exchanged i (i + 2) 2 k) = exchanged i (i + 2) 2 k := by
    rw [exchanged, if_neg (by omega), if_neg (by omega)]
  rw [Layout.exchange, hi]
  dsimp only
  rw [octetAt_exchangeSpans (by omega) (by omega), octetAt_exchangeSpans (by omega) haddress,
    hsame]

theorem WellFormed.exchange (h : WellFormed packet layout) :
    WellFormed (layout.exchange packet) layout := by
  have hdst : layout.family.destination = layout.family.source + 4 * layout.family.words := rfl
  refine h.congr (Nat.le_of_eq Layout.length_exchange.symm) fun k _ haddress hports => ?_
  rw [h.octetAt_exchange hports, exchanged, if_neg (by omega), if_neg (by omega)]

theorem WellFormed.flow_exchange (h : WellFormed packet layout) :
    layout.flow (layout.exchange packet) = (layout.flow packet).mirror := by
  obtain ⟨-, hports⟩ := h.inside
  have hdst : layout.family.destination = layout.family.source + 4 * layout.family.words := rfl
  have hbefore {k : Nat} (hk : k < layout.family.destination + 4 * layout.family.words) (i : Nat)
      (hi : layout.ports = some i) : k < i ∨ i + 4 ≤ k := by
    have hle := (hports i hi).1
    omega
  have hsource : addressAt (layout.exchange packet) layout.family layout.family.source =
      addressAt packet layout.family layout.family.destination := by
    refine addressAt_congr fun k hk => ?_
    rw [h.octetAt_exchange (hbefore (by omega)), exchanged, if_pos (by omega)]
    exact congrArg _ (by omega)
  have hdestination : addressAt (layout.exchange packet) layout.family layout.family.destination =
      addressAt packet layout.family layout.family.source := by
    refine addressAt_congr fun k hk => ?_
    rw [h.octetAt_exchange (hbefore (by omega)), exchanged, if_neg (by omega),
      if_pos (by omega)]
    exact congrArg _ (by omega)
  rw [Layout.flow, PacketFlow.mirror, hsource, hdestination]
  refine congrArg _ ?_
  rw [Layout.flow, Option.map_map]
  refine Option.map_congr fun i hi => ?_
  have hfirst : halfAt (layout.exchange packet) i = halfAt packet (i + 2) := by
    refine halfAt_congr fun k hk => ?_
    rw [h.octetAt_exchange_ports hi (by omega), exchanged, if_pos (by omega)]
    exact congrArg _ (by omega)
  have hsecond : halfAt (layout.exchange packet) (i + 2) = halfAt packet i := by
    refine halfAt_congr fun k hk => ?_
    rw [h.octetAt_exchange_ports hi (by omega), exchanged, if_neg (by omega),
      if_pos (by omega)]
    exact congrArg _ (by omega)
  rw [hfirst, hsecond]
  rfl

end Exchange

end Quicup.Open5gs
