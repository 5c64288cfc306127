import Quicup.Ueransim.Gtp.Proto

/-!
# What the decoder consumes

For every header type the number of content octets the decoder consumes is a
function of the length octet and of the first two content octets. A chain of
headers that carry exactly these octets is followed to its end, and every chain
the decoder gets through is one of these.
-/

namespace Quicup.Ueransim

/-! ## Content sizes -/

/-- Octets of the container fields announced by the first two octets. -/
def containerFields (a b : UInt8) : Nat :=
  if bitRange8 4 7 a = 0 then
    2 + ((if bitAt 7 b then 1 else 0) + ((if bitAt 3 a then 8 else 0) +
      (if bitAt 2 a then 3 else 0)))
  else
    2 + ((if bitAt 3 a then 24 else 0) + ((if bitAt 2 a then 4 else 0) +
      ((if bitAt 1 a then 4 else 0) + (if bitAt 0 a then 3 else 0))))

/-- Octets the decoder consumes of a PDU session container. -/
def containerSize (content : List UInt8) : Nat :=
  let a := content.getD 0 0
  let b := content.getD 1 0
  if bitRange8 4 7 a ≤ 1 then containerFields a b + paddingLength (containerFields a b) else 1

/-- Octets the decoder consumes between the length octet and the next type. -/
def contentSize (type len : Nat) (content : List UInt8) : Nat :=
  match type with
  | 0b01000000 => if len = 1 then 2 else 0
  | 0b10000010 => if len = 2 then 3 else 0
  | 0b10000101 => containerSize content
  | 0b11000000 => if len = 1 then 2 else 0
  | _ => 0

/-- The cases of the type switch that are not the default. -/
def acceptedTypes : List Nat :=
  [0b01000000, 0b10000010, 0b10000100, 0b10000101, 0b11000000, 0b10000001, 0b10000011]

private theorem containerFields_ge (a b : UInt8) : 2 ≤ containerFields a b := by
  unfold containerFields
  split <;> omega

private theorem containerSize_le (content : List UInt8) : containerSize content ≤ 40 := by
  have hf : containerFields (content.getD 0 0) (content.getD 1 0) ≤ 37 := by
    unfold containerFields
    split <;> split_ifs <;> omega
  have hp : ∀ n, paddingLength n ≤ 3 := fun n => by
    unfold paddingLength
    split_ifs <;> omega
  have hp := hp (containerFields (content.getD 0 0) (content.getD 1 0))
  simp only [containerSize]
  split_ifs <;> omega

private theorem containerSize_congr {c d : List UInt8} (h0 : c.getD 0 0 = d.getD 0 0)
    (h1 : bitRange8 4 7 (d.getD 0 0) ≤ 1 → c.getD 1 0 = d.getD 1 0) :
    containerSize c = containerSize d := by
  by_cases h : bitRange8 4 7 (d.getD 0 0) ≤ 1
  · simp only [containerSize, h0, h1 h]
  · simp only [containerSize, h0, if_neg h]

/-- The octets that decide the size are among those consumed. -/
private theorem containerSize_take (content : List UInt8) :
    containerSize (content.take (containerSize content)) = containerSize content := by
  have hget : ∀ n k : Nat, k < n → (content.take n).getD k 0 = content.getD k 0 := fun n k hk => by
    rw [List.getD_eq_getElem?_getD, List.getElem?_take_of_lt hk, ← List.getD_eq_getElem?_getD]
  have hfields := containerFields_ge (content.getD 0 0) (content.getD 1 0)
  refine containerSize_congr (hget _ 0 ?_) fun h => hget _ 1 ?_
  · simp only [containerSize]
    split <;> omega
  · simp only [containerSize, if_pos h]
    omega

theorem contentSize_le (type len : Nat) (content : List UInt8) :
    contentSize type len content ≤ 40 := by
  unfold contentSize
  split
  case h_3 => exact containerSize_le content
  case h_5 => omega
  all_goals split_ifs <;> omega

theorem contentSize_take (type len : Nat) (content : List UInt8) :
    contentSize type len (content.take (contentSize type len content)) =
      contentSize type len content := by
  unfold contentSize
  split
  case h_3 => exact containerSize_take content
  all_goals rfl

/-! ## The readers of the headers -/

section Readers

variable {i len n type : Nat} {α : Type} {content : List UInt8} {p : Read α} {a b : UInt8}

private theorem readWhen_takes (present : Bool) (h : Takes p i n) :
    Takes (readWhen present p) i (if present then n else 0) := by
  cases present with
  | false => exact Takes.pure none
  | true => exact h.bind fun _ => Takes.pure _

private theorem readPadding_takes (start : Nat) :
    Takes (readPadding start) i (paddingLength (i - start)) := by
  have hpad : Takes (if (i - start - 2) % 4 ≠ 0 then do
      let _ ← readOctetString (4 - (i - start - 2) % 4 : Nat)
      return ()
    else return ()) i (paddingLength (i - start)) := by
    unfold paddingLength
    split
    · exact (readOctetString_takes _).bind fun _ => Takes.pure _
    · exact Takes.pure _
  intro c hc
  obtain ⟨a, ha⟩ := hpad c hc
  exact ⟨a, currentIndex_reads.bind_nil ha⟩

private theorem read3I_takes_int : Takes (do let v ← read3I; return (v : Int)) i 3 :=
  read3I_takes.bind fun _ => Takes.pure _

private theorem dl_reads_of_size (tail : List UInt8) (ha : bitRange8 4 7 a = 0)
    (h : 2 + tail.length = containerFields a b + paddingLength (containerFields a b)) :
    ∃ info, Reads (DlPduSessionInformation.decode i a) (i + 1) (b :: tail) info := by
  rw [containerFields, if_pos ha] at h
  unfold DlPduSessionInformation.decode
  refine Takes.reads_cons (Takes.congr ?_
    (Takes.bind (readWhen_takes _ (n := 1) (readOctet_takes.bind fun _ => Takes.pure _)) fun ppi =>
      Takes.bind (readWhen_takes _ read8L_takes) fun ts =>
      Takes.bind (readWhen_takes _ read3I_takes_int) fun seq =>
      Takes.bind (readPadding_takes i) fun _ => Takes.pure _))
  rw [show ∀ x y z : Nat, i + 1 + 1 + x + y + z - i = 2 + (x + (y + z)) by omega]
  omega

private theorem ul_reads_of_size (tail : List UInt8) (ha : bitRange8 4 7 a ≠ 0)
    (h : 2 + tail.length = containerFields a b + paddingLength (containerFields a b)) :
    ∃ info, Reads (UlPduSessionInformation.decode i a) (i + 1) (b :: tail) info := by
  have hts : (if bitAt 3 a then 24 else 0 : Nat) = (if bitAt 3 a then 8 else 0) +
      ((if bitAt 3 a then 8 else 0) + (if bitAt 3 a then 8 else 0)) := by
    cases bitAt 3 a <;> rfl
  rw [containerFields, if_neg ha, hts] at h
  unfold UlPduSessionInformation.decode
  refine Takes.reads_cons (Takes.congr ?_
    (Takes.bind (readWhen_takes _ read8L_takes) fun repeated =>
      Takes.bind (readWhen_takes _ read8L_takes) fun received =>
      Takes.bind (readWhen_takes _ read8L_takes) fun sending =>
      Takes.bind (readWhen_takes _ read4UI_takes) fun dlDelay =>
      Takes.bind (readWhen_takes _ read4UI_takes) fun ulDelay =>
      Takes.bind (readWhen_takes _ read3I_takes_int) fun seq =>
      Takes.bind (readPadding_takes i) fun _ => Takes.pure _))
  rw [show ∀ u v w x y z : Nat, i + 1 + 1 + u + v + w + x + y + z - i =
    2 + (u + (v + w) + (x + (y + z))) by omega]
  omega

/-- A container of an octet of another PDU type, or of the octets its flags announce. -/
private theorem container_reads_of_size (h : content.length = containerSize content) :
    ∃ info, Reads PduSessionInformation.decode i content info := by
  cases content with
  | nil =>
    have := containerFields_ge 0 0
    have hsize : containerSize [] = containerFields 0 0 + paddingLength (containerFields 0 0) := rfl
    rw [hsize, List.length_nil] at h
    omega
  | cons a content =>
    simp only [containerSize, List.getD_cons_zero, List.getD_cons_succ, List.length_cons] at h
    by_cases hn : bitRange8 4 7 a ≤ 1
    · rw [if_pos hn] at h
      cases content with
      | nil =>
        have := containerFields_ge a 0
        simp only [List.length_nil, List.getD_nil] at h
        omega
      | cons b tail =>
        simp only [List.length_cons, List.getD_cons_zero] at h
        by_cases h0 : bitRange8 4 7 a = 0
        · obtain ⟨dl, hdl⟩ := dl_reads_of_size (i := i) (b := b) tail h0 (by omega)
          refine ⟨some (.dl dl), currentIndex_reads.bind_nil ((readOctet_reads a).bind ?_)⟩
          simp only [h0, if_true]
          exact hdl.bind_end (Reads.pure _)
        · obtain ⟨ul, hul⟩ := ul_reads_of_size (i := i) (b := b) tail h0 (by omega)
          have h1 : bitRange8 4 7 a = 1 := by omega
          refine ⟨some (.ul ul), currentIndex_reads.bind_nil ((readOctet_reads a).bind ?_)⟩
          simp only [h1, Nat.one_ne_zero, if_true, if_false]
          exact hul.bind_end (Reads.pure _)
    · rw [if_neg hn] at h
      obtain rfl : content = [] := List.length_eq_zero_iff.mp (by omega)
      have h0 : bitRange8 4 7 a ≠ 0 := by omega
      have h1 : bitRange8 4 7 a ≠ 1 := by omega
      refine ⟨none, currentIndex_reads.bind_nil ((readOctet_reads a).bind_end ?_)⟩
      simp only [h0, h1, if_false]
      exact Reads.pure _

/-- A header that is dropped unless its length octet is `n`, and then takes `k` octets. -/
private theorem reads_of_length {p : Read (Option GtpExtHeader)} {k : Nat} (hp : Takes p i k)
    (h : content.length = if len = n then k else 0) :
    ∃ header, Reads (if len ≠ n then pure none else p) i content header := by
  by_cases hn : len = n
  · rw [if_pos hn] at h
    rw [if_neg (not_not_intro hn)]
    exact hp content h
  · rw [if_neg hn] at h
    rw [if_pos hn]
    exact Takes.pure none content h

/-- A header of an accepted type with as many octets as the decoder consumes. -/
theorem decodeExtHeader_reads_of_size (htype : type ∈ acceptedTypes) (content : List UInt8)
    (h : content.length = contentSize type len content) :
    ∃ header, Reads (decodeExtHeader type len) i content (some header) := by
  have hmap : ∀ p : Read (Option GtpExtHeader), (∃ header, Reads p i content header) →
      ∃ header, Reads (some <$> p) i content (some header) :=
    fun p ⟨header, hp⟩ => ⟨header, hp.map some⟩
  have hnone : content.length = 0 → ∃ header : Option GtpExtHeader,
      Reads (pure (some none)) i content (some header) := fun h0 => by
    obtain rfl := List.length_eq_zero_iff.mp h0
    exact ⟨none, Reads.pure _⟩
  simp only [acceptedTypes, List.mem_cons, List.not_mem_nil, or_false] at htype
  rcases htype with rfl | rfl | rfl | rfl | rfl | rfl | rfl
  · exact hmap _ (reads_of_length (read2US_takes.bind fun _ => Takes.pure _) h)
  · exact hmap _ (reads_of_length (readI_takes.bind fun _ => readI_takes.bind fun _ =>
      readI_takes.bind fun _ => Takes.pure _) h)
  · exact hmap _ (Takes.pure none content h)
  · obtain ⟨info, hinfo⟩ := container_reads_of_size (i := i) h
    exact hmap _ ⟨_, hinfo.bind_end (Reads.pure _)⟩
  · exact hmap _ (reads_of_length (read2US_takes.bind fun _ => Takes.pure _) h)
  · exact hnone h
  · exact hnone h

private theorem readWhen_regular (present : Bool) (h : Regular p) :
    Regular (readWhen present p) := by
  cases present with
  | false => exact Regular.pure none
  | true => exact h.bind fun _ => Regular.pure _

private theorem readPadding_regular (start : Nat) : Regular (readPadding start) := by
  refine currentIndex_regular.bind fun index => ?_
  by_cases h : (index - start - 2) % 4 ≠ 0
  · simp only [if_pos h]
    exact (readOctetString_regular _).bind fun _ => Regular.pure _
  · simp only [if_neg h]
    exact Regular.pure _

private theorem read3I_regular_int : Regular (do let v ← read3I; return (v : Int)) :=
  read3I_regular.bind fun _ => Regular.pure _

private theorem container_regular : Regular PduSessionInformation.decode := by
  refine currentIndex_regular.bind fun start => readOctet_regular.bind fun a => ?_
  refine Regular.ite (Regular.bind ?_ fun _ => Regular.pure _)
    (Regular.ite (Regular.bind ?_ fun _ => Regular.pure _) (Regular.pure _))
  · exact readOctet_regular.bind fun b =>
      (readWhen_regular _ (readOctet_regular.bind fun _ => Regular.pure _)).bind fun ppi =>
      (readWhen_regular _ read8L_regular).bind fun ts =>
      (readWhen_regular _ read3I_regular_int).bind fun seq =>
      (readPadding_regular start).bind fun _ => Regular.pure _
  · exact readOctet_regular.bind fun b =>
      (readWhen_regular _ read8L_regular).bind fun repeated =>
      (readWhen_regular _ read8L_regular).bind fun received =>
      (readWhen_regular _ read8L_regular).bind fun sending =>
      (readWhen_regular _ read4UI_regular).bind fun dlDelay =>
      (readWhen_regular _ read4UI_regular).bind fun ulDelay =>
      (readWhen_regular _ read3I_regular_int).bind fun seq =>
      (readPadding_regular start).bind fun _ => Regular.pure _

theorem decodeExtHeader_regular (type len : Nat) : Regular (decodeExtHeader type len) := by
  unfold decodeExtHeader
  split
  · exact Regular.map some (Regular.ite (Regular.pure _) (read2US_regular.bind fun _ => Regular.pure _))
  · exact Regular.map some (Regular.ite (Regular.pure _) (readI_regular.bind fun _ =>
      readI_regular.bind fun _ => readI_regular.bind fun _ => Regular.pure _))
  · exact Regular.map some (Regular.pure _)
  · exact Regular.map some (container_regular.bind fun _ => Regular.pure _)
  · exact Regular.map some (Regular.ite (Regular.pure _) (read2US_regular.bind fun _ => Regular.pure _))
  · exact Regular.pure _
  · exact Regular.pure _
  · exact Regular.pure _

/-- Whatever the switch consumes without refusing it has an accepted type and the
size its first octets determine. -/
theorem contentSize_of_reads {header : Option GtpExtHeader}
    (h : Reads (decodeExtHeader type len) i content (some header)) :
    type ∈ acceptedTypes ∧ content.length = contentSize type len content := by
  have htype : type ∈ acceptedTypes := by
    by_contra hn
    unfold decodeExtHeader at h
    split at h
    case h_8 =>
      have hr := (Prod.mk.inj (Except.ok.inj (h []))).1
      cases hr
    all_goals exact hn (by decide)
  refine ⟨htype, ?_⟩
  -- behind the content there is room for any size, so both consumptions can be compared
  obtain ⟨s, hdef⟩ : ∃ s, content ++ List.replicate 40 0 = s := ⟨_, rfl⟩
  have hs : contentSize type len s ≤ s.length := by
    have := contentSize_le type len s
    rw [← hdef, List.length_append, List.length_replicate] at *
    omega
  obtain ⟨header', h'⟩ := decodeExtHeader_reads_of_size (i := i) htype
    (s.take (contentSize type len s)) (by
      rw [contentSize_take, List.length_take, Nat.min_eq_left hs])
  have hc : content = s.take (contentSize type len s) :=
    h.prefix_eq h' (s := List.replicate 40 0) (t := s.drop (contentSize type len s))
      (by rw [List.take_append_drop, hdef])
  rw [hc, contentSize_take, List.length_take, Nat.min_eq_left hs]

end Readers

/-! ## Chains -/

/-- One extension header: the type announced before it, its length octet and the
octets up to the next type. -/
structure WireHeader where
  type : UInt8
  len : UInt8
  content : List UInt8
  deriving DecidableEq

/-- The content is what the decoder consumes for this type and this length octet. -/
def WireHeader.Consumed (h : WireHeader) : Prop :=
  h.type.toNat ∈ acceptedTypes ∧ h.content.length = contentSize h.type.toNat h.len.toNat h.content

/-- The type octet in front of a chain, zero in front of the empty one. -/
def chainType : List WireHeader → UInt8
  | [] => 0
  | h :: _ => h.type

/-- The octets of a chain behind its first type, the closing zero type included. -/
def chainOctets : List WireHeader → List UInt8
  | [] => []
  | h :: chain => h.len :: (h.content ++ chainType chain :: chainOctets chain)

/-- Position and type of every header of a chain that starts at `i`. -/
def chainVisited : Nat → List WireHeader → List (Nat × Nat)
  | _, [] => []
  | i, h :: chain => (i, h.type.toNat) :: chainVisited (i + 1 + h.content.length + 1) chain

section Chains

variable {i : Nat}

private theorem accepted_pos {n : Nat} (h : n ∈ acceptedTypes) : ∃ k, n = k + 1 := by
  refine Nat.exists_eq_succ_of_ne_zero ?_
  rintro rfl
  exact absurd h (by decide)

/-- A chain of consumed headers is followed to its end. -/
theorem decodeExtHeaders_reads {chain : List WireHeader} (h : ∀ x ∈ chain, x.Consumed) :
    ∃ headers, ∀ fuel, (chainOctets chain).length ≤ fuel →
      Reads (decodeExtHeaders fuel (chainType chain).toNat) i (chainOctets chain)
        (some ⟨headers, chainVisited i chain⟩) := by
  induction chain generalizing i with
  | nil =>
    refine ⟨[], fun fuel _ => ?_⟩
    cases fuel <;> exact Reads.pure _
  | cons x chain ih =>
    obtain ⟨htype, hsize⟩ := h x List.mem_cons_self
    obtain ⟨header, hheader⟩ := decodeExtHeader_reads_of_size (i := i + 1) htype x.content hsize
    obtain ⟨headers, hreads⟩ := ih (i := i + 1 + x.content.length + 1)
      fun y hy => h y (List.mem_cons_of_mem _ hy)
    obtain ⟨k, hk⟩ := accepted_pos htype
    refine ⟨header.toList ++ headers, fun fuel hfuel => ?_⟩
    simp only [chainOctets, List.length_cons, List.length_append] at hfuel
    obtain ⟨fuel, rfl⟩ : ∃ n, fuel = n + 1 := ⟨fuel - 1, by omega⟩
    rw [chainType, chainOctets, chainVisited, hk, decodeExtHeaders]
    refine currentIndex_reads.bind_nil (Reads.bind (c := [x.len]) (readI_reads x.len) ?_)
    rw [← hk]
    refine hheader.bind (Reads.bind (c := [chainType chain]) (readI_reads _) ?_)
    exact (hreads fuel (by omega)).bind_end (Reads.pure _)

/-- Every chain the loop gets through consists of consumed headers. -/
theorem decodeExtHeaders_ok {fuel : Nat} {type : UInt8} {s : List UInt8} {r : ExtHeaders}
    {t : Cursor} (h : decodeExtHeaders fuel type.toNat ⟨i, s⟩ = .ok (some r, t)) :
    ∃ chain, (∀ x ∈ chain, WireHeader.Consumed x) ∧ chainType chain = type ∧
      s = chainOctets chain ++ t.rest ∧ t.index = i + (chainOctets chain).length ∧
      r.visited = chainVisited i chain := by
  induction fuel generalizing i type s r with
  | zero =>
    cases hk : type.toNat with
    | zero =>
      rw [hk] at h
      obtain ⟨hr, rfl⟩ := Prod.mk.inj (Except.ok.inj h)
      obtain rfl := Option.some.inj hr
      exact ⟨[], by simp, (UInt8.toNat_inj.mp hk).symm, rfl, rfl, rfl⟩
    | succ k =>
      rw [hk] at h
      cases h
  | succ fuel ih =>
    cases hk : type.toNat with
    | zero =>
      rw [hk] at h
      obtain ⟨hr, rfl⟩ := Prod.mk.inj (Except.ok.inj h)
      obtain rfl := Option.some.inj hr
      exact ⟨[], by simp, (UInt8.toNat_inj.mp hk).symm, rfl, rfl, rfl⟩
    | succ k =>
      rw [hk, decodeExtHeaders] at h
      obtain ⟨position, u, hu, h⟩ := Read.bind_ok h
      obtain ⟨rfl, rfl⟩ := Prod.mk.inj (Except.ok.inj hu)
      obtain ⟨len, v, hv, h⟩ := Read.bind_ok h
      obtain ⟨len, rfl, rfl, hvi⟩ := readI_ok hv
      obtain ⟨header, w, hw, h⟩ := Read.bind_ok h
      cases header with
      | none => cases (Prod.mk.inj (Except.ok.inj h)).1
      | some header =>
        obtain ⟨content, hcontent, hwi, hc⟩ := (decodeExtHeader_regular _ _).owed _ _ _ _ hw
        obtain ⟨next, x, hx, h⟩ := Read.bind_ok h
        obtain ⟨next, rfl, hxr, hxi⟩ := readI_ok hx
        obtain ⟨tail, y, hy, h⟩ := Read.bind_ok h
        cases tail with
        | none => cases (Prod.mk.inj (Except.ok.inj h)).1
        | some tail =>
          obtain ⟨hr, rfl⟩ := Prod.mk.inj (Except.ok.inj h)
          obtain rfl := Option.some.inj hr
          obtain ⟨chain, hchain, rfl, hs, hi, hvisited⟩ := ih hy
          obtain ⟨htype, hsize⟩ := contentSize_of_reads hc
          rw [← hk] at htype hsize
          refine ⟨⟨type, len, content⟩ :: chain, ?_, rfl, ?_, ?_, ?_⟩
          · exact List.forall_mem_cons.mpr ⟨⟨htype, hsize⟩, hchain⟩
          · simp only [chainOctets, hcontent, hxr, hs, List.cons_append, List.append_assoc]
          · simp only [chainOctets, List.length_cons, List.length_append]
            omega
          · have hxi' : x.index = i + 1 + content.length + 1 := by omega
            simp only [chainVisited, hvisited, hk, hxi']

end Chains

/-! ## Datagrams -/

/-- The parts of a datagram, with the octets behind the announced length. -/
structure Datagram where
  flags : UInt8
  msgType : UInt8
  teid : UInt32
  seq : UInt16
  nPduNum : UInt8
  /-- The next type octet where no chain is announced. -/
  spare : UInt8
  chain : List WireHeader
  payload : List UInt8
  trailing : List UInt8
  deriving DecidableEq

namespace Datagram

/-- The optional word and the chain, present when any of the three flags is. -/
def optional (d : Datagram) : List UInt8 :=
  if bitAt 1 d.flags || bitAt 0 d.flags || bitAt 2 d.flags then
    octetsBE 2 d.seq.toNat ++ ([d.nPduNum] ++
      ([if bitAt 2 d.flags then chainType d.chain else d.spare] ++ chainOctets d.chain))
  else []

theorem optional_of_any {d : Datagram}
    (h : (bitAt 1 d.flags || bitAt 0 d.flags || bitAt 2 d.flags) = true) :
    d.optional = octetsBE 2 d.seq.toNat ++ ([d.nPduNum] ++
      ([if bitAt 2 d.flags then chainType d.chain else d.spare] ++ chainOctets d.chain)) :=
  if_pos h

/-- The octets of a datagram up to the announced length. -/
def announced (d : Datagram) : List UInt8 :=
  [d.flags] ++ ([d.msgType] ++ (octetsBE 2 (d.optional.length + d.payload.length) ++
    (octetsBE 4 d.teid.toNat ++ (d.optional ++ d.payload))))

def octets (d : Datagram) : List UInt8 := d.announced ++ d.trailing

/-- A GTPv1-U datagram whose length field covers the optional part and the payload. -/
structure Framed (d : Datagram) : Prop where
  version : bitRange8 5 7 d.flags = 1
  protocolType : bitRange8 4 4 d.flags = 1
  chain : bitAt 2 d.flags = false → d.chain = []
  length : d.optional.length + d.payload.length < 2 ^ 16

/-- The message of a datagram with the extension headers kept from its chain. -/
def message (d : Datagram) (extHeaders : List GtpExtHeader) : GtpMessage where
  msgType := d.msgType
  teid := d.teid
  seq := if bitAt 1 d.flags then some d.seq else none
  nPduNum := if bitAt 0 d.flags then some d.nPduNum else none
  extHeaders := extHeaders
  payload := d.payload

end Datagram

section Datagrams

variable {i : Nat} {d : Datagram} {m : GtpMessage} {flags : UInt8} {s : List UInt8}
  {visited : List (Nat × Nat)} {t : Cursor}

private theorem decodeOptional_reads_of_consumed (hchain : bitAt 2 d.flags = false → d.chain = [])
    (h : ∀ x ∈ d.chain, x.Consumed) :
    ∃ headers, Reads (decodeOptional { msgType := d.msgType, teid := d.teid } d.flags) i d.optional
      (some ({ d.message headers with payload := [] }, chainVisited (i + 4) d.chain)) := by
  have hseq : UInt16.ofNat (d.seq.toNat % 256 ^ 2) = d.seq := by
    have hlt := d.seq.toNat_lt
    rw [Nat.mod_eq_of_lt (by omega), UInt16.ofNat_toNat]
  obtain ⟨headers, hreads⟩ := decodeExtHeaders_reads (i := i + 4) h
  refine ⟨if bitAt 2 d.flags then headers else [], ?_⟩
  unfold decodeOptional Datagram.optional Datagram.message
  by_cases hany : bitAt 1 d.flags || bitAt 0 d.flags || bitAt 2 d.flags
  · simp only [hany, if_true]
    refine (readBE_reads 2 _).bind ((readOctet_reads _).bind ((readI_reads _).bind ?_))
    simp only [hseq, length_octetsBE, List.length_singleton]
    cases h2 : bitAt 2 d.flags with
    | false =>
      rw [hchain h2]
      exact Reads.pure _
    | true =>
      refine Reads.bind_viewSize fun fuel hfuel => ?_
      exact (hreads fuel (by omega)).bind_end (Reads.pure _)
  · rw [Bool.not_eq_true] at hany
    obtain ⟨⟨h1, h0⟩, h2⟩ : (bitAt 1 d.flags = false ∧ bitAt 0 d.flags = false) ∧
        bitAt 2 d.flags = false := by simpa using hany
    simp only [h0, h1, h2, Bool.or_self, Bool.false_eq_true, if_false, hchain h2]
    exact Reads.pure _

/-- A framed datagram whose chain consists of consumed headers is decoded to its parts. -/
theorem Datagram.Framed.reads (hd : d.Framed) (h : ∀ x ∈ d.chain, x.Consumed) :
    ∃ headers, Reads decodeGtpMessageVisited i d.announced
      (some (d.message headers, chainVisited (i + 12) d.chain)) := by
  obtain ⟨headers, hopt⟩ := decodeOptional_reads_of_consumed (i := i + 1 + 1 + 2 + 4) hd.chain h
  have hlen : (d.optional.length + d.payload.length) % 256 ^ 2 =
      d.optional.length + d.payload.length := Nat.mod_eq_of_lt hd.length
  have hteid : octetsBE 4 d.teid.toNat = octetsOfInt 4 d.teid.toNat :=
    (octetsOfInt_natCast d.teid.toNat_lt).symm
  refine ⟨headers, ?_⟩
  unfold decodeGtpMessageVisited Datagram.announced
  refine currentIndex_reads.bind_nil ((readOctet_reads _).bind ?_)
  simp only [hd.version, hd.protocolType, ne_eq, not_true_eq_false, if_false]
  rw [hteid]
  refine (readOctet_reads _).bind ((readBE_reads 2 _).bind ((read4UI_reads _).bind ?_))
  rw [hlen]
  refine Reads.bind (c := d.optional) hopt (currentIndex_reads.bind_nil ?_)
  simp only [length_octetsBE, length_octetsOfInt, List.length_singleton]
  have hrem : (((d.optional.length + d.payload.length : Nat) : Int) -
      (((i + 1 + 1 + 2 + 4 + d.optional.length - i : Nat) : Int) - 8)) = d.payload.length := by
    omega
  rw [hrem]
  exact (readOctetString_reads d.payload).bind_end (Reads.pure _)

private theorem exists_datagram {seq : Nat} (nPduNum next : UInt8) (chain : List WireHeader)
    (hany : (bitAt 1 flags || bitAt 0 flags || bitAt 2 flags) = true) (hseq : seq < 256 ^ 2)
    (hnext : bitAt 2 flags = true → chainType chain = next) :
    ∃ d : Datagram, d.flags = flags ∧ d.chain = chain ∧
      d.optional = octetsBE 2 seq ++ nPduNum :: next :: chainOctets chain := by
  refine ⟨⟨flags, 0, 0, UInt16.ofNat seq, nPduNum, next, chain, [], []⟩, rfl, rfl, ?_⟩
  rw [Datagram.optional_of_any (by exact hany)]
  have hseq' : (UInt16.ofNat seq).toNat = seq := by
    rw [UInt16.toNat_ofNat', Nat.mod_eq_of_lt (by omega)]
  have htype : (if bitAt 2 flags then chainType chain else next) = next := by
    split
    case isTrue h => exact hnext h
    case isFalse => rfl
  simp only [hseq', htype, List.singleton_append]

/-- The optional part the decoder gets through. -/
private theorem decodeOptional_ok {message : GtpMessage}
    (h : decodeOptional message flags ⟨i, s⟩ = .ok (some (m, visited), t)) :
    ∃ d : Datagram, d.flags = flags ∧ (∀ x ∈ d.chain, x.Consumed) ∧
      (bitAt 2 flags = false → d.chain = []) ∧ s = d.optional ++ t.rest ∧
      t.index = i + d.optional.length ∧ m.msgType = message.msgType ∧ m.teid = message.teid ∧
      visited = chainVisited (i + 4) d.chain := by
  unfold decodeOptional at h
  by_cases hany : bitAt 1 flags || bitAt 0 flags || bitAt 2 flags
  · rw [if_pos hany] at h
    obtain ⟨seq, u, hu, h⟩ := Read.bind_ok h
    obtain ⟨hseq, hs, hi⟩ := readBE_ok hu
    obtain ⟨nPduNum, v, hv, h⟩ := Read.bind_ok h
    obtain ⟨hvs, hvi⟩ := readOctet_ok hv
    obtain ⟨next, w, hw, h⟩ := Read.bind_ok h
    obtain ⟨next, rfl, hws, hwi⟩ := readI_ok hw
    rw [hvs, hws] at hs
    by_cases h2 : bitAt 2 flags = true
    · simp only [if_pos h2] at h
      obtain ⟨fuel, x, hx, h⟩ := Read.bind_ok h
      obtain ⟨-, rfl⟩ := Prod.mk.inj (Except.ok.inj hx)
      obtain ⟨r, y, hy, h⟩ := Read.bind_ok h
      cases r with
      | none => cases (Prod.mk.inj (Except.ok.inj h)).1
      | some r =>
        obtain ⟨hm, rfl⟩ := Prod.mk.inj (Except.ok.inj h)
        obtain ⟨rfl, rfl⟩ := Prod.mk.inj (Option.some.inj hm)
        obtain ⟨chain, hchain, htype, hys, hyi, hvisited⟩ := decodeExtHeaders_ok hy
        obtain ⟨d, hflags, rfl, hopt⟩ :=
          exists_datagram nPduNum next chain hany hseq fun _ => htype
        refine ⟨d, hflags, hchain, fun hn => absurd h2 (by rw [hn]; decide), ?_, ?_, rfl, rfl, ?_⟩
        · rw [hs, hys, hopt]
          simp
        · simp only [hopt, List.length_append, List.length_cons, length_octetsBE]
          omega
        · rw [hvisited, show w.index = i + 4 by omega]
    · simp only [if_neg h2] at h
      obtain ⟨hm, rfl⟩ := Prod.mk.inj (Except.ok.inj h)
      obtain ⟨rfl, rfl⟩ := Prod.mk.inj (Option.some.inj hm)
      obtain ⟨d, hflags, hchain, hopt⟩ :=
        exists_datagram nPduNum next [] hany hseq
          fun hn => absurd hn h2
      refine ⟨d, hflags, by simp [hchain], fun _ => hchain, ?_, ?_, rfl, rfl,
        by rw [hchain, chainVisited]⟩
      · rw [hs, hopt]
        simp [chainOctets]
      · simp only [hopt, List.length_append, List.length_cons, length_octetsBE, chainOctets,
          List.length_nil]
        omega
  · rw [if_neg hany] at h
    obtain ⟨hm, rfl⟩ := Prod.mk.inj (Except.ok.inj h)
    obtain ⟨rfl, rfl⟩ := Prod.mk.inj (Option.some.inj hm)
    have hopt : (⟨flags, 0, 0, 0, 0, 0, [], [], []⟩ : Datagram).optional = [] := if_neg hany
    refine ⟨⟨flags, 0, 0, 0, 0, 0, [], [], []⟩, rfl, by simp, fun _ => rfl, ?_, ?_, rfl, rfl, rfl⟩
    · rw [hopt, List.nil_append]
    · rw [hopt, List.length_nil, Nat.add_zero]

/-- Every datagram the decoder returns a message for is a framed one whose chain
consists of consumed headers. -/
theorem decodeGtpMessageVisited_ok
    (h : decodeGtpMessageVisited ⟨0, s⟩ = .ok (some (m, visited), t)) :
    ∃ d : Datagram, d.Framed ∧ (∀ x ∈ d.chain, x.Consumed) ∧ s = d.octets ∧
      m.msgType = d.msgType ∧ m.teid = d.teid ∧ m.payload = d.payload ∧
      visited = chainVisited 12 d.chain := by
  obtain ⟨first, c0, h0, h⟩ := Read.bind_ok h
  obtain ⟨rfl, rfl⟩ := Prod.mk.inj (Except.ok.inj h0)
  obtain ⟨flags, c1, h1, h⟩ := Read.bind_ok h
  obtain ⟨hs1, hi1⟩ := readOctet_ok h1
  by_cases hv : bitRange8 5 7 flags ≠ 1
  · rw [if_pos hv] at h
    cases (Prod.mk.inj (Except.ok.inj h)).1
  rw [if_neg hv] at h
  by_cases hp : bitRange8 4 4 flags ≠ 1
  · rw [if_pos hp] at h
    cases (Prod.mk.inj (Except.ok.inj h)).1
  rw [if_neg hp] at h
  obtain ⟨msgType, c2, h2, h⟩ := Read.bind_ok h
  obtain ⟨hs2, hi2⟩ := readOctet_ok h2
  obtain ⟨gtpLen, c3, h3, h⟩ := Read.bind_ok h
  obtain ⟨hlt, hs3, hi3⟩ := readBE_ok h3
  obtain ⟨teid, c4, h4, h⟩ := Read.bind_ok h
  obtain ⟨hs4, hi4⟩ := read4UI_ok h4
  obtain ⟨r, c5, h5, h⟩ := Read.bind_ok h
  cases r with
  | none => cases (Prod.mk.inj (Except.ok.inj h)).1
  | some r =>
    obtain ⟨index, c6, h6, h⟩ := Read.bind_ok h
    obtain ⟨rfl, rfl⟩ := Prod.mk.inj (Except.ok.inj h6)
    obtain ⟨payload, c7, h7, h⟩ := Read.bind_ok h
    obtain ⟨hrem, hpl, hs7, hi7⟩ := readOctetString_ok h7
    obtain ⟨hm, rfl⟩ := Prod.mk.inj (Except.ok.inj h)
    obtain ⟨rfl, rfl⟩ := Prod.mk.inj (Option.some.inj hm)
    obtain ⟨d, hflags, hchain, hempty, hs5, hi5, hmt, hte, hvis⟩ := decodeOptional_ok h5
    have hlen : d.optional.length + payload.length = gtpLen := by
      simp only at hpl
      omega
    refine ⟨{ d with msgType, teid, payload, trailing := c7.rest },
      ⟨by rw [hflags]; exact not_not.mp hv, by rw [hflags]; exact not_not.mp hp,
        by rw [hflags]; exact hempty, ?_⟩, hchain, ?_, hmt, hte, rfl, ?_⟩
    · change d.optional.length + payload.length < 2 ^ 16
      omega
    · change s = [d.flags] ++ ([msgType] ++ (octetsBE 2 (d.optional.length + payload.length) ++
        (octetsBE 4 teid.toNat ++ (d.optional ++ payload)))) ++ c7.rest
      rw [hs1, hs2, hs3, hs4, hs5, hs7, hlen, hflags]
      simp
    · rw [hvis, show c4.index + 4 = 12 by omega]

/-- A framed datagram of consumed headers is decoded, whatever stands behind it. -/
theorem Datagram.Framed.decode (hd : d.Framed) (h : ∀ x ∈ d.chain, x.Consumed) :
    ∃ headers, decode d.octets = .ok (some (d.message headers)) := by
  obtain ⟨headers, hreads⟩ := hd.reads (i := 0) h
  have hm : Reads decodeGtpMessage 0 d.announced (some (d.message headers)) :=
    hreads.bind_end (f := fun (r : Option (GtpMessage × List (Nat × Nat))) =>
      (Pure.pure (r.map Prod.fst) : Read (Option GtpMessage))) (Reads.pure _)
  refine ⟨headers, ?_⟩
  rw [Ueransim.decode, Cursor.start, Datagram.octets, hm.run d.trailing]
  rfl

/-- Only such datagrams are decoded to a message. -/
theorem decode_some {s : OctetString} (h : decode s = .ok (some m)) :
    ∃ (d : Datagram) (headers : List GtpExtHeader), d.Framed ∧ (∀ x ∈ d.chain, x.Consumed) ∧
      s = d.octets ∧ m = d.message headers := by
  cases hv : decodeGtpMessage ⟨0, s⟩ with
  | error f =>
    rw [decode, Cursor.start, hv] at h
    cases h
  | ok r =>
    obtain ⟨m', t⟩ := r
    obtain ⟨r, u, hu, hr⟩ := Read.bind_ok hv
    have hm : m' = some m := by
      rw [decode, Cursor.start, hv] at h
      exact Except.ok.inj h
    cases r with
    | none =>
      have hn := (Prod.mk.inj (Except.ok.inj hr)).1
      rw [hm] at hn
      cases hn
    | some r =>
      obtain ⟨d, hd, hchain, hs, -⟩ := decodeGtpMessageVisited_ok hu
      obtain ⟨headers, hdec⟩ := hd.decode hchain
      rw [hs, hdec] at h
      exact ⟨d, headers, hd, hchain, hs, (Option.some.inj (Except.ok.inj h)).symm⟩

end Datagrams

end Quicup.Ueransim
