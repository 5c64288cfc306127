import Mathlib.Algebra.BigOperators.Ring.List
import Quicup.Core.Fallible
import Quicup.Ueransim.Rlc.Amd

/-!
# PDUs that are read back

AMD and STATUS PDUs come back as they were encoded. So does an UMD PDU but for its SN, which is
read from the octet behind the one that it was written to.
-/

namespace Quicup.Ueransim.Rlc

open BitString BitBuffer Quicup.Fallible

/-! ## Numbers of two octets -/

/-- An octet is shifted in below what was read before it. -/
theorem shiftLeft_or_octet (high : Nat) (low : UInt8) :
    high <<< 8 ||| low.toNat = high * 256 + low.toNat := by
  rw [← Nat.shiftLeft_add_eq_or_of_lt low.toNat_lt, Nat.shiftLeft_eq]

theorem toNat_ofNat_shiftRight (n k : Nat) :
    (UInt8.ofNat (n >>> k)).toNat = n / 2 ^ k % 256 := by
  rw [UInt8.toNat_ofNat', Nat.shiftRight_eq_div_pow]

theorem twoOctets_eq {n : Nat} (h : n < 65536) :
    (UInt8.ofNat (n >>> 8)).toNat <<< 8 ||| (UInt8.ofNat n).toNat = n := by
  rw [shiftLeft_or_octet, toNat_ofNat_shiftRight, UInt8.toNat_ofNat']
  omega

variable {si : ESegmentInfo} {so sn : Nat} {data : OctetString} {isShortSn p : Bool}

/-- The segment offset is read back wherever it stands. -/
theorem decodeUmdSo_eq {index : Nat} {octets : OctetString} (hso : so < 65536)
    (hoctets : octets.drop index =
      (if si.requiresSo then [UInt8.ofNat (so >>> 8), UInt8.ofNat so] else []) ++ data) :
    ∃ stop, decodeUmdSo si octets index = .ok (if si.requiresSo then so else 0, stop) ∧
      octets.drop stop = data := by
  have hat (k : Nat) : octets[index + k]? = (octets.drop index)[k]? := by rw [List.getElem?_drop]
  unfold decodeUmdSo
  by_cases hsi : si.requiresSo
  · rw [if_pos hsi] at hoctets
    have hhigh : octetAt octets index = .ok (UInt8.ofNat (so >>> 8)) := by
      have := hat 0
      rw [hoctets] at this
      simp_all [octetAt]
    have hlow : octetAt octets (index + 1) = .ok (UInt8.ofNat so) := by
      simp [octetAt, hat 1, hoctets]
    refine ⟨index + 2, ?_, ?_⟩
    · rw [if_pos hsi, if_pos hsi, hhigh, hlow]
      exact congrArg (fun n => Except.ok (n, index + 2)) (twoOctets_eq hso)
    · rw [← List.drop_drop, hoctets]
      rfl
  · rw [if_neg hsi, List.nil_append] at hoctets
    exact ⟨index, by rw [if_neg hsi, if_neg hsi], hoctets⟩

/-! ## UMD PDUs -/

def umSnLength (isShortSn : Bool) : Nat := if isShortSn then 6 else 12

/-- The octet behind the SN: of the segment offset, or of the data. -/
def octetBehindSn (si : ESegmentInfo) (so : Nat) (data : OctetString) : Nat :=
  if si.requiresSo then so / 256 else (data.headD 0).toNat

/-- The SN that is read, with the octet behind the SN in the place of its low octet. -/
def snBehind (isShortSn : Bool) (si : ESegmentInfo) (so sn : Nat) (data : OctetString) : Nat :=
  if isShortSn then octetBehindSn si so data % 64
  else sn % 16 * 256 + octetBehindSn si so data

/-- The octets behind the first one. -/
theorem tail_encodeUmd (isShortSn : Bool) (si : ESegmentInfo) (so sn : Nat) (data : OctetString) :
    encodeUmd isShortSn si so sn data = umdOctet0 isShortSn si sn ::
      ((if si ≠ .full ∧ ¬ isShortSn then [UInt8.ofNat (sn &&& 0xff)] else []) ++
        ((if si.requiresSo then [UInt8.ofNat (so >>> 8), UInt8.ofNat so] else []) ++ data)) := by
  unfold encodeUmd
  split_ifs <;> rfl

/-- The octet that the SN is read from stands behind the one that it was written to. -/
theorem exists_octetBehindSn (si : ESegmentInfo) (hso : so < 65536) (hdata : data ≠ []) :
    ∃ x rest, (if si.requiresSo then [UInt8.ofNat (so >>> 8), UInt8.ofNat so] else []) ++ data =
      x :: rest ∧ x.toNat = octetBehindSn si so data := by
  obtain ⟨y, ys, rfl⟩ := List.exists_cons_of_ne_nil hdata
  unfold octetBehindSn
  split_ifs with hsi
  · exact ⟨_, _, rfl, by rw [toNat_ofNat_shiftRight]; omega⟩
  · exact ⟨y, ys, rfl, rfl⟩

theorem decodeUmdSn_encodeUmd (isShortSn : Bool) (sn : Nat) (hsi : si ≠ .full) (hso : so < 65536)
    (hdata : data ≠ []) :
    ∃ index, decodeUmdSn isShortSn (encodeUmd isShortSn si so sn data) =
        .ok (snBehind isShortSn si so sn data, index) ∧
      (encodeUmd isShortSn si so sn data).drop index =
        (if si.requiresSo then [UInt8.ofNat (so >>> 8), UInt8.ofNat so] else []) ++ data := by
  obtain ⟨x, rest, hrest, hx⟩ := exists_octetBehindSn si hso hdata
  rw [tail_encodeUmd, hrest]
  cases isShortSn with
  | true =>
    refine ⟨1, ?_, by simp⟩
    rw [if_neg fun h => h.2 rfl]
    change Except.ok (bitRange8 0 5 x, 1) = _
    rw [bitRange8_eq, snBehind, if_pos rfl, hx, Nat.pow_zero, Nat.div_one]
    rfl
  | false =>
    refine ⟨2, ?_, by simp [hsi]⟩
    rw [if_pos ⟨hsi, Bool.false_ne_true⟩]
    change Except.ok (bitRange8 0 3 (UInt8.ofNat (sn &&& 0xff)) <<< 8 ||| bitRange8 0 7 x, 2) = _
    have hlow : bitRange8 0 7 x = x.toNat := by
      have := x.toNat_lt
      rw [bitRange8_eq]
      omega
    have hhigh : bitRange8 0 3 (UInt8.ofNat (sn &&& 0xff)) = sn % 16 := by
      rw [bitRange8_eq, UInt8.toNat_ofNat', Nat.and_two_pow_sub_one_eq_mod sn 8]
      omega
    rw [hlow, shiftLeft_or_octet, hhigh, hx, snBehind, if_neg Bool.false_ne_true]

/-- Everything that was encoded comes back, with an SN that the octet behind it is part of. -/
theorem decodeUmd_encodeUmd (hso : so < 65536) (hdata : data ≠ []) :
    decodeUmd isShortSn (encodeUmd isShortSn si so sn data) = .ok
      { si, so := if si.requiresSo then so else 0,
        sn := if si = .full then 0 else snBehind isShortSn si so sn data, data } := by
  have hoctet0 : octetAt (encodeUmd isShortSn si so sn data) 0 = .ok (umdOctet0 isShortSn si sn) := by
    rw [tail_encodeUmd]
    rfl
  have hsi0 : ESegmentInfo.ofBits (bitRange8 6 7 (umdOctet0 isShortSn si sn)) = si := by
    rw [bitRange8_umdOctet0, ESegmentInfo.ofBits_value]
  rw [decodeUmd, hoctet0]
  change (if ESegmentInfo.ofBits (bitRange8 6 7 (umdOctet0 isShortSn si sn)) = .full then _ else _) = _
  rw [hsi0]
  by_cases hsi : si = .full
  · subst hsi
    rw [if_pos rfl, tail_encodeUmd]
    rfl
  · obtain ⟨index, hsn, hindex⟩ := decodeUmdSn_encodeUmd isShortSn sn hsi hso hdata
    obtain ⟨stop, hstop, hrest⟩ := decodeUmdSo_eq hso hindex
    rw [if_neg hsi, hsn]
    change (decodeUmdSo si (encodeUmd isShortSn si so sn data) index >>= _) = _
    rw [hstop]
    change Except.ok _ = _
    rw [hrest, if_neg hsi]

/-- The PDU comes back with the numbers that its header has. -/
def UmdReturned (isShortSn : Bool) (si : ESegmentInfo) (so sn : Nat) (data : OctetString) : Prop :=
  ∃ pdu, decodeUmd isShortSn (encodeUmd isShortSn si so sn data) = .ok pdu ∧ pdu.si = si ∧
    (si ≠ .full → pdu.sn = sn) ∧ (si.requiresSo → pdu.so = so) ∧ pdu.data = data

/-- The octet behind the SN happens to spell the SN too. -/
def SnRepeated (isShortSn : Bool) (sn behind : Nat) : Prop :=
  if isShortSn then behind % 64 = sn else sn % 16 = sn / 256 ∧ behind = sn % 256

/-- A PDU with an SN comes back only if the SN is repeated in the octet behind it. -/
theorem umdReturned_iff {isShortSn : Bool} {si : ESegmentInfo} {so sn : Nat} {data : OctetString}
    (hsn : sn < 2 ^ umSnLength isShortSn) (hso : so < 65536) (hdata : data ≠ []) :
    UmdReturned isShortSn si so sn data ↔
      si = .full ∨ SnRepeated isShortSn sn (octetBehindSn si so data) := by
  obtain ⟨x, -, -, hx⟩ := exists_octetBehindSn si hso hdata
  have hbehind : octetBehindSn si so data < 256 := hx ▸ x.toNat_lt
  have hrepeated : snBehind isShortSn si so sn data = sn ↔
      SnRepeated isShortSn sn (octetBehindSn si so data) := by
    cases isShortSn with
    | true => exact Iff.rfl
    | false =>
      change sn % 16 * 256 + octetBehindSn si so data = sn ↔
        sn % 16 = sn / 256 ∧ octetBehindSn si so data = sn % 256
      change sn < 4096 at hsn
      omega
  rw [UmdReturned, decodeUmd_encodeUmd hso hdata, ← hrepeated]
  constructor
  · rintro ⟨pdu, hpdu, -, hreturned, -⟩
    cases hpdu
    by_cases hsi : si = .full
    · exact .inl hsi
    · have hsame := hreturned hsi
      dsimp only at hsame
      rw [if_neg hsi] at hsame
      exact .inr (by exact_mod_cast hsame)
  · intro h
    refine ⟨_, rfl, rfl, fun hsi => ?_, fun hsi => if_pos hsi, rfl⟩
    rw [if_neg hsi, h.resolve_left hsi]

theorem umdReturned_repeated : UmdReturned true .first 0 5 [0x85] :=
  (umdReturned_iff (by decide) (by decide) (by decide)).mpr (.inr rfl)

/-- The SN of a first segment is taken from its data. -/
theorem not_umdReturned : ¬ UmdReturned true .first 0 5 [0] := by
  rintro ⟨pdu, hpdu, -, hsn, -⟩
  cases hpdu
  exact absurd (hsn (by decide)) (by decide)

/-! ## AMD PDUs -/

/-- The fields that the first octet has room for. -/
def amdFields (p : Bool) (si : ESegmentInfo) (high : Nat) : UInt8 :=
  .ofNat ((if p then 0b11000000 else 0b10000000) ||| si.value <<< 4 ||| high)

theorem amdFields_read (p : Bool) (si : ESegmentInfo) (high : Fin 16) :
    (amdFields p si high).toNat >>> 7 = 1 ∧
      decide ((amdFields p si high).toNat >>> 6 &&& 1 ≠ 0) = p ∧
      ESegmentInfo.ofBits (bitRange8 4 5 (amdFields p si high)) = si ∧
      bitRange8 0 3 (amdFields p si high) = high ∧
      bitRange8 0 1 (amdFields p si high) = high % 4 := by
  revert high
  cases p <;> cases si <;> decide

/-- The SN in front of its lower octets. -/
def amdHigh (isShortSn : Bool) (sn : Nat) : Nat := if isShortSn then sn / 256 else sn / 65536

theorem amdHigh_lt (hsn : sn < 2 ^ amSnLength isShortSn) :
    amdHigh isShortSn sn < 16 ∧ (isShortSn = false → amdHigh isShortSn sn < 4) := by
  cases isShortSn with
  | true =>
    change sn < 4096 at hsn
    refine ⟨?_, fun hshort => absurd hshort.symm Bool.false_ne_true⟩
    change sn / 256 < 16
    omega
  | false =>
    change sn < 262144 at hsn
    change sn / 65536 < 16 ∧ (_ → sn / 65536 < 4)
    omega

theorem amdOctet0_eq (hsn : sn < 2 ^ amSnLength isShortSn) :
    amdOctet0 isShortSn si sn p = amdFields p si (amdHigh isShortSn sn) := by
  cases isShortSn with
  | true =>
    change sn < 4096 at hsn
    have hhigh : sn >>> 8 &&& 0b1111 = sn / 256 := by
      rw [Nat.and_two_pow_sub_one_eq_mod _ 4, Nat.shiftRight_eq_div_pow]
      omega
    exact congrArg (fun n => UInt8.ofNat (_ ||| _ ||| n)) hhigh
  | false =>
    change sn < 262144 at hsn
    have hhigh : sn >>> 16 &&& 0b111 = sn / 65536 := by
      rw [Nat.and_two_pow_sub_one_eq_mod _ 3, Nat.shiftRight_eq_div_pow]
      omega
    exact congrArg (fun n => UInt8.ofNat (_ ||| _ ||| n)) hhigh

/-- The lower octets of the SN stand behind the first octet. -/
theorem encodeAmd_eq (isShortSn : Bool) (si : ESegmentInfo) (so sn : Nat) (data : OctetString)
    (p : Bool) :
    encodeAmd isShortSn si so sn data p = amdOctet0 isShortSn si sn p ::
      ((if ¬ isShortSn then [UInt8.ofNat (sn >>> 8)] else []) ++ [UInt8.ofNat sn] ++
        ((if si.requiresSo then [UInt8.ofNat (so >>> 8), UInt8.ofNat so] else []) ++ data)) := by
  unfold encodeAmd
  split_ifs <;> rfl

theorem decodeAmdSn_encodeAmd (si : ESegmentInfo) (so : Nat) (data : OctetString) (p : Bool)
    (hsn : sn < 2 ^ amSnLength isShortSn) :
    ∃ index, decodeAmdSn isShortSn (amdHigh isShortSn sn) (encodeAmd isShortSn si so sn data p) =
        .ok (sn, index) ∧
      (encodeAmd isShortSn si so sn data p).drop index =
        (if si.requiresSo then [UInt8.ofNat (so >>> 8), UInt8.ofNat so] else []) ++ data := by
  rw [encodeAmd_eq]
  cases isShortSn with
  | true =>
    change sn < 4096 at hsn
    refine ⟨2, ?_, by simp⟩
    change Except.ok ((sn / 256) <<< 8 ||| (UInt8.ofNat sn).toNat, 2) = _
    rw [shiftLeft_or_octet, UInt8.toNat_ofNat']
    congr 2
    omega
  | false =>
    change sn < 262144 at hsn
    refine ⟨3, ?_, by simp⟩
    change Except.ok (((sn / 65536) <<< 8 ||| (UInt8.ofNat (sn >>> 8)).toNat) <<< 8 |||
      (UInt8.ofNat sn).toNat, 3) = _
    rw [shiftLeft_or_octet, shiftLeft_or_octet, toNat_ofNat_shiftRight, UInt8.toNat_ofNat']
    congr 2
    omega

theorem decodeAmd_encodeAmd (hsn : sn < 2 ^ amSnLength isShortSn) (hso : so < 65536) :
    decodeAmd isShortSn (encodeAmd isShortSn si so sn data p) = .ok
      (some { si, so := if si.requiresSo then so else 0, sn, data, p }) := by
  obtain ⟨hlt, hlong⟩ := amdHigh_lt hsn
  obtain ⟨hdata, hp, hsi, hshort, hshorter⟩ := amdFields_read p si ⟨_, hlt⟩
  have hhigh : (if isShortSn then bitRange8 0 3 (amdFields p si (amdHigh isShortSn sn))
      else bitRange8 0 1 (amdFields p si (amdHigh isShortSn sn))) = amdHigh isShortSn sn := by
    cases isShortSn with
    | true => exact hshort
    | false => exact hshorter.trans (Nat.mod_eq_of_lt (hlong rfl))
  obtain ⟨index, hindex, hbehind⟩ := decodeAmdSn_encodeAmd si so data p hsn
  obtain ⟨stop, hstop, hrest⟩ := decodeUmdSo_eq hso hbehind
  have hoctet : octetAt (encodeAmd isShortSn si so sn data p) 0 =
      .ok (amdFields p si (amdHigh isShortSn sn)) := by
    rw [encodeAmd_eq, amdOctet0_eq hsn]
    rfl
  rw [decodeAmd, hoctet, ok_bind, if_neg (not_not.mpr hdata)]
  dsimp only
  rw [hhigh, hindex, ok_bind]
  dsimp only
  rw [hsi, hstop, ok_bind]
  dsimp only
  rw [hrest, hp]
  rfl

/-! ## STATUS PDUs -/

namespace NackBlock

def hasSo (block : NackBlock) : Bool := block.soStart ≠ -1

def hasRange (block : NackBlock) : Bool := block.nackRange ≠ -1

/-- A block of which every part is absent or has a value that fits its field. -/
structure Fits (isShortSn : Bool) (block : NackBlock) : Prop where
  sn_nonneg : 0 ≤ block.nackSn
  sn_lt : block.nackSn < 2 ^ amSnLength isShortSn
  so : block.soStart = -1 ∧ block.soEnd = -1 ∨
    (0 ≤ block.soStart ∧ block.soStart < 65536) ∧ 0 ≤ block.soEnd ∧ block.soEnd < 65536
  range : block.nackRange = -1 ∨ 0 ≤ block.nackRange ∧ block.nackRange < 256

/-- How many bits a block takes. -/
def bits (isShortSn : Bool) (block : NackBlock) : Nat :=
  (if isShortSn then 16 else 24) + (if block.hasSo then 32 else 0) +
    if block.hasRange then 8 else 0

/-- The bits of the offsets. -/
def soLayout (block : NackBlock) : List Bool :=
  if block.hasSo then bitsBE 16 block.soStart.toNat ++ bitsBE 16 block.soEnd.toNat else []

def rangeLayout (block : NackBlock) : List Bool :=
  if block.hasRange then bitsBE 8 block.nackRange.toNat else []

/-- The bits of a block, behind which there are more or not. -/
def layout (isShortSn more : Bool) (block : NackBlock) : List Bool :=
  bitsBE (amSnLength isShortSn) block.nackSn.toNat ++ ([more] ++ ([block.hasSo] ++
    ([block.hasRange] ++ (bitsBE (nackReserved isShortSn) 0 ++
      (block.soLayout ++ block.rangeLayout)))))

variable {isShortSn : Bool} {block : NackBlock}

theorem length_layout (more : Bool) :
    (block.layout isShortSn more).length = block.bits isShortSn := by
  have hso : block.soLayout.length = if block.hasSo then 32 else 0 := by
    unfold soLayout
    split_ifs <;> simp
  have hrange : block.rangeLayout.length = if block.hasRange then 8 else 0 := by
    unfold rangeLayout
    split_ifs <;> simp
  simp only [layout, bits, List.length_append, length_bitsBE, List.length_singleton, hso, hrange]
  cases isShortSn <;> simp [amSnLength, nackReserved] <;> omega

end NackBlock

/-- The bits of the blocks. -/
def blocksLayout (isShortSn : Bool) : List NackBlock → List Bool
  | [] => []
  | block :: rest => block.layout isShortSn (!rest.isEmpty) ++ blocksLayout isShortSn rest

namespace StatusPdu

/-- A PDU whose numbers fit their fields. -/
structure Fits (isShortSn : Bool) (pdu : StatusPdu) : Prop where
  sn_nonneg : 0 ≤ pdu.ackSn
  sn_lt : pdu.ackSn < 2 ^ amSnLength isShortSn
  blocks : ∀ block ∈ pdu.nackBlocks, block.Fits isShortSn

/-- How many bits a PDU takes. -/
def bits (isShortSn : Bool) (pdu : StatusPdu) : Nat :=
  24 + (pdu.nackBlocks.map (NackBlock.bits isShortSn)).sum

def layout (isShortSn : Bool) (pdu : StatusPdu) : List Bool :=
  [false] ++ (bitsBE 3 0 ++ (bitsBE (amSnLength isShortSn) pdu.ackSn.toNat ++
    ([!pdu.nackBlocks.isEmpty] ++ (bitsBE (statusReserved isShortSn) 0 ++
      blocksLayout isShortSn pdu.nackBlocks))))

end StatusPdu

section Blocks

variable {isShortSn : Bool} {block : NackBlock} {blocks : List NackBlock} {v : Int} {len : Nat}

theorem amSnLength_spec (isShortSn : Bool) : 0 < amSnLength isShortSn ∧ amSnLength isShortSn < 32 := by
  cases isShortSn <;> decide

theorem nackReserved_spec (isShortSn : Bool) :
    0 < nackReserved isShortSn ∧ nackReserved isShortSn < 32 := by
  cases isShortSn <;> decide

theorem statusReserved_spec (isShortSn : Bool) :
    0 < statusReserved isShortSn ∧ statusReserved isShortSn < 32 := by
  cases isShortSn <;> decide

/-- A number that is not negative is written as its bits. -/
theorem writeBits_writes_toNat (hv : 0 ≤ v) (hlen : len ≤ 32) :
    Writes (writeBits v len) (bitsBE len v.toNat) () := by
  have hwrites := writeBits_writes v.toNat hlen
  rwa [Int.toNat_of_nonneg hv] at hwrites

/-- The bits of a number that fits are read as the number. -/
theorem readBits_readsBits_toNat (hv : v < 2 ^ len) (hpos : 0 < len) (hlen : len < 32) :
    ReadsBits (readBits len) (bitsBE len v.toNat) v.toNat := by
  have hlt : v.toNat < 2 ^ len := by
    rw [Int.toNat_lt' (Nat.two_pow_pos len)]
    exact_mod_cast hv
  exact readBits_readsBits hpos hlen hlt

theorem writeE2_writes (h : block.Fits isShortSn) :
    Writes (writeE2 block) [block.hasSo] block.hasSo := by
  unfold writeE2 NackBlock.hasSo
  rcases h.so with ⟨hstart, hend⟩ | ⟨⟨hstart, -⟩, hend, -⟩
  · rw [if_pos (.inl hend), if_neg (by omega), hstart]
    exact (write_writes false).bind_end (Writes.pure false)
  · rw [if_neg (by omega), decide_eq_true (by omega)]
    exact (write_writes true).bind_end (Writes.pure true)

theorem writeSo_writes (h : block.Fits isShortSn) :
    Writes (writeSo block block.hasSo) block.soLayout () := by
  unfold writeSo NackBlock.soLayout
  rcases h.so with ⟨hstart, -⟩ | ⟨⟨hstart, -⟩, hend, -⟩
  · have habsent : block.hasSo = false := decide_eq_false (not_not.mpr hstart)
    rw [habsent]
    exact Writes.pure ()
  · have hpresent : block.hasSo = true := decide_eq_true (by omega)
    rw [hpresent]
    exact (writeBits_writes_toNat hstart (by decide)).bind
      (writeBits_writes_toNat hend (by decide))

theorem writeRange_writes (h : block.Fits isShortSn) :
    Writes (writeRange block block.hasRange) block.rangeLayout () := by
  unfold writeRange NackBlock.rangeLayout
  rcases h.range with habsent | ⟨hrange, -⟩
  · have habsent : block.hasRange = false := decide_eq_false (not_not.mpr habsent)
    rw [habsent]
    exact Writes.pure ()
  · have hpresent : block.hasRange = true := decide_eq_true (by omega)
    rw [hpresent]
    exact writeBits_writes_toNat hrange (by decide)

theorem encodeNackBlock_writes (h : block.Fits isShortSn) (more : Bool) :
    Writes (encodeNackBlock isShortSn more block) (block.layout isShortSn more) () := by
  have hsn := (amSnLength_spec isShortSn).2
  have hreserved := (nackReserved_spec isShortSn).2
  exact (writeBits_writes_toNat h.sn_nonneg (by omega)).bind <| (write_writes more).bind <|
    (writeE2_writes h).bind <| (write_writes _).bind <| (writeBits_writes 0 (by omega)).bind <|
    (writeSo_writes h).bind (writeRange_writes h)

theorem encodeNackBlocks_writes (h : ∀ block ∈ blocks, block.Fits isShortSn) :
    Writes (encodeNackBlocks isShortSn blocks) (blocksLayout isShortSn blocks) () := by
  induction blocks with
  | nil => exact Writes.pure ()
  | cons block rest ih =>
    exact (encodeNackBlock_writes (h block List.mem_cons_self) _).bind
      (ih fun block hblock => h block (List.mem_cons_of_mem _ hblock))

theorem readSo_readsBits (h : block.Fits isShortSn) :
    ReadsBits (readSo block.hasSo) block.soLayout (block.soStart, block.soEnd) := by
  unfold readSo NackBlock.soLayout
  rcases h.so with ⟨hstart, hend⟩ | ⟨⟨hstart, hstartLt⟩, hend, hendLt⟩
  · have habsent : block.hasSo = false := decide_eq_false (not_not.mpr hstart)
    rw [habsent, hstart, hend]
    exact ReadsBits.pure _
  · have hpresent : block.hasSo = true := decide_eq_true (by omega)
    have hvalue : ((block.soStart.toNat : Int), (block.soEnd.toNat : Int)) =
        (block.soStart, block.soEnd) := by
      rw [Int.toNat_of_nonneg hstart, Int.toNat_of_nonneg hend]
    rw [hpresent]
    refine ReadsBits.of_eq ?_ hvalue
    exact (readBits_readsBits_toNat hstartLt (by decide) (by decide)).bind <|
      (readBits_readsBits_toNat hendLt (by decide) (by decide)).bind_end <| ReadsBits.pure _

theorem readRange_readsBits (h : block.Fits isShortSn) :
    ReadsBits (readRange block.hasRange) block.rangeLayout block.nackRange := by
  unfold readRange NackBlock.rangeLayout
  rcases h.range with hrange | ⟨hrange, hlt⟩
  · have habsent : block.hasRange = false := decide_eq_false (not_not.mpr hrange)
    rw [habsent, hrange]
    exact ReadsBits.pure _
  · have hpresent : block.hasRange = true := decide_eq_true (by omega)
    rw [hpresent]
    refine ReadsBits.of_eq ?_ (Int.toNat_of_nonneg hrange)
    exact (readBits_readsBits_toNat hlt (by decide) (by decide)).bind_end <| ReadsBits.pure _

theorem decodeNackBlock_readsBits (h : block.Fits isShortSn) (more : Bool) :
    ReadsBits (decodeNackBlock isShortSn) (block.layout isShortSn more) (block, more) := by
  obtain ⟨hpos, hlen⟩ := amSnLength_spec isShortSn
  obtain ⟨hreservedPos, hreservedLen⟩ := nackReserved_spec isShortSn
  have hvalue : ({ block with nackSn := (block.nackSn.toNat : Int) }, more) = (block, more) := by
    rw [Int.toNat_of_nonneg h.sn_nonneg]
  refine ReadsBits.of_eq ?_ hvalue
  exact (readBits_readsBits_toNat h.sn_lt hpos hlen).bind <| (read_readsBits more).bind <|
    (read_readsBits block.hasSo).bind <| (read_readsBits block.hasRange).bind <|
    (readBits_readsBits hreservedPos hreservedLen (Nat.two_pow_pos _)).bind <|
    (readSo_readsBits h).bind <| (readRange_readsBits h).bind_end <| ReadsBits.pure _

/-- The loop takes one turn for every block. -/
theorem decodeNackBlocks_readsBits {turns : Nat} (h : ∀ block ∈ blocks, block.Fits isShortSn)
    (hturns : blocks.length ≤ turns) :
    ReadsBits (decodeNackBlocks isShortSn turns (!blocks.isEmpty)) (blocksLayout isShortSn blocks)
      blocks := by
  induction blocks generalizing turns with
  | nil => cases turns <;> exact ReadsBits.pure []
  | cons block rest ih =>
    obtain ⟨turns, rfl⟩ := Nat.exists_eq_succ_of_ne_zero (Nat.ne_zero_of_lt hturns)
    exact (decodeNackBlock_readsBits (h block List.mem_cons_self) _).bind <|
      (ih (fun block hblock => h block (List.mem_cons_of_mem _ hblock))
        (Nat.le_of_succ_le_succ hturns)).bind_end (ReadsBits.pure _)

theorem length_blocksLayout (isShortSn : Bool) (blocks : List NackBlock) :
    (blocksLayout isShortSn blocks).length = (blocks.map (NackBlock.bits isShortSn)).sum := by
  induction blocks with
  | nil => rfl
  | cons block rest ih =>
    rw [blocksLayout, List.length_append, NackBlock.length_layout, ih, List.map_cons, List.sum_cons]

end Blocks

section Status

variable {isShortSn : Bool} {pdu : StatusPdu} {buf : OctetString}

theorem length_layout_status (isShortSn : Bool) (pdu : StatusPdu) :
    (pdu.layout isShortSn).length = pdu.bits isShortSn := by
  simp only [StatusPdu.layout, StatusPdu.bits, List.length_append, length_bitsBE,
    List.length_singleton, length_blocksLayout]
  cases isShortSn <;> simp [amSnLength, statusReserved] <;> omega

/-- Every part of a PDU ends with an octet. -/
theorem eight_dvd_bits (isShortSn : Bool) (pdu : StatusPdu) : 8 ∣ pdu.bits isShortSn := by
  refine Nat.dvd_add (by decide) (List.dvd_sum fun n hn => ?_)
  obtain ⟨block, -, rfl⟩ := List.mem_map.mp hn
  unfold NackBlock.bits
  split_ifs <;> decide

/-- No block is smaller than an octet. -/
theorem length_nackBlocks_le (isShortSn : Bool) (pdu : StatusPdu) :
    8 * pdu.nackBlocks.length ≤ pdu.bits isShortSn := by
  have hblock (block : NackBlock) : 8 ≤ block.bits isShortSn := by
    unfold NackBlock.bits
    split_ifs <;> decide
  have hsum : 8 * pdu.nackBlocks.length ≤ (pdu.nackBlocks.map (NackBlock.bits isShortSn)).sum := by
    induction pdu.nackBlocks with
    | nil => exact Nat.le_refl 0
    | cons block rest ih =>
      rw [List.length_cons, List.map_cons, List.sum_cons]
      have := hblock block
      omega
  exact hsum.trans (Nat.le_add_left _ 24)

theorem writeStatus_writes (h : pdu.Fits isShortSn) :
    Writes (writeStatus isShortSn pdu) (pdu.layout isShortSn) () := by
  have hsn := (amSnLength_spec isShortSn).2
  have hreserved := (statusReserved_spec isShortSn).2
  have hblocks : Writes (writeNackBlocks isShortSn pdu)
      ([!pdu.nackBlocks.isEmpty] ++ (bitsBE (statusReserved isShortSn) 0 ++
        blocksLayout isShortSn pdu.nackBlocks)) () := by
    unfold writeNackBlocks
    by_cases hempty : pdu.nackBlocks = []
    · rw [hempty]
      refine (write_writes false).bind ?_
      rw [blocksLayout, List.append_nil]
      exact writeBits_writes 0 (by omega)
    · rw [if_neg (by simpa using hempty), List.isEmpty_eq_false_iff.mpr hempty]
      exact (write_writes true).bind <| (writeBits_writes 0 (by omega)).bind <|
        encodeNackBlocks_writes h.blocks
  exact (write_writes false).bind <| (writeBits_writes 0 (by decide)).bind <|
    (writeBits_writes_toNat h.sn_nonneg (by omega)).bind hblocks

/-- The blocks end with an octet, so that no fill bits are needed. -/
theorem encodeStatus_eq (h : pdu.Fits isShortSn) (hroom : pdu.bits isShortSn ≤ 8 * buf.length) :
    encodeStatus isShortSn pdu buf =
      .ok (pdu.bits isShortSn / 8, overwrite buf 0 (pdu.layout isShortSn)) := by
  obtain ⟨n, hn⟩ := eight_dvd_bits isShortSn pdu
  have hwrite := writeStatus_writes h buf 0 (by rw [length_layout_status]; omega)
  rw [length_layout_status, Nat.zero_add] at hwrite
  unfold encodeStatus
  change (((writeStatus isShortSn pdu ⟨buf, 0⟩ >>= fun s => octetAlign s.2) >>= _) : Except _ _) = _
  rw [hwrite, ok_bind, octetAlign_eq (by dsimp only; omega), ok_bind]
  change Except.ok (_, _) = _
  rw [writtenOctets_eq hn, hn, Nat.mul_div_cancel_left n (by decide)]

theorem readStatus_readsBits (h : pdu.Fits isShortSn) {turns : Nat}
    (hturns : pdu.nackBlocks.length ≤ turns) :
    ReadsBits (readStatus isShortSn turns) (pdu.layout isShortSn) (some pdu) := by
  obtain ⟨hpos, hlen⟩ := amSnLength_spec isShortSn
  obtain ⟨hreservedPos, hreservedLen⟩ := statusReserved_spec isShortSn
  have hvalue : some { pdu with ackSn := (pdu.ackSn.toNat : Int) } = some pdu := by
    rw [Int.toNat_of_nonneg h.sn_nonneg]
  refine ReadsBits.of_eq ?_ hvalue
  exact (read_readsBits false).bind <|
    (readBits_readsBits (by decide) (by decide) (by decide)).bind <|
    (readBits_readsBits_toNat h.sn_lt hpos hlen).bind <| (read_readsBits _).bind <|
    (readBits_readsBits hreservedPos hreservedLen (Nat.two_pow_pos _)).bind <|
    (decodeNackBlocks_readsBits h.blocks hturns).bind_end <| ReadsBits.pure _

/-- A STATUS PDU takes the octets of its layout, leaves the memory behind them as it was and is read
back from them. -/
theorem decodeStatus_encodeStatus (h : pdu.Fits isShortSn)
    (hroom : pdu.bits isShortSn ≤ 8 * buf.length) :
    ∃ n mem, encodeStatus isShortSn pdu buf = .ok (n, mem) ∧ 8 * n = pdu.bits isShortSn ∧
      mem.drop n = buf.drop n ∧ decodeStatus isShortSn (mem.take n) = .ok (some pdu) := by
  obtain ⟨n, hn⟩ := eight_dvd_bits isShortSn pdu
  have hlayout : (pdu.layout isShortSn).length = 8 * n := by rw [length_layout_status, hn]
  refine ⟨n, overwrite buf 0 (pdu.layout isShortSn), ?_, hn.symm, ?_, ?_⟩
  · rw [encodeStatus_eq h hroom, hn, Nat.mul_div_cancel_left n (by decide)]
  · exact drop_overwrite (by omega)
  · have hwritten : Spells (overwrite buf 0 (pdu.layout isShortSn)) 0 (pdu.layout isShortSn) :=
      spells_overwrite (by omega)
    have hspells := hwritten.take (n := n) (by omega)
    have hlength : ((overwrite buf 0 (pdu.layout isShortSn)).take n).length = n := by
      rw [List.length_take, length_overwrite]
      omega
    have hblocks := length_nackBlocks_le isShortSn pdu
    have hturns : pdu.nackBlocks.length ≤ n := by omega
    have hread := readStatus_readsBits h hturns _ 0 hspells
    rw [decodeStatus, hlength, hread]
    rfl

end Status

/-- What is encoded for an AM entity is decoded again, with either length of the SN. -/
theorem am_pdus_returned (isShortSn : Bool) :
    (∀ p si (sn so : Nat) data, sn < 2 ^ amSnLength isShortSn → so < 65536 →
      decodeAmd isShortSn (encodeAmd isShortSn si so sn data p) = .ok
        (some { si, so := if si.requiresSo then so else 0, sn, data, p })) ∧
    ∀ pdu : StatusPdu, pdu.Fits isShortSn → ∀ buf : OctetString,
      pdu.bits isShortSn ≤ 8 * buf.length →
      ∃ n mem, encodeStatus isShortSn pdu buf = .ok (n, mem) ∧ 8 * n = pdu.bits isShortSn ∧
        mem.drop n = buf.drop n ∧ decodeStatus isShortSn (mem.take n) = .ok (some pdu) :=
  ⟨fun _ _ _ _ _ hsn hso => decodeAmd_encodeAmd hsn hso,
    fun _ h _ hroom => decodeStatus_encodeStatus h hroom⟩

theorem am_pdus_returned_segment :
    decodeAmd true (encodeAmd true .last 0x1234 0xabc [1, 2] true) =
        .ok (some ⟨.last, 0x1234, 0xabc, [1, 2], false, true⟩) ∧
      ∃ n mem, encodeStatus true ⟨9, [⟨3, -1, -1, -1⟩, ⟨5, 7, 0xffff, 2⟩]⟩ (List.replicate 16 0xff) =
          .ok (n, mem) ∧ 8 * n = 96 ∧ mem.drop n = (List.replicate 16 0xff).drop n ∧
        decodeStatus true (mem.take n) = .ok (some ⟨9, [⟨3, -1, -1, -1⟩, ⟨5, 7, 0xffff, 2⟩]⟩) := by
  obtain ⟨hdata, hstatus⟩ := am_pdus_returned true
  refine ⟨hdata true .last 0xabc 0x1234 [1, 2] (by decide) (by decide), hstatus _ ⟨by decide,
    by decide, ?_⟩ _ (by decide)⟩
  intro block hblock
  rcases List.mem_pair.mp hblock with rfl | rfl
  · exact ⟨by decide, by decide, .inl ⟨rfl, rfl⟩, .inl rfl⟩
  · exact ⟨by decide, by decide, .inr (by decide), .inr (by decide)⟩

end Quicup.Ueransim.Rlc
