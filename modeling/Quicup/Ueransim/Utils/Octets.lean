import Quicup.Core.Cursor

/-!
# Octet strings, octet views and bit fields of the gNB

The appending operations of `OctetString`, the reads of `OctetView` and the bit
field helpers of `bits.hpp`. An `int` is written by its low octets, which is the
remainder for negative values as well. `OctetView` checks a bound in
`readOctetString` only.
-/

namespace Quicup.Ueransim

/-- A growing octet string, as `OctetString`. -/
abbrev OctetString := List UInt8

/-- The `n` low octets of an `int`, most significant first. -/
def octetsOfInt (n : Nat) (v : Int) : List UInt8 := octetsBE n (v % (256 ^ n : Nat)).toNat

@[simp] theorem length_octetsOfInt (n : Nat) (v : Int) : (octetsOfInt n v).length = n :=
  length_octetsBE _ _

namespace OctetString

def append (stream v : OctetString) : OctetString := stream ++ v

def appendOctet (stream : OctetString) (v : UInt8) : OctetString := stream ++ [v]

def appendOctet2 (stream : OctetString) (v : Int) : OctetString := stream ++ octetsOfInt 2 v

def appendOctet3 (stream : OctetString) (v : Int) : OctetString := stream ++ octetsOfInt 3 v

def appendOctet4 (stream : OctetString) (v : Int) : OctetString := stream ++ octetsOfInt 4 v

def appendOctet8 (stream : OctetString) (v : Int) : OctetString := stream ++ octetsOfInt 8 v

def appendPadding (stream : OctetString) (length : Nat) : OctetString :=
  stream ++ List.replicate length 0

end OctetString

/-- A number in range is written as it is. -/
theorem octetsOfInt_natCast {n v : Nat} (h : v < 256 ^ n) : octetsOfInt n v = octetsBE n v := by
  have hv : ((v : Int) % (256 ^ n : Nat)).toNat = v := by
    rw [Int.emod_eq_of_lt (Int.natCast_nonneg v) (by exact_mod_cast h), Int.toNat_natCast]
  rw [octetsOfInt, hv]

/-! ## Bit fields -/

/-- Pack fields of the given widths, most significant first, into one octet. -/
def ranged8 (list : List (Nat × Int)) : UInt8 :=
  UInt8.ofNat (list.foldl
    (fun (val : Nat) (i : Nat × Int) => (val <<< i.1) ||| (i.2 % (2 ^ i.1 : Nat)).toNat) 0)

/-- Bits `start` to `stop` of an octet, both included. -/
def bitRange8 (start stop : Nat) (octet : UInt8) : Nat :=
  (octet.toNat >>> start) &&& ((1 <<< (stop - start + 1)) - 1)

def bitAt (index : Nat) (octet : UInt8) : Bool := bitRange8 index index octet ≠ 0

/-- A bit range is a quotient and a remainder. -/
theorem bitRange8_eq (start stop : Nat) (octet : UInt8) :
    bitRange8 start stop octet = octet.toNat / 2 ^ start % 2 ^ (stop - start + 1) := by
  rw [bitRange8, Nat.shiftLeft_eq, Nat.one_mul, Nat.and_two_pow_sub_one_eq_mod,
    Nat.shiftRight_eq_div_pow]

theorem bitAt_eq (index : Nat) (octet : UInt8) :
    bitAt index octet = decide (octet.toNat / 2 ^ index % 2 = 1) := by
  have h := Nat.mod_two_eq_zero_or_one (octet.toNat / 2 ^ index)
  simp only [bitAt, bitRange8_eq, Nat.sub_self, Nat.zero_add, Nat.pow_one, ne_eq,
    decide_eq_decide]
  omega

/-- A field is shifted in below the fields before it. -/
theorem ranged8_step (val w : Nat) (v : Int) :
    (val <<< w) ||| (v % (2 ^ w : Nat)).toNat = val * 2 ^ w + (v % (2 ^ w : Nat)).toNat := by
  have hpos : (0 : Int) < (2 ^ w : Nat) := by exact_mod_cast Nat.two_pow_pos w
  have hlt : (v % (2 ^ w : Nat)).toNat < 2 ^ w := by
    have := Int.emod_lt_of_pos v hpos
    have := Int.emod_nonneg v hpos.ne'
    omega
  rw [← Nat.shiftLeft_add_eq_or_of_lt hlt, Nat.shiftLeft_eq]

/-- Converting an `int` to an octet keeps its low bits. -/
theorem toNat_ofInt (v : Int) : (UInt8.ofInt v).toNat = (v % 2 ^ 8).toNat := by
  rw [UInt8.ofInt, UInt8.toNat_ofNat']
  omega

/-! ## Octet views -/

def readI : Read Nat := do
  let x ← readOctet
  return x.toNat

/-- The next octet, which stays. -/
def peek : Read UInt8 := fun c =>
  match c.rest with
  | [] => .error .outOfBounds
  | x :: _ => .ok (x, c)

def hasNext : Read Bool := fun c => .ok (!c.rest.isEmpty, c)

def read2US : Read UInt16 := do
  let v ← readBE 2
  return UInt16.ofNat v

def read2I : Read Nat := readBE 2

def read3I : Read Nat := readBE 3

def read4UI : Read UInt32 := do
  let v ← readBE 4
  return UInt32.ofNat v

/-- Eight octets as a two's complement number. -/
def read8L : Read Int := do
  let v ← readBE 8
  return Int.bmod v (2 ^ 64)

/-- The one checked read. A negative `length` passes the sum test by wrapping at
most, and then the vector constructor raises instead. -/
def readOctetString (length : Int) : Read OctetString := do
  if length = 0 then
    return []
  let index ← currentIndex
  let size ← viewSize
  if length < 0 ∨ (index : Int) + length > size then
    Read.fault .exception
  else
    readOctets length.toNat

/-! ## Reading back what was appended -/

section ReadBack

variable {i : Nat} {v : Int}

theorem readI_reads (x : UInt8) : Reads readI i [x] x.toNat :=
  (readOctet_reads x).bind_end (Reads.pure _)

theorem readBE_octetsOfInt (n : Nat) (v : Int) :
    Reads (readBE n) i (octetsOfInt n v) (v % (256 ^ n : Nat)).toNat := by
  have hpos : (0 : Int) < (256 ^ n : Nat) := by positivity
  have h := readBE_reads (i := i) n (v % (256 ^ n : Nat)).toNat
  rwa [Nat.mod_eq_of_lt] at h
  have := Int.emod_lt_of_pos v hpos
  have := Int.emod_nonneg v hpos.ne'
  omega

theorem read2US_reads (v : UInt16) : Reads read2US i (octetsOfInt 2 v.toNat) v := by
  have h := (readBE_octetsOfInt (i := i) 2 v.toNat).bind_end
    (f := fun v => Pure.pure (UInt16.ofNat v)) (Reads.pure _)
  have hv : ((v.toNat : Int) % (256 ^ 2 : Nat)).toNat = v.toNat := by
    have := v.toNat_lt
    omega
  rwa [hv, UInt16.ofNat_toNat] at h

theorem read2I_reads (v : UInt16) : Reads read2I i (octetsOfInt 2 v.toNat) v.toNat := by
  have h := readBE_octetsOfInt (i := i) 2 v.toNat
  have hv : ((v.toNat : Int) % (256 ^ 2 : Nat)).toNat = v.toNat := by
    have := v.toNat_lt
    omega
  rwa [hv] at h

theorem read3I_reads (h0 : 0 ≤ v) (hv : v < 2 ^ 24) : Reads read3I i (octetsOfInt 3 v) v.toNat := by
  have h := readBE_octetsOfInt (i := i) 3 v
  rwa [Int.emod_eq_of_lt h0 (by exact_mod_cast hv)] at h

theorem read4UI_reads (v : UInt32) : Reads read4UI i (octetsOfInt 4 v.toNat) v := by
  have h := (readBE_octetsOfInt (i := i) 4 v.toNat).bind_end
    (f := fun v => Pure.pure (UInt32.ofNat v)) (Reads.pure _)
  have hv : ((v.toNat : Int) % (256 ^ 4 : Nat)).toNat = v.toNat := by
    have := v.toNat_lt
    omega
  rwa [hv, UInt32.ofNat_toNat] at h

theorem read8L_reads (h0 : -2 ^ 63 ≤ v) (hv : v < 2 ^ 63) : Reads read8L i (octetsOfInt 8 v) v := by
  have h := (readBE_octetsOfInt (i := i) 8 v).bind_end
    (f := fun (v : Nat) => (Pure.pure (Int.bmod v (2 ^ 64)) : Read Int)) (Reads.pure _)
  have hb : Int.bmod (v % (256 ^ 8 : Nat)).toNat (2 ^ 64) = v := by
    rw [Int.toNat_of_nonneg (Int.emod_nonneg v (by norm_num)), Int.bmod_def]
    omega
  rwa [hb] at h

/-- Reading exactly the octets at hand never trips the bound check. -/
theorem readOctetString_reads (c : List UInt8) : Reads (readOctetString c.length) i c c := by
  unfold readOctetString
  by_cases hz : (c.length : Int) = 0
  · obtain rfl : c = [] := List.length_eq_zero_iff.mp (by exact_mod_cast hz)
    exact Reads.pure []
  · rw [if_neg hz]
    refine currentIndex_reads.bind_nil (Reads.bind_viewSize fun size hsize => ?_)
    rw [if_neg (by omega), Int.toNat_natCast]
    exact readOctets_reads c

end ReadBack

/-! ## Reads of fixed width -/

section Width

variable {i : Nat}

theorem readI_takes : Takes readI i 1 := readOctet_takes.bind fun _ => Takes.pure _

theorem read2US_takes : Takes read2US i 2 := (readBE_takes 2).bind fun _ => Takes.pure _

theorem read3I_takes : Takes read3I i 3 := readBE_takes 3

theorem read4UI_takes : Takes read4UI i 4 := (readBE_takes 4).bind fun _ => Takes.pure _

theorem read8L_takes : Takes read8L i 8 := (readBE_takes 8).bind fun _ => Takes.pure _

theorem readOctetString_takes (n : Nat) : Takes (readOctetString n) i n := by
  intro c hc
  exact ⟨c, hc ▸ readOctetString_reads c⟩

end Width

/-! ## Reads consume only what they return -/

variable {i : Nat} {s : List UInt8} {t : Cursor}

theorem readI_ok {n : Nat} (h : readI ⟨i, s⟩ = .ok (n, t)) :
    ∃ x : UInt8, n = x.toNat ∧ s = x :: t.rest ∧ t.index = i + 1 := by
  obtain ⟨x, u, hx, h⟩ := Read.bind_ok h
  obtain ⟨rfl, rfl⟩ := Prod.mk.inj (Except.ok.inj h)
  obtain ⟨hs, hi⟩ := readOctet_ok hx
  exact ⟨x, rfl, hs, hi⟩

theorem read4UI_ok {v : UInt32} (h : read4UI ⟨i, s⟩ = .ok (v, t)) :
    s = octetsBE 4 v.toNat ++ t.rest ∧ t.index = i + 4 := by
  obtain ⟨n, u, hn, h⟩ := Read.bind_ok h
  obtain ⟨rfl, rfl⟩ := Prod.mk.inj (Except.ok.inj h)
  obtain ⟨hlt, hs, hi⟩ := readBE_ok hn
  have hv : (UInt32.ofNat n).toNat = n := by
    rw [UInt32.toNat_ofNat', Nat.mod_eq_of_lt (by omega)]
  exact ⟨by rw [hv, hs], hi⟩

theorem readI_regular : Regular readI := readOctet_regular.bind fun _ => .pure _

theorem read2US_regular : Regular read2US := (readBE_regular 2).bind fun _ => .pure _

theorem read3I_regular : Regular read3I := readBE_regular 3

theorem read4UI_regular : Regular read4UI := (readBE_regular 4).bind fun _ => .pure _

theorem read8L_regular : Regular read8L := (readBE_regular 8).bind fun _ => .pure _

/-- The checked read returns exactly when that many octets are left. -/
theorem readOctetString_ok {length : Int} {a : List UInt8}
    (h : readOctetString length ⟨i, s⟩ = .ok (a, t)) :
    0 ≤ length ∧ (a.length : Int) = length ∧ s = a ++ t.rest ∧ t.index = i + a.length := by
  unfold readOctetString at h
  by_cases hz : length = 0
  · rw [if_pos hz] at h
    obtain ⟨rfl, rfl⟩ := Prod.mk.inj (Except.ok.inj h)
    exact ⟨hz.ge, hz.symm, rfl, rfl⟩
  · rw [if_neg hz] at h
    obtain ⟨index, u, hu, h⟩ := Read.bind_ok h
    obtain ⟨rfl, rfl⟩ := Prod.mk.inj (Except.ok.inj hu)
    obtain ⟨size, v, hv, h⟩ := Read.bind_ok h
    obtain ⟨rfl, rfl⟩ := Prod.mk.inj (Except.ok.inj hv)
    by_cases hb : length < 0 ∨ (i : Int) + length > (Cursor.size ⟨i, s⟩ : Nat)
    · rw [if_pos hb] at h
      cases h
    · rw [if_neg hb] at h
      obtain ⟨hl, hs, ht⟩ := readOctets_ok h
      refine ⟨by omega, by omega, hs, by omega⟩

theorem readOctetString_regular (length : Int) : Regular (readOctetString length) where
  halts := .ite (.pure _) (currentIndex_halts.bind fun _ => viewSize_halts.bind fun _ =>
    .ite (.fault (by decide)) (readOctets_regular _).halts)
  owed := by
    intro i s a t h
    obtain ⟨-, rfl, hs, ht⟩ := readOctetString_ok h
    exact ⟨a, hs, ht, readOctetString_reads a⟩

end Quicup.Ueransim

