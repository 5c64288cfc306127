import Quicup.Core.BitString

/-!
# Bit buffers

`BitBuffer` of `bit_buffer.hpp`: single bits are read and written at a bit index that goes over the
octets of a buffer. The buffer ends somewhere, which the class does not know.
-/

namespace Quicup.Ueransim

open BitString

structure BitBuffer where
  data : List UInt8
  index : Nat := 0
  deriving DecidableEq

abbrev BitAccess (α : Type) := StateT BitBuffer (Except Fault) α

namespace BitBuffer

def assertion {α : Type} : BitAccess α := fun _ => .error .assertion

def read : BitAccess Bool := fun b =>
  if b.index / 8 < b.data.length then .ok (bitOf b.data b.index, { b with index := b.index + 1 })
  else .error .outOfBounds

/-- The loop of `readBits`. -/
def readLoop (i : Nat) : Nat → BitAccess Nat
  | 0 => return i
  | len + 1 => do
    let bit ← read
    readLoop (i <<< 1 ||| bit.toNat) len

def readBits (len : Nat) : BitAccess Nat :=
  if 0 < len ∧ len < 32 then readLoop 0 len else assertion

def write (bit : Bool) : BitAccess Unit := fun b =>
  if b.index / 8 < b.data.length then .ok ((), ⟨setBit b.data b.index bit, b.index + 1⟩)
  else .error .outOfBounds

/-- The loop of `writeBits` over the shifts that are left. -/
def writeLoop (value : Int) : Nat → BitAccess Unit
  | 0 => return
  | shift + 1 => do
    write (value / 2 ^ shift % 2 = 1)
    writeLoop value shift

def writeBits (value : Int) (len : Nat) : BitAccess Unit :=
  if len = 0 then return
  else if len ≤ 32 then writeLoop value len
  else assertion

def writtenOctets (b : BitBuffer) : Nat := (b.index + (8 - b.index % 8) % 8) / 8

def octetAlign : BitAccess Unit := fun b => writeBits 0 ((8 - b.index % 8) % 8) b

end BitBuffer

open BitBuffer

/-- Wherever there is room, the bits are written and nothing else is. -/
def Writes {α : Type} (p : BitAccess α) (bits : List Bool) (a : α) : Prop :=
  ∀ octets i, i + bits.length ≤ 8 * octets.length →
    p ⟨octets, i⟩ = .ok (a, ⟨overwrite octets i bits, i + bits.length⟩)

/-- Wherever the bits stand, they are read as the value. -/
def ReadsBits {α : Type} (p : BitAccess α) (bits : List Bool) (a : α) : Prop :=
  ∀ octets i, Spells octets i bits → p ⟨octets, i⟩ = .ok (a, ⟨octets, i + bits.length⟩)

section Rules

variable {α β : Type} {p : BitAccess α} {f : α → BitAccess β} {bits more : List Bool} {a : α} {b : β}

theorem Writes.pure (a : α) : Writes (Pure.pure a) [] a := fun _ _ _ => rfl

theorem Writes.bind (hp : Writes p bits a) (hf : Writes (f a) more b) :
    Writes (p >>= f) (bits ++ more) b := by
  intro octets i hroom
  rw [List.length_append] at hroom
  have hfirst := hp octets i (by omega)
  have hsecond := hf (overwrite octets i bits) (i + bits.length) (by rw [length_overwrite]; omega)
  rw [overwrite_append, List.length_append, ← Nat.add_assoc, ← hsecond]
  change (p ⟨octets, i⟩ >>= fun s => f s.1 s.2) = _
  rw [hfirst]
  rfl

theorem Writes.bind_end (hp : Writes p bits a) (hf : Writes (f a) [] b) :
    Writes (p >>= f) bits b := by
  simpa only [List.append_nil] using hp.bind hf

theorem ReadsBits.pure (a : α) : ReadsBits (Pure.pure a) [] a := fun _ _ _ => rfl

theorem ReadsBits.bind (hp : ReadsBits p bits a) (hf : ReadsBits (f a) more b) :
    ReadsBits (p >>= f) (bits ++ more) b := by
  intro octets i hspells
  obtain ⟨hfirst, hsecond⟩ := spells_append.mp hspells
  rw [List.length_append, ← Nat.add_assoc, ← hf octets _ hsecond]
  change (p ⟨octets, i⟩ >>= fun s => f s.1 s.2) = _
  rw [hp octets i hfirst]
  rfl

theorem ReadsBits.bind_end (hp : ReadsBits p bits a) (hf : ReadsBits (f a) [] b) :
    ReadsBits (p >>= f) bits b := by
  simpa only [List.append_nil] using hp.bind hf

theorem ReadsBits.of_eq (hp : ReadsBits p bits a) {a' : α} (h : a = a') : ReadsBits p bits a' :=
  h ▸ hp

end Rules

theorem write_writes (bit : Bool) : Writes (write bit) [bit] () := by
  intro octets i hroom
  rw [List.length_singleton] at hroom
  exact if_pos (by dsimp only; omega)

/-- A bit of a number that is not negative. -/
theorem bit_natCast (v shift : Nat) :
    decide ((v : Int) / 2 ^ shift % 2 = 1) = v.testBit shift := by
  rw [Nat.testBit_eq_decide_div_mod_eq, decide_eq_decide]
  norm_cast

theorem writeLoop_writes (v len : Nat) : Writes (writeLoop v len) (bitsBE len v) () := by
  induction len with
  | zero => exact Writes.pure ()
  | succ len ih =>
    rw [writeLoop, bit_natCast]
    exact (write_writes _).bind ih

variable {len : Nat} {buf : BitBuffer}

theorem writeBits_writes (v : Nat) (hlen : len ≤ 32) :
    Writes (writeBits v len) (bitsBE len v) () := by
  rw [writeBits]
  split_ifs with hzero
  · rw [hzero]
    exact Writes.pure ()
  · exact writeLoop_writes v len

/-- Between octets nothing is left to be filled. -/
theorem octetAlign_eq (h : buf.index % 8 = 0) : octetAlign buf = .ok ((), buf) := by
  rw [octetAlign, h]
  rfl

theorem writtenOctets_eq {n : Nat} (h : buf.index = 8 * n) : buf.writtenOctets = n := by
  rw [writtenOctets, h]
  omega

theorem read_readsBits (bit : Bool) : ReadsBits read [bit] bit := by
  rintro octets i ⟨hlt, rfl, -⟩
  exact if_pos hlt

theorem readLoop_readsBits (i : Nat) (bits : List Bool) :
    ReadsBits (readLoop i bits.length) bits (shiftIn i bits) := by
  induction bits generalizing i with
  | nil => exact ReadsBits.pure _
  | cons bit bits ih => exact (read_readsBits bit).bind (ih _)

theorem readBits_readsBits {v : Nat} (hpos : 0 < len) (hlen : len < 32) (hv : v < 2 ^ len) :
    ReadsBits (readBits len) (bitsBE len v) v := by
  have hloop := readLoop_readsBits 0 (bitsBE len v)
  rw [length_bitsBE, shiftIn_bitsBE, Nat.zero_mul, Nat.zero_add, Nat.mod_eq_of_lt hv] at hloop
  rwa [readBits, if_pos ⟨hpos, hlen⟩]

end Quicup.Ueransim
