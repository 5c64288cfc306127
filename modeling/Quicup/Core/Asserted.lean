import Quicup.Core.Cursor
import Quicup.Core.Fallible

/-!
# Asserted reads and writes

A reader asserts in front of each read that the octets are there, and a writer that there is room
for them. Each reader is characterised by what it takes from the front of the octets that are left.
-/

namespace Quicup

open Fallible

abbrev AssertedRead (α : Type) := StateT (List UInt8) (Except Fault) α

def takeOctets (n : Nat) : AssertedRead (Vector UInt8 n) := fun s =>
  if h : (s.take n).length = n then .ok (⟨(s.take n).toArray, h⟩, s.drop n) else .error .assertion

def takeOctet : AssertedRead UInt8 := do
  let octets ← takeOctets 1
  return octets[0]!

def takeBe16 : AssertedRead UInt16 := do
  let octets ← takeOctets 2
  return .ofNat (natBE octets.toList)

/-- What was written, with a further part where the buffer has room for it. -/
def putOctets (room : Nat) (written part : List UInt8) : Except Fault (List UInt8) :=
  if written.length + part.length ≤ room then .ok (written ++ part) else .error .assertion

namespace AssertedRead

variable {α β : Type} {p : AssertedRead α} {f : α → AssertedRead β} {s rest : List UInt8}

theorem pure_iff {a b : α} : (pure a : AssertedRead α) s = .ok (b, rest) ↔ a = b ∧ s = rest := by
  rw [← Prod.mk.injEq]
  exact pure_eq_ok_iff

theorem bind_iff {b : β} :
    (p >>= f) s = .ok (b, rest) ↔ ∃ a t, p s = .ok (a, t) ∧ f a t = .ok (b, rest) := by
  change (p s >>= fun x => f x.1 x.2) = _ ↔ _
  rw [bind_eq_ok, Prod.exists]

theorem takeOctets_iff {n : Nat} {octets : Vector UInt8 n} :
    takeOctets n s = .ok (octets, rest) ↔ s = octets.toList ++ rest := by
  unfold takeOctets
  constructor
  · intro h
    split_ifs at h with hlength
    cases h
    exact (List.take_append_drop n s).symm
  · rintro rfl
    have hlength : octets.toList.length = n := Vector.length_toList
    have htake : (octets.toList ++ rest).take n = octets.toList := List.take_left' hlength
    have hdrop : (octets.toList ++ rest).drop n = rest := List.drop_left' hlength
    rw [dif_pos (htake.symm ▸ hlength)]
    simp only [htake, hdrop]
    rfl

theorem takeOctet_iff {x : UInt8} : takeOctet s = .ok (x, rest) ↔ s = x :: rest := by
  rw [takeOctet, bind_iff]
  simp only [takeOctets_iff, pure_iff]
  constructor
  · rintro ⟨octets, t, rfl, rfl, rfl⟩
    obtain ⟨⟨octets⟩, hsize⟩ := octets
    obtain ⟨x, rfl⟩ := List.length_eq_one_iff.mp hsize
    rfl
  · rintro rfl
    exact ⟨#v[x], rest, rfl, rfl, rfl⟩

theorem takeBe16_iff {x : UInt16} :
    takeBe16 s = .ok (x, rest) ↔ s = octetsBE 2 x.toNat ++ rest := by
  rw [takeBe16, bind_iff]
  simp only [takeOctets_iff, pure_iff]
  have hback (y : UInt16) : UInt16.ofNat (natBE (octetsBE 2 y.toNat)) = y := by
    have hy : y.toNat < 256 ^ 2 := y.toNat_lt
    rw [natBE_octetsBE, Nat.mod_eq_of_lt hy, UInt16.ofNat_toNat]
  constructor
  · rintro ⟨octets, t, rfl, rfl, rfl⟩
    have hlength : octets.toList.length = 2 := Vector.length_toList
    have hlt : natBE octets.toList < 2 ^ 16 := by simpa [hlength] using natBE_lt octets.toList
    have hoctets := octetsBE_natBE octets.toList
    rw [hlength] at hoctets
    rw [UInt16.toNat_ofNat', Nat.mod_eq_of_lt hlt, hoctets]
  · rintro rfl
    exact ⟨⟨(octetsBE 2 x.toNat).toArray, length_octetsBE ..⟩, rest, rfl, hback x, rfl⟩

/-- A reader takes just what its values are written as. -/
def Codes (p : AssertedRead α) (octets : α → List UInt8) : Prop :=
  ∀ s a rest, p s = .ok (a, rest) ↔ s = octets a ++ rest

theorem takeOctets_codes (n : Nat) : Codes (takeOctets n) Vector.toList :=
  fun _ _ _ => takeOctets_iff

theorem takeOctet_codes : Codes takeOctet fun x => [x] := fun _ _ _ => takeOctet_iff

theorem takeBe16_codes : Codes takeBe16 fun x => octetsBE 2 x.toNat := fun _ _ _ => takeBe16_iff

variable {γ : Type} {q : AssertedRead β} {octets : α → List UInt8} {octets' : β → List UInt8}
  {c : γ}

theorem Codes.one (hp : Codes p octets) (g : α → γ) :
    (do let a ← p; return g a : AssertedRead γ) s = .ok (c, rest) ↔
      ∃ a, g a = c ∧ s = octets a ++ rest := by
  simp only [bind_iff, pure_iff, hp _ _ _]
  constructor
  · rintro ⟨a, t, rfl, hc, rfl⟩
    exact ⟨a, hc, rfl⟩
  · rintro ⟨a, hc, rfl⟩
    exact ⟨a, rest, rfl, hc, rfl⟩

theorem Codes.two (hp : Codes p octets) (hq : Codes q octets') (g : α → β → γ) :
    (do let a ← p; let b ← q; return g a b : AssertedRead γ) s = .ok (c, rest) ↔
      ∃ a b, g a b = c ∧ s = octets a ++ octets' b ++ rest := by
  simp only [bind_iff, pure_iff, hp _ _ _, hq _ _ _]
  constructor
  · rintro ⟨a, t, rfl, b, u, rfl, hc, rfl⟩
    exact ⟨a, b, hc, (List.append_assoc ..).symm⟩
  · rintro ⟨a, b, hc, rfl⟩
    exact ⟨a, _, List.append_assoc .., b, rest, rfl, hc, rfl⟩

end AssertedRead

theorem putOctets_eq {room : Nat} {written part : List UInt8}
    (h : written.length + part.length ≤ room) : putOctets room written part = .ok (written ++ part) :=
  if_pos h

end Quicup
