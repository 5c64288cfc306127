import Quicup.Core.Span
import Quicup.Ueransim.Utils.Octets

/-!
# Decoding the formats of information elements

`base.hpp` and `base.cpp`: the elements of types 1 to 6, the lists of elements and of values, and
strings of decimal digits, with the reads of `OctetView` that they need. A loop is given one
iteration more than there are octets at hand. A `std::string` is the list of its characters.
-/

namespace Quicup.Ueransim

/-! ## Reads of octet views -/

/-- `peek(offset)`, not before the position. -/
def peekAt (offset : Nat) : Read UInt8 := fun c =>
  match c.rest[offset]? with
  | none => .error .outOfBounds
  | some x => .ok (x, c)

def peekI : Read Nat := do
  let x ← peek
  return x.toNat

/-- `length` octets with no bound check. The string constructor raises for a range that goes back. -/
def readUtf8String (length : Int) : Read OctetString :=
  if length < 0 then Read.fault .exception else readOctets length.toNat

/-- `readOctetString` of all that is left. -/
def readRest : Read OctetString := do
  let index ← currentIndex
  let size ← viewSize
  readOctetString ((size : Int) - index)

/-! ## Elements -/

def decodeIe1 {α : Type} (decode : Nat → α) : Read α := do
  let octet ← readI
  return decode (octet &&& 0xF)

def decodeIe4 {α : Type} (decode : Int → Read α) : Read α := do
  let length ← readI
  decode length

def decodeIe6 {α : Type} (decode : Int → Read α) : Read α := do
  let length ← read2I
  decode length

/-! ## Lists -/

/-- An `int` as a `size_t`. -/
def sizeT (v : Int) : Nat := (v % 2 ^ 64).toNat

/-- The loop of `DecodeListIe` and `DecodeListVal`, with the elements that it stores. -/
def decodeList {α : Type} (decode : Read α) (length : Nat) : Nat → Nat → Read (Bool × List α)
  | 0, _ => Read.fault .hang
  | fuel + 1, readLen =>
    if readLen < length then do
      let streamIndex ← currentIndex
      let value ← decode
      let index ← currentIndex
      let (fits, output) ← decodeList decode length fuel (readLen + (index - streamIndex))
      return (fits, value :: output)
    else return (!decide (readLen > length), [])

def decodeListVal {α : Type} (decode : Read α) (length : Int) : Read (Bool × List α) :=
  fun c => decodeList decode (sizeT length) (c.rest.length + 1) 0 c

def decodeListIe {α : Type} (decode : Int → Read α) (length : Int) : Read (Bool × List α) :=
  decodeListVal (decodeIe4 decode) length

/-! ## Decimal digits -/

def digit (nibble : Nat) : UInt8 := if nibble < 10 then UInt8.ofNat (48 + nibble) else 63

/-- The characters that are written, octet by octet. -/
def bcdChars (skipFirst : Bool) : List UInt8 → OctetString
  | [] => []
  | octet :: others =>
    let little := if skipFirst then [] else [digit (octet.toNat &&& 0xF)]
    let big := octet.toNat >>> 4
    if others = [] ∧ big = 0xF then little
    else little ++ digit big :: bcdChars false others

/-- `DecodeBcdString`. A negative length looks at an octet before the position, and is then no
size for a string. -/
def decodeBcdString (length : Int) (skipFirst : Bool) : Read OctetString := do
  if length = 0 then
    return []
  else if length < 0 then
    let index ← currentIndex
    Read.fault (if (index : Int) + (length - 1) < 0 then .outOfBounds else .exception)
  else
    let last ← peekAt (length - 1).toNat
    let stringLength := 2 * length.toNat - if last >>> 4 = 0xF then 1 else 0
    let octets ← readOctets length.toNat
    let str := bcdChars skipFirst octets
    -- characters that are not written stay zeros
    return str ++ List.replicate (stringLength - str.length) 48

end Quicup.Ueransim
