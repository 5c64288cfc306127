import Quicup.Ueransim.Rlc.Utils

/-!
# UMD PDUs

The parameters of an UM entity, and how `encoder.cpp` writes and reads its PDUs. The sequence
number that is read stands one octet behind the one that was written.
-/

namespace Quicup.Ueransim.Rlc

/-- The parameters of an UM entity. -/
structure UmConfig where
  snLength : Nat
  txMaxSize : Nat
  rxMaxSize : Nat
  reassemblyPeriod : Int
  snLength_eq : snLength = 6 ∨ snLength = 12

namespace UmConfig

def snModulus (c : UmConfig) : Int := 2 ^ c.snLength

def windowSize (c : UmConfig) : Int := c.snModulus / 2

def isShortSn (c : UmConfig) : Bool := c.snLength = 6

theorem snModulus_eq (c : UmConfig) : c.snModulus = 2 * c.windowSize := by
  rcases c.snLength_eq with h | h <;> simp [windowSize, snModulus, h]

theorem two_lt_windowSize (c : UmConfig) : 2 < c.windowSize := by
  rcases c.snLength_eq with h | h <;> simp [windowSize, snModulus, h]

theorem snModulus_pos (c : UmConfig) : 0 < c.snModulus := by
  have := c.snModulus_eq
  have := c.two_lt_windowSize
  omega

end UmConfig

/-- An UMD PDU is a received PDU that has no poll bit. -/
abbrev UmdPdu := AmdPdu

namespace ESegmentInfo

def value : ESegmentInfo → Nat
  | full   => 0
  | first  => 1
  | last   => 2
  | middle => 3

def ofBits : Nat → ESegmentInfo
  | 0 => full
  | 1 => first
  | 2 => last
  | _ => middle

@[simp] theorem ofBits_value (si : ESegmentInfo) : ofBits si.value = si := by
  cases si <;> rfl

theorem value_lt (si : ESegmentInfo) : si.value < 4 := by
  cases si <;> decide

end ESegmentInfo

def umdPduHeaderSize (snLength : Nat) : ESegmentInfo → Nat
  | .full  => 1
  | .first => if snLength = 6 then 1 else 2
  | _      => if snLength = 6 then 3 else 4

/-- The first octet: the segment information over the high bits of the SN. -/
def umdOctet0 (isShortSn : Bool) (si : ESegmentInfo) (sn : Int) : UInt8 :=
  let octet0 := si.value <<< 6
  UInt8.ofNat <|
    if si ≠ .full then
      if isShortSn then octet0 ||| (sn.toNat &&& 0b11111)
      else octet0 ||| ((sn.toNat >>> 8) &&& 0b111)
    else octet0

/-- The SN is not negative. -/
def encodeUmd (isShortSn : Bool) (si : ESegmentInfo) (so : Nat) (sn : Int) (data : OctetString) :
    OctetString :=
  let octets := [umdOctet0 isShortSn si sn]
  let octets :=
    if si ≠ .full ∧ ¬ isShortSn then octets ++ [UInt8.ofNat (sn.toNat &&& 0xff)] else octets
  let octets :=
    if si.requiresSo then octets ++ [UInt8.ofNat (so >>> 8), UInt8.ofNat so] else octets
  octets ++ data

/-- One octet of the received data. -/
def octetAt (data : OctetString) (index : Nat) : Except Fault UInt8 :=
  match data[index]? with
  | some octet => .ok octet
  | none => .error .outOfBounds

/-- The sequence number, and the index behind it. -/
def decodeUmdSn (isShortSn : Bool) (data : OctetString) : Except Fault (Nat × Nat) :=
  if isShortSn then do
    let octet ← octetAt data 1
    return (bitRange8 0 5 octet, 1)
  else do
    let high ← octetAt data 1
    let low ← octetAt data 2
    return (bitRange8 0 3 high <<< 8 ||| bitRange8 0 7 low, 2)

/-- The segment offset, where there is one, and the index behind it. -/
def decodeUmdSo (si : ESegmentInfo) (data : OctetString) (index : Nat) :
    Except Fault (Nat × Nat) :=
  if si.requiresSo then do
    let high ← octetAt data index
    let low ← octetAt data (index + 1)
    return (high.toNat <<< 8 ||| low.toNat, index + 2)
  else .ok (0, index)

def decodeUmd (isShortSn : Bool) (data : OctetString) : Except Fault UmdPdu := do
  let octet0 ← octetAt data 0
  let si := ESegmentInfo.ofBits (bitRange8 6 7 octet0)
  if si = .full then
    return { si, so := 0, sn := 0, data := data.drop 1 }
  else
    let (sn, index) ← decodeUmdSn isShortSn data
    let (so, index) ← decodeUmdSo si data index
    return { si, so, sn, data := data.drop index }

/-- The octets behind the header, whose size the first octet tells. -/
def umdDataField (snLength : Nat) (pdu : OctetString) : OctetString :=
  pdu.drop (umdPduHeaderSize snLength (.ofBits (bitRange8 6 7 (pdu.headD 0))))

theorem bitRange8_umdOctet0 (isShortSn : Bool) (si : ESegmentInfo) (sn : Int) :
    bitRange8 6 7 (umdOctet0 isShortSn si sn) = si.value := by
  have hlow (n : Nat) (m : Nat) (hm : m ≤ 63) :
      ((si.value <<< 6) ||| (n &&& m)) / 64 % 4 = si.value := by
    have hlt : n &&& m < 2 ^ 6 := by
      have := @Nat.and_le_right n m
      omega
    rw [← Nat.shiftLeft_add_eq_or_of_lt hlt, Nat.shiftLeft_eq]
    have := si.value_lt
    omega
  have hoctet (n : Nat) : n % 256 / 64 % 4 = n / 64 % 4 := by omega
  rw [bitRange8_eq, umdOctet0, UInt8.toNat_ofNat']
  change _ % 256 / 64 % 4 = _
  rw [hoctet]
  split_ifs
  · exact hlow _ _ (by decide)
  · exact hlow _ _ (by decide)
  · rw [Nat.shiftLeft_eq]
    have := si.value_lt
    omega

variable {snLength : Nat}

theorem length_encodeUmd (si : ESegmentInfo) (so : Nat) (sn : Int) (data : OctetString) :
    (encodeUmd (snLength = 6) si so sn data).length =
      umdPduHeaderSize snLength si + data.length := by
  by_cases h : snLength = 6 <;> cases si <;>
    simp [encodeUmd, umdPduHeaderSize, ESegmentInfo.requiresSo, h] <;> omega

/-- Behind the header stands what was encoded. -/
theorem umdDataField_encodeUmd (si : ESegmentInfo) (so : Nat) (sn : Int) (data : OctetString) :
    umdDataField snLength (encodeUmd (snLength = 6) si so sn data) = data := by
  have hhead : (encodeUmd (snLength = 6) si so sn data).headD 0 =
      umdOctet0 (snLength = 6) si sn := by
    simp only [encodeUmd]
    split_ifs <;> rfl
  rw [umdDataField, hhead, bitRange8_umdOctet0, ESegmentInfo.ofBits_value]
  by_cases h : snLength = 6 <;> cases si <;>
    simp [encodeUmd, umdPduHeaderSize, ESegmentInfo.requiresSo, h]

end Quicup.Ueransim.Rlc
