import Quicup.Open5gs.Core.Tlv

/-!
# Messages made of TLVs

The parsers of `ogs-tlv-msg.c`: the nodes of a block go to the structures of the IEs that a
descriptor names, one level of the descriptor at a time. A message in memory is taken as the
structures at their offsets.
-/

namespace Quicup.Open5gs

open Fallible Memory

/-- `ogs_tlv_type_e` -/
inductive TlvType
  | uint8 | uint16 | uint24 | uint32 | int8 | int16 | int24 | int32
  | fixedStr | varStr | null | more | compound | message
  | tvUint8 | tvUint16 | tvUint24 | tvUint32 | tvInt8 | tvInt16 | tvInt24 | tvInt32
  | tvFixedStr | tvVarStr | tvNull | tvMore
  deriving DecidableEq

/-- The cases of `tlv_add_leaf` and `tlv_parse_leaf`. -/
inductive LeafFormat
  | integer (width : Nat) | fixedStr | varStr | null | unknown
  deriving DecidableEq

namespace TlvType

def format : TlvType → LeafFormat
  | uint8 | int8 | tvUint8 | tvInt8 => .integer 1
  | uint16 | int16 | tvUint16 | tvInt16 => .integer 2
  | uint24 | int24 | tvUint24 | tvInt24 => .integer 3
  | uint32 | int32 | tvUint32 | tvInt32 => .integer 4
  | fixedStr | tvFixedStr => .fixedStr
  | varStr => .varStr
  | null | tvNull => .null
  | more | compound | message | tvVarStr | tvMore => .unknown

/-- `tlv_ctype2mode` -/
def mode (msgMode : TlvMode) : TlvType → TlvMode
  | tvUint8 | tvUint16 | tvUint24 | tvUint32 | tvInt8 | tvInt16 | tvInt24 | tvInt32
  | tvFixedStr | tvVarStr | tvNull | tvMore => .t1
  | _ => msgMode

end TlvType

/-- `ogs_tlv_desc_t` -/
inductive TlvDesc
  | mk (ctype : TlvType) (type length inst vsize : Nat) (childDescs : List TlvDesc)

namespace TlvDesc

def ctype : TlvDesc → TlvType
  | mk ctype _ _ _ _ _ => ctype

def type : TlvDesc → Nat
  | mk _ type _ _ _ _ => type

def length : TlvDesc → Nat
  | mk _ _ length _ _ _ => length

def inst : TlvDesc → Nat
  | mk _ _ _ inst _ _ => inst

def vsize : TlvDesc → Nat
  | mk _ _ _ _ vsize _ => vsize

def childDescs : TlvDesc → List TlvDesc
  | mk _ _ _ _ _ childDescs => childDescs

end TlvDesc

/-- The structure of an IE: `presence`, and what the structures for numbers and octets have
behind it. `data` is taken as the octets that it points to. -/
structure TlvIe where
  presence : Nat := 0
  number : Nat := 0
  data : Option (List UInt8) := none
  len : Nat := 0
  deriving DecidableEq

/-- The structures of a message at their offsets. -/
abbrev TlvMsg : Type := Nat → TlvIe

/-! ## Leaves -/

/-- `tlv_parse_leaf`, with the structure behind it, or nothing for `OGS_ERROR`. -/
def tlvParseLeaf (data : List UInt8) (desc : TlvDesc) (tlv : Tlv) (v : TlvIe) :
    Except Fault (Option TlvIe) :=
  match desc.ctype.format with
  | .integer width =>
    if tlv.length < 1 ∨ width < tlv.length then return none
    else do
      let number ← loadBE data tlv.value width
      return some { v with number }
  | .fixedStr =>
    if tlv.length ≠ desc.length then return none
    else return some { v with
      data := some ((data.drop tlv.value).take tlv.length), len := tlv.length }
  | .varStr =>
    return some { v with data := some ((data.drop tlv.value).take tlv.length), len := tlv.length }
  | .null => if tlv.length ≠ 0 then return none else return some v
  | .unknown => return none

/-- The node of a leaf stands for its own octets in any memory: what is decoded does not depend
on the octets around them. -/
def LeafDependsOnValue (desc : TlvDesc) (value : List UInt8) : Prop :=
  ∀ (pre post pre' post' : List UInt8) (type inst : Nat) (v : TlvIe),
    tlvParseLeaf (pre ++ (value ++ post)) desc ⟨type, value.length, inst, pre.length⟩ v =
      tlvParseLeaf (pre' ++ (value ++ post')) desc ⟨type, value.length, inst, pre'.length⟩ v

/-- A number with fewer octets than its type, and one at least. -/
def TlvDesc.IsShort (desc : TlvDesc) (length : Nat) : Prop :=
  ∃ width, desc.ctype.format = .integer width ∧ 1 ≤ length ∧ length < width

theorem loadBE_append (pre xs post : List UInt8) :
    loadBE (pre ++ (xs ++ post)) pre.length xs.length = .ok (natBE xs) := by
  rw [loadBE, load_append Fault.outOfBounds xs post rfl rfl]
  rfl

theorem value_append (pre xs post : List UInt8) :
    ((pre ++ (xs ++ post)).drop pre.length).take xs.length = xs := by
  rw [List.drop_left' rfl, List.take_left' rfl]

variable {desc : TlvDesc} {value : List UInt8}

/-- What is decoded of a leaf that is not short, wherever it stands. -/
theorem tlvParseLeaf_append {type inst : Nat} {v : TlvIe} (h : ¬desc.IsShort value.length)
    (pre post : List UInt8) :
    tlvParseLeaf (pre ++ (value ++ post)) desc ⟨type, value.length, inst, pre.length⟩ v =
      tlvParseLeaf value desc ⟨type, value.length, inst, 0⟩ v := by
  have hloaded := value_append pre value post
  have hown : (value.drop 0).take value.length = value := by
    rw [List.drop_zero, List.take_length]
  rw [tlvParseLeaf, tlvParseLeaf]
  cases hformat : desc.ctype.format with
  | integer width =>
    simp only
    by_cases hlen : value.length < 1 ∨ width < value.length
    · rw [if_pos hlen, if_pos hlen]
    · have hwidth : value.length = width := by
        by_contra hne
        exact h ⟨width, hformat, by omega, by omega⟩
      have hown := loadBE_append [] value []
      rw [List.nil_append, List.append_nil, List.length_nil] at hown
      rw [if_neg hlen, if_neg hlen, ← hwidth, loadBE_append, hown]
  | fixedStr =>
    simp only [hloaded, hown]
  | varStr =>
    simp only [hloaded, hown]
  | null => rfl
  | unknown => rfl

theorem leafDependsOnValue_iff : LeafDependsOnValue desc value ↔ ¬desc.IsShort value.length := by
  constructor
  · rintro h ⟨width, hformat, hpos, hwidth⟩
    have hlen (x : UInt8) : (value ++ List.replicate (width - value.length) x).length = width := by
      rw [List.length_append, List.length_replicate]
      omega
    have hrun (x : UInt8) : tlvParseLeaf (value ++ List.replicate (width - value.length) x) desc
        ⟨0, value.length, 0, 0⟩ {} =
          .ok (some { number := natBE (value ++ List.replicate (width - value.length) x) }) := by
      have hload := loadBE_append [] (value ++ List.replicate (width - value.length) x) []
      rw [hlen, List.nil_append, List.append_nil, List.length_nil] at hload
      rw [tlvParseLeaf, hformat]
      simp only
      rw [if_neg (by omega), hload]
      rfl
    have hsame := h [] (List.replicate (width - value.length) 0) []
      (List.replicate (width - value.length) 1) 0 0 {}
    rw [List.nil_append, List.nil_append, List.length_nil, hrun, hrun] at hsame
    have hnumber := congrArg TlvIe.number (Option.some.inj (Except.ok.inj hsame))
    have hoctets := congrArg (octetsBE width) hnumber
    have hback (x : UInt8) : octetsBE width
        (natBE (value ++ List.replicate (width - value.length) x)) =
          value ++ List.replicate (width - value.length) x := by
      have hback := octetsBE_natBE (value ++ List.replicate (width - value.length) x)
      rwa [hlen] at hback
    rw [hback, hback] at hoctets
    have hreplicate := List.append_cancel_left hoctets
    have hne : width - value.length ≠ 0 := by omega
    exact absurd ((List.replicate_inj.mp hreplicate).2.resolve_left hne) (by decide)
  · intro h pre post pre' post' type inst v
    rw [tlvParseLeaf_append h, tlvParseLeaf_append h]

/-- A block is exact just if it fits, and a leaf stands for itself just if it is not short. -/
theorem tlv_parse_exact_iff (mode : TlvMode) (avail : Nat) (data : List UInt8) (desc : TlvDesc)
    (value : List UInt8) :
    (BlockExact mode avail data ↔ BlockFits mode avail data) ∧
      (LeafDependsOnValue desc value ↔ ¬desc.IsShort value.length) :=
  ⟨blockExact_iff, leafDependsOnValue_iff⟩

/-- Two octets of a header of four, and a number of two octets that comes with one. -/
theorem not_tlv_parse_exact : ¬BlockExact .t1L2I1 512 [1, 0] ∧
    ¬LeafDependsOnValue (.mk .uint16 87 2 0 16 []) [1] := by
  constructor
  · rintro ⟨found, hfound, -⟩
    cases hfound
  · rw [leafDependsOnValue_iff, not_not]
    exact ⟨2, rfl, by decide, by decide⟩

end Quicup.Open5gs
