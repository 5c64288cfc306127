import Quicup.Core.Cursor
import Quicup.Core.Memory

/-!
# Blocks of TLVs

`ogs-tlv.c`: a block of TLVs is taken apart into nodes of a pool. The size of a header depends
on the mode, and a header is read without a look at how many octets are left. The walk over a
block is compared with the whole TLVs that the block is made of.
-/

namespace Quicup.Open5gs

open Fallible Memory

/-- `OGS_TLV_MODE_T1_L1` and the other modes. -/
inductive TlvMode
  | t1L1 | t1L2 | t1L2I1 | t2L2 | t1
  deriving DecidableEq

/-- What a parser stores of `ogs_tlv_t`. `value` is a place in memory. -/
structure Tlv where
  type : Nat
  length : Nat
  inst : Nat := 0
  value : Nat
  deriving DecidableEq

/-! ## The functions -/

/-- The number written by so many octets from a place on. -/
def loadBE (data : List UInt8) (pos n : Nat) : Except Fault Nat :=
  (load .outOfBounds data pos n).map natBE

/-- `tlv_get_element`, with the place behind the value. -/
def tlvGetElement (data : List UInt8) (blk : Nat) : TlvMode → Except Fault (Tlv × Nat)
  | .t1L1 => do
    let type ← loadBE data blk 1
    let length ← loadBE data (blk + 1) 1
    return ({ type, length, value := blk + 2 }, blk + 2 + length)
  | .t1L2 => do
    let type ← loadBE data blk 1
    let length ← loadBE data (blk + 1) 2
    return ({ type, length, value := blk + 3 }, blk + 3 + length)
  | .t1L2I1 => do
    let type ← loadBE data blk 1
    let length ← loadBE data (blk + 1) 2
    let inst ← loadBE data (blk + 3) 1
    return ({ type, length, inst := inst % 16, value := blk + 4 }, blk + 4 + length)
  | .t2L2 => do
    let type ← loadBE data blk 2
    let length ← loadBE data (blk + 2) 2
    return ({ type, length, value := blk + 4 }, blk + 4 + length)
  | .t1 => do
    let type ← loadBE data blk 1
    return ({ type, length := 0, value := blk + 1 }, blk + 1)

/-- `ogs_tlv_parse_block` from `pos` on with `avail` nodes in the pool: the nodes of the list and
how many are left, or nothing, with all nodes given back. -/
def parseBlockFrom (data : List UInt8) (mode : TlvMode) (stop : Nat) :
    Nat → Nat → Except Fault (Option (List Tlv × Nat))
  | 0, _ => return none
  | avail + 1, pos => do
    let curr ← tlvGetElement data pos mode
    if curr.2 < stop then
      let rest ← parseBlockFrom data mode stop avail curr.2
      return rest.map fun block => (curr.1 :: block.1, block.2)
    else if curr.2 = stop then return some ([curr.1], avail)
    else return none

/-- `ogs_tlv_parse_block` for `length` octets at `blk`. -/
def ogsTlvParseBlock (data : List UInt8) (mode : TlvMode) (avail blk length : Nat) :
    Except Fault (Option (List Tlv × Nat)) :=
  parseBlockFrom data mode (blk + length) avail blk

/-! ## Whole TLVs -/

namespace TlvMode

def typeSize : TlvMode → Nat
  | t2L2 => 2
  | _ => 1

def lengthSize : TlvMode → Nat
  | t1L1 => 1
  | t1L2 => 2
  | t1L2I1 => 2
  | t2L2 => 2
  | t1 => 0

def instSize : TlvMode → Nat
  | t1L2I1 => 1
  | _ => 0

def headerSize (mode : TlvMode) : Nat := mode.typeSize + mode.lengthSize + mode.instSize

def typeOf (mode : TlvMode) (header : List UInt8) : Nat := natBE (header.take mode.typeSize)

def lengthOf (mode : TlvMode) (header : List UInt8) : Nat :=
  natBE ((header.drop mode.typeSize).take mode.lengthSize)

def instOf (mode : TlvMode) (header : List UInt8) : Nat :=
  natBE ((header.drop (mode.typeSize + mode.lengthSize)).take mode.instSize) % 16

theorem headerSize_pos (mode : TlvMode) : 0 < mode.headerSize := by
  cases mode <;> decide

end TlvMode

/-- The header of a TLV in front of the value that it announces. -/
@[ext]
structure WholeTlv (mode : TlvMode) where
  header : List UInt8
  value : List UInt8
  length_header : header.length = mode.headerSize
  length_value : value.length = mode.lengthOf header

namespace WholeTlv

variable {mode : TlvMode} {t t' : WholeTlv mode} {ts ts' : List (WholeTlv mode)}
  {rest rest' : List UInt8} {pos : Nat}

def octets (t : WholeTlv mode) : List UInt8 := t.header ++ t.value

/-- The octets of TLVs one behind the other. -/
def concat (ts : List (WholeTlv mode)) : List UInt8 := ts.flatMap octets

/-- The node for a TLV that stands at a place. -/
def node (t : WholeTlv mode) (pos : Nat) : Tlv where
  type := mode.typeOf t.header
  length := mode.lengthOf t.header
  inst := mode.instOf t.header
  value := pos + mode.headerSize

/-- The nodes for TLVs that stand at a place one behind the other. -/
def nodes : Nat → List (WholeTlv mode) → List Tlv
  | _, [] => []
  | pos, t :: ts => t.node pos :: nodes (pos + t.octets.length) ts

@[simp] theorem concat_nil : concat ([] : List (WholeTlv mode)) = [] := List.flatMap_nil

@[simp] theorem concat_cons (t : WholeTlv mode) (ts : List (WholeTlv mode)) :
    concat (t :: ts) = t.octets ++ concat ts := List.flatMap_cons

theorem length_octets (t : WholeTlv mode) :
    t.octets.length = mode.headerSize + mode.lengthOf t.header := by
  rw [octets, List.length_append, t.length_header, t.length_value]

theorem length_octets_pos (t : WholeTlv mode) : 0 < t.octets.length := by
  rw [length_octets]
  exact Nat.add_pos_left mode.headerSize_pos _

theorem concat_ne_nil (t : WholeTlv mode) (ts : List (WholeTlv mode)) : concat (t :: ts) ≠ [] := by
  rw [concat_cons]
  exact List.append_ne_nil_of_left_ne_nil (List.ne_nil_of_length_pos t.length_octets_pos) _

/-- The first TLV of some octets is the only one that they can begin with. -/
theorem octets_append_inj (h : t.octets ++ rest = t'.octets ++ rest') : t = t' ∧ rest = rest' := by
  rw [octets, octets, List.append_assoc, List.append_assoc] at h
  obtain ⟨hheader, h⟩ := List.append_inj h (t.length_header.trans t'.length_header.symm)
  have hlen : t.value.length = t'.value.length := by
    rw [t.length_value, t'.length_value, hheader]
  obtain ⟨hvalue, hrest⟩ := List.append_inj h hlen
  exact ⟨WholeTlv.ext hheader hvalue, hrest⟩

theorem concat_injective (h : concat ts = concat ts') : ts = ts' := by
  induction ts generalizing ts' with
  | nil =>
    cases ts' with
    | nil => rfl
    | cons t' ts' => exact absurd h.symm (concat_ne_nil t' ts')
  | cons t ts ih =>
    cases ts' with
    | nil => exact absurd h (concat_ne_nil t ts)
    | cons t' ts' =>
      rw [concat_cons, concat_cons] at h
      obtain ⟨rfl, htail⟩ := octets_append_inj h
      rw [ih htail]

/-- Octets that are enough for a header and what it announces begin with a TLV. -/
theorem exists_octets {header : List UInt8} (hheader : header.length = mode.headerSize)
    (hlen : mode.lengthOf header ≤ rest.length) :
    ∃ t : WholeTlv mode, t.header = header ∧
      header ++ rest = t.octets ++ rest.drop (mode.lengthOf header) := by
  refine ⟨⟨header, rest.take (mode.lengthOf header), hheader, ?_⟩, rfl, ?_⟩
  · rw [List.length_take, Nat.min_eq_left hlen]
  · rw [octets, List.append_assoc, List.take_append_drop]

/-- Octets are too few for a header, or for what it announces, or begin with a TLV. -/
theorem truncated_or_octets (mode : TlvMode) (s : List UInt8) :
    s.length < mode.headerSize ∨
      (∃ header rest, s = header ++ rest ∧ header.length = mode.headerSize ∧
        rest.length < mode.lengthOf header) ∨
      ∃ (t : WholeTlv mode) (rest : List UInt8), s = t.octets ++ rest := by
  by_cases hheader : s.length < mode.headerSize
  · exact .inl hheader
  have hlen : (s.take mode.headerSize).length = mode.headerSize :=
    List.length_take_of_le (Nat.le_of_not_lt hheader)
  have hs := (List.take_append_drop mode.headerSize s).symm
  generalize s.take mode.headerSize = header at hlen hs
  generalize s.drop mode.headerSize = rest at hs
  by_cases hvalue : rest.length < mode.lengthOf header
  · exact .inr (.inl ⟨header, rest, hs, hlen, hvalue⟩)
  · obtain ⟨t, -, ht⟩ := exists_octets hlen (Nat.le_of_not_lt hvalue)
    exact .inr (.inr ⟨t, _, hs.trans ht⟩)

end WholeTlv

/-! ## Headers -/

section Headers

variable {data pre header post : List UInt8} {mode : TlvMode} {blk n pos : Nat}

theorem loadBE_header {k : Nat} (h : k + n ≤ header.length) :
    loadBE (pre ++ (header ++ post)) (pre.length + k) n =
      .ok (natBE ((header.drop k).take n)) := by
  have hsplit : pre ++ (header ++ post) =
      (pre ++ header.take k) ++ ((header.drop k).take n ++ ((header.drop k).drop n ++ post)) := by
    rw [← List.append_assoc (List.take n _), List.take_append_drop, List.append_assoc,
      ← List.append_assoc (List.take k _), List.take_append_drop]
  have hpos : (pre ++ header.take k).length = pre.length + k := by
    rw [List.length_append, List.length_take, Nat.min_eq_left (by omega)]
  have hlen : ((header.drop k).take n).length = n := by
    rw [List.length_take, List.length_drop, Nat.min_eq_left (by omega)]
  rw [loadBE, hsplit, load_append Fault.outOfBounds _ _ hpos hlen]
  rfl

/-- A header that is all there is read field by field. -/
theorem tlvGetElement_header (pre post : List UInt8) (hheader : header.length = mode.headerSize) :
    tlvGetElement (pre ++ (header ++ post)) pre.length mode =
      .ok ({ type := mode.typeOf header, length := mode.lengthOf header,
             inst := mode.instOf header, value := pre.length + mode.headerSize },
        pre.length + mode.headerSize + mode.lengthOf header) := by
  have hfield {k n : Nat} (h : k + n ≤ mode.headerSize) :
      loadBE (pre ++ (header ++ post)) (pre.length + k) n =
        .ok (natBE ((header.drop k).take n)) := loadBE_header (hheader ▸ h)
  have hfirst {n : Nat} (h : n ≤ mode.headerSize) :
      loadBE (pre ++ (header ++ post)) pre.length n = .ok (natBE (header.take n)) :=
    @hfield 0 n (by omega)
  cases mode with
  | t1L1 =>
    rw [tlvGetElement, hfirst (by decide), ok_bind, hfield (by decide), ok_bind]
    rfl
  | t1L2 =>
    rw [tlvGetElement, hfirst (by decide), ok_bind, hfield (by decide), ok_bind]
    rfl
  | t1L2I1 =>
    rw [tlvGetElement, hfirst (by decide), ok_bind, hfield (by decide), ok_bind,
      hfield (by decide), ok_bind]
    rfl
  | t2L2 =>
    rw [tlvGetElement, hfirst (by decide), ok_bind, hfield (by decide), ok_bind]
    rfl
  | t1 =>
    rw [tlvGetElement, hfirst (by decide), ok_bind]
    rfl

theorem loadBE_of_lt (h : data.length < pos + n) : loadBE data pos n = .error .outOfBounds := by
  rw [loadBE, load_of_lt (Nat.not_le_of_lt h)]
  rfl

theorem loadBE_bind_error {α : Type} {rest : Nat → Except Fault α}
    (h : ∀ x, rest x = .error .outOfBounds) :
    (loadBE data pos n >>= rest) = .error .outOfBounds := by
  by_cases hinside : pos + n ≤ data.length
  · rw [loadBE, load, if_pos hinside]
    exact h _
  · rw [loadBE_of_lt (Nat.lt_of_not_le hinside)]
    rfl

/-- A header that the octets end in is read beyond them. -/
theorem tlvGetElement_truncated (h : data.length < blk + mode.headerSize) :
    tlvGetElement data blk mode = .error .outOfBounds := by
  have hlast {α : Type} {pos n : Nat} {rest : Nat → Except Fault α}
      (hsize : blk + mode.headerSize = pos + n) :
      (loadBE data pos n >>= rest) = .error .outOfBounds := by
    rw [loadBE_of_lt (hsize ▸ h)]
    rfl
  cases mode with
  | t1L1 => exact loadBE_bind_error fun _ => hlast rfl
  | t1L2 => exact loadBE_bind_error fun _ => hlast rfl
  | t1L2I1 => exact loadBE_bind_error fun _ => loadBE_bind_error fun _ => hlast rfl
  | t2L2 => exact loadBE_bind_error fun _ => hlast rfl
  | t1 => exact hlast rfl

end Headers

/-! ## Blocks -/

section Blocks

variable {data pre s post rest : List UInt8} {mode : TlvMode} {avail pos stop : Nat}
  {es : List Tlv}

open WholeTlv

theorem tlvGetElement_octets (pre post : List UInt8) (t : WholeTlv mode) :
    tlvGetElement (pre ++ (t.octets ++ post)) pre.length mode =
      .ok (t.node pre.length, pre.length + t.octets.length) := by
  rw [octets, List.append_assoc, tlvGetElement_header _ _ t.length_header]
  rw [← octets, length_octets, Nat.add_assoc]
  rfl

/-- What whole TLVs with a node for each are taken apart into, whatever stands behind them. -/
theorem parseBlockFrom_concat (pre post : List UInt8) {ts : List (WholeTlv mode)} (hts : ts ≠ [])
    (hroom : ts.length ≤ avail) :
    parseBlockFrom (pre ++ (concat ts ++ post)) mode (pre.length + (concat ts).length) avail
        pre.length = .ok (some (nodes pre.length ts, avail - ts.length)) := by
  induction ts generalizing pre avail with
  | nil => exact absurd rfl hts
  | cons t ts ih =>
    obtain ⟨avail, rfl⟩ := Nat.exists_eq_add_one.mpr (Nat.zero_lt_of_lt hroom)
    rw [parseBlockFrom, concat_cons, List.append_assoc, tlvGetElement_octets, ok_bind,
      List.length_append]
    cases ts with
    | nil =>
      rw [if_neg (by simp), if_pos (by simp)]
      rfl
    | cons t' ts =>
      have hpos := List.length_pos_of_ne_nil (concat_ne_nil t' ts)
      have hih := ih (pre ++ t.octets) (List.cons_ne_nil t' ts) (Nat.le_of_succ_le_succ hroom)
      rw [List.length_append, List.append_assoc, Nat.add_assoc] at hih
      rw [if_pos (by omega), hih, ok_bind, show avail + 1 - (t :: t' :: ts).length =
        avail - (t' :: ts).length from Nat.add_sub_add_right _ 1 _]
      rfl

/-- A TLV that announces more than there is ends the walk. -/
theorem parseBlockFrom_announced {header : List UInt8} (hheader : header.length = mode.headerSize)
    (hlen : rest.length < mode.lengthOf header) (hstop : stop ≤ (pre ++ (header ++ rest)).length) :
    parseBlockFrom (pre ++ (header ++ rest)) mode stop (avail + 1) pre.length = .ok none := by
  rw [List.length_append, List.length_append] at hstop
  rw [parseBlockFrom, tlvGetElement_header _ _ hheader, ok_bind, if_neg (by omega),
    if_neg (by omega)]
  rfl

/-- What is taken apart are whole TLVs. -/
theorem exists_concat_of_parseBlockFrom {left : Nat} (hstop : stop ≤ (pre ++ s).length)
    (h : parseBlockFrom (pre ++ s) mode stop avail pre.length = .ok (some (es, left))) :
    ∃ (ts : List (WholeTlv mode)) (post : List UInt8), ts ≠ [] ∧ s = concat ts ++ post ∧
      stop = pre.length + (concat ts).length ∧ ts.length ≤ avail := by
  induction avail generalizing pre s es left with
  | zero => exact absurd (Except.ok.inj h).symm (Option.some_ne_none _)
  | succ avail ih =>
    rcases truncated_or_octets mode s with hheader | ⟨header, rest, rfl, hheader, hlen⟩ |
      ⟨t, rest, rfl⟩
    · rw [parseBlockFrom, tlvGetElement_truncated (by simpa using hheader)] at h
      cases h
    · rw [parseBlockFrom_announced hheader hlen hstop] at h
      exact absurd (Except.ok.inj h).symm (Option.some_ne_none _)
    · rw [parseBlockFrom, tlvGetElement_octets, ok_bind] at h
      split_ifs at h with hmore hend
      · obtain ⟨block, hrest, hblock⟩ := bind_eq_ok.mp h
        obtain ⟨⟨root, left⟩, rfl, -⟩ := Option.map_eq_some_iff.mp (Except.ok.inj hblock)
        rw [← List.append_assoc] at hrest hstop
        obtain ⟨ts, post, -, rfl, hts, hroom⟩ := @ih (pre ++ t.octets) _ _ _ hstop
          (by rw [List.length_append]; exact hrest)
        refine ⟨t :: ts, post, List.cons_ne_nil t ts, ?_, ?_, Nat.succ_le_succ hroom⟩
        · rw [concat_cons, List.append_assoc]
        · rw [hts, concat_cons, List.length_append, List.length_append, Nat.add_assoc]
      · refine ⟨[t], rest, List.cons_ne_nil t [], ?_, ?_, Nat.succ_le_succ (Nat.zero_le _)⟩
        · rw [concat_cons, concat_nil, List.append_nil]
        · rw [concat_cons, concat_nil, List.append_nil]
          exact hend.symm
      · exact absurd (Except.ok.inj h).symm (Option.some_ne_none _)

/-- A block is taken apart just if whole TLVs end where it ends and each of them gets a node. -/
theorem parseBlockFrom_eq_some_iff {left : Nat} (hstop : stop ≤ (pre ++ s).length) :
    parseBlockFrom (pre ++ s) mode stop avail pre.length = .ok (some (es, left)) ↔
      ∃ (ts : List (WholeTlv mode)) (post : List UInt8), ts ≠ [] ∧ s = concat ts ++ post ∧
        stop = pre.length + (concat ts).length ∧ ts.length ≤ avail ∧ es = nodes pre.length ts ∧
        left = avail - ts.length := by
  constructor
  · intro h
    obtain ⟨ts, post, hts, rfl, rfl, hroom⟩ := exists_concat_of_parseBlockFrom hstop h
    rw [parseBlockFrom_concat pre post hts hroom] at h
    obtain ⟨rfl, rfl⟩ := Prod.mk.inj (Option.some.inj (Except.ok.inj h))
    exact ⟨ts, post, hts, rfl, rfl, hroom, rfl, rfl⟩
  · rintro ⟨ts, post, hts, rfl, rfl, hroom, rfl, rfl⟩
    exact parseBlockFrom_concat pre post hts hroom

/-- Whatever whole TLVs stand in front, what is left of the octets when a node is left has room
for the header that is read next. -/
def TlvHeadersInside (mode : TlvMode) (avail : Nat) (s : List UInt8) : Prop :=
  ∀ (ts : List (WholeTlv mode)) (rest : List UInt8), s = concat ts ++ rest → ts.length < avail →
    (ts = [] ∨ rest ≠ []) → mode.headerSize ≤ rest.length

theorem headersInside_octets {t : WholeTlv mode} (hrest : rest ≠ []) :
    TlvHeadersInside mode (avail + 1) (t.octets ++ rest) ↔ TlvHeadersInside mode avail rest := by
  constructor
  · intro h ts post hpost hroom hread
    refine h (t :: ts) post ?_ (Nat.succ_lt_succ hroom) (.inr fun hnil => ?_)
    · rw [hpost, concat_cons, List.append_assoc]
    · subst hnil
      rw [hpost, hread.resolve_right (fun h => h rfl)] at hrest
      exact hrest rfl
  · intro h ts post hpost hroom hread
    cases ts with
    | nil =>
      rw [concat_nil, List.nil_append] at hpost
      rw [← hpost, List.length_append, length_octets]
      omega
    | cons t' ts =>
      rw [concat_cons, List.append_assoc] at hpost
      obtain ⟨-, rfl⟩ := octets_append_inj hpost
      refine h ts post rfl (Nat.lt_of_succ_lt_succ hroom) ?_
      exact .inr (hread.resolve_left (List.cons_ne_nil t' ts))

/-- A walk over all octets that there are reads none beyond them just if it finds the headers
inside. -/
theorem returns_parseBlockFrom_iff :
    Returns (parseBlockFrom (pre ++ s) mode (pre ++ s).length avail pre.length) ↔
      TlvHeadersInside mode avail s := by
  induction avail generalizing pre s with
  | zero =>
    refine iff_of_true ⟨none, rfl⟩ fun ts rest _ hroom => ?_
    exact absurd hroom (Nat.not_lt_zero _)
  | succ avail ih =>
    rcases truncated_or_octets mode s with hheader | ⟨header, rest, rfl, hheader, hlen⟩ |
      ⟨t, rest, rfl⟩
    · rw [parseBlockFrom, tlvGetElement_truncated (by simpa using hheader)]
      refine iff_of_false (not_returns_error _) fun h => ?_
      exact absurd (h [] s rfl (Nat.succ_pos avail) (.inl rfl)) (Nat.not_le_of_lt hheader)
    · rw [parseBlockFrom_announced hheader hlen (Nat.le_refl _)]
      refine iff_of_true (returns_ok _) fun ts post hpost _ _ => ?_
      cases ts with
      | nil =>
        rw [concat_nil, List.nil_append] at hpost
        rw [← hpost, List.length_append, hheader]
        exact Nat.le_add_right _ _
      | cons t ts =>
        rw [concat_cons, List.append_assoc, octets, List.append_assoc] at hpost
        obtain ⟨rfl, rfl⟩ := List.append_inj hpost (hheader.trans t.length_header.symm)
        rw [List.length_append, t.length_value] at hlen
        omega
    · rw [parseBlockFrom, tlvGetElement_octets, ok_bind]
      by_cases hrest : rest = []
      · subst hrest
        rw [List.append_nil, List.length_append, if_neg (Nat.lt_irrefl _), if_pos rfl]
        refine iff_of_true (returns_pure _) fun ts post hpost _ hread => ?_
        cases ts with
        | nil =>
          rw [concat_nil, List.nil_append] at hpost
          rw [← hpost, length_octets]
          exact Nat.le_add_right _ _
        | cons t' ts =>
          rw [← List.append_nil t.octets, concat_cons, List.append_assoc] at hpost
          obtain ⟨-, hnil⟩ := octets_append_inj hpost
          exact absurd (List.append_eq_nil_iff.mp hnil.symm).2
            (hread.resolve_left (List.cons_ne_nil t' ts))
      · have hpos := List.length_pos_of_ne_nil hrest
        have hih := @ih (pre ++ t.octets) rest
        rw [List.append_assoc, @List.length_append _ pre t.octets] at hih
        rw [if_pos (by simp only [List.length_append]; omega), headersInside_octets hrest, ← hih,
          returns_bind]
        exact ⟨fun ⟨block, hblock, _⟩ => ⟨block, hblock⟩,
          fun ⟨block, hblock⟩ => ⟨block, hblock, returns_pure _⟩⟩

/-- A block that is read inside its octets, and given exactly when these are whole TLVs. -/
def BlockExact (mode : TlvMode) (avail : Nat) (data : List UInt8) : Prop :=
  ∃ found, ogsTlvParseBlock data mode avail 0 data.length = .ok found ∧
    ∀ root, found.map Prod.fst = some root ↔
      ∃ ts : List (WholeTlv mode), data = concat ts ∧ root = nodes 0 ts

/-- There are octets, a node for each TLV when these are whole, and room for each header that is
read when they are not. -/
def BlockFits (mode : TlvMode) (avail : Nat) (data : List UInt8) : Prop :=
  ∀ (ts : List (WholeTlv mode)) (rest : List UInt8), data = concat ts ++ rest →
    if rest = [] then ts ≠ [] ∧ ts.length ≤ avail
    else ts.length < avail → mode.headerSize ≤ rest.length

/-- The whole string as a block. -/
theorem ogsTlvParseBlock_eq_some_iff {left : Nat} :
    ogsTlvParseBlock data mode avail 0 data.length = .ok (some (es, left)) ↔
      ∃ ts : List (WholeTlv mode), ts ≠ [] ∧ data = concat ts ∧ ts.length ≤ avail ∧
        es = nodes 0 ts ∧ left = avail - ts.length := by
  have hblock := @parseBlockFrom_eq_some_iff [] data mode avail data.length es left (Nat.le_refl _)
  rw [ogsTlvParseBlock, Nat.zero_add]
  refine hblock.trans ⟨?_, ?_⟩
  · rintro ⟨ts, post, hts, hdata, hlen, hroom, hes, hleft⟩
    have hpost := congrArg List.length hdata
    rw [List.length_append] at hpost
    rw [List.length_nil, Nat.zero_add] at hlen
    rw [List.length_eq_zero_iff.mp (Nat.left_eq_add.mp (hlen.symm.trans hpost)),
      List.append_nil] at hdata
    exact ⟨ts, hts, hdata, hroom, hes, hleft⟩
  · rintro ⟨ts, hts, hdata, hroom, hes, hleft⟩
    refine ⟨ts, [], hts, ?_, ?_, hroom, hes, hleft⟩
    · rw [hdata, List.append_nil]
    · rw [hdata, List.length_nil, Nat.zero_add]

theorem blockExact_iff : BlockExact mode avail data ↔ BlockFits mode avail data := by
  have hreturns : Returns (ogsTlvParseBlock data mode avail 0 data.length) ↔
      TlvHeadersInside mode avail data := by
    rw [ogsTlvParseBlock, Nat.zero_add]
    exact @returns_parseBlockFrom_iff [] data mode avail
  constructor
  · rintro ⟨found, hfound, hroot⟩ ts rest hdata
    split_ifs with hrest
    · rw [hrest, List.append_nil] at hdata
      obtain ⟨⟨root, left⟩, rfl, hts⟩ :=
        Option.map_eq_some_iff.mp ((hroot (nodes 0 ts)).mpr ⟨ts, hdata, rfl⟩)
      obtain ⟨ts', hne, hdata', hroom, -, -⟩ := ogsTlvParseBlock_eq_some_iff.mp hfound
      rw [concat_injective (hdata.symm.trans hdata')]
      exact ⟨hne, hroom⟩
    · exact fun hroom => hreturns.mp ⟨found, hfound⟩ ts rest hdata hroom (.inr hrest)
  · intro h
    have hinside : TlvHeadersInside mode avail data := by
      intro ts rest hdata hroom hread
      have hts := h ts rest hdata
      split_ifs at hts with hrest
      · exact absurd hrest (hread.resolve_left hts.1)
      · exact hts hroom
    obtain ⟨found, hfound⟩ := hreturns.mpr hinside
    refine ⟨found, hfound, fun root => ⟨fun hroot => ?_, ?_⟩⟩
    · obtain ⟨⟨root, left⟩, rfl, rfl⟩ := Option.map_eq_some_iff.mp hroot
      obtain ⟨ts, -, hdata, -, hroot, -⟩ := ogsTlvParseBlock_eq_some_iff.mp hfound
      exact ⟨ts, hdata, hroot⟩
    · rintro ⟨ts, hdata, rfl⟩
      have hts := h ts [] (by rw [hdata, List.append_nil])
      rw [if_pos rfl] at hts
      rw [ogsTlvParseBlock_eq_some_iff.mpr ⟨ts, hts.1, hdata, hts.2, rfl, rfl⟩] at hfound
      rw [← Except.ok.inj hfound]
      rfl

end Blocks

end Quicup.Open5gs
