import Quicup.Core.Memory
import Quicup.Open5gs.Pfcp.DomainName

/-!
# Names in memory

`ogs_fqdn_build` and `ogs_fqdn_parse` with the buffers that they write: the length of a label is
put in front of it when the label has been written, and a zero stands behind a name that has been
read.
-/

namespace Quicup.Open5gs

open Fallible Memory Pfcp

def einval : Int := 22

/-! ## The functions -/

/-- The loop of `ogs_fqdn_build` from octet `i` on, behind `j` octets of a label. -/
def fqdnBuildLoop : List UInt8 → Nat → Nat → List UInt8 → List UInt8
  | [], i, j, dst => dst.set (i - j) (.ofNat j)
  | x :: src, i, j, dst =>
    if x = dot then fqdnBuildLoop src (i + 1) 0 (dst.set (i - j) (.ofNat j))
    else fqdnBuildLoop src (i + 1) (j + 1) (dst.set (i + 1) x)

/-- `ogs_fqdn_build` of a whole name, with what it returns and the buffer behind it. -/
def ogsFqdnBuild (dst src : List UInt8) : Nat × List UInt8 :=
  (src.length + 1, fqdnBuildLoop src 0 0 dst)

/-- The loop of `ogs_fqdn_parse`. -/
def fqdnParseLoop (src : List UInt8) (length : Int) :
    Nat → Nat → Nat → List UInt8 → Except Fault (Int × List UInt8)
  | 0, _, _, _ => .error .hang
  | fuel + 1, i, j, dst =>
    if length < i + 1 then .ok (j, dst)
    else
      match src[i]? with
      | none => .error .outOfBounds
      | some len =>
        let i := i + 1
        if length < j + len.toNat + 1 then .ok (-einval, dst)
        else do
          let label ← load .outOfBounds src i len.toNat
          let dst ← store .outOfBounds dst j label
          let i := i + len.toNat
          let j := j + len.toNat
          if i + 1 < length then
            let dst ← store .outOfBounds dst j [dot]
            fqdnParseLoop src length fuel i (j + 1) dst
          else
            let dst ← store .outOfBounds dst j [0]
            fqdnParseLoop src length fuel i j dst

/-- `ogs_fqdn_parse`, with what it returns and the buffer behind it. -/
def ogsFqdnParse (dst src : List UInt8) (length : Int) : Except Fault (Int × List UInt8) :=
  fqdnParseLoop src length (length.toNat + 1) 0 0 dst

/-! ## Building -/

/-- What the loop writes behind the labels in front of octet `i`, when the octets of a label stand
behind the place of its length. -/
theorem fqdnBuildLoop_eq (src : List UInt8) :
    ∀ (pre label tail : List UInt8) (x : UInt8), dot ∉ label → src.length ≤ tail.length →
      fqdnBuildLoop src (pre.length + label.length) label.length (pre ++ x :: (label ++ tail)) =
        pre ++ (labelOctets ((label ++ src).splitOn dot) ++ tail.drop src.length) := by
  have hset (pre rest : List UInt8) (x y : UInt8) : (pre ++ x :: rest).set pre.length y = pre ++ y :: rest := by
    rw [List.set_append_right _ _ (Nat.le_refl _), Nat.sub_self]
    rfl
  induction src with
  | nil =>
    intro pre label tail x hlabel _
    have hsplit : (label ++ []).splitOn dot = [label] := by
      rw [List.append_nil]
      exact List.splitOn_eq_singleton hlabel
    rw [fqdnBuildLoop, Nat.add_sub_cancel, hset, hsplit]
    simp [labelOctets]
  | cons y src ih =>
    intro pre label tail x hlabel htail
    obtain ⟨t, tail, rfl⟩ := List.exists_cons_of_length_pos (Nat.zero_lt_of_lt htail)
    rw [List.length_cons, List.length_cons] at htail
    rw [fqdnBuildLoop]
    by_cases hdot : y = dot
    · subst hdot
      have hsplit : (label ++ dot :: src).splitOn dot = label :: src.splitOn dot :=
        List.splitOn_append_cons_self_of_not_mem hlabel src
      have hih := ih (pre ++ .ofNat label.length :: label) [] tail t List.not_mem_nil (by omega)
      simp only [List.length_append, List.length_cons, List.length_nil, Nat.add_zero,
        List.nil_append, List.append_assoc, List.cons_append] at hih
      rw [if_pos rfl, Nat.add_sub_cancel, hset, hsplit, labelOctets_cons, Nat.add_assoc]
      simp only [List.cons_append, List.append_assoc, List.length_cons, List.drop_succ_cons]
      exact hih
    · have hwrite : (pre ++ x :: (label ++ t :: tail)).set (pre.length + label.length + 1) y =
          pre ++ x :: ((label ++ [y]) ++ tail) := by
        have h := hset (pre ++ x :: label) tail t y
        simp only [List.append_assoc, List.cons_append, List.length_append, List.length_cons] at h
        rw [Nat.add_assoc, h]
        simp
      have hih := ih pre (label ++ [y]) tail x (by simp [hlabel, Ne.symm hdot]) (by omega)
      rw [List.length_append, List.length_singleton, ← Nat.add_assoc] at hih
      rw [if_neg hdot, hwrite, hih]
      simp

/-- The octets of a name are written from the front of the buffer on. -/
theorem ogsFqdnBuild_eq {dst : List UInt8} (src : List UInt8) (hroom : src.length < dst.length) :
    ogsFqdnBuild dst src = (src.length + 1, fqdnBuild src ++ dst.drop (src.length + 1)) := by
  obtain ⟨x, tail, rfl⟩ := List.exists_cons_of_length_pos (Nat.zero_lt_of_lt hroom)
  have h := fqdnBuildLoop_eq src [] [] tail x List.not_mem_nil (Nat.le_of_lt_succ hroom)
  exact Prod.ext rfl h

/-! ## Parsing -/

/-- A pass of the loop stores what `fqdnParseFrom` puts behind the name, and ends it with a zero
where no octet is left. -/
theorem fqdnParseLoop_refines (src : List UInt8) (length fuel : Nat) :
    ∀ (i : Nat) (name rest : List UInt8), length ≤ i + fuel → length ≤ name.length + rest.length →
      (length < i + 1 → name = [] ∨ rest.head? = some 0) →
      match fqdnParseFrom src length fuel i name with
      | .error fault =>
        fqdnParseLoop src length (fuel + 1) i name.length (name ++ rest) = .error fault
      | .ok none => ∃ dst,
        fqdnParseLoop src length (fuel + 1) i name.length (name ++ rest) = .ok (-einval, dst) ∧
          dst.length = name.length + rest.length
      | .ok (some found) => ∃ behind,
        fqdnParseLoop src length (fuel + 1) i name.length (name ++ rest) =
            .ok (found.length, found ++ behind) ∧
          found.length + behind.length = name.length + rest.length ∧
          (found = [] ∨ behind.head? = some 0) := by
  induction fuel with
  | zero =>
    intro i name rest hfuel _ hend
    have hlt : length < i + 1 := by omega
    rw [fqdnParseFrom, fqdnParseLoop, if_pos (by omega)]
    exact ⟨rest, rfl, rfl, hend hlt⟩
  | succ fuel ih =>
    intro i name rest hfuel hroom hend
    rw [fqdnParseFrom, fqdnParseLoop]
    by_cases hlt : length < i + 1
    · rw [if_pos hlt, if_pos (by omega)]
      exact ⟨rest, rfl, rfl, hend hlt⟩
    rw [if_neg hlt, if_neg (by omega)]
    cases hlen : src[i]? with
    | none => rfl
    | some len =>
      simp only
      by_cases hlong : length < name.length + len.toNat + 1
      · have hlong' : (length : Int) < name.length + len.toNat + 1 := by omega
        rw [if_pos hlong, if_pos hlong']
        exact ⟨name ++ rest, rfl, List.length_append⟩
      have hlong' : ¬(length : Int) < name.length + len.toNat + 1 := by omega
      rw [if_neg hlong, if_neg hlong']
      by_cases hsrc : src.length < i + 1 + len.toNat
      · have hload : load Fault.outOfBounds src (i + 1) len.toNat = .error .outOfBounds :=
          load_of_lt (by omega)
        rw [if_pos hsrc, hload]
        rfl
      have hload : load Fault.outOfBounds src (i + 1) len.toNat =
          .ok ((src.drop (i + 1)).take len.toNat) := if_pos (by omega)
      rw [if_neg hsrc, hload]
      have hlabel : ((src.drop (i + 1)).take len.toNat).length = len.toNat :=
        List.length_take_of_le (by rw [List.length_drop]; omega)
      generalize (src.drop (i + 1)).take len.toNat = label at hlabel ⊢
      obtain ⟨rest', hstore, hrest⟩ := exists_store Fault.outOfBounds name rest label rfl (by omega)
      rw [ok_bind, hstore, ok_bind, ← List.append_assoc]
      have hlast (x : UInt8) : ∃ rest'', store Fault.outOfBounds ((name ++ label) ++ rest')
          (name.length + len.toNat) [x] = .ok ((name ++ label) ++ ([x] ++ rest'')) ∧
          1 + rest''.length = rest'.length :=
        exists_store Fault.outOfBounds (name ++ label) rest' [x] (by rw [List.length_append, hlabel])
          (by rw [List.length_singleton]; omega)
      by_cases hmore : i + 1 + len.toNat + 1 < length
      · obtain ⟨rest'', hstore', hrest'⟩ := hlast dot
        have hih := ih (i + 1 + len.toNat) (name ++ label ++ [dot]) rest''
          (by omega) (by simp only [List.length_append, List.length_singleton]; omega)
          (fun h => absurd h (by omega))
        have hsize : (name ++ label ++ [dot]).length = name.length + len.toNat + 1 := by
          rw [List.length_append, List.length_append, hlabel, List.length_singleton]
        rw [hsize, List.append_assoc (name ++ label)] at hih
        rw [if_pos hmore, if_pos (by omega), hstore', ok_bind]
        rw [show name.length + rest.length = name.length + len.toNat + 1 + rest''.length by omega]
        exact hih
      · obtain ⟨rest'', hstore', hrest'⟩ := hlast 0
        have hih := ih (i + 1 + len.toNat) (name ++ label) ([0] ++ rest'')
          (by omega) (by simp only [List.length_append, List.length_singleton]; omega)
          (fun _ => .inr rfl)
        have hsize : (name ++ label).length = name.length + len.toNat := by
          rw [List.length_append, hlabel]
        rw [hsize] at hih
        rw [if_neg hmore, if_neg (by omega), hstore', ok_bind]
        rw [show name.length + rest.length = name.length + len.toNat + ([0] ++ rest'').length by
          rw [List.length_append, List.length_singleton]; omega]
        exact hih

/-- An octet behind whole labels says that a last label of one octet follows. -/
def EndsInLength (src : List UInt8) : Prop :=
  ∃ labels : List (List UInt8), labels ≠ [] ∧ (∀ label ∈ labels, label.length < 256) ∧
    src = labelOctets labels ++ [1]

variable {src : List UInt8}

theorem length_of_endsInLength (h : EndsInLength src) : 2 ≤ src.length := by
  obtain ⟨labels, hne, -, rfl⟩ := h
  have hpos := labelOctets_length_pos hne
  rw [List.length_append, List.length_singleton]
  omega

/-- The octets of a label in front of what follows it. -/
theorem endsInLength_append_iff {label : List UInt8} (hlabel : label.length < 256) :
    EndsInLength (.ofNat label.length :: (label ++ src)) ↔ src = [1] ∨ EndsInLength src := by
  constructor
  · rintro ⟨_ | ⟨first, labels⟩, hne, hlabels, hsplit⟩
    · exact absurd rfl hne
    · obtain ⟨hfirst, hrest⟩ := List.forall_mem_cons.mp hlabels
      rw [labelOctets_cons, List.cons_append, List.append_assoc] at hsplit
      obtain ⟨hlength, hsplit⟩ := List.cons.inj hsplit
      have hsame : label.length = first.length := by
        have htoNat := congrArg UInt8.toNat hlength
        rwa [UInt8.toNat_ofNat', UInt8.toNat_ofNat', Nat.mod_eq_of_lt hlabel,
          Nat.mod_eq_of_lt hfirst] at htoNat
      obtain ⟨rfl, rfl⟩ := List.append_inj hsplit hsame
      rcases labels with _ | ⟨next, labels⟩
      · exact .inl rfl
      · exact .inr ⟨next :: labels, List.cons_ne_nil _ _, hrest, rfl⟩
  · rintro (rfl | ⟨labels, -, hlabels, rfl⟩)
    · refine ⟨[label], List.cons_ne_nil _ _, by simpa using hlabel, ?_⟩
      simp [labelOctets]
    · refine ⟨label :: labels, List.cons_ne_nil _ _, ?_, ?_⟩
      · exact List.forall_mem_cons.mpr ⟨hlabel, hlabels⟩
      · rw [labelOctets_cons, List.cons_append, List.append_assoc]

/-- A first label that is longer than the string. -/
theorem not_endsInLength_of_long {len : UInt8} (h : src.length < len.toNat) :
    ¬EndsInLength (len :: src) := by
  rintro ⟨_ | ⟨first, labels⟩, hne, hlabels, hsplit⟩
  · exact hne rfl
  · rw [labelOctets_cons, List.cons_append] at hsplit
    obtain ⟨rfl, rfl⟩ := List.cons.inj hsplit
    rw [UInt8.toNat_ofNat', Nat.mod_eq_of_lt (List.forall_mem_cons.mp hlabels).1] at h
    simp only [List.length_append] at h
    omega

section

variable {pre name : List UInt8}

theorem getElem?_length_append (pre : List UInt8) (x : UInt8) (src : List UInt8) :
    (pre ++ x :: src)[pre.length]? = some x := by
  rw [List.getElem?_append_right (Nat.le_refl _), Nat.sub_self]
  rfl

/-- The last octet, when it is the length of a label. -/
theorem returns_fqdnParseFrom_last {fuel : Nat} (x : UInt8) (hname : name.length + 1 = pre.length) :
    Returns (fqdnParseFrom (pre ++ [x]) (pre.length + 1) (fuel + 1) pre.length name) ↔ x ≠ 1 := by
  have hx : x = 1 ↔ x.toNat = 1 := UInt8.toNat_inj.symm
  rw [fqdnParseFrom, if_neg (by omega), getElem?_length_append, ne_eq, hx]
  simp only [List.length_append, List.length_singleton]
  by_cases hlong : pre.length + 1 < name.length + x.toNat + 1
  · rw [if_pos hlong]
    exact iff_of_true (returns_ok _) (by omega)
  rw [if_neg hlong]
  by_cases hone : pre.length + 1 < pre.length + 1 + x.toNat
  · rw [if_pos hone]
    exact iff_of_false (not_returns_error _) (by omega)
  · have hzero : x.toNat = 0 := by omega
    rw [if_neg hone, hzero, Nat.add_zero, fqdnParseFrom_end]
    exact iff_of_true (returns_ok _) (by omega)

/-- From a label on, with all octets in front of it in the name, the loop reads inside the string
unless it ends in a length. -/
theorem returns_fqdnParseFrom_iff (fuel : Nat) :
    ∀ (pre src name : List UInt8), src.length ≤ fuel → name.length = pre.length →
      (Returns (fqdnParseFrom (pre ++ src) (pre.length + src.length) fuel pre.length name) ↔
        ¬EndsInLength src) := by
  induction fuel with
  | zero =>
    intro pre src name hfuel _
    obtain rfl := List.eq_nil_of_length_eq_zero (Nat.le_zero.mp hfuel)
    refine iff_of_true ?_ fun h => absurd (length_of_endsInLength h) (by decide)
    rw [List.length_nil, Nat.add_zero, fqdnParseFrom_end]
    exact returns_ok _
  | succ fuel ih =>
    intro pre src name hfuel hname
    rcases src with _ | ⟨len, src⟩
    · refine iff_of_true ?_ fun h => absurd (length_of_endsInLength h) (by decide)
      rw [List.length_nil, Nat.add_zero, fqdnParseFrom_end]
      exact returns_ok _
    rw [List.length_cons] at hfuel ⊢
    by_cases hlong : src.length < len.toNat
    · refine iff_of_true ?_ (not_endsInLength_of_long hlong)
      rw [fqdnParseFrom, if_neg (by omega), getElem?_length_append]
      simp only
      rw [if_pos (by omega)]
      exact returns_ok _
    obtain ⟨label, src, rfl, hlabel⟩ : ∃ label rest, src = label ++ rest ∧ label.length = len.toNat :=
      ⟨src.take len.toNat, src.drop len.toNat, (List.take_append_drop ..).symm,
        List.length_take_of_le (Nat.le_of_not_lt hlong)⟩
    obtain rfl : len = .ofNat label.length := by rw [hlabel, UInt8.ofNat_toNat]
    have hlt : label.length < 256 := hlabel ▸ UInt8.toNat_lt _
    rw [List.length_append] at hfuel ⊢
    have hpre : (pre ++ .ofNat label.length :: label).length = pre.length + 1 + label.length := by
      rw [List.length_append, List.length_cons]
      omega
    have hsplit : pre ++ (.ofNat label.length :: (label ++ src)) =
        (pre ++ .ofNat label.length :: label) ++ src := by
      rw [List.append_assoc, List.cons_append]
    have hend : pre.length + (label.length + src.length + 1) =
        (pre ++ .ofNat label.length :: label).length + src.length := by
      omega
    rw [fqdnParseFrom_label fuel hlt hname.le (by omega), endsInLength_append_iff hlt, hsplit, hend,
      ← hpre]
    rcases src with _ | ⟨x, _ | ⟨y, src⟩⟩
    · refine iff_of_true ?_ ?_
      · rw [List.length_nil, Nat.add_zero, fqdnParseFrom_end]
        exact returns_ok _
      · rintro (h | h)
        · exact absurd h (List.cons_ne_nil _ _).symm
        · exact absurd (length_of_endsInLength h) (by decide)
    · obtain ⟨fuel, rfl⟩ : ∃ n, fuel = n + 1 := ⟨fuel - 1, by rw [List.length_singleton] at hfuel; omega⟩
      rw [if_neg (by rw [List.length_singleton]; omega)]
      refine (returns_fqdnParseFrom_last x ?_).trans ?_
      · rw [hpre, List.length_append, hname]
        omega
      · have hshort : ¬EndsInLength [x] := fun h => by simpa using length_of_endsInLength h
        simp [hshort]
    · have hmore : ¬(x :: y :: src = [1]) := by simp
      rw [if_pos (by simp only [List.length_cons]; omega), or_iff_right hmore]
      refine ih _ _ _ (by simp only [List.length_cons] at hfuel ⊢; omega) ?_
      rw [hpre]
      simp only [List.length_append, List.length_singleton, hname]
      omega

end

/-! ## Round trips and bounds -/

/-- A name without a dot at its end, all of whose labels fit, is read back from its octets. -/
def FqdnTrips (name : List UInt8) : Prop :=
  name ≠ [] → name.getLast? ≠ some dot → (∀ label ∈ name.splitOn dot, label.length < 256) →
    ∀ dst dst' : List UInt8, name.length < dst.length → name.length < dst'.length →
      let built := ogsFqdnBuild dst name
      ∃ behind, ogsFqdnParse dst' built.2 built.1 = .ok (name.length, name ++ 0 :: behind)

/-- The octets inside the bound are all that is read, a buffer of as many octets is all that is
written, and where the return value is positive a zero stands there. -/
def FqdnBounded (length : Int) (src : Vector UInt8 length.toNat) : Prop :=
  ∀ dst : Vector UInt8 length.toNat, ∃ n dst',
    ogsFqdnParse dst.toList src.toList length = .ok (n, dst') ∧ dst'.length = length.toNat ∧
      (0 < n → dst'[n.toNat]? = some 0)

theorem fqdn_trips (name : List UInt8) : FqdnTrips name := by
  intro hname hlast hlabels dst dst' hdst hdst'
  have hlength := length_fqdnBuild name
  have hne : name.splitOn dot ≠ [] := List.splitOn_ne_nil dot name
  have hparse : fqdnParseFrom ([] ++ (labelOctets (name.splitOn dot) ++ dst.drop (name.length + 1)))
      (name.length + 1) (name.length + 1) ([] : List UInt8).length [] = _ :=
    fqdnParseFrom_labels (dst.drop (name.length + 1)) hne hlabels [] [] (Nat.le_refl _)
      (by rw [← fqdnBuild_eq, hlength, List.length_nil, Nat.zero_add])
      (by rw [← fqdnBuild_eq, hlength])
  rw [List.nil_append, List.nil_append, List.length_nil, ← fqdnBuild_eq,
    (joined_splitOn_iff name).mpr hlast] at hparse
  have hrun := fqdnParseLoop_refines (fqdnBuild name ++ dst.drop (name.length + 1)) (name.length + 1)
    (name.length + 1) 0 [] dst' (by omega) (by rw [List.length_nil]; omega) (fun _ => .inl rfl)
  rw [hparse] at hrun
  obtain ⟨behind, hloop, -, hzero⟩ := hrun
  rw [ogsFqdnBuild_eq name hdst]
  obtain ⟨behind, rfl⟩ := List.head?_eq_some_iff.mp (hzero.resolve_left hname)
  exact ⟨behind, hloop⟩

theorem fqdnBounded_iff (length : Int) (src : Vector UInt8 length.toNat) :
    FqdnBounded length src ↔ ¬EndsInLength src.toList := by
  have hsrc : src.toList.length = length.toNat := Vector.length_toList
  by_cases hneg : length < 0
  · have hnil : src.toList = [] := List.eq_nil_of_length_eq_zero (by omega)
    refine iff_of_true (fun dst => ⟨0, dst.toList, ?_, Vector.length_toList, ?_⟩) ?_
    · rw [ogsFqdnParse, fqdnParseLoop, if_pos (by omega)]
      rfl
    · exact fun h => absurd h (Int.lt_irrefl 0)
    · rw [hnil]
      exact fun h => absurd (length_of_endsInLength h) (by decide)
  obtain ⟨n, rfl⟩ := Int.eq_ofNat_of_zero_le (Int.not_lt.mp hneg)
  have hsrc : src.toList.length = n := hsrc.trans (Int.toNat_natCast n)
  have hreads := returns_fqdnParseFrom_iff n [] src.toList [] hsrc.le rfl
  rw [List.length_nil, Nat.zero_add, hsrc, List.nil_append] at hreads
  rw [← hreads]
  have hrefines (dst : List UInt8) (hdst : dst.length = n) :=
    fqdnParseLoop_refines src.toList n n 0 [] dst
      (Nat.le_add_left ..) (by rw [hdst, List.length_nil, Nat.zero_add]) (fun _ => .inl rfl)
  constructor
  · intro hbounded
    obtain ⟨k, dst', hrun, -⟩ := hbounded (.replicate _ 0)
    have h := hrefines (Vector.replicate (n : Int).toNat 0).toList Vector.length_toList
    cases hparse : fqdnParseFrom src.toList n n 0 [] with
    | ok found => exact returns_ok found
    | error fault =>
      rw [hparse] at h
      cases hrun.symm.trans h
  · rintro ⟨found, hparse⟩ dst
    have h := hrefines dst.toList Vector.length_toList
    rw [hparse] at h
    cases found with
    | none =>
      obtain ⟨dst', hrun, hlength⟩ := h
      refine ⟨_, dst', hrun, ?_, fun hpos => absurd hpos (by decide)⟩
      rw [hlength, List.length_nil, Nat.zero_add, Vector.length_toList]
    | some found =>
      obtain ⟨behind, hrun, hlength, hzero⟩ := h
      refine ⟨_, found ++ behind, hrun, ?_, fun hpos => ?_⟩
      · rw [List.length_append, hlength, List.length_nil, Nat.zero_add, Vector.length_toList]
      · have hfound : found ≠ [] := fun hnil => by
          rw [hnil] at hpos
          exact absurd hpos (by decide)
        rw [Int.toNat_natCast, List.getElem?_append_right (Nat.le_refl _), Nat.sub_self,
          ← List.head?_eq_getElem?]
        exact hzero.resolve_left hfound

/-- Names are read back, and what is read and written is inside the bound, exactly where the
octets inside the bound do not end in the length of a label of one octet. -/
theorem fqdn_iff (name : List UInt8) (length : Int) (src : Vector UInt8 length.toNat) :
    FqdnTrips name ∧ FqdnBounded length src ↔ ¬EndsInLength src.toList := by
  rw [fqdnBounded_iff, and_iff_right (fqdn_trips name)]

/-- A label of one octet, and the length of another one at the end of the string: the octet behind
it becomes part of the name. -/
theorem not_fqdn_bounded :
    ¬FqdnBounded 3 ⟨#[1, 97, 1], rfl⟩ ∧
      ogsFqdnParse [0, 0, 0] [1, 97, 1, 98] 3 = .ok (2, [97, 98, 0]) := by
  refine ⟨fun hbounded => ?_, by decide⟩
  obtain ⟨n, dst', hrun, -⟩ := hbounded (.replicate _ 0)
  have hfault : ogsFqdnParse [0, 0, 0] [1, 97, 1] 3 = .error .outOfBounds := by decide
  cases hrun.symm.trans hfault

end Quicup.Open5gs
