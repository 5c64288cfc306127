import Mathlib.Data.List.Forall2
import Quicup.Ueransim.Nas.TaiList

/-!
# Slices on N1

`ogs_nas_build_nssai` and `ogs_nas_parse_nssai` of the AMF's `types.c`, and the decoder of the UE
on what the AMF builds. An S-NSSAI tells by its length which of its parts there are. The parser of
the AMF goes on behind an S-NSSAI that it cannot parse, and does not look at where the list ends.
-/

namespace Quicup.Open5gs

/-- `OGS_S_NSSAI_NO_SD_VALUE` -/
def noSdValue : Nat := 0xffffff

/-- `OGS_MAX_NUM_OF_SLICE` -/
def maxNumOfSlice : Nat := 8

/-- `OGS_NAS_MAX_NSSAI_LEN` -/
def nasMaxNssaiLen : Nat := 142

/-- `ogs_nas_s_nssai_ie_t` -/
structure NasSNssaiIe where
  sst : UInt8 := 0
  sd : Nat := noSdValue
  mappedHplmnSst : UInt8 := 0
  mappedHplmnSstPresence : Bool := false
  mappedHplmnSd : Nat := noSdValue
  deriving DecidableEq

/-- Whether the SD is written. A mapped SD needs one, if only to tell that there is none. -/
def NasSNssaiIe.writesSd (ie : NasSNssaiIe) : Bool :=
  ie.sd ≠ noSdValue ||
    (ie.sd = noSdValue && ie.mappedHplmnSstPresence && ie.mappedHplmnSd ≠ noSdValue)

/-- The octets that `ogs_nas_build_s_nssai` writes behind the length. -/
def ogsNasBuildSNssai (ie : NasSNssaiIe) : List UInt8 :=
  ie.sst :: ((if ie.writesSd then octetsBE 3 ie.sd else []) ++
    (if ie.mappedHplmnSstPresence then [ie.mappedHplmnSst] else []) ++
    (if ie.mappedHplmnSd ≠ noSdValue then octetsBE 3 ie.mappedHplmnSd else []))

/-- The length and the octets. -/
def sNssaiOctets (ie : NasSNssaiIe) : List UInt8 :=
  .ofNat (ogsNasBuildSNssai ie).length :: ogsNasBuildSNssai ie

/-- `ogs_nas_build_nssai`, behind what there is. -/
def ogsNasBuildNssai (nssai : List UInt8) (ies : List NasSNssaiIe) : List UInt8 :=
  ies.foldl (fun nssai ie =>
    if nssai.length < nasMaxNssaiLen then nssai ++ sNssaiOctets ie else nssai) nssai

/-- Whether an S-NSSAI of the length has an SD, a mapped SST and a mapped SD. -/
def sNssaiParts (length : Nat) : Option (Bool × Bool × Bool) :=
  if length = 1 then some (false, false, false)
  else if length = 2 then some (false, true, false)
  else if length = 4 then some (true, false, false)
  else if length = 5 then some (true, true, false)
  else if length = 8 then some (true, true, true)
  else none

/-- An SD, if there is one. -/
def readSd (hasSd : Bool) : Read Nat := if hasSd then readBE 3 else pure noSdValue

def readMappedSst (hasMappedSst : Bool) : Read UInt8 := if hasMappedSst then readOctet else pure 0

/-- `ogs_nas_parse_s_nssai`, with the octets that it takes. -/
def ogsNasParseSNssai : Read (NasSNssaiIe × Nat) := do
  let length ← readOctet
  match sNssaiParts length.toNat with
  | none => return ({}, 0)
  | some (hasSd, hasMappedSst, hasMappedSd) =>
    let sst ← readOctet
    let sd ← readSd hasSd
    let mappedHplmnSst ← readMappedSst hasMappedSst
    let mappedHplmnSd ← readSd hasMappedSd
    return (⟨sst, sd, mappedHplmnSst, hasMappedSst, mappedHplmnSd⟩, length.toNat + 1)

/-- The loop of `ogs_nas_parse_nssai` from a position on, with so many slots left. -/
def parseNssaiFrom (length : Nat) (buffer : List UInt8) :
    Nat → Nat → Except Fault (List NasSNssaiIe)
  | 0, _ => .ok []
  | slots + 1, pos =>
    if pos < length then do
      let r ← ogsNasParseSNssai ⟨pos, buffer.drop pos⟩
      let others ← parseNssaiFrom length buffer slots (pos + r.1.2)
      return r.1.1 :: others
    else .ok []

/-- `ogs_nas_parse_nssai` of a structure with the length and the buffer given. -/
def ogsNasParseNssai (length : Nat) (buffer : List UInt8) : Except Fault (List NasSNssaiIe) :=
  if length = 0 then .ok [] else parseNssaiFrom length buffer maxNumOfSlice 0

/-! ## Well-formed lists -/

/-- The fields in their widths, and a mapped SD with a mapped SST only. -/
structure NasSNssaiIe.Proper (ie : NasSNssaiIe) : Prop where
  sd : ie.sd < 2 ^ 24
  mappedSd : ie.mappedHplmnSd < 2 ^ 24
  mappedSst : ie.mappedHplmnSstPresence = false →
    ie.mappedHplmnSst = 0 ∧ ie.mappedHplmnSd = noSdValue

/-- A length of an S-NSSAI and as many octets. -/
def WellFormedSNssai (octets : List UInt8) : Prop :=
  ∃ length body, octets = length :: body ∧ body.length = length.toNat ∧
    (sNssaiParts length.toNat).isSome

/-- What is parsed from the octets of one S-NSSAI. -/
def ParsedFrom (ie : NasSNssaiIe) (octets : List UInt8) : Prop :=
  ∀ pos, Reads ogsNasParseSNssai pos octets (ie, octets.length)

/-- A list is parsed, and each entry from a well-formed S-NSSAI of the string, one after another. -/
def OnlyWellFormed (nssai stale : List UInt8) : Prop :=
  ∃ ies, ogsNasParseNssai nssai.length (nssai ++ stale) = .ok ies ∧
    ∃ elements : List (List UInt8), (∀ e ∈ elements, WellFormedSNssai e) ∧
      elements.flatten <+: nssai ∧
      List.Forall₂ ParsedFrom ies elements

/-- The string consists of well-formed S-NSSAIs, at least as far as there are slots for them. -/
def WellFormedNssai (nssai : List UInt8) : Prop :=
  ∃ elements : List (List UInt8), (∀ e ∈ elements, WellFormedSNssai e) ∧
    elements.length ≤ maxNumOfSlice ∧ elements.flatten <+: nssai ∧ (elements.length = maxNumOfSlice ∨ elements.flatten = nssai)

/-! ## Parsing -/

section Parsing

variable {ie : NasSNssaiIe} {octets buffer stale : List UInt8} {length slots pos : Nat}
  {hasSd hasMappedSst hasMappedSd : Bool} {ies : List NasSNssaiIe} {elements : List (List UInt8)}

theorem sNssaiParts_size (h : sNssaiParts length = some (hasSd, hasMappedSst, hasMappedSd)) :
    length = 1 + (if hasSd then 3 else 0) + (if hasMappedSst then 1 else 0) +
      if hasMappedSd then 3 else 0 := by
  unfold sNssaiParts at h
  split_ifs at h <;> simp_all

theorem readSd_reads (h : octets.length = if hasSd then 3 else 0) :
    Reads (readSd hasSd) pos octets (if hasSd then natBE octets else noSdValue) := by
  cases hasSd with
  | false =>
    obtain rfl := List.length_eq_zero_iff.mp h
    exact .pure _
  | true =>
    have hread := (readOctets_reads (i := pos) octets).bind_end (f := fun o => pure (natBE o))
      (.pure _)
    rw [h] at hread
    exact hread

theorem readMappedSst_reads (h : octets.length = if hasMappedSst then 1 else 0) :
    Reads (readMappedSst hasMappedSst) pos octets (octets.headD 0) := by
  cases hasMappedSst with
  | false =>
    obtain rfl := List.length_eq_zero_iff.mp h
    exact .pure 0
  | true =>
    obtain ⟨x, rfl⟩ := List.length_eq_one_iff.mp h
    exact readOctet_reads x

/-- The parts of an S-NSSAI are parsed as its length tells. -/
theorem ogsNasParseSNssai_reads (sst : UInt8) {l : UInt8} {a b c : List UInt8}
    (hparts : sNssaiParts l.toNat = some (hasSd, hasMappedSst, hasMappedSd))
    (ha : a.length = if hasSd then 3 else 0) (hb : b.length = if hasMappedSst then 1 else 0)
    (hc : c.length = if hasMappedSd then 3 else 0) :
    ParsedFrom ⟨sst, if hasSd then natBE a else noSdValue, b.headD 0, hasMappedSst,
      if hasMappedSd then natBE c else noSdValue⟩ (l :: sst :: (a ++ (b ++ c))) := by
  intro pos
  have hsize := sNssaiParts_size hparts
  have hlength : (l :: sst :: (a ++ (b ++ c))).length = l.toNat + 1 := by
    simp only [List.length_cons, List.length_append, ha, hb, hc]
    omega
  rw [hlength, ogsNasParseSNssai]
  refine (readOctet_reads l).bind ?_
  rw [hparts]
  refine (readOctet_reads sst).bind ((readSd_reads ha).bind ((readMappedSst_reads hb).bind ?_))
  exact (readSd_reads hc).bind_end (.pure _)

/-- Well-formed octets are parsed. -/
theorem WellFormedSNssai.parsed (h : WellFormedSNssai octets) : ∃ ie, ParsedFrom ie octets := by
  obtain ⟨length, body, rfl, hbody, hparts⟩ := h
  obtain ⟨⟨hasSd, hasMappedSst, hasMappedSd⟩, hparts⟩ := Option.isSome_iff_exists.mp hparts
  have hsize := sNssaiParts_size hparts
  rw [← hbody] at hsize
  obtain ⟨sst, others, rfl⟩ : ∃ sst others, body = sst :: others :=
    List.exists_cons_of_length_pos (by omega)
  rw [List.length_cons] at hsize
  have hsplit : others = others.take (if hasSd then 3 else 0) ++
      ((others.drop (if hasSd then 3 else 0)).take (if hasMappedSst then 1 else 0) ++
        (others.drop (if hasSd then 3 else 0)).drop (if hasMappedSst then 1 else 0)) := by
    rw [List.take_append_drop, List.take_append_drop]
  rw [hsplit]
  refine ⟨_, ogsNasParseSNssai_reads _ hparts ?_ ?_ ?_⟩ <;>
    simp only [List.length_take, List.length_drop] <;> omega

/-- A mapped SD comes with a mapped SST, and both with an SD. -/
theorem NasSNssaiIe.Proper.parts (h : ie.Proper) (hne : ie.mappedHplmnSd ≠ noSdValue) :
    ie.mappedHplmnSstPresence = true ∧ ie.writesSd = true := by
  have hpresence : ie.mappedHplmnSstPresence = true := by
    by_contra hnot
    exact hne (h.mappedSst (by simpa using hnot)).2
  refine ⟨hpresence, ?_⟩
  by_cases hno : ie.sd = noSdValue <;> simp [NasSNssaiIe.writesSd, hno, hpresence, hne]

theorem NasSNssaiIe.sd_eq (h : ie.writesSd = false) : ie.sd = noSdValue := by
  rw [NasSNssaiIe.writesSd, Bool.or_eq_false_iff] at h
  simpa using h.1

/-- What is built is well formed and parsed. -/
theorem NasSNssaiIe.Proper.octets_parsed (h : ie.Proper) :
    WellFormedSNssai (sNssaiOctets ie) ∧ ParsedFrom ie (sNssaiOctets ie) := by
  have hnat {v : Nat} (hv : v < 2 ^ 24) : natBE (octetsBE 3 v) = v := by
    rw [natBE_octetsBE, Nat.mod_eq_of_lt (by norm_num; exact hv)]
  have hparts : sNssaiParts (ogsNasBuildSNssai ie).length =
      some (ie.writesSd, ie.mappedHplmnSstPresence, decide (ie.mappedHplmnSd ≠ noSdValue)) := by
    by_cases hmap : ie.mappedHplmnSd = noSdValue
    · cases hwrites : ie.writesSd <;> cases hpresence : ie.mappedHplmnSstPresence <;>
        simp [ogsNasBuildSNssai, sNssaiParts, hmap, hwrites, hpresence]
    · obtain ⟨hpresence, hwrites⟩ := h.parts hmap
      simp [ogsNasBuildSNssai, sNssaiParts, hmap, hwrites, hpresence]
  have hlength : (UInt8.ofNat (ogsNasBuildSNssai ie).length).toNat = (ogsNasBuildSNssai ie).length := by
    have hsize := sNssaiParts_size hparts
    rw [UInt8.toNat_ofNat', Nat.mod_eq_of_lt]
    split_ifs at hsize <;> omega
  rw [← hlength] at hparts
  refine ⟨⟨_, _, rfl, hlength.symm, by rw [hparts]; rfl⟩, ?_⟩
  have hread := ogsNasParseSNssai_reads ie.sst hparts
    (a := if ie.writesSd then octetsBE 3 ie.sd else [])
    (b := if ie.mappedHplmnSstPresence then [ie.mappedHplmnSst] else [])
    (c := if ie.mappedHplmnSd ≠ noSdValue then octetsBE 3 ie.mappedHplmnSd else [])
    (by split <;> simp) (by split <;> simp) (by split <;> simp_all)
  have hsd' : (if ie.writesSd then natBE (if ie.writesSd then octetsBE 3 ie.sd else []) else
      noSdValue) = ie.sd := by
    cases hwrites : ie.writesSd with
    | false =>
      rw [NasSNssaiIe.sd_eq hwrites]
      rfl
    | true => simp only [if_true, hnat h.sd]
  have hsst' : (if ie.mappedHplmnSstPresence then [ie.mappedHplmnSst] else []).headD 0 =
      ie.mappedHplmnSst := by
    cases hpresence : ie.mappedHplmnSstPresence with
    | false => exact (h.mappedSst hpresence).1.symm
    | true => rfl
  have hmappedSd' : (if decide (ie.mappedHplmnSd ≠ noSdValue) then
      natBE (if ie.mappedHplmnSd ≠ noSdValue then octetsBE 3 ie.mappedHplmnSd else []) else
      noSdValue) = ie.mappedHplmnSd := by
    by_cases hno : ie.mappedHplmnSd = noSdValue
    · rw [hno, if_neg (fun hne => absurd rfl (of_decide_eq_true hne))]
    · rw [if_pos (decide_eq_true hno), if_pos hno, hnat h.mappedSd]
  rw [hsd', hsst', hmappedSd'] at hread
  simpa [sNssaiOctets, ogsNasBuildSNssai] using hread

/-- Octets at a position that are parsed give an entry and hand on to the position behind them. -/
theorem parseNssaiFrom_next (h : ParsedFrom ie octets) (hpos : pos < length)
    (hdrop : ∃ others, buffer.drop pos = octets ++ others) :
    parseNssaiFrom length buffer (slots + 1) pos =
      (do
        let others ← parseNssaiFrom length buffer slots (pos + octets.length)
        return ie :: others) := by
  obtain ⟨others, hothers⟩ := hdrop
  rw [parseNssaiFrom, if_pos hpos, hothers, h pos others]
  rfl

/-- Well-formed octets in the string are parsed one after another, until the slots or the string
are used up. -/
theorem parseNssaiFrom_elements (h : List.Forall₂ ParsedFrom ies elements)
    (hpos : ∀ e ∈ elements, 0 < e.length) (hslots : elements.length ≤ slots)
    (hlength : pos + elements.flatten.length ≤ length)
    (hdrop : ∃ others, buffer.drop pos = elements.flatten ++ others)
    (hend : elements.length = slots ∨ pos + elements.flatten.length = length) :
    parseNssaiFrom length buffer slots pos = .ok ies := by
  induction h generalizing slots pos with
  | nil =>
    cases slots with
    | zero => rfl
    | succ slots =>
      have hpos : pos = length := by simpa using hend
      rw [parseNssaiFrom, if_neg (by omega)]
  | @cons ie e ies elements hparsed hrest ih =>
    obtain ⟨hfirst, hpos⟩ := List.forall_mem_cons.mp hpos
    obtain ⟨others, hothers⟩ := hdrop
    obtain ⟨slots, rfl⟩ : ∃ n, slots = n + 1 := ⟨slots - 1, by
      rw [List.length_cons] at hslots
      omega⟩
    rw [List.flatten_cons, List.length_append] at hlength hend
    rw [List.flatten_cons, List.append_assoc] at hothers
    have hbehind : buffer.drop (pos + e.length) = elements.flatten ++ others := by
      rw [← List.drop_drop, hothers, List.drop_left]
    rw [List.length_cons] at hslots hend
    rw [parseNssaiFrom_next hparsed (by omega) ⟨_, hothers⟩,
      ih hpos (by omega) (by omega) ⟨others, hbehind⟩ (by omega)]
    rfl

/-- A loop that met well-formed octets alone was left with no slot or at the end. -/
theorem parseNssaiFrom_ends (h : List.Forall₂ ParsedFrom ies elements)
    (hrun : parseNssaiFrom length buffer slots pos = .ok ies)
    (hdrop : ∃ others, buffer.drop pos = elements.flatten ++ others) :
    elements.length ≤ slots ∧
      (elements.length = slots ∨ length ≤ pos + elements.flatten.length) := by
  induction h generalizing slots pos with
  | nil =>
    cases slots with
    | zero => exact ⟨le_refl _, .inl rfl⟩
    | succ slots =>
      by_cases hmore : pos < length
      · rw [parseNssaiFrom, if_pos hmore] at hrun
        cases hparse : ogsNasParseSNssai ⟨pos, buffer.drop pos⟩ with
        | error f =>
          rw [hparse] at hrun
          cases hrun
        | ok r =>
          rw [hparse] at hrun
          change (parseNssaiFrom length buffer slots (pos + r.1.2) >>= fun others =>
            pure (r.1.1 :: others)) = _ at hrun
          cases hnext : parseNssaiFrom length buffer slots (pos + r.1.2) with
          | error f =>
            rw [hnext] at hrun
            cases hrun
          | ok others =>
            rw [hnext] at hrun
            cases hrun
      · exact ⟨Nat.zero_le _, .inr (by simpa using hmore)⟩
  | @cons ie e ies elements hparsed hrest ih =>
    obtain ⟨others, hothers⟩ := hdrop
    cases slots with
    | zero => cases hrun
    | succ slots =>
      by_cases hmore : pos < length
      · rw [List.flatten_cons, List.append_assoc] at hothers
        rw [parseNssaiFrom_next hparsed hmore ⟨_, hothers⟩] at hrun
        have hbehind : buffer.drop (pos + e.length) = elements.flatten ++ others := by
          rw [← List.drop_drop, hothers, List.drop_left]
        cases hnext : parseNssaiFrom length buffer slots (pos + e.length) with
        | error f =>
          rw [hnext] at hrun
          cases hrun
        | ok found =>
          rw [hnext] at hrun
          obtain ⟨-, rfl⟩ := List.cons.inj (Except.ok.inj hrun)
          obtain ⟨hslots, hend⟩ := ih hnext ⟨others, hbehind⟩
          rw [List.length_cons, List.flatten_cons, List.length_append]
          omega
      · rw [parseNssaiFrom, if_neg hmore] at hrun
        cases hrun

end Parsing

/-! ## Building a list -/

section Building

variable {ies : List NasSNssaiIe} {nssai : List UInt8}

theorem length_sNssaiOctets (ie : NasSNssaiIe) : (sNssaiOctets ie).length ≤ 9 := by
  rw [sNssaiOctets, ogsNasBuildSNssai]
  simp only [List.length_cons, List.length_append]
  split_ifs <;> simp

/-- There is room for each of eight S-NSSAIs. -/
theorem ogsNasBuildNssai_eq (h : nssai.length + 9 * ies.length ≤ nasMaxNssaiLen) :
    ogsNasBuildNssai nssai ies = nssai ++ (ies.map sNssaiOctets).flatten := by
  induction ies generalizing nssai with
  | nil => simp [ogsNasBuildNssai]
  | cons ie ies ih =>
    have hsize := length_sNssaiOctets ie
    rw [List.length_cons] at h
    have hroom : (nssai ++ sNssaiOctets ie).length + 9 * ies.length ≤ nasMaxNssaiLen := by
      rw [List.length_append]
      omega
    have hstep : ogsNasBuildNssai nssai (ie :: ies) =
        ogsNasBuildNssai (nssai ++ sNssaiOctets ie) ies := by
      rw [ogsNasBuildNssai, List.foldl_cons, if_pos (by omega)]
      rfl
    rw [hstep, ih hroom, List.map_cons, List.flatten_cons, List.append_assoc]

/-- A list that is built is parsed. -/
theorem ogsNasParseNssai_build (h : ∀ ie ∈ ies, ie.Proper) (hlength : ies.length ≤ maxNumOfSlice)
    (stale : List UInt8) :
    ogsNasParseNssai (ogsNasBuildNssai [] ies).length (ogsNasBuildNssai [] ies ++ stale) =
      .ok ies := by
  unfold maxNumOfSlice at hlength
  rw [ogsNasBuildNssai_eq (by unfold nasMaxNssaiLen; simp; omega), List.nil_append]
  have hparsed : List.Forall₂ ParsedFrom ies (ies.map sNssaiOctets) := by
    rw [List.forall₂_map_right_iff, List.forall₂_same]
    exact fun ie hie => ((h ie hie).octets_parsed).2
  have hpos : ∀ e ∈ ies.map sNssaiOctets, 0 < e.length := by
    intro e he
    obtain ⟨ie, -, rfl⟩ := List.mem_map.mp he
    exact Nat.succ_pos _
  cases ies with
  | nil => rfl
  | cons ie ies =>
    have hne : ((List.map sNssaiOctets (ie :: ies)).flatten).length ≠ 0 := by
      rw [List.map_cons, List.flatten_cons, List.length_append, sNssaiOctets, List.length_cons]
      omega
    rw [ogsNasParseNssai, if_neg hne]
    refine parseNssaiFrom_elements hparsed hpos ?_ (by omega) ⟨stale, rfl⟩ (.inr (by omega))
    rw [List.length_map]
    exact hlength

theorem WellFormedSNssai.length_pos {octets : List UInt8} (h : WellFormedSNssai octets) :
    0 < octets.length := by
  obtain ⟨length, body, rfl, -, -⟩ := h
  exact Nat.succ_pos _

theorem exists_parsedFrom {elements : List (List UInt8)} (h : ∀ e ∈ elements, WellFormedSNssai e) :
    ∃ ies, List.Forall₂ ParsedFrom ies elements := by
  induction elements with
  | nil => exact ⟨[], .nil⟩
  | cons e elements ih =>
    obtain ⟨he, helements⟩ := List.forall_mem_cons.mp h
    obtain ⟨ie, hie⟩ := he.parsed
    obtain ⟨ies, hies⟩ := ih helements
    exact ⟨ie :: ies, .cons hie hies⟩

/-- The entries come from well-formed S-NSSAIs if and only if the string consists of such. -/
theorem onlyWellFormed_iff {stale : List UInt8} :
    OnlyWellFormed nssai stale ↔ WellFormedNssai nssai := by
  by_cases hempty : nssai = []
  · subst hempty
    refine iff_of_true ⟨[], rfl, [], by simp, List.nil_prefix, .nil⟩
      ⟨[], by simp, Nat.zero_le _, List.nil_prefix, .inr rfl⟩
  have hlength : nssai.length ≠ 0 := fun hzero => hempty (List.length_eq_zero_iff.mp hzero)
  constructor
  · rintro ⟨ies, hrun, elements, hformed, hprefix, hparsed⟩
    rw [ogsNasParseNssai, if_neg hlength] at hrun
    obtain ⟨others, hothers⟩ := hprefix
    obtain ⟨hslots, hend⟩ := parseNssaiFrom_ends hparsed hrun
      ⟨others ++ stale, by rw [List.drop_zero, ← hothers, List.append_assoc]⟩
    refine ⟨elements, hformed, hslots, ⟨others, hothers⟩, hend.imp_right fun hle => ?_⟩
    have hnone : others.length = 0 := by
      have hsum := congrArg List.length hothers
      rw [List.length_append] at hsum
      omega
    rw [← hothers, List.length_eq_zero_iff.mp hnone, List.append_nil]
  · rintro ⟨elements, hformed, hslots, ⟨others, hothers⟩, hend⟩
    obtain ⟨ies, hparsed⟩ := exists_parsedFrom hformed
    refine ⟨ies, ?_, elements, hformed, ⟨others, hothers⟩, hparsed⟩
    have hsum := congrArg List.length hothers
    rw [List.length_append] at hsum
    rw [ogsNasParseNssai, if_neg hlength]
    refine parseNssaiFrom_elements hparsed (fun e he => (hformed e he).length_pos) hslots (by omega)
      ⟨others ++ stale, by rw [List.drop_zero, ← hothers, List.append_assoc]⟩
      (hend.imp_right fun heq => ?_)
    rw [heq, Nat.zero_add]

end Building

end Quicup.Open5gs

namespace Quicup.N1

open Quicup.Open5gs Quicup.Ueransim

/-! ## What the two ends take for slices -/

/-- A slice, with the parts that there are. -/
structure Slice where
  sst : UInt8
  sd : Option Nat
  mappedSst : Option UInt8
  mappedSd : Option Nat
  deriving DecidableEq

/-- The value that stands for no SD. -/
def sdOf (sd : Nat) : Option Nat := if sd = noSdValue then none else some sd

def sliceOfAmf (ie : NasSNssaiIe) : Slice :=
  ⟨ie.sst, sdOf ie.sd, if ie.mappedHplmnSstPresence then some ie.mappedHplmnSst else none,
    sdOf ie.mappedHplmnSd⟩

def sliceOfUe (sNssai : IESNssai) : Slice :=
  ⟨sNssai.sst, sNssai.sd.bind sdOf, sNssai.mappedHplmnSst, sNssai.mappedHplmnSd.bind sdOf⟩

/-- What the UE makes of an S-NSSAI of the AMF. -/
def atUe (ie : NasSNssaiIe) : IESNssai :=
  ⟨ie.sst, if ie.writesSd then some ie.sd else none,
    if ie.mappedHplmnSstPresence then some ie.mappedHplmnSst else none,
    if ie.mappedHplmnSd ≠ noSdValue then some ie.mappedHplmnSd else none⟩

section Ue

variable {ie : NasSNssaiIe} {i : Nat}

/-- No SD stands for the value that tells so. -/
theorem sliceOfUe_atUe (ie : NasSNssaiIe) : sliceOfUe (atUe ie) = sliceOfAmf ie := by
  have hsd : (if ie.writesSd then some ie.sd else none).bind sdOf = sdOf ie.sd := by
    cases hwrites : ie.writesSd with
    | false =>
      rw [NasSNssaiIe.sd_eq hwrites, sdOf, if_pos rfl]
      rfl
    | true => rfl
  have hmappedSd : (if ie.mappedHplmnSd ≠ noSdValue then some ie.mappedHplmnSd else none).bind
      sdOf = sdOf ie.mappedHplmnSd := by
    by_cases hno : ie.mappedHplmnSd = noSdValue
    · rw [if_neg (not_not.mpr hno), hno, sdOf, if_pos rfl]
      rfl
    · rw [if_pos hno]
      rfl
  rw [sliceOfUe, sliceOfAmf, atUe, hsd, hmappedSd]

theorem read3I_octetsBE {v : Nat} (h : v < 2 ^ 24) : Reads read3I i (octetsBE 3 v) v := by
  have hread := readBE_reads (i := i) 3 v
  rwa [Nat.mod_eq_of_lt (by norm_num; exact h)] at hread

/-- The UE reads each of the layouts. -/
theorem atUe_reads (h : ie.Proper) :
    Reads (decodeIe4 IESNssai.decode) i (sNssaiOctets ie) (atUe ie) := by
  have hsd (i : Nat) : Reads read3I i (octetsBE 3 ie.sd) ie.sd := read3I_octetsBE h.sd
  have hmappedSd (i : Nat) : Reads read3I i (octetsBE 3 ie.mappedHplmnSd) ie.mappedHplmnSd :=
    read3I_octetsBE h.mappedSd
  by_cases hmap : ie.mappedHplmnSd = noSdValue
  · cases hwrites : ie.writesSd <;> cases hpresence : ie.mappedHplmnSstPresence <;>
      simp only [sNssaiOctets, ogsNasBuildSNssai, atUe, hmap, hwrites, hpresence]
    · exact (readI_reads 1).bind ((readOctet_reads ie.sst).bind_end (.pure _))
    · exact (readI_reads 2).bind ((readOctet_reads ie.sst).bind
        ((readOctet_reads ie.mappedHplmnSst).bind_end (.pure _)))
    · exact (readI_reads 4).bind ((readOctet_reads ie.sst).bind ((hsd _).bind_end (.pure _)))
    · exact (readI_reads 5).bind ((readOctet_reads ie.sst).bind ((hsd _).bind
        ((readOctet_reads ie.mappedHplmnSst).bind_end (.pure _))))
  · obtain ⟨hpresence, hwrites⟩ := h.parts hmap
    simp only [sNssaiOctets, ogsNasBuildSNssai, atUe, hwrites, hpresence, ne_eq, hmap,
      not_false_eq_true, if_true]
    exact (readI_reads 8).bind ((readOctet_reads ie.sst).bind ((hsd _).bind
      ((readOctet_reads ie.mappedHplmnSst).bind ((hmappedSd _).bind_end (.pure _)))))

/-- The UE reads the list that the AMF builds. -/
theorem nssai_decode_build {ies : List NasSNssaiIe} (h : ∀ ie ∈ ies, ie.Proper)
    (hlength : ies.length ≤ maxNumOfSlice) :
    Reads (IENssai.decode (ogsNasBuildNssai [] ies).length) i (ogsNasBuildNssai [] ies)
      ⟨ies.map atUe⟩ := by
  unfold maxNumOfSlice at hlength
  rw [ogsNasBuildNssai_eq (by unfold nasMaxNssaiLen; simp; omega), List.nil_append,
    ← List.flatMap_def]
  have hsize : (ies.flatMap sNssaiOctets).length < 2 ^ 64 := by
    have hle : (ies.flatMap sNssaiOctets).length ≤ ies.length * 9 := by
      rw [List.length_flatMap]
      refine (List.sum_le_card_nsmul _ 9 fun n hn => ?_).trans (by simp)
      obtain ⟨ie, -, rfl⟩ := List.mem_map.mp hn
      exact length_sNssaiOctets ie
    omega
  have hread := decodeListVal_reads (fun ie hie i => atUe_reads (i := i) (h ie hie))
    (fun ie _ => Nat.succ_pos _) hsize i
  exact hread.bind_end (.pure _)

end Ue

/-- A list of slices is read by both ends as it was built, and a string that is received is parsed
into well-formed S-NSSAIs alone if and only if it consists of such, as far as there are slots. -/
theorem nssai_parsed_iff (ies : List NasSNssaiIe) (h : ∀ ie ∈ ies, ie.Proper)
    (hlength : 1 ≤ ies.length ∧ ies.length ≤ maxNumOfSlice) (nssai stale : List UInt8) :
    (ogsNasParseNssai (ogsNasBuildNssai [] ies).length (ogsNasBuildNssai [] ies ++ stale) = .ok ies ∧
      ∀ i, ∃ r, Reads (IENssai.decode (ogsNasBuildNssai [] ies).length) i (ogsNasBuildNssai [] ies) r ∧
        r.sNssais.map sliceOfUe = ies.map sliceOfAmf) ∧
    (OnlyWellFormed nssai stale ↔ WellFormedNssai nssai) := by
  refine ⟨⟨ogsNasParseNssai_build h hlength.2 stale, fun i =>
    ⟨⟨ies.map atUe⟩, nssai_decode_build h hlength.2, ?_⟩⟩, onlyWellFormed_iff⟩
  rw [List.map_map]
  exact List.map_congr_left fun ie _ => sliceOfUe_atUe ie

theorem nssai_parsed_oneSlice :
    (ogsNasParseNssai (ogsNasBuildNssai [] [⟨1, 5, 0, false, noSdValue⟩]).length
          (ogsNasBuildNssai [] [⟨1, 5, 0, false, noSdValue⟩] ++ [0]) = .ok [⟨1, 5, 0, false, noSdValue⟩] ∧
      ∀ i, ∃ r, Reads (IENssai.decode (ogsNasBuildNssai [] [⟨1, 5, 0, false, noSdValue⟩]).length) i
          (ogsNasBuildNssai [] [⟨1, 5, 0, false, noSdValue⟩]) r ∧
        r.sNssais.map sliceOfUe = [⟨1, 5, 0, false, noSdValue⟩].map sliceOfAmf) ∧
    (OnlyWellFormed [1, 2] [0] ↔ WellFormedNssai [1, 2]) := by
  refine nssai_parsed_iff [⟨1, 5, 0, false, noSdValue⟩] ?_ (by decide) [1, 2] [0]
  rintro ie hie
  obtain rfl := List.mem_singleton.mp hie
  exact ⟨by norm_num, by norm_num [noSdValue], fun _ => ⟨rfl, rfl⟩⟩

/-- An S-NSSAI of a length that is reserved fills all the slots that are left. -/
theorem not_nssai_parsed :
    ogsNasParseNssai 2 ([3, 1] ++ List.replicate 140 0) = .ok (List.replicate 8 {}) ∧
      ¬ OnlyWellFormed [3, 1] (List.replicate 140 0) := by
  refine ⟨rfl, ?_⟩
  rw [onlyWellFormed_iff]
  rintro ⟨elements, hformed, -, hprefix, hend⟩
  cases elements with
  | nil => rcases hend with hend | hend <;> cases hend
  | cons e elements =>
    obtain ⟨length, body, rfl, -, hparts⟩ := hformed e List.mem_cons_self
    obtain rfl := (List.cons_prefix_cons.mp hprefix).1
    cases hparts

end Quicup.N1
