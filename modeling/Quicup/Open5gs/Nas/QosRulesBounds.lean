import Quicup.Open5gs.Nas.QosFlows

/-!
# What the parser of QoS rules reads

The packet filters of a rule are compared with the length that the rule claims, the components of a
filter neither with its content nor with their array, and the rules are not counted.
-/

namespace Quicup.Open5gs

open Quicup.Fallible

/-- `ogs_nas_parse_qos_rules`, into an array of `slots` entries, each of which is cleared before
anything is read. -/
def parseQosRulesInto (slots : Nat) (octets : List UInt8) : Except Fault (List QosRule) :=
  parseInto parseQosRule slots octets

/-! ## Rules -/

/-- Behind the header of a rule the packet filters that are counted fit the room that the length of
the rule leaves. -/
def RuleFits (s : List UInt8) : Prop :=
  ∀ (identifier : UInt8) (length : UInt16) (flags : UInt8) (rest : List UInt8),
    s = identifier :: octetsBE 2 length.toNat ++ flags :: rest → length ≠ 0 → FlagsTaken flags →
    FiltersFit (.ofFlags flags) (flags.toNat &&& 0xf) ⟨rest, length.toNat - 1⟩

/-- What the octets `m + 1` and `m + 2` are where the length leaves `left` octets for them. -/
structure TrailingTaken (code : QosCode) (left : Nat) (trailing : UInt8 × UInt8) : Prop where
  both : left ≤ 2
  created : code = .createNewQosRule → left = 2
  deleted : code = .deleteExistingQosRule → left = 0
  precedence : left = 0 → trailing.1 = 0
  flow : left < 2 → trailing.2 = 0

theorem parseTrailing_spells (code : QosCode) (left rc : Nat) :
    Spells (parseTrailing code (1 + rc + left) rc) fun trailing octets =>
      TrailingTaken code left trailing ∧ octets = [trailing.1, trailing.2].take left := by
  have hrefused {c : UInt8 × UInt8 → List UInt8 → Prop} :
      Spells (do let _ ← copyOctet; cleanup) c := by
    refine (copyOctet_spells.bind (d := fun _ _ _ => False) fun _ => Spells.cleanup).mono ?_
    rintro _ _ ⟨_, _, _, _, hfalse, _⟩
    exact hfalse.elim
  unfold parseTrailing
  split_ifs with hnone hcreated hone hcode htwo hdeleted
  · exact Spells.cleanup
  · obtain rfl : left = 0 := by omega
    refine (Spells.pure (0, 0)).mono ?_
    rintro _ _ ⟨rfl, rfl⟩
    exact ⟨⟨by omega, fun h => absurd h hcreated, fun _ => rfl, fun _ => rfl, fun _ => rfl⟩, rfl⟩
  · exact hrefused
  · obtain rfl : left = 1 := by omega
    push Not at hcode
    refine (copyOctet_spells.bind fun precedence => Spells.pure (precedence, 0)).mono ?_
    rintro _ _ ⟨precedence, _, _, rfl, ⟨rfl, rfl⟩, rfl⟩
    exact ⟨⟨by omega, fun h => absurd h hcode.2, fun h => absurd h hcode.1, by simp, by simp⟩, rfl⟩
  · exact hrefused
  · obtain rfl : left = 2 := by omega
    refine (copyOctet_spells.bind fun precedence => copyOctet_spells.bind fun flow =>
      Spells.pure (precedence, flow)).mono ?_
    rintro _ _ ⟨precedence, _, _, rfl, ⟨flow, _, _, rfl, ⟨rfl, rfl⟩, rfl⟩, rfl⟩
    exact ⟨⟨by omega, fun _ => rfl, fun h => absurd h hdeleted, by simp, by simp⟩, rfl⟩
  · exact Spells.cleanup

theorem parseTrailing_copies {code : QosCode} {left : Nat} (rc : Nat) {trailing : UInt8 × UInt8}
    (h : TrailingTaken code left trailing) :
    Copies (parseTrailing code (1 + rc + left) rc) ([trailing.1, trailing.2].take left) trailing := by
  obtain ⟨precedence, flow⟩ := trailing
  unfold parseTrailing
  have hboth := h.both
  obtain rfl | rfl | rfl : left = 0 ∨ left = 1 ∨ left = 2 := by omega
  · obtain rfl : precedence = 0 := h.precedence rfl
    obtain rfl : flow = 0 := h.flow (by omega)
    rw [if_pos (by omega), if_neg fun hcode => absurd (h.created hcode) (by omega)]
    exact Copies.pure _
  · obtain rfl : flow = 0 := h.flow (by omega)
    have hcode : ¬(code = .deleteExistingQosRule ∨ code = .createNewQosRule) := by
      rintro (hcode | hcode)
      · exact absurd (h.deleted hcode) (by omega)
      · exact absurd (h.created hcode) (by omega)
    rw [if_neg (by omega), if_pos (by omega)]
    simp only [if_neg hcode]
    exact (copyOctet_copies precedence).bind_end (Copies.pure _)
  · have hcode : ¬code = .deleteExistingQosRule := fun hcode => absurd (h.deleted hcode) (by omega)
    rw [if_neg (by omega), if_neg (by omega), if_pos (by omega)]
    simp only [if_neg hcode]
    exact (copyOctet_copies precedence).bind ((copyOctet_copies flow).bind_end (Copies.pure _))

namespace QosRule

variable (r : QosRule)

/-- As many of the octets `m + 1` and `m + 2` as the length of the rule leaves. -/
def left : Nat := r.length.toNat - (1 + (r.filterOctets r.code).length)

def spelling : List UInt8 :=
  r.identifier :: octetsBE 2 r.length.toNat ++
    r.flags :: (r.filterOctets r.code ++ [r.precedence, r.flow].take r.left)

/-- A rule that the parser takes. -/
structure Taken : Prop where
  notReserved : ¬(r.code = 0 ∨ r.code = 7)
  noFilters : r.code.hasNoFilters → r.pf = []
  count : r.pf.length ≤ maxNumOfFlowInNas
  filters : ∀ pf ∈ r.pf, pf.Taken r.code
  length : 1 + (r.filterOctets r.code).length ≤ r.length.toNat
  trailing : TrailingTaken r.code r.left (r.precedence, r.flow)

/-- No component extends beyond the content of its packet filter. -/
def Contained : Prop :=
  ∀ pf ∈ r.pf, componentLengths pf.content.component ≤ pf.content.length.toNat

end QosRule

theorem ofFlags_flags (flags : UInt8) :
    UInt8.ofNat ((QosCode.ofFlags flags).val <<< 5 |||
      ((decide (flags.toNat >>> 4 &&& 1 ≠ 0)).toNat <<< 4 ||| (flags.toNat &&& 0xf))) = flags := by
  have hall : ∀ n : Fin 256, UInt8.ofNat ((n.val >>> 5) <<< 5 |||
      ((decide (n.val >>> 4 &&& 1 ≠ 0)).toNat <<< 4 ||| (n.val &&& 0xf))) = UInt8.ofNat n.val := by
    decide +kernel
  exact (hall ⟨flags.toNat, flags.toNat_lt⟩).trans UInt8.ofNat_toNat

theorem parseQosRule_body (identifier : UInt8) {length : UInt16} (hlength : length ≠ 0)
    (flags : UInt8) (rest : List UInt8) :
    parseQosRule (identifier :: octetsBE 2 length.toNat ++ flags :: rest) =
      parseBody identifier length flags rest := by
  unfold parseQosRule
  rw [List.cons_append, (copyOctet_copies identifier).whole_cons, ok_bind]
  dsimp only
  have hread := (copyBe16_copies length).whole (flags :: rest)
  rw [PfComponent.htobe16] at hread
  rw [hread, ok_bind]
  dsimp only
  rw [if_neg hlength, (copyOctet_copies flags).whole_cons, ok_bind]
  rfl

theorem parseQosRule_cases (s : List UInt8) :
    (∃ (identifier : UInt8) (length : UInt16) (flags : UInt8) (rest : List UInt8), length ≠ 0 ∧
      s = identifier :: octetsBE 2 length.toNat ++ flags :: rest) ∨
    parseQosRule s = .error .cleanup := by
  rcases s with _ | ⟨identifier, _ | ⟨x, _ | ⟨y, t⟩⟩⟩
  · exact .inr rfl
  · exact .inr rfl
  · exact .inr rfl
  · have hread := (copyBe16_copies (.ofNat (natBE [x, y]))).whole t
    have hoctets := htobe16_ofNat_natBE x y
    generalize UInt16.ofNat (natBE [x, y]) = length at hread hoctets
    rw [hoctets] at hread
    by_cases hlength : length = 0
    · refine .inr ?_
      unfold parseQosRule
      rw [(copyOctet_copies identifier).whole_cons, ok_bind]
      dsimp only
      rw [List.cons_append, List.cons_append, List.nil_append] at hread
      rw [hread, ok_bind]
      exact if_pos hlength
    · cases t with
      | nil =>
        refine .inr ?_
        unfold parseQosRule
        rw [(copyOctet_copies identifier).whole_cons, ok_bind]
        dsimp only
        rw [List.append_nil] at hread
        rw [hread, ok_bind]
        dsimp only
        rw [if_neg hlength]
        rfl
      | cons flags rest =>
        refine .inl ⟨identifier, length, flags, rest, hlength, ?_⟩
        rw [PfComponent.htobe16] at hoctets
        rw [hoctets]
        rfl

variable {flags : UInt8}

/-- What is read behind flags that are taken. -/
theorem parseBody_eq (identifier : UInt8) (length : UInt16) (hflags : FlagsTaken flags)
    (octets : List UInt8) :
    parseBody identifier length flags octets = (do
      let (pf, v) ← parsePacketFilters (.ofFlags flags) (flags.toNat &&& 0xf)
        ⟨octets, length.toNat - 1⟩
      let ((precedence, flow), v) ←
        parseTrailing (.ofFlags flags) length.toNat (length.toNat - 1 - v.room) (.whole v.octets)
      return (⟨identifier, length, .ofFlags flags, flags.toNat >>> 4 &&& 1 ≠ 0, pf, precedence,
        flow⟩, v.octets)) := by
  unfold parseBody
  exact (if_neg hflags.1).trans (if_neg hflags.2)

theorem parseBody_refused (identifier : UInt8) (length : UInt16) (hflags : ¬FlagsTaken flags)
    (octets : List UInt8) : parseBody identifier length flags octets = .error .cleanup := by
  rw [FlagsTaken, not_and_or, not_not, not_not] at hflags
  unfold parseBody
  rcases hflags with h | h
  · exact if_pos h
  · by_cases hreserved : QosCode.ofFlags flags = 0 ∨ QosCode.ofFlags flags = 7
    · exact if_pos hreserved
    · exact (if_neg hreserved).trans (if_pos h)

section Body

variable {identifier flags : UInt8} {length : UInt16} {octets : List UInt8}

/-- The room that the packet filters leave is for the octets `m + 1` and `m + 2`. -/
theorem room_left {v : BoundedView} {filters : List UInt8} (hlength : length ≠ 0)
    (hroom : length.toNat - 1 = filters.length + v.room) :
    length.toNat - 1 - v.room = filters.length ∧
      length.toNat = 1 + filters.length + v.room := by
  have hpos : length.toNat ≠ 0 := fun h => hlength (UInt16.toNat_inj.mp h)
  omega

theorem parseBody_ok (hlength : length ≠ 0) {r : QosRule} {rest : List UInt8}
    (h : parseBody identifier length flags octets = .ok (r, rest)) :
    r.Taken ∧ identifier :: octetsBE 2 length.toNat ++ flags :: octets = r.spelling ++ rest := by
  by_cases hflags : FlagsTaken flags
  · rw [parseBody_eq identifier length hflags] at h
    obtain ⟨⟨pf, v⟩, hfilters, h⟩ := bind_eq_ok.mp h
    obtain ⟨_, ⟨⟨hcount, hpf⟩, rfl⟩, hoctets, hroom⟩ :=
      (parsePacketFilters_walks _ _).ok_iff.mp hfilters
    dsimp only at hoctets hroom h
    obtain ⟨hrc, htotal⟩ := room_left hlength hroom
    rw [hrc, htotal] at h
    obtain ⟨⟨⟨precedence, flow⟩, w⟩, htrailing, h⟩ := bind_eq_ok.mp h
    obtain ⟨_, t, ⟨htaken, rfl⟩, hv, rfl⟩ := (parseTrailing_spells _ _ _).front htrailing
    cases h
    have hleft : QosRule.left ⟨identifier, length, .ofFlags flags,
        decide (flags.toNat >>> 4 &&& 1 ≠ 0), pf, precedence, flow⟩ = v.room := by
      rw [QosRule.left, QosRule.filterOctets]
      dsimp only
      omega
    have hcode := ofFlags_flags flags
    rw [← hcount] at hcode
    refine ⟨⟨hflags.1, fun hnone => ?_, ?_, hpf, ?_, ?_⟩, ?_⟩
    · have hzero := not_and.mp hflags.2 hnone
      rw [not_not, ← hcount] at hzero
      exact List.length_eq_zero_iff.mp hzero
    · rw [hcount]
      exact Nat.and_le_right
    · dsimp only [QosRule.filterOctets]
      omega
    · rw [hleft]
      exact htaken
    · rw [QosRule.spelling, hleft, QosRule.filterOctets, QosRule.flags]
      dsimp only
      rw [hcode, hoctets, hv]
      simp [BoundedView.whole]
  · rw [parseBody_refused identifier length hflags] at h
    cases h

theorem parseBody_fault_iff (hlength : length ≠ 0) :
    (∃ f, parseBody identifier length flags octets = .error (.fault f)) ↔ FlagsTaken flags ∧
      ¬FiltersFit (.ofFlags flags) (flags.toNat &&& 0xf) ⟨octets, length.toNat - 1⟩ := by
  by_cases hflags : FlagsTaken flags
  · rw [parseBody_eq identifier length hflags,
      ← (parsePacketFilters_walks (.ofFlags flags) (flags.toNat &&& 0xf)).fault_iff]
    constructor
    · rintro ⟨f, h⟩
      refine ⟨hflags, f, ?_⟩
      cases hfilters : parsePacketFilters (.ofFlags flags) (flags.toNat &&& 0xf)
        ⟨octets, length.toNat - 1⟩ with
      | error stop =>
        rw [hfilters] at h
        cases h
        rfl
      | ok x =>
        obtain ⟨pf, v⟩ := x
        obtain ⟨_, -, -, hroom⟩ := (parsePacketFilters_walks _ _).ok_iff.mp hfilters
        obtain ⟨hrc, htotal⟩ := room_left hlength hroom
        rw [hfilters, ok_bind] at h
        dsimp only at h
        rw [hrc, htotal] at h
        cases htrailing : parseTrailing (.ofFlags flags) (1 + _ + v.room) _ (.whole v.octets) with
        | error stop =>
          obtain rfl := (parseTrailing_spells _ _ _).stops htrailing
          rw [htrailing] at h
          cases h
        | ok y =>
          rw [htrailing] at h
          cases h
    · rintro ⟨-, f, h⟩
      exact ⟨f, by rw [h]; rfl⟩
  · refine iff_of_false ?_ fun h => hflags h.1
    rw [parseBody_refused identifier length hflags]
    rintro ⟨f, h⟩
    cases h

end Body

theorem QosRule.Taken.parse_eq {r : QosRule} (h : r.Taken) (rest : List UInt8) :
    parseQosRule (r.spelling ++ rest) = .ok (r, rest) := by
  have hlength : r.length ≠ 0 := by
    intro hzero
    have := h.length
    rw [hzero] at this
    simp at this
  obtain ⟨hcode, hcount, hdqr⟩ :=
    flags_fields r.code r.dqrBit ⟨r.pf.length, Nat.lt_succ_of_le h.count⟩
  change r.flags.toNat >>> 5 = _ at hcode
  change r.flags.toNat &&& 0xf = r.pf.length at hcount
  change decide (r.flags.toNat >>> 4 &&& 1 ≠ 0) = _ at hdqr
  have hof : QosCode.ofFlags r.flags = r.code := Fin.ext hcode
  have hflags : FlagsTaken r.flags := by
    rw [FlagsTaken, hof, hcount]
    exact ⟨h.notReserved, fun hnone => hnone.2 (by rw [h.noFilters hnone.1, List.length_nil])⟩
  have hlong : 1 + (r.filterOctets r.code).length ≤ r.length.toNat := h.length
  have hleft : r.left = r.length.toNat - (1 + (r.filterOctets r.code).length) := rfl
  have hfilters : parsePacketFilters r.code r.pf.length
      ⟨r.filterOctets r.code ++ ([r.precedence, r.flow].take r.left ++ rest), r.length.toNat - 1⟩ =
      .ok (r.pf, ⟨[r.precedence, r.flow].take r.left ++ rest, r.left⟩) :=
    (parsePacketFilters_walks _ _).ok_iff.mpr ⟨_, ⟨⟨rfl, h.filters⟩, rfl⟩, rfl, by
      change r.length.toNat - 1 = (r.filterOctets r.code).length + r.left
      omega⟩
  have htrailing := (parseTrailing_copies (r.filterOctets r.code).length h.trailing).whole rest
  have hrc : r.length.toNat - 1 - r.left = (r.filterOctets r.code).length := by omega
  have htotal : 1 + (r.filterOctets r.code).length + r.left = r.length.toNat := by omega
  rw [htotal] at htrailing
  rw [QosRule.spelling, List.append_assoc, List.cons_append, List.cons_append, List.append_assoc]
  rw [← List.cons_append, parseQosRule_body r.identifier hlength, parseBody_eq _ _ hflags, hof, hcount,
    hfilters, ok_bind]
  dsimp only
  rw [hrc, htrailing, ok_bind, hdqr]
  rfl

/-- A rule is taken just where it is spelled in front, and read into a fault just where a packet filter
that it counts does not fit. -/
theorem parseQosRule_parses :
    Parses parseQosRule QosRule.spelling QosRule.Taken RuleFits where
  ok_iff {s r rest} := by
    constructor
    · intro h
      rcases parseQosRule_cases s with ⟨identifier, length, flags, t, hlength, rfl⟩ | hstop
      · rw [parseQosRule_body identifier hlength] at h
        exact parseBody_ok hlength h
      · rw [hstop] at h
        cases h
    · rintro ⟨htaken, rfl⟩
      exact htaken.parse_eq rest
  fault_iff {s} := by
    constructor
    · rintro hfault hfits
      rcases parseQosRule_cases s with ⟨identifier, length, flags, t, hlength, rfl⟩ | hstop
      · rw [parseQosRule_body identifier hlength, parseBody_fault_iff hlength] at hfault
        exact hfault.2 (hfits identifier length flags t rfl hlength hfault.1)
      · obtain ⟨f, h⟩ := hfault
        rw [hstop] at h
        cases h
    · intro h
      unfold RuleFits at h
      push Not at h
      obtain ⟨identifier, length, flags, t, rfl, hlength, hflags, hnot⟩ := h
      rw [parseQosRule_body identifier hlength, parseBody_fault_iff hlength]
      exact ⟨hflags, hnot⟩

/-- Wherever a rule begins, behind rules that are taken and keep to their contents, fewer than eight
stand before it, its packet filters fit, and it is not taken unless it keeps to its contents. -/
def RulesInPlace (s : List UInt8) : Prop :=
  InPlace QosRule.spelling QosRule.Taken (fun r => r.Taken ∧ r.Contained) RuleFits maxNumOfQosRule s

/-- The parser returns, reads nothing outside and writes nothing behind its arrays, and no component
of what it returns extends beyond its content. -/
def RulesInside (s : List UInt8) : Prop :=
  ∃ rules, parseQosRulesInto maxNumOfQosRule s = .ok rules ∧ ∀ r ∈ rules, r.Contained

/-- The parser stays inside the string and its arrays, and no component extends beyond the content of
its packet filter, if and only if every rule is in place. -/
theorem rulesInside_iff (s : List UInt8) : RulesInside s ↔ RulesInPlace s := by
  rw [RulesInPlace, ← parseQosRule_parses.readInside_iff fun r h => h.1]
  constructor
  · rintro ⟨rules, hrun, hall⟩
    obtain ⟨htaken, hprefix⟩ := parseQosRule_parses.front hrun
    exact ⟨rules, hrun, fun r hr => ⟨htaken r hr, hall r hr⟩, hprefix⟩
  · rintro ⟨rules, hrun, hall, -⟩
    exact ⟨rules, hrun, fun r hr => (hall r hr).2⟩

/-- A rule of five octets behind its length, of which only the flags are there: one packet filter
is counted. -/
theorem not_rulesInside : ¬RulesInside [1, 0, 5, 0x21] := by
  rintro ⟨rules, hrun, -⟩
  have hfault : parseQosRulesInto maxNumOfQosRule [1, 0, 5, 0x21] = .error .outOfBounds := by rfl
  rw [hfault] at hrun
  cases hrun

end Quicup.Open5gs
