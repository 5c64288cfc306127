import Quicup.Core.Asserted
import Quicup.Open5gs.Nas.QosRulesTrip

/-!
# QoS flow descriptions

`ogs_nas_build_qos_flow_descriptions` and `ogs_nas_parse_qos_flow_descriptions` of `types.c`. What
is built is parsed again. The parser neither counts the descriptions nor skips the parameters that
its array has no room for.
-/

namespace Quicup.Open5gs

open Quicup.Fallible

/-! ## Descriptions -/

namespace QosFlowParameter

def id5Qi : UInt8 := 1
def idGfbrUplink : UInt8 := 2
def idGfbrDownlink : UInt8 := 3
def idMfbrUplink : UInt8 := 4
def idMfbrDownlink : UInt8 := 5

def isBitrate (identifier : UInt8) : Bool :=
  identifier = idGfbrUplink ∨ identifier = idGfbrDownlink ∨ identifier = idMfbrUplink ∨
    identifier = idMfbrDownlink

/-- The union of a parameter, with the member that was written last. -/
inductive Value
  | qosIndex (qosIndex : UInt8)
  | br (unit : UInt8) (value : UInt16)
  deriving DecidableEq

namespace Value

/-- The first octet of the union. -/
def firstOctet : Value → UInt8
  | qosIndex q => q
  | br unit _ => unit

/-- The other two, which `memset` has cleared. -/
def number : Value → UInt16
  | qosIndex _ => 0
  | br _ value => value

end Value

end QosFlowParameter

/-- `ogs_nas_qos_flow_parameter_t`. -/
structure QosFlowParameter where
  identifier : UInt8
  len : UInt8
  value : QosFlowParameter.Value
  deriving DecidableEq

def maxNumOfQosFlowParameter : Nat := 8

def maxNumOfQosFlowDescription : Nat := 8

/-- `ogs_nas_qos_flow_description_t`: three octets of bit fields, and the entries of `param` that
are set. -/
structure QosFlowDescription where
  header : Vector UInt8 3
  param : List QosFlowParameter
  deriving DecidableEq

namespace QosFlowDescription

variable (d : QosFlowDescription)

def identifier : Nat := d.header[0].toNat &&& 0x3f

def code : Nat := d.header[1].toNat >>> 5

def eBit : Nat := d.header[2].toNat >>> 6 &&& 1

def numOfParameter : Nat := d.header[2].toNat &&& 0x3f

/-- `param[j]`, of an array whose other entries are zero. -/
def paramAt (j : Nat) : Except Fault QosFlowParameter :=
  if j < maxNumOfQosFlowParameter then .ok (d.param.getD j ⟨0, 0, .qosIndex 0⟩)
  else .error .outOfBounds

end QosFlowDescription

/-! ## Build -/

def maxQosFlowDescriptionsLen : Nat := 65535

/-- The `switch` on the identifier of a parameter that is written. -/
def QosFlowParameter.build (p : QosFlowParameter) : Except Fault (List UInt8) :=
  if p.identifier = id5Qi then
    if p.len = 1 then .ok [p.identifier, p.len, p.value.firstOctet] else .error .assertion
  else if isBitrate p.identifier then
    if p.len = 3 then
      .ok (p.identifier :: p.len :: p.value.firstOctet :: PfComponent.htobe16 p.value.number)
    else .error .assertion
  else .error .assertion

/-- `for (j = 0; j < target.num_of_parameter; j++)`, with the turns that are left. -/
def QosFlowDescription.appendParam (d : QosFlowDescription) :
    (turns j : Nat) → List UInt8 → Except Fault (List UInt8)
  | 0, _, buffer => .ok buffer
  | turns + 1, j, buffer => do
    let p ← d.paramAt j
    let octets ← p.build
    let buffer ← putOctets maxQosFlowDescriptionsLen buffer octets
    d.appendParam turns (j + 1) buffer

def appendDescriptions : List QosFlowDescription → List UInt8 → Except Fault (List UInt8)
  | [], buffer => .ok buffer
  | d :: rest, buffer => do
    let buffer ← putOctets maxQosFlowDescriptionsLen buffer d.header.toList
    let buffer ← d.appendParam d.numOfParameter 0 buffer
    appendDescriptions rest buffer

/-- `ogs_nas_build_qos_flow_descriptions`. -/
def buildQosFlowDescriptions (descriptions : List QosFlowDescription) :
    Except Fault (List UInt8) :=
  if descriptions = [] then .error .assertion else appendDescriptions descriptions []

/-! ## Parse -/

/-- The `switch` on the identifier of a parameter that is read. -/
def parseQosFlowValue (identifier len : UInt8) : BoundedRead QosFlowParameter :=
  if identifier = QosFlowParameter.id5Qi then
    if len ≠ 1 then cleanup
    else do
      let qosIndex ← copyOctet
      return ⟨identifier, len, .qosIndex qosIndex⟩
  else if QosFlowParameter.isBitrate identifier then
    if len ≠ 3 then cleanup
    else do
      let octets ← copyOctets 3
      return ⟨identifier, len, .br octets[0] (.ofNat (natBE [octets[1], octets[2]]))⟩
  else cleanup

def parseQosFlowParameter : BoundedRead QosFlowParameter := do
  let identifier ← copyOctet
  let len ← copyOctet
  parseQosFlowValue identifier len

def parseQosFlowParameters : Nat → BoundedRead (List QosFlowParameter)
  | 0 => return []
  | n + 1 => do
    let p ← parseQosFlowParameter
    let rest ← parseQosFlowParameters n
    return p :: rest

/-- The loop over the parameters ends at the declared number of them or at the end of the array. -/
def parseQosFlowDescription : BoundedRead QosFlowDescription := do
  let header ← copyOctets 3
  let param ← parseQosFlowParameters
    (min (QosFlowDescription.numOfParameter ⟨header, []⟩) maxNumOfQosFlowParameter)
  return ⟨header, param⟩

/-- A reader of all that is left. -/
def BoundedRead.onWhole {α : Type} (p : BoundedRead α) (octets : List UInt8) :
    Except ParseStop (α × List UInt8) :=
  (p (.whole octets)).map fun x => (x.1, x.2.octets)

/-- `while (size < length)`, with the entries of the array of the caller that are left. The entry
is cleared before anything is read. -/
def parseInto {α : Type} (parse : List UInt8 → Except ParseStop (α × List UInt8)) :
    (slots : Nat) → List UInt8 → Except Fault (List α)
  | 0, octets => if octets = [] then .ok [] else .error .outOfBounds
  | slots + 1, octets =>
    if octets = [] then .ok []
    else match parse octets with
      | .error .cleanup => .ok []
      | .error (.fault f) => .error f
      | .ok (a, rest) => do
        let as ← parseInto parse slots rest
        return a :: as

/-- `ogs_nas_parse_qos_flow_descriptions`, into an array of `OGS_NAS_MAX_NUM_OF_QOS_FLOW_DESCRIPTION`
entries. -/
def parseQosFlowDescriptions (octets : List UInt8) : Except Fault (List QosFlowDescription) :=
  parseInto parseQosFlowDescription.onWhole maxNumOfQosFlowDescription octets

/-! ## Items without a count -/

/-- What a parser makes of a string: the items in front that it takes, and where it runs into a
fault. -/
structure Parses {α : Type} (parse : List UInt8 → Except ParseStop (α × List UInt8))
    (octets : α → List UInt8) (taken : α → Prop) (fits : List UInt8 → Prop) : Prop where
  ok_iff : ∀ {s a rest}, parse s = .ok (a, rest) ↔ taken a ∧ s = octets a ++ rest
  fault_iff : ∀ {s}, (∃ f, parse s = .error (.fault f)) ↔ ¬fits s

section Items

variable {α : Type} {parse : List UInt8 → Except ParseStop (α × List UInt8)}
variable {octets : α → List UInt8} {taken good : α → Prop} {fits : List UInt8 → Prop}
variable {slots : Nat} {a b : α} {s t : List UInt8}

/-- The run returns, and in front of the string stand, one behind the other, the items that it
returns, all of them good. -/
def ReadInside (octets : α → List UInt8) (good : α → Prop) (run : Except Fault (List α))
    (s : List UInt8) : Prop :=
  ∃ as, run = .ok as ∧ (∀ a ∈ as, good a) ∧ as.flatMap octets <+: s

/-- Wherever an item begins, behind good ones, there is an entry left for it, its parts fit, and it is
not taken unless it is good. -/
def InPlace (octets : α → List UInt8) (taken good : α → Prop) (fits : List UInt8 → Prop)
    (slots : Nat) (s : List UInt8) : Prop :=
  ∀ (as : List α) (rest : List UInt8), (∀ a ∈ as, good a) → s = as.flatMap octets ++ rest →
    rest ≠ [] → as.length < slots ∧ fits rest ∧ ∀ a t, taken a → rest = octets a ++ t → good a

theorem parseInto_nil (slots : Nat) : parseInto parse slots [] = .ok [] := by
  cases slots <;> simp [parseInto]

theorem inPlace_nil : InPlace octets taken good fits slots [] :=
  fun _ _ _ hs hne => absurd (List.append_eq_nil_iff.mp hs.symm).2 hne

theorem readInside_of_nil {run : Except Fault (List α)} (hrun : run = .ok []) :
    ReadInside octets good run s :=
  ⟨[], hrun, by simp, List.nil_prefix⟩

namespace Parses

variable (h : Parses parse octets taken fits) {as : List α}
include h

theorem inj (ha : taken a) (hb : taken b) (heq : octets a ++ s = octets b ++ t) :
    a = b ∧ s = t := by
  have hread : parse (octets a ++ s) = .ok (a, s) := h.ok_iff.mpr ⟨ha, rfl⟩
  rw [heq, h.ok_iff.mpr ⟨hb, rfl⟩] at hread
  cases hread
  exact ⟨rfl, rfl⟩

theorem step (ha : taken a) (hne : octets a ++ s ≠ []) :
    parseInto parse (slots + 1) (octets a ++ s) = (do
      let as ← parseInto parse slots s
      return a :: as) := by
  rw [parseInto, if_neg hne, h.ok_iff.mpr ⟨ha, rfl⟩]

/-- What is returned is taken, one item behind the other. -/
theorem front (hrun : parseInto parse slots s = .ok as) :
    (∀ a ∈ as, taken a) ∧ as.flatMap octets <+: s := by
  have hnil : (∀ a ∈ ([] : List α), taken a) ∧ [].flatMap octets <+: s :=
    ⟨by simp, List.nil_prefix⟩
  induction slots generalizing s as with
  | zero =>
    rw [parseInto] at hrun
    split_ifs at hrun with hs
    cases hrun
    exact hnil
  | succ slots ih =>
    rw [parseInto] at hrun
    split_ifs at hrun with hs
    · cases hrun
      exact hnil
    · cases hparse : parse s with
      | error stop =>
        rw [hparse] at hrun
        cases stop with
        | cleanup =>
          cases hrun
          exact hnil
        | fault f => cases hrun
      | ok x =>
        obtain ⟨a, rest⟩ := x
        obtain ⟨ha, rfl⟩ := h.ok_iff.mp hparse
        rw [hparse] at hrun
        obtain ⟨bs, hlater, heq⟩ := bind_eq_ok.mp hrun
        cases heq
        obtain ⟨hbs, hprefix⟩ := ih hlater ⟨by simp, List.nil_prefix⟩
        refine ⟨List.forall_mem_cons.mpr ⟨ha, hbs⟩, ?_⟩
        rwa [List.flatMap_cons, List.prefix_append_right_inj]

/-- Items that fit the array are parsed again. -/
theorem flatMap_octets (has : ∀ a ∈ as, taken a) (hne : ∀ a ∈ as, octets a ≠ [])
    (hslots : as.length ≤ slots) : parseInto parse slots (as.flatMap octets) = .ok as := by
  induction as generalizing slots with
  | nil => exact parseInto_nil slots
  | cons a as ih =>
    obtain ⟨slots, rfl⟩ : ∃ n, slots = n + 1 := ⟨slots - 1, by
      rw [List.length_cons] at hslots
      omega⟩
    obtain ⟨ha, has⟩ := List.forall_mem_cons.mp has
    obtain ⟨hnea, hne⟩ := List.forall_mem_cons.mp hne
    rw [List.flatMap_cons, h.step ha (by simp [hnea]), ih has hne (Nat.le_of_succ_le_succ hslots)]
    rfl

theorem readInside_cons (ha : taken a) (hgood : good a) (hne : octets a ++ s ≠ []) :
    ReadInside octets good (parseInto parse (slots + 1) (octets a ++ s)) (octets a ++ s) ↔
      ReadInside octets good (parseInto parse slots s) s := by
  rw [h.step ha hne]
  constructor
  · rintro ⟨_, hstep, hall, hprefix⟩
    obtain ⟨as, hrun, heq⟩ := bind_eq_ok.mp hstep
    cases heq
    rw [List.flatMap_cons, List.prefix_append_right_inj] at hprefix
    exact ⟨as, hrun, fun b hb => hall b (List.mem_cons_of_mem _ hb), hprefix⟩
  · rintro ⟨as, hrun, hall, hprefix⟩
    refine ⟨a :: as, by rw [hrun]; rfl, List.forall_mem_cons.mpr ⟨hgood, hall⟩, ?_⟩
    rwa [List.flatMap_cons, List.prefix_append_right_inj]

theorem inPlace_cons (hsub : ∀ a, good a → taken a) (ha : taken a) (hgood : good a) :
    InPlace octets taken good fits (slots + 1) (octets a ++ s) ↔
      InPlace octets taken good fits slots s := by
  constructor
  · intro hin as rest has hs hne
    have hlater := hin (a :: as) rest (List.forall_mem_cons.mpr ⟨hgood, has⟩)
      (by rw [hs, List.flatMap_cons, List.append_assoc]) hne
    exact ⟨Nat.lt_of_succ_lt_succ hlater.1, hlater.2⟩
  · intro hin as rest has hs hne
    cases as with
    | nil =>
      obtain rfl : octets a ++ s = rest := hs
      refine ⟨Nat.succ_pos _, not_not.mp fun hfits => ?_, fun b t hb ht => ?_⟩
      · obtain ⟨f, hfault⟩ := h.fault_iff.mpr hfits
        rw [h.ok_iff.mpr ⟨ha, rfl⟩] at hfault
        cases hfault
      · rwa [← (h.inj ha hb ht).1]
    | cons b as =>
      obtain ⟨hb, has⟩ := List.forall_mem_cons.mp has
      rw [List.flatMap_cons, List.append_assoc] at hs
      have hlater := hin as rest has (h.inj ha (hsub b hb) hs).2 hne
      exact ⟨Nat.succ_lt_succ hlater.1, hlater.2⟩

/-- By induction on the entries that are left: the string is at its end, or has no entry, is a fault,
stops the parser, or begins with an item. -/
theorem readInside_iff (hsub : ∀ a, good a → taken a) (slots : Nat) (s : List UInt8) :
    ReadInside octets good (parseInto parse slots s) s ↔
      InPlace octets taken good fits slots s := by
  induction slots generalizing s with
  | zero =>
    by_cases hs : s = []
    · subst hs
      exact iff_of_true (readInside_of_nil (parseInto_nil _)) inPlace_nil
    · refine iff_of_false ?_ fun hin => absurd (hin [] s (by simp) rfl hs).1 (Nat.lt_irrefl _)
      rw [parseInto, if_neg hs]
      rintro ⟨as, hrun, -⟩
      cases hrun
  | succ slots ih =>
    by_cases hs : s = []
    · subst hs
      exact iff_of_true (readInside_of_nil (parseInto_nil _)) inPlace_nil
    cases hrun : parse s with
    | error stop =>
      have hnone (a : α) (t : List UInt8) (ha : taken a) : s ≠ octets a ++ t := by
        intro heq
        rw [h.ok_iff.mpr ⟨ha, heq⟩] at hrun
        cases hrun
      cases stop with
      | fault f =>
        refine iff_of_false ?_ fun hin =>
          h.fault_iff.mp ⟨f, hrun⟩ (hin [] s (by simp) rfl hs).2.1
        rw [parseInto, if_neg hs, hrun]
        rintro ⟨as, hreturn, -⟩
        cases hreturn
      | cleanup =>
        refine iff_of_true (readInside_of_nil ?_) fun as rest has heq hne => ?_
        · rw [parseInto, if_neg hs, hrun]
        · cases as with
          | nil =>
            obtain rfl : s = rest := heq
            refine ⟨Nat.succ_pos _, not_not.mp fun hfits => ?_,
              fun a t ha ht => absurd ht (hnone a t ha)⟩
            obtain ⟨f, hfault⟩ := h.fault_iff.mpr hfits
            rw [hrun] at hfault
            cases hfault
          | cons a as =>
            rw [List.flatMap_cons, List.append_assoc] at heq
            exact absurd heq (hnone _ _ (hsub a (has a List.mem_cons_self)))
    | ok x =>
      obtain ⟨a, rest⟩ := x
      obtain ⟨ha, rfl⟩ := h.ok_iff.mp hrun
      by_cases hgood : good a
      · rw [h.readInside_cons ha hgood hs, h.inPlace_cons hsub ha hgood, ih]
      · refine iff_of_false ?_ fun hin => hgood ((hin [] _ (by simp) rfl hs).2.2 a rest ha rfl)
        rw [h.step ha hs]
        rintro ⟨_, hstep, hall, -⟩
        obtain ⟨as, -, heq⟩ := bind_eq_ok.mp hstep
        cases heq
        exact hgood (hall a List.mem_cons_self)

end Parses

end Items

/-! ## Reading from a part that is wholly left -/

/-- A reader of a part that is wholly left returns what the octets at its front spell, or parsing
stops. -/
structure Spells {α : Type} (p : BoundedRead α) (spelling : α → List UInt8 → Prop) : Prop where
  front : ∀ {s a v}, p (.whole s) = .ok (a, v) →
    ∃ octets rest, spelling a octets ∧ s = octets ++ rest ∧ v = .whole rest
  stops : ∀ {s stop}, p (.whole s) = .error stop → stop = .cleanup

namespace Spells

variable {α β : Type} {p : BoundedRead α} {f : α → BoundedRead β}
variable {c c' : α → List UInt8 → Prop} {d : α → β → List UInt8 → Prop}

theorem pure (a : α) : Spells (Pure.pure a) fun b octets => b = a ∧ octets = [] where
  front h := by
    cases h
    exact ⟨[], _, ⟨rfl, rfl⟩, rfl, rfl⟩
  stops h := by cases h

theorem cleanup : Spells cleanup c where
  front h := by cases h
  stops h := by
    cases h
    rfl

theorem bind (hp : Spells p c) (hf : ∀ a, Spells (f a) (d a)) :
    Spells (p >>= f) fun b octets => ∃ a first second,
      c a first ∧ d a b second ∧ octets = first ++ second where
  front h := by
    obtain ⟨⟨a, v⟩, hrun, h⟩ := bind_eq_ok.mp h
    obtain ⟨first, t, hfirst, rfl, rfl⟩ := hp.front hrun
    obtain ⟨second, rest, hsecond, rfl, rfl⟩ := (hf a).front h
    exact ⟨first ++ second, rest, ⟨a, first, second, hfirst, hsecond, rfl⟩,
      (List.append_assoc ..).symm, rfl⟩
  stops {s stop} h := by
    change (p (.whole s) >>= fun x => f x.1 x.2) = _ at h
    cases hrun : p (.whole s) with
    | error other =>
      rw [hrun] at h
      cases h
      exact hp.stops hrun
    | ok x =>
      obtain ⟨_, t, _, _, hv⟩ := hp.front (a := x.1) (v := x.2) hrun
      rw [hrun, ok_bind, hv] at h
      exact (hf x.1).stops h

theorem mono (hp : Spells p c) (h : ∀ a octets, c a octets → c' a octets) : Spells p c' where
  front hrun := by
    obtain ⟨octets, rest, hc, hs, hv⟩ := hp.front hrun
    exact ⟨octets, rest, h _ _ hc, hs, hv⟩
  stops := hp.stops

end Spells

theorem copyOctets_spells (n : Nat) :
    Spells (copyOctets n) fun xs octets => octets = xs.toList where
  front {s a v} h := by
    unfold copyOctets at h
    split_ifs at h with hroom hlength
    cases h
    refine ⟨s.take n, s.drop n, rfl, (List.take_append_drop n s).symm, ?_⟩
    simp [BoundedView.whole]
  stops {s stop} h := by
    unfold copyOctets at h
    split_ifs at h with hroom hlength
    · cases h
      rfl
    · change ¬s.length < n at hroom
      change ¬(s.take n).length = n at hlength
      rw [List.length_take] at hlength
      omega

theorem copyOctet_spells : Spells copyOctet fun x octets => octets = [x] := by
  apply ((copyOctets_spells 1).bind fun octets => Spells.pure octets[0]).mono
  rintro x _ ⟨⟨⟨xs⟩, hsize⟩, first, _, rfl, ⟨rfl, rfl⟩, rfl⟩
  obtain ⟨y, rfl⟩ := List.length_eq_one_iff.mp hsize
  rfl

/-! ## What a description is written as -/

namespace QosFlowParameter

def Value.octets : Value → List UInt8
  | qosIndex q => [q]
  | br unit value => unit :: PfComponent.htobe16 value

def octets (p : QosFlowParameter) : List UInt8 := p.identifier :: p.len :: p.value.octets

/-- A parameter that the builder knows, with the length that it asserts. -/
inductive Known : QosFlowParameter → Prop
  | fiveQi (q : UInt8) : Known ⟨id5Qi, 1, .qosIndex q⟩
  | bitrate (identifier unit : UInt8) (value : UInt16) (h : isBitrate identifier) :
    Known ⟨identifier, 3, .br unit value⟩

theorem not_isBitrate_id5Qi : ¬isBitrate id5Qi := by decide

theorem ne_id5Qi {identifier : UInt8} (h : isBitrate identifier) : identifier ≠ id5Qi := by
  rintro rfl
  exact not_isBitrate_id5Qi h

variable {p : QosFlowParameter}

theorem Known.build_eq (h : p.Known) : p.build = .ok p.octets := by
  cases h with
  | fiveQi q => rfl
  | bitrate identifier unit value h =>
    unfold build
    rw [if_neg (ne_id5Qi h), if_pos h, if_pos rfl]
    rfl

theorem Known.length_octets_le (h : p.Known) : p.octets.length ≤ 5 := by
  cases h <;> simp [octets, Value.octets, PfComponent.htobe16]

end QosFlowParameter

theorem parseQosFlowValue_spells (identifier len : UInt8) :
    Spells (parseQosFlowValue identifier len) fun p octets =>
      p.Known ∧ identifier :: len :: octets = p.octets := by
  unfold parseQosFlowValue
  split_ifs with hid hlen hrate hlen
  · exact Spells.cleanup
  · obtain rfl := not_not.mp hlen
    subst hid
    apply (copyOctet_spells.bind fun q => Spells.pure _).mono
    rintro p _ ⟨q, _, _, rfl, ⟨rfl, rfl⟩, rfl⟩
    exact ⟨.fiveQi q, rfl⟩
  · exact Spells.cleanup
  · obtain rfl := not_not.mp hlen
    apply ((copyOctets_spells 3).bind fun octets => Spells.pure _).mono
    rintro p _ ⟨⟨⟨xs⟩, hsize⟩, _, _, rfl, ⟨rfl, rfl⟩, rfl⟩
    obtain ⟨unit, x, y, rfl⟩ := List.length_eq_three.mp hsize
    refine ⟨.bitrate identifier unit _ hrate, ?_⟩
    simp [QosFlowParameter.octets, QosFlowParameter.Value.octets, htobe16_ofNat_natBE]
  · exact Spells.cleanup

theorem parseQosFlowParameter_spells :
    Spells parseQosFlowParameter fun p octets => p.Known ∧ octets = p.octets := by
  apply (copyOctet_spells.bind fun identifier => copyOctet_spells.bind fun len =>
    parseQosFlowValue_spells identifier len).mono
  rintro p _ ⟨identifier, _, _, rfl, ⟨len, _, octets, rfl, ⟨hknown, hoctets⟩, rfl⟩, rfl⟩
  exact ⟨hknown, hoctets⟩

theorem parseQosFlowParameters_spells (n : Nat) :
    Spells (parseQosFlowParameters n) fun ps octets =>
      ps.length = n ∧ (∀ p ∈ ps, p.Known) ∧ octets = ps.flatMap QosFlowParameter.octets := by
  induction n with
  | zero =>
    apply (Spells.pure []).mono
    rintro ps _ ⟨rfl, rfl⟩
    simp
  | succ n ih =>
    apply (parseQosFlowParameter_spells.bind fun p => ih.bind fun rest =>
      Spells.pure (p :: rest)).mono
    rintro _ _ ⟨p, _, _, ⟨hp, rfl⟩, ⟨ps, _, _, ⟨hlength, hps, rfl⟩, ⟨rfl, rfl⟩, rfl⟩, rfl⟩
    exact ⟨by simp [hlength], List.forall_mem_cons.mpr ⟨hp, hps⟩, by simp⟩

namespace QosFlowDescription

def octets (d : QosFlowDescription) : List UInt8 :=
  d.header.toList ++ d.param.flatMap QosFlowParameter.octets

/-- All declared parameters are there, and their array has room for them. -/
structure Complete (d : QosFlowDescription) : Prop where
  count : d.param.length = d.numOfParameter
  fits : d.numOfParameter ≤ maxNumOfQosFlowParameter
  known : ∀ p ∈ d.param, p.Known

/-- The array is full before the last declared parameter. -/
structure Clipped (d : QosFlowDescription) : Prop where
  count : d.param.length = maxNumOfQosFlowParameter
  surplus : maxNumOfQosFlowParameter < d.numOfParameter
  known : ∀ p ∈ d.param, p.Known

end QosFlowDescription

theorem parseQosFlowDescription_spells :
    Spells parseQosFlowDescription fun d octets => (d.Complete ∨ d.Clipped) ∧ octets = d.octets := by
  apply ((copyOctets_spells 3).bind fun header =>
    (parseQosFlowParameters_spells _).bind fun param =>
      Spells.pure (QosFlowDescription.mk header param)).mono
  rintro _ _ ⟨header, _, _, rfl, ⟨param, _, _, ⟨hcount, hknown, rfl⟩, ⟨rfl, rfl⟩, rfl⟩, rfl⟩
  refine ⟨?_, by simp [QosFlowDescription.octets]⟩
  rcases Nat.lt_or_ge maxNumOfQosFlowParameter
    (QosFlowDescription.numOfParameter ⟨header, []⟩) with hmore | hfits
  · rw [Nat.min_eq_right hmore.le] at hcount
    exact .inr ⟨hcount, hmore, hknown⟩
  · rw [Nat.min_eq_left hfits] at hcount
    exact .inl ⟨hcount, hfits, hknown⟩

/-! ## Reading back a list of descriptions -/

namespace QosFlowDescription

variable {d : QosFlowDescription}

theorem Complete.length_octets_le (h : d.Complete) : d.octets.length ≤ 43 := by
  have hparam : (d.param.flatMap QosFlowParameter.octets).length ≤ 5 * d.param.length :=
    length_flatMap_le fun p hp => (h.known p hp).length_octets_le
  have hcount : d.param.length ≤ 8 := h.count.trans_le h.fits
  rw [octets, List.length_append, Vector.length_toList]
  omega

/-- The parameters behind those that are done are written behind what is there. -/
theorem appendParam_eq (hfits : d.param.length ≤ maxNumOfQosFlowParameter)
    (done rest : List QosFlowParameter) (hparam : d.param = done ++ rest)
    (hknown : ∀ p ∈ rest, p.Known) (buffer : List UInt8)
    (hroom : buffer.length + (rest.flatMap QosFlowParameter.octets).length ≤
      maxQosFlowDescriptionsLen) :
    d.appendParam rest.length done.length buffer =
      .ok (buffer ++ rest.flatMap QosFlowParameter.octets) := by
  induction rest generalizing done buffer with
  | nil => simp [appendParam]
  | cons p rest ih =>
    rw [List.flatMap_cons, List.length_append] at hroom
    have hlength : d.param.length = done.length + (rest.length + 1) := by
      rw [hparam, List.length_append, List.length_cons]
    have hat : d.paramAt done.length = .ok p := by
      rw [paramAt, if_pos (by omega), hparam]
      simp
    have hrest := ih (done ++ [p]) (by simp [hparam])
      (fun q hq => hknown q (List.mem_cons_of_mem _ hq)) (buffer ++ p.octets)
      (by rw [List.length_append]; omega)
    rw [List.length_append, List.length_singleton] at hrest
    rw [List.length_cons, appendParam, hat, ok_bind, (hknown p List.mem_cons_self).build_eq, ok_bind,
      putOctets_eq (by omega), ok_bind, hrest, List.flatMap_cons, List.append_assoc]

end QosFlowDescription

theorem appendDescriptions_eq (ds : List QosFlowDescription) (hds : ∀ d ∈ ds, d.Complete)
    (buffer : List UInt8)
    (hroom : buffer.length + (ds.flatMap QosFlowDescription.octets).length ≤
      maxQosFlowDescriptionsLen) :
    appendDescriptions ds buffer = .ok (buffer ++ ds.flatMap QosFlowDescription.octets) := by
  induction ds generalizing buffer with
  | nil => simp [appendDescriptions]
  | cons d ds ih =>
    have hd := hds d List.mem_cons_self
    rw [List.flatMap_cons, List.length_append, QosFlowDescription.octets, List.length_append] at hroom
    have hparam := d.appendParam_eq (hd.count.trans_le hd.fits) [] d.param (List.nil_append _).symm
      hd.known (buffer ++ d.header.toList) (by rw [List.length_append]; omega)
    have hrest := ih (fun e he => hds e (List.mem_cons_of_mem _ he))
      (buffer ++ d.header.toList ++ d.param.flatMap QosFlowParameter.octets)
      (by rw [List.length_append, List.length_append]; omega)
    rw [hd.count, List.length_nil] at hparam
    rw [appendDescriptions, putOctets_eq (by omega), ok_bind, hparam, ok_bind, hrest,
      List.flatMap_cons, QosFlowDescription.octets]
    simp only [List.append_assoc]

theorem parseQosFlowParameter_copies {p : QosFlowParameter} (h : p.Known) :
    Copies parseQosFlowParameter p.octets p := by
  cases h with
  | fiveQi q =>
    exact (copyOctet_copies _).bind ((copyOctet_copies _).bind
      ((copyOctet_copies q).bind_end (Copies.pure _)))
  | bitrate identifier unit value h =>
    have hread : Copies (parseQosFlowValue identifier 3) (unit :: PfComponent.htobe16 value)
        ⟨identifier, 3, .br unit value⟩ := by
      unfold parseQosFlowValue
      rw [if_neg (QosFlowParameter.ne_id5Qi h), if_pos h, if_neg (not_not.mpr rfl)]
      obtain ⟨x, y, hxy⟩ := List.length_eq_two.mp (length_octetsBE 2 value.toNat)
      have hvalue : UInt16.ofNat (natBE [x, y]) = value := by
        have hlt : value.toNat % 256 ^ 2 = value.toNat := Nat.mod_eq_of_lt value.toNat_lt
        rw [← hxy, natBE_octetsBE, hlt, UInt16.ofNat_toNat]
      rw [PfComponent.htobe16, hxy, ← hvalue]
      exact (copyOctets_copies #v[unit, x, y]).bind_end (Copies.pure _)
    exact (copyOctet_copies _).bind ((copyOctet_copies _).bind hread)

theorem parseQosFlowParameters_copies (ps : List QosFlowParameter) (h : ∀ p ∈ ps, p.Known) :
    Copies (parseQosFlowParameters ps.length) (ps.flatMap QosFlowParameter.octets) ps := by
  induction ps with
  | nil => exact Copies.pure _
  | cons p ps ih =>
    have hrest := ih fun q hq => h q (List.mem_cons_of_mem _ hq)
    exact (parseQosFlowParameter_copies (h p List.mem_cons_self)).bind
      (hrest.bind_end (Copies.pure _))

variable {d : QosFlowDescription}

theorem parseQosFlowDescription_copies (hd : d.Complete ∨ d.Clipped) :
    Copies parseQosFlowDescription d.octets d := by
  have hcount : d.param.length = min d.numOfParameter maxNumOfQosFlowParameter := by
    rcases hd with hd | hd
    · rw [Nat.min_eq_left hd.fits, hd.count]
    · rw [Nat.min_eq_right hd.surplus.le, hd.count]
  have hknown : ∀ p ∈ d.param, p.Known := hd.elim (·.known) (·.known)
  have hparam := parseQosFlowParameters_copies d.param hknown
  rw [hcount] at hparam
  exact (copyOctets_copies d.header).bind (hparam.bind_end (Copies.pure _))

/-- A description is taken just where its octets are in front, and none is read into a fault. -/
theorem parseQosFlowDescription_parses :
    Parses parseQosFlowDescription.onWhole QosFlowDescription.octets
      (fun d => d.Complete ∨ d.Clipped) fun _ => True where
  ok_iff {s d rest} := by
    rw [BoundedRead.onWhole, map_eq_ok]
    constructor
    · rintro ⟨⟨e, v⟩, hrun, heq⟩
      cases heq
      obtain ⟨_, t, ⟨hd, rfl⟩, hs, rfl⟩ := parseQosFlowDescription_spells.front hrun
      exact ⟨hd, hs⟩
    · rintro ⟨hd, rfl⟩
      exact ⟨_, (parseQosFlowDescription_copies hd).whole rest, rfl⟩
  fault_iff {s} := by
    refine iff_of_false ?_ (not_not.mpr trivial)
    rintro ⟨f, hfault⟩
    rw [BoundedRead.onWhole] at hfault
    cases hrun : parseQosFlowDescription (.whole s) with
    | error stop =>
      obtain rfl := parseQosFlowDescription_spells.stops hrun
      rw [hrun] at hfault
      cases hfault
    | ok x =>
      rw [hrun] at hfault
      cases hfault

/-! ## The two halves -/

/-- A list that the arrays of the parser have room for, with parameters that the builder knows. -/
structure DescriptionsWithin (ds : List QosFlowDescription) : Prop where
  nonempty : ds ≠ []
  count : ds.length ≤ maxNumOfQosFlowDescription
  complete : ∀ d ∈ ds, d.Complete

/-- Wherever a description begins, behind complete ones, fewer than eight stand before it, and the
array of its parameters is not full before the last one that it declares. -/
def DescriptionsInPlace (s : List UInt8) : Prop :=
  ∀ (ds : List QosFlowDescription) (rest : List UInt8), (∀ d ∈ ds, d.Complete) →
    s = ds.flatMap QosFlowDescription.octets ++ rest → rest ≠ [] →
    ds.length < maxNumOfQosFlowDescription ∧
      ∀ (d : QosFlowDescription) (t : List UInt8), d.Clipped → rest ≠ d.octets ++ t

theorem QosFlowDescription.Clipped.not_complete (hd : d.Clipped) :
    ¬d.Complete := fun h => Nat.lt_irrefl _ (hd.surplus.trans_le h.fits)

theorem inPlace_iff_descriptionsInPlace (s : List UInt8) :
    InPlace QosFlowDescription.octets (fun d => d.Complete ∨ d.Clipped)
      QosFlowDescription.Complete (fun _ => True) maxNumOfQosFlowDescription s ↔
      DescriptionsInPlace s := by
  constructor
  · intro h ds rest hds hs hne
    obtain ⟨hslots, -, hgood⟩ := h ds rest hds hs hne
    exact ⟨hslots, fun d t hd ht => hd.not_complete (hgood d t (.inr hd) ht)⟩
  · intro h ds rest hds hs hne
    obtain ⟨hslots, hclipped⟩ := h ds rest hds hs hne
    exact ⟨hslots, trivial, fun d t hd ht => hd.resolve_right fun h => hclipped d t h ht⟩

/-- What is built is parsed again. An octet string is read as descriptions that are completely present
at its front if and only if none begins behind eight others and none has surplus parameters. -/
theorem flow_descriptions_iff (ds : List QosFlowDescription) (hds : DescriptionsWithin ds)
    (s : List UInt8) :
    (∃ octets, buildQosFlowDescriptions ds = .ok octets ∧
      parseQosFlowDescriptions octets = .ok ds) ∧
    (ReadInside QosFlowDescription.octets QosFlowDescription.Complete (parseQosFlowDescriptions s) s ↔
      DescriptionsInPlace s) := by
  refine ⟨⟨ds.flatMap QosFlowDescription.octets, ?_, ?_⟩, ?_⟩
  · have hlength : (ds.flatMap QosFlowDescription.octets).length ≤ 43 * ds.length :=
      length_flatMap_le fun d hd => (hds.complete d hd).length_octets_le
    have hcount : ds.length ≤ 8 := hds.count
    rw [buildQosFlowDescriptions, if_neg hds.nonempty]
    apply appendDescriptions_eq ds hds.complete
    rw [List.length_nil, maxQosFlowDescriptionsLen]
    omega
  · exact parseQosFlowDescription_parses.flatMap_octets (fun d hd => .inl (hds.complete d hd))
      (fun d _ => by simp [QosFlowDescription.octets]) hds.count
  · rw [← inPlace_iff_descriptionsInPlace]
    exact parseQosFlowDescription_parses.readInside_iff (fun _ => .inl) _ s

/-- One description that creates flow 1 with the 5QI 9. -/
def flow9 : QosFlowDescription := ⟨#v[1, 0x20, 0x41], [⟨1, 1, .qosIndex 9⟩]⟩

theorem flow_descriptions_flow9 :
    (∃ octets, buildQosFlowDescriptions [flow9] = .ok octets ∧
      parseQosFlowDescriptions octets = .ok [flow9]) ∧
    (ReadInside QosFlowDescription.octets QosFlowDescription.Complete (parseQosFlowDescriptions []) []
      ↔ DescriptionsInPlace []) :=
  flow_descriptions_iff [flow9] ⟨by simp, by decide, by
    simp only [List.forall_mem_singleton]
    exact ⟨rfl, by decide, List.forall_mem_singleton.mpr (.fiveQi 9)⟩⟩ []

/-- A description with nine parameters, each a 5QI of three octets. -/
def nineParameters : List UInt8 := [1, 0x20, 0x49] ++ (List.replicate 9 [1, 1, 0x40]).flatten

/-- The ninth parameter is read as a description of its own. -/
theorem not_flow_descriptions :
    ¬ReadInside QosFlowDescription.octets QosFlowDescription.Complete
      (parseQosFlowDescriptions nineParameters) nineParameters := by
  let first : QosFlowDescription := ⟨#v[1, 0x20, 0x49], List.replicate 8 ⟨1, 1, .qosIndex 0x40⟩⟩
  have hfirst : first.Clipped := by
    refine ⟨rfl, by decide, fun p hp => ?_⟩
    rw [List.eq_of_mem_replicate hp]
    exact .fiveQi 0x40
  have hoctets : nineParameters = first.octets ++ [1, 1, 0x40] := by decide
  rw [parseQosFlowDescriptions, parseQosFlowDescription_parses.readInside_iff (fun _ => .inl),
    inPlace_iff_descriptionsInPlace]
  intro h
  exact (h [] _ (by simp) rfl (by decide)).2 first [1, 1, 0x40] hfirst hoctets

end Quicup.Open5gs
