import Quicup.Open5gs.Pfcp.DomainName
import Quicup.Open5gs.Pfcp.IeCodecs

/-!
# What the parsers return of what was built

Each pair of `types.c`: for which values the parser returns what the builder wrote.
-/

namespace Quicup.Open5gs.Pfcp

open Fallible

/-- The parser returns what the builder wrote, as far as it is announced, and reads all of it. -/
def IeReturned {α : Type} (build : Except Fault (List UInt8))
    (parse : List UInt8 → Except Fault (Nat × α)) (announced : α → α) (value : α) : Prop :=
  ∃ octets found, build = .ok octets ∧ parse octets = .ok (octets.length, found) ∧
    announced found = announced value

/-- A builder that asserts a flag, and whose octets are parsed to what is announced. -/
theorem ieReturned_iff {α : Type} {flags : UInt8} {octets : List UInt8} {fault : Fault}
    {build : Except Fault (List UInt8)} {parse : List UInt8 → Except Fault (Nat × α)}
    {announced : α → α} {value : α} (hbuild : build = if flags = 0 then .error fault else .ok octets)
    (hparse : ∀ {octets}, build = .ok octets → parse octets = .ok (octets.length, announced value))
    (hannounced : announced (announced value) = announced value) :
    IeReturned build parse announced value ↔ flags ≠ 0 := by
  constructor
  · rintro ⟨octets, found, hok, -⟩ hflags
    rw [hbuild, if_pos hflags] at hok
    exact nomatch hok
  · intro hflags
    have hok : build = .ok octets := hbuild.trans (if_neg hflags)
    exact ⟨octets, announced value, hok, hparse hok, hannounced⟩

/-! ## Volumes and thresholds -/

theorem ite_announced {α : Type} (flag : Bool) (x y : α) :
    (if flag then if flag then x else y else y) = if flag then x else y := by
  cases flag with
  | false => rfl
  | true => rfl

namespace Volume

variable (volume : Volume)

abbrev Returned : Prop := IeReturned volume.build parse announced volume

theorem announced_announced : volume.announced.announced = volume.announced :=
  (Volume.mk.injEq ..).mpr ⟨rfl, ite_announced (bit volume.flags 1) _ _,
    ite_announced (bit volume.flags 2) _ _, ite_announced (bit volume.flags 4) _ _⟩

theorem returned_iff : volume.Returned ↔ volume.flags ≠ 0 :=
  ieReturned_iff rfl volume.parse_build volume.announced_announced

end Volume

namespace DroppedDlTrafficThreshold

variable (threshold : DroppedDlTrafficThreshold)

abbrev Returned : Prop := IeReturned threshold.build parse announced threshold

theorem announced_announced : threshold.announced.announced = threshold.announced :=
  (DroppedDlTrafficThreshold.mk.injEq ..).mpr ⟨rfl, ite_announced (bit threshold.flags 1) _ _,
    ite_announced (bit threshold.flags 2) _ _⟩

theorem returned_iff : threshold.Returned ↔ threshold.flags ≠ 0 :=
  ieReturned_iff rfl threshold.parse_build threshold.announced_announced

end DroppedDlTrafficThreshold

namespace VolumeMeasurement

variable (volume : VolumeMeasurement)

abbrev Returned : Prop := IeReturned volume.build parse announced volume

theorem announced_announced : volume.announced.announced = volume.announced :=
  (VolumeMeasurement.mk.injEq ..).mpr ⟨rfl, ite_announced (bit volume.flags 1) _ _,
    ite_announced (bit volume.flags 2) _ _, ite_announced (bit volume.flags 4) _ _,
    ite_announced (bit volume.flags 8) _ _, ite_announced (bit volume.flags 16) _ _,
    ite_announced (bit volume.flags 32) _ _⟩

theorem returned_iff : volume.Returned ↔ volume.flags ≠ 0 :=
  ieReturned_iff rfl volume.parse_build volume.announced_announced

end VolumeMeasurement

/-! ## Bitrates -/

/-- A rate in bits per second that is rounded upwards to whole kilobits. -/
def wholeKilobits (rate : UInt64) : UInt64 := .ofNat ((rate.toNat + 999) / 1000 * 1000)

theorem kilobits_eq (rate : UInt64) : kilobits rate = (rate.toNat + 999) / 1000 := by
  unfold kilobits
  split_ifs with h <;> omega

namespace Bitrate

variable (bitrate : Bitrate)

/-- The rates come back as whole kilobits from the ten octets that are decoded. -/
def Returned : Prop :=
  parse bitrate.build = some ⟨wholeKilobits bitrate.uplink, wholeKilobits bitrate.downlink⟩ ∧
    bitrate.build.length = bitrateLen

theorem returned (huplink : kilobits bitrate.uplink < 2 ^ 40)
    (hdownlink : kilobits bitrate.downlink < 2 ^ 40) : bitrate.Returned := by
  have hlength (value : Nat) : (octetsBE 5 value).length = 5 := length_octetsBE 5 value
  have hten : bitrate.build.length = bitrateLen := by
    rw [build, List.length_append, hlength, hlength]
    rfl
  have hvalue {value : Nat} (h : value < 2 ^ 40) : natBE (octetsBE 5 value) = value := by
    rw [natBE_octetsBE]
    exact Nat.mod_eq_of_lt h
  refine ⟨?_, hten⟩
  rw [parse, if_pos hten, build, List.take_left' (hlength _), List.drop_left' (hlength _),
    hvalue huplink, hvalue hdownlink, kilobits_eq, kilobits_eq]
  rfl

end Bitrate

/-! ## Resources of the user plane -/

theorem takePart_append {n : Nat} (flag : Bool) (part : Vector UInt8 n) (behind : List UInt8) :
    takePart n flag ((if flag then part.toList else []) ++ behind) =
      some (if flag then part else Vector.replicate n 0, behind) := by
  cases flag with
  | false => rfl
  | true =>
    have hlength : part.toList.length = n := Vector.length_toList
    have htake : (part.toList ++ behind).take n = part.toList := List.take_left' hlength
    have hdrop : (part.toList ++ behind).drop n = behind := List.drop_left' hlength
    rw [takePart, if_pos rfl, if_pos rfl, if_pos rfl, dif_pos (htake.symm ▸ hlength)]
    simp only [htake, hdrop]
    rfl

/-- A part is written behind what takes so many octets at most. -/
theorem putFlagged_within (room : Nat) {n : Nat} {written : List UInt8} (flag : Bool)
    (part : List UInt8) (hwritten : written.length ≤ n) (hroom : n + part.length ≤ room) :
    putFlagged room written flag part = .ok (written ++ if flag then part else []) ∧
      (written ++ if flag then part else []).length ≤ n + part.length := by
  cases flag with
  | false =>
    refine ⟨congrArg Except.ok (List.append_nil written).symm, ?_⟩
    rw [if_neg Bool.false_ne_true, List.append_nil]
    omega
  | true =>
    refine ⟨putOctets_eq (by omega), ?_⟩
    rw [if_pos rfl, List.length_append]
    omega

namespace UserPlaneIpResourceInfo

variable (info : UserPlaneIpResourceInfo) {dataLen : Nat}

/-- The name as octets, where it is announced. -/
def nameOctets : List UInt8 := if info.assoni then fqdnBuild info.networkInstance else []

/-- The octets of a value, in the order in which they are written. -/
def octets : List UInt8 :=
  [info.flags] ++ (if info.teidri then [info.teidRange] else []) ++
    (if info.v4 then info.addr.toList else []) ++ (if info.v6 then info.addr6.toList else []) ++
    info.nameOctets ++ (if info.assosi then [info.sourceInterface] else [])

/-- The most octets that are written for a value. -/
def maxOctets : Nat := 24 + info.networkInstance.length

theorem length_nameOctets : info.nameOctets.length ≤ info.networkInstance.length + 1 := by
  rw [nameOctets]
  split_ifs
  · rw [length_fqdnBuild]
  · exact Nat.zero_le _

theorem build_eq (hroom : info.maxOctets ≤ dataLen) : info.build dataLen = .ok info.octets := by
  unfold maxOctets at hroom
  have hname := info.length_nameOctets
  have haddr : info.addr.toList.length = 4 := Vector.length_toList
  have haddr6 : info.addr6.toList.length = 16 := Vector.length_toList
  have hflags : putOctets dataLen [] [info.flags] = .ok [info.flags] :=
    putOctets_eq (show 0 + 1 ≤ dataLen by omega)
  obtain ⟨hteid, hlteid⟩ := putFlagged_within dataLen info.teidri [info.teidRange]
    (Nat.le_refl [info.flags].length) (show 1 + 1 ≤ dataLen by omega)
  have hlteid : _ ≤ 2 := hlteid
  obtain ⟨h4, hl4⟩ := putFlagged_within dataLen info.v4 info.addr.toList hlteid
    (show 2 + info.addr.toList.length ≤ dataLen by omega)
  rw [haddr] at hl4
  obtain ⟨h6, hl6⟩ := putFlagged_within dataLen info.v6 info.addr6.toList hl4
    (show 6 + info.addr6.toList.length ≤ dataLen by omega)
  rw [haddr6] at hl6
  have hlname := Nat.add_le_add hl6 hname
  rw [← List.length_append] at hlname
  obtain ⟨hassosi, -⟩ := putFlagged_within dataLen info.assosi [info.sourceInterface] hlname
    (by rw [List.length_singleton]; omega)
  rw [build, if_neg (by omega), hflags]
  simp only [ok_bind, hteid, h4, h6]
  rw [if_neg (by rw [← List.length_append]; exact Nat.not_lt_of_le (hlname.trans (by omega)))]
  exact hassosi

/-- The octet of the source interface, where it is announced. -/
def lastOctets : List UInt8 := if info.assosi then [info.sourceInterface] else []

theorem takePart_one (flag : Bool) (x : UInt8) (behind : List UInt8) :
    takePart 1 flag ((if flag then [x] else []) ++ behind) =
      some (if flag then #v[x] else Vector.replicate 1 0, behind) :=
  takePart_append flag #v[x] behind

theorem getElem_ite_one (flag : Bool) (x : UInt8) :
    (if flag then #v[x] else Vector.replicate 1 0)[0]! = if flag then x else 0 := by
  cases flag <;> rfl

/-- What is left of the octets behind the name. -/
theorem parseName_octets (value : UserPlaneIpResourceInfo) (hflags : value.flags = info.flags) :
    value.parseName (info.nameOctets ++ info.lastOctets) =
      if info.assoni then
        (fqdnParse (info.nameOctets ++ info.lastOctets)
          (min (info.networkInstance.length + 1) maxDnnLen)).map fun name =>
            some (info.nameOctets.length, { value with networkInstance := name.getD [] })
      else .ok (some (0, value)) := by
  have hassoni : value.assoni = info.assoni := congrArg (bit · 32) hflags
  have hassosi : value.assosi = info.assosi := congrArg (bit · 64) hflags
  rw [parseName, hassoni, hassosi]
  by_cases h : info.assoni
  · have hname : info.nameOctets.length = info.networkInstance.length + 1 := by
      rw [nameOctets, if_pos h, length_fqdnBuild]
    have hlen : (if info.assosi then (info.nameOctets ++ info.lastOctets).length - 1
        else (info.nameOctets ++ info.lastOctets).length) = info.nameOctets.length := by
      rw [List.length_append, lastOctets]
      cases info.assosi <;> rfl
    rw [if_pos h, if_pos h, hlen, if_neg (by rw [List.length_append]; omega), if_neg (by omega), hname]
    rfl
  · rw [if_neg h, if_neg h]
    rfl

/-- The parser reads all but the name as it was written. -/
theorem parse_octets :
    parse info.octets =
      if info.assoni then
        (fqdnParse (fqdnBuild info.networkInstance ++ info.lastOctets)
          (min (info.networkInstance.length + 1) maxDnnLen)).map fun name =>
            (info.octets.length, { info.announced with networkInstance := name.getD [] })
      else .ok (info.octets.length, info.announced) := by
  have hoctets : info.octets = info.flags :: ((if info.teidri then [info.teidRange] else []) ++
      ((if info.v4 then info.addr.toList else []) ++ ((if info.v6 then info.addr6.toList else []) ++
        (info.nameOctets ++ info.lastOctets)))) := by
    simp only [octets, lastOctets, List.append_assoc, List.cons_append, List.nil_append]
  have hlast : takePart 1 info.assosi info.lastOctets =
      some (if info.assosi then #v[info.sourceInterface] else Vector.replicate 1 0, []) := by
    have h := takePart_one info.assosi info.sourceInterface []
    rwa [List.append_nil] at h
  have hlength := congrArg List.length hoctets
  rw [hlength, hoctets, parse]
  simp only [show teidri { flags := info.flags } = info.teidri from rfl, takePart_one,
    show ∀ x, v4 { flags := info.flags, teidRange := x } = info.v4 from fun _ => rfl,
    show ∀ x y, v6 { flags := info.flags, teidRange := x, addr := y } = info.v6 from fun _ _ => rfl,
    takePart_append, getElem_ite_one]
  rw [info.parseName_octets _ ?hflags]
  case hflags => rfl
  by_cases h : info.assoni
  · have hname : info.nameOctets = fqdnBuild info.networkInstance := if_pos h
    rw [if_pos h, if_pos h, hname]
    cases fqdnParse (fqdnBuild info.networkInstance ++ info.lastOctets)
        (min (info.networkInstance.length + 1) maxDnnLen) with
    | error fault => rfl
    | ok name =>
      simp only [Except.map, ok_bind, List.drop_left, hlast,
        show ∀ x y z w, assosi ⟨info.flags, x, y, z, w, 0⟩ = info.assosi from fun _ _ _ _ => rfl,
        getElem_ite_one]
      rfl
  · have hname : info.nameOctets = [] := if_neg h
    rw [if_neg h, if_neg h, hname]
    simp only [ok_bind, List.drop_zero, List.nil_append, hlast, announced, if_neg h,
      show ∀ x y z w, assosi ⟨info.flags, x, y, z, w, 0⟩ = info.assosi from fun _ _ _ _ => rfl,
      getElem_ite_one]
    rfl

abbrev Returned (dataLen : Nat) : Prop := IeReturned (info.build dataLen) parse announced info

theorem announced_networkInstance (name : List UInt8) :
    UserPlaneIpResourceInfo.announced { info.announced with networkInstance := name } =
      { info.announced with networkInstance := if info.assoni then name else [] } := by
  exact (UserPlaneIpResourceInfo.mk.injEq ..).mpr
    ⟨rfl, ite_announced info.teidri _ _, ite_announced info.v4 _ _, ite_announced info.v6 _ _, rfl,
      ite_announced info.assosi _ _⟩

/-- A name that is announced comes back if it has less than 100 octets and does not end in a dot. -/
theorem returned_iff (hroom : info.maxOctets ≤ dataLen) (hzero : (0 : UInt8) ∉ info.networkInstance)
    (hlong : info.networkInstance.length ≤ maxDnnLen) :
    info.Returned dataLen ↔ (info.assoni → info.networkInstance.length < maxDnnLen ∧
      info.networkInstance.getLast? ≠ some dot) := by
  have hrun : info.Returned dataLen ↔
      ∃ value, parse info.octets = .ok (info.octets.length, value) ∧
        value.announced = info.announced := by
    constructor
    · rintro ⟨octets, value, hbuild, h⟩
      rw [info.build_eq hroom] at hbuild
      obtain rfl := Except.ok.inj hbuild
      exact ⟨value, h⟩
    · rintro ⟨value, h⟩
      exact ⟨info.octets, value, info.build_eq hroom, h⟩
  rw [hrun, parse_octets]
  by_cases hassoni : info.assoni
  · have hannounced (name : List UInt8) :
        UserPlaneIpResourceInfo.announced { info.announced with networkInstance := name } =
          info.announced ↔ name = info.networkInstance := by
      rw [announced_networkInstance, if_pos hassoni]
      simp only [announced, if_pos hassoni, UserPlaneIpResourceInfo.mk.injEq, true_and, and_true]
    rw [if_pos hassoni, imp_iff_right hassoni,
      ← fqdnParse_fqdnBuild_iff info.lastOctets hzero hlong]
    constructor
    · rintro ⟨value, hparse, hvalue⟩
      obtain ⟨found, hfound, hpair⟩ := map_eq_ok.mp hparse
      obtain rfl := (Prod.mk.inj hpair).2
      exact ⟨found, hfound, (hannounced _).mp hvalue⟩
    · rintro ⟨found, hfound, hname⟩
      exact ⟨_, map_eq_ok.mpr ⟨found, hfound, rfl⟩, (hannounced _).mpr hname⟩
  · have hannounced := info.announced_networkInstance []
    have hnone : info.announced = { info.announced with networkInstance := [] } := by
      simp only [announced, if_neg hassoni]
    rw [if_neg hassoni, ← hnone] at hannounced
    rw [if_neg hassoni]
    constructor
    · rintro - h
      exact absurd h hassoni
    · rintro -
      exact ⟨info.announced, rfl, hannounced⟩

end UserPlaneIpResourceInfo

/-! ## SDF filters -/

/-- So many octets of a buffer are written. -/
structure IeWriter.Holds (w : IeWriter) (room : Nat) (written : List UInt8) : Prop where
  length_memory : w.memory.length = room
  size_eq : w.size = written.length
  take_memory : w.memory.take written.length = written

namespace IeWriter

variable {w : IeWriter} {room : Nat} {written : List UInt8}

theorem Holds.copied (h : w.Holds room written) (part : List UInt8)
    (hroom : written.length + part.length ≤ room) (hshort : written.length + part.length < 32768) :
    (w.copied part).Holds room (written ++ part) := by
  have hlength := h.length_memory
  have hsize : w.size.toNat = written.length := by rw [h.size_eq]; rfl
  have hmemory : (w.copied part).memory =
      written ++ (part ++ w.memory.drop (written.length + part.length)) := by
    rw [IeWriter.copied, hsize, h.take_memory]
  refine ⟨?_, ?_, ?_⟩
  · rw [hmemory, List.length_append, List.length_append, List.length_drop]
    omega
  · change int16 (w.size + part.length) = _
    rw [h.size_eq, List.length_append, int16]
    omega
  · rw [hmemory, ← List.append_assoc, List.take_left' rfl]

theorem Holds.put (h : w.Holds room written) {part : List UInt8}
    (hroom : written.length + part.length ≤ room) (hshort : written.length + part.length < 32768) :
    w.put part = .ok (w.copied part) := by
  have hlength := h.length_memory
  have hsize := h.size_eq
  rw [IeWriter.put, if_neg (by omega), if_neg (by omega)]

theorem Holds.putSigned (h : w.Holds room written) {part : List UInt8}
    (hroom : written.length + part.length ≤ room) :
    w.putSigned part = .ok (w.copied part) := by
  have hlength := h.length_memory
  have hsize := h.size_eq
  rw [IeWriter.putSigned, if_neg (by omega), if_neg (by omega)]

/-- A number is written where it is announced. -/
theorem Holds.putFlagged (h : w.Holds room written) {n : Nat} (flag : Bool) (value : Nat)
    (hroom : written.length + (flagged n flag value).length ≤ room)
    (hshort : written.length + (flagged n flag value).length < 32768) :
    ∃ w', w.putFlagged flag (octetsBE n value) = .ok w' ∧
      w.putSignedFlagged flag (octetsBE n value) = .ok w' ∧
        w'.Holds room (written ++ flagged n flag value) := by
  cases flag with
  | false =>
    refine ⟨w, rfl, rfl, ?_⟩
    rw [flagged, if_neg Bool.false_ne_true, List.append_nil]
    exact h
  | true =>
    exact ⟨w.copied (octetsBE n value), h.put hroom hshort, h.putSigned hroom,
      h.copied _ hroom hshort⟩

theorem Holds.len (h : w.Holds room written) (hshort : written.length < 32768) :
    w.len = written.length := by
  have hsize := h.size_eq
  rw [IeWriter.len]
  omega

/-- The size is a number of 16 bits with a sign. -/
def InRange (w : IeWriter) : Prop := -32768 ≤ w.size ∧ w.size < 32768

theorem inRange_copied (w : IeWriter) (part : List UInt8) : (w.copied part).InRange := by
  change -32768 ≤ int16 _ ∧ int16 _ < 32768
  unfold int16
  omega

variable {w' : IeWriter} {part : List UInt8} {flag : Bool}

theorem inRange_of_put (h : w.put part = .ok w') : w'.InRange := by
  unfold IeWriter.put at h
  split_ifs at h
  obtain rfl := Except.ok.inj h
  exact inRange_copied w part

theorem inRange_of_putSigned (h : w.putSigned part = .ok w') : w'.InRange := by
  unfold IeWriter.putSigned at h
  split_ifs at h
  obtain rfl := Except.ok.inj h
  exact inRange_copied w part

theorem InRange.of_putFlagged (hw : w.InRange) (h : w.putFlagged flag part = .ok w') :
    w'.InRange := by
  cases flag with
  | false => exact Except.ok.inj h ▸ hw
  | true => exact inRange_of_put h

theorem InRange.of_putSignedFlagged (hw : w.InRange) (h : w.putSignedFlagged flag part = .ok w') :
    w'.InRange := by
  cases flag with
  | false => exact Except.ok.inj h ▸ hw
  | true => exact inRange_of_putSigned h

end IeWriter

namespace SdfFilter

variable (filter : SdfFilter) {memory : List UInt8}

/-- The octets of the description, with its length in front. -/
def descriptionOctets : List UInt8 :=
  if filter.fd then octetsBE 2 filter.flowDescription.length ++ filter.flowDescription else []

/-- The octets of the numbers behind the description. -/
def numberOctets : List UInt8 :=
  flagged 2 filter.ttc filter.tosTrafficClass.toNat ++
    (flagged 4 filter.spi filter.securityParameterIndex.toNat ++
      (flagged 3 filter.fl (filter.flowLabel.toNat / 256) ++
        flagged 4 filter.bid filter.sdfFilterId.toNat))

def octets : List UInt8 :=
  filter.flags :: filter.spare2 :: (filter.descriptionOctets ++ filter.numberOctets)

/-- How many octets a filter takes. -/
def octetCount : Nat :=
  2 + (if filter.fd then 2 + filter.flowDescription.length else 0) + (if filter.ttc then 2 else 0) +
    (if filter.spi then 4 else 0) + (if filter.fl then 3 else 0) + if filter.bid then 4 else 0

theorem length_flagged (n : Nat) (flag : Bool) (value : Nat) :
    (flagged n flag value).length = if flag then n else 0 := by
  cases flag with
  | false => rfl
  | true => exact length_octetsBE n value

theorem length_octets : filter.octets.length = filter.octetCount := by
  have hdescription : filter.descriptionOctets.length =
      if filter.fd then 2 + filter.flowDescription.length else 0 := by
    rw [descriptionOctets]
    split_ifs
    · rw [List.length_append, length_octetsBE]
    · rfl
  rw [octets, octetCount, List.length_cons, List.length_cons, List.length_append, hdescription,
    numberOctets]
  simp only [List.length_append, length_flagged]
  omega

/-- The description is written behind the two octets in front. -/
theorem putDescription_holds {w : IeWriter} {room : Nat} {written : List UInt8}
    (h : w.Holds room written) (hfit : filter.flowDescription.length < 65536)
    (hroom : written.length + filter.descriptionOctets.length ≤ room)
    (hshort : written.length + filter.descriptionOctets.length < 32768) :
    ∃ w', filter.putDescription w = .ok w' ∧ w'.Holds room (written ++ filter.descriptionOctets) := by
  rw [descriptionOctets] at hroom hshort ⊢
  rw [putDescription]
  split_ifs at hroom hshort ⊢
  · have hlength := length_octetsBE 2 filter.flowDescription.length
    rw [List.length_append] at hroom hshort
    have hlen := h.copied (octetsBE 2 filter.flowDescription.length) (by omega) (by omega)
    rw [Nat.mod_eq_of_lt hfit, List.take_length, h.put (by omega) (by omega)]
    simp only [ok_bind]
    rw [← Nat.add_assoc, ← List.length_append] at hroom hshort
    rw [← List.append_assoc]
    exact ⟨_, hlen.putSigned hroom, hlen.copied _ hroom hshort⟩
  · refine ⟨w, rfl, ?_⟩
    rw [List.append_nil]
    exact h

/-- A filter of less than 2^15 octets is written as its octets. -/
theorem buildInto_eq (hfit : filter.flowDescription.length < 65536)
    (hroom : filter.octetCount ≤ memory.length) (hshort : filter.octetCount < 32768) :
    ∃ memory', filter.buildInto memory = .ok (memory', filter.octetCount) ∧
      memory'.take filter.octetCount = filter.octets := by
  have htotal := filter.length_octets
  simp only [octets, numberOctets, List.length_cons, List.length_append] at htotal
  have hstart : IeWriter.Holds { memory } memory.length [] := ⟨rfl, rfl, rfl⟩
  have hone : [filter.flags].length = 1 := rfl
  have hflags := hstart.copied [filter.flags] (by simp; omega) (by simp)
  have hspare := hflags.copied [filter.spare2] (by simp; omega) (by simp)
  obtain ⟨w, hw, hdescription⟩ := filter.putDescription_holds hspare hfit (by simp; omega)
    (by simp; omega)
  obtain ⟨w₁, hw₁, -, httc⟩ := hdescription.putFlagged (n := 2) filter.ttc
    filter.tosTrafficClass.toNat (by simp; omega) (by simp; omega)
  obtain ⟨w₂, hw₂, -, hspi⟩ := httc.putFlagged (n := 4) filter.spi
    filter.securityParameterIndex.toNat (by simp; omega) (by simp; omega)
  obtain ⟨w₃, -, hw₃, hfl⟩ := hspi.putFlagged (n := 3) filter.fl (filter.flowLabel.toNat / 256)
    (by simp; omega) (by simp; omega)
  obtain ⟨w₄, hw₄, -, hbid⟩ := hfl.putFlagged (n := 4) filter.bid filter.sdfFilterId.toNat
    (by simp; omega) (by simp; omega)
  have hoctets : [] ++ [filter.flags] ++ [filter.spare2] ++ filter.descriptionOctets ++
      flagged 2 filter.ttc filter.tosTrafficClass.toNat ++
        flagged 4 filter.spi filter.securityParameterIndex.toNat ++
          flagged 3 filter.fl (filter.flowLabel.toNat / 256) ++
            flagged 4 filter.bid filter.sdfFilterId.toNat = filter.octets := by
    simp only [octets, numberOctets, List.append_assoc, List.cons_append, List.nil_append]
  rw [hoctets] at hbid
  refine ⟨w₄.memory, ?_, ?_⟩
  · rw [buildInto, if_neg (by omega), hstart.put (by simp; omega) (by simp)]
    simp only [ok_bind]
    rw [hflags.put (by simp; omega) (by simp)]
    simp only [ok_bind, hw, hw₁, hw₂, hw₃, hw₄]
    rw [hbid.len (by rw [length_octets]; exact hshort), length_octets]
    rfl
  · have htake := hbid.take_memory
    rwa [length_octets] at htake

/-- What is announced is said by the flags. -/
theorem announces : filter.fd = bit filter.flags 1 ∧ filter.ttc = bit filter.flags 2 ∧
    filter.spi = bit filter.flags 4 ∧ filter.fl = bit filter.flags 8 ∧
      filter.bid = bit filter.flags 16 :=
  ⟨rfl, rfl, rfl, rfl, rfl⟩

/-- A number that is announced adds to the size. -/
theorem ite_add_size (flag : Bool) (size k : Nat) :
    (if flag then size + k else size) = size + if flag then k else 0 := by
  cases flag with
  | false => rfl
  | true => rfl

theorem ofNat32_ite (flag : Bool) (value : UInt32) :
    UInt32.ofNat (if flag then value.toNat else 0) = if flag then value else 0 := by
  cases flag with
  | false => rfl
  | true => exact UInt32.ofNat_toNat

/-- What the parser reads of the octets of a filter. -/
theorem parse_octets (hfit : filter.flowDescription.length < 65536) :
    parse filter.octets = (filter.octetCount,
      { filter.announced with
        tosTrafficClass := 0
        flowLabel := .ofNat ((if filter.fl then filter.flowLabel.toNat / 256 else 0) * 256) }) := by
  have hlen (behind : List UInt8) :=
    takeFlagged_append (n := 2) filter.fd hfit behind
  have httc (behind : List UInt8) := takeFlagged_append (n := 2) filter.ttc
    filter.tosTrafficClass.toNat_lt behind
  have hspi (behind : List UInt8) := takeFlagged_append (n := 4) filter.spi
    filter.securityParameterIndex.toNat_lt behind
  have hlabel : filter.flowLabel.toNat / 256 < 256 ^ 3 := by
    have hlt := filter.flowLabel.toNat_lt
    omega
  have hfl (behind : List UInt8) := takeFlagged_append filter.fl hlabel behind
  have hbid := takeFlagged_flagged (n := 4) filter.bid filter.sdfFilterId.toNat_lt
  have hdescription : filter.descriptionOctets ++ filter.numberOctets =
      flagged 2 filter.fd filter.flowDescription.length ++
        ((if filter.fd then filter.flowDescription else []) ++ filter.numberOctets) := by
    rw [descriptionOctets, flagged]
    split_ifs
    · exact List.append_assoc ..
    · rfl
  have htake : ((if filter.fd then filter.flowDescription else []) ++ filter.numberOctets).take
      (if filter.fd then filter.flowDescription.length else 0) =
        if filter.fd then filter.flowDescription else [] := by
    split_ifs
    · exact List.take_left' rfl
    · rfl
  have hdrop : ((if filter.fd then filter.flowDescription else []) ++ filter.numberOctets).drop
      (if filter.fd then filter.flowDescription.length else 0) = filter.numberOctets := by
    split_ifs
    · exact List.drop_left' rfl
    · rfl
  simp only [numberOctets, announces] at hlen httc hspi hfl hbid hdescription htake hdrop
  simp only [octets, numberOctets, parse, announces, hdescription, hlen, htake, hdrop, httc, hspi,
    hfl, hbid, octetCount, announced, ite_add_size, ofNat32_ite]
  cases bit filter.flags 1 with
  | false => rfl
  | true => simp only [if_true, Nat.add_assoc]

theorem takeFlagged_lt {n value : Nat} {flag : Bool} {octets behind : List UInt8}
    (h : takeFlagged n flag octets = some (value, behind)) : value < 256 ^ n := by
  unfold takeFlagged at h
  split_ifs at h with hflag hlength
  · obtain ⟨rfl, -⟩ := Prod.mk.inj (Option.some.inj h)
    have hlt := natBE_lt (octets.take n)
    rwa [List.length_take, Nat.min_eq_left (Nat.le_of_not_lt hlength)] at hlt
  · obtain ⟨rfl, -⟩ := Prod.mk.inj (Option.some.inj h)
    exact Nat.pow_pos (by decide)

/-- Of a filter that is read nothing remains of the traffic class and of the low octet of the flow
label. What is decoded has as many octets as the filter at least, if it is not zero. -/
theorem parse_spec {octets : List UInt8} {size : Nat} {filter : SdfFilter}
    (h : parse octets = (size, filter)) :
    filter.tosTrafficClass = 0 ∧ filter.flowLabel.toNat % 256 = 0 ∧
      (size ≠ 0 → filter.octetCount ≤ size ∧ size < 2 ^ 17) := by
  have hlabel (label : Nat) : (UInt32.ofNat (label * 256)).toNat % 256 = 0 := by
    rw [UInt32.toNat_ofNat']
    omega
  match octets, h with
  | [], h => cases h; exact ⟨rfl, rfl, fun h => absurd rfl h⟩
  | [flags], h => cases h; exact ⟨rfl, rfl, fun h => absurd rfl h⟩
  | flags :: spare2 :: behind, h =>
    simp only [parse, announces] at h
    split at h
    · cases h
      exact ⟨rfl, rfl, fun h => absurd rfl h⟩
    · next len behind hlen =>
      split at h
      · cases h
        exact ⟨rfl, rfl, fun h => absurd rfl h⟩
      · split at h
        · cases h
          exact ⟨rfl, rfl, fun h => absurd rfl h⟩
        · split at h
          · cases h
            exact ⟨rfl, rfl, fun h => absurd rfl h⟩
          · next label _ _ =>
            split at h
            · cases h
              exact ⟨rfl, hlabel label, fun h => absurd rfl h⟩
            · cases h
              have hlt := takeFlagged_lt hlen
              have htake := List.length_take_le len behind
              refine ⟨rfl, hlabel label, fun _ => ?_⟩
              simp only [octetCount, announces, ite_add_size]
              have hnumber (flag : Bool) (k : Nat) : (if flag then k else 0) ≤ k := by
                cases flag with
                | false => exact Nat.zero_le k
                | true => exact Nat.le_refl k
              have := hnumber (bit flags 2) 2
              have := hnumber (bit flags 4) 4
              have := hnumber (bit flags 8) 3
              have := hnumber (bit flags 16) 4
              split_ifs with hfd
              all_goals
                constructor
                · omega
                · omega

theorem octetCount_announced : filter.announced.octetCount = filter.octetCount := by
  simp only [octetCount, announces, announced]
  cases bit filter.flags 1 <;> rfl

theorem announced_announced : filter.announced.announced = filter.announced := by
  exact (SdfFilter.mk.injEq ..).mpr ⟨rfl, rfl, ite_announced filter.fd _ _,
    ite_announced filter.ttc _ _, ite_announced filter.spi _ _, ite_announced filter.fl _ _,
    ite_announced filter.bid _ _⟩

/-- The length is that of less than 2^15 octets, or 2^32 less 2^15 at least. -/
theorem len_of_buildInto {memory' : List UInt8} {len : Nat}
    (h : filter.buildInto memory = .ok (memory', len)) : len < 32768 ∨ 2 ^ 32 - 32768 ≤ len := by
  unfold buildInto at h
  split_ifs at h
  obtain ⟨w, -, h⟩ := bind_eq_ok.mp h
  obtain ⟨w₁, hw₁, h⟩ := bind_eq_ok.mp h
  obtain ⟨w₂, hw₂, h⟩ := bind_eq_ok.mp h
  obtain ⟨w₃, hw₃, h⟩ := bind_eq_ok.mp h
  obtain ⟨w₄, hw₄, h⟩ := bind_eq_ok.mp h
  obtain ⟨w₅, hw₅, h⟩ := bind_eq_ok.mp h
  obtain ⟨w₆, hw₆, h⟩ := bind_eq_ok.mp h
  obtain ⟨-, rfl⟩ := Prod.mk.inj (Except.ok.inj h)
  have hdescription : w₂.InRange := by
    unfold putDescription at hw₂
    split_ifs at hw₂
    · obtain ⟨v, -, hw₂⟩ := bind_eq_ok.mp hw₂
      exact IeWriter.inRange_of_putSigned hw₂
    · obtain rfl := Except.ok.inj hw₂
      exact IeWriter.inRange_of_put hw₁
  have hlast : w₆.InRange :=
    (((hdescription.of_putFlagged hw₃).of_putFlagged hw₄).of_putSignedFlagged hw₅).of_putFlagged hw₆
  obtain ⟨hlow, hhigh⟩ := hlast
  unfold IeWriter.len
  omega

/-- The parser returns what the builder wrote into the buffer, as far as it is announced, and reads
all of it. -/
def Returned (memory : List UInt8) : Prop :=
  ∃ memory' len value, filter.buildInto memory = .ok (memory', len) ∧
    parse (memory'.take len) = (len, value) ∧ value.announced = filter.announced

theorem returned_iff (hfit : filter.flowDescription.length < 65536)
    (hroom : filter.octetCount ≤ memory.length) :
    filter.Returned memory ↔ (filter.ttc → filter.tosTrafficClass = 0) ∧
      (filter.fl → filter.flowLabel.toNat % 256 = 0) ∧ filter.octetCount < 32768 := by
  constructor
  · rintro ⟨memory', len, value, hbuild, hparse, hvalue⟩
    obtain ⟨htos, hlabel, hsize⟩ := parse_spec hparse
    have hcount : value.octetCount = filter.octetCount := by
      rw [← octetCount_announced, hvalue, octetCount_announced]
    have hflags : value.announced.flags = filter.announced.flags := congrArg SdfFilter.flags hvalue
    refine ⟨?_, ?_, ?_⟩
    · intro httc
      have h : (if value.ttc then value.tosTrafficClass else 0) =
          if filter.ttc then filter.tosTrafficClass else 0 := congrArg tosTrafficClass hvalue
      rw [if_pos httc, htos, ite_self] at h
      exact h.symm
    · intro hfl
      have h : (if value.fl then value.flowLabel else 0) =
          if filter.fl then filter.flowLabel else 0 := congrArg flowLabel hvalue
      have hvfl : value.fl := (congrArg (bit · 8) hflags).trans hfl
      rw [if_pos hfl, if_pos hvfl] at h
      rwa [← h]
    · by_cases hlen : len = 0
      · subst hlen
        obtain rfl : {} = value := (Prod.mk.inj hparse).2
        rw [← hcount]
        decide
      · have hrange := filter.len_of_buildInto hbuild
        obtain ⟨hle, hlt⟩ := hsize hlen
        omega
  · rintro ⟨httc, hfl, hshort⟩
    obtain ⟨memory', hbuild, htake⟩ := filter.buildInto_eq hfit hroom hshort
    refine ⟨memory', filter.octetCount, _, hbuild, ?_, filter.announced_announced⟩
    rw [htake, filter.parse_octets hfit]
    refine congrArg (Prod.mk _) ((SdfFilter.mk.injEq ..).mpr ⟨rfl, rfl, rfl, ?_, rfl, ?_, rfl⟩)
    · split_ifs with h
      · exact (httc h).symm
      · rfl
    · split_ifs with h
      · have hlabel : filter.flowLabel.toNat / 256 * 256 = filter.flowLabel.toNat := by
          have := hfl h
          omega
        rw [hlabel, UInt32.ofNat_toNat]
      · rfl

end SdfFilter

/-! ## All of them -/

/-- Which values come back: volumes, thresholds and measurements with a flag, all bitrates, resources
of the user plane whose name has less than 100 octets and does not end in a dot, and SDF filters of
less than 2^15 octets without a traffic class and with a flow label whose low octet is zero. -/
theorem ies_returned_iff (volume : Volume) (threshold : DroppedDlTrafficThreshold)
    (measurement : VolumeMeasurement) (bitrate : Bitrate) (info : UserPlaneIpResourceInfo)
    (dataLen : Nat) (filter : SdfFilter) (memory : List UInt8) :
    (volume.Returned ↔ volume.flags ≠ 0) ∧
      (threshold.Returned ↔ threshold.flags ≠ 0) ∧
      (measurement.Returned ↔ measurement.flags ≠ 0) ∧
      (kilobits bitrate.uplink < 2 ^ 40 → kilobits bitrate.downlink < 2 ^ 40 →
        bitrate.Returned) ∧
      (info.maxOctets ≤ dataLen → 0 ∉ info.networkInstance →
        info.networkInstance.length ≤ maxDnnLen →
          (info.Returned dataLen ↔ (info.assoni → info.networkInstance.length < maxDnnLen ∧
            info.networkInstance.getLast? ≠ some dot))) ∧
      (filter.flowDescription.length < 65536 → filter.octetCount ≤ memory.length →
        (filter.Returned memory ↔ (filter.ttc → filter.tosTrafficClass = 0) ∧
          (filter.fl → filter.flowLabel.toNat % 256 = 0) ∧ filter.octetCount < 32768)) :=
  ⟨volume.returned_iff, threshold.returned_iff, measurement.returned_iff, bitrate.returned,
    info.returned_iff, filter.returned_iff⟩

/-- The name `a.b` and a flow label of which nothing is lost. -/
theorem ies_returned_name_label :
    Bitrate.Returned { uplink := 1500 } ∧
      UserPlaneIpResourceInfo.Returned { flags := 32, networkInstance := [97, 46, 98] } 27 ∧
      SdfFilter.Returned { flags := 8, flowLabel := 256 } (List.replicate 5 0) := by
  obtain ⟨-, -, -, hbitrate, hinfo, hfilter⟩ := ies_returned_iff {} {} {} { uplink := 1500 }
    { flags := 32, networkInstance := [97, 46, 98] } 27 { flags := 8, flowLabel := 256 }
    (List.replicate 5 0)
  exact ⟨hbitrate (by decide) (by decide),
    (hinfo (by decide) (by decide) (by decide)).mpr (by decide),
    (hfilter (by decide) (by decide)).mpr (by decide)⟩

/-- A traffic class, the low octet of a flow label and a dot at the end of a name are lost. -/
theorem not_ies_returned :
    ¬SdfFilter.Returned { flags := 2, tosTrafficClass := 1 } (List.replicate 4 0) ∧
      ¬SdfFilter.Returned { flags := 8, flowLabel := 1 } (List.replicate 5 0) ∧
      ¬UserPlaneIpResourceInfo.Returned { flags := 32, networkInstance := [97, 46] } 26 := by
  refine ⟨fun h => ?_, fun h => ?_, fun h => ?_⟩
  · have h := (SdfFilter.returned_iff _ (by decide) (by decide)).mp h
    exact absurd (h.1 rfl) (by decide)
  · have h := (SdfFilter.returned_iff _ (by decide) (by decide)).mp h
    exact absurd (h.2.1 rfl) (by decide)
  · have h := (UserPlaneIpResourceInfo.returned_iff _ (by decide) (by decide) (by decide)).mp h
    exact (h rfl).2 rfl

end Quicup.Open5gs.Pfcp
