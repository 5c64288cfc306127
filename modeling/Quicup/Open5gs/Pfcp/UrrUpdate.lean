import Mathlib.Tactic.IntervalCases
import Quicup.Open5gs.Pfcp.Build
import Quicup.Open5gs.Pfcp.RuleHandler

/-!
# Updates of URRs

A URR of the SMF is sent with a Create URR, and what changes of it with an Update URR. The
two are read alike but for the reporting triggers, whose octets an update reads in the other
order.
-/

namespace Quicup.Open5gs.Pfcp

variable {st : PfcpState} {slot : Nat} {id : UInt32} {smf urr : PfcpUrr} {modifyFlags flag : UInt64}
  {data : Option (List UInt8)} {α : Type} {dropped : Option DroppedDlTrafficThreshold}
  {volume threshold quota : Option Volume} {ie : UrrIe} {kind : RuleKind} {old : α}

/-! ## Triggers -/

theorem octetOf_triggers (smf : PfcpUrr) :
    octetOf smf.triggers 2 = smf.reptri5 ∧ octetOf smf.triggers 1 = smf.reptri6 ∧
      octetOf smf.triggers 0 = smf.reptri7 := by
  unfold octetOf PfcpUrr.triggers
  refine ⟨?_, ?_, ?_⟩ <;>
  · apply UInt8.toBitVec_inj.mp
    apply BitVec.eq_of_getLsbD_eq
    intro i hi
    interval_cases i <;> simp

/-! ## Limits -/

/-- An element that is absent, or octets that are a volume. -/
inductive VolumeIe : Option (List UInt8) → Option Volume → Prop
  | absent : VolumeIe none none
  | present {octets : List UInt8} {volume : Volume}
      (h : Volume.parse octets = .ok (octets.length, volume)) : VolumeIe (some octets) (some volume)

/-- An element that is absent, or octets that are a threshold of dropped traffic. -/
inductive ThresholdIe : Option (List UInt8) → Option DroppedDlTrafficThreshold → Prop
  | absent : ThresholdIe none none
  | present {octets : List UInt8} {threshold : DroppedDlTrafficThreshold}
      (h : DroppedDlTrafficThreshold.parse octets = .ok (octets.length, threshold)) :
      ThresholdIe (some octets) (some threshold)

/-- What an element says of a volume. -/
def Volume.sent (volume : Volume) : Option Volume :=
  if volume.flags = 0 then none else some volume.announced

/-- What an element says of a threshold of dropped traffic. -/
def DroppedDlTrafficThreshold.sent (threshold : DroppedDlTrafficThreshold) :
    Option DroppedDlTrafficThreshold :=
  if threshold.flags = 0 then none else some threshold.announced

theorem buildVolume_eq (volume : Volume) :
    ∃ data, buildVolume volume = .ok data ∧ VolumeIe data volume.sent := by
  unfold buildVolume Volume.sent
  split
  · exact ⟨none, rfl, .absent⟩
  · next hflags =>
    obtain ⟨octets, hbuild⟩ : ∃ octets, volume.build = .ok octets := ⟨_, if_neg hflags⟩
    refine ⟨some octets, ?_, .present (volume.parse_build hbuild)⟩
    rw [hbuild]
    rfl

theorem VolumeIe.flaggedIe (h : VolumeIe data volume) (modifyFlags flag : UInt64) :
    VolumeIe (flaggedIe modifyFlags flag data) (flaggedIe modifyFlags flag volume) := by
  unfold Pfcp.flaggedIe
  split
  · exact h
  · exact .absent

theorem buildDropped_eq (threshold : DroppedDlTrafficThreshold) :
    ∃ data, buildDropped threshold = .ok data ∧ ThresholdIe data threshold.sent := by
  unfold buildDropped DroppedDlTrafficThreshold.sent
  split
  · exact ⟨none, rfl, .absent⟩
  · next hflags =>
    obtain ⟨octets, hbuild⟩ : ∃ octets, threshold.build = .ok octets := ⟨_, if_neg hflags⟩
    refine ⟨some octets, ?_, .present (threshold.parse_build hbuild)⟩
    rw [hbuild]
    rfl

theorem map_flaggedIe {β : Type} (f : α → β) (modifyFlags flag : UInt64) (value : Option α) :
    (flaggedIe modifyFlags flag value).map f = flaggedIe modifyFlags flag (value.map f) := by
  unfold flaggedIe
  split <;> rfl

/-- A URR with the limits of an element, as far as its method measures what they limit. -/
def PfcpUrr.withLimits (urr : PfcpUrr) (ie : UrrIe) (threshold quota : Option Volume)
    (dropped : Option DroppedDlTrafficThreshold) : PfcpUrr :=
  let guarded {α : Type} (method : UInt8) (value : Option α) (old : α) :=
    if bit urr.measMethod method then overwrite value old else old
  { urr with
    measPeriod := overwrite ie.measurementPeriod urr.measPeriod
    volThreshold := guarded measurementMethodVolume threshold urr.volThreshold
    volQuota := guarded measurementMethodVolume quota urr.volQuota
    eventThreshold := guarded measurementMethodEvent ie.eventThreshold urr.eventThreshold
    eventQuota := guarded measurementMethodEvent ie.eventQuota urr.eventQuota
    timeThreshold := guarded measurementMethodDuration ie.timeThreshold urr.timeThreshold
    timeQuota := guarded measurementMethodDuration ie.timeQuota urr.timeQuota
    quotaHoldingTime := overwrite ie.quotaHoldingTime urr.quotaHoldingTime
    droppedDlTrafficThreshold := overwrite dropped urr.droppedDlTrafficThreshold
    quotaValidityTime := overwrite ie.quotaValidityTime urr.quotaValidityTime
    measInfo := overwrite (ie.measurementInformation.bind List.head?) urr.measInfo }

/-- A volume is written where the method measures volumes. -/
theorem handleVolume_run (h : VolumeIe data volume) (type : UInt8)
    {put : PfcpUrr → Volume → PfcpUrr} (old : PfcpUrr → Volume) (hput : put urr (old urr) = urr) :
    handleVolume slot data type put (st.setRule .urr slot urr) =
      .ok (.ok (), st.setRule .urr slot (put urr
        (if bit urr.measMethod measurementMethodVolume then overwrite volume (old urr)
        else old urr))) := by
  unfold handleVolume
  cases h with
  | absent =>
    rw [overwrite, Option.getD_none, ite_self, hput]
    rfl
  | present hparse =>
    dsimp only
    rw [Procedure.get_bind_run, PfcpState.rule_setRule]
    split
    · rw [hparse]
      change (if _ then _ else _ : Handler Unit) _ = _
      rw [if_neg (by simp)]
      simp [overwrite]
    · rw [hput]
      rfl

theorem handleDropped_run (h : ThresholdIe data dropped) :
    handleDroppedDlTrafficThreshold slot data (st.setRule .urr slot urr) =
      .ok (.ok (), st.setRule .urr slot
        { urr with droppedDlTrafficThreshold := overwrite dropped urr.droppedDlTrafficThreshold }) := by
  unfold handleDroppedDlTrafficThreshold
  cases h with
  | absent => rfl
  | present hparse =>
    dsimp only
    rw [hparse]
    change (if _ then _ else _ : Handler Unit) _ = _
    rw [if_neg (by simp)]
    simp [overwrite]

theorem handleUrrLimits_run (hthreshold : VolumeIe ie.volumeThreshold threshold)
    (hquota : VolumeIe ie.volumeQuota quota)
    (hdropped : ThresholdIe ie.droppedDlTrafficThreshold dropped) :
    handleUrrLimits slot ie (st.setRule .urr slot urr) =
      .ok (.ok (), st.setRule .urr slot (urr.withLimits ie threshold quota dropped)) := by
  unfold handleUrrLimits
  rw [Procedure.bind_run (modifyRule_run ..), PfcpState.rule_setRule, PfcpState.setRule_setRule,
    Procedure.bind_run (handleVolume_run hthreshold _ PfcpUrr.volThreshold rfl),
    Procedure.bind_run (handleVolume_run hquota _ PfcpUrr.volQuota rfl),
    Procedure.bind_run (modifyRule_run ..), PfcpState.rule_setRule, PfcpState.setRule_setRule,
    Procedure.bind_run (handleDropped_run hdropped), modifyRule_run, PfcpState.rule_setRule,
    PfcpState.setRule_setRule]
  rfl

/-! ## Requests -/

/-- A Create URR for a URR of the SMF, at the UPF. -/
def createUrr (id : UInt32) (smf : PfcpUrr) : Handler Nat := do
  handleCreateUrr (← .lift (buildCreateUrr id smf))

/-- An Update URR for what changes of a URR of the SMF, at the UPF. -/
def updateUrr (id : UInt32) (smf : PfcpUrr) (modifyFlags : UInt64) : Handler Nat := do
  handleUpdateUrr (← .lift (buildUpdateUrr id smf modifyFlags))

theorem lookUp_run (hfind : st.find kind id = some slot) (refusal : Refusal) :
    lookUp kind id refusal st = .ok (.ok slot, st) := by
  unfold lookUp
  rw [Procedure.get_bind_run, hfind]
  rfl

/-- A URR that a Create URR writes. -/
def PfcpUrr.createdBy (urr smf : PfcpUrr) : PfcpUrr :=
  let event := bit smf.measMethod measurementMethodEvent
  let duration := bit smf.measMethod measurementMethodDuration
  let volume := bit smf.measMethod measurementMethodVolume
  { measMethod := smf.measMethod
    reptri5 := smf.reptri5
    reptri6 := smf.reptri6
    reptri7 := smf.reptri7
    measInfo := if smf.measInfo = 0 then urr.measInfo else smf.measInfo
    measPeriod := overwrite (sent smf.measPeriod) urr.measPeriod
    volThreshold := if volume then overwrite smf.volThreshold.sent urr.volThreshold
      else urr.volThreshold
    volQuota := if volume then overwrite smf.volQuota.sent urr.volQuota else urr.volQuota
    eventThreshold := if event then overwrite (sent smf.eventThreshold) urr.eventThreshold
      else urr.eventThreshold
    eventQuota := if event then overwrite (sent smf.eventQuota) urr.eventQuota else urr.eventQuota
    timeThreshold := if duration then overwrite (sent smf.timeThreshold) urr.timeThreshold
      else urr.timeThreshold
    timeQuota := if duration then overwrite (sent smf.timeQuota) urr.timeQuota else urr.timeQuota
    quotaHoldingTime := overwrite (sent smf.quotaHoldingTime) urr.quotaHoldingTime
    droppedDlTrafficThreshold :=
      overwrite smf.droppedDlTrafficThreshold.sent urr.droppedDlTrafficThreshold
    quotaValidityTime := overwrite (sent smf.quotaValidityTime) urr.quotaValidityTime }

/-- A URR that an Update URR writes. -/
def PfcpUrr.updatedBy (urr smf : PfcpUrr) (modifyFlags : UInt64) : PfcpUrr :=
  let flagged {α : Type} (flag : UInt64) (value : Option α) (old : α) :=
    overwrite (flaggedIe modifyFlags flag value) old
  let measMethod := flagged modifyUrrMeasMethod (some smf.measMethod) urr.measMethod
  let volume := bit measMethod measurementMethodVolume
  let duration := bit measMethod measurementMethodDuration
  { urr with
    measMethod
    reptri5 := flagged modifyUrrReportTrigger (some smf.reptri7) urr.reptri5
    reptri6 := flagged modifyUrrReportTrigger (some smf.reptri6) urr.reptri6
    reptri7 := flagged modifyUrrReportTrigger (some smf.reptri5) urr.reptri7
    volThreshold := if volume then
        flagged modifyUrrVolumeThresh smf.volThreshold.sent urr.volThreshold
      else urr.volThreshold
    volQuota := if volume then flagged modifyUrrVolumeQuota smf.volQuota.sent urr.volQuota
      else urr.volQuota
    timeThreshold := if duration then
        flagged modifyUrrTimeThresh (sent smf.timeThreshold) urr.timeThreshold
      else urr.timeThreshold
    timeQuota := if duration then flagged modifyUrrTimeQuota (sent smf.timeQuota) urr.timeQuota
      else urr.timeQuota
    quotaValidityTime :=
      flagged modifyUrrQuotaValidityTime (sent smf.quotaValidityTime) urr.quotaValidityTime }

/-- The limits that an element with valid volumes gives a URR once it is changed. -/
theorem change_limits_run (change : PfcpUrr → PfcpUrr)
    (hthreshold : VolumeIe ie.volumeThreshold threshold) (hquota : VolumeIe ie.volumeQuota quota)
    (hdropped : ThresholdIe ie.droppedDlTrafficThreshold dropped) :
    (do
      modifyRule .urr slot change
      handleUrrLimits slot ie
      return slot : Handler Nat) st =
      .ok (.ok slot, st.setRule .urr slot
        ((change (st.rule .urr slot)).withLimits ie threshold quota dropped)) := by
  rw [Procedure.bind_run (modifyRule_run ..),
    Procedure.bind_run (handleUrrLimits_run hthreshold hquota hdropped)]
  rfl

theorem createUrr_run (hfind : st.find .urr id = some slot) (smf : PfcpUrr) :
    createUrr id smf st =
      .ok (.ok slot, st.setRule .urr slot ((st.rule .urr slot).createdBy smf)) := by
  obtain ⟨threshold, hthreshold, hthresholdIe⟩ := buildVolume_eq smf.volThreshold
  obtain ⟨quota, hquota, hquotaIe⟩ := buildVolume_eq smf.volQuota
  obtain ⟨dropped, hdropped, hdroppedIe⟩ := buildDropped_eq smf.droppedDlTrafficThreshold
  unfold createUrr buildCreateUrr
  rw [hthreshold, hquota, hdropped]
  change (lookUp .urr id _ >>= fun slot => do
    modifyRule .urr slot (PfcpUrr.create smf.measMethod smf.triggers)
    handleUrrLimits slot _
    return slot : Handler Nat) st = _
  rw [Procedure.bind_run (lookUp_run hfind _),
    change_limits_run _ hthresholdIe hquotaIe hdroppedIe]
  obtain ⟨htri5, htri6, htri7⟩ := octetOf_triggers smf
  unfold PfcpUrr.create
  rw [htri5, htri6, htri7]
  refine congrArg (fun created => Except.ok (Except.ok slot, st.setRule .urr slot created)) ?_
  unfold PfcpUrr.createdBy PfcpUrr.withLimits
  by_cases hinfo : smf.measInfo = 0
  · simp only [hinfo, if_true]
    rfl
  · simp only [hinfo, if_false]
    rfl

theorem updateUrr_run (hfind : st.find .urr id = some slot) (smf : PfcpUrr)
    (hflags : modifies modifyFlags modifyUrrFlags = true) :
    updateUrr id smf modifyFlags st =
      .ok (.ok slot, st.setRule .urr slot ((st.rule .urr slot).updatedBy smf modifyFlags)) := by
  obtain ⟨threshold, hthreshold, hthresholdIe⟩ := buildVolume_eq smf.volThreshold
  obtain ⟨quota, hquota, hquotaIe⟩ := buildVolume_eq smf.volQuota
  unfold updateUrr buildUpdateUrr
  rw [if_pos hflags, hthreshold, hquota]
  change (lookUp .urr id _ >>= fun slot => do
    modifyRule .urr slot (PfcpUrr.update (flaggedIe modifyFlags modifyUrrMeasMethod smf.measMethod)
      (flaggedIe modifyFlags modifyUrrReportTrigger smf.triggers))
    handleUrrLimits slot _
    return slot : Handler Nat) st = _
  rw [Procedure.bind_run (lookUp_run hfind _),
    change_limits_run _ (hthresholdIe.flaggedIe ..) (hquotaIe.flaggedIe ..) .absent]
  obtain ⟨htri5, htri6, htri7⟩ := octetOf_triggers smf
  unfold PfcpUrr.update
  rw [map_flaggedIe, map_flaggedIe, map_flaggedIe, Option.map_some, Option.map_some, Option.map_some,
    htri5, htri6, htri7]
  refine congrArg (fun updated => Except.ok (Except.ok slot, st.setRule .urr slot updated)) ?_
  unfold PfcpUrr.updatedBy PfcpUrr.withLimits
  dsimp only
  congr 1 <;> exact ite_self _

/-! ## Flagged fields -/

/-- A field that follows the SMF if it is flagged and set there. -/
def following {α : Type} (modifyFlags flag : UInt64) (value : Option α) (old : α) : α :=
  overwrite (flaggedIe modifyFlags flag value) old

/-- A URR whose flagged fields are those of the SMF, as far as they are set there. -/
def PfcpUrr.following (urr smf : PfcpUrr) (modifyFlags : UInt64) : PfcpUrr :=
  let flagged {α : Type} (flag : UInt64) (value : Option α) (old : α) :=
    Pfcp.following modifyFlags flag value old
  { urr with
    measMethod := flagged modifyUrrMeasMethod (some smf.measMethod) urr.measMethod
    reptri5 := flagged modifyUrrReportTrigger (some smf.reptri5) urr.reptri5
    reptri6 := flagged modifyUrrReportTrigger (some smf.reptri6) urr.reptri6
    reptri7 := flagged modifyUrrReportTrigger (some smf.reptri7) urr.reptri7
    volThreshold := flagged modifyUrrVolumeThresh smf.volThreshold.sent urr.volThreshold
    volQuota := flagged modifyUrrVolumeQuota smf.volQuota.sent urr.volQuota
    timeThreshold := flagged modifyUrrTimeThresh (sent smf.timeThreshold) urr.timeThreshold
    timeQuota := flagged modifyUrrTimeQuota (sent smf.timeQuota) urr.timeQuota
    quotaValidityTime :=
      flagged modifyUrrQuotaValidityTime (sent smf.quotaValidityTime) urr.quotaValidityTime }

/-- A limit that the URR measures, or that it has already. -/
def limitKept {α : Type} (measured : Bool) (modifyFlags flag : UInt64) (value : Option α)
    (old : α) : Prop :=
  measured = true ∨ Pfcp.following modifyFlags flag value old = old

theorem limitKept_iff {measured : Bool} {value : Option α} :
    (if measured then following modifyFlags flag value old else old) =
      following modifyFlags flag value old ↔ limitKept measured modifyFlags flag value old := by
  unfold limitKept
  cases measured with
  | false => simp [eq_comm]
  | true => simp

/-- Whether all limits of an update are of a method that the URR has behind it. -/
structure PfcpUrr.LimitsKept (urr smf : PfcpUrr) (modifyFlags : UInt64) : Prop where
  volThreshold : limitKept (bit (urr.following smf modifyFlags).measMethod measurementMethodVolume)
    modifyFlags modifyUrrVolumeThresh smf.volThreshold.sent urr.volThreshold
  volQuota : limitKept (bit (urr.following smf modifyFlags).measMethod measurementMethodVolume)
    modifyFlags modifyUrrVolumeQuota smf.volQuota.sent urr.volQuota
  timeThreshold :
    limitKept (bit (urr.following smf modifyFlags).measMethod measurementMethodDuration)
      modifyFlags modifyUrrTimeThresh (sent smf.timeThreshold) urr.timeThreshold
  timeQuota : limitKept (bit (urr.following smf modifyFlags).measMethod measurementMethodDuration)
    modifyFlags modifyUrrTimeQuota (sent smf.timeQuota) urr.timeQuota

/-- Whether the outer octets of the triggers are the same, where they are sent. -/
def PfcpUrr.TriggersKept (smf : PfcpUrr) (modifyFlags : UInt64) : Prop :=
  modifies modifyFlags modifyUrrReportTrigger = true → smf.reptri5 = smf.reptri7

theorem following_some_eq_iff {value value' : α} :
    following modifyFlags flag (some value) old = following modifyFlags flag (some value') old ↔
      (modifies modifyFlags flag = true → value = value') := by
  unfold following flaggedIe
  cases modifies modifyFlags flag with
  | false => simp
  | true => simp [overwrite]

/-- What an update writes follows the SMF where the outer octets of the triggers do, which
it exchanges, and the limits are measured. -/
theorem PfcpUrr.updatedBy_eq_following_iff (urr smf : PfcpUrr) :
    urr.updatedBy smf modifyFlags = urr.following smf modifyFlags ↔
      smf.TriggersKept modifyFlags ∧ urr.LimitsKept smf modifyFlags := by
  unfold PfcpUrr.updatedBy PfcpUrr.following
  rw [PfcpUrr.mk.injEq]
  constructor
  · intro ⟨_, htri5, _, _, _, _, hthreshold, hquota, _, _, htime, htimeQuota, _⟩
    have htriggers := following_some_eq_iff.mp htri5
    exact ⟨fun hflag => (htriggers hflag).symm, limitKept_iff.mp hthreshold, limitKept_iff.mp hquota,
      limitKept_iff.mp htime, limitKept_iff.mp htimeQuota⟩
  · intro ⟨htriggers, hlimits⟩
    exact ⟨rfl, following_some_eq_iff.mpr fun hflag => (htriggers hflag).symm, rfl,
      following_some_eq_iff.mpr htriggers, rfl, rfl, limitKept_iff.mpr hlimits.volThreshold,
      limitKept_iff.mpr hlimits.volQuota, rfl, rfl, limitKept_iff.mpr hlimits.timeThreshold,
      limitKept_iff.mpr hlimits.timeQuota, rfl, rfl, rfl⟩

theorem following_overwrite (flag : UInt64) (value : Option α) (old : α) :
    following modifyFlags flag value (overwrite value old) = overwrite value old := by
  unfold following flaggedIe
  cases modifies modifyFlags flag with
  | false => rfl
  | true => cases value <;> rfl

/-- A measured limit that was written once stays when it is written again. -/
theorem following_limit (measured : Bool) (flag : UInt64) (value : Option α) (old : α) :
    (if measured then following modifyFlags flag value (if measured then overwrite value old else old)
      else if measured then overwrite value old else old) =
      if measured then overwrite value old else old := by
  cases measured with
  | false => rfl
  | true => exact following_overwrite flag value old

theorem following_self (flag : UInt64) (value : α) :
    following modifyFlags flag (some value) value = value := following_overwrite flag _ value

/-- An update with the values of the creation leaves the triggers only if their outer octets
are the same. -/
theorem PfcpUrr.updatedBy_createdBy_iff (urr smf : PfcpUrr) :
    (urr.createdBy smf).updatedBy smf modifyFlags = urr.createdBy smf ↔
      smf.TriggersKept modifyFlags := by
  have hmethod : Pfcp.following modifyFlags modifyUrrMeasMethod (some smf.measMethod) smf.measMethod =
    smf.measMethod := following_self _ _
  unfold PfcpUrr.updatedBy PfcpUrr.createdBy
  rw [PfcpUrr.mk.injEq]
  dsimp only
  constructor
  · intro ⟨_, htri5, _⟩ hflag
    exact (following_some_eq_iff.mp (htri5.trans (following_self _ _).symm) hflag).symm
  · intro htriggers
    have houter : modifies modifyFlags modifyUrrReportTrigger = true → smf.reptri7 = smf.reptri5 :=
      fun hflag => (htriggers hflag).symm
    refine ⟨hmethod, (following_some_eq_iff.mpr houter).trans (following_self _ _),
      following_self _ _, (following_some_eq_iff.mpr htriggers).trans (following_self _ _),
      rfl, rfl, ?_, ?_, rfl, rfl, ?_, ?_, rfl, rfl, following_overwrite ..⟩ <;>
    · change (if bit (Pfcp.following ..) _ = true then Pfcp.following .. else _) = _
      rw [hmethod]
      exact following_limit ..

/-! ## An update as a whole -/

theorem PfcpState.setRule_inj {slot : Nat} {rule rule' : kind.Rule} :
    st.setRule kind slot rule = st.setRule kind slot rule' ↔ rule = rule' := by
  constructor
  · intro h
    rw [← st.rule_setRule kind slot rule, h, st.rule_setRule]
  · exact congrArg _

/-- The numbers of the rules do not change with a rule. -/
theorem PfcpState.find_setRule (kind : RuleKind) (slot : Nat) (rule : kind.Rule) (id : UInt32) :
    (st.setRule kind slot rule).find kind id = st.find kind id := by
  have hid : (st.setRule kind slot rule).id kind = st.id kind := by
    ext1 other
    by_cases hslot : other = slot
    · subst hslot
      rw [PfcpState.id, entry_setRule, PfcpState.id]
    · simp [PfcpState.id, PfcpState.entry, setRule, setEntry, setTable, hslot]
  unfold PfcpState.find
  rw [hid]
  rfl

theorem updateUrr_fault (smf : PfcpUrr) (hflags : modifies modifyFlags modifyUrrFlags = false) :
    updateUrr id smf modifyFlags st = .error .assertion := by
  unfold updateUrr buildUpdateUrr
  rw [if_neg (by simp [hflags])]
  rfl

/-- An update carries the flagged fields of the SMF to the UPF, and nothing else, exactly if
it has a flag, its limits are measured and its triggers do not depend on the order of the
octets. Behind a creation, with the values of the creation, it changes nothing exactly if it
has a flag and its triggers do not depend on the order. -/
theorem updateUrr_follows_iff (hfind : st.find .urr id = some slot) (smf : PfcpUrr)
    (modifyFlags : UInt64) :
    (updateUrr id smf modifyFlags st =
        .ok (.ok slot, st.setRule .urr slot ((st.rule .urr slot).following smf modifyFlags)) ↔
      modifies modifyFlags modifyUrrFlags = true ∧ smf.TriggersKept modifyFlags ∧
        (st.rule .urr slot).LimitsKept smf modifyFlags) ∧
    ((do
        let _ ← createUrr id smf
        updateUrr id smf modifyFlags : Handler Nat) st = createUrr id smf st ↔
      modifies modifyFlags modifyUrrFlags = true ∧ smf.TriggersKept modifyFlags) := by
  rw [Procedure.bind_run (createUrr_run hfind smf), createUrr_run hfind smf]
  cases hflags : modifies modifyFlags modifyUrrFlags with
  | false =>
    rw [updateUrr_fault smf hflags, updateUrr_fault smf hflags]
    simp
  | true =>
    have hfind' := (st.find_setRule .urr slot ((st.rule .urr slot).createdBy smf) id).trans hfind
    rw [updateUrr_run hfind smf hflags, updateUrr_run hfind' smf hflags, PfcpState.rule_setRule,
      PfcpState.setRule_setRule]
    simp only [Except.ok.injEq, Prod.mk.injEq, true_and, PfcpState.setRule_inj]
    exact ⟨PfcpUrr.updatedBy_eq_following_iff _ smf, PfcpUrr.updatedBy_createdBy_iff _ smf⟩

/-- A session with one URR, whose ID is 1. -/
def sessionWithUrr : PfcpState :=
  (PfcpState.add { ctx := .init 1 [] 0, sess := {} } .urr {}).2

/-- A periodic report, which is a trigger of the first octet. -/
def periodicUrr : PfcpUrr := { measMethod := measurementMethodVolume, reptri5 := 1 }

/-- The periodic report is lost with the first update, also where nothing is changed. -/
theorem updateUrr_swaps_triggers :
    updateUrr 1 periodicUrr modifyUrrReportTrigger sessionWithUrr ≠
        .ok (.ok 0, sessionWithUrr.setRule .urr 0
          ((sessionWithUrr.rule .urr 0).following periodicUrr modifyUrrReportTrigger)) ∧
    (do
        let _ ← createUrr 1 periodicUrr
        updateUrr 1 periodicUrr modifyUrrReportTrigger : Handler Nat) sessionWithUrr ≠
      createUrr 1 periodicUrr sessionWithUrr := by
  have hfind : sessionWithUrr.find .urr 1 = some 0 := rfl
  have hflags : modifies modifyUrrReportTrigger modifyUrrFlags = true := by decide
  rw [Procedure.bind_run (createUrr_run hfind _), createUrr_run hfind, updateUrr_run hfind _ hflags,
    updateUrr_run ((sessionWithUrr.find_setRule .urr 0 _ 1).trans hfind) _ hflags,
    PfcpState.rule_setRule, PfcpState.setRule_setRule]
  simp only [ne_eq, Except.ok.injEq, Prod.mk.injEq, true_and, PfcpState.setRule_inj]
  decide

/-- An update of a quota and of triggers in the middle octet does follow the SMF. -/
theorem updateUrr_follows_quota :
    updateUrr 1 { measMethod := 2, reptri6 := 1, volQuota := { flags := 1, totalVolume := 1000 } }
        (modifyUrrMeasMethod ||| modifyUrrReportTrigger ||| modifyUrrVolumeQuota) sessionWithUrr =
      .ok (.ok 0, sessionWithUrr.setRule .urr 0
        ((sessionWithUrr.rule .urr 0).following
          { measMethod := 2, reptri6 := 1, volQuota := { flags := 1, totalVolume := 1000 } }
          (modifyUrrMeasMethod ||| modifyUrrReportTrigger ||| modifyUrrVolumeQuota))) := by
  have hfind : sessionWithUrr.find .urr 1 = some 0 := rfl
  apply (updateUrr_follows_iff hfind _ _).1.mpr
  refine ⟨by decide, fun _ => rfl, ?_, ?_, ?_, ?_⟩
  · exact .inl (by decide)
  · exact .inl (by decide)
  · exact .inr rfl
  · exact .inr rfl

end Quicup.Open5gs.Pfcp
