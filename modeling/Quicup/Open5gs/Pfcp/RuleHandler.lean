import Quicup.Open5gs.Pfcp.Message
import Quicup.Open5gs.Pfcp.Rules

/-!
# Handlers of rules

`handler.c`: what the UPF does with the elements of a request that create, update and remove
rules. A handler that fails leaves what it has done before.
-/

namespace Quicup.Open5gs.Pfcp

def pdrIdType : UInt8 := 56

def farIdType : UInt8 := 108

def urrIdType : UInt8 := 81

def qerIdType : UInt8 := 109

def barIdType : UInt8 := 88

def pdiType : UInt8 := 2

def sourceInterfaceType : UInt8 := 20

def fTeidType : UInt8 := 21

def applyActionType : UInt8 := 44

def measurementMethodType : UInt8 := 62

def reportingTriggersType : UInt8 := 37

def volumeThresholdType : UInt8 := 31

def volumeQuotaType : UInt8 := 73

def droppedDlTrafficThresholdType : UInt8 := 72

def mbrType : UInt8 := 26

def gbrType : UInt8 := 27

/-- What the handlers take from their surroundings: the compiler of flow descriptions, and
what the stack holds where a variable is not set. -/
structure RuleEnv where
  compileRule : List UInt8 → Except Fault (Option IpfwRule)
  stack : Vector UInt8 25

/-- A mandatory element. -/
def mandatory {α : Type} (ie : Option α) (type : UInt8) : Handler α :=
  .require ie ⟨causeMandatoryIeMissing, type⟩

/-- The rule that an element is for. -/
def lookUp (kind : RuleKind) (id : UInt32) (refusal : Refusal) : Handler Nat := do
  .require ((← .get).find kind id) refusal

/-- A new value, if there is one. -/
def overwrite {α : Type} (value : Option α) (old : α) : α := value.getD old

/-! ## PDRs -/

/-- The name that a network instance writes. -/
def networkInstanceName (data : List UInt8) : Except Fault (Option (List UInt8)) :=
  fqdnParse data (min data.length maxDnnLen)

/-- The first check of a local F-TEID. Of too few octets the stack shows the others. -/
def checkFTeid (env : RuleEnv) (data : Option (List UInt8)) (restoration : Bool) : Handler Unit :=
  .whenSome data fun data => do
    let octets := data.take FTeid.size
    let fTeid := FTeid.ofOctets (octets ++ env.stack.toList.drop octets.length)
    .check (fTeid.ipv4 || fTeid.ipv6) ⟨causeMandatoryIeIncorrect, fTeidType⟩
    let taken := ((← .get).findObjectByTeid fTeid.teid).isSome
    .check (fTeid.ch || !restoration || !taken) ⟨causeInvalidFTeidAllocationOption, fTeidType⟩

/-- The rule of a filter: that of a filter with the same ID, in the other direction, under
the flow description of its own, which is for downlink. -/
def sdfRule (env : RuleEnv) (srcIf : UInt8) (filter : SdfFilter) (opposite : Option SdfRule) :
    Except Fault (Option SdfRule) := do
  let copied := opposite.map fun rule => ipfwRuleSwap rule.ipfw
  let sdfFilterId := if filter.bid then filter.sdfFilterId else 0
  if filter.fd then
    match ← env.compileRule (filter.flowDescription.takeWhile (· ≠ 0)) with
    | none => return none
    | some ipfw =>
      return some
        { ipfw := if srcIf = ogsPfcpInterfaceAccess then ipfwRuleSwap ipfw else ipfw
          flags := filter.flags
          sdfFilterId }
  else return copied.map fun ipfw => { ipfw, flags := filter.flags, sdfFilterId }

/-- A PDR gets the rule of a filter. A description that does not compile leaves none. -/
def addSdfRule (env : RuleEnv) (slot : Nat) (filter : SdfFilter) (opposite : Option SdfRule) :
    Handler Unit := do
  ruleAlloc
  match ← .lift (sdfRule env ((← .get).rule .pdr slot).srcIf filter opposite) with
  | none => ruleFree 1
  | some rule => modifyRule .pdr slot fun pdr => { pdr with ruleList := pdr.ruleList ++ [rule] }

/-- The loop over the filters of a PDI. It ends at a filter of another length than its
octets, and goes on behind one that is of no use. -/
def handleSdfFilters (env : RuleEnv) (slot : Nat) : List (List UInt8) → Handler Unit
  | [] => return ()
  | octets :: behind => do
    let parsed := SdfFilter.parse octets
    if SdfFilter.isValid octets parsed.1 = false then return ()
    else
      let filter := parsed.2
      let st ← .get
      let opposite := if filter.bid then st.findRuleByFilterId filter.sdfFilterId else none
      if opposite.isNone ∧ filter.fd = false then handleSdfFilters env slot behind
      else
        addSdfRule env slot filter opposite
        handleSdfFilters env slot behind

/-- The source interface and the filters of a PDI. The loop looks behind the array when all
its filters are present. -/
def handlePdiFilters (env : RuleEnv) (slot : Nat) (srcIf : UInt8) (pdi : PdiIe) : Handler Unit := do
  modifyRule .pdr slot fun pdr =>
    { pdr with
      srcIf
      srcIfType := pdi.sourceInterfaceType.or pdr.srcIfType }
  ruleRemoveAll slot
  if maxSdfFilterIes ≤ pdi.sdfFilter.length ∧ pdi.applicationId then .fault .outOfBounds
  else handleSdfFilters env slot pdi.sdfFilter

/-- The local F-TEID of a new PDR. -/
def handleLocalFTeid (slot : Nat) (data : Option (List UInt8)) : Handler Unit := do
  modifyRule .pdr slot fun pdr =>
    { pdr with
      chid := false
      chooseId := 0
      fTeid := {}
      fTeidLen := 0 }
  .whenSome data fun data => do
    .check (data.length ≠ 0) ⟨causeInvalidLength, fTeidType⟩
    let fTeid := ({} : FTeid).overwrite data
    modifyRule .pdr slot fun pdr =>
      { pdr with
        fTeid
        fTeidLen := min data.length FTeid.size }
    .check (fTeid.ipv4 || fTeid.ipv6) ⟨causeInvalidFTeidAllocationOption, fTeidType⟩

/-- The array of framed routes, which is set up with the first route. -/
def framedRoutes (old : Option (List (List UInt8))) (routes : List (List UInt8)) :
    Option (List (List UInt8)) :=
  let routes := (routes.take ogsMaxNumOfFramedRoutesInPdi).map fun route => route.takeWhile (· ≠ 0)
  if routes = [] then old.map fun _ => [] else some routes

/-- The FAR of a new PDR, which is made if it is not there. -/
def handleFarId (slot : Nat) (farId : UInt32) : Handler Unit := do
  modifyRule .pdr slot fun pdr => { pdr with far := none }
  let far ← .require (← farFindOrAdd farId) ⟨causeNoResourcesAvailable, farIdType⟩
  modifyRule .pdr slot fun pdr => { pdr with far := some far }

/-- A URR of a new PDR. -/
def handleUrrId (slot : Nat) (urrId : UInt32) : Handler Unit := do
  let urr ← .require (← urrFindOrAdd urrId) ⟨causeNoResourcesAvailable, urrIdType⟩
  associateUrr slot urr

/-- The URRs of a new PDR. -/
def handleUrrIds (slot : Nat) (urrIds : List UInt32) : Handler Unit := do
  modifyRule .pdr slot fun pdr => { pdr with urr := [] }
  urrIds.forM (handleUrrId slot)

/-- The QER of a new PDR. -/
def handleQerId (slot : Nat) (qerId : Option UInt32) : Handler Unit := do
  modifyRule .pdr slot fun pdr => { pdr with qer := none }
  .whenSome qerId fun qerId => do
    let qer ← .require (← qerFindOrAdd qerId) ⟨causeNoResourcesAvailable, qerIdType⟩
    modifyRule .pdr slot fun pdr => { pdr with qer := some qer }

/-- A URR ID that the UPF takes. -/
def validUrrId (id : UInt32) : Bool := 0 < id ∧ id.toNat ≤ ogsMaxNumOfUrr

/-- The name of a PDI, if there is one. -/
def pdiName (pdi : PdiIe) : Except Fault (Option (List UInt8)) :=
  match pdi.networkInstance with
  | none => .ok none
  | some data => networkInstanceName data

/-- The elements of a new PDR from its precedence to the header that it removes. -/
def handlePdi (env : RuleEnv) (slot : Nat) (srcIf : UInt8) (pdi : PdiIe) (ie : CreatePdrIe) :
    Handler Unit := do
  .whenSome ie.precedence (reorderByPrecedence slot)
  handlePdiFilters env slot srcIf pdi
  let dnn ← .lift (pdiName pdi)
  modifyRule .pdr slot fun pdr => { pdr with dnn }
  handleLocalFTeid slot pdi.localFTeid
  modifyRule .pdr slot fun pdr =>
    { pdr with
      qfi := pdi.qfi.getD 0
      ueIpAddr := (pdi.ueIpAddress.getD []).take 21
      ipv4FramedRoutes := framedRoutes pdr.ipv4FramedRoutes pdi.framedRoute
      ipv6FramedRoutes := framedRoutes pdr.ipv6FramedRoutes pdi.framedIpv6Route
      outerHeaderRemoval := (ie.outerHeaderRemoval.getD []).take 2 }

/-- `ogs_pfcp_handle_create_pdr`, with whether the request says that it restores a session,
as the slot of the PDR. -/
def handleCreatePdr (env : RuleEnv) (restoration : Bool) (ie : CreatePdrIe) : Handler Nat := do
  let pdrId ← mandatory ie.pdrId pdrIdType
  let farId ← mandatory ie.farId farIdType
  let pdi ← mandatory ie.pdi pdiType
  let srcIf ← mandatory pdi.sourceInterface sourceInterfaceType
  checkFTeid env pdi.localFTeid restoration
  .check (ie.urrId.all validUrrId) ⟨causeNoResourcesAvailable, urrIdType⟩
  let slot ← .require (← pdrFindOrAdd pdrId.toUInt32) ⟨causeNoResourcesAvailable, pdrIdType⟩
  handlePdi env slot srcIf pdi ie
  handleFarId slot farId
  handleUrrIds slot ie.urrId
  handleQerId slot ie.qerId
  return slot

/-- `ogs_pfcp_handle_update_pdr` for the PDI. -/
def handleUpdatePdi (env : RuleEnv) (slot : Nat) (pdi : PdiIe) : Handler Unit := do
  let srcIf ← mandatory pdi.sourceInterface sourceInterfaceType
  checkFTeid env pdi.localFTeid false
  handlePdiFilters env slot srcIf pdi
  let dnn ← .lift (pdiName pdi)
  modifyRule .pdr slot fun pdr =>
    { pdr with
      dnn := dnn.or pdr.dnn
      fTeid := (pdi.localFTeid.map pdr.fTeid.overwrite).getD pdr.fTeid
      fTeidLen := overwrite (pdi.localFTeid.map List.length) pdr.fTeidLen
      qfi := overwrite pdi.qfi pdr.qfi }

/-- `ogs_pfcp_handle_update_pdr` -/
def handleUpdatePdr (env : RuleEnv) (ie : UpdatePdrIe) : Handler Nat := do
  let pdrId ← mandatory ie.pdrId pdrIdType
  let slot ← lookUp .pdr pdrId.toUInt32 ⟨causeMandatoryIeIncorrect, pdrIdType⟩
  .whenSome ie.pdi (handleUpdatePdi env slot)
  modifyRule .pdr slot fun pdr =>
    { pdr with
      outerHeaderRemoval := overwrite (ie.outerHeaderRemoval.map (List.take 2)) pdr.outerHeaderRemoval }
  return slot

/-- The handlers that remove a rule. -/
def handleRemove (kind : RuleKind) (type : UInt8) (remove : Nat → Handler Unit) (ie : RuleIdIe) :
    Handler Unit := do
  let id ← mandatory ie.id type
  remove (← lookUp kind id ⟨causeSessionContextNotFound, 0⟩)

/-- `ogs_pfcp_handle_remove_pdr` -/
def handleRemovePdr (ie : RuleIdIe) : Handler Unit := handleRemove .pdr pdrIdType pdrRemove ie

/-! ## FARs -/

/-- The forwarding parameters that are written in a FAR. -/
def handleForwardingParameters (slot : Nat) (ie : ForwardingParametersIe) : Handler Unit := do
  modifyRule .far slot fun far =>
    { far with
      dstIf := overwrite ie.destinationInterface far.dstIf
      dstIfType := ie.destinationInterfaceType.or far.dstIfType }
  .whenSome ie.networkInstance fun data => do
    let dnn ← .lift (networkInstanceName data)
    modifyRule .far slot fun far => { far with dnn := dnn.or far.dnn }
  .whenSome ie.outerHeaderCreation fun data => do
    .assert (data.length ≠ 0)
    modifyRule .far slot fun far =>
      { far with outerHeaderCreation := far.outerHeaderCreation.overwrite data }

/-- `ogs_pfcp_handle_create_far` -/
def handleCreateFar (ie : FarIe) : Handler Nat := do
  let farId ← mandatory ie.farId farIdType
  let slot ← lookUp .far farId ⟨causeMandatoryIeIncorrect, farIdType⟩
  let applyAction ← mandatory ie.applyAction applyActionType
  modifyRule .far slot fun far =>
    { far with
      applyAction
      dstIf := 0
      outerHeaderCreation := {}
      dnn := none }
  .whenSome ie.forwardingParameters (handleForwardingParameters slot)
  return slot

/-- `ogs_pfcp_handle_update_far_flags` -/
def handleUpdateFarFlags (ie : FarIe) : Handler Nat := do
  let farId ← mandatory ie.farId farIdType
  let slot ← lookUp .far farId ⟨causeMandatoryIeIncorrect, farIdType⟩
  let flags := ie.forwardingParameters.bind ForwardingParametersIe.pfcpsmreqFlags
  modifyRule .far slot fun far => { far with smreqFlags := overwrite flags far.smreqFlags }
  return slot

/-- `ogs_pfcp_handle_update_far` -/
def handleUpdateFar (ie : FarIe) : Handler Nat := do
  let farId ← mandatory ie.farId farIdType
  let slot ← lookUp .far farId ⟨causeMandatoryIeIncorrect, farIdType⟩
  modifyRule .far slot fun far => { far with applyAction := overwrite ie.applyAction far.applyAction }
  .whenSome ie.forwardingParameters (handleForwardingParameters slot)
  return slot

/-- `ogs_pfcp_handle_remove_far` -/
def handleRemoveFar (ie : RuleIdIe) : Handler Unit := handleRemove .far farIdType farRemove ie

/-! ## QERs -/

/-- A bitrate that is written in a QER, if there is one. -/
def parseBitrate (data : Option (List UInt8)) (type : UInt8) (old : Bitrate) : Handler Bitrate :=
  match data with
  | none => return old
  | some data => .require (Bitrate.parse data) ⟨causeInvalidLength, type⟩

/-- The bitrates that are written in a QER. -/
def handleBitrates (slot : Nat) (ie : QerIe) : Handler Unit := do
  let mbr ← parseBitrate ie.maximumBitrate mbrType ((← .get).rule .qer slot).mbr
  modifyRule .qer slot fun qer => { qer with mbr }
  let gbr ← parseBitrate ie.guaranteedBitrate gbrType ((← .get).rule .qer slot).gbr
  modifyRule .qer slot fun qer => { qer with gbr }

/-- `ogs_pfcp_handle_create_qer` -/
def handleCreateQer (ie : QerIe) : Handler Nat := do
  let qerId ← mandatory ie.qerId qerIdType
  let slot ← lookUp .qer qerId ⟨causeMandatoryIeIncorrect, qerIdType⟩
  let gateStatus ← mandatory ie.gateStatus applyActionType
  modifyRule .qer slot fun qer =>
    { qer with
      gateStatus
      mbr := {}
      gbr := {} }
  handleBitrates slot ie
  modifyRule .qer slot fun qer => { qer with qfi := ie.qosFlowIdentifier.getD 0 }
  return slot

/-- `ogs_pfcp_handle_update_qer` -/
def handleUpdateQer (ie : QerIe) : Handler Nat := do
  let qerId ← mandatory ie.qerId qerIdType
  let slot ← lookUp .qer qerId ⟨causeMandatoryIeIncorrect, qerIdType⟩
  handleBitrates slot ie
  return slot

/-- `ogs_pfcp_handle_remove_qer` -/
def handleRemoveQer (ie : RuleIdIe) : Handler Unit := handleRemove .qer qerIdType qerRemove ie

/-! ## BARs -/

/-- `ogs_pfcp_handle_create_bar`. A session has one BAR. -/
def handleCreateBar (ie : RuleIdIe) : Handler Unit := do
  let id ← mandatory ie.id barIdType
  .whenSome (← .get).sess.bar barDelete
  barNew id.toUInt8

/-- `ogs_pfcp_handle_remove_bar` -/
def handleRemoveBar (ie : RuleIdIe) : Handler Unit := do
  let id ← mandatory ie.id barIdType
  let st ← .get
  match st.sess.bar with
  | none => .refuse ⟨causeSessionContextNotFound, 0⟩
  | some slot =>
    if (st.ctx.bar slot).id = id.toUInt8 then barDelete slot
    else .refuse ⟨causeSessionContextNotFound, 0⟩

/-! ## URRs -/

def measurementMethodDuration : UInt8 := 1

def measurementMethodVolume : UInt8 := 2

def measurementMethodEvent : UInt8 := 4

/-- Octet `n` of a number of 24 bits, from its end. -/
def octetOf (u24 : UInt32) (n : UInt32) : UInt8 := ((u24 >>> (8 * n)) &&& 0xff).toUInt8

/-- The method and the reporting triggers of a new URR. -/
def PfcpUrr.create (measMethod : UInt8) (u24 : UInt32) (urr : PfcpUrr) : PfcpUrr :=
  { urr with
    measMethod
    reptri5 := octetOf u24 2
    reptri6 := octetOf u24 1
    reptri7 := octetOf u24 0 }

/-- The method and the reporting triggers of a URR that is updated. -/
def PfcpUrr.update (measMethod : Option UInt8) (u24 : Option UInt32) (urr : PfcpUrr) : PfcpUrr :=
  { urr with
    measMethod := overwrite measMethod urr.measMethod
    reptri5 := overwrite (u24.map (octetOf · 0)) urr.reptri5
    reptri6 := overwrite (u24.map (octetOf · 1)) urr.reptri6
    reptri7 := overwrite (u24.map (octetOf · 2)) urr.reptri7 }

/-- A volume that is written in a URR which measures volumes, by `put`. -/
def handleVolume (slot : Nat) (data : Option (List UInt8)) (type : UInt8)
    (put : PfcpUrr → Volume → PfcpUrr) : Handler Unit := do
  match data with
  | none => return ()
  | some data =>
    if bit ((← .get).rule .urr slot).measMethod measurementMethodVolume then
      let parsed ← .lift (Volume.parse data)
      modifyRule .urr slot fun urr => put urr parsed.2
      if data.length ≠ parsed.1 then .refuse ⟨causeMandatoryIeIncorrect, type⟩

/-- The threshold of dropped traffic that is written in a URR. -/
def handleDroppedDlTrafficThreshold (slot : Nat) (data : Option (List UInt8)) : Handler Unit := do
  match data with
  | none => return ()
  | some data =>
    let parsed ← .lift (DroppedDlTrafficThreshold.parse data)
    modifyRule .urr slot fun urr => { urr with droppedDlTrafficThreshold := parsed.2 }
    if data.length ≠ parsed.1 then .refuse ⟨causeMandatoryIeIncorrect, droppedDlTrafficThresholdType⟩

/-- The period of an element. -/
def PfcpUrr.withPeriod (ie : UrrIe) (urr : PfcpUrr) : PfcpUrr :=
  { urr with measPeriod := overwrite ie.measurementPeriod urr.measPeriod }

/-- The limits of events and of time, as far as the URR measures events and time. -/
def PfcpUrr.withCounts (ie : UrrIe) (urr : PfcpUrr) : PfcpUrr :=
  let event := bit urr.measMethod measurementMethodEvent
  let duration := bit urr.measMethod measurementMethodDuration
  { urr with
    eventThreshold :=
      if event then overwrite ie.eventThreshold urr.eventThreshold else urr.eventThreshold
    eventQuota := if event then overwrite ie.eventQuota urr.eventQuota else urr.eventQuota
    timeThreshold :=
      if duration then overwrite ie.timeThreshold urr.timeThreshold else urr.timeThreshold
    timeQuota := if duration then overwrite ie.timeQuota urr.timeQuota else urr.timeQuota
    quotaHoldingTime := overwrite ie.quotaHoldingTime urr.quotaHoldingTime }

/-- The validity time and the octet of measurement information. -/
def PfcpUrr.withValidity (ie : UrrIe) (urr : PfcpUrr) : PfcpUrr :=
  { urr with
    quotaValidityTime := overwrite ie.quotaValidityTime urr.quotaValidityTime
    measInfo := overwrite (ie.measurementInformation.bind List.head?) urr.measInfo }

def PfcpUrr.setVolThreshold (urr : PfcpUrr) (volThreshold : Volume) : PfcpUrr :=
  { urr with volThreshold }

def PfcpUrr.setVolQuota (urr : PfcpUrr) (volQuota : Volume) : PfcpUrr := { urr with volQuota }

/-- What follows the triggers, which is the same for a new URR and one that is updated. -/
def handleUrrLimits (slot : Nat) (ie : UrrIe) : Handler Unit := do
  modifyRule .urr slot fun urr => urr.withPeriod ie
  handleVolume slot ie.volumeThreshold volumeThresholdType PfcpUrr.setVolThreshold
  handleVolume slot ie.volumeQuota volumeQuotaType PfcpUrr.setVolQuota
  modifyRule .urr slot fun urr => urr.withCounts ie
  handleDroppedDlTrafficThreshold slot ie.droppedDlTrafficThreshold
  modifyRule .urr slot fun urr => urr.withValidity ie

/-- `ogs_pfcp_handle_create_urr` -/
def handleCreateUrr (ie : UrrIe) : Handler Nat := do
  let urrId ← mandatory ie.urrId urrIdType
  let slot ← lookUp .urr urrId ⟨causeMandatoryIeIncorrect, urrIdType⟩
  let measMethod ← mandatory ie.measurementMethod measurementMethodType
  let triggers ← mandatory ie.reportingTriggers reportingTriggersType
  modifyRule .urr slot fun urr => urr.create measMethod triggers
  handleUrrLimits slot ie
  return slot

/-- `ogs_pfcp_handle_update_urr` -/
def handleUpdateUrr (ie : UrrIe) : Handler Nat := do
  let urrId ← mandatory ie.urrId urrIdType
  let slot ← lookUp .urr urrId ⟨causeMandatoryIeIncorrect, urrIdType⟩
  modifyRule .urr slot fun urr => urr.update ie.measurementMethod ie.reportingTriggers
  handleUrrLimits slot ie
  return slot

/-- `ogs_pfcp_handle_remove_urr` -/
def handleRemoveUrr (ie : RuleIdIe) : Handler Unit := handleRemove .urr urrIdType urrRemove ie

end Quicup.Open5gs.Pfcp
