import Quicup.Open5gs.Pfcp.Message
import Quicup.Open5gs.Pfcp.Rules

/-!
# Elements of rules

`build.c`: what the SMF sends of its rules.
-/

namespace Quicup.Open5gs.Pfcp

/-- A value that is sent unless it is zero. -/
def sent (value : UInt32) : Option UInt32 := if value = 0 then none else some value

/-! ## URRs -/

def modifyUrrMeasMethod : UInt64 := (1 : UInt64) <<< 28

def modifyUrrReportTrigger : UInt64 := (1 : UInt64) <<< 29

def modifyUrrQuotaValidityTime : UInt64 := (1 : UInt64) <<< 30

def modifyUrrVolumeQuota : UInt64 := (1 : UInt64) <<< 31

def modifyUrrTimeQuota : UInt64 := (1 : UInt64) <<< 32

def modifyUrrVolumeThresh : UInt64 := (1 : UInt64) <<< 33

def modifyUrrTimeThresh : UInt64 := (1 : UInt64) <<< 34

/-- Whether a flag of a modification is set. -/
def modifies (modifyFlags flag : UInt64) : Bool := modifyFlags &&& flag ≠ 0

/-- The three octets of reporting triggers as one number. -/
def PfcpUrr.triggers (urr : PfcpUrr) : UInt32 :=
  (urr.reptri5.toUInt32 <<< 16) ||| (urr.reptri6.toUInt32 <<< 8) ||| urr.reptri7.toUInt32

/-- A volume that is sent if it has flags. -/
def buildVolume (volume : Volume) : Except Fault (Option (List UInt8)) := do
  if volume.flags = 0 then return none else return some (← volume.build)

/-- A threshold of dropped traffic that is sent if it has flags. -/
def buildDropped (threshold : DroppedDlTrafficThreshold) : Except Fault (Option (List UInt8)) := do
  if threshold.flags = 0 then return none else return some (← threshold.build)

/-- `ogs_pfcp_build_create_urr` -/
def buildCreateUrr (id : UInt32) (urr : PfcpUrr) : Except Fault UrrIe := do
  let volumeThreshold ← buildVolume urr.volThreshold
  let volumeQuota ← buildVolume urr.volQuota
  let droppedDlTrafficThreshold ← buildDropped urr.droppedDlTrafficThreshold
  return {
    urrId := id
    measurementMethod := urr.measMethod
    reportingTriggers := urr.triggers
    measurementPeriod := sent urr.measPeriod
    volumeThreshold
    volumeQuota
    eventThreshold := sent urr.eventThreshold
    eventQuota := sent urr.eventQuota
    timeThreshold := sent urr.timeThreshold
    timeQuota := sent urr.timeQuota
    quotaHoldingTime := sent urr.quotaHoldingTime
    droppedDlTrafficThreshold
    quotaValidityTime := sent urr.quotaValidityTime
    measurementInformation := if urr.measInfo = 0 then none else some [urr.measInfo] }

/-- A value that is sent if its flag is set. -/
def flaggedIe {α : Type} (modifyFlags flag : UInt64) (value : Option α) : Option α :=
  if modifies modifyFlags flag then value else none

/-- The flags of an update, of which one is set. -/
def modifyUrrFlags : UInt64 :=
  modifyUrrMeasMethod ||| modifyUrrReportTrigger ||| modifyUrrVolumeThresh |||
    modifyUrrVolumeQuota ||| modifyUrrTimeThresh ||| modifyUrrTimeQuota |||
    modifyUrrQuotaValidityTime

/-- `ogs_pfcp_build_update_urr` -/
def buildUpdateUrr (id : UInt32) (urr : PfcpUrr) (modifyFlags : UInt64) : Except Fault UrrIe := do
  if modifies modifyFlags modifyUrrFlags then
    return {
      urrId := id
      measurementMethod := flaggedIe modifyFlags modifyUrrMeasMethod urr.measMethod
      reportingTriggers := flaggedIe modifyFlags modifyUrrReportTrigger urr.triggers
      volumeThreshold :=
        flaggedIe modifyFlags modifyUrrVolumeThresh (← buildVolume urr.volThreshold)
      volumeQuota := flaggedIe modifyFlags modifyUrrVolumeQuota (← buildVolume urr.volQuota)
      timeThreshold := flaggedIe modifyFlags modifyUrrTimeThresh (sent urr.timeThreshold)
      timeQuota := flaggedIe modifyFlags modifyUrrTimeQuota (sent urr.timeQuota)
      quotaValidityTime :=
        flaggedIe modifyFlags modifyUrrQuotaValidityTime (sent urr.quotaValidityTime) }
  else .error .assertion

end Quicup.Open5gs.Pfcp
