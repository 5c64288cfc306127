import Quicup.Open5gs.Core.Pkbuf

/-!
# Messages of a session

What `message.h` keeps of a request for a session, as far as it is read or built. An
element that is absent is `none`, and the elements of an array are those that are present.
-/

namespace Quicup.Open5gs.Pfcp

/-- `ogs_pfcp_tlv_pdi_t`. `applicationId` says whether an application ID is present, which
the structure holds behind the array of filters. -/
structure PdiIe where
  sourceInterface : Option UInt8 := none
  localFTeid : Option (List UInt8) := none
  networkInstance : Option (List UInt8) := none
  ueIpAddress : Option (List UInt8) := none
  sdfFilter : List (List UInt8) := []
  applicationId : Bool := false
  qfi : Option UInt8 := none
  framedRoute : List (List UInt8) := []
  framedIpv6Route : List (List UInt8) := []
  sourceInterfaceType : Option UInt8 := none
  deriving DecidableEq

/-- The number of filters that fit into the array of a PDI. -/
def maxSdfFilterIes : Nat := 8

/-- The number of URR IDs that fit into the array of a Create PDR. -/
def maxUrrIdIes : Nat := 8

structure CreatePdrIe where
  pdrId : Option UInt16 := none
  precedence : Option UInt32 := none
  pdi : Option PdiIe := none
  outerHeaderRemoval : Option (List UInt8) := none
  farId : Option UInt32 := none
  urrId : List UInt32 := []
  qerId : Option UInt32 := none
  deriving DecidableEq

structure UpdatePdrIe where
  pdrId : Option UInt16 := none
  pdi : Option PdiIe := none
  outerHeaderRemoval : Option (List UInt8) := none
  deriving DecidableEq

/-- The forwarding parameters of a Create FAR, and those of an Update FAR. -/
structure ForwardingParametersIe where
  destinationInterface : Option UInt8 := none
  destinationInterfaceType : Option UInt8 := none
  networkInstance : Option (List UInt8) := none
  outerHeaderCreation : Option (List UInt8) := none
  pfcpsmreqFlags : Option UInt8 := none
  deriving DecidableEq

/-- A Create FAR or an Update FAR. -/
structure FarIe where
  farId : Option UInt32 := none
  applyAction : Option UInt16 := none
  forwardingParameters : Option ForwardingParametersIe := none
  barId : Option UInt8 := none
  deriving DecidableEq

/-- A Create URR or an Update URR. -/
structure UrrIe where
  urrId : Option UInt32 := none
  measurementMethod : Option UInt8 := none
  reportingTriggers : Option UInt32 := none
  measurementPeriod : Option UInt32 := none
  volumeThreshold : Option (List UInt8) := none
  volumeQuota : Option (List UInt8) := none
  eventThreshold : Option UInt32 := none
  eventQuota : Option UInt32 := none
  timeThreshold : Option UInt32 := none
  timeQuota : Option UInt32 := none
  quotaHoldingTime : Option UInt32 := none
  droppedDlTrafficThreshold : Option (List UInt8) := none
  quotaValidityTime : Option UInt32 := none
  measurementInformation : Option (List UInt8) := none
  deriving DecidableEq

/-- A Create QER or an Update QER. -/
structure QerIe where
  qerId : Option UInt32 := none
  gateStatus : Option UInt8 := none
  maximumBitrate : Option (List UInt8) := none
  guaranteedBitrate : Option (List UInt8) := none
  qosFlowIdentifier : Option UInt8 := none
  deriving DecidableEq

/-- A Create BAR, a Remove BAR, or the Remove element of a rule, with the ID in it. -/
structure RuleIdIe where
  id : Option UInt32 := none
  deriving DecidableEq

end Quicup.Open5gs.Pfcp
