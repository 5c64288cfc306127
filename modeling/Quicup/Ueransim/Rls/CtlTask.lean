import Quicup.Ueransim.Rls.Pdu

/-!
# The control tasks of the radio link

The tasks of `rls/ctl_task.cpp` of the UE and of the gNB. Both keep the PDUs that
wait for an acknowledgement and the acknowledgements they owe, in the same way. An
end point is a cell for the UE and a UE for the gNB.
-/

namespace Quicup.Ueransim

inductive ERlfCause
  | pduIdExists
  | pduIdFull
  | signalLostToConnectedCell
  deriving DecidableEq

structure PduInfo where
  id : UInt32
  pdu : OctetString
  rrcChannel : UInt32
  sentTime : Int
  endPointId : Int
  deriving DecidableEq

/-- What a control task sends to an end point or pushes to the task above it. -/
inductive RlsCtlOutput
  | send (endPointId : Int) (msg : RlsMessage)
  | uplinkData (ueId : Int) (psi : Int32) (data : OctetString)
  | uplinkRrc (ueId : Int) (rrcChannel : UInt32) (data : OctetString)
  | downlinkData (psi : Int32) (data : OctetString)
  | downlinkRrc (cellId : Int) (rrcChannel : UInt32) (data : OctetString)
  | radioLinkFailure (rlfCause : ERlfCause)
  | transmissionFailure (pduList : List PduInfo)
  deriving DecidableEq

/-- The UE's task has a serving cell in addition, which the gNB's does not use. -/
structure RlsControlTask where
  sti : UInt64
  servingCell : Int := 0
  pduMap : AList fun _ : UInt32 => PduInfo := ∅
  pendingAck : AList fun _ : Int => List UInt32 := ∅

namespace RlsControlTask

def maxPduTtl : Int := 3000

variable (task : RlsControlTask)

/-! ## What both tasks do -/

/-- Acknowledged PDUs do not wait any more. -/
def acknowledge (pduIds : List UInt32) : RlsControlTask :=
  { task with pduMap := pduIds.foldl (fun pduMap pduId => pduMap.erase pduId) task.pduMap }

/-- Note that a PDU is to be acknowledged to its end point. Zero asks for nothing. -/
def owe (endPointId : Int) (pduId : UInt32) : RlsControlTask :=
  if pduId ≠ 0 then
    { task with
      pendingAck := task.pendingAck.insert endPointId
        ((task.pendingAck.lookup endPointId).getD [] ++ [pduId]) }
  else
    task

/-- Keep an RRC PDU until it is acknowledged and send it. Both an identifier in use and
a full map clear the map instead. -/
def deliverRrc (maxPduCount : Nat) (time endPointId : Int) (pduId channel : UInt32)
    (data : OctetString) : RlsControlTask × List RlsCtlOutput :=
  let send := .send endPointId (.pduTransmission task.sti .rrc pduId channel data)
  if pduId ≠ 0 then
    if (task.pduMap.lookup pduId).isSome then
      ({ task with pduMap := ∅ }, [.radioLinkFailure .pduIdExists])
    else if task.pduMap.entries.length > maxPduCount then
      ({ task with pduMap := ∅ }, [.radioLinkFailure .pduIdFull])
    else
      let pdu := {
        id         := pduId
        pdu        := data
        rrcChannel := channel
        sentTime   := time
        endPointId := endPointId }
      ({ task with pduMap := task.pduMap.insert pduId pdu }, [send])
  else
    (task, [send])

/-- The PDUs that wait for longer than they may. -/
def overdue (current : Int) : List (Sigma fun _ : UInt32 => PduInfo) :=
  task.pduMap.entries.filter fun pdu => current - pdu.2.sentTime > maxPduTtl

def onAckControlTimerExpired (current : Int) : RlsControlTask × List RlsCtlOutput :=
  let transmissionFailures := (task.overdue current).map Sigma.snd
  let transmissionFailureIds := (task.overdue current).map Sigma.fst
  ({ task with
      pduMap := transmissionFailureIds.foldl (fun pduMap id => pduMap.erase id) task.pduMap },
    if transmissionFailures.isEmpty then [] else [.transmissionFailure transmissionFailures])

/-- End points to which something is owed are passed over. -/
def onAckSendTimerExpired : RlsControlTask × List RlsCtlOutput :=
  let copy := task.pendingAck.entries.filter fun item => item.2.isEmpty
  ({ task with pendingAck := ∅ },
    copy.map fun item => .send item.1 (.pduTransmissionAck task.sti item.2))

/-! ## The task of the UE -/

namespace Ue

def maxPduCount : Nat := 128

/-- Data of a cell other than the serving one is ignored. -/
def handleRlsMessage (cellId : Int) (msg : RlsMessage) : RlsControlTask × List RlsCtlOutput :=
  match msg with
  | .pduTransmissionAck _ pduIds => (task.acknowledge pduIds, [])
  | .pduTransmission _ pduType pduId payload pdu =>
    (task.owe cellId pduId,
      match pduType with
      | .data => if cellId ≠ task.servingCell then [] else [.downlinkData payload.toInt32 pdu]
      | .rrc => [.downlinkRrc cellId payload pdu]
      | _ => [])
  | _ => (task, [])

def handleUplinkRrcDelivery (time cellId : Int) (pduId channel : UInt32) (data : OctetString) :
    RlsControlTask × List RlsCtlOutput :=
  task.deliverRrc maxPduCount time cellId pduId channel data

def handleUplinkDataDelivery (psi : Int32) (data : OctetString) : List RlsCtlOutput :=
  [.send task.servingCell (.pduTransmission task.sti .data 0 psi.toUInt32 data)]

def assignCurrentCell (cellId : Int) : RlsControlTask := { task with servingCell := cellId }

end Ue

/-! ## The task of the gNB -/

namespace Gnb

def maxPduCount : Nat := 4096

def handleRlsMessage (ueId : Int) (msg : RlsMessage) : RlsControlTask × List RlsCtlOutput :=
  match msg with
  | .pduTransmissionAck _ pduIds => (task.acknowledge pduIds, [])
  | .pduTransmission _ pduType pduId payload pdu =>
    (task.owe ueId pduId,
      match pduType with
      | .data => [.uplinkData ueId payload.toInt32 pdu]
      | .rrc => [.uplinkRrc ueId payload pdu]
      | _ => [])
  | _ => (task, [])

/-- A broadcast does not carry an identifier. -/
def handleDownlinkRrcDelivery (time ueId : Int) (pduId channel : UInt32) (data : OctetString) :
    Except Fault (RlsControlTask × List RlsCtlOutput) :=
  if ueId = 0 ∧ pduId ≠ 0 then .error .exception
  else .ok (task.deliverRrc maxPduCount time ueId pduId channel data)

def handleDownlinkDataDelivery (ueId : Int) (psi : Int32) (data : OctetString) :
    List RlsCtlOutput :=
  [.send ueId (.pduTransmission task.sti .data 0 psi.toUInt32 data)]

end Gnb

end RlsControlTask

end Quicup.Ueransim
