import Quicup.Open5gs.Core.Pkbuf
import Quicup.Open5gs.Pfcp.Context

/-!
# Forwarding in the PFCP library

`ogs_pfcp_up_handle_pdr` gives a packet a GTP-U header and does with it what the FAR
of its detection rule says: send it, keep it, or drop it.
-/

namespace Quicup.Open5gs

open Pkbuf

def ogsGtpuMsgtypeGpdu : UInt8 := 255

def ogsGtp2ExtensionHeaderPduTypeDlPduSessionInformation : UInt8 := 0

def ogsMaxNumOfGtpuBuffer : Nat := 64

def Far.forw (far : Far) : Bool := far.applyAction &&& ogsPfcpApplyActionForw ≠ 0

def Far.buff (far : Far) : Bool := far.applyAction &&& ogsPfcpApplyActionBuff ≠ 0

/-- Between networks the header of a packet is kept but for its TEID. -/
def Pdr.homeRouted (pdr : Pdr) (far : Far) : Bool :=
  (pdr.srcIf = ogsPfcpInterfaceCore ∧ pdr.srcIfType = some ogsPfcp3gppInterfaceTypeN9ForRoaming) ∨
    (far.dstIf = ogsPfcpInterfaceCore ∧
      far.dstIfType = some ogsPfcp3gppInterfaceTypeN9ForRoaming)

/-- The QFI of a packet: that of the QER, or on a path from access to access the one it
came with. -/
def Pdr.sendQfi (pdr : Pdr) (far : Far) (recvhdr : Option Gtp2HeaderDesc) : Except Fault UInt8 :=
  match pdr.qer.map Qer.qfi with
  | some 0 | none =>
    if pdr.srcIf = ogsPfcpInterfaceAccess ∧ far.dstIf = ogsPfcpInterfaceAccess then
      match recvhdr with
      | none => .error .nullDeref
      | some recvhdr => .ok recvhdr.qosFlowIdentifier
    else .ok 0
  | some qfi => .ok qfi

/-- The header of a packet to be sent. -/
def Pdr.sendhdr (pdr : Pdr) (far : Far) (type : UInt8) (recvhdr : Option Gtp2HeaderDesc) :
    Except Fault Gtp2HeaderDesc := do
  let qosFlowIdentifier ← pdr.sendQfi far recvhdr
  return {
    type
    teid       := far.outerHeaderCreation.teid
    qosFlowIdentifier
    pduType    := ogsGtp2ExtensionHeaderPduTypeDlPduSessionInformation
    udpPort    := recvhdr.bind Gtp2HeaderDesc.udpPort
    pdcpNumber := recvhdr.bind Gtp2HeaderDesc.pdcpNumber }

/-- `ogs_pfcp_send_gtpu`, as the packet that is handed to the socket with its TEID. -/
def Far.sendGtpu (far : Far) (sendbuf : Gpdu) : Option (UInt32 × Gpdu) :=
  if far.dstIf = ogsPfcpInterfaceUnknown then none
  else
    match far.gnode with
    | some ⟨true⟩ => some (far.outerHeaderCreation.teid, sendbuf)
    | _ => none

/-- What `ogs_pfcp_up_handle_pdr` leaves: the FAR, the packet that is sent, and whether
downlink data is to be reported. -/
structure PdrOutcome where
  far : Far
  sent : Option (UInt32 × Gpdu) := none
  downlinkDataReport : Bool := false
  deriving DecidableEq

/-- Only the first packet that is kept is reported. A full buffer takes no more. -/
def Far.buffering (far : Far) (sendbuf : Gpdu) : PdrOutcome :=
  { far :=
      if far.bufferedGtpu.length < ogsMaxNumOfGtpuBuffer then
        { far with bufferedGtpu := far.bufferedGtpu ++ [sendbuf] }
      else far
    downlinkDataReport := far.bufferedGtpu.isEmpty }

/-- The packet with its header. -/
def Pdr.encapsulate (pdr : Pdr) (far : Far) (type : UInt8) (len : Nat)
    (recvhdr : Option Gtp2HeaderDesc) (sendbuf : Pkbuf) : Except Fault Gpdu := do
  if pdr.homeRouted far then
    return .pushed len sendbuf.data
  else
    return .encapsulated (← pdr.sendhdr far type recvhdr) sendbuf.data

/-- `ogs_pfcp_up_handle_pdr` -/
def Pdr.upHandle (pdr : Pdr) (type : UInt8) (len : Nat) (recvhdr : Option Gtp2HeaderDesc)
    (sendbuf : Pkbuf) : Except Fault PdrOutcome := do
  if type = 0 then .error .assertion
  else
    match pdr.far with
    | none => .error .assertion
    | some far =>
      let sendbuf ← pdr.encapsulate far type len recvhdr sendbuf
      if far.gnode = none then
        return far.buffering sendbuf
      else if far.forw then
        return { far, sent := far.sendGtpu sendbuf }
      else if far.buff then
        return far.buffering sendbuf
      else
        return { far }

end Quicup.Open5gs
