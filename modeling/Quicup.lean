import Quicup.Ueransim.Gtp.RateWindow
import Quicup.Ueransim.Nas.ElementLengths
import Quicup.Ueransim.Gtp.Alignment
import Quicup.Ueransim.Quic.Ownership
import Quicup.Ueransim.Quic.Destination
import Quicup.Open5gs.Upf.Registry
import Quicup.N3.Encapsulation
import Quicup.Open5gs.Upf.Accounting
import Quicup.Open5gs.Upf.UrrTimers
import Quicup.Open5gs.Upf.ApplyAction
import Quicup.Ueransim.Gtp.Index
import Quicup.Ueransim.Gtp.Limits
import Quicup.Ueransim.Rls.Tables
import Quicup.Ueransim.Rlc.UmTransmitter
import Quicup.Ueransim.Rlc.Overlap
import Quicup.Ueransim.Rls.Codec
import Quicup.Ueransim.Rls.Cells
import Quicup.Ueransim.Rls.Departure
import Quicup.Ueransim.Rlc.Safety
import Quicup.Ueransim.Rlc.Transmission
import Quicup.Open5gs.Upf.RouteLookup
import Quicup.Open5gs.Upf.GtpuRecv
import Quicup.Open5gs.Pfcp.UrrUpdate
import Quicup.Open5gs.Upf.SessionIndex
import Quicup.Open5gs.Upf.Refusal
import Quicup.Open5gs.Gtp.Xact
import Quicup.Open5gs.Pfcp.Duplicates
import Quicup.N3.GtpuCodec
import Quicup.Open5gs.Pfcp.PoolRanges
import Quicup.Open5gs.Pfcp.Restoration
import Quicup.Ueransim.Nas.Cleartext
import Quicup.N1.RegistrationArea
import Quicup.N1.CountAgreement
import Quicup.Ueransim.Nas.Replay
import Quicup.Ueransim.Nas.MessageTrip
import Quicup.Ueransim.Rlc.PduTrips
import Quicup.Open5gs.Pfcp.FarIndex
import Quicup.Open5gs.Pfcp.XactCreation
import Quicup.Open5gs.Pfcp.Ipv6Bounds
import Quicup.Open5gs.Gtp.HeaderModes
import Quicup.Open5gs.Pfcp.IeTrips
import Quicup.Open5gs.Proto.Pco
import Quicup.Open5gs.Pfcp.FailedAdds
import Quicup.Open5gs.Pfcp.PacketFilters
import Quicup.Open5gs.Pfcp.PdrOrder
import Quicup.Open5gs.Proto.Fqdn
import Quicup.N1.ForgedAutn
import Quicup.Ueransim.Nas.ContextFrame
import Quicup.Ueransim.Nas.SessionBounds
import Quicup.Open5gs.Core.PoolIds
import Quicup.Open5gs.Core.TlvBuild
import Quicup.Open5gs.Core.Conv
import Quicup.Open5gs.Nas.QosRulesBounds
import Quicup.Ueransim.Nas.EapTrip
import Quicup.Ueransim.Nas.MobileIdentity
import Quicup.N1.Nssai
