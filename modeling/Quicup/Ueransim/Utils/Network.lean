import Quicup.Ueransim.Utils.Octets

/-!
# Internet addresses of the gNB

An `InetAddress` with the ports of `constants.hpp`. Constructing one from octets
raises for a length that is no IPv4, IPv6 or paired address.
-/

namespace Quicup.Ueransim

structure InetAddress where
  address : OctetString
  port : UInt16
  deriving DecidableEq

namespace InetAddress

def gtpPort : UInt16 := 2152

def quicPort : UInt16 := 4567

/-- An address from its octets. Of a pair of addresses the first is taken. -/
def ofOctets (address : OctetString) (port : UInt16) : Except Fault InetAddress :=
  if address.length ≠ 4 ∧ address.length ≠ 16 ∧ address.length ≠ 20 then .error .exception
  else if address.length = 4 ∨ address.length = 20 then .ok ⟨address.take 4, port⟩
  else .ok ⟨address, port⟩

end InetAddress

end Quicup.Ueransim
