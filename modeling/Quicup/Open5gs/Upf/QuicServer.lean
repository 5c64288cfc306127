import Quicup.Core.System
import Quicup.Open5gs.Core.Hash
import Quicup.Open5gs.Core.Pkbuf

/-!
# The QUIC server of the UPF

`quic-server.c`: the registry of connected gNBs and the callback that keeps it. A
client node comes from a pool of fixed size. The registry lists the nodes and
indexes them by the text of the gNB address, which the node itself holds.
-/

namespace Quicup.Open5gs

/-! ## C strings -/

/-- The string at the front of a buffer. -/
def cString (buffer : List UInt8) : List UInt8 := buffer.takeWhile (· ≠ 0)

def strlen (buffer : List UInt8) : Nat := (cString buffer).length

/-- A string and its terminator overwrite the front of a buffer. -/
def strcpy (dest src : List UInt8) : List UInt8 := src ++ 0 :: dest.drop (src.length + 1)

theorem take_strlen (buffer : List UInt8) : buffer.take (strlen buffer) = cString buffer :=
  (List.prefix_iff_eq_take.mp (List.takeWhile_prefix _)).symm

def inet6Addrstrlen : Nat := 46

/-- The text that `inet_ntop` writes for an address. -/
@[ext] structure IpString where
  chars : List UInt8
  nonempty : chars ≠ []
  noNul : ∀ c ∈ chars, c ≠ 0
  fits : chars.length < inet6Addrstrlen
  deriving DecidableEq

theorem cString_strcpy (dest : List UInt8) (ip : IpString) :
    cString (strcpy dest ip.chars) = ip.chars := by
  rw [cString, strcpy, List.takeWhile_append_of_pos fun c hc => decide_eq_true (ip.noNul c hc)]
  exact List.append_nil _

/-! ## The registry -/

structure QuicClientNode where
  conn : Nat
  ipAddress : List UInt8

def quicClientPoolSize : Nat := 128

/-- The pool of client nodes with its free list, the list of the nodes in use, and
their index. A node is named by its position in the pool. Beside them stand the
connections that were reported as connected and not as shut down. -/
structure QuicServer where
  node : Nat → QuicClientNode
  quicClientPool : List Nat := List.range quicClientPoolSize
  quicClientList : List Nat := []
  quicClientHash : OgsHash Nat Nat
  connected : List (Nat × IpString) := []

namespace QuicServer

variable (s : QuicServer)

/-- The memory that the keys of the index point into. -/
def mem (n : Nat) : List UInt8 := (s.node n).ipAddress

/-- The node that a search for an address finds. -/
def find (ip : List UInt8) : Except Fault (Option Nat) := s.quicClientHash.get s.mem ip

theorem find_eq (ip : IpString) :
    s.find ip.chars = .ok ((s.quicClientHash.findEntry s.mem ip.chars).map HashEntry.val) := by
  rw [find, OgsHash.get, if_neg fun hzero => ip.nonempty (List.length_eq_zero_iff.mp hzero)]

/-- The free list takes back no more nodes than the pool has. -/
def free (n : Nat) : List Nat :=
  if s.quicClientPool.length < quicClientPoolSize then s.quicClientPool ++ [n]
  else s.quicClientPool

/-- `ConnectionCallback` for `CONNECTED`. What the allocation returns is used
without a check. -/
def onConnected (conn : Nat) (ip : IpString) : Except Fault QuicServer :=
  match s.quicClientPool with
  | [] => .error .nullDeref
  | n :: pool => do
    let s := { s with
      node := Function.update s.node n ⟨conn, strcpy (s.node n).ipAddress ip.chars⟩
      quicClientPool := pool
      quicClientList := s.quicClientList ++ [n]
      connected := s.connected ++ [(conn, ip)] }
    let quicClientHash ← s.quicClientHash.set s.mem n (strlen (s.mem n)) (some n)
    pure { s with quicClientHash }

/-- `ConnectionCallback` for `SHUTDOWN_COMPLETE`. -/
def onShutdownComplete (conn : Nat) : Except Fault QuicServer :=
  let s := { s with connected := s.connected.filter fun c => c.1 ≠ conn }
  match s.quicClientList.find? fun n => (s.node n).conn = conn with
  | none => pure s
  | some n => do
    let quicClientHash ← s.quicClientHash.set s.mem n (strlen (s.mem n)) none
    pure { s with
      quicClientHash
      quicClientList := s.quicClientList.erase n
      quicClientPool := s.free n }

/-! ## Datagrams -/

/-- What becomes of a downlink packet. A datagram that `DatagramSend` refuses is
logged, and its buffer goes back to the pool. -/
inductive Downlink
  | notConnected
  | noServer
  | invalidPacket
  | outOfMemory
  | datagramSend (conn : Nat) (datagram : List UInt8)
  deriving DecidableEq

/-- The octets of a send buffer. -/
def payloadSize : Nat := 2048

def headerLen : Nat := 4

/-- `quic_server_send_downlink`, with whether msquic is open and whether the pool has
a send buffer. -/
def sendDownlink (msQuic sendBuffer : Bool) (destGnbIp : List UInt8) (teid : UInt32)
    (packetData : Option (List UInt8)) (packetLen : UInt16) : Except Fault Downlink := do
  match ← s.find destGnbIp with
  | none => return .notConnected
  | some n =>
    if !msQuic then
      return .noServer
    match packetData with
    | none => return .invalidPacket
    | some data =>
      if packetLen = 0 ∨ packetLen.toNat > payloadSize - headerLen then
        return .invalidPacket
      if !sendBuffer then
        return .outOfMemory
      if data.length < packetLen.toNat then
        throw .outOfBounds
      return .datagramSend (s.node n).conn
        (octetsBE headerLen teid.toNat ++ data.take packetLen.toNat)

/-- The datagram of a packet between one octet and what the send buffer holds behind
the TEID is the TEID and the packet. No other packet is sent. -/
theorem sendDownlink_datagramSend {s : QuicServer} {msQuic sendBuffer : Bool}
    {destGnbIp : List UInt8} {teid : UInt32} {data : List UInt8} {packetLen : UInt16} {conn : Nat}
    {datagram : List UInt8} :
    s.sendDownlink msQuic sendBuffer destGnbIp teid (some data) packetLen =
        .ok (.datagramSend conn datagram) ↔
      (∃ n, s.find destGnbIp = .ok (some n) ∧ (s.node n).conn = conn) ∧ msQuic = true ∧
        sendBuffer = true ∧ (1 ≤ packetLen.toNat ∧ packetLen.toNat ≤ 2044) ∧
        packetLen.toNat ≤ data.length ∧
        datagram = octetsBE 4 teid.toNat ++ data.take packetLen.toNat := by
  have hbounds : ¬(packetLen = 0 ∨ packetLen.toNat > payloadSize - headerLen) ↔
      1 ≤ packetLen.toNat ∧ packetLen.toNat ≤ 2044 := by
    have hzero : packetLen = 0 ↔ packetLen.toNat = 0 := UInt16.toNat_inj.symm
    rw [hzero, payloadSize, headerLen]
    omega
  rw [sendDownlink]
  cases hfind : s.find destGnbIp with
  | error fault => exact ⟨nofun, fun h => nomatch h.1.choose_spec.1⟩
  | ok found =>
    cases found with
    | none => exact ⟨nofun, fun h => nomatch h.1.choose_spec.1⟩
    | some n =>
      change (if !msQuic then _ else if _ then _ else if !sendBuffer then _ else if _ then _
        else _) = _ ↔ _
      split
      · rename_i hserver
        refine ⟨nofun, fun h => ?_⟩
        rw [h.2.1] at hserver
        exact nomatch hserver
      split
      · rename_i hinvalid
        exact ⟨nofun, fun h => absurd hinvalid (hbounds.mpr h.2.2.2.1)⟩
      split
      · rename_i hbuffer
        refine ⟨nofun, fun h => ?_⟩
        rw [h.2.2.1] at hbuffer
        exact nomatch hbuffer
      split
      · rename_i hshort
        exact ⟨nofun, fun h => absurd h.2.2.2.2.1 (Nat.not_le.mpr hshort)⟩
      rename_i hserver hvalid hbuffer hshort
      constructor
      · intro h
        obtain ⟨rfl, rfl⟩ := Downlink.datagramSend.inj (Except.ok.inj h)
        exact ⟨⟨n, rfl, rfl⟩, by simpa using hserver, by simpa using hbuffer,
          hbounds.mp hvalid, Nat.not_lt.mp hshort, rfl⟩
      · rintro ⟨⟨m, hm, rfl⟩, -, -, -, -, rfl⟩
        cases hm
        rfl

/-- A packet whose length is given as its own has an outcome. -/
theorem exists_sendDownlink (s : QuicServer) (msQuic sendBuffer : Bool) (ip : IpString)
    (teid : UInt32) (data : List UInt8) :
    ∃ sent, s.sendDownlink msQuic sendBuffer ip.chars teid (some data)
      (UInt16.ofNat data.length) = .ok sent := by
  have hlength : ¬data.length < (UInt16.ofNat data.length).toNat := by
    rw [UInt16.toNat_ofNat']
    exact Nat.not_lt.mpr (Nat.mod_le _ _)
  rw [sendDownlink, find_eq]
  cases (s.quicClientHash.findEntry s.mem ip.chars).map HashEntry.val with
  | none => exact ⟨_, rfl⟩
  | some n =>
    simp only [Fallible.ok_bind, if_neg hlength]
    split
    · exact ⟨_, rfl⟩
    split
    · exact ⟨_, rfl⟩
    split
    · exact ⟨_, rfl⟩
    · exact ⟨_, rfl⟩

end QuicServer

/-- `QUIC_BUFFER` of a datagram that msquic delivers, which one UDP packet carried. -/
structure QuicBuffer where
  buffer : List UInt8
  fits : buffer.length < 65536

/-- `quic_server_handle_uplink` up to the call of `upf_n3_route_uplink`, with whether
memory for the packet is left. The datagram of a TEID alone has an empty packet. -/
def quicServerHandleUplink (memory : Bool) (buffer : QuicBuffer) : Option (UInt32 × Pkbuf) :=
  if buffer.buffer.length < 4 then none
  else if !memory then none
  else
    some (UInt32.ofNat (natBE (buffer.buffer.take 4)), .ofData (buffer.buffer.drop 4))

namespace QuicServer

/-! ## Runs -/

inductive ConnectionEvent
  | connected (conn : Nat) (ip : IpString)
  | shutdownComplete (conn : Nat)

/-- The steps of the callback. A connection is not reported as connected twice
before its shutdown. A fault ends the run. -/
inductive Step : Except Fault QuicServer → ConnectionEvent → Except Fault QuicServer → Prop
  | connected {s conn ip} : (∀ ip, (conn, ip) ∉ s.connected) →
      Step (.ok s) (.connected conn ip) (s.onConnected conn ip)
  | shutdownComplete {s conn} : Step (.ok s) (.shutdownComplete conn) (s.onShutdownComplete conn)

/-- The server starts with whatever the memory of its pool holds and a seed that the
table draws. -/
def system : System (Except Fault QuicServer) ConnectionEvent where
  init s := ∃ node seed, s = .ok { node, quicClientHash := .make seed }
  step := Step

end QuicServer

end Quicup.Open5gs
