import Quicup.Open5gs.Gtp.HeaderBounds

/-!
# GTP-U signalling messages of the UPF

`ogs_gtp2_handle_echo_req` of `lib/gtp/v2/path.c` answers an echo request. Of an error
indication, `ogs_pfcp_far_find_by_gtpu_error_indication` of `lib/pfcp/context.c` takes the
F-TEID that leads to a FAR.
-/

namespace Quicup.Open5gs

open Pkbuf Fallible

def ogsGtpuMsgtypeEchoReq : UInt8 := 1

def ogsGtpuMsgtypeEchoRsp : UInt8 := 2

def ogsGtpuMsgtypeErrInd : UInt8 := 26

/-! ## Echo requests -/

/-- The sequence number of a request, zero where it has none. -/
def echoSequence (flags : UInt8) (pkb : Pkbuf) : Except Fault (List UInt8) := do
  if flags &&& gtpuFlagsS ≠ 0 then return [← pkb.octet 8, ← pkb.octet 9] else return [0, 0]

/-- The N-PDU number of a request, zero where it has none. -/
def echoNpdu (flags : UInt8) (pkb : Pkbuf) : Except Fault UInt8 :=
  if flags &&& gtpuFlagsPn ≠ 0 then pkb.octet 10 else .ok 0

/-- The optional word of an answer, which ends in the type of no extension header. -/
def echoOptional (flags : UInt8) (pkb : Pkbuf) : Except Fault (List UInt8) := do
  if flags &&& (gtpuFlagsPn ||| gtpuFlagsS) ≠ 0 then
    return (← echoSequence flags pkb) ++ [← echoNpdu flags pkb, 0]
  else return []

/-- `ogs_gtp2_handle_echo_req`, with whether there is memory for the answer. -/
def gtp2HandleEchoReq (memory : Bool) (pkb : Pkbuf) : Except Fault (Option (List UInt8)) := do
  let flags ← pkb.octet 0
  let type ← pkb.octet 1
  if flags >>> 5 ≠ 1 then return none
  else if type ≠ ogsGtpuMsgtypeEchoReq then return none
  else if !memory then return none
  else do
    let optional ← echoOptional flags pkb
    return some ((0x30 ||| (flags &&& (gtpuFlagsPn ||| gtpuFlagsS))) :: ogsGtpuMsgtypeEchoRsp ::
      (octetsBE 2 (optional.length + 2) ++ [0, 0, 0, 0] ++ optional ++ [14, 0]))

variable {packet : List UInt8} {len : Nat} {desc : FlaggedHeaderDesc}

/-- The word that a sequence number or an N-PDU number stands in is part of the header. -/
theorem GtpuHeader.optional_inside (h : GtpuHeader packet (some len, desc))
    (hflags : octetAt packet 0 &&& (gtpuFlagsPn ||| gtpuFlagsS) ≠ 0) : 11 < packet.length := by
  cases h with
  | plain hinside hext hplain =>
    have hlen : plainLength packet = 12 := if_pos (by rwa [UInt8.or_comm])
    omega
  | extended hinside hext hchain => exact hinside

/-- An echo request with an accepted header is answered from within the datagram. -/
theorem GtpuHeader.returns_handleEchoReq (h : GtpuHeader packet (some len, desc)) (memory : Bool) :
    Returns (gtp2HandleEchoReq memory (ofData packet)) := by
  have hoptional : Returns (echoOptional (octetAt packet 0) (ofData packet)) := by
    rw [echoOptional]
    split_ifs with hflags
    · have hinside := h.optional_inside hflags
      have hoctet (i : Nat) (hi : i < 12) : (ofData packet).octet i = .ok (octetAt packet i) :=
        octet_ofData_iff.mpr ⟨by omega, rfl⟩
      have hsequence : Returns (echoSequence (octetAt packet 0) (ofData packet)) := by
        rw [echoSequence, hoctet 8 (by decide), hoctet 9 (by decide)]
        split_ifs
        · exact returns_pure _
        · exact returns_pure _
      have hnpdu : Returns (echoNpdu (octetAt packet 0) (ofData packet)) := by
        rw [echoNpdu, hoctet 10 (by decide)]
        split_ifs
        · exact returns_ok _
        · exact returns_ok _
      obtain ⟨sequence, hsequence⟩ := hsequence
      obtain ⟨npdu, hnpdu⟩ := hnpdu
      rw [hsequence, hnpdu]
      exact returns_pure _
    · exact returns_pure _
  have hinside : 1 < packet.length := by
    cases h with
    | plain hinside => omega
    | extended hinside => omega
  refine returns_bind.mpr ⟨_, octet_ofData_iff.mpr ⟨by omega, rfl⟩, ?_⟩
  refine returns_bind.mpr ⟨_, octet_ofData_iff.mpr ⟨hinside, rfl⟩, ?_⟩
  split_ifs
  · exact returns_pure _
  · exact returns_pure _
  · exact returns_pure _
  · obtain ⟨optional, hoptional⟩ := hoptional
    exact returns_bind.mpr ⟨optional, hoptional, returns_pure _⟩

/-! ## Error indications -/

/-- The address of a GTP-U peer. -/
inductive PeerAddress
  | ipv4 (addr : UInt32)
  | ipv6 (addr : Vector UInt32 4)
  deriving DecidableEq

/-- The key of `far_f_teid_hash`, under which a FAR is found by its tunnel. -/
structure FarFTeid where
  teid : UInt32
  addr : PeerAddress
  deriving DecidableEq

/-- The address of `len` octets behind the header of a GTP-U peer address. -/
def peerAddress (pkbuf : Pkbuf) (len : UInt16) : Except Fault (Option PeerAddress) := do
  if len = 4 then return some (.ipv4 (← pkbuf.word 8))
  else if len = 16 then return some (.ipv6 (← pkbuf.words 8))
  else return none

/-- The key that `ogs_pfcp_far_find_by_gtpu_error_indication` looks up: the TEID behind a
type of 16, and the address behind a type of 133. -/
def errorIndicationKey (pkbuf : Pkbuf) : Except Fault (Option FarFTeid) := do
  if (← pkbuf.octet 0) ≠ 16 then return none
  else do
    let teid ← pkbuf.word 1
    if (← pkbuf.octet 5) ≠ 133 then return none
    else do
      let addr ← peerAddress pkbuf (← pkbuf.half 6)
      return addr.map fun addr => ⟨teid, addr⟩

/-- `ogs_pfcp_far_find_by_gtpu_error_indication`, with the keys that are set in the hash. A
FAR stands for the key that it is found under. -/
def farFindByGtpuErrorIndication (isSet : FarFTeid → Bool) (pkbuf : Pkbuf) :
    Except Fault (Option FarFTeid) := do
  return (← errorIndicationKey pkbuf).filter isSet

section ErrorIndication

variable (packet : List UInt8)

/-- What is read of an error indication lies in the packet, and leads to a key unless the
message is refused. -/
inductive ErrorIndication : Option FarFTeid → Prop
  | noTeid : 0 < packet.length → octetAt packet 0 ≠ 16 → ErrorIndication none
  | noPeer : 5 < packet.length → octetAt packet 0 = 16 → octetAt packet 5 ≠ 133 →
      ErrorIndication none
  | noAddress : 7 < packet.length → octetAt packet 0 = 16 → octetAt packet 5 = 133 →
      halfAt packet 6 ≠ 4 → halfAt packet 6 ≠ 16 → ErrorIndication none
  | ipv4 : 11 < packet.length → octetAt packet 0 = 16 → octetAt packet 5 = 133 →
      halfAt packet 6 = 4 → ErrorIndication (some ⟨wordAt packet 1, .ipv4 (wordAt packet 8)⟩)
  | ipv6 : 23 < packet.length → octetAt packet 0 = 16 → octetAt packet 5 = 133 →
      halfAt packet 6 = 16 → ErrorIndication (some ⟨wordAt packet 1, .ipv6 (wordsAt packet 8)⟩)

variable {packet}

theorem errorIndicationKey_ofData_iff {key : Option FarFTeid} :
    errorIndicationKey (ofData packet) = .ok key ↔ ErrorIndication packet key := by
  constructor
  · intro h
    obtain ⟨first, hfirst, h⟩ := bind_eq_ok.mp h
    obtain ⟨hnonempty, rfl⟩ := octet_ofData_iff.mp hfirst
    split_ifs at h with hteid
    · obtain rfl := Except.ok.inj h
      exact .noTeid hnonempty hteid
    rw [Ne, not_not] at hteid
    obtain ⟨teid, hword, h⟩ := bind_eq_ok.mp h
    obtain ⟨-, rfl⟩ := word_ofData_iff.mp hword
    obtain ⟨second, hsecond, h⟩ := bind_eq_ok.mp h
    obtain ⟨hinside, rfl⟩ := octet_ofData_iff.mp hsecond
    split_ifs at h with hpeer
    · obtain rfl := Except.ok.inj h
      exact .noPeer hinside hteid hpeer
    rw [Ne, not_not] at hpeer
    obtain ⟨len, hlen, h⟩ := bind_eq_ok.mp h
    obtain ⟨hlength, rfl⟩ := half_ofData_iff.mp hlen
    obtain ⟨addr, haddr, h⟩ := bind_eq_ok.mp h
    obtain rfl := Except.ok.inj h
    rw [peerAddress] at haddr
    split_ifs at haddr with hipv4 hipv6
    · obtain ⟨word, hword, haddr⟩ := bind_eq_ok.mp haddr
      obtain ⟨hinside, rfl⟩ := word_ofData_iff.mp hword
      obtain rfl := Except.ok.inj haddr
      exact .ipv4 hinside hteid hpeer hipv4
    · obtain ⟨words, hwords, haddr⟩ := bind_eq_ok.mp haddr
      obtain ⟨hinside, rfl⟩ := words_ofData_iff.mp hwords
      obtain rfl := Except.ok.inj haddr
      exact .ipv6 hinside hteid hpeer hipv6
    · obtain rfl := Except.ok.inj haddr
      exact .noAddress hlength hteid hpeer hipv4 hipv6
  · have hkey (hinside : 7 < packet.length) (hteid : octetAt packet 0 = 16)
        (hpeer : octetAt packet 5 = 133) {addr : Option PeerAddress}
        (haddr : peerAddress (ofData packet) (halfAt packet 6) = .ok addr) :
        errorIndicationKey (ofData packet) = .ok (addr.map (⟨wordAt packet 1, ·⟩)) := by
      refine bind_eq_ok.mpr ⟨16, octet_ofData_iff.mpr ⟨by omega, hteid⟩, ?_⟩
      refine bind_eq_ok.mpr ⟨_, word_ofData_iff.mpr ⟨by omega, rfl⟩, ?_⟩
      refine bind_eq_ok.mpr ⟨133, octet_ofData_iff.mpr ⟨by omega, hpeer⟩, ?_⟩
      refine bind_eq_ok.mpr ⟨_, half_ofData_iff.mpr ⟨by omega, rfl⟩, ?_⟩
      exact bind_eq_ok.mpr ⟨addr, haddr, rfl⟩
    intro h
    cases h with
    | noTeid hinside hteid =>
      refine bind_eq_ok.mpr ⟨_, octet_ofData_iff.mpr ⟨hinside, rfl⟩, ?_⟩
      rw [if_pos hteid]
      rfl
    | noPeer hinside hteid hpeer =>
      refine bind_eq_ok.mpr ⟨16, octet_ofData_iff.mpr ⟨by omega, hteid⟩, ?_⟩
      refine bind_eq_ok.mpr ⟨_, word_ofData_iff.mpr ⟨by omega, rfl⟩, ?_⟩
      refine bind_eq_ok.mpr ⟨_, octet_ofData_iff.mpr ⟨hinside, rfl⟩, ?_⟩
      rw [if_pos hpeer]
      rfl
    | noAddress hinside hteid hpeer hipv4 hipv6 =>
      have haddr : peerAddress (ofData packet) (halfAt packet 6) = .ok none := by
        rw [peerAddress, if_neg hipv4, if_neg hipv6]
        rfl
      exact hkey hinside hteid hpeer haddr
    | ipv4 hinside hteid hpeer hipv4 =>
      have haddr : peerAddress (ofData packet) (halfAt packet 6) =
          .ok (some (.ipv4 (wordAt packet 8))) := by
        rw [peerAddress, if_pos hipv4]
        exact bind_eq_ok.mpr ⟨_, word_ofData_iff.mpr ⟨hinside, rfl⟩, rfl⟩
      exact hkey (by omega) hteid hpeer haddr
    | ipv6 hinside hteid hpeer hipv6 =>
      have haddr : peerAddress (ofData packet) (halfAt packet 6) =
          .ok (some (.ipv6 (wordsAt packet 8))) := by
        rw [peerAddress, hipv6, if_neg (by decide), if_pos rfl]
        exact bind_eq_ok.mpr ⟨_, words_ofData_iff.mpr ⟨hinside, rfl⟩, rfl⟩
      exact hkey (by omega) hteid hpeer haddr

theorem farFindByGtpuErrorIndication_ofData_iff {isSet : FarFTeid → Bool}
    {far : Option FarFTeid} :
    farFindByGtpuErrorIndication isSet (ofData packet) = .ok far ↔
      ∃ key, ErrorIndication packet key ∧ key.filter isSet = far := by
  rw [farFindByGtpuErrorIndication, bind_eq_ok]
  simp only [errorIndicationKey_ofData_iff]
  constructor
  · rintro ⟨key, hkey, h⟩
    exact ⟨key, hkey, Except.ok.inj h⟩
  · rintro ⟨key, hkey, rfl⟩
    exact ⟨key, hkey, rfl⟩

end ErrorIndication

end Quicup.Open5gs
