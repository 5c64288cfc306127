import Quicup.Open5gs.Gtp.Header
import Quicup.Open5gs.Pfcp.PacketBounds
import Quicup.Open5gs.Upf.Uplink
import Quicup.Open5gs.Upf.UrrAcc

/-!
# Safety of the QUIC uplink path

The whole way of a datagram, from `quic_server_handle_uplink` to what becomes of the packet
buffer. The buffer is given up once on every way that ends. Which ways end depends on the
packet, on the rules of the session and on what is left of the resources of the UPF.
-/

namespace Quicup.Open5gs

open Pkbuf Fallible Pfcp

/-! ## Accounting -/

/-- A URR wants a timer that its accumulator does not have yet. -/
def UpfSessUrrAcc.misses (urr : SessUrr) (acc : UpfSessUrrAcc) (kind : UrrTimerKind) : Bool :=
  urr.asks kind && decide (0 < urr.duration kind) && (acc.timer kind).isNone

def UpfSessUrrAcc.missingTimers (urr : SessUrr) (acc : UpfSessUrrAcc) : Nat :=
  (acc.misses urr .validityTime).toNat + (acc.misses urr .timeQuota).toNat +
    (acc.misses urr .timeThreshold).toNat

/-- A packet of so many octets makes a URR report its volume. -/
def UpfSessUrrAcc.reportsFor (env : UrrAccEnv) (urr : SessUrr) (size : UInt64)
    (acc : UpfSessUrrAcc) : Bool :=
  let vol := (acc.count env size true).unreportedOctets
  urr.reachesVolumeQuota vol || urr.reachesVolumeThreshold vol

/-- The loop of `upf_n3_route_uplink` over the URRs. -/
def accountUplink (env : UrrAccEnv) (size : UInt64) :
    List SessUrr → (Nat → UpfSessUrrAcc) → Except Fault (Nat → UpfSessUrrAcc)
  | [], accs => .ok accs
  | urr :: urrs, accs => do
    let (_, accs) ← onUrrAcc urr (fun acc => acc.add env urr size true) accs
    accountUplink env size urrs accs

/-- Each URR has an accumulator. Where the packet makes it report, once the URRs before it
have taken the packet, there is what the report and its timers need. -/
def Accountable (env : UrrAccEnv) (size : UInt64) :
    List SessUrr → (Nat → UpfSessUrrAcc) → Prop
  | [], _ => True
  | urr :: urrs, accs =>
    validUrrId urr.id = true ∧
      ((accs urr.index).reportsFor env urr size = true →
        env.sends = true ∧ (accs urr.index).missingTimers urr ≤ env.timers) ∧
      ∀ added, onUrrAcc urr (fun acc => acc.add env urr size true) accs = .ok added →
        Accountable env size urrs added.2

section Accounting

variable {env : UrrAccEnv} {urr : SessUrr} {acc : UpfSessUrrAcc} {size : UInt64}
  {accs : Nat → UpfSessUrrAcc}

/-- A timer that is missing is taken from those that are left. -/
theorem setupWanted_iff (urr : SessUrr) (kind : UrrTimerKind) (state : Nat × UpfSessUrrAcc) :
    (Returns (UpfSessUrrAcc.setupWanted urr kind (UpfSessUrrAcc.setupTimer urr kind) state) ↔
      (state.2.misses urr kind).toNat ≤ state.1) ∧
    ∀ state', UpfSessUrrAcc.setupWanted urr kind (UpfSessUrrAcc.setupTimer urr kind) state =
        .ok state' →
      state'.1 = state.1 - (state.2.misses urr kind).toNat ∧
        ∀ other, other ≠ kind → state'.2.misses urr other = state.2.misses urr other := by
  have hother (running : UrrTimer) (other : UrrTimerKind) (hne : other ≠ kind) :
      UpfSessUrrAcc.misses urr { state.2 with
        reportingEnabled := true
        timer := Function.update state.2.timer kind (some running) } other =
      state.2.misses urr other := by
    simp only [UpfSessUrrAcc.misses, Function.update_of_ne hne]
  unfold UpfSessUrrAcc.setupWanted UpfSessUrrAcc.setupTimer
  by_cases hasks : urr.asks kind = true ∧ 0 < urr.duration kind
  · rw [if_pos hasks]
    cases htimer : state.2.timer kind with
    | some timer =>
      have hmisses : state.2.misses urr kind = false := by
        simp [UpfSessUrrAcc.misses, htimer]
      rw [hmisses]
      refine ⟨iff_of_true (returns_ok _) (Nat.zero_le _), fun state' h => ?_⟩
      obtain rfl := Except.ok.inj h
      exact ⟨rfl, hother _⟩
    | none =>
      have hmisses : state.2.misses urr kind = true := by
        simp [UpfSessUrrAcc.misses, htimer, hasks]
      rw [hmisses]
      by_cases hleft : state.1 = 0
      · simp [hleft]
      · simp only [if_neg hleft]
        refine ⟨iff_of_true (returns_ok _) (Nat.one_le_iff_ne_zero.mpr hleft), fun state' h => ?_⟩
        obtain rfl := Except.ok.inj h
        exact ⟨rfl, hother _⟩
  · rw [if_neg hasks]
    have hmisses : state.2.misses urr kind = false := by
      have hnot : (urr.asks kind && decide (0 < urr.duration kind)) = false := by
        simpa using hasks
      rw [UpfSessUrrAcc.misses, hnot, Bool.false_and]
    rw [hmisses]
    refine ⟨iff_of_true (returns_ok _) (Nat.zero_le _), fun state' h => ?_⟩
    obtain rfl := Except.ok.inj h
    exact ⟨rfl, fun _ _ => rfl⟩

theorem returns_timersSetup_iff :
    Returns (acc.timersSetup env urr) ↔ acc.missingTimers urr ≤ env.timers := by
  let started := { acc with timeStart := ogsTimeToNtp32 (env.now 3) }
  obtain ⟨hfirst, hafterFirst⟩ := setupWanted_iff urr .validityTime (env.timers, started)
  have hfirst : Returns _ ↔ (acc.misses urr .validityTime).toNat ≤ env.timers := hfirst
  rw [UpfSessUrrAcc.timersSetup, UpfSessUrrAcc.missingTimers]
  constructor
  · intro h
    obtain ⟨state₁, h₁, h⟩ := returns_bind.mp h
    obtain ⟨state₂, h₂, h⟩ := returns_bind.mp h
    obtain ⟨state₃, h₃, -⟩ := returns_bind.mp h
    obtain ⟨hleft₁, hkeep₁⟩ := hafterFirst state₁ h₁
    obtain ⟨hsecond, hafterSecond⟩ := setupWanted_iff urr .timeQuota state₁
    obtain ⟨hleft₂, hkeep₂⟩ := hafterSecond state₂ h₂
    have hneed₁ := hfirst.mp ⟨state₁, h₁⟩
    have hneed₂ := hsecond.mp ⟨state₂, h₂⟩
    have hneed₃ := (setupWanted_iff urr .timeThreshold state₂).1.mp ⟨state₃, h₃⟩
    rw [hkeep₂ _ (by decide), hkeep₁ _ (by decide)] at hneed₃
    rw [hkeep₁ _ (by decide)] at hneed₂ hleft₂
    change state₁.1 = env.timers - (acc.misses urr .validityTime).toNat at hleft₁
    change (acc.misses urr .timeQuota).toNat ≤ _ at hneed₂
    change state₂.1 = state₁.1 - (acc.misses urr .timeQuota).toNat at hleft₂
    change (acc.misses urr .timeThreshold).toNat ≤ _ at hneed₃
    omega
  · intro h
    obtain ⟨state₁, h₁⟩ := hfirst.mpr (by omega)
    obtain ⟨hleft₁, hkeep₁⟩ := hafterFirst state₁ h₁
    change state₁.1 = env.timers - (acc.misses urr .validityTime).toNat at hleft₁
    obtain ⟨hsecond, hafterSecond⟩ := setupWanted_iff urr .timeQuota state₁
    rw [hkeep₁ _ (by decide)] at hsecond hafterSecond
    change _ ↔ (acc.misses urr .timeQuota).toNat ≤ _ at hsecond
    obtain ⟨state₂, h₂⟩ := hsecond.mpr (by omega)
    obtain ⟨hleft₂, hkeep₂⟩ := hafterSecond state₂ h₂
    change state₂.1 = state₁.1 - (acc.misses urr .timeQuota).toNat at hleft₂
    obtain ⟨hthird, -⟩ := setupWanted_iff urr .timeThreshold state₂
    rw [hkeep₂ _ (by decide), hkeep₁ _ (by decide)] at hthird
    change _ ↔ (acc.misses urr .timeThreshold).toNat ≤ _ at hthird
    obtain ⟨state₃, h₃⟩ := hthird.mpr (by omega)
    refine returns_bind.mpr ⟨state₁, h₁, ?_⟩
    exact returns_bind.mpr ⟨state₂, h₂, returns_bind.mpr ⟨state₃, h₃, returns_pure _⟩⟩

theorem returns_add_iff :
    Returns (acc.add env urr size true) ↔
      (acc.reportsFor env urr size = true → env.sends = true ∧ acc.missingTimers urr ≤ env.timers) := by
  rw [UpfSessUrrAcc.add, UpfSessUrrAcc.reportsFor]
  dsimp only
  split
  · rename_i hreports
    rw [hreports, UpfSessUrrAcc.sendReport, forall_prop_of_true rfl]
    have htimers : (((acc.count env size true).report env urr).2).missingTimers urr =
        acc.missingTimers urr := rfl
    rw [← htimers, ← returns_timersSetup_iff]
    cases env.sends with
    | false => exact iff_of_false (not_returns_error _) fun h => Bool.false_ne_true h.1
    | true =>
      dsimp only
      rw [if_neg (by decide)]
      simp only [returns_bind, bind_eq_ok, returns_pure, and_true, true_and]
      constructor
      · rintro ⟨_, acc', hacc', -⟩
        exact ⟨acc', hacc'⟩
      · rintro ⟨acc', hacc'⟩
        exact ⟨_, acc', hacc', rfl⟩
  · rename_i hreports
    exact iff_of_true (returns_pure _) fun h => absurd h hreports

theorem returns_onUrrAcc_iff {α : Type} {f : UpfSessUrrAcc → Except Fault (α × UpfSessUrrAcc)} :
    Returns (onUrrAcc urr f accs) ↔ validUrrId urr.id = true ∧ Returns (f (accs urr.index)) := by
  rw [onUrrAcc]
  split
  · rename_i hvalid
    simp only [Returns, map_eq_ok, hvalid, true_and]
    exact ⟨fun ⟨_, done, hdone, _⟩ => ⟨done, hdone⟩, fun ⟨done, hdone⟩ => ⟨_, done, hdone, rfl⟩⟩
  · rename_i hvalid
    exact iff_of_false (not_returns_error _) fun h => hvalid h.1

theorem returns_accountUplink_iff {urrs : List SessUrr} :
    Returns (accountUplink env size urrs accs) ↔ Accountable env size urrs accs := by
  induction urrs generalizing accs with
  | nil => exact iff_of_true (returns_ok _) trivial
  | cons urr urrs ih =>
    have hadd : Returns (onUrrAcc urr (fun acc => acc.add env urr size true) accs) ↔
        validUrrId urr.id = true ∧ Returns ((accs urr.index).add env urr size true) :=
      returns_onUrrAcc_iff
    rw [accountUplink, Accountable, returns_bind, ← returns_add_iff, ← and_assoc, ← hadd]
    constructor
    · rintro ⟨added, hadd, h⟩
      refine ⟨⟨added, hadd⟩, fun added' hadd' => ?_⟩
      obtain rfl := Except.ok.inj (hadd.symm.trans hadd')
      exact ih.mp h
    · rintro ⟨⟨added, hadd⟩, h⟩
      exact ⟨added, hadd, ih.mpr (h added hadd)⟩

end Accounting

/-! ## The packet buffer -/

/-- What is done with a packet buffer. A FAR takes it, or it is freed. -/
inductive BufferUse
  | tunWrite (dev : PfcpDev) (frame : List UInt8)
  | sendto (packet : List UInt8)
  | bufferedGtpu (packet : List UInt8)
  | free
  deriving DecidableEq

def BufferUse.givesUp : BufferUse → Bool
  | .bufferedGtpu _ => true
  | .free => true
  | _ => false

/-- A buffer is given up at the end, and not before. -/
def ConsumedOnce (uses : List BufferUse) : Prop :=
  ∃ before last, uses = before ++ [last] ∧ last.givesUp = true ∧
    ∀ use ∈ before, use.givesUp = false

theorem consumedOnce_single {last : BufferUse} (h : last.givesUp = true) : ConsumedOnce [last] :=
  ⟨[], last, rfl, h, List.forall_mem_nil _⟩

/-- A buffer that is used and then freed. -/
theorem consumedOnce_free {use : BufferUse} (h : use.givesUp = false) :
    ConsumedOnce [use, .free] := by
  refine ⟨[use], .free, rfl, rfl, fun x hx => ?_⟩
  rw [List.mem_singleton.mp hx]
  exact h

/-- `ogs_pkbuf_push`, with the octets in front of the packet. -/
def pkbufPush (headroom : List UInt8) (len : Nat) (pkbuf : Pkbuf) : Except Fault Pkbuf :=
  if headroom.length < len then .error .assertion
  else .ok { pkbuf with data := headroom.drop (headroom.length - len) ++ pkbuf.data }

/-- The packet with its header, in its buffer. -/
def Pdr.encapsulateBuffer (pdr : Pdr) (far : Far) (type : UInt8) (len : Nat)
    (recvhdr : Option Gtp2HeaderDesc) (headroom : List UInt8) (sendbuf : Pkbuf) :
    Except Fault Pkbuf := do
  if pdr.homeRouted far then pkbufPush headroom len sendbuf
  else
    let sendhdr ← pdr.sendhdr far type recvhdr
    gtp2EncapsulateHeader { toGtp2HeaderDesc := sendhdr } headroom.length sendbuf

/-- `ogs_pfcp_send_gtpu` -/
def Far.sendBuffer (far : Far) (sendbuf : Pkbuf) : Except Fault (List BufferUse) :=
  if far.dstIf = ogsPfcpInterfaceUnknown then .ok [.free]
  else
    match far.gnode with
    | some ⟨true⟩ => do
      let sent ← gtpSendWithTeid sendbuf far.outerHeaderCreation.teid
      return [.sendto sent.data, .free]
    | _ => .ok [.free]

/-- A packet that is kept if there is room for it. -/
def Far.keepBuffer (far : Far) (sendbuf : Pkbuf) : List BufferUse :=
  if far.bufferedGtpu.length < ogsMaxNumOfGtpuBuffer then [.bufferedGtpu sendbuf.data] else [.free]

/-- `ogs_pfcp_up_handle_pdr`, as what it does with the buffer. -/
def Pdr.upHandleBuffer (pdr : Pdr) (type : UInt8) (len : Nat) (recvhdr : Option Gtp2HeaderDesc)
    (headroom : List UInt8) (sendbuf : Pkbuf) : Except Fault (List BufferUse) := do
  if type = 0 then .error .assertion
  else
    match pdr.far with
    | none => .error .assertion
    | some far =>
      let sendbuf ← pdr.encapsulateBuffer far type len recvhdr headroom sendbuf
      if far.gnode = none then return far.keepBuffer sendbuf
      else if far.forw then far.sendBuffer sendbuf
      else if far.buff then return far.keepBuffer sendbuf
      else return [.free]

theorem Far.consumedOnce_keepBuffer (far : Far) (sendbuf : Pkbuf) :
    ConsumedOnce (far.keepBuffer sendbuf) := by
  rw [Far.keepBuffer]
  split
  · exact consumedOnce_single rfl
  · exact consumedOnce_single rfl

variable {sendbuf : Pkbuf} {uses : List BufferUse}

theorem Far.consumedOnce_sendBuffer {far : Far} (h : far.sendBuffer sendbuf = .ok uses) :
    ConsumedOnce uses := by
  rw [Far.sendBuffer] at h
  split at h
  · obtain rfl := Except.ok.inj h
    exact consumedOnce_single rfl
  split at h
  · obtain ⟨sent, -, h⟩ := bind_eq_ok.mp h
    obtain rfl := Except.ok.inj h
    exact consumedOnce_free rfl
  · obtain rfl := Except.ok.inj h
    exact consumedOnce_single rfl

/-- Forwarding that returns gives the buffer up once. -/
theorem Pdr.consumedOnce_upHandleBuffer {pdr : Pdr} {type : UInt8} {len : Nat}
    {recvhdr : Option Gtp2HeaderDesc} {headroom : List UInt8}
    (h : pdr.upHandleBuffer type len recvhdr headroom sendbuf = .ok uses) : ConsumedOnce uses := by
  rw [Pdr.upHandleBuffer] at h
  split at h
  · cases h
  split at h
  · cases h
  obtain ⟨sendbuf, -, h⟩ := bind_eq_ok.mp h
  split at h
  · obtain rfl := Except.ok.inj h
    exact Far.consumedOnce_keepBuffer _ _
  split at h
  · exact Far.consumedOnce_sendBuffer h
  split at h
  · obtain rfl := Except.ok.inj h
    exact Far.consumedOnce_keepBuffer _ _
  · obtain rfl := Except.ok.inj h
    exact consumedOnce_single rfl

/-! ## The whole path -/

/-- What the uplink path takes from the rest of the UPF: what is registered for the TEIDs,
whether there is memory for a packet, the octets in front of it, and the URRs and the
accumulators of the session. -/
structure UplinkEnv where
  findByTeid : UInt32 → Option PfcpObject
  memory : Bool
  headroom : Vector UInt8 16
  accEnv : UrrAccEnv
  slot : Urr → Nat
  rule : Urr → PfcpUrr
  urrAcc : Nat → UpfSessUrrAcc

namespace UplinkEnv

variable (env : UplinkEnv)

def sessUrr (urr : Urr) : SessUrr := ⟨env.slot urr, urr.id, env.rule urr⟩

/-- What `upf_n3_route_uplink` does with the buffer once it knows where the packet goes. -/
def finish (pkbuf : Pkbuf) : Uplink → Except Fault (List BufferUse)
  | .drop => .ok [.free]
  | .errorIndication => .ok [.free]
  | .tunWrite accounted dev frame => do
    let urrs := accounted.map fun acc => env.sessUrr acc.urr
    let _ ← accountUplink env.accEnv (.ofNat pkbuf.len) urrs env.urrAcc
    return [.tunWrite dev frame, .free]
  | .upHandlePdr pdr =>
    pdr.upHandleBuffer ogsGtpuMsgtypeGpdu 0 none env.headroom.toList pkbuf

/-- `quic_server_handle_uplink`, as what is done with the buffer of the packet, if there is
one. -/
def handleUplink (buffer : QuicBuffer) : Except Fault (Option (List BufferUse)) := do
  match quicServerHandleUplink env.memory buffer with
  | none => return none
  | some (teid, pkbuf) =>
    let uplink ← upfN3RouteUplink env.findByTeid teid pkbuf
    return some (← env.finish pkbuf uplink)

/-- A datagram is handled to its end, and the buffer of its packet is given up once. -/
def HandledSafely (buffer : QuicBuffer) : Prop :=
  ∃ uses, env.handleUplink buffer = .ok uses ∧ ∀ list, uses = some list → ConsumedOnce list

end UplinkEnv

/-! ## Which datagrams are handled safely -/

/-- The subnet of the address of the UE in the family of a version. -/
def UpfSess.familySubnet (sess : UpfSess) (version : UInt8) : Option PfcpSubnet :=
  match version, sess.ipv4, sess.ipv6 with
  | 4, some ue, _ => ue.subnet
  | 6, _, some ue => ue.subnet
  | _, _, _ => none

/-- A detection rule takes a packet under a TEID. -/
def Pdr.Takes (pdr : Pdr) (teid : UInt32) (packet : List UInt8) : Prop :=
  teid = pdr.teid ∧ pdr.RulesMatch packet

/-- Between networks a packet that is sent has room for the TEID. Elsewhere a QFI is at hand,
or the packet does not go from access to access. -/
def Pdr.Forwardable (pdr : Pdr) (far : Far) (packet : List UInt8) : Prop :=
  if pdr.homeRouted far then
    far.gnode = some ⟨true⟩ → far.forw = true → far.dstIf ≠ ogsPfcpInterfaceUnknown →
      7 < packet.length
  else
    pdr.srcIf = ogsPfcpInterfaceAccess → far.dstIf = ogsPfcpInterfaceAccess →
      ∃ qer, pdr.qer = some qer ∧ qer.qfi ≠ 0

namespace UplinkEnv

variable (env : UplinkEnv)

/-- A detection rule has what it takes to route a packet. It has a FAR. A packet for the core
is not empty, and its subnet has a device and URRs that account it. -/
def Routable (sess : UpfSess) (pdr : Pdr) (packet : List UInt8) : Prop :=
  ∃ far, pdr.far = some far ∧
    if far.dstIf = ogsPfcpInterfaceCore then
      packet ≠ [] ∧ ∀ subnet, sess.familySubnet (versionAt packet) = some subnet →
        subnet.dev ≠ none ∧ Accountable env.accEnv (.ofNat packet.length)
          (pdr.urr.map env.sessUrr) env.urrAcc
    else pdr.Forwardable far packet

/-- Up to the first detection rule that takes a packet, what the SDF rules under its TEID read
lies in the packet. That detection rule can route the packet. -/
def Selectable (sess : UpfSess) (teid : UInt32) (packet : List UInt8) : Prop :=
  ∀ before pdr after, sess.pdrList = before ++ pdr :: after →
    (∀ p ∈ before, ¬p.Takes teid packet) →
    (teid = pdr.teid → pdr.RulesInside packet) ∧
      (pdr.Takes teid packet → env.Routable sess pdr packet)

/-- A datagram has no packet in it, or there is no memory for the packet or no session under
its TEID, or the session can route it. -/
def Admissible (buffer : QuicBuffer) : Prop :=
  ∀ sess, 4 ≤ buffer.buffer.length → env.memory = true →
    env.findByTeid (.ofNat (natBE (buffer.buffer.take 4))) = some (.sess sess) →
    env.Selectable sess (.ofNat (natBE (buffer.buffer.take 4))) (buffer.buffer.drop 4)

end UplinkEnv

section Safety

variable {env : UplinkEnv} {sess : UpfSess} {pdr : Pdr} {far : Far} {packet : List UInt8}
  {teid : UInt32} {accounted : List UrrAcc}

theorem uplinkSubnet_ofData_iff {subnet : Option PfcpSubnet} :
    sess.uplinkSubnet (ofData packet) = .ok subnet ↔
      packet ≠ [] ∧ sess.familySubnet (versionAt packet) = subnet := by
  have hmatch (version : UInt8) : (match version, sess.ipv4, sess.ipv6 with
      | 4, some ue, _ => (pure ue.subnet : Except Fault (Option PfcpSubnet))
      | 6, _, some ue => pure ue.subnet
      | _, _, _ => pure none) = .ok (sess.familySubnet version) := by
    unfold UpfSess.familySubnet
    generalize sess.ipv4 = ipv4
    generalize sess.ipv6 = ipv6
    split
    · rfl
    · rfl
    · rfl
  rw [UpfSess.uplinkSubnet, bind_eq_ok, ← List.length_pos_iff]
  simp only [ipV_ofData_iff]
  constructor
  · rintro ⟨_, ⟨hlt, rfl⟩, h⟩
    exact ⟨hlt, Except.ok.inj ((hmatch _).symm.trans h)⟩
  · rintro ⟨hlt, rfl⟩
    exact ⟨_, ⟨hlt, rfl⟩, hmatch _⟩

theorem takesUplink_ofData_iff {b : Bool} :
    pdr.takesUplink teid (ofData packet) = .ok b ↔
      (teid = pdr.teid → pdr.RulesInside packet) ∧ (b = true ↔ pdr.Takes teid packet) := by
  rw [Pdr.takesUplink, Pdr.Takes]
  by_cases hteid : teid = pdr.teid
  · rw [if_neg (not_not.mpr hteid), rulesAdmit_ofData_iff, forall_prop_of_true hteid,
      and_iff_right hteid]
  · rw [if_pos hteid]
    constructor
    · intro h
      obtain rfl := Except.ok.inj h
      exact ⟨fun h => absurd h hteid, iff_of_false Bool.false_ne_true fun h => hteid h.1⟩
    · rintro ⟨-, hb⟩
      rw [Bool.eq_false_iff.mpr fun h => hteid (hb.mp h).1]

/-- The headroom of a packet from QUIC takes a header with a QFI. -/
theorem encapsulate_of_headroom {hdr : Gtp2HeaderDesc} (hudp : hdr.udpPort = none)
    (hpdcp : hdr.pdcpNumber = none) (pkbuf : Pkbuf) :
    ∃ sendbuf, gtp2EncapsulateHeader { toGtp2HeaderDesc := hdr } 16 pkbuf = .ok sendbuf ∧
      7 < sendbuf.size := by
  have hfits (array : List Gtp2ExtensionHeader) (hlen : (fillOptional (fillFlags 0 array) array).length ≤ 8) :
      ∃ sendbuf, gtp2FillHeader hdr.type 0 array 16 pkbuf = .ok sendbuf ∧ 7 < sendbuf.size := by
    rw [gtp2FillHeader, if_neg (by omega)]
    refine ⟨_, rfl, ?_⟩
    simp only [Pkbuf.size, List.length_append, List.length_cons, length_octetsBE]
    omega
  rw [gtp2EncapsulateHeader, hudp, hpdcp, numberExtension, numberExtension, List.append_nil,
    List.append_nil]
  apply hfits
  rw [Gtp2HeaderDesc.container]
  split
  · rw [fillFlags, if_neg (List.cons_ne_nil _ _), fillOptional, if_pos (by decide)]
    simp [fillExtensionHeaders]
  · rw [fillFlags, if_pos rfl, fillOptional, if_neg (by decide), if_neg (by decide)]
    exact Nat.zero_le _

theorem returns_sendBuffer_iff {sendbuf : Pkbuf} :
    Returns (far.sendBuffer sendbuf) ↔
      (far.gnode = some ⟨true⟩ → far.dstIf ≠ ogsPfcpInterfaceUnknown → 7 < sendbuf.size) := by
  rw [Far.sendBuffer]
  split
  · rename_i hunknown
    exact iff_of_true (returns_ok _) fun _ hne => absurd hunknown hne
  rename_i hknown
  split
  · rename_i hgnode
    rw [gtpSendWithTeid, returns_bind, hgnode]
    simp only [returns_pure, and_true]
    by_cases hsize : sendbuf.size < 8
    · rw [if_pos hsize]
      exact iff_of_false (not_returns_error _) fun h => by
        have hlt := h trivial hknown
        omega
    · rw [if_neg hsize]
      exact iff_of_true (returns_ok _) fun _ _ => by omega
  · rename_i hgnode
    exact iff_of_true (returns_ok _) fun h => absurd h hgnode

theorem returns_sendQfi_iff :
    Returns (pdr.sendQfi far none) ↔
      (pdr.srcIf = ogsPfcpInterfaceAccess → far.dstIf = ogsPfcpInterfaceAccess →
        ∃ qer, pdr.qer = some qer ∧ qer.qfi ≠ 0) := by
  have hnone (h : ¬∃ qer, pdr.qer = some qer ∧ qer.qfi ≠ 0) :
      Returns (if pdr.srcIf = ogsPfcpInterfaceAccess ∧ far.dstIf = ogsPfcpInterfaceAccess then
        (.error .nullDeref : Except Fault UInt8) else .ok 0) ↔
      (pdr.srcIf = ogsPfcpInterfaceAccess → far.dstIf = ogsPfcpInterfaceAccess →
        ∃ qer, pdr.qer = some qer ∧ qer.qfi ≠ 0) := by
    split
    · rename_i haccess
      exact iff_of_false (not_returns_error _) fun hqer => h (hqer haccess.1 haccess.2)
    · rename_i haccess
      exact iff_of_true (returns_ok _) fun hsrc hdst => absurd ⟨hsrc, hdst⟩ haccess
  unfold Pdr.sendQfi
  cases hqer : pdr.qer with
  | none => simpa [hqer] using hnone
  | some qer =>
    rw [hqer] at hnone
    by_cases hqfi : qer.qfi = 0
    · simpa [hqfi] using hnone
    · refine iff_of_true ?_ fun _ _ => ⟨qer, rfl, hqfi⟩
      split
      · rename_i hzero
        exact absurd (Option.some.inj hzero) hqfi
      · rename_i hnone
        cases hnone
      · exact returns_ok _

/-- What `ogs_pfcp_up_handle_pdr` asks of a packet without a received header. -/
theorem returns_upHandleBuffer_iff (hfar : pdr.far = some far) {headroom : List UInt8}
    (hheadroom : headroom.length = 16) :
    Returns (pdr.upHandleBuffer ogsGtpuMsgtypeGpdu 0 none headroom (ofData packet)) ↔
      pdr.Forwardable far packet := by
  have hrest (sendbuf : Pkbuf) :
      Returns (if far.gnode = none then return far.keepBuffer sendbuf
        else if far.forw then far.sendBuffer sendbuf
        else if far.buff then return far.keepBuffer sendbuf
        else return [.free] : Except Fault (List BufferUse)) ↔
      (far.gnode = some ⟨true⟩ → far.forw = true → far.dstIf ≠ ogsPfcpInterfaceUnknown →
        7 < sendbuf.size) := by
    split
    · rename_i hgnode
      refine iff_of_true (returns_pure _) fun h => ?_
      rw [hgnode] at h
      cases h
    split
    · rename_i hforw
      rw [returns_sendBuffer_iff]
      exact ⟨fun h hgnode _ => h hgnode, fun h hgnode => h hgnode hforw⟩
    rename_i hforw
    split
    · exact iff_of_true (returns_pure _) fun _ h => absurd h hforw
    · exact iff_of_true (returns_pure _) fun _ h => absurd h hforw
  rw [Pdr.upHandleBuffer, if_neg (by decide), hfar, returns_bind, Pdr.Forwardable]
  simp only [hrest]
  rw [Pdr.encapsulateBuffer]
  split
  · rw [pkbufPush, if_neg (Nat.not_lt_zero _), Nat.sub_zero, List.drop_length, List.nil_append]
    have hsize : (ofData packet).size = packet.length := by simp [Pkbuf.size, ofData]
    simp [hsize]
  · rw [← returns_sendQfi_iff, hheadroom]
    constructor
    · rintro ⟨sendbuf, h, -⟩
      obtain ⟨sendhdr, hsendhdr, -⟩ := bind_eq_ok.mp h
      obtain ⟨qfi, hqfi, -⟩ := bind_eq_ok.mp hsendhdr
      exact ⟨qfi, hqfi⟩
    · rintro ⟨qfi, hqfi⟩
      let sendhdr : Gtp2HeaderDesc :=
        { type := ogsGtpuMsgtypeGpdu
          teid := far.outerHeaderCreation.teid
          qosFlowIdentifier := qfi
          pduType := ogsGtp2ExtensionHeaderPduTypeDlPduSessionInformation }
      have hsendhdr : pdr.sendhdr far ogsGtpuMsgtypeGpdu none = .ok sendhdr :=
        bind_eq_ok.mpr ⟨qfi, hqfi, rfl⟩
      have hudp : sendhdr.udpPort = none := rfl
      obtain ⟨sendbuf, hsendbuf, hsize⟩ := encapsulate_of_headroom hudp rfl (ofData packet)
      exact ⟨sendbuf, bind_eq_ok.mpr ⟨sendhdr, hsendhdr, hsendbuf⟩, fun _ _ _ => hsize⟩

theorem account_eq_ok_iff {len : Nat} :
    pdr.account len true = .ok accounted ↔
      (∀ urr ∈ pdr.urr, validUrrId urr.id = true) ∧ accounted = pdr.urr.map (⟨·, len, true⟩) := by
  have hadd (urr : Urr) {acc : UrrAcc} : upfSessUrrAccAdd urr len true = .ok acc ↔
      validUrrId urr.id = true ∧ acc = ⟨urr, len, true⟩ := by
    have hvalid : validUrrId urr.id = true ↔ 0 < urr.id.toNat ∧ urr.id.toNat ≤ ogsMaxNumOfUrr := by
      rw [validUrrId, decide_eq_true_iff, UInt32.lt_iff_toNat_lt]
      rfl
    rw [upfSessUrrAccAdd, hvalid]
    split
    · rename_i h
      exact ⟨fun hacc => ⟨h, (Except.ok.inj hacc).symm⟩, fun hacc => congrArg Except.ok hacc.2.symm⟩
    · rename_i h
      refine iff_of_false (fun hacc => ?_) fun hacc => h hacc.1
      cases hacc
  rw [Pdr.account]
  induction pdr.urr generalizing accounted with
  | nil =>
    rw [List.mapM_nil, List.map_nil]
    constructor
    · intro h
      exact ⟨List.forall_mem_nil _, (Except.ok.inj h).symm⟩
    · rintro ⟨-, rfl⟩
      rfl
  | cons urr urrs ih =>
    rw [List.mapM_cons, bind_eq_ok, List.forall_mem_cons, List.map_cons]
    constructor
    · rintro ⟨acc, hacc, h⟩
      obtain ⟨accs, haccs, h⟩ := bind_eq_ok.mp h
      obtain rfl := Except.ok.inj h
      obtain ⟨hvalid, rfl⟩ := (hadd urr).mp hacc
      obtain ⟨hvalids, rfl⟩ := ih.mp haccs
      exact ⟨⟨hvalid, hvalids⟩, rfl⟩
    · rintro ⟨⟨hvalid, hvalids⟩, rfl⟩
      refine ⟨_, (hadd urr).mpr ⟨hvalid, rfl⟩, ?_⟩
      exact bind_eq_ok.mpr ⟨_, ih.mpr ⟨hvalids, rfl⟩, rfl⟩

theorem Accountable.valid {accEnv : UrrAccEnv} {size : UInt64} {urrs : List SessUrr}
    {accs : Nat → UpfSessUrrAcc} (h : Accountable accEnv size urrs accs) :
    ∀ urr ∈ urrs, validUrrId urr.id = true := by
  induction urrs generalizing accs with
  | nil => exact List.forall_mem_nil _
  | cons urr urrs ih =>
    obtain ⟨hvalid, hreports, hrest⟩ := h
    have hadd : Returns (onUrrAcc urr (fun acc => acc.add accEnv urr size true) accs) :=
      returns_onUrrAcc_iff.mpr ⟨hvalid, returns_add_iff.mpr hreports⟩
    obtain ⟨added, hadded⟩ := hadd
    exact List.forall_mem_cons.mpr ⟨hvalid, ih (hrest added hadded)⟩

theorem returns_finish_tunWrite_iff {dev : PfcpDev} {frame : List UInt8} :
    Returns (env.finish (ofData packet) (.tunWrite accounted dev frame)) ↔
      Accountable env.accEnv (.ofNat packet.length)
        (accounted.map fun acc => env.sessUrr acc.urr) env.urrAcc := by
  rw [UplinkEnv.finish, returns_bind, ← returns_accountUplink_iff]
  simp only [returns_pure, and_true]
  rfl

/-- What is asked of the detection rule that takes a packet. -/
theorem returns_route_iff :
    Returns (sess.routeUplink pdr (ofData packet) >>= env.finish (ofData packet)) ↔
      env.Routable sess pdr packet := by
  rw [UpfSess.routeUplink, UplinkEnv.Routable]
  cases hfar : pdr.far with
  | none =>
    refine iff_of_false (not_returns_error _) ?_
    rintro ⟨far, ⟨⟩, -⟩
  | some far =>
    simp only [Option.some.injEq, exists_eq_left']
    by_cases hcore : far.dstIf = ogsPfcpInterfaceCore
    · rw [if_pos hcore, if_pos hcore, bind_assoc, returns_bind]
      simp only [uplinkSubnet_ofData_iff]
      constructor
      · rintro ⟨found, ⟨hne, rfl⟩, h⟩
        refine ⟨hne, fun subnet hsubnet => ?_⟩
        rw [hsubnet] at h
        cases hdev : subnet.dev with
        | none =>
          simp only [hdev] at h
          exact absurd h (not_returns_error _)
        | some dev =>
          simp only [hdev, bind_assoc] at h
          obtain ⟨accounted, haccounted, h⟩ := returns_bind.mp h
          obtain ⟨-, rfl⟩ := account_eq_ok_iff.mp haccounted
          have haccountable := returns_finish_tunWrite_iff.mp h
          rw [List.map_map] at haccountable
          exact ⟨Option.some_ne_none dev, haccountable⟩
      · rintro ⟨hne, h⟩
        refine ⟨_, ⟨hne, rfl⟩, ?_⟩
        cases hsubnet : sess.familySubnet (versionAt packet) with
        | none => exact returns_ok _
        | some subnet =>
          obtain ⟨hdev, haccountable⟩ := h subnet hsubnet
          obtain ⟨dev, hdev⟩ := Option.ne_none_iff_exists'.mp hdev
          simp only [hdev, bind_assoc]
          have hvalid (urr : Urr) (hurr : urr ∈ pdr.urr) : validUrrId urr.id = true :=
            haccountable.valid _ (List.mem_map_of_mem hurr)
          refine returns_bind.mpr ⟨_, account_eq_ok_iff.mpr ⟨hvalid, rfl⟩, ?_⟩
          refine returns_finish_tunWrite_iff.mpr ?_
          rw [List.map_map]
          exact haccountable
    · rw [if_neg hcore, if_neg hcore]
      exact returns_upHandleBuffer_iff hfar env.headroom.length_toList

/-- What `upf_n3_route_uplink` asks of a session and a packet. -/
theorem returns_select_iff (hsess : env.findByTeid teid = some (.sess sess)) :
    Returns (upfN3RouteUplink env.findByTeid teid (ofData packet) >>=
        env.finish (ofData packet)) ↔
      env.Selectable sess teid packet := by
  have htest (pdr : Pdr) (b : Bool) : pdr.takesUplink teid (ofData packet) = .ok b ↔
      (teid = pdr.teid → pdr.RulesInside packet) ∧ (b = true ↔ pdr.Takes teid packet) :=
    takesUplink_ofData_iff
  simp only [upfN3RouteUplink, hsess, bind_assoc]
  have hnone : Returns ((pure .drop : Except Fault Uplink) >>= env.finish (ofData packet)) :=
    returns_ok _
  rw [returns_findM?_bind_iff htest hnone]
  simp only [returns_route_iff]
  rfl

/-- What returns has given the buffer up. -/
theorem consumedOnce_finish {pkbuf : Pkbuf} {uplink : Uplink} {uses : List BufferUse}
    (h : env.finish pkbuf uplink = .ok uses) : ConsumedOnce uses := by
  cases uplink with
  | drop =>
    obtain rfl := Except.ok.inj h
    exact consumedOnce_single rfl
  | errorIndication =>
    obtain rfl := Except.ok.inj h
    exact consumedOnce_single rfl
  | tunWrite accounted dev frame =>
    obtain ⟨accs, -, h⟩ := bind_eq_ok.mp h
    obtain rfl := Except.ok.inj h
    exact consumedOnce_free rfl
  | upHandlePdr pdr => exact Pdr.consumedOnce_upHandleBuffer h

end Safety

/-! ## A datagram without a packet -/

/-- The session with traffic from N3 to N6, without URRs. -/
def n3Env : UplinkEnv where
  findByTeid := n3Find
  memory := true
  headroom := Vector.replicate 16 0
  accEnv := ⟨fun _ => 0, 0, true⟩
  slot := fun _ => 0
  rule := fun _ => {}
  urrAcc := fun _ => {}

def emptyDatagram : QuicBuffer := ⟨[0, 0, 0, 1], by decide⟩

end Quicup.Open5gs
