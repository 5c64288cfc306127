import Quicup.Open5gs.Pfcp.Path
import Quicup.Open5gs.Pfcp.RuleHandler
import Quicup.Open5gs.Pfcp.Tunnel
import Quicup.Open5gs.Upf.FramedRoute
import Quicup.Open5gs.Upf.Session

/-!
# Requests of the SMF

`n4-handler.c`: how the UPF establishes and modifies a session. A request that is refused
anywhere leads to one exit, which clears the rules of the session and answers with the cause
that is set by then.
-/

namespace Quicup.Open5gs

open Pfcp Function

/-! ## Requests and answers -/

/-- The elements of an array in a message, of which there are at most `n`. -/
abbrev Ies (n : Nat) (α : Type) := { ies : List α // ies.length ≤ n }

/-- The elements of an establishment that are read, and whether there are rules in it that
are read nowhere. -/
structure SessionEstablishmentRequest where
  cpFSeid : Option FSeid := none
  createPdr : Ies 16 CreatePdrIe := ⟨[], Nat.zero_le _⟩
  createFar : Ies 16 FarIe := ⟨[], Nat.zero_le _⟩
  createUrr : Ies 16 UrrIe := ⟨[], Nat.zero_le _⟩
  createQer : Ies 4 QerIe := ⟨[], Nat.zero_le _⟩
  createBar : Option RuleIdIe := none
  createMar : Bool := false
  createSrr : Bool := false
  pdnType : Option UInt8 := none
  apnDnn : Option (List UInt8) := none
  pfcpsereqFlags : Option UInt8 := none
  deriving DecidableEq

/-- The elements of a modification that are read, and whether there are rules in it that are
read nowhere. -/
structure SessionModificationRequest where
  removePdr : Ies 16 RuleIdIe := ⟨[], Nat.zero_le _⟩
  removeFar : Ies 16 RuleIdIe := ⟨[], Nat.zero_le _⟩
  removeUrr : Ies 16 RuleIdIe := ⟨[], Nat.zero_le _⟩
  removeQer : Ies 4 RuleIdIe := ⟨[], Nat.zero_le _⟩
  removeBar : Option RuleIdIe := none
  createPdr : Ies 16 CreatePdrIe := ⟨[], Nat.zero_le _⟩
  createFar : Ies 16 FarIe := ⟨[], Nat.zero_le _⟩
  createUrr : Ies 16 UrrIe := ⟨[], Nat.zero_le _⟩
  createQer : Ies 4 QerIe := ⟨[], Nat.zero_le _⟩
  createBar : Option RuleIdIe := none
  updatePdr : Ies 16 UpdatePdrIe := ⟨[], Nat.zero_le _⟩
  updateFar : Ies 16 FarIe := ⟨[], Nat.zero_le _⟩
  updateUrr : Ies 16 UrrIe := ⟨[], Nat.zero_le _⟩
  updateQer : Ies 4 QerIe := ⟨[], Nat.zero_le _⟩
  updateBar : Bool := false
  createMar : Bool := false
  updateMar : Bool := false
  removeMar : Bool := false
  createSrr : Bool := false
  updateSrr : Bool := false
  removeSrr : Bool := false
  deriving DecidableEq

/-- A PDR of an answer, with the octets of its F-TEID. -/
structure CreatedPdr where
  pdrId : UInt32
  localFTeid : List UInt8
  deriving DecidableEq

/-- What the answers say. -/
structure N4Answer where
  seid : UInt64
  cause : UInt8
  offendingIe : UInt8 := 0
  createdPdr : List CreatedPdr := []
  deriving DecidableEq

/-! ## Surroundings and state -/

/-- What the handlers take from their surroundings. `pad` is what the stack holds behind a
key, `pkbuf` and `calloc` say whether there is memory. -/
structure N4Env extends RuleEnv, TunnelEnv where
  cfg : N4Config
  peers : GtpuPeerEnv
  quic : Bool
  pad : Vector UInt8 4
  pkbuf : Bool := true
  calloc : IpVersion → Bool := fun _ => true

/-- The sessions, and by the slot of a session its routes, its rules and its DNN. -/
structure UpfState where
  n4 : N4Context
  routes : FramedRoutes Nat := {}
  pfcp : PfcpContext
  rules : Nat → PfcpSess := fun _ => {}
  apnDnn : Nat → Option (List UInt8) := fun _ => none
  gtpuPeers : List (OgsIp × GtpNode) := []
  record : PfcpRecord := {}

abbrev N4Procedure := Procedure Refusal UpfState

namespace UpfState

/-- What the handlers of rules work on for a session. -/
def pfcpState (st : UpfState) (sess : Nat) : PfcpState where
  ctx := st.pfcp
  sess := st.rules sess
  gtpuPeers := st.gtpuPeers
  record := st.record

def setPfcpState (sess : Nat) (pfcp : PfcpState) (st : UpfState) : UpfState :=
  { st with
    pfcp := pfcp.ctx
    rules := update st.rules sess pfcp.sess
    gtpuPeers := pfcp.gtpuPeers
    record := pfcp.record }

end UpfState

/-- A handler of rules for a session. -/
def N4Procedure.onRules {α : Type} (sess : Nat) (x : Handler α) : N4Procedure α :=
  .zoom (fun st => st.pfcpState sess) (UpfState.setPfcpState sess) x

/-! ## Parts of both requests -/

/-- A handler for each element. -/
def handleEach {α β : Type} (handle : α → Handler β) : List α → Handler (List β)
  | [] => return []
  | ie :: ies => do
    let result ← handle ie
    return result :: (← handleEach handle ies)

def istm : UInt8 := 8

/-- `upf_n4_handle_create_urr` for an element. The timers of a URR are kept by its ID. -/
def upfN4HandleCreateUrr (ie : UrrIe) : Handler Nat := do
  let slot ← handleCreateUrr ie
  let st ← .get
  .assert (bit (st.rule .urr slot).measInfo istm → validUrrId (st.id .urr slot))
  return slot

/-- The loop that sets up the peers of a session. Its failure does not set a cause. -/
def setupNodes (env : N4Env) : Handler Unit := do
  if env.quic then return ()
  else if ← setupGtpuNodes env.peers ((← .get).list .far) then return ()
  else .refuse ⟨causeRequestAccepted, 0⟩

/-- The PDRs of a session for downlink, which the loops over the list of PDRs look for. -/
def downlinkPdrs (st : PfcpState) : List Nat :=
  (st.list .pdr).filter fun slot => (st.rule .pdr slot).srcIf = ogsPfcpInterfaceCore

/-- The loop that sends the packets which the FARs of PDRs for downlink keep. -/
def sendBuffered : Handler Unit :=
  .modify fun st => (downlinkPdrs st).foldl PfcpState.sendBufferedGtpu st

/-- The PDRs of an answer, those with an F-TEID. -/
def createdPdrs (st : PfcpState) (created : List Nat) : List CreatedPdr :=
  created.filterMap fun slot =>
    let pdr := st.rule .pdr slot
    if pdr.fTeidLen = 0 then none
    else some { pdrId := st.id .pdr slot, localFTeid := pdr.fTeid.octets.take pdr.fTeidLen }

/-- PDRs that a request has created are used. -/
def useCreated (created : List Nat) : Handler Unit :=
  .modify fun st => created.foldl (fun st slot => st.use .pdr slot) st

/-- The F-TEID of a PDR enters the table of TEIDs. -/
def enterTeid (env : N4Env) (sess slot : Nat) : Handler Unit := do
  useCreated [slot]
  if ((← .get).rule .pdr slot).fTeidLen = 0 then return ()
  else objectTeidHashSet env.toTunnelEnv (.sess sess) slot

/-- The end of both requests: buffered packets are sent and the answer is built. It shows
the PDRs that are created if the UPF chooses F-TEIDs. -/
def finish (env : N4Env) (created : List Nat) (showCreated : Bool) : Handler (List CreatedPdr) := do
  sendBuffered
  if env.ftup && showCreated then
    useCreated created
    return createdPdrs (← .get) created
  else return []

/-! ## Establishment -/

/-- The handlers of the rules of an establishment up to the DNN, as the PDRs created. -/
def establishRules (env : N4Env) (restoration : Bool) (req : SessionEstablishmentRequest) :
    Handler (List Nat) := do
  let created ← handleEach (handleCreatePdr env.toRuleEnv restoration) req.createPdr.val
  let _ ← handleEach handleCreateFar req.createFar.val
  let _ ← handleEach upfN4HandleCreateUrr req.createUrr.val
  return created

/-- The handlers of the rules of an establishment from the DNN on. -/
def establishQers (req : SessionEstablishmentRequest) : Handler Unit := do
  let _ ← handleEach handleCreateQer req.createQer.val
  .whenSome req.createBar handleCreateBar

/-- The DNN of a request. -/
def setApnDnn (sess : Nat) (data : Option (List UInt8)) : N4Procedure Unit := do
  match data with
  | none => return ()
  | some data =>
    let dnn ← .lift (networkInstanceName data)
    let dnn ← .require dnn ⟨causeMandatoryIeIncorrect, 0⟩
    .modify fun st => { st with apnDnn := update st.apnDnn sess (some dnn) }

/-- A TEID that is restored takes the place of that of the PDR. -/
def restoreTeid (slot : Nat) : Handler Unit := do
  let pdr := (← .get).rule .pdr slot
  if 0 < pdr.fTeidLen ∧ pdr.fTeid.ch = false then swapTeid slot

/-- The loop over the PDRs of a request that restores a session. -/
def restoreTeids (restoration : Bool) (created : List Nat) : Handler Unit :=
  if restoration then created.forM restoreTeid else return ()

/-- The octets of a string in C as characters. -/
def charsOf (octets : List UInt8) : List Char := octets.map fun octet => Char.ofNat octet.toNat

/-- What a PDR says about the addresses of the UE. -/
def ueIpCall (env : N4Env) (sessionType : UInt8) (pdr : PfcpPdr) : UeIpCall where
  sessionType
  ueIp :=
    { ipv6 := bit (pdr.ueIpAddr.headD 0) 1
      ipv4 := bit (pdr.ueIpAddr.headD 0) 2
      address := Vector.ofFn fun i => pdr.ueIpAddr.getD (1 + i) 0 }
  dnn := pdr.dnn.map charsOf
  calloc := env.calloc

/-- The addresses of the UE as a PDR says them. -/
def setUeIp (env : N4Env) (sess : Nat) (pdnType : Option UInt8) (pdr : PfcpPdr) :
    N4Procedure Unit := do
  match pdnType with
  | none => return ()
  | some pdnType =>
    if pdr.ueIpAddr = [] then return ()
    else
      let (cause, n4) ← .lift ((← .get).n4.upfSessSetUeIp env.cfg sess (ueIpCall env pdnType pdr))
      .modify fun st => { st with n4 }
      if cause ≠ causeRequestAccepted then .refuse ⟨cause, 0⟩

/-- The framed routes of a session as a PDR says them. -/
def pdrFramedRoutes (sess : Nat) (pdr : PfcpPdr) (routes : FramedRoutes Nat) : FramedRoutes Nat :=
  let routes := match pdr.ipv4FramedRoutes with
    | none => routes
    | some strings => upfSessSetUeIpv4FramedRoutes sess (strings.map charsOf) routes
  match pdr.ipv6FramedRoutes with
  | none => routes
  | some strings => upfSessSetUeIpv6FramedRoutes sess (strings.map charsOf) routes

/-- What a PDR that is created says of its session. -/
def setUpCreated (env : N4Env) (sess : Nat) (pdnType : Option UInt8) (slot : Nat) :
    N4Procedure Unit := do
  let pdr := ((← .get).pfcpState sess).rule .pdr slot
  setUeIp env sess pdnType pdr
  .modify fun st => { st with routes := pdrFramedRoutes sess pdr st.routes }
  .onRules sess (enterTeid env sess slot)

def restorationIndication : UInt8 := 1

/-- Whether a request restores a session. -/
def SessionEstablishmentRequest.restores (req : SessionEstablishmentRequest) : Bool :=
  bit (req.pfcpsereqFlags.getD 0) restorationIndication

/-- The rules and the DNN of an establishment, as the PDRs created. -/
def establishAll (env : N4Env) (sess : Nat) (req : SessionEstablishmentRequest) :
    N4Procedure (List Nat) := do
  let created ← .onRules sess (establishRules env req.restores req)
  setApnDnn sess req.apnDnn
  .onRules sess (establishQers req)
  return created

/-- All of an establishment that may be refused. -/
def prepareEstablishment (env : N4Env) (sess : Nat) (req : SessionEstablishmentRequest) :
    N4Procedure (List Nat) := do
  let created ← establishAll env sess req
  .onRules sess (setupNodes env)
  .onRules sess (restoreTeids req.restores created)
  created.forM (setUpCreated env sess req.pdnType)
  return created

/-- An establishment up to its answer. -/
def establish (env : N4Env) (sess : Nat) (req : SessionEstablishmentRequest) :
    N4Procedure (List CreatedPdr) := do
  let created ← prepareEstablishment env sess req
  .onRules sess (finish env created !req.restores)

/-! ## Modification -/

/-- The loop that sends end markers to the peers that a session leaves. -/
def sendEndMarkers (env : N4Env) : Handler Unit := do
  let st ← .get
  (downlinkPdrs st).forM fun slot => do
    let st ← .get
    match (st.rule .pdr slot).far with
    | none => return ()
    | some far =>
      .modify fun st => st.use .far far
      if bit (st.rule .far far).smreqFlags sendEndMarkerPackets then sendEndMarker env.pkbuf slot

/-- The loop that clears the flags of a request. -/
def clearSmreqFlags : Handler Unit := do
  ((← .get).list .far).forM fun slot =>
    modifyRule .far slot fun far => { far with smreqFlags := 0 }

/-- The PDRs of a modification, as those created. -/
def modifyPdrs (env : N4Env) (req : SessionModificationRequest) : Handler (List Nat) := do
  let created ← handleEach (handleCreatePdr env.toRuleEnv false) req.createPdr.val
  let _ ← handleEach (handleUpdatePdr env.toRuleEnv) req.updatePdr.val
  let _ ← handleEach handleRemovePdr req.removePdr.val
  return created

/-- The FARs of a modification. -/
def modifyFars (env : N4Env) (req : SessionModificationRequest) : Handler Unit := do
  let _ ← handleEach handleCreateFar req.createFar.val
  let _ ← handleEach handleUpdateFarFlags req.updateFar.val
  sendEndMarkers env
  clearSmreqFlags
  let _ ← handleEach handleUpdateFar req.updateFar.val
  let _ ← handleEach handleRemoveFar req.removeFar.val

/-- The URRs of a modification. -/
def modifyUrrs (req : SessionModificationRequest) : Handler Unit := do
  let _ ← handleEach upfN4HandleCreateUrr req.createUrr.val
  let _ ← handleEach handleUpdateUrr req.updateUrr.val
  let _ ← handleEach handleRemoveUrr req.removeUrr.val

/-- The QERs and the BAR of a modification. -/
def modifyQers (req : SessionModificationRequest) : Handler Unit := do
  let _ ← handleEach handleCreateQer req.createQer.val
  let _ ← handleEach handleUpdateQer req.updateQer.val
  let _ ← handleEach handleRemoveQer req.removeQer.val
  .whenSome req.createBar handleCreateBar
  .whenSome req.removeBar handleRemoveBar

/-- The handlers of the rules of a modification, as the PDRs created. -/
def modifyRules (env : N4Env) (req : SessionModificationRequest) : Handler (List Nat) := do
  let created ← modifyPdrs env req
  modifyFars env req
  modifyUrrs req
  modifyQers req
  return created

/-- All of a modification that may be refused. -/
def prepareModification (env : N4Env) (sess : Nat) (req : SessionModificationRequest) :
    Handler (List Nat) := do
  let created ← modifyRules env req
  setupNodes env
  created.forM (enterTeid env sess)
  return created

/-- A modification up to its answer. -/
def modifySession (env : N4Env) (sess : Nat) (req : SessionModificationRequest) :
    Handler (List CreatedPdr) := do
  let created ← prepareModification env sess req
  finish env created true

/-! ## Answers -/

/-- The exit that a request is refused through, at the session that it is for. -/
def refuseRequest (seid : UInt64) (refusal : Refusal) (st : PfcpState) :
    Except Fault (N4Answer × PfcpState) := do
  let (_, st) ← sessClear st
  return ({ seid, cause := refusal.cause, offendingIe := refusal.offendingIe }, st)

/-- `upf_n4_handle_session_modification_request` for a session. -/
def handleModification (env : N4Env) (seid : UInt64) (sess : Nat) (req : SessionModificationRequest)
    (st : PfcpState) : Except Fault (N4Answer × PfcpState) := do
  match ← modifySession env sess req st with
  | (.ok createdPdr, st) => return ({ seid, cause := causeRequestAccepted, createdPdr }, st)
  | (.error refusal, st) => refuseRequest seid refusal st

/-- `upf_n4_handle_session_modification_request`, with the session that the header of the
message leads to. -/
def upfN4HandleSessionModificationRequest (env : N4Env) (sess : Option Nat)
    (req : SessionModificationRequest) (st : UpfState) : Except Fault (N4Answer × UpfState) := do
  match sess with
  | none => return ({ seid := 0, cause := causeSessionContextNotFound }, st)
  | some sess =>
    let seid := (st.n4.sess sess).seid
    let (answer, pfcp) ← handleModification env seid sess req (st.pfcpState sess)
    return (answer, st.setPfcpState sess pfcp)

/-- `upf_n4_handle_session_establishment_request` -/
def upfN4HandleSessionEstablishmentRequest (env : N4Env) (sess : Option Nat)
    (req : SessionEstablishmentRequest) (st : UpfState) : Except Fault (N4Answer × UpfState) := do
  match sess with
  | none => return ({ seid := 0, cause := causeMandatoryIeMissing }, st)
  | some sess =>
    let seid := (st.n4.sess sess).seid
    match ← establish env sess req st with
    | (.ok createdPdr, st) => return ({ seid, cause := causeRequestAccepted, createdPdr }, st)
    | (.error refusal, st) =>
      let (answer, pfcp) ← refuseRequest seid refusal (st.pfcpState sess)
      return (answer, st.setPfcpState sess pfcp)

/-- `upf_sess_add_by_message`. A new session has no rules, routes and DNN. -/
def UpfState.addByMessage (env : N4Env) (fSeid : Option FSeid) (st : UpfState) :
    Except Fault (Option Nat × UpfState) := do
  match fSeid with
  | none => return (none, st)
  | some fSeid =>
    if fSeid.ipv4 = false ∧ fSeid.ipv6 = false then return (none, st)
    else
      match ← st.n4.findBySmfN4FSeid env.pad fSeid with
      | some sess => return (some sess, st)
      | none =>
        match ← st.n4.upfSessAdd env.cfg fSeid with
        | (none, n4) => return (none, { st with n4 })
        | (some sess, n4) =>
          return (some sess,
            { st with
              n4
              routes.ipv4FramedRoutes := update st.routes.ipv4FramedRoutes sess none
              routes.ipv6FramedRoutes := update st.routes.ipv6FramedRoutes sess none
              rules := update st.rules sess {}
              apnDnn := update st.apnDnn sess none })

/-- The establishment of a session as `upf_pfcp_state_associated` handles it. -/
def handleEstablishment (env : N4Env) (req : SessionEstablishmentRequest) (st : UpfState) :
    Except Fault (N4Answer × UpfState) := do
  let (sess, st) ← st.addByMessage env req.cpFSeid
  upfN4HandleSessionEstablishmentRequest env sess req st

/-! ## A small UPF -/

/-- A UPF for one session that chooses F-TEIDs, whose peers can all be reached. -/
def smallUpf : N4Env where
  compileRule _ := .ok none
  stack := Vector.replicate 25 0
  ftup := true
  gtpuAddr := some (Vector.replicate 4 10)
  gtpuAddr6 := none
  cfg :=
    { size := 1
      seid _ := 1
      distinct i hi j hj _ := by omega
      slotAddr _ _ := Vector.replicate 4 0 }
  peers := ⟨fun _ => true, fun _ => true⟩
  quic := false
  pad := Vector.replicate 4 0

/-- No session. -/
def freshUpf : UpfState where
  n4 := .init smallUpf.cfg [] fun _ => 0
  pfcp := .init 1 ((List.range 16).map fun i => .ofNat (i + 1)) 0

/-- A session without rules. -/
def freshSession : PfcpState := freshUpf.pfcpState 0

end Quicup.Open5gs
