import Quicup.Core.System
import Quicup.Ueransim.Gtp.Task

/-!
# The sessions of the gNB

The session table and the tree of downlink TEIDs are kept by different operations.
Over any run in which the NGAP task gives out its TEIDs one at a time, every
session in the table is the one that the tree finds under its downlink TEID.
-/

namespace Quicup.Ueransim

inductive GtpEvent
  | ueContextUpdate (msg : GtpUeContextUpdate)
  | ueContextRelease (ueId : Int32)
  | sessionCreate (session : PduSessionResource)
  | sessionRelease (ueId psi : Int32)
  | uplinkData (ueId psi : Int32) (pdu : OctetString)
  | quicReceive (data : OctetString)
  | udpReceive (packet : OctetString) (fromAddress : InetAddress)

namespace GtpTask

variable {ρ : Type} (limiter : IRateLimiter ρ) (transportMode : TransportMode)

/-- One turn of `onLoop`. -/
inductive Step : GtpTask ρ → GtpEvent → GtpTask ρ → Prop
  | ueContextUpdate {task msg} :
      Step task (.ueContextUpdate msg) (task.handleUeContextUpdate limiter msg)
  | ueContextRelease {task ueId t} : task.handleUeContextDelete limiter ueId = .ok t →
      Step task (.ueContextRelease ueId) t
  | sessionCreate {task session} :
      Step task (.sessionCreate session) (task.handleSessionCreate limiter session)
  | sessionRelease {task ueId psi} :
      Step task (.sessionRelease ueId psi) (task.handleSessionRelease limiter ueId psi)
  | uplinkData {task ueId psi pdu t out} :
      task.handleUplinkData limiter transportMode ueId psi pdu = .ok (t, out) →
      Step task (.uplinkData ueId psi pdu) t
  | quicReceive {task data t out} : task.handleQuicReceive limiter data = .ok (t, out) →
      Step task (.quicReceive data) t
  | udpReceive {task packet fromAddress t out} :
      task.handleUdpReceive limiter packet fromAddress = .ok (t, out) →
      Step task (.udpReceive packet fromAddress) t

/-- The task starts without contexts and sessions. -/
def system : System (GtpTask ρ) GtpEvent where
  init task := task.ueContexts = ∅ ∧ task.pduSessions = ∅ ∧ task.sessionTree = {}
  step := Step limiter transportMode

/-- What the NGAP task sees to: UE and PDU session identifiers are those of contexts
and of ASN.1, and a downlink TEID is not given out while another session has it. -/
def Assigned (task : GtpTask ρ) : GtpEvent → Prop
  | .sessionCreate session => session.ueId ≠ 0 ∧ 0 ≤ session.psi ∧
    ∀ ind other, task.pduSessions.lookup ind = some other →
      other.downTunnel.teid = session.downTunnel.teid →
        ind = makeSessionResInd session.ueId session.psi
  | _ => True

/-- The tree finds every session of the table under its downlink TEID. -/
structure Indexed (task : GtpTask ρ) : Prop where
  found : ∀ ind session, task.pduSessions.lookup ind = some session →
    task.sessionTree.findByDownTeid session.downTunnel.teid = ind
  keyed : ∀ ind session, task.pduSessions.lookup ind = some session →
    ind = makeSessionResInd session.ueId session.psi ∧ session.ueId ≠ 0 ∧ 0 ≤ session.psi
  byUe : task.sessionTree.mapByUeId = ∅

variable {limiter transportMode} {task t : GtpTask ρ}

/-! ## Handlers that leave the sessions alone -/

/-- The sessions and the tree are those of the task before. -/
def SameSessions (task t : GtpTask ρ) : Prop :=
  t.pduSessions = task.pduSessions ∧ t.sessionTree = task.sessionTree

theorem Indexed.ofSame (h : task.Indexed) (hsame : SameSessions task t) : t.Indexed := by
  obtain ⟨hsessions, htree⟩ := hsame
  exact ⟨hsessions ▸ htree ▸ h.found, hsessions ▸ h.keyed, htree ▸ h.byUe⟩

theorem updateAmbrForUe_same (limiter : IRateLimiter ρ) (task : GtpTask ρ) (ueId : Int32) :
    SameSessions task (task.updateAmbrForUe limiter ueId) := by
  rw [updateAmbrForUe]
  split <;> exact ⟨rfl, rfl⟩

theorem updateAmbrForSession_same (limiter : IRateLimiter ρ) (task : GtpTask ρ)
    (sessionInd : UInt64) : SameSessions task (task.updateAmbrForSession limiter sessionInd) := by
  rw [updateAmbrForSession]
  split <;> exact ⟨rfl, rfl⟩

/-- Nothing has happened to the task but one question to the limiter at most. -/
inductive Asked (limiter : IRateLimiter ρ) (task : GtpTask ρ) : GtpTask ρ → Prop
  | nothing : Asked limiter task task
  | downlink (ind size : UInt64) : Asked limiter task
      { task with rateLimiter := (limiter.allowDownlinkPacket ind size task.rateLimiter).2 }
  | uplink (ind size : UInt64) : Asked limiter task
      { task with rateLimiter := (limiter.allowUplinkPacket ind size task.rateLimiter).2 }

theorem Asked.same (h : Asked limiter task t) : SameSessions task t := by
  cases h <;> exact ⟨rfl, rfl⟩

/-- A handler that returns has asked the limiter at most. -/
def Asks (limiter : IRateLimiter ρ) (task : GtpTask ρ)
    (r : Except Fault (GtpTask ρ × Option GtpOutput)) : Prop :=
  ∀ t out, r = .ok (t, out) → Asked limiter task t

theorem Asks.ok {out : Option GtpOutput} (h : Asked limiter task t) :
    Asks limiter task (.ok (t, out)) := by
  rintro _ _ ⟨⟩
  exact h

theorem Asks.error {fault : Fault} : Asks limiter task (.error fault) := nofun

theorem Asks.bind {α : Type} {x : Except Fault α}
    {f : α → Except Fault (GtpTask ρ × Option GtpOutput)} (h : ∀ a, Asks limiter task (f a)) :
    Asks limiter task (x >>= f) := by
  cases x with
  | error => exact .error
  | ok a => exact h a

theorem Asks.ite {c : Prop} [Decidable c]
    {x y : Except Fault (GtpTask ρ × Option GtpOutput)} (hx : Asks limiter task x)
    (hy : Asks limiter task y) : Asks limiter task (if c then x else y) := by
  split
  · exact hx
  · exact hy

theorem handleUplinkData_asks (ueId psi : Int32) (pdu : OctetString) :
    Asks limiter task (task.handleUplinkData limiter transportMode ueId psi pdu) := by
  rw [handleUplinkData.eq_def]
  cases pdu with
  | nil => exact .error
  | cons data0 rest =>
    refine .ite (.ok .nothing) ?_
    dsimp only
    split
    · exact .ok .nothing
    · refine .ite (.ok (.uplink ..)) ?_
      cases transportMode with
      | quic => exact .bind fun ip => .ok (.uplink ..)
      | gtpu =>
        refine .bind fun gtpMsg => .bind fun gtpPdu => ?_
        cases gtpPdu with
        | none => exact .ok (.uplink ..)
        | some gtpPdu => exact .bind fun dest => .bind fun _ => .ok (.uplink ..)

theorem handleQuicReceive_asks (data : OctetString) :
    Asks limiter task (task.handleQuicReceive limiter data) := by
  rw [handleQuicReceive]
  exact .ite (.ok .nothing) (.bind fun _ => .ite (.ok .nothing) (.ok (.downlink ..)))

theorem handleUdpReceive_asks (packet : OctetString) (fromAddress : InetAddress) :
    Asks limiter task (task.handleUdpReceive limiter packet fromAddress) := by
  rw [handleUdpReceive]
  refine .bind fun gtp => ?_
  cases gtp with
  | none => exact .error
  | some gtp =>
    refine .ite (.ite (.ok .nothing) (.ok (.downlink ..))) (.ite (.bind fun gtpPdu => ?_)
      (.ok .nothing))
    cases gtpPdu with
    | none => exact .ok .nothing
    | some gtpPdu => exact .bind fun _ => .ok .nothing

/-- A handler that returns leaves the sessions of the task alone. -/
def Keeps (task : GtpTask ρ) (r : Except Fault (GtpTask ρ × Option GtpOutput)) : Prop :=
  ∀ t out, r = .ok (t, out) → SameSessions task t

theorem Asks.keeps {r : Except Fault (GtpTask ρ × Option GtpOutput)} (h : Asks limiter task r) :
    Keeps task r :=
  fun t out hr => (h t out hr).same

theorem handleUplinkData_keeps (ueId psi : Int32) (pdu : OctetString) :
    Keeps task (task.handleUplinkData limiter transportMode ueId psi pdu) :=
  Asks.keeps (handleUplinkData_asks _ _ _)

theorem handleQuicReceive_keeps (data : OctetString) :
    Keeps task (task.handleQuicReceive limiter data) :=
  Asks.keeps (handleQuicReceive_asks _)

theorem handleUdpReceive_keeps (packet : OctetString) (fromAddress : InetAddress) :
    Keeps task (task.handleUdpReceive limiter packet fromAddress) :=
  Asks.keeps (handleUdpReceive_asks _ _)

/-! ## Handlers of the sessions -/

theorem Indexed.sessionCreate (h : task.Indexed) {session : PduSessionResource}
    (hassigned : Assigned task (.sessionCreate session)) :
    (task.handleSessionCreate limiter session).Indexed := by
  obtain ⟨hue, hpsi, hfresh⟩ := hassigned
  rw [handleSessionCreate]
  split
  · exact h
  let ind := makeSessionResInd session.ueId session.psi
  let t := { task with
    pduSessions := task.pduSessions.insert ind session
    sessionTree := task.sessionTree.insert ind session.downTunnel.teid }
  suffices ht : t.Indexed from
    (ht.ofSame (updateAmbrForUe_same ..)).ofSame (updateAmbrForSession_same ..)
  refine ⟨fun i s hs => ?_, fun i s hs => ?_, h.byUe⟩
  · by_cases hi : i = ind
    · rw [hi, AList.lookup_insert] at hs
      rw [hi, ← Option.some.inj hs]
      exact PduSessionTree.findByDownTeid_insert ..
    · rw [AList.lookup_insert_ne hi] at hs
      have hteid : s.downTunnel.teid ≠ session.downTunnel.teid := fun hsame =>
        hi (hfresh i s hs hsame)
      rw [PduSessionTree.findByDownTeid_insert_ne _ _ hteid]
      exact h.found i s hs
  · by_cases hi : i = ind
    · rw [hi, AList.lookup_insert] at hs
      rw [hi, ← Option.some.inj hs]
      exact ⟨rfl, hue, hpsi⟩
    · rw [AList.lookup_insert_ne hi] at hs
      exact h.keyed i s hs

theorem Indexed.sessionRelease (h : task.Indexed) (ueId psi : Int32) :
    (task.handleSessionRelease limiter ueId psi).Indexed := by
  rw [handleSessionRelease]
  split
  · exact h
  dsimp only
  split
  · exact h.ofSame ⟨rfl, rfl⟩
  rename_i session hsession
  refine ⟨fun i s hs => ?_, fun i s hs => ?_, PduSessionTree.mapByUeId_remove _ _ h.byUe⟩
  all_goals
    have hi : i ≠ makeSessionResInd ueId psi := fun hsame => by
      rw [hsame, AList.lookup_erase] at hs
      exact nomatch hs
    rw [AList.lookup_erase_ne hi] at hs
  · -- two sessions of one TEID would be found under one index
    have hteid : s.downTunnel.teid ≠ session.downTunnel.teid := fun hsame => hi (by
      rw [← h.found i s hs, hsame, h.found _ session hsession])
    rw [PduSessionTree.findByDownTeid_remove_ne _ _ hteid]
    exact h.found i s hs
  · exact h.keyed i s hs

/-- The tree has no sessions by UE, so none goes with its context. -/
theorem Indexed.ueContextRelease (h : task.Indexed) {ueId : Int32}
    (hrun : task.handleUeContextDelete limiter ueId = .ok t) : t.Indexed := by
  rw [handleUeContextDelete, PduSessionTree.enumerateByUe_of_empty _ h.byUe] at hrun
  cases hrun
  exact h.ofSame ⟨rfl, rfl⟩

theorem Indexed.step {e : GtpEvent} (h : task.Indexed) (hassigned : Assigned task e)
    (hstep : Step limiter transportMode task e t) : t.Indexed := by
  cases hstep with
  | ueContextUpdate => exact h.ofSame (updateAmbrForUe_same ..)
  | ueContextRelease hrun => exact h.ueContextRelease hrun
  | sessionCreate => exact h.sessionCreate hassigned
  | sessionRelease => exact h.sessionRelease _ _
  | uplinkData hrun => exact h.ofSame (handleUplinkData_keeps _ _ _ _ _ hrun)
  | quicReceive hrun => exact h.ofSame (handleQuicReceive_keeps _ _ _ hrun)
  | udpReceive hrun => exact h.ofSame (handleUdpReceive_keeps _ _ _ _ hrun)

theorem Indexed.init (hinit : (system limiter transportMode).init task) : task.Indexed := by
  obtain ⟨-, hsessions, htree⟩ := hinit
  have hnone (ind : UInt64) (session : PduSessionResource) :
      task.pduSessions.lookup ind ≠ some session := by
    rw [hsessions]
    exact nofun
  exact ⟨fun ind session hs => absurd hs (hnone ind session),
    fun ind session hs => absurd hs (hnone ind session), htree ▸ rfl⟩

theorem indexed {events : List GtpEvent}
    (h : (system limiter transportMode).Run Assigned events task) : task.Indexed :=
  h.invariant (fun _ => Indexed.init) fun _ _ _ => Indexed.step

end GtpTask

end Quicup.Ueransim
