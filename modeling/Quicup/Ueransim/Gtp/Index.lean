import Quicup.Ueransim.Gtp.Reception
import Quicup.Ueransim.Gtp.Sessions

/-!
# The downlink index of the gNB

The NGAP task numbers the downlink tunnels it sets up. A session that is set up
again under the same UE and PDU session identifier takes the place of the one
before in the session table, while the tree of downlink TEIDs keeps the entry of
the replaced tunnel. Exactly the runs without such a repetition keep the tree and
the table in agreement.
-/

namespace Quicup.Ueransim

/-- The GTP task and the downlink TEIDs the NGAP task has given out. -/
structure Numbered (ρ : Type) where
  task : GtpTask ρ
  issued : List UInt32 := []

namespace Numbered

variable {ρ : Type} (limiter : IRateLimiter ρ) (transportMode : TransportMode)

/-- One turn of the loop of the GTP task. A session comes with a TEID not given out
before, even when the task then refuses it. -/
inductive Step : Numbered ρ → GtpEvent → Numbered ρ → Prop
  | sessionCreate {task issued session} :
      session.ueId ≠ 0 → 0 ≤ session.psi → session.downTunnel.teid ∉ issued →
      Step ⟨task, issued⟩ (.sessionCreate session)
        ⟨task.handleSessionCreate limiter session, session.downTunnel.teid :: issued⟩
  | other {task issued e t} : (∀ session, e ≠ .sessionCreate session) →
      GtpTask.Step limiter transportMode task e t →
      Step ⟨task, issued⟩ e ⟨t, issued⟩

def system : System (Numbered ρ) GtpEvent where
  init s := (GtpTask.system limiter transportMode).init s.task ∧ s.issued = []
  step := Step limiter transportMode

/-- A TEID finds exactly the session of the table that has it. -/
def Agrees (s : Numbered ρ) : Prop :=
  ∀ teid ind, ind ≠ 0 → (s.task.sessionTree.findByDownTeid teid = ind ↔
    ∃ session, s.task.pduSessions.lookup ind = some session ∧ session.downTunnel.teid = teid)

/-- A session that the task accepts is not in the table already. -/
def NoRepeat (s : Numbered ρ) : GtpEvent → Prop
  | .sessionCreate session => s.task.ueContexts.lookup session.ueId ≠ none →
      s.task.pduSessions.lookup (makeSessionResInd session.ueId session.psi) = none
  | _ => True

/-- The sessions are found by their TEIDs, every entry of the tree belongs to a
session that is held, and the TEIDs of the tree were given out. -/
structure Matched (s : Numbered ρ) : Prop where
  indexed : s.task.Indexed
  owned : ∀ teid ind, s.task.sessionTree.mapByDownTeid.lookup teid = some ind →
    ∃ session, s.task.pduSessions.lookup ind = some session ∧ session.downTunnel.teid = teid
  issued : ∀ teid ind, s.task.sessionTree.mapByDownTeid.lookup teid = some ind → teid ∈ s.issued

variable {limiter transportMode} {s t : Numbered ρ} {session : PduSessionResource} {e : GtpEvent}
  {task : GtpTask ρ}

/-- The session of an index has an entry under its TEID. -/
theorem Matched.entry (h : s.Matched) {ind : UInt64}
    (hsession : s.task.pduSessions.lookup ind = some session) :
    s.task.sessionTree.mapByDownTeid.lookup session.downTunnel.teid = some ind := by
  have hfound := h.indexed.found ind session hsession
  obtain ⟨hkey, hue, hpsi⟩ := h.indexed.keyed ind session hsession
  have hind : ind ≠ 0 := hkey ▸ makeSessionResInd_ne_zero hue hpsi
  rw [PduSessionTree.findByDownTeid] at hfound
  cases hentry : s.task.sessionTree.mapByDownTeid.lookup session.downTunnel.teid with
  | none =>
    rw [hentry] at hfound
    exact absurd hfound.symm hind
  | some other =>
    rw [hentry] at hfound
    exact congrArg some hfound

theorem Matched.agrees (h : s.Matched) : s.Agrees := by
  intro teid ind hind
  constructor
  · intro hfound
    rw [PduSessionTree.findByDownTeid] at hfound
    cases hentry : s.task.sessionTree.mapByDownTeid.lookup teid with
    | none =>
      rw [hentry] at hfound
      exact absurd hfound.symm hind
    | some other =>
      rw [hentry] at hfound
      cases hfound
      exact h.owned teid _ hentry
  · rintro ⟨session, hsession, rfl⟩
    exact h.indexed.found ind session hsession

/-! ## Steps -/

/-- A TEID not given out is that of no session. -/
theorem Matched.assigned (h : s.Matched) (hue : session.ueId ≠ 0) (hpsi : 0 ≤ session.psi)
    (hfresh : session.downTunnel.teid ∉ s.issued) :
    GtpTask.Assigned s.task (.sessionCreate session) :=
  ⟨hue, hpsi, fun ind _ hother hsame =>
    absurd (h.issued _ ind (hsame ▸ h.entry hother)) hfresh⟩

theorem Matched.ofSame (h : s.Matched) (hsame : GtpTask.SameSessions s.task task) :
    Matched ⟨task, s.issued⟩ := by
  obtain ⟨hsessions, htree⟩ := id hsame
  exact ⟨h.indexed.ofSame hsame, hsessions ▸ htree ▸ h.owned, htree ▸ h.issued⟩

/-- An accepted session is put into the table and into the tree. -/
theorem sessionCreate_tables (limiter : IRateLimiter ρ) (task : GtpTask ρ)
    (hue : task.ueContexts.lookup session.ueId ≠ none) :
    let ind := makeSessionResInd session.ueId session.psi
    (task.handleSessionCreate limiter session).pduSessions =
        task.pduSessions.insert ind session ∧
      (task.handleSessionCreate limiter session).sessionTree =
        task.sessionTree.insert ind session.downTunnel.teid := by
  intro ind
  rw [GtpTask.handleSessionCreate, if_neg hue]
  obtain ⟨hsessions, htree⟩ := GtpTask.updateAmbrForSession_same limiter _ ind
  rw [hsessions, htree]
  exact GtpTask.updateAmbrForUe_same ..

/-- A release leaves the sessions alone, or takes a session out of both containers. -/
theorem sessionRelease_tables (limiter : IRateLimiter ρ) (task : GtpTask ρ) (ueId psi : Int32) :
    let ind := makeSessionResInd ueId psi
    let t := task.handleSessionRelease limiter ueId psi
    GtpTask.SameSessions task t ∨ ∃ session, task.pduSessions.lookup ind = some session ∧
      t.pduSessions = task.pduSessions.erase ind ∧
      t.sessionTree = task.sessionTree.remove ind session.downTunnel.teid := by
  intro ind t
  simp only [t, GtpTask.handleSessionRelease]
  split
  · exact .inl ⟨rfl, rfl⟩
  split
  · exact .inl ⟨rfl, rfl⟩
  · rename_i session hsession
    exact .inr ⟨session, hsession, rfl, rfl⟩

theorem Matched.sessionRelease (h : s.Matched) (ueId psi : Int32) :
    Matched ⟨s.task.handleSessionRelease limiter ueId psi, s.issued⟩ := by
  have hindexed : (s.task.handleSessionRelease limiter ueId psi).Indexed :=
    h.indexed.sessionRelease ueId psi
  obtain hsame | ⟨session, hsession, hsessions, htree⟩ :=
    sessionRelease_tables limiter s.task ueId psi
  · exact h.ofSame hsame
  have hkept (teid : UInt32) (ind : UInt64)
      (hentry : (s.task.sessionTree.mapByDownTeid.erase session.downTunnel.teid).lookup teid =
        some ind) :
      teid ≠ session.downTunnel.teid ∧ s.task.sessionTree.mapByDownTeid.lookup teid = some ind := by
    by_cases hteid : teid = session.downTunnel.teid
    · rw [hteid, AList.lookup_erase] at hentry
      cases hentry
    · exact ⟨hteid, by rwa [AList.lookup_erase_ne hteid] at hentry⟩
  refine ⟨hindexed, fun teid ind hentry => ?_, fun teid ind hentry => ?_⟩
  all_goals
    simp only [htree, PduSessionTree.remove] at hentry
    obtain ⟨hteid, hentry⟩ := hkept teid ind hentry
  · obtain ⟨other, hother, hsame⟩ := h.owned teid ind hentry
    have hind : ind ≠ makeSessionResInd ueId psi := fun heq => hteid (by
      rw [heq, hsession] at hother
      rw [← hsame, ← Option.some.inj hother])
    exact ⟨other, by rwa [hsessions, AList.lookup_erase_ne hind], hsame⟩
  · exact h.issued teid ind hentry

/-- The tree keeps up with the table when no session is replaced. -/
theorem Matched.sessionCreate (h : s.Matched) (hue : session.ueId ≠ 0) (hpsi : 0 ≤ session.psi)
    (hfresh : session.downTunnel.teid ∉ s.issued) (hnew : NoRepeat s (.sessionCreate session)) :
    Matched ⟨s.task.handleSessionCreate limiter session, session.downTunnel.teid :: s.issued⟩ := by
  have hindexed : (s.task.handleSessionCreate limiter session).Indexed :=
    h.indexed.sessionCreate (h.assigned hue hpsi hfresh)
  by_cases hknown : s.task.ueContexts.lookup session.ueId = none
  · have hsame : GtpTask.SameSessions s.task (s.task.handleSessionCreate limiter session) := by
      rw [GtpTask.handleSessionCreate, if_pos hknown]
      exact ⟨rfl, rfl⟩
    have hs := h.ofSame hsame
    exact ⟨hindexed, hs.owned, fun teid ind hentry =>
      List.mem_cons_of_mem _ (hs.issued teid ind hentry)⟩
  obtain ⟨hsessions, htree⟩ := sessionCreate_tables limiter s.task hknown
  refine ⟨hindexed, fun teid ind hentry => ?_, fun teid ind hentry => ?_⟩
  all_goals
    simp only [htree, PduSessionTree.insert] at hentry
    by_cases hteid : teid = session.downTunnel.teid
  · rw [hteid, AList.lookup_insert] at hentry
    rw [hsessions, ← Option.some.inj hentry]
    exact ⟨session, AList.lookup_insert _, hteid.symm⟩
  · rw [AList.lookup_insert_ne hteid] at hentry
    obtain ⟨other, hother, hsame⟩ := h.owned teid ind hentry
    have hind : ind ≠ makeSessionResInd session.ueId session.psi := fun heq => by
      rw [heq, hnew hknown] at hother
      cases hother
    exact ⟨other, by rwa [hsessions, AList.lookup_insert_ne hind], hsame⟩
  · exact hteid ▸ List.mem_cons_self
  · rw [AList.lookup_insert_ne hteid] at hentry
    exact List.mem_cons_of_mem _ (h.issued teid ind hentry)

theorem Matched.other (h : s.Matched) (hother : ∀ session, e ≠ .sessionCreate session)
    (hstep : GtpTask.Step limiter transportMode s.task e task) : Matched ⟨task, s.issued⟩ := by
  cases hstep with
  | ueContextUpdate => exact h.ofSame (GtpTask.updateAmbrForUe_same ..)
  | ueContextRelease hrun =>
    rw [GtpTask.handleUeContextDelete,
      PduSessionTree.enumerateByUe_of_empty _ h.indexed.byUe] at hrun
    cases hrun
    exact h.ofSame ⟨rfl, rfl⟩
  | sessionCreate => exact absurd rfl (hother _)
  | sessionRelease => exact h.sessionRelease _ _
  | uplinkData hrun => exact h.ofSame (GtpTask.handleUplinkData_keeps _ _ _ _ _ hrun)
  | quicReceive hrun => exact h.ofSame (GtpTask.handleQuicReceive_keeps _ _ _ hrun)
  | udpReceive hrun => exact h.ofSame (GtpTask.handleUdpReceive_keeps _ _ _ _ hrun)

theorem Matched.step (h : s.Matched) (hnew : NoRepeat s e)
    (hstep : Step limiter transportMode s e t) : t.Matched := by
  cases hstep with
  | sessionCreate hue hpsi hfresh => exact h.sessionCreate hue hpsi hfresh hnew
  | other hother hstep => exact h.other hother hstep

theorem Matched.init (hinit : (system limiter transportMode).init s) : s.Matched := by
  obtain ⟨htask, -⟩ := hinit
  have hnone (teid : UInt32) (ind : UInt64) :
      s.task.sessionTree.mapByDownTeid.lookup teid ≠ some ind := by
    rw [htask.2.2]
    exact nofun
  exact ⟨.init htask, fun teid ind hentry => absurd hentry (hnone teid ind),
    fun teid ind hentry => absurd hentry (hnone teid ind)⟩

/-- The TEID of a replaced session still finds its index, where the table holds the
session with the new one. -/
theorem Matched.repeat_disagrees (h : s.Matched) {other : PduSessionResource}
    (hfresh : session.downTunnel.teid ∉ s.issued)
    (hknown : s.task.ueContexts.lookup session.ueId ≠ none)
    (hheld : s.task.pduSessions.lookup (makeSessionResInd session.ueId session.psi) = some other) :
    ¬ Agrees ⟨s.task.handleSessionCreate limiter session, session.downTunnel.teid :: s.issued⟩ := by
  intro hagrees
  obtain ⟨hsessions, htree⟩ := sessionCreate_tables limiter s.task hknown
  have hentry := h.entry hheld
  have hteid : other.downTunnel.teid ≠ session.downTunnel.teid := fun hsame =>
    hfresh (hsame ▸ h.issued _ _ hentry)
  obtain ⟨hkey, hue, hpsi⟩ := h.indexed.keyed _ _ hheld
  have hind : makeSessionResInd session.ueId session.psi ≠ 0 := by
    rw [hkey]
    exact makeSessionResInd_ne_zero hue hpsi
  obtain ⟨replaced, hreplaced, hsame⟩ := (hagrees other.downTunnel.teid _ hind).mp (by
    rw [htree, PduSessionTree.findByDownTeid_insert_ne _ _ hteid]
    exact h.indexed.found _ _ hheld)
  rw [hsessions, AList.lookup_insert] at hreplaced
  rw [← Option.some.inj hreplaced] at hsame
  exact hteid hsame.symm

theorem Matched.noRepeat (h : s.Matched) (hstep : Step limiter transportMode s e t)
    (hagrees : t.Agrees) : NoRepeat s e := by
  cases hstep with
  | sessionCreate hue hpsi hfresh =>
    rename_i session
    intro hknown
    by_contra hheld
    obtain ⟨other, hother⟩ := Option.ne_none_iff_exists'.mp hheld
    exact h.repeat_disagrees hfresh hknown hother hagrees
  | other hother => cases e <;> first | trivial | exact absurd rfl (hother _)

/-- The runs in which the tree and the table agree throughout are those that set no
session up again while it is held. -/
theorem agrees_iff {events : List GtpEvent} :
    (system limiter transportMode).RunWithin Agrees events s ↔
      (system limiter transportMode).Run NoRepeat events s :=
  System.Run.within_iff (fun _ => Matched.init) (fun _ => Matched.agrees)
    (fun _ _ _ => Matched.step) fun _ _ _ => Matched.noRepeat

section Repetition

private def attached : GtpTask Unit :=
  GtpTask.handleUeContextUpdate GtpTask.unlimited { rateLimiter := () } { ueId := 1 }

private def setUp (teid : UInt32) : PduSessionResource where
  ueId := 1
  psi := 1
  downTunnel := { teid }

/-- Session 1 of UE 1 is set up twice. The first TEID still finds the session, whose
TEID is the second one. -/
theorem repeated_setup_disagrees : ¬ ∀ (events : List GtpEvent) (s : Numbered Unit),
    (system GtpTask.unlimited .quic).Run System.unrestricted events s → s.Agrees := by
  intro h
  have hstart : (system GtpTask.unlimited .quic).Run System.unrestricted []
      ⟨{ rateLimiter := () }, []⟩ := .nil ⟨⟨rfl, rfl, rfl⟩, rfl⟩
  have hattach : Step GtpTask.unlimited .quic ⟨{ rateLimiter := () }, []⟩
      (.ueContextUpdate { ueId := 1 }) ⟨attached, []⟩ :=
    .other (fun _ => nofun) .ueContextUpdate
  have hfirst := (hstart.snoc trivial hattach).snoc trivial
    (.sessionCreate (by decide : (setUp 1).ueId ≠ 0) (by decide) (by decide))
  have hsecond := hfirst.snoc trivial
    (.sessionCreate (by decide : (setUp 2).ueId ≠ 0) (by decide) (by decide))
  obtain ⟨session, hsession, hteid⟩ := (h _ _ hsecond 1 4294967297 (by decide)).mp (by decide)
  have hheld : session = setUp 2 := (Option.some.inj hsession).symm
  rw [hheld] at hteid
  exact absurd hteid (by decide)

end Repetition

end Numbered

end Quicup.Ueransim
