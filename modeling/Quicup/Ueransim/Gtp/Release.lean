import Quicup.Ueransim.Gtp.RateLimiter

/-!
# Release of a UE context

The handler takes the sessions of the UE from the tree, whose map by UE is never
filled. It therefore takes out the context and the buckets of the UE and nothing
else, and a release leaves no trace of its UE exactly when nothing of the UE's
sessions was there.
-/

namespace Quicup.Ueransim.GtpTask

variable {τ : Type} (clock : Tokens τ) (transportMode : TransportMode)

/-- The task with its rate limiter, under what the NGAP task sees to. -/
def limitedSystem : System (GtpTask (RateLimiter τ)) GtpEvent where
  init task := (system (RateLimiter.interface clock) transportMode).init task ∧
    task.rateLimiter = {}
  step task e t := Assigned task e ∧ Step (RateLimiter.interface clock) transportMode task e t

/-- Nothing of the sessions of a UE is held. -/
structure Unheld (ueId : Int32) (task : GtpTask (RateLimiter τ)) : Prop where
  sessions : ∀ ind session, task.pduSessions.lookup ind = some session → session.ueId ≠ ueId
  teids : ∀ teid, task.sessionTree.findByDownTeid teid ≠ 0 →
    getUeId (task.sessionTree.findByDownTeid teid) ≠ ueId
  buckets : ∀ ind, getUeId ind = ueId → task.rateLimiter.uplinkBySession.lookup ind = none ∧
    task.rateLimiter.downlinkBySession.lookup ind = none

/-- Nothing of a UE is held. -/
structure NoTrace (ueId : Int32) (task : GtpTask (RateLimiter τ)) : Prop where
  context : task.ueContexts.lookup ueId = none
  buckets : task.rateLimiter.uplinkByUe.lookup ueId = none ∧
    task.rateLimiter.downlinkByUe.lookup ueId = none
  unheld : task.Unheld ueId

/-- The state of all other UEs is that of the task before. -/
structure OthersKept (ueId : Int32) (task t : GtpTask (RateLimiter τ)) : Prop where
  contexts : ∀ other, other ≠ ueId → t.ueContexts.lookup other = task.ueContexts.lookup other
  sessions : ∀ ind, getUeId ind ≠ ueId → t.pduSessions.lookup ind = task.pduSessions.lookup ind
  teids : ∀ teid, getUeId (task.sessionTree.findByDownTeid teid) ≠ ueId →
    t.sessionTree.findByDownTeid teid = task.sessionTree.findByDownTeid teid
  ueBuckets : ∀ other, other ≠ ueId →
    t.rateLimiter.uplinkByUe.lookup other = task.rateLimiter.uplinkByUe.lookup other ∧
      t.rateLimiter.downlinkByUe.lookup other = task.rateLimiter.downlinkByUe.lookup other
  sessionBuckets : ∀ ind, getUeId ind ≠ ueId →
    t.rateLimiter.uplinkBySession.lookup ind = task.rateLimiter.uplinkBySession.lookup ind ∧
      t.rateLimiter.downlinkBySession.lookup ind = task.rateLimiter.downlinkBySession.lookup ind

/-- A release comes to an end, without a trace of its UE and without an effect on others. -/
def ReleasedCleanly (task : GtpTask (RateLimiter τ)) : GtpEvent → Prop
  | .ueContextRelease ueId =>
    ∃ t, task.handleUeContextDelete (RateLimiter.interface clock) ueId = .ok t ∧
      t.NoTrace ueId ∧ OthersKept ueId task t
  | _ => True

/-- A released UE has nothing of its sessions held any more. -/
def UnheldOnRelease (task : GtpTask (RateLimiter τ)) : GtpEvent → Prop
  | .ueContextRelease ueId => task.Unheld ueId
  | _ => True

variable {clock transportMode} {task t : GtpTask (RateLimiter τ)}

/-- The task after the release of a UE whose sessions are not enumerated. -/
def withoutContext (clock : Tokens τ) (task : GtpTask (RateLimiter τ)) (ueId : Int32) :
    GtpTask (RateLimiter τ) :=
  { task with
    ueContexts := task.ueContexts.erase ueId
    rateLimiter := { task.rateLimiter with
      uplinkByUe   := task.rateLimiter.uplinkByUe.updateLimit clock ueId 0
      downlinkByUe := task.rateLimiter.downlinkByUe.updateLimit clock ueId 0 } }

theorem handleUeContextDelete_of_empty (h : task.sessionTree.mapByUeId = ∅) (ueId : Int32) :
    task.handleUeContextDelete (RateLimiter.interface clock) ueId =
      .ok (task.withoutContext clock ueId) := by
  rw [handleUeContextDelete, PduSessionTree.enumerateByUe_of_empty _ h]
  rfl

/-- Sessions, TEIDs and session buckets stay as they are. -/
theorem withoutContext_unheld (ueId released : Int32) :
    (task.withoutContext clock released).Unheld ueId ↔ task.Unheld ueId :=
  ⟨fun h => ⟨h.sessions, h.teids, h.buckets⟩, fun h => ⟨h.sessions, h.teids, h.buckets⟩⟩

theorem withoutContext_othersKept (ueId : Int32) :
    OthersKept ueId task (task.withoutContext clock ueId) where
  contexts _ hother := AList.lookup_erase_ne hother
  sessions _ _ := rfl
  teids _ _ := rfl
  ueBuckets _ hother :=
    ⟨Buckets.lookup_updateLimit_ne clock 0 hother, Buckets.lookup_updateLimit_ne clock 0 hother⟩
  sessionBuckets _ _ := ⟨rfl, rfl⟩

theorem withoutContext_noTrace (ueId : Int32) :
    (task.withoutContext clock ueId).NoTrace ueId ↔ task.Unheld ueId := by
  constructor
  · intro h
    exact (withoutContext_unheld ..).mp h.unheld
  · intro h
    exact ⟨AList.lookup_erase .., ⟨Buckets.capacity_eq_none.mp (Buckets.capacity_updateLimit clock 0),
      Buckets.capacity_eq_none.mp (Buckets.capacity_updateLimit clock 0)⟩,
      (withoutContext_unheld ..).mpr h⟩

theorem limited_indexed {events : List GtpEvent}
    (h : (limitedSystem clock transportMode).Run System.unrestricted events task) :
    task.Indexed :=
  h.invariant (fun _ hinit => .init hinit.1) fun _ _ _ hs _ hstep => hs.step hstep.1 hstep.2

theorem releasedCleanly_iff (h : task.Indexed) (e : GtpEvent) :
    task.ReleasedCleanly clock e ↔ task.UnheldOnRelease e := by
  cases e with
  | ueContextRelease ueId =>
    simp only [ReleasedCleanly, UnheldOnRelease, handleUeContextDelete_of_empty h.byUe]
    constructor
    · rintro ⟨_, ⟨⟩, hnone, -⟩
      exact (withoutContext_noTrace ueId).mp hnone
    · intro hunheld
      exact ⟨_, rfl, (withoutContext_noTrace ueId).mpr hunheld, withoutContext_othersKept ueId⟩
  | _ => exact Iff.rfl

/-- The runs whose releases all leave nothing of their UE are those that release a UE
only after all of its sessions are gone, TEIDs and buckets included. -/
theorem releases_clean_iff {events : List GtpEvent} :
    (limitedSystem clock transportMode).Run (ReleasedCleanly clock) events task ↔
      (limitedSystem clock transportMode).Run UnheldOnRelease events task :=
  System.Run.congr limited_indexed fun _ e h => releasedCleanly_iff h e

/-- Tokens that never run out. -/
def endless : Tokens Unit where
  fresh _ := ()
  updateRate _ _ := ()
  consume _ _ _ := (true, ())

private def uplinkLimited : PduSessionResource where
  ueId := 1
  psi := 1
  sessionAmbr := { ulAmbr := 500 }
  downTunnel := { teid := 1 }

/-- UE 1 is released with its session. The session stays, with its TEID and bucket. -/
theorem release_leaves_session :
    ¬ ∀ (events : List GtpEvent) (task : GtpTask (RateLimiter Unit)),
      (limitedSystem endless .quic).Run System.unrestricted events task →
        ∀ ueId, ReleasedCleanly endless task (.ueContextRelease ueId) := by
  intro h
  have hstart : (limitedSystem endless .quic).Run System.unrestricted [] { rateLimiter := {} } :=
    .nil ⟨⟨rfl, rfl, rfl⟩, rfl⟩
  have hattached := hstart.snoc (e := GtpEvent.ueContextUpdate { ueId := 1 }) trivial
    ⟨trivial, .ueContextUpdate⟩
  have hsession := hattached.snoc (e := GtpEvent.sessionCreate uplinkLimited) trivial
    ⟨⟨by decide, by decide, fun _ _ hs => nomatch hs⟩, .sessionCreate⟩
  obtain ⟨t, hrun, hnone, -⟩ := h _ _ hsession 1
  cases hrun
  exact hnone.unheld.sessions 4294967297 uplinkLimited rfl rfl

end Quicup.Ueransim.GtpTask
