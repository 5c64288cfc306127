import Quicup.Ueransim.Gtp.Release

/-!
# The limits of the gNB

Which buckets the limiter holds, against the bit rates of the contexts and sessions.
The release of a session takes out the downlink bucket of its UE where it means the
one of the session, and the release of a context leaves the buckets of its sessions.
The runs that never meet one of the two keep all limits as configured.
-/

namespace Quicup.Ueransim

namespace Buckets

variable {κ τ : Type} [DecidableEq κ] {buckets : Buckets κ τ} {ambr ambr' : κ → Option UInt64}
  {key : κ}

/-- There is a bucket for every key with a bit rate other than zero, with that capacity,
and for no other key. -/
def Matches (buckets : Buckets κ τ) (ambr : κ → Option UInt64) : Prop :=
  ∀ key, buckets.capacity key = (ambr key).bind ofAmbr

/-- Taking out the bucket of a key that asks for none. -/
theorem Matches.erase_none (h : buckets.Matches ambr) (clock : Tokens τ)
    (hkey : (ambr key).bind ofAmbr = none) : (buckets.updateLimit clock key 0).Matches ambr := by
  intro other
  by_cases hsame : other = key
  · rw [hsame, capacity_updateLimit, hkey, ofAmbr_zero]
  · rw [capacity_updateLimit_ne clock 0 hsame, h other]

/-- Setting the limit of a key to its new bit rate. -/
theorem Matches.updateLimit (h : buckets.Matches ambr) (clock : Tokens τ) {limit : UInt64}
    (hkey : (ambr' key).bind ofAmbr = ofAmbr limit)
    (hother : ∀ other, other ≠ key → ambr' other = ambr other) :
    (buckets.updateLimit clock key limit).Matches ambr' := by
  intro other
  by_cases hsame : other = key
  · rw [hsame, capacity_updateLimit, hkey]
  · rw [capacity_updateLimit_ne clock limit hsame, h other, hother other hsame]

end Buckets

namespace RateLimiter

variable {τ : Type}

/-- The buckets are there for the same keys and with the same capacities. -/
structure SameLimits (limiter limiter' : RateLimiter τ) : Prop where
  uplinkByUe : limiter'.uplinkByUe.capacity = limiter.uplinkByUe.capacity
  downlinkByUe : limiter'.downlinkByUe.capacity = limiter.downlinkByUe.capacity
  uplinkBySession : limiter'.uplinkBySession.capacity = limiter.uplinkBySession.capacity
  downlinkBySession : limiter'.downlinkBySession.capacity = limiter.downlinkBySession.capacity

theorem allowDownlinkPacket_same (clock : Tokens τ) (ind size : UInt64) (limiter : RateLimiter τ) :
    SameLimits limiter (allowDownlinkPacket clock ind size limiter).2 := by
  simp only [allowDownlinkPacket]
  split <;> constructor <;> first | rfl | exact funext fun _ => Buckets.capacity_tryConsume ..

theorem allowUplinkPacket_same (clock : Tokens τ) (ind size : UInt64) (limiter : RateLimiter τ) :
    SameLimits limiter (allowUplinkPacket clock ind size limiter).2 := by
  simp only [allowUplinkPacket]
  split <;> constructor <;> first | rfl | exact funext fun _ => Buckets.capacity_tryConsume ..

end RateLimiter

namespace GtpTask

variable {τ : Type} (clock : Tokens τ) (transportMode : TransportMode)
  {session : PduSessionResource}

def ueAmbr (task : GtpTask (RateLimiter τ)) (ueId : Int32) : Option AggregateMaximumBitRate :=
  (task.ueContexts.lookup ueId).map GtpUeContext.ueAmbr

def sessionAmbr (task : GtpTask (RateLimiter τ)) (ind : UInt64) :
    Option AggregateMaximumBitRate :=
  (task.pduSessions.lookup ind).map PduSessionResource.sessionAmbr

theorem sessionAmbr_eq {task : GtpTask (RateLimiter τ)} {ind : UInt64}
    (h : task.pduSessions.lookup ind = some session) :
    task.sessionAmbr ind = some session.sessionAmbr := by
  rw [sessionAmbr, h, Option.map_some]

/-- The buckets are those that the contexts and the sessions of the table ask for, and
no session without a context has one. -/
structure Limited (task : GtpTask (RateLimiter τ)) : Prop where
  uplinkByUe : task.rateLimiter.uplinkByUe.Matches fun ueId =>
    (task.ueAmbr ueId).map AggregateMaximumBitRate.ulAmbr
  downlinkByUe : task.rateLimiter.downlinkByUe.Matches fun ueId =>
    (task.ueAmbr ueId).map AggregateMaximumBitRate.dlAmbr
  uplinkBySession : task.rateLimiter.uplinkBySession.Matches fun ind =>
    (task.sessionAmbr ind).map AggregateMaximumBitRate.ulAmbr
  downlinkBySession : task.rateLimiter.downlinkBySession.Matches fun ind =>
    (task.sessionAmbr ind).map AggregateMaximumBitRate.dlAmbr
  gone : ∀ ind session, task.pduSessions.lookup ind = some session →
    task.ueContexts.lookup session.ueId = none →
      task.rateLimiter.uplinkBySession.capacity ind = none ∧
        task.rateLimiter.downlinkBySession.capacity ind = none

/-- A session is released without downlink limits, its own and that of its UE, and a
UE without limits of the sessions it still has. -/
def LimitsKept (task : GtpTask (RateLimiter τ)) : GtpEvent → Prop
  | .sessionRelease ueId psi => ∀ ue, task.ueContexts.lookup ueId = some ue →
    ue.ueAmbr.dlAmbr = 0 ∧
      ∀ session, task.pduSessions.lookup (makeSessionResInd ueId psi) = some session →
        session.sessionAmbr.dlAmbr = 0
  | .ueContextRelease ueId => task.ueContexts.lookup ueId ≠ none →
    ∀ ind session, task.pduSessions.lookup ind = some session → session.ueId = ueId →
      session.sessionAmbr.ulAmbr = 0 ∧ session.sessionAmbr.dlAmbr = 0
  | _ => True

/-- The limits, with what is known of the keys of sessions and contexts. -/
structure Configured (task : GtpTask (RateLimiter τ)) : Prop where
  indexed : task.Indexed
  contexts : ∀ ueId ue, task.ueContexts.lookup ueId = some ue → ue.ueId = ueId
  limited : task.Limited

variable {clock transportMode} {task t : GtpTask (RateLimiter τ)} {ueId psi : Int32} {e : GtpEvent}

/-! ## Packets -/

theorem Limited.sameLimits (h : task.Limited) {rateLimiter : RateLimiter τ}
    (hsame : task.rateLimiter.SameLimits rateLimiter) : Limited { task with rateLimiter } := by
  refine ⟨fun key => ?_, fun key => ?_, fun key => ?_, fun key => ?_, fun ind session hs hue => ?_⟩
  · exact (congrFun hsame.uplinkByUe key).trans (h.uplinkByUe key)
  · exact (congrFun hsame.downlinkByUe key).trans (h.downlinkByUe key)
  · exact (congrFun hsame.uplinkBySession key).trans (h.uplinkBySession key)
  · exact (congrFun hsame.downlinkBySession key).trans (h.downlinkBySession key)
  · obtain ⟨hup, hdown⟩ := h.gone ind session hs hue
    exact ⟨(congrFun hsame.uplinkBySession ind).trans hup,
      (congrFun hsame.downlinkBySession ind).trans hdown⟩

theorem Limited.asked (h : task.Limited)
    (hasked : Asked (RateLimiter.interface clock) task t) : t.Limited := by
  cases hasked with
  | nothing => exact h
  | downlink ind size =>
    have hsame := RateLimiter.allowDownlinkPacket_same clock ind size task.rateLimiter
    exact h.sameLimits hsame
  | uplink ind size =>
    have hsame := RateLimiter.allowUplinkPacket_same clock ind size task.rateLimiter
    exact h.sameLimits hsame

/-! ## Contexts and sessions -/

/-- A known context keeps its identifier, and its bit rates are the new ones. -/
theorem handleUeContextUpdate_eq
    (h : ∀ ueId ue, task.ueContexts.lookup ueId = some ue → ue.ueId = ueId)
    (msg : GtpUeContextUpdate) :
    task.handleUeContextUpdate (RateLimiter.interface clock) msg =
      { task with
        ueContexts := task.ueContexts.insert msg.ueId ⟨msg.ueId, msg.ueAmbr⟩
        rateLimiter := { task.rateLimiter with
          uplinkByUe   := task.rateLimiter.uplinkByUe.updateLimit clock msg.ueId msg.ueAmbr.ulAmbr
          downlinkByUe :=
            task.rateLimiter.downlinkByUe.updateLimit clock msg.ueId msg.ueAmbr.dlAmbr } } := by
  have hue : ((task.ueContexts.lookup msg.ueId).getD ⟨msg.ueId, {}⟩).ueId = msg.ueId := by
    cases hlookup : task.ueContexts.lookup msg.ueId with
    | none => rfl
    | some ue => exact h msg.ueId ue hlookup
  simp only [handleUeContextUpdate]
  rw [hue]
  simp only [updateAmbrForUe, AList.lookup_insert]
  rfl

/-- A session of a known UE, with its own limits and those of its UE set again. -/
theorem handleSessionCreate_eq {ue : GtpUeContext}
    (hue : task.ueContexts.lookup session.ueId = some ue) :
    let ind := makeSessionResInd session.ueId session.psi
    task.handleSessionCreate (RateLimiter.interface clock) session =
      { task with
        pduSessions := task.pduSessions.insert ind session
        sessionTree := task.sessionTree.insert ind session.downTunnel.teid
        rateLimiter := {
          uplinkByUe :=
            task.rateLimiter.uplinkByUe.updateLimit clock session.ueId ue.ueAmbr.ulAmbr
          downlinkByUe :=
            task.rateLimiter.downlinkByUe.updateLimit clock session.ueId ue.ueAmbr.dlAmbr
          uplinkBySession :=
            task.rateLimiter.uplinkBySession.updateLimit clock ind session.sessionAmbr.ulAmbr
          downlinkBySession :=
            task.rateLimiter.downlinkBySession.updateLimit clock ind
              session.sessionAmbr.dlAmbr } } := by
  simp only [handleSessionCreate, updateAmbrForUe, updateAmbrForSession, hue, AList.lookup_insert,
    reduceCtorEq, if_false]
  rfl

/-- The limiter after the release of a session. -/
theorem handleSessionRelease_limiter (hue : task.ueContexts.lookup ueId ≠ none) :
    (task.handleSessionRelease (RateLimiter.interface clock) ueId psi).rateLimiter =
      { task.rateLimiter with
        uplinkBySession :=
          task.rateLimiter.uplinkBySession.updateLimit clock (makeSessionResInd ueId psi) 0
        downlinkByUe := task.rateLimiter.downlinkByUe.updateLimit clock ueId 0 } := by
  simp only [handleSessionRelease, if_neg hue]
  split <;> rfl

theorem handleSessionRelease_contexts (ueId psi : Int32) :
    (task.handleSessionRelease (RateLimiter.interface clock) ueId psi).ueContexts =
      task.ueContexts := by
  simp only [handleSessionRelease]
  split
  · rfl
  · split <;> rfl

/-- No session is left under the released index, and the others are as before. -/
theorem handleSessionRelease_lookup (hue : task.ueContexts.lookup ueId ≠ none) (ind : UInt64) :
    (task.handleSessionRelease (RateLimiter.interface clock) ueId psi).pduSessions.lookup ind =
      if ind = makeSessionResInd ueId psi then none else task.pduSessions.lookup ind := by
  simp only [handleSessionRelease, if_neg hue]
  split
  · rename_i hnone
    split
    · rename_i hsame
      rw [hsame, hnone]
    · rfl
  · split
    · rename_i hsame
      rw [hsame, AList.lookup_erase]
    · rename_i hne
      exact AList.lookup_erase_ne hne

theorem Limited.ueContextUpdate (h : task.Configured) (msg : GtpUeContextUpdate) :
    (task.handleUeContextUpdate (RateLimiter.interface clock) msg).Limited := by
  rw [handleUeContextUpdate_eq h.contexts]
  have hother (other : Int32) (hne : other ≠ msg.ueId) :
      (task.ueContexts.insert msg.ueId ⟨msg.ueId, msg.ueAmbr⟩).lookup other =
        task.ueContexts.lookup other := AList.lookup_insert_ne hne
  refine ⟨h.limited.uplinkByUe.updateLimit clock ?_ fun other hne => ?_,
    h.limited.downlinkByUe.updateLimit clock ?_ fun other hne => ?_,
    h.limited.uplinkBySession, h.limited.downlinkBySession, fun ind session hs hnone => ?_⟩
  · simp [ueAmbr]
  · simp [ueAmbr, hother other hne]
  · simp [ueAmbr]
  · simp [ueAmbr, hother other hne]
  · by_cases hne : session.ueId = msg.ueId
    · rw [hne, AList.lookup_insert] at hnone
      cases hnone
    · rw [hother _ hne] at hnone
      exact h.limited.gone ind session hs hnone

theorem Limited.sessionCreate (h : task.Configured) (session : PduSessionResource) :
    (task.handleSessionCreate (RateLimiter.interface clock) session).Limited := by
  cases hue : task.ueContexts.lookup session.ueId with
  | none =>
    rw [handleSessionCreate, if_pos hue]
    exact h.limited
  | some ue =>
    rw [handleSessionCreate_eq hue]
    have hother (other : UInt64) (hne : other ≠ makeSessionResInd session.ueId session.psi) :
        (task.pduSessions.insert (makeSessionResInd session.ueId session.psi) session).lookup
          other = task.pduSessions.lookup other := AList.lookup_insert_ne hne
    refine ⟨h.limited.uplinkByUe.updateLimit clock ?_ fun _ _ => rfl,
      h.limited.downlinkByUe.updateLimit clock ?_ fun _ _ => rfl,
      h.limited.uplinkBySession.updateLimit clock ?_ fun other hne => ?_,
      h.limited.downlinkBySession.updateLimit clock ?_ fun other hne => ?_,
      fun ind held hs hnone => ?_⟩
    · simp [ueAmbr, hue]
    · simp [ueAmbr, hue]
    · simp [sessionAmbr]
    · simp [sessionAmbr, hother other hne]
    · simp [sessionAmbr]
    · simp [sessionAmbr, hother other hne]
    · by_cases hne : ind = makeSessionResInd session.ueId session.psi
      · rw [hne, AList.lookup_insert] at hs
        rw [← Option.some.inj hs, hue] at hnone
        cases hnone
      · rw [hother ind hne] at hs
        rw [Buckets.capacity_updateLimit_ne _ _ hne, Buckets.capacity_updateLimit_ne _ _ hne]
        exact h.limited.gone ind held hs hnone

theorem Limited.sessionRelease (h : task.Configured)
    (hkept : LimitsKept task (.sessionRelease ueId psi)) :
    (task.handleSessionRelease (RateLimiter.interface clock) ueId psi).Limited := by
  cases hue : task.ueContexts.lookup ueId with
  | none =>
    rw [handleSessionRelease, if_pos hue]
    exact h.limited
  | some ue =>
    obtain ⟨hdown, hsession⟩ := hkept ue hue
    have hknown : task.ueContexts.lookup ueId ≠ none := hue ▸ Option.some_ne_none ue
    have hambr (ind : UInt64) :
        (task.handleSessionRelease (RateLimiter.interface clock) ueId psi).sessionAmbr ind =
          if ind = makeSessionResInd ueId psi then none else task.sessionAmbr ind := by
      rw [sessionAmbr, handleSessionRelease_lookup hknown]
      split <;> rfl
    refine ⟨?_, ?_, ?_, ?_, fun ind session hs hnone => ?_⟩
    · simp only [handleSessionRelease_limiter hknown, ueAmbr, handleSessionRelease_contexts]
      exact h.limited.uplinkByUe
    · simp only [handleSessionRelease_limiter hknown, ueAmbr, handleSessionRelease_contexts]
      refine h.limited.downlinkByUe.erase_none clock ?_
      simp [ueAmbr, hue, hdown]
    · simp only [handleSessionRelease_limiter hknown, hambr]
      refine h.limited.uplinkBySession.updateLimit clock ?_ fun other hne => ?_
      · simp
      · rw [if_neg hne]
    · simp only [handleSessionRelease_limiter hknown, hambr]
      intro ind
      rw [h.limited.downlinkBySession ind]
      dsimp only
      split
      · rename_i hsame
        rw [sessionAmbr, hsame]
        cases hs : task.pduSessions.lookup (makeSessionResInd ueId psi) with
        | none => rfl
        | some session => simp [hsession session hs]
      · rfl
    · rw [handleSessionRelease_contexts] at hnone
      rw [handleSessionRelease_lookup hknown] at hs
      split at hs
      · cases hs
      · rename_i hne
        rw [handleSessionRelease_limiter hknown, Buckets.capacity_updateLimit_ne _ _ hne]
        exact h.limited.gone ind session hs hnone

theorem withoutContext_lookup (clock : Tokens τ) (released ueId : Int32) :
    (task.withoutContext clock released).ueContexts.lookup ueId =
      if ueId = released then none else task.ueContexts.lookup ueId := by
  rw [withoutContext]
  split
  · rename_i hsame
    rw [hsame, AList.lookup_erase]
  · rename_i hne
    exact AList.lookup_erase_ne hne

theorem Limited.ueContextRelease (h : task.Limited)
    (hkept : LimitsKept task (.ueContextRelease ueId)) :
    (task.withoutContext clock ueId).Limited := by
  have hambr (other : Int32) : (task.withoutContext clock ueId).ueAmbr other =
      if other = ueId then none else task.ueAmbr other := by
    rw [ueAmbr, withoutContext_lookup]
    split <;> rfl
  refine ⟨?_, ?_, h.uplinkBySession, h.downlinkBySession, fun ind session hs hnone => ?_⟩
  · simp only [hambr]
    refine h.uplinkByUe.updateLimit clock ?_ fun other hne => ?_
    · simp
    · rw [if_neg hne]
  · simp only [hambr]
    refine h.downlinkByUe.updateLimit clock ?_ fun other hne => ?_
    · simp
    · rw [if_neg hne]
  · rw [withoutContext_lookup] at hnone
    by_cases hknown : task.ueContexts.lookup session.ueId = none
    · exact h.gone ind session hs hknown
    · have hue : session.ueId = ueId := by
        by_contra hne
        rw [if_neg hne] at hnone
        exact hknown hnone
      obtain ⟨hup, hdown⟩ := hkept (hue ▸ hknown) ind session hs hue
      have hambr : task.sessionAmbr ind = some session.sessionAmbr := sessionAmbr_eq hs
      refine ⟨(h.uplinkBySession ind).trans ?_, (h.downlinkBySession ind).trans ?_⟩
      · simp [hambr, hup]
      · simp [hambr, hdown]

/-! ## Steps and runs -/

theorem contexts_step (h : task.Configured)
    (hstep : Step (RateLimiter.interface clock) transportMode task e t) :
    ∀ ueId ue, t.ueContexts.lookup ueId = some ue → ue.ueId = ueId := by
  have hasked (hasked : Asked (RateLimiter.interface clock) task t) :
      t.ueContexts = task.ueContexts := by
    cases hasked <;> rfl
  cases hstep with
  | @ueContextUpdate msg =>
    rw [handleUeContextUpdate_eq h.contexts]
    intro ueId ue hue
    by_cases hne : ueId = msg.ueId
    · rw [hne, AList.lookup_insert] at hue
      rw [← Option.some.inj hue, hne]
    · rw [AList.lookup_insert_ne hne] at hue
      exact h.contexts ueId ue hue
  | ueContextRelease hrun =>
    rw [handleUeContextDelete_of_empty h.indexed.byUe] at hrun
    cases hrun
    intro ueId ue hue
    rw [withoutContext_lookup] at hue
    split at hue
    · cases hue
    · exact h.contexts ueId ue hue
  | @sessionCreate session =>
    cases hue : task.ueContexts.lookup session.ueId with
    | none =>
      rw [handleSessionCreate, if_pos hue]
      exact h.contexts
    | some ue =>
      rw [handleSessionCreate_eq hue]
      exact h.contexts
  | sessionRelease =>
    rw [handleSessionRelease_contexts]
    exact h.contexts
  | uplinkData hrun => exact hasked (handleUplinkData_asks _ _ _ _ _ hrun) ▸ h.contexts
  | quicReceive hrun => exact hasked (handleQuicReceive_asks _ _ _ hrun) ▸ h.contexts
  | udpReceive hrun => exact hasked (handleUdpReceive_asks _ _ _ _ hrun) ▸ h.contexts

theorem Configured.step (h : task.Configured) (hkept : LimitsKept task e)
    (hstep : (limitedSystem clock transportMode).step task e t) : t.Configured := by
  obtain ⟨hassigned, hstep⟩ := hstep
  refine ⟨h.indexed.step hassigned hstep, contexts_step h hstep, ?_⟩
  cases hstep with
  | ueContextUpdate => exact .ueContextUpdate h _
  | ueContextRelease hrun =>
    rw [handleUeContextDelete_of_empty h.indexed.byUe] at hrun
    cases hrun
    exact h.limited.ueContextRelease hkept
  | sessionCreate => exact .sessionCreate h _
  | sessionRelease => exact .sessionRelease h hkept
  | uplinkData hrun => exact h.limited.asked (handleUplinkData_asks _ _ _ _ _ hrun)
  | quicReceive hrun => exact h.limited.asked (handleQuicReceive_asks _ _ _ hrun)
  | udpReceive hrun => exact h.limited.asked (handleUdpReceive_asks _ _ _ _ hrun)

theorem Configured.init (hinit : (limitedSystem clock transportMode).init task) :
    task.Configured := by
  obtain ⟨hinit, hlimiter⟩ := hinit
  obtain ⟨hcontexts, hsessions, -⟩ := id hinit
  refine ⟨.init hinit, fun ueId ue hue => ?_, ⟨?_, ?_, ?_, ?_, fun ind session hs => ?_⟩⟩
  · rw [hcontexts] at hue
    cases hue
  · simp [Buckets.Matches, hlimiter, ueAmbr, hcontexts]
  · simp [Buckets.Matches, hlimiter, ueAmbr, hcontexts]
  · simp [Buckets.Matches, hlimiter, sessionAmbr, hsessions]
  · simp [Buckets.Matches, hlimiter, sessionAmbr, hsessions]
  · rw [hsessions] at hs
    cases hs

/-- A session released with a downlink limit of its own leaves that limit behind, and
one released with a limit of its UE takes it away. -/
theorem limitsKept_sessionRelease (h : task.Configured)
    (ht : (task.handleSessionRelease (RateLimiter.interface clock) ueId psi).Limited) :
    LimitsKept task (.sessionRelease ueId psi) := by
  intro ue hue
  have hknown : task.ueContexts.lookup ueId ≠ none := hue ▸ Option.some_ne_none ue
  have hbyUe := ht.downlinkByUe ueId
  have hbySession := ht.downlinkBySession (makeSessionResInd ueId psi)
  rw [handleSessionRelease_limiter hknown] at hbyUe hbySession
  constructor
  · have hnone := hbyUe.symm.trans (Buckets.capacity_updateLimit clock 0)
    simpa [ueAmbr, handleSessionRelease_contexts, hue] using hnone
  · intro session hs
    simp only [sessionAmbr, handleSessionRelease_lookup hknown, if_true] at hbySession
    have hheld := (h.limited.downlinkBySession _).symm.trans hbySession
    simpa [sessionAmbr_eq hs] using hheld

/-- The sessions of a released UE are left with their limits. -/
theorem limitsKept_ueContextRelease (h : task.Configured)
    (ht : (task.withoutContext clock ueId).Limited) : LimitsKept task (.ueContextRelease ueId) := by
  intro hknown ind session hs hue
  obtain ⟨hup, hdown⟩ := ht.gone ind session hs (by rw [hue, withoutContext_lookup, if_pos rfl])
  have huplink := (h.limited.uplinkBySession ind).symm.trans hup
  have hdownlink := (h.limited.downlinkBySession ind).symm.trans hdown
  exact ⟨by simpa [sessionAmbr_eq hs] using huplink, by simpa [sessionAmbr_eq hs] using hdownlink⟩

theorem Configured.limitsKept (h : task.Configured)
    (hstep : (limitedSystem clock transportMode).step task e t) (ht : t.Limited) :
    LimitsKept task e := by
  obtain ⟨-, hstep⟩ := hstep
  cases hstep with
  | ueContextRelease hrun =>
    rw [handleUeContextDelete_of_empty h.indexed.byUe] at hrun
    cases hrun
    exact limitsKept_ueContextRelease h ht
  | sessionRelease => exact limitsKept_sessionRelease h ht
  | _ => trivial

/-- The runs in which the limits are as configured throughout are those that release
sessions and contexts without the limits which the two handlers mistake. -/
theorem limited_iff {events : List GtpEvent} :
    (limitedSystem clock transportMode).RunWithin Limited events task ↔
      (limitedSystem clock transportMode).Run LimitsKept events task :=
  System.Run.within_iff (fun _ => Configured.init) (fun _ h => h.limited)
    (fun _ _ _ => Configured.step) fun _ _ _ => Configured.limitsKept

private def downlinkLimited : GtpUeContextUpdate where
  ueId := 1
  ueAmbr := { dlAmbr := 1000 }

private def sessionOf (psi : Int32) (teid : UInt32) : PduSessionResource where
  ueId := 1
  psi := psi
  downTunnel := { teid }

/-- UE 1 has a downlink limit and two sessions. With the release of one of them the
limit is gone, while the other session goes on. -/
theorem release_drops_ue_limit :
    ¬ ∀ (events : List GtpEvent) (task : GtpTask (RateLimiter Unit)),
      (limitedSystem endless .quic).Run System.unrestricted events task → task.Limited := by
  intro h
  have hstart : (limitedSystem endless .quic).Run System.unrestricted [] { rateLimiter := {} } :=
    .nil ⟨⟨rfl, rfl, rfl⟩, rfl⟩
  have hattached := hstart.snoc (e := GtpEvent.ueContextUpdate downlinkLimited) trivial
    ⟨trivial, .ueContextUpdate⟩
  have hfirst := hattached.snoc (e := GtpEvent.sessionCreate (sessionOf 1 1)) trivial
    ⟨⟨by decide, by decide, fun _ _ hs => nomatch hs⟩, .sessionCreate⟩
  have hsecond := hfirst.snoc (e := GtpEvent.sessionCreate (sessionOf 2 2)) trivial
    ⟨⟨by decide, by decide, fun ind other hs hteid => ?_⟩, .sessionCreate⟩
  · have hreleased := hsecond.snoc (e := GtpEvent.sessionRelease 1 1) trivial
      ⟨trivial, .sessionRelease⟩
    exact absurd ((h _ _ hreleased).downlinkByUe 1) (by decide)
  · change ((∅ : AList fun _ : UInt64 => PduSessionResource).insert (makeSessionResInd 1 1)
      (sessionOf 1 1)).lookup ind = some other at hs
    by_cases hind : ind = makeSessionResInd 1 1
    · rw [hind, AList.lookup_insert] at hs
      rw [← Option.some.inj hs] at hteid
      exact absurd hteid (by decide)
    · rw [AList.lookup_insert_ne hind] at hs
      cases hs

end GtpTask

end Quicup.Ueransim
