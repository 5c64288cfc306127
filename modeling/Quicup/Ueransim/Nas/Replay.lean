import Quicup.Ueransim.Nas.UplinkCounts

/-!
# Replays of downlink messages

A message of the AMF is its count and its octets. The UE takes a message whose number is the one
of the last count, and no longer in the list, for one with the last count, and accepts it again.
Security Mode Commands are handed on without any check, and one that is accepted may take the
downlink count back.
-/

namespace Quicup.Ueransim

/-! ## Histories -/

/-- A message that was handed on: one that was accepted with a count, or a Security Mode Command
under a new context. -/
inductive AcceptedDownlink
  | secured (count : NasCount) (msg : SecuredMmMessage)
  | command (msg : SecuredMmMessage)
  deriving DecidableEq

/-- The UE, and the messages that were handed on under its K_NASint. -/
structure DownlinkHistory where
  ue : NasMm
  accepted : List AcceptedDownlink := []
  deriving DecidableEq

inductive DownlinkEvent
  /-- A secured message is checked under the context in force. -/
  | check (msg : SecuredMmMessage)
  /-- A Security Mode Command is handled. It came under a new context, or within a message that was
  checked before. -/
  | command (source : Option SecuredMmMessage) (msg : SecurityModeCommand)
  /-- All else, which neither touches the downlink count nor the list. -/
  | rest (ue : NasMm)

namespace NasMm

variable (ue ue' : NasMm)

/-- The context in force keeps its K_NASint, and an algorithm other than IA0. -/
def KeepsKey : Prop :=
  ∃ ctx ∈ ue.usim.currentNsCtx, ∃ ctx' ∈ ue'.usim.currentNsCtx,
    ctx'.keys.kNasInt = ctx.keys.kNasInt ∧ ctx'.integrity ≠ ia0

instance : Decidable (ue.KeepsKey ue') :=
  inferInstanceAs (Decidable (∃ ctx ∈ ue.usim.currentNsCtx, ∃ ctx' ∈ ue'.usim.currentNsCtx, _ ∧ _))

/-- The context in force is gone, or has the same downlink count, list and algorithm. -/
def KeepsDownlink : Prop :=
  ∀ ctx' ∈ ue'.usim.currentNsCtx, ∃ ctx ∈ ue.usim.currentNsCtx,
    ctx'.downlinkCount = ctx.downlinkCount ∧
      ctx'.lastNasSequenceNums = ctx.lastNasSequenceNums ∧ ctx'.integrity = ctx.integrity

instance : Decidable (ue.KeepsDownlink ue') :=
  inferInstanceAs (Decidable (∀ ctx' ∈ ue'.usim.currentNsCtx, ∃ ctx ∈ ue.usim.currentNsCtx, _ ∧ _))

end NasMm

namespace DownlinkHistory

variable (crypto : NasCrypto) (config : SecurityModeConfig) (s : DownlinkHistory)

/-- What is accepted of a message. -/
def acceptedOf (count : NasCount) (msg : SecuredMmMessage) : Verdict → List AcceptedDownlink
  | .replayed => []
  | .macFailure => []
  | .verified _ => [.secured count msg]

def act : DownlinkEvent → Option DownlinkHistory
  | .check msg => do
    let ctx ← s.ue.usim.currentNsCtx
    let (verdict, ctx') ← (ctx.verify crypto msg).toOption
    let count := ctx.estimatedDownlinkCount msg.sequenceNumber
    return ⟨s.ue.setCurrentNsCtx (some ctx'), s.accepted ++ acceptedOf count msg verdict⟩
  | .command source msg => do
    let ue ← (s.ue.receiveSecurityModeCommand crypto config msg).toOption
    if s.ue.KeepsKey ue then return ⟨ue, s.accepted ++ source.toList.map .command⟩ else none
  | .rest ue => if s.ue.KeepsDownlink ue ∧ s.ue.KeepsKey ue then some { s with ue } else none

/-- Where an authentic message comes with the number of the downlink count, and the number is not in
the list, none was accepted with that count. Else its count does not wrap around. No Security Mode
Command comes twice, and one that is accepted leaves no downlink count below the one of a message
that was accepted. -/
def StaysFresh (s : DownlinkHistory) : DownlinkEvent → Prop
  | .check msg => ∀ ctx ∈ s.ue.usim.currentNsCtx,
      msg.sequenceNumber ∉ ctx.lastNasSequenceNums → ctx.Authentic crypto msg →
      (msg.sequenceNumber = ctx.downlinkCount.sqn →
        ∀ msg', .secured ctx.downlinkCount msg' ∉ s.accepted) ∧
      (msg.sequenceNumber < ctx.downlinkCount.sqn → ctx.downlinkCount.overflow ≠ 0xFFFF)
  | .command source msg =>
      (∀ msg' ∈ source, .command msg' ∉ s.accepted) ∧
      ∀ which ctx clearNasCount,
        s.ue.usim.Takes crypto config s.ue.hasEmergency msg which ctx clearNasCount →
        ∀ count msg', .secured count msg' ∈ s.accepted →
          count.toNat ≤ (ctx.commandedDownlinkCount msg clearNasCount).toNat
  | .rest _ => True

/-- The messages whose MACs verify are those of the AMF, with their counts. -/
def Honest (amf : List (NasCount × SecuredMmMessage)) (s : DownlinkHistory) : DownlinkEvent → Prop
  | .check msg => ∀ ctx ∈ s.ue.usim.currentNsCtx, ctx.Authentic crypto msg →
      (ctx.estimatedDownlinkCount msg.sequenceNumber, msg) ∈ amf
  | _ => True

instance (amf : List (NasCount × SecuredMmMessage)) :
    (e : DownlinkEvent) → Decidable (Honest crypto amf s e)
  | .check _ => inferInstanceAs (Decidable (∀ ctx ∈ s.ue.usim.currentNsCtx, _ → _))
  | .command _ _ => inferInstanceAs (Decidable True)
  | .rest _ => inferInstanceAs (Decidable True)

end DownlinkHistory

/-- What is received under one K_NASint. -/
def downlinkHistorySystem (crypto : NasCrypto) (config : SecurityModeConfig) :
    System DownlinkHistory DownlinkEvent where
  init s := (∃ ctx ∈ s.ue.usim.currentNsCtx, ctx.integrity ≠ ia0) ∧ s.accepted = []
  step s e t := s.act crypto config e = some t

/-! ## Steps -/

namespace NasMm.KeepsDownlink

variable {ue ue₁ ue₂ ue₃ : NasMm}

theorem of_eq (h : ue₂.usim.currentNsCtx = ue₁.usim.currentNsCtx) : ue₁.KeepsDownlink ue₂ := by
  intro ctx hctx
  exact ⟨ctx, h ▸ hctx, rfl, rfl, rfl⟩

/-- A message that is sent leaves what is received alone. -/
theorem send {crypto : NasCrypto} {msg : UplinkMmMessage} {rc : ProcRc} {ue' : NasMm}
    (h : ue.sendNasMessage crypto msg = .ok (rc, ue')) : ue.KeepsDownlink ue' := by
  cases NasMm.sendNasMessage_eq_ok h with
  | aborted husim _ => exact .of_eq (by rw [husim])
  | wrap _ _ =>
    intro ctx hctx
    cases hctx
  | plain _ _ => exact fun ctx hctx => ⟨ctx, hctx, rfl, rfl, rfl⟩
  | @secured ctx secured ctx' pdu hctx _ hprotect _ =>
    obtain ⟨_, _, _, _, hencrypt, -, -⟩ := NasCrypto.protect_eq_ok hprotect
    obtain ⟨rfl, -⟩ := NasCrypto.encrypt_eq_ok hencrypt
    intro ctx' hctx'
    obtain rfl := Option.some.inj hctx'
    exact ⟨ctx, (Option.filter_eq_some_iff.mp hctx).1, rfl, rfl, rfl⟩

end NasMm.KeepsDownlink

namespace DownlinkHistory

variable {crypto : NasCrypto} {config : SecurityModeConfig} {s t : DownlinkHistory} {ue ue' : NasMm}
  {msg : SecurityModeCommand} {source : Option SecuredMmMessage}

/-- Under a context that checks messages, none was accepted with a count above the downlink count. -/
def Bounded (s : DownlinkHistory) : Prop :=
  ∀ ctx ∈ s.ue.usim.currentNsCtx, ctx.integrity ≠ ia0 → ∀ count msg,
    .secured count msg ∈ s.accepted → count.toNat ≤ ctx.downlinkCount.toNat

structure Fresh (s : DownlinkHistory) : Prop where
  integrity : ∃ ctx ∈ s.ue.usim.currentNsCtx, ctx.integrity ≠ ia0
  nodup : s.accepted.Nodup
  bounded : s.Bounded

theorem Bounded.rest (h : s.Bounded) (hkeeps : s.ue.KeepsDownlink ue) :
    ({ s with ue } : DownlinkHistory).Bounded := by
  intro ctx' hctx' hintegrity
  obtain ⟨ctx, hctx, hcount, -, halgorithm⟩ := hkeeps ctx' hctx'
  rw [hcount]
  exact h ctx hctx (halgorithm ▸ hintegrity)

theorem integrity_of_keepsKey (h : ue.KeepsKey ue') :
    ∃ ctx ∈ ue'.usim.currentNsCtx, ctx.integrity ≠ ia0 := by
  obtain ⟨-, -, ctx', hctx', -, hintegrity⟩ := h
  exact ⟨ctx', hctx', hintegrity⟩

theorem Fresh.check (h : s.Fresh) {msg : SecuredMmMessage} {ctx ctx' : NasSecurityContext}
    {verdict : Verdict} (hfresh : s.StaysFresh crypto config (.check msg))
    (hctx : s.ue.usim.currentNsCtx = some ctx)
    (hverify : ctx.verify crypto msg = .ok (verdict, ctx')) :
    Fresh ⟨s.ue.setCurrentNsCtx (some ctx'),
      s.accepted ++ acceptedOf (ctx.estimatedDownlinkCount msg.sequenceNumber) msg verdict⟩ := by
  have hintegrity : ctx.integrity ≠ ia0 := by
    obtain ⟨ctx₁, hctx₁, hintegrity⟩ := h.integrity
    obtain rfl := Option.some.inj (hctx.symm.trans hctx₁)
    exact hintegrity
  have hle := h.bounded ctx hctx hintegrity
  cases NasSecurityContext.verify_eq_ok hintegrity hverify with
  | replayed hmem =>
    rw [acceptedOf, List.append_nil]
    refine ⟨⟨ctx, rfl, hintegrity⟩, h.nodup, fun ctx' hctx' _ => ?_⟩
    obtain rfl := Option.some.inj hctx'
    exact hle
  | macFailure hmem hforged =>
    rw [acceptedOf, List.append_nil]
    refine ⟨⟨_, rfl, hintegrity⟩, h.nodup, fun ctx' hctx' _ => ?_⟩
    obtain rfl := Option.some.inj hctx'
    exact hle
  | verified decrypted hmem hauthentic =>
    obtain ⟨hlast, hwrap⟩ := hfresh ctx hctx hmem hauthentic
    have hnew : ∀ msg', .secured (ctx.estimatedDownlinkCount msg.sequenceNumber) msg' ∉
        s.accepted := by
      intro msg' hmem'
      by_cases hsqn : msg.sequenceNumber = ctx.downlinkCount.sqn
      · have hsame : ctx.estimatedDownlinkCount msg.sequenceNumber = ctx.downlinkCount :=
          SplitCount.estimate_eq_self_iff.mpr hsqn
        exact hlast hsqn msg' (hsame ▸ hmem')
      · have habove := SplitCount.toNat_lt_estimate_iff.mpr ⟨hsqn, hwrap⟩
        exact Nat.not_lt.mpr (hle _ _ hmem') habove
    have hstep : ctx.downlinkCount.toNat ≤
        (ctx.estimatedDownlinkCount msg.sequenceNumber).toNat := by
      unfold NasSecurityContext.estimatedDownlinkCount
      rw [SplitCount.toNat_estimate hwrap]
      exact Nat.le_add_right _ _
    refine ⟨⟨_, rfl, hintegrity⟩, ?_, fun ctx' hctx' _ count msg' hmem' => ?_⟩
    · apply h.nodup.append (List.nodup_singleton _)
      intro entry hentry hsingle
      obtain rfl := List.mem_singleton.mp hsingle
      exact hnew msg hentry
    · obtain rfl := Option.some.inj hctx'
      rcases List.mem_append.mp hmem' with hbefore | hsingle
      · exact Nat.le_trans (hle count msg' hbefore) hstep
      · obtain ⟨rfl, rfl⟩ := AcceptedDownlink.secured.inj (List.mem_singleton.mp hsingle)
        exact Nat.le_refl _

/-- The contexts behind a command, before it is answered. -/
theorem Bounded.commanded (h : s.Bounded) {answer : SecurityModeAnswer} {usim : Usim}
    (hfresh : s.StaysFresh crypto config (.command source msg))
    (hcommand : s.ue.usim.securityModeCommand crypto config s.ue.hasEmergency msg =
      .ok (answer, usim)) : ({ s with ue := { s.ue with usim } } : DownlinkHistory).Bounded := by
  cases Usim.securityModeCommand_eq_ok hcommand with
  | refused cause => exact h
  | notTaken cause hemergency =>
    unfold Usim.prepared
    split
    · intro ctx hctx hintegrity
      obtain rfl := Option.some.inj hctx
      exact absurd rfl hintegrity
    · exact h
  | @taken which ctx clearNasCount htakes =>
    intro ctx' hctx' _
    have hcount : ctx'.downlinkCount = ctx.commandedDownlinkCount msg clearNasCount := by
      rw [← @NasSecurityContext.process_downlinkCount crypto]
      cases which with
      | current =>
        obtain rfl := Option.some.inj hctx'
        rfl
      | nonCurrent =>
        obtain rfl := Option.some.inj hctx'
        rfl
    rw [hcount]
    exact hfresh.2 which ctx clearNasCount htakes

theorem Fresh.command (h : s.Fresh) (hfresh : s.StaysFresh crypto config (.command source msg))
    (hreceive : s.ue.receiveSecurityModeCommand crypto config msg = .ok ue')
    (hkey : s.ue.KeepsKey ue') : Fresh ⟨ue', s.accepted ++ source.toList.map .command⟩ := by
  obtain ⟨⟨answer, usim⟩, hcommand, -⟩ := Fallible.bind_eq_ok.mp hreceive
  obtain ⟨rc, reply, hsend⟩ := NasMm.receiveSecurityModeCommand_eq_ok hcommand hreceive
  have hbounded := (h.bounded.commanded hfresh hcommand).rest (.send hsend)
  refine ⟨integrity_of_keepsKey hkey, ?_, fun ctx hctx hintegrity count msg' hmem => ?_⟩
  · cases source with
    | none =>
      rw [Option.toList_none, List.map_nil, List.append_nil]
      exact h.nodup
    | some source =>
      apply h.nodup.append (List.nodup_singleton _)
      intro entry hentry hsingle
      obtain rfl := List.mem_singleton.mp hsingle
      exact hfresh.1 source rfl hentry
  · apply hbounded ctx hctx hintegrity count msg'
    rcases List.mem_append.mp hmem with hbefore | hsource
    · exact hbefore
    · obtain ⟨_, -, heq⟩ := List.mem_map.mp hsource
      cases heq

theorem Fresh.step (h : s.Fresh) {e : DownlinkEvent} (hfresh : s.StaysFresh crypto config e)
    (hstep : s.act crypto config e = some t) : t.Fresh := by
  cases e with
  | check msg =>
    obtain ⟨ctx, hctx, hstep⟩ := Option.bind_eq_some_iff.mp hstep
    obtain ⟨⟨verdict, ctx'⟩, hverify, ht⟩ := Option.bind_eq_some_iff.mp hstep
    obtain rfl := Option.some.inj ht
    exact h.check hfresh hctx (Fallible.toOption_eq_some.mp hverify)
  | command source msg =>
    obtain ⟨ue', hreceive, hstep⟩ := Option.bind_eq_some_iff.mp hstep
    split at hstep
    · next hkey =>
      obtain rfl := Option.some.inj hstep
      exact h.command hfresh (Fallible.toOption_eq_some.mp hreceive) hkey
    · cases hstep
  | rest ue =>
    unfold act at hstep
    dsimp only at hstep
    split at hstep
    · next hkeeps =>
      obtain rfl := Option.some.inj hstep
      exact ⟨integrity_of_keepsKey hkeeps.2, h.nodup, h.bounded.rest hkeeps.1⟩
    · cases hstep

theorem Fresh.of_run {events : List DownlinkEvent}
    (h : (downlinkHistorySystem crypto config).Run (StaysFresh crypto config) events s) :
    s.Fresh := by
  apply h.invariant
  · rintro s ⟨hintegrity, hinit⟩
    refine ⟨hintegrity, hinit ▸ List.nodup_nil, fun ctx _ _ count msg hmem => ?_⟩
    rw [hinit] at hmem
    cases hmem
  · exact fun s e t hbefore hfresh hstep => hbefore.step hfresh hstep

end DownlinkHistory

/-! ## Reception -/

/-- A message that is sent leaves the key of the context, unless the context is deleted. -/
theorem NasMm.KeepsKey.send {crypto : NasCrypto} {ue ue' : NasMm} {ctx : NasSecurityContext}
    {msg : UplinkMmMessage} {rc : ProcRc} (hctx : ue.usim.currentNsCtx = some ctx)
    (hintegrity : ctx.integrity ≠ ia0) (hsend : ue.sendNasMessage crypto msg = .ok (rc, ue'))
    (hsome : ue'.usim.currentNsCtx ≠ none) : ue.KeepsKey ue' := by
  cases NasMm.sendNasMessage_eq_ok hsend with
  | aborted husim _ => exact ⟨ctx, hctx, ctx, husim ▸ hctx, rfl, hintegrity⟩
  | wrap _ _ => exact absurd rfl hsome
  | plain _ _ => exact ⟨ctx, hctx, ctx, hctx, rfl, hintegrity⟩
  | @secured ctx₁ secured ctx' pdu hctx₁ _ hprotect _ =>
    obtain ⟨_, _, _, _, hencrypt, -, -⟩ := NasCrypto.protect_eq_ok hprotect
    obtain ⟨rfl, -⟩ := NasCrypto.encrypt_eq_ok hencrypt
    obtain rfl := Option.some.inj (hctx.symm.trans (Option.filter_eq_some_iff.mp hctx₁).1)
    exact ⟨ctx, hctx, _, rfl, rfl, hintegrity⟩

namespace DownlinkHistory

variable {crypto : NasCrypto} {config : SecurityModeConfig} {s t : DownlinkHistory}

/-- What is sent for a message is one of the remaining steps. -/
theorem act_send {ctx : NasSecurityContext} {msg : UplinkMmMessage} {rc : ProcRc} {ue' : NasMm}
    (hctx : s.ue.usim.currentNsCtx = some ctx) (hintegrity : ctx.integrity ≠ ia0)
    (hsend : s.ue.sendNasMessage crypto msg = .ok (rc, ue'))
    (hsome : ue'.usim.currentNsCtx ≠ none) :
    s.act crypto config (.rest ue') = some { s with ue := ue' } :=
  if_pos ⟨.send hsend, .send hctx hintegrity hsend hsome⟩

/-- What the UE receives under a context are checks, the outer one first, and a message that is sent
at the end. What is handed on has been accepted. -/
theorem receiveNasMessage_eq_ok {decoder : NasDecoder} {depth : Nat} {msg : SecuredMmMessage}
    {ctx : NasSecurityContext} {delivery : Option Delivery} {ue' : NasMm}
    (hctx : s.ue.usim.currentNsCtx = some ctx) (hintegrity : ctx.integrity ≠ ia0)
    (h : s.ue.receiveNasMessage crypto decoder depth (.securedMm msg) = .ok (delivery, ue'))
    (hsome : ue'.usim.currentNsCtx ≠ none) :
    ∃ (events : List DownlinkEvent) (t : DownlinkHistory),
      events.foldlM (act crypto config) s = some t ∧ t.ue = ue' ∧ s.accepted ⊆ t.accepted ∧
      (delivery ≠ none → msg.sht ≠ integrityProtectedWithNewSecurityContext →
        .secured (ctx.estimatedDownlinkCount msg.sequenceNumber) msg ∈ t.accepted) := by
  have hstatus {s : DownlinkHistory} {ctx : NasSecurityContext} {cause : MmCause}
      {delivery : Option Delivery} (hctx : s.ue.usim.currentNsCtx = some ctx)
      (hintegrity : ctx.integrity ≠ ia0)
      (h : s.ue.sendMmStatus crypto cause = .ok (delivery, ue')) :
      delivery = none ∧
        [DownlinkEvent.rest ue'].foldlM (act crypto config) s = some { s with ue := ue' } := by
    obtain ⟨⟨rc, ue₁⟩, hsend, h⟩ := Fallible.bind_eq_ok.mp h
    obtain ⟨rfl, rfl⟩ := Prod.mk.inj (Except.ok.inj h)
    refine ⟨rfl, ?_⟩
    rw [List.foldlM_cons, act_send hctx hintegrity hsend hsome]
    rfl
  induction depth generalizing s msg ctx with
  | zero => cases h
  | succ depth ih =>
    unfold NasMm.receiveNasMessage at h
    dsimp only at h
    split at h
    · next hsht =>
      obtain ⟨inner, -, h⟩ := Fallible.bind_eq_ok.mp h
      split at h
      · obtain ⟨-, rfl⟩ := Prod.mk.inj (Except.ok.inj h)
        exact ⟨[], s, rfl, rfl, List.Subset.refl _, fun _ hne => absurd hsht hne⟩
      · obtain ⟨rfl, hact⟩ := hstatus hctx hintegrity h
        exact ⟨[.rest ue'], { s with ue := ue' }, hact, rfl, List.Subset.refl _,
          fun hne => absurd rfl hne⟩
    split at h
    · obtain ⟨rfl, hact⟩ := hstatus hctx hintegrity h
      exact ⟨[.rest ue'], { s with ue := ue' }, hact, rfl, List.Subset.refl _,
        fun hne => absurd rfl hne⟩
    rw [hctx] at h
    obtain ⟨⟨verdict, ctx'⟩, hverify, h⟩ := Fallible.bind_eq_ok.mp h
    let behind : DownlinkHistory := ⟨s.ue.setCurrentNsCtx (some ctx'),
      s.accepted ++ acceptedOf (ctx.estimatedDownlinkCount msg.sequenceNumber) msg verdict⟩
    have hcheck : s.act crypto config (.check msg) = some behind := by
      change (s.ue.usim.currentNsCtx >>= _) = _
      rw [hctx]
      change ((ctx.verify crypto msg).toOption >>= _) = _
      rw [hverify]
      rfl
    have hintegrity' : ctx'.integrity ≠ ia0 := by
      rw [NasSecurityContext.verify_frame hverify]
      exact hintegrity
    have hgrows : s.accepted ⊆ behind.accepted := List.subset_append_left _ _
    have hthen {events : List DownlinkEvent} {t : DownlinkHistory}
        (h : events.foldlM (act crypto config) behind = some t) :
        (.check msg :: events).foldlM (act crypto config) s = some t := by
      rw [List.foldlM_cons, hcheck]
      exact h
    cases verdict with
    | replayed =>
      obtain ⟨rfl, rfl⟩ := Prod.mk.inj (Except.ok.inj h)
      exact ⟨[.check msg], behind, hthen rfl, rfl, hgrows, fun hne => absurd rfl hne⟩
    | macFailure =>
      obtain ⟨rfl, hact⟩ := @hstatus behind ctx' _ _ rfl hintegrity' h
      exact ⟨[.check msg, .rest ue'], { behind with ue := ue' }, hthen hact, rfl, hgrows,
        fun hne => absurd rfl hne⟩
    | verified decrypted =>
      have hmem : .secured (ctx.estimatedDownlinkCount msg.sequenceNumber) msg ∈
          behind.accepted := List.mem_append_right _ (List.mem_singleton_self _)
      obtain ⟨inner, -, h⟩ := Fallible.bind_eq_ok.mp h
      cases inner with
      | plainMm msg =>
        obtain ⟨-, rfl⟩ := Prod.mk.inj (Except.ok.inj h)
        exact ⟨[.check _], behind, hthen rfl, rfl, hgrows, fun _ _ => hmem⟩
      | sm pdu =>
        obtain ⟨-, rfl⟩ := Prod.mk.inj (Except.ok.inj h)
        exact ⟨[.check _], behind, hthen rfl, rfl, hgrows, fun _ _ => hmem⟩
      | securedMm inner =>
        obtain ⟨events, t, hevents, hue, hsub, -⟩ := @ih behind inner ctx' rfl hintegrity' h
        exact ⟨.check msg :: events, t, hthen hevents, hue, List.Subset.trans hgrows hsub,
          fun _ _ => hsub hmem⟩

end DownlinkHistory

/-! ## Runs -/

/-- No message is handed on twice, as long as the last count is not forgotten, does not wrap around
and is not taken back, and no Security Mode Command comes twice. -/
theorem downlink_accepted_once {crypto : NasCrypto} {config : SecurityModeConfig}
    {events : List DownlinkEvent} {s : DownlinkHistory}
    (h : (downlinkHistorySystem crypto config).Run (DownlinkHistory.StaysFresh crypto config)
      events s) : s.accepted.Nodup :=
  (DownlinkHistory.Fresh.of_run h).nodup

/-! ## A message that is forgotten -/

/-- A Configuration Update Command of the AMF. -/
def genuineUpdate : AcceptedDownlink := .secured ⟨0, 1⟩ (updateCommand 212)

/-- The UE behind the message. -/
def behindUpdate : DownlinkHistory where
  ue := guardedUe.setCurrentNsCtx (some
    { guardedNsCtx with downlinkCount := ⟨0, 1⟩, lastNasSequenceNums := [1] })
  accepted := [genuineUpdate]

theorem downlink_accepted_once_update : behindUpdate.accepted.Nodup := by
  let start : DownlinkHistory := { ue := guardedUe }
  have hinit : (downlinkHistorySystem summingCrypto oneCapability).init start :=
    ⟨⟨guardedNsCtx, rfl, guardedNsCtx_protecting.integrity⟩, rfl⟩
  have hfresh : start.StaysFresh summingCrypto oneCapability (.check (updateCommand 212)) := by
    intro ctx hctx _ _
    obtain rfl := Option.some.inj hctx
    exact ⟨fun _ _ => List.not_mem_nil, by decide⟩
  have hcheck : start.act summingCrypto oneCapability (.check (updateCommand 212)) =
      some behindUpdate := by
    decide
  exact downlink_accepted_once (System.Run.single hinit hfresh hcheck)

/-- 16 forged messages, with the numbers 2 to 17. -/
def forgedUpdates : List SecuredMmMessage :=
  (List.range 16).map fun i => { updateCommand 0 with sequenceNumber := .ofNat (i + 2) }

/-- A genuine message comes again behind 16 forged ones, which have taken its number out of the
list. -/
def forgettingEvents : List DownlinkEvent :=
  .check (updateCommand 212) :: forgedUpdates.map .check ++ [.check (updateCommand 212)]

theorem downlink_accepted_twice_behind_forged :
    ∃ s, (downlinkHistorySystem summingCrypto oneCapability).Run
        (DownlinkHistory.Honest summingCrypto [(⟨0, 1⟩, updateCommand 212)]) forgettingEvents s ∧
      s.accepted = [genuineUpdate, genuineUpdate] := by
  let act (s : DownlinkHistory) (e : DownlinkEvent) : Option DownlinkHistory :=
    if s.Honest summingCrypto [(⟨0, 1⟩, updateCommand 212)] e then
      s.act summingCrypto oneCapability e else none
  have hrun : (forgettingEvents.foldlM act { ue := guardedUe }).map (·.accepted) =
      some [genuineUpdate, genuineUpdate] := by
    decide
  obtain ⟨s, hs, haccepted⟩ := Option.map_eq_some_iff.mp hrun
  have hinit : (downlinkHistorySystem summingCrypto oneCapability).init { ue := guardedUe } :=
    ⟨⟨guardedNsCtx, rfl, guardedNsCtx_protecting.integrity⟩, rfl⟩
  refine ⟨s, System.run_foldlM (fun s e t hact => ?_) hinit hs, haccepted⟩
  by_cases hhonest : s.Honest summingCrypto [(⟨0, 1⟩, updateCommand 212)] e
  · exact ⟨hhonest, (if_pos hhonest).symm.trans hact⟩
  · exact absurd ((if_neg hhonest).symm.trans hact) (Option.some_ne_none t).symm

end Quicup.Ueransim
