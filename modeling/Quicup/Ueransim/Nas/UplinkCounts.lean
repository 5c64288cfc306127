import Quicup.Core.KeyedCounts
import Quicup.Ueransim.Nas.Forgery

/-!
# Uplink counts of the UE

Messages that are handed to RRC under a context have its K_NASint and its uplink count. The count
goes up with each message. It is taken back for containers, where RRC fails to establish a
connection, and by Security Mode Commands. A command takes the non-current context into use with
the first count, also where messages have had its keys already.
-/

namespace Quicup.Ueransim

/-! ## Handlers -/

namespace NasMm

variable (crypto : NasCrypto) (ue : NasMm)

/-- `sendInitialRegistration` behind its checks, with `onSwitchMmState`. -/
def sendInitialRegistration (request : RegistrationRequest) : Except Fault NasMm := do
  let ue := ue.setCurrentNsCtx none
  let (rc, ue) ← ue.sendNasMessage crypto (.initial (.registrationRequest request))
  if rc ≠ .ok then return ue
  else
    let usim := if ue.mmState = .deregistered then
        { ue.usim with currentNsCtx := none, nonCurrentNsCtx := none }
      else ue.usim
    return { ue with
      usim
      mmState := .registeredInitiated
      lastRegistrationRequest := some request
      lastRegWithoutNsc := usim.currentNsCtx.isNone }

/-- The NAS count of `handleRrcEstablishmentFailure`. -/
def handleRrcEstablishmentFailure : NasMm :=
  match ue.protectingNsCtx with
  | none => ue
  | some ctx =>
    if ctx.uplinkCount.sqn ≠ 0 ∧ ctx.uplinkCount.overflow ≠ 0 then
      ue.setCurrentNsCtx (some ctx.rollbackCountOnEncrypt)
    else ue

/-- The context in force is gone, or has the same K_NASint and uplink count. -/
def KeepsUplink (ue ue' : NasMm) : Prop :=
  ∀ ctx' ∈ ue'.protectingNsCtx, ∃ ctx ∈ ue.protectingNsCtx,
    ctx'.uplinkCount = ctx.uplinkCount ∧ ctx'.keys.kNasInt = ctx.keys.kNasInt

instance (ue' : NasMm) : Decidable (ue.KeepsUplink ue') :=
  inferInstanceAs (Decidable (∀ ctx' ∈ ue'.protectingNsCtx, ∃ ctx ∈ ue.protectingNsCtx, _ ∧ _))

end NasMm

/-! ## Histories -/

/-- A protected message, with the K_NASint and the uplink count of the context behind it. -/
structure ProtectedUplink where
  kNasInt : OctetString
  uplinkCount : NasCount
  nasPdu : OctetString
  deriving DecidableEq

/-- The key and the number of a message. -/
def ProtectedUplink.used (msg : ProtectedUplink) : OctetString × Nat :=
  (msg.kNasInt, msg.uplinkCount.toNat)

/-- What has been handed to RRC under a context between two states. -/
def NasMm.newlyProtected (ue ue' : NasMm) : List ProtectedUplink :=
  match ue.protectingNsCtx with
  | none => []
  | some ctx => (ue'.rrcTask.drop ue.rrcTask.length).filterMap fun
    | .uplinkNasDelivery _ nasPdu => some ⟨ctx.keys.kNasInt, ctx.uplinkCount, nasPdu⟩
    | .localReleaseConnection _ => none

/-- The UE, and the protected messages that it has handed to RRC. -/
structure UplinkHistory where
  ue : NasMm
  handedOver : List ProtectedUplink := []
  deriving DecidableEq

inductive UplinkEvent
  | send (msg : UplinkMmMessage)
  | command (msg : SecurityModeCommand)
  | authenticate (f : MilenageFunctions) (config : AuthConfig) (currentPlmn : Option Plmn)
      (nwConsecutiveAuthFailure : Nat) (msg : AuthenticationRequest)
  | initialRegistration (request : RegistrationRequest)
  | establishmentFailure
  /-- All else, which takes the context in force for no message. It may delete it. -/
  | rest (ue : NasMm)

namespace UplinkHistory

variable (crypto : NasCrypto) (config : SecurityModeConfig) (s : UplinkHistory)

/-- The history behind a message that was sent in a state. -/
def behind (ue ue' : NasMm) : UplinkHistory := ⟨ue', s.handedOver ++ ue.newlyProtected ue'⟩

def act : UplinkEvent → Option UplinkHistory
  | .send msg => do
    let (_, ue) ← (s.ue.sendNasMessage crypto msg).toOption
    return s.behind s.ue ue
  | .command msg => do
    let (_, usim) ← (s.ue.usim.securityModeCommand crypto config s.ue.hasEmergency msg).toOption
    let ue ← (s.ue.receiveSecurityModeCommand crypto config msg).toOption
    return s.behind { s.ue with usim } ue
  | .authenticate f authConfig currentPlmn nwConsecutiveAuthFailure msg => do
    let auth : UeAuth := { usim := s.ue.usim, currentPlmn, nwConsecutiveAuthFailure }
    let (_, auth) ← (auth.receiveAuthenticationRequest5gAka crypto f authConfig msg).toOption
    return { s with ue := { s.ue with usim := auth.usim } }
  | .initialRegistration request => do
    let ue ← (s.ue.sendInitialRegistration crypto request).toOption
    return s.behind (s.ue.setCurrentNsCtx none) ue
  | .establishmentFailure => some { s with ue := s.ue.handleRrcEstablishmentFailure }
  | .rest ue => if s.ue.KeepsUplink ue then some { s with ue } else none

/-- The keys and numbers of all messages. -/
def used : List (OctetString × Nat) := s.handedOver.map ProtectedUplink.used

/-- A Security Mode Command that is accepted selects no K_NASint under which a message has had the
uplink count that it leaves, or a later one. Where RRC fails, no message has had the count that is
taken back. -/
def StaysAbove (s : UplinkHistory) : UplinkEvent → Prop
  | .command msg => ∀ which ctx clearNasCount,
      s.ue.usim.Takes crypto config s.ue.hasEmergency msg which ctx clearNasCount →
      msg.integrity ≠ ia0 ∨ msg.ciphering ≠ ea0 →
      KeyedCounts.Below s.used (ctx.selectedKNasInt crypto msg)
        (ctx.commandedUplinkCount msg which).toNat
  | .establishmentFailure => ∀ ctx ∈ s.ue.protectingNsCtx,
      ctx.uplinkCount.sqn ≠ 0 ∧ ctx.uplinkCount.overflow ≠ 0 →
      KeyedCounts.Below s.used ctx.keys.kNasInt ctx.uplinkCount.back.toNat
  | _ => True

end UplinkHistory

/-- All that the UE does, from any state on. -/
def uplinkHistorySystem (crypto : NasCrypto) (config : SecurityModeConfig) :
    System UplinkHistory UplinkEvent where
  init s := s.handedOver = []
  step s e t := s.act crypto config e = some t

namespace UplinkHistory

variable {crypto : NasCrypto} {config : SecurityModeConfig} {s t : UplinkHistory}

/-! ## Steps -/

/-- The count of the context in force is above all that messages have had under its K_NASint. -/
structure Ahead (s : UplinkHistory) : Prop where
  nodup : s.used.Nodup
  below : ∀ ctx ∈ s.ue.protectingNsCtx,
    KeyedCounts.Below s.used ctx.keys.kNasInt ctx.uplinkCount.toNat

theorem Ahead.rest (h : s.Ahead) {ue : NasMm} (hkeeps : s.ue.KeepsUplink ue) :
    ({ s with ue } : UplinkHistory).Ahead := by
  refine ⟨h.nodup, fun ctx' hctx' => ?_⟩
  obtain ⟨ctx, hctx, hcount, hkey⟩ := hkeeps ctx' hctx'
  rw [hcount, hkey]
  exact h.below ctx hctx

end UplinkHistory

variable {ue ue' : NasMm}

theorem NasMm.KeepsUplink.of_eq (h : ue'.usim.currentNsCtx = ue.usim.currentNsCtx) :
    ue.KeepsUplink ue' := by
  intro ctx hctx
  refine ⟨ctx, ?_, rfl, rfl⟩
  rwa [NasMm.protectingNsCtx, h] at hctx

theorem NasMm.KeepsUplink.of_none (h : ue'.protectingNsCtx = none) : ue.KeepsUplink ue' := by
  intro ctx hctx
  rw [h] at hctx
  cases hctx

theorem NasMm.KeepsUplink.trans {ue₁ ue₂ ue₃ : NasMm} (h : ue₁.KeepsUplink ue₂)
    (h' : ue₂.KeepsUplink ue₃) : ue₁.KeepsUplink ue₃ := by
  intro ctx₃ hctx₃
  obtain ⟨ctx₂, hctx₂, hcount, hkey⟩ := h' ctx₃ hctx₃
  obtain ⟨ctx₁, hctx₁, hcount', hkey'⟩ := h ctx₂ hctx₂
  exact ⟨ctx₁, hctx₁, hcount.trans hcount', hkey.trans hkey'⟩

theorem NasMm.KeepsUplink.verify {crypto : NasCrypto} {ctx ctx' : NasSecurityContext}
    {msg : SecuredMmMessage} {verdict : Verdict} (hctx : ue.usim.currentNsCtx = some ctx)
    (h : ctx.verify crypto msg = .ok (verdict, ctx')) :
    ue.KeepsUplink (ue.setCurrentNsCtx (some ctx')) := by
  have hframe := NasSecurityContext.verify_frame h
  intro behind hbehind
  obtain ⟨hsome, hprotects⟩ := Option.filter_eq_some_iff.mp hbehind
  obtain rfl := Option.some.inj hsome
  have hprotects' : (decide (ctx.integrity ≠ ia0 ∨ ctx.ciphering ≠ ea0)) = true := by
    rw [hframe] at hprotects
    exact hprotects
  refine ⟨ctx, Option.filter_eq_some_iff.mpr ⟨hctx, hprotects'⟩, ?_, ?_⟩
  · rw [hframe]
  · rw [hframe]

/-- What the UE receives keeps the K_NASint and the uplink count, unless a status is sent at the
end. -/
theorem NasMm.receiveNasMessage_keepsUplink {crypto : NasCrypto} {decoder : NasDecoder}
    {depth : Nat} {ue ue' : NasMm} {msg : NasMessage} {delivery : Option Delivery}
    (h : ue.receiveNasMessage crypto decoder depth msg = .ok (delivery, ue')) :
    ∃ ue₁, ue.KeepsUplink ue₁ ∧
      (ue' = ue₁ ∨ ∃ rc reply, ue₁.sendNasMessage crypto reply = .ok (rc, ue')) := by
  have hself (ue : NasMm) : ue.KeepsUplink ue := .of_eq rfl
  have hstatus {ue ue' : NasMm} {cause : MmCause} {delivery : Option Delivery}
      (h : ue.sendMmStatus crypto cause = .ok (delivery, ue')) :
      ∃ rc reply, ue.sendNasMessage crypto reply = .ok (rc, ue') := by
    obtain ⟨⟨rc, ue₁⟩, hsend, h⟩ := Fallible.bind_eq_ok.mp h
    obtain ⟨-, rfl⟩ := Prod.mk.inj (Except.ok.inj h)
    exact ⟨rc, _, hsend⟩
  -- protected messages may hold protected ones
  induction depth generalizing ue msg with
  | zero => cases h
  | succ depth ih =>
    cases msg with
    | sm pdu => exact ⟨ue, hself ue, .inr (hstatus h)⟩
    | plainMm msg =>
      unfold receiveNasMessage at h
      dsimp only at h
      split at h
      · obtain ⟨-, rfl⟩ := Prod.mk.inj (Except.ok.inj h)
        exact ⟨ue, hself ue, .inl rfl⟩
      · obtain ⟨-, rfl⟩ := Prod.mk.inj (Except.ok.inj h)
        exact ⟨ue, hself ue, .inl rfl⟩
    | securedMm msg =>
      unfold receiveNasMessage at h
      dsimp only at h
      split at h
      · obtain ⟨inner, -, h⟩ := Fallible.bind_eq_ok.mp h
        split at h
        · obtain ⟨-, rfl⟩ := Prod.mk.inj (Except.ok.inj h)
          exact ⟨ue, hself ue, .inl rfl⟩
        · exact ⟨ue, hself ue, .inr (hstatus h)⟩
      split at h
      · exact ⟨ue, hself ue, .inr (hstatus h)⟩
      split at h
      · exact ⟨ue, hself ue, .inr (hstatus h)⟩
      next ctx hctx =>
      obtain ⟨⟨verdict, ctx'⟩, hverify, h⟩ := Fallible.bind_eq_ok.mp h
      have hkeeps : ue.KeepsUplink (ue.setCurrentNsCtx (some ctx')) := .verify hctx hverify
      cases verdict with
      | replayed =>
        obtain ⟨-, rfl⟩ := Prod.mk.inj (Except.ok.inj h)
        exact ⟨_, hkeeps, .inl rfl⟩
      | macFailure => exact ⟨_, hkeeps, .inr (hstatus h)⟩
      | verified decrypted =>
        obtain ⟨inner, -, h⟩ := Fallible.bind_eq_ok.mp h
        cases inner with
        | plainMm msg =>
          obtain ⟨-, rfl⟩ := Prod.mk.inj (Except.ok.inj h)
          exact ⟨_, hkeeps, .inl rfl⟩
        | securedMm msg =>
          obtain ⟨ue₁, hkeeps', hsent⟩ := ih h
          exact ⟨ue₁, hkeeps.trans hkeeps', hsent⟩
        | sm pdu =>
          obtain ⟨-, rfl⟩ := Prod.mk.inj (Except.ok.inj h)
          exact ⟨_, hkeeps, .inl rfl⟩

namespace UplinkHistory

variable {crypto : NasCrypto} {config : SecurityModeConfig} {s t : UplinkHistory} {ue' : NasMm}

/-- Where nothing was handed over, the history is the one before. -/
theorem Ahead.behind_of_nil (h : s.Ahead) (hkeeps : s.ue.KeepsUplink ue')
    (hnew : s.ue.newlyProtected ue' = []) : (s.behind s.ue ue').Ahead := by
  have hrest := h.rest hkeeps
  rw [behind, hnew, List.append_nil]
  exact hrest

theorem Ahead.send (h : s.Ahead) {msg : UplinkMmMessage} {rc : ProcRc}
    (hsend : s.ue.sendNasMessage crypto msg = .ok (rc, ue')) : (s.behind s.ue ue').Ahead := by
  cases NasMm.sendNasMessage_eq_ok hsend with
  | aborted husim htask =>
    apply h.behind_of_nil (.of_eq (by rw [husim]))
    unfold NasMm.newlyProtected
    rw [htask, List.drop_length]
    cases s.ue.protectingNsCtx <;> rfl
  | wrap hctx hlast =>
    apply h.behind_of_nil (.of_none rfl)
    simp [NasMm.newlyProtected, hctx, NasMm.localReleaseConnection, NasMm.pushToRrc,
      NasMm.setCurrentNsCtx]
  | plain hnone hplain =>
    refine h.behind_of_nil (.of_eq ?_) ?_
    · rfl
    · rw [NasMm.newlyProtected, hnone]
  | @secured ctx secured ctx' pdu hctx hlast hprotect hpdu =>
    obtain ⟨_, _, _, _, hencrypt, -, -⟩ := NasCrypto.protect_eq_ok hprotect
    obtain ⟨rfl, -⟩ := NasCrypto.encrypt_eq_ok hencrypt
    have hbelow := h.below ctx hctx
    have hnew : s.ue.newlyProtected
        ((s.ue.setCurrentNsCtx (some ctx.countOnEncrypt)).pushToRrc (.uplinkNasDelivery 0 pdu)) =
          [⟨ctx.keys.kNasInt, ctx.uplinkCount, pdu⟩] := by
      simp [NasMm.newlyProtected, hctx, NasMm.pushToRrc, NasMm.setCurrentNsCtx]
    have hused : (s.behind s.ue ((s.ue.setCurrentNsCtx (some ctx.countOnEncrypt)).pushToRrc
        (.uplinkNasDelivery 0 pdu))).used = s.used ++ [(ctx.keys.kNasInt, ctx.uplinkCount.toNat)] := by
      rw [used, behind, hnew, List.map_append]
      rfl
    constructor
    · rw [hused]
      exact hbelow.nodup_use h.nodup
    · intro ctx' hctx'
      obtain ⟨hsome, -⟩ := Option.filter_eq_some_iff.mp hctx'
      obtain rfl := Option.some.inj hsome
      rw [hused, show ctx.countOnEncrypt.uplinkCount.toNat = ctx.uplinkCount.toNat + 1 from
        SplitCount.toNat_next hlast]
      exact hbelow.use

/-- What a command makes of the contexts, before it is answered. -/
theorem Ahead.commanded (h : s.Ahead) {msg : SecurityModeCommand} {answer : SecurityModeAnswer}
    {usim : Usim} (habove : s.StaysAbove crypto config (.command msg))
    (hcommand : s.ue.usim.securityModeCommand crypto config s.ue.hasEmergency msg =
      .ok (answer, usim)) :
    ({ s with ue := { s.ue with usim } } : UplinkHistory).Ahead := by
  cases Usim.securityModeCommand_eq_ok hcommand with
  | refused cause => exact h.rest (.of_eq rfl)
  | notTaken cause hemergency =>
    apply h.rest
    unfold Usim.prepared
    split
    · exact .of_none rfl
    · exact .of_eq rfl
  | @taken which ctx clearNasCount htakes =>
    refine ⟨h.nodup, fun ctx' hctx' => ?_⟩
    obtain ⟨hsome, hprotects⟩ := Option.filter_eq_some_iff.mp hctx'
    have hprocess := @NasSecurityContext.process_kNasInt crypto ctx msg clearNasCount
    have hcount := @NasSecurityContext.process_uplinkCount crypto ctx msg clearNasCount
    obtain ⟨hkey, hcount', hintegrity, hciphering⟩ :
        ctx'.keys.kNasInt = ctx.selectedKNasInt crypto msg ∧
          ctx'.uplinkCount = ctx.commandedUplinkCount msg which ∧
          ctx'.integrity = msg.integrity ∧ ctx'.ciphering = msg.ciphering := by
      unfold NasSecurityContext.commandedUplinkCount
      cases which with
      | current =>
        obtain rfl := Option.some.inj hsome
        refine ⟨hprocess, hcount.trans ?_, rfl, rfl⟩
        simp
      | nonCurrent =>
        obtain rfl := Option.some.inj hsome
        exact ⟨hprocess, (if_pos (.inl rfl)).symm, rfl, rfl⟩
    rw [hkey, hcount']
    apply habove which ctx clearNasCount htakes
    simpa [hintegrity, hciphering] using hprotects

theorem Ahead.initialRegistration (h : s.Ahead) {request : RegistrationRequest}
    (hregister : s.ue.sendInitialRegistration crypto request = .ok ue') :
    (s.behind (s.ue.setCurrentNsCtx none) ue').Ahead := by
  have hnew : (s.ue.setCurrentNsCtx none).newlyProtected ue' = [] := rfl
  obtain ⟨⟨rc, ue₁⟩, hsend, hregister⟩ := Fallible.bind_eq_ok.mp hregister
  have hnone : ue₁.usim.currentNsCtx = none := by
    cases NasMm.sendNasMessage_eq_ok hsend with
    | aborted husim _ => exact congrArg Usim.currentNsCtx husim
    | wrap hctx _ => cases hctx
    | secured hctx _ _ _ => cases hctx
    | plain _ _ => rfl
  have hnone' : ue'.usim.currentNsCtx = none := by
    dsimp only at hregister
    split at hregister
    · exact Except.ok.inj hregister ▸ hnone
    · obtain rfl := Except.ok.inj hregister
      dsimp only
      split
      · rfl
      · exact hnone
  have hnone'' : ue'.protectingNsCtx = none := by
    rw [NasMm.protectingNsCtx, hnone']
    rfl
  rw [behind, hnew, List.append_nil]
  exact h.rest (.of_none hnone'')

theorem Ahead.establishmentFailure (h : s.Ahead)
    (habove : s.StaysAbove crypto config .establishmentFailure) :
    ({ s with ue := s.ue.handleRrcEstablishmentFailure } : UplinkHistory).Ahead := by
  unfold NasMm.handleRrcEstablishmentFailure
  split
  · exact h
  · next ctx hctx =>
    split
    · next hcount =>
      refine ⟨h.nodup, fun ctx' hctx' => ?_⟩
      obtain ⟨hsome, -⟩ := Option.filter_eq_some_iff.mp hctx'
      obtain rfl := Option.some.inj hsome
      exact habove ctx hctx hcount
    · exact h

theorem Ahead.step (h : s.Ahead) {e : UplinkEvent} (habove : s.StaysAbove crypto config e)
    (hstep : s.act crypto config e = some t) : t.Ahead := by
  cases e with
  | send msg =>
    obtain ⟨⟨rc, ue'⟩, hsend, ht⟩ := Option.bind_eq_some_iff.mp hstep
    obtain rfl := Option.some.inj ht
    exact h.send (Fallible.toOption_eq_some.mp hsend)
  | command msg =>
    obtain ⟨⟨answer, usim⟩, hcommand, hstep⟩ := Option.bind_eq_some_iff.mp hstep
    obtain ⟨ue', hreceive, ht⟩ := Option.bind_eq_some_iff.mp hstep
    obtain rfl := Option.some.inj ht
    have hcommand := Fallible.toOption_eq_some.mp hcommand
    obtain ⟨rc, reply, hsend⟩ := NasMm.receiveSecurityModeCommand_eq_ok hcommand
      (Fallible.toOption_eq_some.mp hreceive)
    exact (h.commanded habove hcommand).send hsend
  | authenticate f authConfig currentPlmn failures msg =>
    obtain ⟨⟨answer, auth⟩, hauth, ht⟩ := Option.bind_eq_some_iff.mp hstep
    obtain rfl := Option.some.inj ht
    have hkept := UeAuth.receiveAuthenticationRequest5gAka_currentNsCtx
      (Fallible.toOption_eq_some.mp hauth)
    exact h.rest (.of_eq hkept)
  | initialRegistration request =>
    obtain ⟨ue', hregister, ht⟩ := Option.bind_eq_some_iff.mp hstep
    obtain rfl := Option.some.inj ht
    exact h.initialRegistration (Fallible.toOption_eq_some.mp hregister)
  | establishmentFailure =>
    obtain rfl := Option.some.inj hstep
    exact h.establishmentFailure habove
  | rest ue =>
    unfold act at hstep
    dsimp only at hstep
    split at hstep
    · next hkeeps =>
      obtain rfl := Option.some.inj hstep
      exact h.rest hkeeps
    · cases hstep

theorem Ahead.of_run {events : List UplinkEvent}
    (h : (uplinkHistorySystem crypto config).Run (StaysAbove crypto config) events s) :
    s.Ahead := by
  apply h.invariant
  · intro s hinit
    have hused : s.used = [] := congrArg (List.map ProtectedUplink.used) hinit
    exact ⟨hused ▸ List.nodup_nil, fun ctx hctx => hused ▸ KeyedCounts.below_nil⟩
  · exact fun s e t hahead habove hstep => hahead.step habove hstep

end UplinkHistory

/-- No two protected messages have the same K_NASint and uplink count, as long as what takes the
count back leaves it above the messages under the K_NASint. -/
theorem uplink_counts_once {crypto : NasCrypto} {config : SecurityModeConfig}
    {events : List UplinkEvent} {s : UplinkHistory}
    (h : (uplinkHistorySystem crypto config).Run (UplinkHistory.StaysAbove crypto config) events s) :
    (s.handedOver.map fun msg => (msg.kNasInt, msg.uplinkCount)).Nodup := by
  have hnodup := (UplinkHistory.Ahead.of_run h).nodup
  apply List.Nodup.of_map fun pair => (pair.1, SplitCount.toNat pair.2)
  rw [List.map_map]
  exact hnodup

/-! ## A command that is replayed -/

/-- Algorithms where the keys depend on the K_AMF. -/
def keyedCrypto : NasCrypto where
  computeMacEia := summingCrypto.computeMacEia
  encryptEea := summingCrypto.encryptEea
  decryptEea := summingCrypto.decryptEea
  hmacSha256 key _ := .ofFn fun i => key.getD i 0

def oneCapability : SecurityModeConfig where
  securityCapability := [0xF0]

/-- A UE behind its authentication. -/
def authenticatedUe : NasMm where
  usim := { nonCurrentNsCtx := some { ngKsi := 1, keys := { kAmf := List.replicate 32 1 } } }

/-- A Security Mode Command of the AMF, at the downlink count 0. -/
def genuineCommand : SecurityModeCommand where
  integrity := 2
  ciphering := 0
  tsc := .native
  ksi := 1
  replayedUeSecurityCapabilities := [0xF0]
  macForNewSC := 219
  originalPlainNasPdu := [0x7E, 0, 0x5D]

def historyBehind (events : List UplinkEvent) (s : UplinkHistory) : UplinkHistory :=
  (events.foldlM (UplinkHistory.act keyedCrypto oneCapability) s).getD s

/-- The UE behind a status that it has sent. -/
def behindStatusEvents : UplinkHistory :=
  historyBehind [.command genuineCommand, .send (NasMm.fiveGMmStatus .macFailure)]
    { ue := authenticatedUe }

theorem uplink_counts_once_behind_command :
    (behindStatusEvents.handedOver.map fun msg => (msg.kNasInt, msg.uplinkCount)).Nodup := by
  let start : UplinkHistory := { ue := authenticatedUe }
  let middle : UplinkHistory := historyBehind [.command genuineCommand] start
  have hinit : (uplinkHistorySystem keyedCrypto oneCapability).init start := rfl
  have hfirst : start.StaysAbove keyedCrypto oneCapability (.command genuineCommand) :=
    fun _ _ _ _ _ => KeyedCounts.below_nil
  have hcommand : start.act keyedCrypto oneCapability (.command genuineCommand) = some middle := by
    decide
  have hsecond : middle.StaysAbove keyedCrypto oneCapability
      (.send (NasMm.fiveGMmStatus .macFailure)) := trivial
  have hstatus : middle.act keyedCrypto oneCapability
      (.send (NasMm.fiveGMmStatus .macFailure)) = some behindStatusEvents := by
    decide
  exact uplink_counts_once ((System.Run.single hinit hfirst hcommand).snoc hsecond hstatus)

/-- The UE has left the cell, deregistered. -/
def deregisteredUe : NasMm :=
  { behindStatusEvents.ue with mmState := .deregistered, hasActiveCell := false }

/-- The UE behind an initial registration that did not go out, in a cell again. -/
def reenteredUe : NasMm :=
  { (historyBehind [.initialRegistration {}] { ue := deregisteredUe }).ue with
    hasActiveCell := true }

/-- The command is replayed once the context in force is gone, and another status is sent. -/
def replayEvents : List UplinkEvent :=
  [.command genuineCommand, .send (NasMm.fiveGMmStatus .macFailure), .rest deregisteredUe,
    .initialRegistration {}, .rest reenteredUe, .command genuineCommand,
    .send (NasMm.fiveGMmStatus .unspecifiedProtocolError)]

/-- Behind the replayed command another message has the K_NASint and the count of one before. -/
theorem uplink_count_twice_behind_replay :
    ∃ s, (uplinkHistorySystem keyedCrypto oneCapability).Run System.unrestricted replayEvents s ∧
      ∃ first ∈ s.handedOver, ∃ second ∈ s.handedOver, first.nasPdu ≠ second.nasPdu ∧
        first.kNasInt = second.kNasInt ∧ first.uplinkCount = second.uplinkCount := by
  have hrun : replayEvents.foldlM (UplinkHistory.act keyedCrypto oneCapability)
      { ue := authenticatedUe } = some (historyBehind replayEvents { ue := authenticatedUe }) := by
    decide
  refine ⟨historyBehind replayEvents { ue := authenticatedUe },
    System.run_foldlM (fun _ _ _ h => ⟨trivial, h⟩) rfl hrun, ?_⟩
  decide

end Quicup.Ueransim
