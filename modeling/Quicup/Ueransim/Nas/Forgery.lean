import Quicup.Ueransim.Nas.Reception

/-!
# Forged messages

What messages leave behind whose MACs do not verify. The replay check notes a sequence number
before the MAC is looked at, so that the genuine message with that number is taken for a replay.
Every refusal is answered with a status, which takes an uplink count, and the last count costs the
context.
-/

namespace Quicup.Ueransim

/-- A header type for which no new context is taken into use. -/
def SecuredMmMessage.UnderCurrent (msg : SecuredMmMessage) : Prop :=
  msg.sht ≠ integrityProtectedWithNewSecurityContext ∧
    msg.sht ≠ integrityProtectedAndCipheredWithNewSecurityContext

/-- What decides about the messages that come next. -/
structure NasSecurityContext.SameReception (ctx ctx' : NasSecurityContext) : Prop where
  keys : ctx'.keys = ctx.keys
  integrity : ctx'.integrity = ctx.integrity
  ciphering : ctx'.ciphering = ctx.ciphering
  downlinkCount : ctx'.downlinkCount = ctx.downlinkCount
  lastNasSequenceNums : ctx'.lastNasSequenceNums = ctx.lastNasSequenceNums

namespace NasMm

variable (crypto : NasCrypto) (decoder : NasDecoder) (depth : Nat) (ue : NasMm)

/-- The MAC of a message does not verify. -/
def RefusedForMac (msg : SecuredMmMessage) : Prop :=
  ∃ ctx ctx', ue.usim.currentNsCtx = some ctx ∧ ctx.verify crypto msg = .ok (.macFailure, ctx')

/-- If a message is refused for its MAC, reception goes on as before. -/
def UnharmedBy (msg : SecuredMmMessage) : Prop :=
  ue.RefusedForMac crypto msg → ∃ ue' ctx ctx',
    ue.receiveNasMessage crypto decoder (depth + 1) (.securedMm msg) = .ok (none, ue') ∧
      ue.usim.currentNsCtx = some ctx ∧ ue'.usim.currentNsCtx = some ctx' ∧ ctx.SameReception ctx'

/-- Messages that are received one after the other. -/
def receiveAll (msgs : List SecuredMmMessage) : Except Fault NasMm :=
  msgs.foldlM (fun ue msg =>
    Prod.snd <$> ue.receiveNasMessage crypto decoder (depth + 1) (.securedMm msg)) ue

/-- The checks let a message through. -/
def Accepts (msg : SecuredMmMessage) : Prop :=
  ∃ ctx decrypted ctx', ue.usim.currentNsCtx = some ctx ∧
    ctx.verify crypto msg = .ok (.verified decrypted, ctx')

/-- A message is accepted behind other ones. -/
def AcceptsAfter (msgs : List SecuredMmMessage) (msg : SecuredMmMessage) : Prop :=
  ∃ ue', ue.receiveAll crypto decoder depth msgs = .ok ue' ∧ ue'.Accepts crypto msg

/-- So many statuses can be sent before the uplink counts are at their end. -/
def HasCountsFor (ctx : NasSecurityContext) (statuses : Nat) : Prop :=
  ue.Reaches → ctx.uplinkCount.toNat + statuses ≤ SplitCount.last.toNat

variable {crypto decoder depth ue} {ctx : NasSecurityContext} {msg : SecuredMmMessage}
  {msgs : List SecuredMmMessage}

/-! ## One message -/

theorem receiveNasMessage_underCurrent (hmsg : msg.UnderCurrent)
    (hctx : ue.usim.currentNsCtx = some ctx) {verdict : Verdict} {ctx' : NasSecurityContext}
    (hverify : ctx.verify crypto msg = .ok (verdict, ctx')) (hrefused : ∀ d, verdict ≠ .verified d) :
    ue.receiveNasMessage crypto decoder (depth + 1) (.securedMm msg) =
      if verdict = .replayed then .ok (none, ue.setCurrentNsCtx (some ctx'))
      else (ue.setCurrentNsCtx (some ctx')).sendMmStatus crypto .macFailure := by
  rw [receiveNasMessage]
  dsimp only
  rw [if_neg hmsg.1, if_neg hmsg.2, hctx]
  dsimp only
  rw [hverify, Fallible.ok_bind]
  cases verdict with
  | replayed => rfl
  | macFailure => rfl
  | verified decrypted => exact absurd rfl (hrefused decrypted)

theorem receive_of_mem (hmsg : msg.UnderCurrent) (hctx : ue.usim.currentNsCtx = some ctx)
    (h : ctx.Protecting) (hmem : msg.sequenceNumber ∈ ctx.lastNasSequenceNums) :
    ue.receiveNasMessage crypto decoder (depth + 1) (.securedMm msg) = .ok (none, ue) := by
  rw [receiveNasMessage_underCurrent hmsg hctx (ctx.verify_of_mem h.integrity hmem)
    fun _ heq => Verdict.noConfusion heq, if_pos rfl, setCurrentNsCtx_self hctx]

/-- A forged message is answered with a status. -/
theorem receive_of_forged (hmsg : msg.UnderCurrent) (hctx : ue.usim.currentNsCtx = some ctx)
    (h : ctx.Protecting) (hmem : msg.sequenceNumber ∉ ctx.lastNasSequenceNums)
    (hforged : ¬ctx.Authentic crypto msg) :
    ∃ ue', ue.receiveNasMessage crypto decoder (depth + 1) (.securedMm msg) = .ok (none, ue') ∧
      ue'.usim.currentNsCtx = ue.behindStatus (ctx.noted msg.sequenceNumber) ∧
      ue'.hasActiveCell = ue.hasActiveCell ∧ ue'.cmState = ue.cmState := by
  rw [receiveNasMessage_underCurrent hmsg hctx (NasSecurityContext.verify_of_forged h hmem hforged)
    fun _ heq => Verdict.noConfusion heq, if_neg (by decide)]
  exact sendMmStatus_of_protecting crypto .macFailure rfl (h.noted msg.sequenceNumber)

theorem receive_of_none (hmsg : msg.UnderCurrent) (hctx : ue.usim.currentNsCtx = none) :
    ∃ ue', ue.receiveNasMessage crypto decoder (depth + 1) (.securedMm msg) = .ok (none, ue') ∧
      ue'.usim.currentNsCtx = none := by
  rw [receiveNasMessage]
  dsimp only
  rw [if_neg hmsg.1, if_neg hmsg.2, hctx]
  exact sendMmStatus_of_none crypto _ hctx

theorem refusedForMac_iff (hctx : ue.usim.currentNsCtx = some ctx) (h : ctx.Protecting) :
    ue.RefusedForMac crypto msg ↔
      msg.sequenceNumber ∉ ctx.lastNasSequenceNums ∧ ¬ctx.Authentic crypto msg := by
  constructor
  · rintro ⟨ctx₁, ctx', hctx₁, hverify⟩
    obtain rfl := Option.some.inj (hctx.symm.trans hctx₁)
    by_cases hmem : msg.sequenceNumber ∈ ctx.lastNasSequenceNums
    · rw [ctx.verify_of_mem h.integrity hmem] at hverify
      cases hverify
    · refine ⟨hmem, fun hauthentic => ?_⟩
      obtain ⟨decrypted, hverified⟩ := NasSecurityContext.verify_of_authentic h hmem hauthentic
      rw [hverified] at hverify
      cases hverify
  · rintro ⟨hmem, hforged⟩
    exact ⟨ctx, _, hctx, NasSecurityContext.verify_of_forged h hmem hforged⟩

theorem accepts_iff (hctx : ue.usim.currentNsCtx = some ctx) (h : ctx.Protecting) :
    ue.Accepts crypto msg ↔
      msg.sequenceNumber ∉ ctx.lastNasSequenceNums ∧ ctx.Authentic crypto msg := by
  constructor
  · rintro ⟨ctx₁, decrypted, ctx', hctx₁, hverify⟩
    obtain rfl := Option.some.inj (hctx.symm.trans hctx₁)
    by_cases hmem : msg.sequenceNumber ∈ ctx.lastNasSequenceNums
    · rw [ctx.verify_of_mem h.integrity hmem] at hverify
      cases hverify
    · refine ⟨hmem, by_contra fun hforged => ?_⟩
      rw [NasSecurityContext.verify_of_forged h hmem hforged] at hverify
      cases hverify
  · rintro ⟨hmem, hauthentic⟩
    obtain ⟨decrypted, hverified⟩ := NasSecurityContext.verify_of_authentic h hmem hauthentic
    exact ⟨ctx, decrypted, _, hctx, hverified⟩

/-- A message that is refused for its MAC is noted, which is not as before. -/
theorem unharmedBy_iff (hmsg : msg.UnderCurrent) (hctx : ue.usim.currentNsCtx = some ctx)
    (h : ctx.Protecting) :
    ue.UnharmedBy crypto decoder depth msg ↔
      msg.sequenceNumber ∈ ctx.lastNasSequenceNums ∨ ctx.Authentic crypto msg := by
  rw [UnharmedBy, refusedForMac_iff hctx h]
  constructor
  · intro hunharmed
    by_contra hnot
    obtain ⟨hmem, hforged⟩ := not_or.mp hnot
    obtain ⟨ue', ctx₁, ctx', hreceive, hctx₁, hctx', hsame⟩ := hunharmed ⟨hmem, hforged⟩
    obtain rfl := Option.some.inj (hctx.symm.trans hctx₁)
    obtain ⟨ue₁, hreceive₁, hbehind, -⟩ :=
      @receive_of_forged crypto decoder depth ue ctx msg hmsg hctx h hmem hforged
    obtain ⟨-, rfl⟩ := Prod.mk.inj (Except.ok.inj (hreceive.symm.trans hreceive₁))
    have hlist : ctx'.lastNasSequenceNums =
        Recent.note lastNasSequenceNumsMax ctx.lastNasSequenceNums msg.sequenceNumber := by
      rw [hctx'] at hbehind
      unfold behindStatus at hbehind
      split at hbehind
      · split at hbehind
        · cases hbehind
        · exact congrArg _ (Option.some.inj hbehind)
      · exact congrArg _ (Option.some.inj hbehind)
    rw [hsame.lastNasSequenceNums] at hlist
    exact hmem ((Recent.note_eq_self_iff (by decide)).mp hlist.symm)
  · rintro (hmem | hauthentic) ⟨hnew, hforged⟩
    · exact absurd hmem hnew
    · exact absurd hauthentic hforged

/-! ## Any number of them -/

theorem receiveAll_cons (msgs : List SecuredMmMessage) {ue' : NasMm} {delivery : Option Delivery}
    (h : ue.receiveNasMessage crypto decoder (depth + 1) (.securedMm msg) = .ok (delivery, ue')) :
    ue.receiveAll crypto decoder depth (msg :: msgs) = ue'.receiveAll crypto decoder depth msgs := by
  rw [receiveAll, List.foldlM_cons, h]
  rfl

theorem receiveAll_of_none (hmsgs : ∀ msg ∈ msgs, msg.UnderCurrent)
    (hctx : ue.usim.currentNsCtx = none) :
    ∃ ue', ue.receiveAll crypto decoder depth msgs = .ok ue' ∧ ue'.usim.currentNsCtx = none := by
  induction msgs generalizing ue with
  | nil => exact ⟨ue, rfl, hctx⟩
  | cons msg msgs ih =>
    obtain ⟨hmsg, hmsgs⟩ := List.forall_mem_cons.mp hmsgs
    obtain ⟨ue', hreceive, hctx'⟩ := receive_of_none hmsg hctx
    rw [receiveAll_cons msgs hreceive]
    exact ih hmsgs hctx'

/-- Behind forged messages their sequence numbers are noted, as long as there are uplink counts for
the statuses. -/
theorem receiveAll_forged (hctx : ue.usim.currentNsCtx = some ctx) (h : ctx.Protecting)
    (hmsgs : ∀ msg ∈ msgs, msg.UnderCurrent) (hforged : ∀ msg ∈ msgs, ¬ctx.Authentic crypto msg) :
    ∃ ue', ue.receiveAll crypto decoder depth msgs = .ok ue' ∧
      (ue.HasCountsFor ctx (Recent.newCount lastNasSequenceNumsMax ctx.lastNasSequenceNums
          (msgs.map SecuredMmMessage.sequenceNumber)) →
        ∃ uplinkCount, ue'.usim.currentNsCtx = some { ctx with
          uplinkCount
          lastNasSequenceNums := Recent.noteAll lastNasSequenceNumsMax ctx.lastNasSequenceNums
            (msgs.map SecuredMmMessage.sequenceNumber) }) ∧
      (¬ue.HasCountsFor ctx (Recent.newCount lastNasSequenceNumsMax ctx.lastNasSequenceNums
          (msgs.map SecuredMmMessage.sequenceNumber)) →
        ue'.usim.currentNsCtx = none) := by
  induction msgs generalizing ue ctx with
  | nil =>
    refine ⟨ue, rfl, fun _ => ⟨ctx.uplinkCount, hctx⟩, fun hnot => absurd ?_ hnot⟩
    intro _
    rw [List.map_nil, Recent.newCount, Nat.add_zero]
    exact ctx.uplinkCount.toNat_le_last
  | cons msg msgs ih =>
    obtain ⟨hmsg, hmsgs⟩ := List.forall_mem_cons.mp hmsgs
    obtain ⟨hforged₁, hforged⟩ := List.forall_mem_cons.mp hforged
    rw [List.map_cons, Recent.newCount]
    by_cases hmem : msg.sequenceNumber ∈ ctx.lastNasSequenceNums
    · have hnoteAll : Recent.noteAll lastNasSequenceNumsMax ctx.lastNasSequenceNums
          (msg.sequenceNumber :: msgs.map SecuredMmMessage.sequenceNumber) =
          Recent.noteAll lastNasSequenceNumsMax ctx.lastNasSequenceNums
            (msgs.map SecuredMmMessage.sequenceNumber) := by
        rw [Recent.noteAll, List.foldl_cons, Recent.note_of_mem hmem]
        rfl
      rw [receiveAll_cons msgs (receive_of_mem hmsg hctx h hmem), hnoteAll, if_pos hmem,
        Nat.zero_add, Recent.note_of_mem hmem]
      exact ih hctx h hmsgs hforged
    · obtain ⟨ue₁, hreceive, hbehind, hcell, hcm⟩ :=
        @receive_of_forged crypto decoder depth ue ctx msg hmsg hctx h hmem hforged₁
      have hreaches : ue₁.Reaches ↔ ue.Reaches := by rw [Reaches, Reaches, hcell, hcm]
      rw [receiveAll_cons msgs hreceive, if_neg hmem]
      unfold behindStatus at hbehind
      by_cases hgoes : ue.Reaches
      · rw [if_pos hgoes] at hbehind
        change _ = if ctx.uplinkCount = .last then _ else _ at hbehind
        by_cases hlast : ctx.uplinkCount = .last
        · -- there is no count for the status, and the context is gone
          rw [if_pos hlast] at hbehind
          obtain ⟨ue', hrun, hnone⟩ := receiveAll_of_none hmsgs hbehind
          refine ⟨ue', hrun, fun hcounts => ?_, fun _ => hnone⟩
          have hle := hcounts hgoes
          rw [hlast] at hle
          omega
        · rw [if_neg hlast] at hbehind
          have hnext := SplitCount.toNat_next hlast
          obtain ⟨ue', hrun, hkept, hlost⟩ :=
            ih hbehind (h.noted msg.sequenceNumber).countOnEncrypt hmsgs hforged
          have hiff (k : Nat) : ue₁.HasCountsFor (ctx.noted msg.sequenceNumber).countOnEncrypt k ↔
              ue.HasCountsFor ctx (1 + k) := by
            unfold HasCountsFor
            rw [hreaches, show (ctx.noted msg.sequenceNumber).countOnEncrypt.uplinkCount =
              ctx.uplinkCount.next from rfl, hnext, Nat.add_assoc]
          exact ⟨ue', hrun, fun hcounts => hkept ((hiff _).mpr hcounts),
            fun hnot => hlost (mt (hiff _).mp hnot)⟩
      · rw [if_neg hgoes] at hbehind
        obtain ⟨ue', hrun, hkept, -⟩ := ih hbehind (h.noted msg.sequenceNumber) hmsgs hforged
        refine ⟨ue', hrun, fun _ => ?_, fun hnot => absurd (fun hgoes' => absurd hgoes' hgoes) hnot⟩
        exact hkept fun hgoes₁ => absurd (hreaches.mp hgoes₁) hgoes

/-- Behind forged messages a genuine one is accepted if and only if its sequence number is not
among those noted, and the statuses did not take the last uplink count. -/
theorem acceptsAfter_iff (hctx : ue.usim.currentNsCtx = some ctx) (h : ctx.Protecting)
    (hmsgs : ∀ msg ∈ msgs, msg.UnderCurrent) (hforged : ∀ msg ∈ msgs, ¬ctx.Authentic crypto msg)
    (hauthentic : ctx.Authentic crypto msg) :
    ue.AcceptsAfter crypto decoder depth msgs msg ↔
      msg.sequenceNumber ∉ Recent.noteAll lastNasSequenceNumsMax ctx.lastNasSequenceNums
          (msgs.map SecuredMmMessage.sequenceNumber) ∧
        ue.HasCountsFor ctx (Recent.newCount lastNasSequenceNumsMax ctx.lastNasSequenceNums
          (msgs.map SecuredMmMessage.sequenceNumber)) := by
  obtain ⟨ue', hrun, hkept, hlost⟩ :=
    @receiveAll_forged crypto decoder depth ue ctx msgs hctx h hmsgs hforged
  have hafter : ue.AcceptsAfter crypto decoder depth msgs msg ↔ ue'.Accepts crypto msg := by
    constructor
    · rintro ⟨ue₁, hrun₁, haccepts⟩
      obtain rfl := Except.ok.inj (hrun.symm.trans hrun₁)
      exact haccepts
    · exact fun haccepts => ⟨ue', hrun, haccepts⟩
  rw [hafter]
  constructor
  · intro haccepts
    by_cases hcounts : ue.HasCountsFor ctx (Recent.newCount lastNasSequenceNumsMax
      ctx.lastNasSequenceNums (msgs.map SecuredMmMessage.sequenceNumber))
    · obtain ⟨uplinkCount, hctx'⟩ := hkept hcounts
      exact ⟨((accepts_iff hctx' ⟨h.integrity, h.integrity_le, h.ciphering_le, h.kNasInt⟩).mp
        haccepts).1, hcounts⟩
    · obtain ⟨ctx₁, decrypted, ctx', hctx₁, -⟩ := haccepts
      rw [hlost hcounts] at hctx₁
      cases hctx₁
  · rintro ⟨hmem, hcounts⟩
    obtain ⟨uplinkCount, hctx'⟩ := hkept hcounts
    exact (accepts_iff hctx' ⟨h.integrity, h.integrity_le, h.ciphering_le, h.kNasInt⟩).mpr
      ⟨hmem, hauthentic⟩

/-- Under a context whose messages are checked, the messages that leave nothing behind when they
are refused for their MACs are those that are not refused for them. Behind forged messages a genuine
one is accepted exactly if its sequence number was not noted and the uplink counts were enough. -/
theorem forgeries_harmless_iff (hctx : ue.usim.currentNsCtx = some ctx) (h : ctx.Protecting) :
    (∀ msg, msg.UnderCurrent → (ue.UnharmedBy crypto decoder depth msg ↔
      msg.sequenceNumber ∈ ctx.lastNasSequenceNums ∨ ctx.Authentic crypto msg)) ∧
    ∀ forged genuine, (∀ msg ∈ forged, msg.UnderCurrent) →
      (∀ msg ∈ forged, ¬ctx.Authentic crypto msg) → ctx.Authentic crypto genuine →
      (ue.AcceptsAfter crypto decoder depth forged genuine ↔
        genuine.sequenceNumber ∉ Recent.noteAll lastNasSequenceNumsMax ctx.lastNasSequenceNums
            (forged.map SecuredMmMessage.sequenceNumber) ∧
          ue.HasCountsFor ctx (Recent.newCount lastNasSequenceNumsMax ctx.lastNasSequenceNums
            (forged.map SecuredMmMessage.sequenceNumber))) :=
  ⟨fun _ hmsg => unharmedBy_iff hmsg hctx h,
    fun _ _ hforged hfails hauthentic => acceptsAfter_iff hctx h hforged hfails hauthentic⟩

end NasMm

/-! ## A sequence number that a forged message has taken -/

/-- MACs that add the octets to the count, and no ciphers. -/
def summingCrypto : NasCrypto where
  computeMacEia _ count _ _ data _ := data.foldl (fun sum octet => sum + octet.toUInt32) count
  encryptEea _ _ _ _ data _ := data
  decryptEea _ _ _ _ data _ := data
  hmacSha256 _ _ := .replicate 32 0

/-- A decoder that knows no Security Mode Commands. -/
def bareDecoder : NasDecoder where
  securityModeCommand _ := .error .exception
  otherMm _ _ := .ok ()
  sm _ := .ok ()

def guardedNsCtx : NasSecurityContext where
  integrity := 2
  keys := { kNasInt := [1] }

theorem guardedNsCtx_protecting : guardedNsCtx.Protecting :=
  ⟨by decide, by decide, by decide, List.cons_ne_nil _ _⟩

def guardedUe : NasMm where
  usim := { currentNsCtx := some guardedNsCtx }

/-- A Configuration Update Command at the count 1, with some MAC. -/
def updateCommand (messageAuthenticationCode : UInt32) : SecuredMmMessage where
  sht := integrityProtectedAndCiphered
  messageAuthenticationCode
  sequenceNumber := 1
  plainNasMessage := [0x7E, 0, 0x54]

theorem updateCommand_underCurrent (mac : UInt32) : (updateCommand mac).UnderCurrent :=
  ⟨(by decide : integrityProtectedAndCiphered ≠ integrityProtectedWithNewSecurityContext),
    (by decide : integrityProtectedAndCiphered ≠
      integrityProtectedAndCipheredWithNewSecurityContext)⟩

theorem updateCommand_genuine : guardedNsCtx.Authentic summingCrypto (updateCommand 212) := by
  decide

theorem updateCommand_forged : ¬guardedNsCtx.Authentic summingCrypto (updateCommand 0) := by
  decide

theorem forgeries_harmless_iff_guarded :
    (guardedUe.UnharmedBy summingCrypto bareDecoder 0 (updateCommand 212) ↔
      (updateCommand 212).sequenceNumber ∈ guardedNsCtx.lastNasSequenceNums ∨
        guardedNsCtx.Authentic summingCrypto (updateCommand 212)) ∧
    (guardedUe.AcceptsAfter summingCrypto bareDecoder 0 [updateCommand 0] (updateCommand 212) ↔
      (updateCommand 212).sequenceNumber ∉ Recent.noteAll lastNasSequenceNumsMax
          guardedNsCtx.lastNasSequenceNums [(updateCommand 0).sequenceNumber] ∧
        guardedUe.HasCountsFor guardedNsCtx (Recent.newCount lastNasSequenceNumsMax
          guardedNsCtx.lastNasSequenceNums [(updateCommand 0).sequenceNumber])) := by
  have hiff := @NasMm.forgeries_harmless_iff summingCrypto bareDecoder 0 guardedUe guardedNsCtx rfl
    guardedNsCtx_protecting
  refine ⟨hiff.1 _ (updateCommand_underCurrent 212), hiff.2 [_] _ ?_ ?_ updateCommand_genuine⟩
  · exact List.forall_mem_singleton.mpr (updateCommand_underCurrent 0)
  · exact List.forall_mem_singleton.mpr updateCommand_forged

/-- A forged message takes the sequence number of the genuine one, which is refused behind it. -/
theorem genuine_refused_after_forged :
    guardedUe.AcceptsAfter summingCrypto bareDecoder 0 [] (updateCommand 212) ∧
      ¬guardedUe.UnharmedBy summingCrypto bareDecoder 0 (updateCommand 0) ∧
      ¬guardedUe.AcceptsAfter summingCrypto bareDecoder 0 [updateCommand 0] (updateCommand 212) := by
  have hbehind (forged : List SecuredMmMessage) (hmsgs : ∀ msg ∈ forged, msg.UnderCurrent)
      (hforged : ∀ msg ∈ forged, ¬guardedNsCtx.Authentic summingCrypto msg) :=
    @NasMm.acceptsAfter_iff summingCrypto bareDecoder 0 guardedUe guardedNsCtx _ forged rfl
      guardedNsCtx_protecting hmsgs hforged updateCommand_genuine
  refine ⟨(hbehind [] (List.forall_mem_nil _) (List.forall_mem_nil _)).mpr
    ⟨List.not_mem_nil, fun _ => by decide⟩, fun hunharmed => ?_, fun haccepts => ?_⟩
  · have hnoted := (NasMm.unharmedBy_iff (updateCommand_underCurrent 0) rfl
      guardedNsCtx_protecting).mp hunharmed
    exact hnoted.elim List.not_mem_nil updateCommand_forged
  · have hnoted := ((hbehind [updateCommand 0]
      (List.forall_mem_singleton.mpr (updateCommand_underCurrent 0))
      (List.forall_mem_singleton.mpr updateCommand_forged)).mp haccepts).1
    exact hnoted (by decide)

end Quicup.Ueransim
