import Quicup.Ueransim.Nas.SecurityMode

/-!
# What a Security Mode Command leaves of the contexts

A command that is turned down is to leave the contexts as they were. One that is taken is to change
the algorithms, the keys and the counts of the context that it names, and nothing else. But an
emergency command that is turned down leaves the derived context for the current one, and the copy
of a context that was not current has neither its ABBA nor its K_AKMA.
-/

namespace Quicup.Ueransim

/-! ## Frames -/

/-- A context is as it was, or with one uplink count spent. -/
def SpendsAtMostOne (ctx ctx' : Option NasSecurityContext) : Prop :=
  ctx' = ctx ∨ ctx' = ctx.map NasSecurityContext.countOnEncrypt

instance (ctx ctx' : Option NasSecurityContext) : Decidable (SpendsAtMostOne ctx ctx') :=
  inferInstanceAs (Decidable (_ ∨ _))

/-- A context in use agrees with the one that a command names, but for the algorithms, the keys
that they have, the K_AMF behind a horizontal derivation, an ABBA of the command, and the counts. -/
structure NasSecurityContext.TakenAs (crypto : NasCrypto) (msg : SecurityModeCommand)
    (named ctx : NasSecurityContext) : Prop where
  tsc : ctx.tsc = named.tsc
  ngKsi : ctx.ngKsi = named.ngKsi
  is3gppAccess : ctx.is3gppAccess = named.is3gppAccess
  lastNasSequenceNums : ctx.lastNasSequenceNums = named.lastNasSequenceNums
  integrity : ctx.integrity = msg.integrity
  ciphering : ctx.ciphering = msg.ciphering
  kAusf : ctx.keys.kAusf = named.keys.kAusf
  kSeaf : ctx.keys.kSeaf = named.keys.kSeaf
  kAkma : ctx.keys.kAkma = named.keys.kAkma
  abba : msg.abba = none → ctx.keys.abba = named.keys.abba
  kAmf : ctx.keys.kAmf = named.derivedKAmf crypto msg
  nasKeys : (crypto.deriveNasKeys ctx).keys = ctx.keys

namespace NasMm

variable (crypto : NasCrypto) (config : SecurityModeConfig) (ue : NasMm) (msg : SecurityModeCommand)

/-- A command is answered, and a state is behind the answer. With the last uplink count there is no
answer: the context is given up instead. -/
structure Answers (answer : SecurityModeAnswer) (ue' : NasMm) : Prop where
  received : ue.receiveSecurityModeCommand crypto config msg = .ok ue'
  decided : ∃ usim, ue.usim.securityModeCommand crypto config ue.hasEmergency msg =
    .ok (answer, usim) ∧ ∀ ctx ∈ ({ ue with usim } : NasMm).protectingNsCtx, ctx.uplinkCount ≠ .last

/-- A command that is turned down leaves the contexts, and one that is taken leaves of the context
that it names what it does not select. -/
structure KeepsContexts : Prop where
  rejected : ∀ cause ue', ue.Answers crypto config msg (.reject cause) ue' →
    SpendsAtMostOne ue.usim.currentNsCtx ue'.usim.currentNsCtx ∧
      ue'.usim.nonCurrentNsCtx = ue.usim.nonCurrentNsCtx
  completed : ∀ ue', ue.Answers crypto config msg .complete ue' → ∃ which named ctx,
    (ue.usim.prepared msg).findSecurityContext msg.ksi = some (which, named) ∧
      ue'.usim.currentNsCtx = some ctx ∧ named.TakenAs crypto msg ctx

/-- An emergency command that is turned down for the replayed capabilities, when the current
context is another one than that which the UE derives. -/
def LosesCurrent : Prop :=
  msg.tsc = .native ∧ msg.isForLocal = true ∧ ue.hasEmergency = true ∧
    msg.replayedUeSecurityCapabilities ≠ config.securityCapability ∧
    ¬SpendsAtMostOne ue.usim.currentNsCtx (some locallyDeriveNsc)

/-- A command that is taken for a context that is not current and has a K_AKMA, or an ABBA that
the command does not replace. -/
def LosesKeys : Prop :=
  ∃ ctx clearNasCount,
    ue.usim.Takes crypto config ue.hasEmergency msg .nonCurrent ctx clearNasCount ∧
      (ctx.keys.kAkma ≠ [] ∨ msg.abba = none ∧ ctx.keys.abba ≠ [])

end NasMm

/-! ## Contexts that are taken -/

namespace NasSecurityContext

variable {crypto : NasCrypto} {msg : SecurityModeCommand} {named ctx : NasSecurityContext}

theorem takenAs_process (clearNasCount : Bool) :
    named.TakenAs crypto msg (named.process crypto msg clearNasCount) := by
  constructor
  all_goals
    unfold process
    cases clearNasCount <;> cases hhdp : msg.horizontalDeriveNeeded <;>
      simp +contextual [select, NasCrypto.deriveNasKeys, derivedKAmf, hhdp]

/-- The counts are of no account. -/
theorem TakenAs.setUplinkCount (h : named.TakenAs crypto msg ctx) (uplinkCount : NasCount) :
    named.TakenAs crypto msg { ctx with uplinkCount } :=
  ⟨h.tsc, h.ngKsi, h.is3gppAccess, h.lastNasSequenceNums, h.integrity, h.ciphering, h.kAusf,
    h.kSeaf, h.kAkma, h.abba, h.kAmf, h.nasKeys⟩

theorem takenAs_countOnEncrypt_iff :
    named.TakenAs crypto msg ctx.countOnEncrypt ↔ named.TakenAs crypto msg ctx :=
  ⟨fun h => h.setUplinkCount ctx.uplinkCount, fun h => h.setUplinkCount ctx.uplinkCount.next⟩

/-- A copy has all that is asked for, where there is no K_AKMA and no ABBA to be kept. -/
theorem TakenAs.deepCopy_iff (h : named.TakenAs crypto msg ctx) :
    named.TakenAs crypto msg ctx.deepCopy ↔
      named.keys.kAkma = [] ∧ (msg.abba = none → named.keys.abba = []) := by
  constructor
  · intro hcopy
    exact ⟨hcopy.kAkma.symm, fun hnone => (hcopy.abba hnone).symm⟩
  · rintro ⟨hkAkma, habba⟩
    exact ⟨h.tsc, h.ngKsi, h.is3gppAccess, h.lastNasSequenceNums, h.integrity, h.ciphering, h.kAusf,
      h.kSeaf, hkAkma.symm, fun hnone => (habba hnone).symm, h.kAmf,
      congrArg UeKeys.deepCopy h.nasKeys⟩

end NasSecurityContext

namespace Usim

variable {crypto : NasCrypto} {config : SecurityModeConfig} {hasEmergency : Bool} {usim : Usim}
  {msg : SecurityModeCommand} {which : WhichCtx} {ctx : NasSecurityContext} {clearNasCount : Bool}

/-- A command that passes all checks is taken. -/
theorem Takes.securityModeCommand (h : usim.Takes crypto config hasEmergency msg which ctx clearNasCount) :
    usim.securityModeCommand crypto config hasEmergency msg =
      .ok (.complete, (usim.prepared msg).takeIntoUse which (ctx.process crypto msg clearNasCount)) := by
  have hprepared : (if msg.isForLocal = true then
      { usim.forgetRand with currentNsCtx := some locallyDeriveNsc } else usim.forgetRand) =
      usim.prepared msg := rfl
  have hlocal : ¬(msg.isForLocal && !hasEmergency) = true := by
    cases hfor : msg.isForLocal with
    | false => simp
    | true => simp [h.isForLocal hfor]
  have hnull : ¬(msg.integrity = ia0 ∧ (!(hasEmergency || msg.isForLocal)) = true) := by
    rintro ⟨hia0, hnot⟩
    simp [h.null hia0] at hnot
  have halgorithms : ¬(lastAlgorithm < msg.integrity ∨ lastAlgorithm < msg.ciphering) :=
    not_or.mpr ⟨UInt8.not_lt.mpr h.integrity_le, UInt8.not_lt.mpr h.ciphering_le⟩
  unfold Usim.securityModeCommand
  dsimp only
  rw [hprepared, if_neg (by simp [h.isValidKsi]), if_neg hlocal, h.found]
  dsimp only
  rw [if_neg (not_not.mpr h.capabilities), if_neg halgorithms, if_neg hnull, h.checked]
  rfl

/-- A command that is not to be looked at leaves the contexts. -/
theorem securityModeCommand_of_invalid
    (h : ¬(msg.isValidKsi = true ∧ (msg.isForLocal = true → hasEmergency = true))) :
    usim.securityModeCommand crypto config hasEmergency msg =
      .ok (.reject .secModeRejectedUnspecified, usim.forgetRand) := by
  unfold securityModeCommand
  cases hvalid : msg.isValidKsi with
  | false => rfl
  | true =>
    have hlocal : msg.isForLocal = true ∧ hasEmergency = false := by
      simpa [hvalid, Classical.not_imp] using h
    rw [if_neg (by simp), if_pos (by simp [hlocal])]

theorem ksi_of_isForLocal (h : msg.isForLocal = true) : msg.ksi = 0 ∧ msg.integrity = ia0 ∧
    msg.ciphering = ea0 := by
  simpa [SecurityModeCommand.isForLocal, and_assoc] using h

/-- The derived context is the one that an emergency command is for. -/
theorem findSecurityContext_local (h : msg.isForLocal = true) :
    (usim.prepared msg).findSecurityContext msg.ksi = some (.current, locallyDeriveNsc) := by
  rw [prepared, if_pos h, (ksi_of_isForLocal h).1]
  rfl

/-- An emergency command is taken, if its capabilities are those of the UE. -/
theorem takes_local (hvalid : msg.isValidKsi = true) (hlocal : msg.isForLocal = true)
    (hcapabilities : msg.replayedUeSecurityCapabilities = config.securityCapability) :
    usim.Takes crypto config true msg .current locallyDeriveNsc false := by
  obtain ⟨-, hintegrity, hciphering⟩ := ksi_of_isForLocal hlocal
  exact
    { isValidKsi := hvalid
      isForLocal := fun _ => rfl
      found := findSecurityContext_local hlocal
      capabilities := hcapabilities
      integrity_le := by rw [hintegrity]; decide
      ciphering_le := by rw [hciphering]; decide
      null := fun _ => rfl
      checked := if_pos hintegrity }

theorem securityModeCommand_local (hvalid : msg.isValidKsi = true) (hlocal : msg.isForLocal = true)
    (hcapabilities : msg.replayedUeSecurityCapabilities ≠ config.securityCapability) :
    usim.securityModeCommand crypto config true msg =
      .ok (.reject .ueSecurityCapMismatch, usim.prepared msg) := by
  have hfound : ({ usim.forgetRand with currentNsCtx := some locallyDeriveNsc } :
      Usim).findSecurityContext msg.ksi = some (.current, locallyDeriveNsc) := by
    have h : (usim.prepared msg).findSecurityContext msg.ksi = _ := findSecurityContext_local hlocal
    rwa [prepared, if_pos hlocal] at h
  unfold securityModeCommand
  dsimp only
  rw [if_neg (by simp [hvalid]), if_neg (by simp), if_pos hlocal, hfound]
  dsimp only
  rw [if_pos hcapabilities, prepared, if_pos hlocal]

end Usim

/-! ## Answers -/

theorem NasCrypto.returns_encrypt {crypto : NasCrypto} {ctx : NasSecurityContext}
    {plainNasMessage : OctetString} {msgType : UInt8} {bypassCiphering noCipheredHeader : Bool}
    (hintegrity : ctx.integrity ≤ lastAlgorithm) (hciphering : ctx.ciphering ≤ lastAlgorithm) :
    Fallible.Returns
      (crypto.encrypt ctx plainNasMessage msgType bypassCiphering noCipheredHeader) := by
  have hdata (data : OctetString) : Fallible.Returns (crypto.encryptData ctx.ciphering
      ctx.uplinkCount ctx.is3gppAccess data ctx.keys.kNasEnc) := by
    unfold encryptData
    rw [if_neg (UInt8.not_lt.mpr hciphering)]
    split <;> exact Fallible.returns_ok _
  have hmac (data : OctetString) : Fallible.Returns (crypto.computeMac ctx.integrity
      ctx.uplinkCount ctx.is3gppAccess true ctx.keys.kNasInt data) := by
    unfold computeMac
    rw [if_neg (UInt8.not_lt.mpr hintegrity)]
    split <;> exact Fallible.returns_ok _
  have hrest (data : OctetString) : Fallible.Returns (crypto.computeMac ctx.integrity
      ctx.uplinkCount ctx.is3gppAccess true ctx.keys.kNasInt data >>= fun mac =>
        .ok ((⟨makeSecurityHeaderType ctx msgType noCipheredHeader, mac, ctx.uplinkCount.sqn,
          data⟩ : SecuredMmMessage), ctx.countOnEncrypt)) := by
    obtain ⟨mac, hmac⟩ := hmac data
    exact Fallible.returns_bind.mpr ⟨mac, hmac, Fallible.returns_ok _⟩
  unfold encrypt
  cases bypassCiphering with
  | true => exact hrest plainNasMessage
  | false =>
    obtain ⟨data, hdata⟩ := hdata plainNasMessage
    exact Fallible.returns_bind.mpr ⟨data, hdata, hrest data⟩

namespace NasMm

variable {crypto : NasCrypto} {config : SecurityModeConfig} {ue ue' : NasMm}
  {msg : SecurityModeCommand} {answer : SecurityModeAnswer} {ctx : NasSecurityContext}

/-- With a count left, a message takes one of the current context, if it takes any. -/
theorem sendNasMessage_usim {reply : UplinkMmMessage} {rc : ProcRc}
    (h : ue.sendNasMessage crypto reply = .ok (rc, ue'))
    (hcount : ∀ ctx ∈ ue.protectingNsCtx, ctx.uplinkCount ≠ .last) :
    ue'.usim = ue.usim ∨ ∃ ctx ∈ ue.protectingNsCtx,
      ue'.usim = { ue.usim with currentNsCtx := some ctx.countOnEncrypt } := by
  cases sendNasMessage_eq_ok h with
  | aborted husim _ => exact .inl husim
  | wrap hctx hlast => exact absurd hlast (hcount _ hctx)
  | secured hctx _ hprotect _ =>
    obtain ⟨plain, msgType, bypass, noCiphered, hencrypt, -⟩ := NasCrypto.protect_eq_ok hprotect
    rw [(NasCrypto.encrypt_eq_ok hencrypt).1]
    exact .inr ⟨_, hctx, rfl⟩
  | plain _ _ => exact .inl rfl

/-- A message other than the initial ones is sent, or is not, but without an exception. -/
theorem returns_sendNasMessage {reply : OtherMmMessage}
    (h : ∀ ctx ∈ ue.protectingNsCtx, reply.messageType = securityModeCompleteType ∧
      ctx.integrity ≤ lastAlgorithm ∧ ctx.ciphering ≤ lastAlgorithm) :
    Fallible.Returns (ue.sendNasMessage crypto (.other reply)) := by
  unfold sendNasMessage
  split
  · exact Fallible.returns_ok _
  split
  · split <;> exact Fallible.returns_ok _
  split
  next ctx hctx =>
    obtain ⟨htype, hintegrity, hciphering⟩ := h ctx hctx
    split
    · exact Fallible.returns_ok _
    have hprotect : crypto.protect ctx ue.cmState (.other reply) =
        crypto.encrypt ctx (UplinkMmMessage.other reply).encode reply.messageType false false := by
      cases ue.cmState <;> rfl
    obtain ⟨⟨secured, ctx'⟩, hencrypt⟩ : Fallible.Returns (crypto.encrypt ctx
        (UplinkMmMessage.other reply).encode reply.messageType false false) :=
      NasCrypto.returns_encrypt hintegrity hciphering
    have hsht : secured.sht = integrityProtectedAndCipheredWithNewSecurityContext := by
      rw [(NasCrypto.encrypt_eq_ok hencrypt).2.2.1, NasCrypto.makeSecurityHeaderType, if_pos htype]
    have hencode : Fallible.Returns secured.encode := by
      unfold SecuredMmMessage.encode
      rw [hsht]
      exact Fallible.returns_ok _
    obtain ⟨pdu, hpdu⟩ := hencode
    rw [hprotect, hencrypt, Fallible.ok_bind]
    exact Fallible.returns_bind.mpr ⟨pdu, hpdu, Fallible.returns_ok _⟩
  next hnone => exact Fallible.returns_ok _

/-- What is behind an answer is what the command has left, but for a count. -/
theorem Answers.usim (h : ue.Answers crypto config msg answer ue') :
    ∃ usim, ue.usim.securityModeCommand crypto config ue.hasEmergency msg = .ok (answer, usim) ∧
      (ue'.usim = usim ∨ ∃ ctx ∈ ({ ue with usim } : NasMm).protectingNsCtx,
        ue'.usim = { usim with currentNsCtx := some ctx.countOnEncrypt }) := by
  obtain ⟨usim, hdecided, hcount⟩ := h.decided
  obtain ⟨rc, reply, hsend⟩ := receiveSecurityModeCommand_eq_ok hdecided h.received
  exact ⟨usim, hdecided, sendNasMessage_usim hsend hcount⟩

theorem currentNsCtx_of_protecting (h : ctx ∈ ue.protectingNsCtx) :
    ue.usim.currentNsCtx = some ctx :=
  (Option.mem_filter_iff.mp h).1

/-- A command that is decided on is answered. -/
theorem answers_of_decided {usim : Usim}
    (hdecided : ue.usim.securityModeCommand crypto config ue.hasEmergency msg = .ok (answer, usim))
    (h : ∀ ctx ∈ ({ ue with usim } : NasMm).protectingNsCtx, answer = .complete ∧
      ctx.uplinkCount ≠ .last ∧ ctx.integrity ≤ lastAlgorithm ∧ ctx.ciphering ≤ lastAlgorithm) :
    ∃ ue', ue.Answers crypto config msg answer ue' := by
  have hreturns : Fallible.Returns (ue.receiveSecurityModeCommand crypto config msg) := by
    unfold receiveSecurityModeCommand
    rw [hdecided, Fallible.ok_bind]
    have hsend (reply : OtherMmMessage)
        (hreply : answer = .complete → reply.messageType = securityModeCompleteType) :
        Fallible.Returns (({ ue with usim } : NasMm).sendNasMessage crypto (.other reply)) :=
      returns_sendNasMessage fun ctx hctx => ⟨hreply (h ctx hctx).1, (h ctx hctx).2.2⟩
    cases answer with
    | reject cause =>
      obtain ⟨r, hr⟩ := hsend { messageType := securityModeRejectType, ies := [cause.code] }
        (fun hcomplete => by cases hcomplete)
      exact Fallible.returns_bind.mpr ⟨r, hr, Fallible.returns_ok _⟩
    | complete =>
      obtain ⟨reply, hreply, htype⟩ : ∃ reply : OtherMmMessage,
          ({ ue with usim } : NasMm).securityModeComplete config msg = .other reply ∧
            reply.messageType = securityModeCompleteType := ⟨_, rfl, rfl⟩
      obtain ⟨r, hr⟩ := hsend reply fun _ => htype
      rw [← hreply] at hr
      exact Fallible.returns_bind.mpr ⟨r, hr, Fallible.returns_ok _⟩
  obtain ⟨ue', hue'⟩ := hreturns
  exact ⟨ue', hue', usim, hdecided, fun ctx hctx => (h ctx hctx).2.1⟩

/-! ## What is kept -/

/-- The derived context does not protect, so that a reject is sent as it is. -/
theorem protectingNsCtx_prepared {usim : Usim} (hlocal : msg.isForLocal = true) :
    ({ ue with usim := usim.prepared msg } : NasMm).protectingNsCtx = none := by
  unfold protectingNsCtx Usim.prepared
  rw [if_pos hlocal]
  rfl

/-- A command that loses the current context is answered with a reject behind it. -/
theorem LosesCurrent.not_keepsContexts (h : ue.LosesCurrent config msg) :
    ¬ue.KeepsContexts crypto config msg := by
  obtain ⟨htsc, hlocal, hemergency, hcapabilities, hcurrent⟩ := h
  have hvalid : msg.isValidKsi = true := by
    simp [SecurityModeCommand.isValidKsi, htsc, (Usim.ksi_of_isForLocal hlocal).1,
      notAvailableOrReserved]
  have hdecided : ue.usim.securityModeCommand crypto config ue.hasEmergency msg =
      .ok (.reject .ueSecurityCapMismatch, ue.usim.prepared msg) := by
    rw [hemergency]
    exact Usim.securityModeCommand_local hvalid hlocal hcapabilities
  have hnone : ({ ue with usim := ue.usim.prepared msg } : NasMm).protectingNsCtx = none :=
    protectingNsCtx_prepared hlocal
  intro hkeeps
  obtain ⟨ue', hanswers⟩ := answers_of_decided hdecided
    (by rw [hnone]; exact fun ctx hctx => absurd hctx (Option.not_mem_none ctx))
  obtain ⟨usim, hdecided', husim⟩ := hanswers.usim
  obtain ⟨-, rfl⟩ := Prod.mk.inj (Except.ok.inj (hdecided.symm.trans hdecided'))
  rcases husim with husim | ⟨ctx, hctx, -⟩
  · have hspends := (hkeeps.rejected _ _ hanswers).1
    rw [husim, Usim.prepared, if_pos hlocal] at hspends
    exact hcurrent hspends
  · rw [hnone] at hctx
    exact Option.not_mem_none ctx hctx

/-- The context that is in use behind a command. -/
theorem currentNsCtx_takeIntoUse {usim : Usim} :
    (usim.takeIntoUse .nonCurrent ctx).currentNsCtx =
      some { ctx with uplinkCount := {} }.deepCopy := rfl

/-- A command that loses keys is taken, and they are not in the copy. -/
theorem LosesKeys.not_keepsContexts (h : ue.LosesKeys crypto config msg) :
    ¬ue.KeepsContexts crypto config msg := by
  obtain ⟨named, clearNasCount, htakes, hlost⟩ := h
  have htaken : named.TakenAs crypto msg (named.process crypto msg clearNasCount) :=
    NasSecurityContext.takenAs_process clearNasCount
  intro hkeeps
  obtain ⟨ue', hanswers⟩ := answers_of_decided htakes.securityModeCommand (fun ctx hctx => by
    obtain rfl := Option.some.inj (currentNsCtx_of_protecting hctx)
    refine ⟨rfl, fun hlast => ?_, ?_, ?_⟩
    · cases hlast
    · exact htaken.integrity ▸ htakes.integrity_le
    · exact htaken.ciphering ▸ htakes.ciphering_le)
  obtain ⟨usim, hdecided, husim⟩ := hanswers.usim
  obtain ⟨-, rfl⟩ := Prod.mk.inj (Except.ok.inj (htakes.securityModeCommand.symm.trans hdecided))
  obtain ⟨which, named', ctx, hfound, hctx, htakenAs⟩ := hkeeps.completed _ hanswers
  obtain ⟨rfl, rfl⟩ := Prod.mk.inj (Option.some.inj (htakes.found.symm.trans hfound))
  have hcopy : named.TakenAs crypto msg
      { named.process crypto msg clearNasCount with uplinkCount := {} }.deepCopy := by
    rcases husim with husim | ⟨protecting, hprotecting, husim⟩
    · rw [husim, currentNsCtx_takeIntoUse] at hctx
      exact Option.some.inj hctx ▸ htakenAs
    · obtain rfl := Option.some.inj (currentNsCtx_of_protecting hprotecting)
      rw [husim] at hctx
      exact NasSecurityContext.takenAs_countOnEncrypt_iff.mp (Option.some.inj hctx ▸ htakenAs)
  obtain ⟨hkAkma, habba⟩ := (htaken.setUplinkCount {}).deepCopy_iff.mp hcopy
  rcases hlost with hlost | ⟨hnone, hlost⟩
  · exact hlost hkAkma
  · exact hlost (habba hnone)

theorem rejected_of_not_losesCurrent (h : ¬ue.LosesCurrent config msg) {cause : MmCause}
    (hanswers : ue.Answers crypto config msg (.reject cause) ue') :
    SpendsAtMostOne ue.usim.currentNsCtx ue'.usim.currentNsCtx ∧
      ue'.usim.nonCurrentNsCtx = ue.usim.nonCurrentNsCtx := by
  obtain ⟨usim, hdecided, husim⟩ := hanswers.usim
  have hsame (hforget : usim = ue.usim.forgetRand) :
      SpendsAtMostOne ue.usim.currentNsCtx ue'.usim.currentNsCtx ∧
        ue'.usim.nonCurrentNsCtx = ue.usim.nonCurrentNsCtx := by
    subst hforget
    rcases husim with husim | ⟨ctx, hctx, husim⟩
    · rw [husim]
      exact ⟨.inl rfl, rfl⟩
    · have hcurrent : ue.usim.currentNsCtx = some ctx := currentNsCtx_of_protecting hctx
      rw [husim, hcurrent]
      exact ⟨.inr rfl, rfl⟩
  by_cases hok : msg.isValidKsi = true ∧ (msg.isForLocal = true → ue.hasEmergency = true)
  · obtain ⟨hvalid, hemergency⟩ := hok
    by_cases hlocal : msg.isForLocal = true
    · rw [hemergency hlocal] at hdecided
      by_cases hcapabilities : msg.replayedUeSecurityCapabilities = config.securityCapability
      · have hcomplete := (Usim.takes_local hvalid hlocal hcapabilities).securityModeCommand.symm.trans
          hdecided
        cases (Prod.mk.inj (Except.ok.inj hcomplete)).1
      · have htsc : msg.tsc = .native := by
          simp only [SecurityModeCommand.isValidKsi, Bool.and_eq_true, decide_eq_true_eq] at hvalid
          exact hvalid.1
        have hcurrent : SpendsAtMostOne ue.usim.currentNsCtx (some locallyDeriveNsc) := by
          by_contra hlost
          exact h ⟨htsc, hlocal, hemergency hlocal, hcapabilities, hlost⟩
        obtain ⟨-, rfl⟩ := Prod.mk.inj (Except.ok.inj
          ((Usim.securityModeCommand_local hvalid hlocal hcapabilities).symm.trans hdecided))
        rcases husim with husim | ⟨ctx, hctx, -⟩
        · rw [husim, Usim.prepared, if_pos hlocal]
          exact ⟨hcurrent, rfl⟩
        · rw [protectingNsCtx_prepared hlocal] at hctx
          exact absurd hctx (Option.not_mem_none ctx)
    · cases Usim.securityModeCommand_eq_ok hdecided with
      | refused _ => exact hsame rfl
      | notTaken _ _ => exact hsame (if_neg hlocal)
  · obtain ⟨-, rfl⟩ := Prod.mk.inj (Except.ok.inj
      ((Usim.securityModeCommand_of_invalid hok).symm.trans hdecided))
    exact hsame rfl

theorem completed_of_not_losesKeys (h : ¬ue.LosesKeys crypto config msg)
    (hanswers : ue.Answers crypto config msg .complete ue') :
    ∃ which named ctx, (ue.usim.prepared msg).findSecurityContext msg.ksi = some (which, named) ∧
      ue'.usim.currentNsCtx = some ctx ∧ named.TakenAs crypto msg ctx := by
  obtain ⟨usim, hdecided, husim⟩ := hanswers.usim
  -- the count that the answer takes is of no account
  have hbehind {named ctx : NasSecurityContext} (hctx : usim.currentNsCtx = some ctx)
      (htaken : named.TakenAs crypto msg ctx) :
      ∃ ctx, ue'.usim.currentNsCtx = some ctx ∧ named.TakenAs crypto msg ctx := by
    rcases husim with husim | ⟨protecting, hprotecting, husim⟩
    · exact ⟨ctx, husim ▸ hctx, htaken⟩
    · obtain rfl := Option.some.inj (hctx.symm.trans (currentNsCtx_of_protecting hprotecting))
      rw [husim]
      exact ⟨_, rfl, NasSecurityContext.takenAs_countOnEncrypt_iff.mpr htaken⟩
  generalize hanswer : SecurityModeAnswer.complete = answer at hdecided
  cases Usim.securityModeCommand_eq_ok hdecided with
  | refused cause => cases hanswer
  | notTaken cause _ => cases hanswer
  | @taken which named clearNasCount htakes =>
    have htaken : named.TakenAs crypto msg (named.process crypto msg clearNasCount) :=
      NasSecurityContext.takenAs_process clearNasCount
    cases which with
    | current =>
      obtain ⟨ctx, hctx, htakenAs⟩ := hbehind rfl htaken
      exact ⟨_, _, ctx, htakes.found, hctx, htakenAs⟩
    | nonCurrent =>
      have hkept : named.keys.kAkma = [] ∧ (msg.abba = none → named.keys.abba = []) := by
        constructor
        · by_contra hkAkma
          exact h ⟨named, clearNasCount, htakes, .inl hkAkma⟩
        · intro hnone
          by_contra habba
          exact h ⟨named, clearNasCount, htakes, .inr ⟨hnone, habba⟩⟩
      obtain ⟨ctx, hctx, htakenAs⟩ := hbehind currentNsCtx_takeIntoUse
        ((htaken.setUplinkCount {}).deepCopy_iff.mpr hkept)
      exact ⟨_, _, ctx, htakes.found, hctx, htakenAs⟩

end NasMm

/-- The contexts are kept, exactly if no emergency command is turned down behind the derived
context, and no context with a K_AKMA or an ABBA of its own is copied. -/
theorem security_mode_keeps_contexts_iff (crypto : NasCrypto) (config : SecurityModeConfig)
    (ue : NasMm) (msg : SecurityModeCommand) :
    ue.KeepsContexts crypto config msg ↔
      ¬ue.LosesCurrent config msg ∧ ¬ue.LosesKeys crypto config msg := by
  constructor
  · exact fun h => ⟨fun hloses => hloses.not_keepsContexts h, fun hloses => hloses.not_keepsContexts h⟩
  · rintro ⟨hcurrent, hkeys⟩
    exact ⟨fun _ _ hanswers => NasMm.rejected_of_not_losesCurrent hcurrent hanswers,
      fun _ hanswers => NasMm.completed_of_not_losesKeys hkeys hanswers⟩

/-! ## Contexts that are not kept -/

/-- All MACs are zero. -/
def nullCrypto : NasCrypto where
  computeMacEia _ _ _ _ _ _ := 0
  encryptEea _ _ _ _ data _ := data
  decryptEea _ _ _ _ data _ := data
  hmacSha256 _ _ := .replicate 32 0

/-- A context of which a K_AKMA is part. -/
def akmaNsCtx : NasSecurityContext where
  ngKsi := 1
  keys := { kAmf := .replicate 32 1, kAkma := .replicate 32 2, abba := [0, 0] }

/-- A command for the derived context, with other capabilities than those of the UE, takes the
current context from a UE with an emergency. A command that is taken leaves out the K_AKMA. -/
theorem not_security_mode_keeps_contexts :
    ¬NasMm.KeepsContexts nullCrypto { securityCapability := [0xF0, 0xF0] }
        { usim := { currentNsCtx := some akmaNsCtx }, hasEmergency := true }
        { integrity := 0, ciphering := 0, tsc := .native, ksi := 0,
          replayedUeSecurityCapabilities := [0xE0, 0xE0] } ∧
      ¬NasMm.KeepsContexts nullCrypto { securityCapability := [0xF0, 0xF0] }
        { usim := { nonCurrentNsCtx := some akmaNsCtx } }
        { integrity := 2, ciphering := 0, tsc := .native, ksi := 1,
          replayedUeSecurityCapabilities := [0xF0, 0xF0], abba := some [0, 0] } := by
  constructor
  · exact NasMm.LosesCurrent.not_keepsContexts ⟨rfl, rfl, rfl, by decide, by decide⟩
  · refine NasMm.LosesKeys.not_keepsContexts ⟨akmaNsCtx, false, ?_, .inl (by decide)⟩
    exact
      { isValidKsi := rfl
        isForLocal := fun h => by cases h
        found := rfl
        capabilities := rfl
        integrity_le := by decide
        ciphering_le := by decide
        null := fun h => absurd h (by decide)
        checked := rfl }

end Quicup.Ueransim
