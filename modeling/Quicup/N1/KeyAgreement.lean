import Quicup.Open5gs.Crypt.Kdf
import Quicup.Ueransim.Nas.Authentication

/-!
# Keys of the UE and of the core

What the UE derives for an authentication request that it accepts, beside what the core derives
for the same AUTN with the same Milenage and the same HMAC.
-/

namespace Quicup.N1

open Ueransim Open5gs

/-- What the core derives for an authentication. -/
structure CoreKeys where
  kausf : List UInt8
  xresStar : List UInt8
  kseaf : List UInt8
  kamf : List UInt8

/-- The keys of the UDM, the AUSF and the AMF for a subscriber. -/
def coreKeys (crypto : NasCrypto) (f : MilenageFunctions) (config : AuthConfig)
    (servingNetworkName abba : List UInt8) (rand autn : Vector UInt8 16) : Except Fault CoreKeys := do
  let opc := config.opc f
  let ck := f.ck opc config.key rand
  let ik := f.ik opc config.key rand
  let xres := (f.res opc config.key rand).toList
  let kausf ← ogsKdfKausf crypto.hmacSha256 ck ik servingNetworkName autn
  let xresStar ← ogsKdfXresStar crypto.hmacSha256 ck ik servingNetworkName rand xres
  let kseaf ← ogsKdfKseaf crypto.hmacSha256 servingNetworkName kausf
  let kamf ← ogsKdfKamf crypto.hmacSha256 (ascii "imsi-" ++ config.supi.value) abba kseaf
  return { kausf, xresStar, kseaf, kamf }

section

variable (crypto : NasCrypto) (f : MilenageFunctions) (config : AuthConfig)

/-- The NAS keys of a context with a pair of algorithms are those of the core. -/
def NasKeysAgree (ctx : NasSecurityContext) (kamf : List UInt8) (integrity ciphering : UInt8) : Prop :=
  let keys := (crypto.deriveNasKeys { ctx with integrity, ciphering }).keys
  ogsKdfNas5gs crypto.hmacSha256 1 ciphering kamf = .ok keys.kNasEnc ∧
    ogsKdfNas5gs crypto.hmacSha256 2 integrity kamf = .ok keys.kNasInt

/-- Behind a request that was answered with a RES*, the SQN of the UE is the one of the AUTN, and
all keys are those of the core. -/
structure Agrees (snn abba : List UInt8) (rand autn : Vector UInt8 16) (resStar : OctetString)
    (ue : UeAuth) (core : CoreKeys) (ctx : NasSecurityContext) : Prop where
  sqnXorAk : ue.sqnXorAk f config rand = Autn.sqnXorAk autn
  derived : coreKeys crypto f config snn abba rand autn = .ok core
  stored : ue.usim.nonCurrentNsCtx = some ctx
  resStar : resStar = core.xresStar
  kausf : ctx.keys.kAusf = core.kausf
  kseaf : ctx.keys.kSeaf = core.kseaf
  kamf : ctx.keys.kAmf = core.kamf
  nas : ∀ integrity ciphering, NasKeysAgree crypto ctx core.kamf integrity ciphering

end

/-! ## One derivation -/

/-- A parameter of the core is an octet string, which is not empty. -/
structure Carries (param : KdfParam) (octets : OctetString) : Prop where
  nonempty : octets ≠ []
  len : param.len.toNat = octets.length
  buf : param.buf.take octets.length = octets

theorem carries_ofOctets {octets : OctetString} (hoctets : octets ≠ [])
    (h : octets.length < 2 ^ 16) : Carries (.ofOctets octets) octets :=
  ⟨hoctets, KdfParam.len_ofOctets h, List.take_length ..⟩

theorem carries_vector {n : Nat} (octets : Vector UInt8 n) (hn : 0 < n) {len : UInt16}
    (h : len.toNat = n) : Carries ⟨octets.toList, len⟩ octets.toList := by
  have hlength : octets.toList.length = n := Vector.length_toList
  refine ⟨List.ne_nil_of_length_pos (by omega), by rw [hlength]; exact h, ?_⟩
  exact List.take_length ..

theorem toList_sqnXorAk (autn : Vector UInt8 16) : (Autn.sqnXorAk autn).toList = autn.toList.take 6 := by
  simp [Autn.sqnXorAk, Vector.toList]

theorem carries_autn (autn : Vector UInt8 16) :
    Carries ⟨autn.toList, 6⟩ (Autn.sqnXorAk autn).toList := by
  have hlength : (Autn.sqnXorAk autn).toList.length = 6 := Vector.length_toList
  refine ⟨List.ne_nil_of_length_pos (by omega), hlength.symm, ?_⟩
  rw [hlength, toList_sqnXorAk]

namespace Carries

variable {params : List KdfParam} {parameters : List OctetString}

theorem len_ne_zero (h : List.Forall₂ Carries params parameters) :
    ∀ param ∈ params, param.len ≠ 0 := by
  induction h with
  | nil => exact fun param hmem => absurd hmem List.not_mem_nil
  | cons hcarries _ ih =>
    refine List.forall_mem_cons.mpr ⟨fun hzero => hcarries.nonempty ?_, ih⟩
    have hlen := hcarries.len
    rw [hzero] at hlen
    exact List.length_eq_zero_iff.mp hlen.symm

theorem flatMap_octets (h : List.Forall₂ Carries params parameters) :
    params.flatMap KdfParam.octets =
      parameters.flatMap fun parameter => parameter.appendOctet2 parameter.length := by
  induction h with
  | nil => rfl
  | @cons param parameter _ _ hcarries _ ih =>
    have hlt : parameter.length < 256 ^ 2 := hcarries.len ▸ param.len.toNat_lt
    rw [List.flatMap_cons, List.flatMap_cons, ih, KdfParam.octets, hcarries.len, hcarries.buf,
      OctetString.appendOctet2, octetsOfInt_natCast hlt]

end Carries

variable {crypto : NasCrypto}

/-- Both sides put the same octets into the HMAC. -/
theorem ogsKdfCommon_eq_calculateKdfKey {key : OctetString} {fc : UInt8} {params : List KdfParam}
    {parameters : List OctetString} (hkey : key ≠ []) (hfc : fc ≠ 0) (hparams : params ≠ [])
    (h : List.Forall₂ Carries params parameters) :
    ogsKdfCommon crypto.hmacSha256 key fc params = .ok (crypto.calculateKdfKey key fc parameters) := by
  rw [ogsKdfCommon_eq hkey hfc hparams (Carries.len_ne_zero h), Carries.flatMap_octets h]
  rfl

theorem calculateKdfKey_length (key : OctetString) (fc : UInt8) (parameters : List OctetString) :
    (crypto.calculateKdfKey key fc parameters).length = 32 :=
  Vector.length_toList

theorem calculateKdfKey_ne_nil (key : OctetString) (fc : UInt8) (parameters : List OctetString) :
    crypto.calculateKdfKey key fc parameters ≠ [] :=
  List.ne_nil_of_length_pos (by rw [calculateKdfKey_length]; omega)

/-! ## The keys -/

/-- A serving network name and an ABBA that both sides can derive keys with. -/
structure Usable (snn abba : OctetString) : Prop where
  snn : snn.length = 32
  abba : abba ≠ [] ∧ abba.length ≤ 255

namespace Usable

variable {snn abba : OctetString} {ck ik : Vector UInt8 16} {rand autn : Vector UInt8 16}

theorem carries_snn (h : Usable snn abba) : Carries (.ofOctets snn) snn :=
  carries_ofOctets (List.ne_nil_of_length_pos (by rw [h.snn]; omega)) (by rw [h.snn]; omega)

theorem carries_abba (h : Usable snn abba) : Carries (.ofOctets abba) abba :=
  carries_ofOctets h.abba.1 (by have := h.abba.2; omega)

theorem ckIk_ne_nil : ck.toList ++ ik.toList ≠ [] :=
  List.ne_nil_of_length_pos (by rw [List.length_append, Vector.length_toList]; omega)

theorem ogsKdfKausf_eq (h : Usable snn abba) :
    ogsKdfKausf crypto.hmacSha256 ck ik snn autn =
      .ok (crypto.calculateKAusfFor5gAka ck ik snn (Autn.sqnXorAk autn)) := by
  apply ogsKdfCommon_eq_calculateKdfKey ckIk_ne_nil (by decide) (List.cons_ne_nil _ _)
  exact .cons h.carries_snn (.cons (carries_autn autn) .nil)

theorem ogsKdfXresStar_eq (h : Usable snn abba) (res : Vector UInt8 8) :
    ogsKdfXresStar crypto.hmacSha256 ck ik snn rand res.toList =
      .ok (crypto.calculateResStar (ck.toList ++ ik.toList) snn rand res) := by
  have hlength : res.toList.length = 8 := Vector.length_toList
  have hres : Carries (.ofOctets res.toList) res.toList :=
    carries_ofOctets (List.ne_nil_of_length_pos (by omega)) (by omega)
  have hrand : Carries ⟨rand.toList, 16⟩ rand.toList := carries_vector rand (by omega) rfl
  have hoctets : ogsKdfCommon crypto.hmacSha256 (ck.toList ++ ik.toList) 0x6B
      [.ofOctets snn, ⟨rand.toList, 16⟩, .ofOctets res.toList] =
      .ok (crypto.calculateKdfKey (ck.toList ++ ik.toList) 0x6B [snn, rand.toList, res.toList]) := by
    apply ogsKdfCommon_eq_calculateKdfKey ckIk_ne_nil (by decide) (List.cons_ne_nil _ _)
    exact .cons h.carries_snn (.cons hrand (.cons hres .nil))
  rw [ogsKdfXresStar, if_neg hres.nonempty, hoctets, Fallible.ok_bind,
    NasCrypto.calculateResStar, calculateKdfKey_length]
  exact congrArg Except.ok (List.take_of_length_le (by simp [calculateKdfKey_length]))

theorem ogsKdfKseaf_eq (h : Usable snn abba) {kausf : OctetString} (hkausf : kausf ≠ []) :
    ogsKdfKseaf crypto.hmacSha256 snn kausf = .ok (crypto.calculateKdfKey kausf 0x6C [snn]) := by
  apply ogsKdfCommon_eq_calculateKdfKey hkausf (by decide) (List.cons_ne_nil _ _)
  exact .cons h.carries_snn .nil

end Usable

/-- The core finds the digits of a SUPI. -/
theorem ogsIdGetValue_imsi (supi : Supi) :
    ogsIdGetValue (ascii "imsi-" ++ supi.value) = some supi.value := by
  have hascii : ascii "imsi-" = [0x69, 0x6D, 0x73, 0x69, 0x2D] := by decide
  have hdigits : ∀ digit ∈ supi.value, (digit != 0x2D) = true := by
    intro digit hmem
    have hle := (supi.digits digit hmem).1
    rw [bne_iff_ne]
    rintro rfl
    exact absurd hle (by decide)
  rw [hascii]
  change some (supi.value.takeWhile _) = _
  rw [List.takeWhile_eq_self_iff.mpr hdigits]

theorem Usable.ogsKdfKamf_eq {snn abba kseaf : OctetString} (h : Usable snn abba) (supi : Supi)
    (hkseaf : kseaf ≠ []) :
    ogsKdfKamf crypto.hmacSha256 (ascii "imsi-" ++ supi.value) abba kseaf =
      .ok (crypto.calculateKdfKey kseaf 0x6D [supi.value, abba]) := by
  have hsupi : Carries (.ofOctets supi.value) supi.value := by
    have hlength := supi.length
    exact carries_ofOctets (List.ne_nil_of_length_pos (by omega)) (by omega)
  rw [ogsKdfKamf, if_neg h.abba.1, ogsIdGetValue_imsi]
  apply ogsKdfCommon_eq_calculateKdfKey hkseaf (by decide) (List.cons_ne_nil _ _)
  exact .cons hsupi (.cons h.carries_abba .nil)

/-- What the core derives, in the terms of the UE. -/
theorem Usable.coreKeys_eq {f : MilenageFunctions} {config : AuthConfig} {snn abba : OctetString}
    {rand autn : Vector UInt8 16} (h : Usable snn abba) :
    coreKeys crypto f config snn abba rand autn =
      let ck := f.ck (config.opc f) config.key rand
      let ik := f.ik (config.opc f) config.key rand
      let res := f.res (config.opc f) config.key rand
      let kausf := crypto.calculateKAusfFor5gAka ck ik snn (Autn.sqnXorAk autn)
      let kseaf := crypto.calculateKdfKey kausf 0x6C [snn]
      .ok
        { kausf
          xresStar := crypto.calculateResStar (ck.toList ++ ik.toList) snn rand res
          kseaf
          kamf := crypto.calculateKdfKey kseaf 0x6D [config.supi.value, abba] } := by
  have hkausf (ck ik : Vector UInt8 16) (sqnXorAk : Vector UInt8 6) :
      crypto.calculateKAusfFor5gAka ck ik snn sqnXorAk ≠ [] := calculateKdfKey_ne_nil _ _ _
  unfold coreKeys
  dsimp only
  rw [h.ogsKdfKausf_eq, Fallible.ok_bind, h.ogsKdfXresStar_eq, Fallible.ok_bind,
    h.ogsKdfKseaf_eq (hkausf _ _ _), Fallible.ok_bind,
    h.ogsKdfKamf_eq config.supi (calculateKdfKey_ne_nil _ _ _), Fallible.ok_bind]
  rfl

/-- The NAS keys of one K_AMF. -/
theorem nasKeysAgree {ctx : NasSecurityContext} (hkamf : ctx.keys.kAmf ≠ [])
    (integrity ciphering : UInt8) : NasKeysAgree crypto ctx ctx.keys.kAmf integrity ciphering := by
  have hoctet (octet : UInt8) : Carries (.ofOctets [octet]) [octet] :=
    carries_ofOctets (List.cons_ne_nil _ _) (by rw [List.length_singleton]; omega)
  have hderived (distinguisher identity : UInt8) :
      ogsKdfNas5gs crypto.hmacSha256 distinguisher identity ctx.keys.kAmf =
        .ok (lowerKey (crypto.calculateKdfKey ctx.keys.kAmf 0x69 [[distinguisher], [identity]])) := by
    rw [ogsKdfNas5gs, ogsKdfCommon_eq_calculateKdfKey hkamf (by decide) (List.cons_ne_nil _ _)
      (.cons (hoctet distinguisher) (.cons (hoctet identity) .nil))]
    rfl
  exact ⟨hderived 1 ciphering, hderived 2 integrity⟩

/-! ## Accepted requests -/

variable {f : MilenageFunctions} {config : AuthConfig} {ue ue' : UeAuth} {snn resStar : OctetString}
  {rand autn : Vector UInt8 16} {msg : AuthenticationRequest}

theorem sqnXorAk_eq_iff : ue.sqnXorAk f config rand = Autn.sqnXorAk autn ↔
    ue.usim.sqnMng.getSqn = config.receivedSQN f rand autn := by
  change xorOctets _ _ = _ ↔ _ = xorOctets _ _
  constructor
  · intro h
    rw [← h]
    exact (xorOctets_xorOctets _ _).symm
  · intro h
    rw [h]
    exact xorOctets_xorOctets _ _

/-- Both sides agree exactly where the greatest SQN that is kept is the one of the AUTN. -/
theorem answer_agrees_iff (h : Usable snn msg.abba)
    (hanswer : ue.authenticate crypto f config snn msg rand = (.response resStar, ue')) :
    (∃ core ctx, Agrees crypto f config snn msg.abba rand autn resStar ue' core ctx) ↔
      ue.usim.sqnMng.getSqn = config.receivedSQN f rand autn := by
  rw [← sqnXorAk_eq_iff]
  cases hanswer
  constructor
  · rintro ⟨core, ctx, hagrees⟩
    exact hagrees.sqnXorAk
  · intro hsqn
    refine ⟨⟨_, _, _, _⟩, _, hsqn, ?_, rfl, rfl, rfl, rfl, rfl, fun integrity ciphering => ?_⟩
    · rw [h.coreKeys_eq, ← hsqn]
      rfl
    · exact nasKeysAgree (calculateKdfKey_ne_nil _ _ _) integrity ciphering

/-! ## Runs -/

/-- What happens to the UE: authentication requests, and whatever else, which gives the USIM an
AUTN at most. -/
inductive AuthEvent
  | request (msg : AuthenticationRequest)
  | elsewhere

section

variable (crypto : NasCrypto) (f : MilenageFunctions) (config : AuthConfig)

inductive AuthStep (ue : UeAuth) : AuthEvent → UeAuth → Prop
  | request {msg : AuthenticationRequest} {answer : AuthenticationAnswer} {ue' : UeAuth}
      (h : ue.receiveAuthenticationRequest5gAka crypto f config msg = .ok (answer, ue')) :
      AuthStep ue (.request msg) ue'
  | untouched {ue' : UeAuth} (h : ue'.usim.sqnMng = ue.usim.sqnMng) : AuthStep ue .elsewhere ue'
  | validated {ue' : UeAuth} (rand autn : Vector UInt8 16)
      (h : ue'.usim.sqnMng = (ue.validateAutn f config rand autn).2.usim.sqnMng) :
      AuthStep ue .elsewhere ue'

/-- A UE with a new USIM. -/
def authSystem : System UeAuth AuthEvent where
  init ue := ue.usim.sqnMng = usimSqnMng
  step := AuthStep crypto f config

/-- A request that is accepted, with the RAND and the AUTN in it. -/
structure Accepted (ue : UeAuth) (msg : AuthenticationRequest) (rand autn : Vector UInt8 16)
    (resStar : OctetString) (ue' : UeAuth) : Prop where
  answered : ue.receiveAuthenticationRequest5gAka crypto f config msg =
    .ok (.response resStar, ue')
  checked : ue.checkRequest msg = .inr (rand, autn)
  abba : msg.abba ≠ []

/-- Where a request is accepted, the UE and the core derive the same keys. -/
def StepAgrees (ue : UeAuth) (event : AuthEvent) (ue' : UeAuth) : Prop :=
  ∀ msg rand autn resStar, event = .request msg →
    Accepted crypto f config ue msg rand autn resStar ue' →
    ∃ plmn snn core ctx, ue.currentPlmn = some plmn ∧ constructServingNetworkName plmn = .ok snn ∧
      Agrees crypto f config snn msg.abba rand autn resStar ue' core ctx

/-- A request that is accepted has an SQN that none is above that the USIM keeps. Where its RAND is
the one that is stored, and its AUTN is not looked at, its SQN is the greatest one that is kept. -/
def GreatestSqn (ue : UeAuth) (event : AuthEvent) : Prop :=
  ∀ msg rand autn resStar ue', event = .request msg →
    Accepted crypto f config ue msg rand autn resStar ue' →
    if ue.usim.rand = rand.toList then
      ue.usim.sqnMng.getSqn = config.receivedSQN f rand autn
    else ue.usim.sqnMng.getSqnMs.toNat ≤ (config.receivedSQN f rand autn).value.toNat

end

theorem Usable.of_accepted {plmn : Plmn} (hsnn : constructServingNetworkName plmn = .ok snn)
    (h : Accepted crypto f config ue msg rand autn resStar ue') : Usable snn msg.abba := by
  refine ⟨?_, h.abba, msg.abbaLength⟩
  unfold constructServingNetworkName at hsnn
  dsimp only at hsnn
  split at hsnn
  · cases hsnn
  · next hlength =>
    rw [← Except.ok.inj hsnn]
    exact not_not.mp hlength

theorem validateAutn_sqnMng_kept (h : ue.usim.sqnMng.Kept) :
    (ue.validateAutn f config rand autn).2.usim.sqnMng.Kept := by
  unfold UeAuth.validateAutn
  dsimp only
  split
  · exact h
  · split
    · exact h.checkSqn _
    · split
      · exact h.checkSqn _
      · exact h.checkSqn _

theorem failCheck_sqnMng (cause : MmCause) (auts : Option OctetString) :
    (ue.failCheck cause auts).2.usim.sqnMng = ue.usim.sqnMng := by
  unfold UeAuth.failCheck
  dsimp only
  split <;> rfl

variable {answer : AuthenticationAnswer}

theorem sqnMng_of_failCheck {cause : MmCause} {auts : Option OctetString}
    (h : ue.failCheck cause auts = (answer, ue')) : ue'.usim.sqnMng = ue.usim.sqnMng := by
  have hsame : (ue.failCheck cause auts).2.usim.sqnMng = _ := failCheck_sqnMng cause auts
  rw [h] at hsame
  exact hsame

theorem checkRequest_sqnMng {answer : AuthenticationAnswer × UeAuth}
    (h : ue.checkRequest msg = .inl answer) : answer.2.usim.sqnMng = ue.usim.sqnMng := by
  unfold UeAuth.checkRequest at h
  split at h
  · split at h
    · split at h
      · cases h
        rfl
      · split at h
        · cases h
          rfl
        · split at h
          · cases h
            exact failCheck_sqnMng _ _
          · cases h
    · cases h
      rfl
  · cases h
    rfl

/-- A request leaves the SQNs as they are, or has its AUTN validated. -/
theorem receive_sqnMng
    (h : ue.receiveAuthenticationRequest5gAka crypto f config msg = .ok (answer, ue')) :
    ue'.usim.sqnMng = ue.usim.sqnMng ∨
      ∃ rand autn, ue'.usim.sqnMng = (ue.validateAutn f config rand autn).2.usim.sqnMng := by
  unfold UeAuth.receiveAuthenticationRequest5gAka at h
  split at h
  · cases h
    exact .inl rfl
  · split at h
    · next hcheck =>
      obtain rfl := Except.ok.inj h
      exact .inl (checkRequest_sqnMng hcheck)
    · next rand autn hcheck =>
      split at h
      next autnCheck mid hautn =>
      have hmid : mid.usim.sqnMng = ue.usim.sqnMng ∨
          mid.usim.sqnMng = (ue.validateAutn f config rand autn).2.usim.sqnMng := by
        by_cases hrand : ue.usim.rand = rand.toList
        · rw [if_neg (not_not.mpr hrand)] at hautn
          exact .inl (congrArg (·.2.usim.sqnMng) hautn).symm
        · rw [if_pos hrand] at hautn
          exact .inr (congrArg (·.2.usim.sqnMng) hautn).symm
      have hsame : ue'.usim.sqnMng = mid.usim.sqnMng := by
        cases autnCheck with
        | ok =>
          obtain ⟨snn, -, hanswer⟩ := Fallible.bind_eq_ok.mp h
          exact (congrArg (·.2.usim.sqnMng) (Except.ok.inj hanswer)).symm
        | macFailure => exact sqnMng_of_failCheck (Except.ok.inj h)
        | synchronisationFailure => exact sqnMng_of_failCheck (Except.ok.inj h)
        | amfSeparationBitFailure => exact sqnMng_of_failCheck (Except.ok.inj h)
      rw [hsame]
      exact hmid.imp_right fun hvalidated => ⟨rand, autn, hvalidated⟩

/-- The USIM keeps SQNs in every run. -/
theorem kept_of_run {P : UeAuth → AuthEvent → Prop} {events : List AuthEvent}
    (h : (authSystem crypto f config).Run P events ue) : ue.usim.sqnMng.Kept := by
  apply h.invariant
  · intro ue hnew
    rw [show ue.usim.sqnMng = usimSqnMng from hnew]
    intro sqn hsqn
    rw [List.eq_of_mem_replicate hsqn]
    exact Nat.two_pow_pos 48
  · intro ue event ue' hkept _ hstep
    cases hstep with
    | request hreceive =>
      rcases receive_sqnMng hreceive with hsame | ⟨rand, autn, hvalidated⟩
      · rw [hsame]
        exact hkept
      · rw [hvalidated]
        exact validateAutn_sqnMng_kept hkept
    | untouched hsame =>
      rw [hsame]
      exact hkept
    | validated rand autn hvalidated =>
      rw [hvalidated]
      exact validateAutn_sqnMng_kept hkept

/-- One accepted request. -/
theorem Accepted.keys_agree_iff_greatest (h : Accepted crypto f config ue msg rand autn resStar ue')
    (hkept : ue.usim.sqnMng.Kept) :
    (∃ plmn snn core ctx, ue.currentPlmn = some plmn ∧ constructServingNetworkName plmn = .ok snn ∧
      Agrees crypto f config snn msg.abba rand autn resStar ue' core ctx) ↔
      if ue.usim.rand = rand.toList then
        ue.usim.sqnMng.getSqn = config.receivedSQN f rand autn
      else ue.usim.sqnMng.getSqnMs.toNat ≤ (config.receivedSQN f rand autn).value.toNat := by
  obtain ⟨plmn, rand', autn', mid, snn, hplmn, hcheck, hmid, hsnn, hanswer⟩ :=
    UeAuth.receiveAuthenticationRequest5gAka_eq_response h.answered
  obtain ⟨rfl, rfl⟩ := Prod.mk.inj (Sum.inr.inj (hcheck.symm.trans h.checked))
  have hgreatest : mid.usim.sqnMng.getSqn = config.receivedSQN f rand' autn' ↔
      if ue.usim.rand = rand'.toList then
        ue.usim.sqnMng.getSqn = config.receivedSQN f rand' autn'
      else ue.usim.sqnMng.getSqnMs.toNat ≤ (config.receivedSQN f rand' autn').value.toNat := by
    by_cases hrand : ue.usim.rand = rand'.toList
    · rw [if_pos hrand] at hmid ⊢
      rw [hmid]
    · rw [if_neg hrand] at hmid ⊢
      obtain ⟨hfresh, rfl⟩ := UeAuth.validateAutn_eq_ok hmid
      exact hkept.getSqn_checkSqn_eq_iff hfresh
  rw [← hgreatest, ← answer_agrees_iff (Usable.of_accepted hsnn h) hanswer]
  constructor
  · rintro ⟨plmn', snn', core, ctx, hplmn', hsnn', hagrees⟩
    obtain rfl := Option.some.inj (hplmn.symm.trans hplmn')
    obtain rfl := Except.ok.inj (hsnn.symm.trans hsnn')
    exact ⟨core, ctx, hagrees⟩
  · rintro ⟨core, ctx, hagrees⟩
    exact ⟨plmn, snn, core, ctx, hplmn, hsnn, hagrees⟩

/-- In the runs in which every accepted request has the greatest SQN, and in no others, the UE
derives the keys of the core for every accepted request. -/
theorem keys_agree_iff (crypto : NasCrypto) (f : MilenageFunctions) (config : AuthConfig)
    (events : List AuthEvent) (ue : UeAuth) :
    (authSystem crypto f config).StepsRun (StepAgrees crypto f config) events ue ↔
      (authSystem crypto f config).Run (GreatestSqn crypto f config) events ue := by
  apply System.stepsRun_iff kept_of_run
  intro ue event ue' hkept hstep
  constructor
  · intro hagrees msg rand autn resStar ue'' hevent haccepted
    subst hevent
    cases hstep with
    | request hreceive =>
      obtain rfl := (Prod.mk.inj (Except.ok.inj (hreceive.symm.trans haccepted.answered))).2
      exact (haccepted.keys_agree_iff_greatest hkept).mp (hagrees msg rand autn resStar rfl haccepted)
  · intro hgreatest msg rand autn resStar hevent haccepted
    exact (haccepted.keys_agree_iff_greatest hkept).mpr (hgreatest msg rand autn resStar ue' hevent haccepted)

/-! ## An SQN below the greatest one -/

/-- Algorithms and a Milenage of which nothing is needed: the MACs and the keys are zeros. -/
def zeroCrypto : NasCrypto where
  computeMacEia _ _ _ _ _ _ := 0
  encryptEea _ _ _ _ data _ := data
  decryptEea _ _ _ _ data _ := data
  hmacSha256 _ _ := .replicate 32 0

def zeroMilenage : MilenageFunctions where
  opcGen _ _ := []
  f1 _ _ _ _ _ := (.replicate 8 0, .replicate 8 0)
  res _ _ _ := .replicate 8 0
  ck _ _ _ := .replicate 16 0
  ik _ _ _ := .replicate 16 0
  ak _ _ _ := .replicate 6 0
  akR _ _ _ := .replicate 6 0

def zeroConfig : AuthConfig where
  supi := ⟨[0x30, 0x30, 0x31, 0x30, 0x31], by decide +kernel, by decide +kernel⟩
  key := []
  opC := []
  opType := .opc
  amf := #v[0x80, 0]

/-- A UE in a PLMN, with a new USIM. -/
def newUe : UeAuth where
  usim := {}
  currentPlmn := some ⟨1, 1⟩

/-- A request whose RAND and AUTN are filled up with an octet and an SQN below 256. -/
def requestOf (ksi : Nat) (filler sqn : UInt8) : AuthenticationRequest where
  tsc := .native
  ksi := ksi
  abba := [0, 0]
  authParamRAND := some (List.replicate 16 filler)
  authParamAUTN := some ([0, 0, 0, 0, 0, sqn, 0x80, 0] ++ List.replicate 8 0)
  abbaLength := by rw [List.length_cons, List.length_singleton]; omega

/-- The UE behind a request. -/
def behindRequest (ue : UeAuth) (msg : AuthenticationRequest) : UeAuth :=
  match ue.receiveAuthenticationRequest5gAka zeroCrypto zeroMilenage zeroConfig msg with
  | .ok (_, ue') => ue'
  | .error _ => ue

def firstRequest : AuthenticationRequest := requestOf 0 1 0xA3

def secondRequest : AuthenticationRequest := requestOf 1 2 0xA1

def behindFirst : UeAuth := behindRequest newUe firstRequest

def behindSecond : UeAuth := behindRequest behindFirst secondRequest

/-- Behind an SQN with SEQ 5 and index 3, the UE derives its keys for one with SEQ 5 and index 1
from the first SQN. -/
theorem keys_differ_below_greatest :
    (authSystem zeroCrypto zeroMilenage zeroConfig).Run System.unrestricted
        [.request firstRequest] behindFirst ∧
      (authSystem zeroCrypto zeroMilenage zeroConfig).step behindFirst (.request secondRequest)
        behindSecond ∧
      ¬StepAgrees zeroCrypto zeroMilenage zeroConfig behindFirst (.request secondRequest)
        behindSecond := by
  have hinit : (authSystem zeroCrypto zeroMilenage zeroConfig).init newUe :=
    show newUe.usim.sqnMng = usimSqnMng from rfl
  have hfirst : newUe.receiveAuthenticationRequest5gAka zeroCrypto zeroMilenage zeroConfig
      firstRequest = .ok (.response (List.replicate 16 0), behindFirst) := by decide +kernel
  have hsecond : behindFirst.receiveAuthenticationRequest5gAka zeroCrypto zeroMilenage zeroConfig
      secondRequest = .ok (.response (List.replicate 16 0), behindSecond) := by decide +kernel
  have haccepted : Accepted zeroCrypto zeroMilenage zeroConfig behindFirst secondRequest
      (.replicate 16 2) #v[0, 0, 0, 0, 0, 0xA1, 0x80, 0, 0, 0, 0, 0, 0, 0, 0, 0]
      (List.replicate 16 0) behindSecond :=
    ⟨hsecond, by decide +kernel, List.cons_ne_nil _ _⟩
  have hfirstStep : (authSystem zeroCrypto zeroMilenage zeroConfig).step newUe
      (.request firstRequest) behindFirst := AuthStep.request hfirst
  refine ⟨.single hinit trivial hfirstStep, AuthStep.request hsecond, ?_⟩
  intro hagrees
  obtain ⟨plmn, snn, core, ctx, -, -, hagree⟩ := hagrees _ _ _ _ rfl haccepted
  have hsqn : behindSecond.sqnXorAk zeroMilenage zeroConfig (.replicate 16 2) ≠
      Autn.sqnXorAk #v[0, 0, 0, 0, 0, 0xA1, 0x80, 0, 0, 0, 0, 0, 0, 0, 0, 0] := by decide +kernel
  exact hsqn hagree.sqnXorAk

end Quicup.N1
