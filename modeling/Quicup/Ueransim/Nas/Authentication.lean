import Quicup.Ueransim.Nas.Security

/-!
# Authentication of the UE

The 5G-AKA part of `auth.cpp`, with the keys of `keys.cpp` that it derives. Milenage is a
parameter. Timers, and the release of the connection behind too many failures, are left out.
-/

namespace Quicup.Ueransim

/-! ## Milenage -/

structure Milenage where
  macA : Vector UInt8 8
  macS : Vector UInt8 8
  res : Vector UInt8 8
  ck : Vector UInt8 16
  ik : Vector UInt8 16
  ak : Vector UInt8 6
  akR : Vector UInt8 6

/-- The functions of Milenage. Only the MACs depend on the SQN and the AMF. -/
structure MilenageFunctions where
  opcGen : OctetString → OctetString → OctetString
  f1 : OctetString → OctetString → Vector UInt8 16 → Sqn → Vector UInt8 2 → Vector UInt8 8 × Vector UInt8 8
  res : OctetString → OctetString → Vector UInt8 16 → Vector UInt8 8
  ck : OctetString → OctetString → Vector UInt8 16 → Vector UInt8 16
  ik : OctetString → OctetString → Vector UInt8 16 → Vector UInt8 16
  ak : OctetString → OctetString → Vector UInt8 16 → Vector UInt8 6
  akR : OctetString → OctetString → Vector UInt8 16 → Vector UInt8 6

/-- `milenage::Calculate` -/
def MilenageFunctions.calculate (f : MilenageFunctions) (opc key : OctetString)
    (rand : Vector UInt8 16) (sqn : Sqn) (amf : Vector UInt8 2) : Milenage where
  macA := (f.f1 opc key rand sqn amf).1
  macS := (f.f1 opc key rand sqn amf).2
  res := f.res opc key rand
  ck := f.ck opc key rand
  ik := f.ik opc key rand
  ak := f.ak opc key rand
  akR := f.akR opc key rand

/-- `OctetString::Xor` of strings of one length. -/
def xorOctets {n : Nat} (a b : Vector UInt8 n) : Vector UInt8 n := Vector.zipWith (· ^^^ ·) a b

theorem xorOctets_xorOctets {n : Nat} (a b : Vector UInt8 n) : xorOctets (xorOctets a b) b = a := by
  ext i hi
  simp [xorOctets, UInt8.xor_assoc]

/-! ## Configuration -/

/-- `Supi`, of type `imsi`. `Parse` accepts 4 to 15 digits. -/
structure Supi where
  value : OctetString
  length : 4 ≤ value.length ∧ value.length ≤ 15
  digits : ∀ digit ∈ value, 0x30 ≤ digit ∧ digit ≤ 0x39

inductive OpType
  | op
  | opc
  deriving DecidableEq

/-- What authentication reads of `UeConfig`. -/
structure AuthConfig where
  supi : Supi
  key : OctetString
  opC : OctetString
  opType : OpType
  amf : Vector UInt8 2

/-- The OPc of a configuration. -/
def AuthConfig.opc (config : AuthConfig) (f : MilenageFunctions) : OctetString :=
  match config.opType with
  | .opc => config.opC
  | .op => f.opcGen config.opC config.key

/-- `calculateMilenage` -/
def AuthConfig.calculateMilenage (config : AuthConfig) (f : MilenageFunctions) (sqn : Sqn)
    (rand : Vector UInt8 16) (dummyAmf : Bool) : Milenage :=
  f.calculate (config.opc f) config.key rand sqn (if dummyAmf then #v[0, 0] else config.amf)

structure Plmn where
  mcc : Nat
  mnc : Nat
  deriving DecidableEq

/-- The octets of a string of ASCII characters. -/
def ascii (s : String) : OctetString := s.toList.map fun c => UInt8.ofNat c.toNat

/-- `%03d` -/
def decimal3 (n : Nat) : OctetString :=
  let digits := ascii (toString n)
  List.replicate (3 - digits.length) 0x30 ++ digits

/-- `ConstructServingNetworkName` -/
def constructServingNetworkName (plmn : Plmn) : Except Fault OctetString :=
  let buffer := ascii "5G:mnc" ++ decimal3 plmn.mnc ++ ascii ".mcc" ++ decimal3 plmn.mcc ++
    ascii ".3gppnetwork.org"
  if buffer.length ≠ 32 then .error .exception else .ok buffer

/-! ## Keys -/

namespace NasCrypto

variable (crypto : NasCrypto)

/-- `CalculateKAusfFor5gAka` -/
def calculateKAusfFor5gAka (ck ik : Vector UInt8 16) (snn : OctetString) (sqnXorAk : Vector UInt8 6) :
    OctetString :=
  crypto.calculateKdfKey (ck.toList ++ ik.toList) 0x6A [snn, sqnXorAk.toList]

/-- `CalculateResStar` -/
def calculateResStar (key snn : OctetString) (rand : Vector UInt8 16) (res : Vector UInt8 8) :
    OctetString :=
  let output := crypto.calculateKdfKey key 0x6B [snn, rand.toList, res.toList]
  output.drop (output.length - 16)

/-- `CalculateAkmaKey` -/
def calculateAkmaKey (kAusf : OctetString) (supi : Supi) : OctetString :=
  crypto.calculateKdfKey kAusf 0x6A [supi.value]

/-- `DeriveKeysSeafAmf` -/
def deriveKeysSeafAmf (supi : Supi) (snn : OctetString) (ctx : NasSecurityContext) :
    NasSecurityContext :=
  let kSeaf := crypto.calculateKdfKey ctx.keys.kAusf 0x6C [snn]
  let kAmf := crypto.calculateKdfKey kSeaf 0x6D [supi.value, ctx.keys.abba]
  { ctx with keys := { ctx.keys with kSeaf, kAmf } }

end NasCrypto

/-! ## Requests -/

/-- `AuthenticationRequest` without an EAP message. The length of the ABBA is an octet. -/
structure AuthenticationRequest where
  tsc : TypeOfSecurityContext
  ksi : Nat
  abba : OctetString
  authParamRAND : Option OctetString
  authParamAUTN : Option OctetString
  abbaLength : abba.length ≤ 255

namespace Autn

variable (autn : Vector UInt8 16)

def sqnXorAk : Vector UInt8 6 := (autn.extract 0 6).cast rfl

def separationBit : Bool := bitAt 7 autn[6]

def mac : Vector UInt8 8 := (autn.extract 8 16).cast rfl

end Autn

/-- The SQN of an AUTN. -/
def AuthConfig.receivedSQN (config : AuthConfig) (f : MilenageFunctions) (rand autn : Vector UInt8 16) :
    Sqn :=
  xorOctets (Autn.sqnXorAk autn) (f.ak (config.opc f) config.key rand)

inductive AutnValidationRes
  | ok
  | macFailure
  | amfSeparationBitFailure
  | synchronisationFailure
  deriving DecidableEq

/-- The causes of `EMmCause` that authentication and security mode control answer with. -/
inductive MmCause
  | macFailure
  | synchFailure
  | ueSecurityCapMismatch
  | secModeRejectedUnspecified
  | non5gAuthenticationUnacceptable
  | ngksiAlreadyInUse
  | semanticallyIncorrectMessage
  | messageTypeNonExistentOrNotImplemented
  | messageTypeNotCompatibleWithProtocolState
  | messageNotCompatibleWithProtocolState
  | unspecifiedProtocolError
  deriving DecidableEq

/-- What is sent for an authentication request. -/
inductive AuthenticationAnswer
  | nothing
  | failure (mmCause : MmCause) (auts : Option OctetString)
  | response (resStar : OctetString)
  deriving DecidableEq

/-- What authentication reads and writes of the UE. -/
structure UeAuth where
  usim : Usim
  currentPlmn : Option Plmn
  nwConsecutiveAuthFailure : Nat := 0
  deriving DecidableEq

namespace UeAuth

variable (crypto : NasCrypto) (f : MilenageFunctions) (config : AuthConfig) (ue : UeAuth)

/-- `validateAutn`. The SQN is taken over before the MAC is checked. -/
def validateAutn (rand autn : Vector UInt8 16) : AutnValidationRes × UeAuth :=
  if !Autn.separationBit autn then (.amfSeparationBitFailure, ue)
  else
    let milenage := config.calculateMilenage f ue.usim.sqnMng.getSqn rand false
    let receivedSQN := xorOctets (Autn.sqnXorAk autn) milenage.ak
    let (sqnOk, sqnMng) := ue.usim.sqnMng.checkSqn receivedSQN
    let ue := { ue with usim := { ue.usim with sqnMng } }
    let milenage := config.calculateMilenage f receivedSQN rand false
    if Autn.mac autn ≠ milenage.macA then (.macFailure, ue)
    else if !sqnOk then (.synchronisationFailure, ue)
    else (.ok, ue)

/-- `networkFailingTheAuthCheck` with a chance. -/
def networkFailingTheAuthCheck : Bool × UeAuth :=
  (decide (3 ≤ ue.nwConsecutiveAuthFailure),
    { ue with nwConsecutiveAuthFailure := ue.nwConsecutiveAuthFailure + 1 })

/-- `sendFailure` -/
def sendFailure (cause : MmCause) (auts : Option OctetString) : AuthenticationAnswer × UeAuth :=
  (.failure cause auts, { ue with usim := ue.usim.forgetRand })

/-- A failure of the network, which is answered at most three times in a row. -/
def failCheck (cause : MmCause) (auts : Option OctetString) : AuthenticationAnswer × UeAuth :=
  let (failing, ue) := ue.networkFailingTheAuthCheck
  if failing then (.nothing, ue) else ue.sendFailure cause auts

/-- A context has the key set identifier already. -/
def ksiInUse (ksi : Nat) : Prop :=
  (∃ ctx ∈ ue.usim.currentNsCtx, ctx.ngKsi = ksi) ∨ ∃ ctx ∈ ue.usim.nonCurrentNsCtx, ctx.ngKsi = ksi

instance (ksi : Nat) : Decidable (ue.ksiInUse ksi) := inferInstanceAs (Decidable (_ ∨ _))

/-- The syntactic checks and the check of the ngKSI, with the RAND and the AUTN behind them. -/
def checkRequest (msg : AuthenticationRequest) :
    (AuthenticationAnswer × UeAuth) ⊕ (Vector UInt8 16 × Vector UInt8 16) :=
  match msg.authParamRAND, msg.authParamAUTN with
  | some rand, some autn =>
    if h : rand.length = 16 ∧ autn.length = 16 then
      if msg.tsc = .mapped then .inl (ue.sendFailure .unspecifiedProtocolError none)
      else if msg.ksi = notAvailableOrReserved then
        .inl (ue.sendFailure .unspecifiedProtocolError none)
      else if ue.ksiInUse msg.ksi then .inl (ue.failCheck .ngksiAlreadyInUse none)
      else .inr (⟨⟨rand⟩, h.1⟩, ⟨⟨autn⟩, h.2⟩)
    else .inl (ue.sendFailure .semanticallyIncorrectMessage none)
  | _, _ => .inl (ue.sendFailure .semanticallyIncorrectMessage none)

/-- The SQN that the UE takes, concealed. -/
def sqnXorAk (rand : Vector UInt8 16) : Vector UInt8 6 :=
  let milenage := config.calculateMilenage f ue.usim.sqnMng.getSqn rand false
  xorOctets ue.usim.sqnMng.getSqn milenage.ak

/-- What is done for an AUTN that is good. -/
def authenticate (snn : OctetString) (msg : AuthenticationRequest) (rand : Vector UInt8 16) :
    AuthenticationAnswer × UeAuth :=
  let milenage := config.calculateMilenage f ue.usim.sqnMng.getSqn rand false
  let resStar := crypto.calculateResStar (milenage.ck.toList ++ milenage.ik.toList) snn rand milenage.res
  let kAusf := crypto.calculateKAusfFor5gAka milenage.ck milenage.ik snn (ue.sqnXorAk f config rand)
  let nonCurrentNsCtx : NasSecurityContext :=
    { tsc := msg.tsc
      ngKsi := msg.ksi
      keys :=
        { kAusf
          kAkma := crypto.calculateAkmaKey kAusf config.supi
          abba := msg.abba } }
  let usim := { ue.usim with
    rand := rand.toList
    resStar
    nonCurrentNsCtx := some (crypto.deriveKeysSeafAmf config.supi snn nonCurrentNsCtx) }
  (.response resStar, { ue with usim, nwConsecutiveAuthFailure := 0 })

/-- `receiveAuthenticationRequest5gAka` -/
def receiveAuthenticationRequest5gAka (msg : AuthenticationRequest) :
    Except Fault (AuthenticationAnswer × UeAuth) :=
  match ue.currentPlmn with
  | none => .ok (.nothing, ue)
  | some currentPlmn =>
    match ue.checkRequest msg with
    | .inl answer => .ok answer
    | .inr (rand, autn) => do
      -- the RAND of the last authentication stands for a good AUTN
      let (autnCheck, ue) := if ue.usim.rand ≠ rand.toList then ue.validateAutn f config rand autn
        else (.ok, ue)
      match autnCheck with
      | .ok => do
        let snn ← constructServingNetworkName currentPlmn
        return ue.authenticate crypto f config snn msg rand
      | .macFailure => return ue.failCheck .macFailure none
      | .synchronisationFailure =>
        let milenage := config.calculateMilenage f ue.usim.sqnMng.getSqn rand true
        let auts := (xorOctets ue.usim.sqnMng.getSqn milenage.akR).toList ++ milenage.macS.toList
        return ue.failCheck .synchFailure (some auts)
      | .amfSeparationBitFailure => return ue.failCheck .non5gAuthenticationUnacceptable none

/-! ## What is accepted -/

variable {crypto f config ue} {rand autn : Vector UInt8 16} {msg : AuthenticationRequest}
  {resStar : OctetString} {ue' : UeAuth} {answer : AuthenticationAnswer × UeAuth}

/-- Behind a good AUTN its SQN is taken over. -/
theorem validateAutn_eq_ok (h : ue.validateAutn f config rand autn = (.ok, ue')) :
    (ue.usim.sqnMng.checkSqn (config.receivedSQN f rand autn)).1 = true ∧
      ue' = { ue with usim := { ue.usim with
        sqnMng := (ue.usim.sqnMng.checkSqn (config.receivedSQN f rand autn)).2 } } := by
  unfold validateAutn at h
  dsimp only at h
  split at h
  · cases h
  · split at h
    · cases h
    · split at h
      · cases h
      · next hsqn =>
        cases h
        have hfresh : (ue.usim.sqnMng.checkSqn (config.receivedSQN f rand autn)).1 = true :=
          (Bool.not_eq_false _).mp fun hstale => hsqn (congrArg not hstale)
        exact ⟨hfresh, rfl⟩

theorem failCheck_ne_response {cause : MmCause} {auts : Option OctetString} :
    ue.failCheck cause auts ≠ (.response resStar, ue') := by
  unfold failCheck
  dsimp only
  split <;> rintro ⟨⟩

theorem checkRequest_ne_response (h : ue.checkRequest msg = .inl answer) :
    answer ≠ (.response resStar, ue') := by
  unfold checkRequest at h
  split at h
  · split at h
    · split at h
      · cases h
        rintro ⟨⟩
      · split at h
        · cases h
          rintro ⟨⟩
        · split at h
          · cases h
            exact failCheck_ne_response
          · cases h
    · cases h
      rintro ⟨⟩
  · cases h
    rintro ⟨⟩

/-! ## What stays -/

theorem validateAutn_currentNsCtx :
    (ue.validateAutn f config rand autn).2.usim.currentNsCtx = ue.usim.currentNsCtx := by
  unfold validateAutn
  dsimp only
  split
  · rfl
  · split
    · rfl
    · split <;> rfl

theorem failCheck_currentNsCtx (cause : MmCause) (auts : Option OctetString) :
    (ue.failCheck cause auts).2.usim.currentNsCtx = ue.usim.currentNsCtx := by
  unfold failCheck
  dsimp only
  split <;> rfl

theorem checkRequest_currentNsCtx (h : ue.checkRequest msg = .inl answer) :
    answer.2.usim.currentNsCtx = ue.usim.currentNsCtx := by
  unfold checkRequest at h
  split at h
  · split at h
    · split at h
      · cases h
        rfl
      · split at h
        · cases h
          rfl
        · split at h
          · cases h
            exact failCheck_currentNsCtx ..
          · cases h
    · cases h
      rfl
  · cases h
    rfl

/-- An authentication does not touch the context in force. -/
theorem receiveAuthenticationRequest5gAka_currentNsCtx {answer : AuthenticationAnswer}
    (h : ue.receiveAuthenticationRequest5gAka crypto f config msg = .ok (answer, ue')) :
    ue'.usim.currentNsCtx = ue.usim.currentNsCtx := by
  unfold receiveAuthenticationRequest5gAka at h
  split at h
  · obtain ⟨-, rfl⟩ := Prod.mk.inj (Except.ok.inj h)
    rfl
  split at h
  · next hcheck =>
    have hbehind := checkRequest_currentNsCtx hcheck
    rw [Except.ok.inj h] at hbehind
    exact hbehind
  next rand autn hcheck =>
  split at h
  next autnCheck mid hautn =>
  have hmid : mid.usim.currentNsCtx = ue.usim.currentNsCtx := by
    split at hautn
    · have hbehind := @validateAutn_currentNsCtx f config ue rand autn
      rw [hautn] at hbehind
      exact hbehind
    · obtain ⟨-, rfl⟩ := Prod.mk.inj hautn
      rfl
  have hfail {cause : MmCause} {auts : Option OctetString}
      (h : (Except.ok (mid.failCheck cause auts) : Except Fault _) = .ok (answer, ue')) :
      ue'.usim.currentNsCtx = ue.usim.currentNsCtx := by
    have hbehind := @failCheck_currentNsCtx mid cause auts
    rw [Except.ok.inj h] at hbehind
    exact hbehind.trans hmid
  cases autnCheck with
  | ok =>
    obtain ⟨snn, -, h⟩ := Fallible.bind_eq_ok.mp h
    obtain ⟨-, rfl⟩ := Prod.mk.inj (Except.ok.inj h)
    exact hmid
  | macFailure => exact hfail h
  | synchronisationFailure => exact hfail h
  | amfSeparationBitFailure => exact hfail h

/-! ## Responses -/

/-- A request that is accepted has the RAND that is stored, or its AUTN is good. -/
theorem receiveAuthenticationRequest5gAka_eq_response
    (h : ue.receiveAuthenticationRequest5gAka crypto f config msg = .ok (.response resStar, ue')) :
    ∃ plmn rand autn mid snn, ue.currentPlmn = some plmn ∧ ue.checkRequest msg = .inr (rand, autn) ∧
      (if ue.usim.rand = rand.toList then mid = ue
        else ue.validateAutn f config rand autn = (.ok, mid)) ∧
      constructServingNetworkName plmn = .ok snn ∧
      mid.authenticate crypto f config snn msg rand = (.response resStar, ue') := by
  unfold receiveAuthenticationRequest5gAka at h
  split at h
  · cases h
  · next plmn hplmn =>
    split at h
    · next answer hcheck => exact absurd (Except.ok.inj h) (checkRequest_ne_response hcheck)
    · next rand autn hcheck =>
      split at h
      next autnCheck mid hautn =>
      cases autnCheck with
      | ok =>
        obtain ⟨snn, hsnn, hanswer⟩ := Fallible.bind_eq_ok.mp h
        refine ⟨plmn, rand, autn, mid, snn, hplmn, hcheck, ?_, hsnn, Except.ok.inj hanswer⟩
        by_cases hrand : ue.usim.rand = rand.toList
        · rw [if_neg (not_not.mpr hrand)] at hautn
          rw [if_pos hrand]
          exact (Prod.mk.inj hautn).2.symm
        · rw [if_pos hrand] at hautn
          rw [if_neg hrand, hautn]
      | macFailure => exact absurd (Except.ok.inj h) failCheck_ne_response
      | synchronisationFailure => exact absurd (Except.ok.inj h) failCheck_ne_response
      | amfSeparationBitFailure => exact absurd (Except.ok.inj h) failCheck_ne_response

end UeAuth

end Quicup.Ueransim
