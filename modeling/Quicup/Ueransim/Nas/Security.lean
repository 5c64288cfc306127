import Quicup.Core.Fallible
import Quicup.Core.SplitCount
import Quicup.Ueransim.Nas.SqnManager

/-!
# NAS security of the UE

The security context of `types.hpp`, the protection of messages of `enc.cpp`, and the keys of
`keys.cpp` that a security context is derived with. The algorithms are those of the library, and
the model takes them as parameters.
-/

namespace Quicup.Ueransim

/-! ## Algorithms -/

def ea0 : UInt8 := 0

def ia0 : UInt8 := 0

/-- `IA3_128` and `EA3_128`, the last algorithms that there are. -/
def lastAlgorithm : UInt8 := 3

/-- The algorithms of `crypt.cpp`. MACs and ciphers are given by their algorithm, and take the
count, the bearer, the direction, the data and the key. -/
structure NasCrypto where
  computeMacEia : UInt8 → UInt32 → Nat → Nat → OctetString → OctetString → UInt32
  encryptEea : UInt8 → UInt32 → Nat → Nat → OctetString → OctetString → OctetString
  decryptEea : UInt8 → UInt32 → Nat → Nat → OctetString → OctetString → OctetString
  hmacSha256 : OctetString → OctetString → Vector UInt8 32

/-- `CalculateKdfKey` -/
def NasCrypto.calculateKdfKey (crypto : NasCrypto) (key : OctetString) (fc : UInt8)
    (parameters : List OctetString) : OctetString :=
  (crypto.hmacSha256 key
    (fc :: parameters.flatMap fun parameter => parameter.appendOctet2 parameter.length)).toList

/-! ## Counts -/

/-- `NasCount` -/
abbrev NasCount := SplitCount

/-- `toOctet4` -/
def NasCount.toOctet4 (count : NasCount) : UInt32 := count.toUInt32

/-! ## Contexts -/

structure UeKeys where
  abba : OctetString := []
  kAusf : OctetString := []
  kSeaf : OctetString := []
  kAmf : OctetString := []
  kNasInt : OctetString := []
  kNasEnc : OctetString := []
  kAkma : OctetString := []
  deriving DecidableEq

/-- `deepCopy`, which leaves the ABBA and the K_AKMA out. -/
def UeKeys.deepCopy (keys : UeKeys) : UeKeys :=
  { kAusf := keys.kAusf
    kSeaf := keys.kSeaf
    kAmf := keys.kAmf
    kNasInt := keys.kNasInt
    kNasEnc := keys.kNasEnc }

/-- The value of a key set identifier that stands for no key. -/
def notAvailableOrReserved : Nat := 7

inductive TypeOfSecurityContext
  | native
  | mapped
  deriving DecidableEq

/-- `NasSecurityContext`. The oldest sequence number is the first one. -/
structure NasSecurityContext where
  tsc : TypeOfSecurityContext := .native
  ngKsi : Nat := 0
  downlinkCount : NasCount := {}
  uplinkCount : NasCount := {}
  is3gppAccess : Bool := true
  keys : UeKeys := {}
  integrity : UInt8 := ia0
  ciphering : UInt8 := ea0
  lastNasSequenceNums : List UInt8 := []
  deriving DecidableEq

namespace NasSecurityContext

variable (ctx : NasSecurityContext)

def updateDownlinkCount (validatedCount : NasCount) : NasSecurityContext :=
  { ctx with downlinkCount := validatedCount }

def estimatedDownlinkCount (sequenceNumber : UInt8) : NasCount :=
  ctx.downlinkCount.estimate sequenceNumber

def countOnEncrypt : NasSecurityContext := { ctx with uplinkCount := ctx.uplinkCount.next }

def rollbackCountOnEncrypt : NasSecurityContext := { ctx with uplinkCount := ctx.uplinkCount.back }

def deepCopy : NasSecurityContext := { ctx with keys := ctx.keys.deepCopy }

end NasSecurityContext

/-- What the USIM keeps of security. -/
structure Usim where
  isValid : Bool := true
  currentNsCtx : Option NasSecurityContext := none
  nonCurrentNsCtx : Option NasSecurityContext := none
  rand : OctetString := []
  resStar : OctetString := []
  sqnMng : SqnManager := usimSqnMng
  deriving DecidableEq

/-- The RAND and the RES* that are stored are deleted. -/
def Usim.forgetRand (usim : Usim) : Usim := { usim with rand := [], resStar := [] }

/-! ## Keys -/

/-- The 16 last octets of a key of 32. -/
def lowerKey (key : OctetString) : OctetString := (key.drop 16).take 16

/-- `DeriveNasKeys` -/
def NasCrypto.deriveNasKeys (crypto : NasCrypto) (ctx : NasSecurityContext) : NasSecurityContext :=
  let kdfEnc := crypto.calculateKdfKey ctx.keys.kAmf 0x69 [[0x01], [ctx.ciphering]]
  let kdfInt := crypto.calculateKdfKey ctx.keys.kAmf 0x69 [[0x02], [ctx.integrity]]
  { ctx with
    keys := { ctx.keys with
      kNasEnc := lowerKey kdfEnc
      kNasInt := lowerKey kdfInt } }

/-- `DeriveAmfPrimeInMobility` -/
def NasCrypto.deriveAmfPrimeInMobility (crypto : NasCrypto) (isUplink : Bool) (count : NasCount)
    (kAmf : OctetString) : OctetString :=
  crypto.calculateKdfKey kAmf 0x72
    [[if isUplink then 0x00 else 0x01], octetsBE 4 count.toOctet4.toNat]

/-! ## Messages -/

def mobilityManagementMessages : UInt8 := 0x7E

/-- The values of `ESecurityHeaderType`. A message that is received may have any other. -/
def notProtected : UInt8 := 0

def integrityProtected : UInt8 := 1

def integrityProtectedAndCiphered : UInt8 := 2

def integrityProtectedWithNewSecurityContext : UInt8 := 3

def integrityProtectedAndCipheredWithNewSecurityContext : UInt8 := 4

def securityModeCommandType : UInt8 := 0x5D

def securityModeCompleteType : UInt8 := 0x5E

structure SecuredMmMessage where
  sht : UInt8
  messageAuthenticationCode : UInt32
  sequenceNumber : UInt8
  plainNasMessage : OctetString
  deriving DecidableEq

/-- `EncodeNasMessage` of a secured message. Without protection the message is taken for one
of another type. -/
def SecuredMmMessage.encode (msg : SecuredMmMessage) : Except Fault OctetString :=
  if msg.sht = notProtected then .error .outOfBounds
  else
    .ok (mobilityManagementMessages :: msg.sht ::
      octetsBE 4 msg.messageAuthenticationCode.toNat ++ msg.sequenceNumber :: msg.plainNasMessage)

/-! ## Protection -/

namespace NasCrypto

variable (crypto : NasCrypto)

/-- The bearer of an access. -/
def bearer (is3gppAccess : Bool) : Nat := if is3gppAccess then 1 else 2

/-- `ComputeMac` -/
def computeMac (alg : UInt8) (count : NasCount) (is3gppAccess isUplink : Bool)
    (key plainMessage : OctetString) : Except Fault UInt32 :=
  if alg = ia0 then .ok 0
  else if lastAlgorithm < alg then .error .exception
  else
    .ok (crypto.computeMacEia alg count.toOctet4 (bearer is3gppAccess) (if isUplink then 0 else 1)
      (count.sqn :: plainMessage) key)

def encryptData (alg : UInt8) (count : NasCount) (is3gppAccess : Bool) (data key : OctetString) :
    Except Fault OctetString :=
  if alg = ea0 then .ok data
  else if lastAlgorithm < alg then .error .exception
  else .ok (crypto.encryptEea alg count.toOctet4 (bearer is3gppAccess) 0 data key)

def decryptData (alg : UInt8) (count : NasCount) (is3gppAccess : Bool) (key : OctetString)
    (sht : UInt8) (data : OctetString) : Except Fault OctetString :=
  if sht ≠ integrityProtectedAndCiphered ∧
      sht ≠ integrityProtectedAndCipheredWithNewSecurityContext then .ok data
  else if alg = ea0 then .ok data
  else if lastAlgorithm < alg then .error .exception
  else .ok (crypto.decryptEea alg count.toOctet4 (bearer is3gppAccess) 1 data key)

/-- `MakeSecurityHeaderType` -/
def makeSecurityHeaderType (ctx : NasSecurityContext) (msgType : UInt8) (noCipheredHeader : Bool) :
    UInt8 :=
  if msgType = securityModeCompleteType then integrityProtectedAndCipheredWithNewSecurityContext
  else if msgType = securityModeCommandType then integrityProtectedWithNewSecurityContext
  else if ctx.keys.kNasInt = [] then notProtected
  else if ctx.keys.kNasEnc = [] ∨ noCipheredHeader then integrityProtected
  else integrityProtectedAndCiphered

/-- `Encrypt` of a plain message. -/
def encrypt (ctx : NasSecurityContext) (plainNasMessage : OctetString) (msgType : UInt8)
    (bypassCiphering noCipheredHeader : Bool) :
    Except Fault (SecuredMmMessage × NasSecurityContext) := do
  let count := ctx.uplinkCount
  let encryptedData ← if bypassCiphering then .ok plainNasMessage
    else crypto.encryptData ctx.ciphering count ctx.is3gppAccess plainNasMessage ctx.keys.kNasEnc
  let mac ← crypto.computeMac ctx.integrity count ctx.is3gppAccess true ctx.keys.kNasInt encryptedData
  let secured : SecuredMmMessage :=
    { sht := makeSecurityHeaderType ctx msgType noCipheredHeader
      messageAuthenticationCode := mac
      sequenceNumber := count.sqn
      plainNasMessage := encryptedData }
  return (secured, ctx.countOnEncrypt)

/-- `Decrypt`, as the octets of the inner message where the MAC verifies. -/
def decrypt (ctx : NasSecurityContext) (msg : SecuredMmMessage) :
    Except Fault (Option OctetString × NasSecurityContext) := do
  let estimatedCount := ctx.estimatedDownlinkCount msg.sequenceNumber
  let mac ← crypto.computeMac ctx.integrity estimatedCount ctx.is3gppAccess false ctx.keys.kNasInt
    msg.plainNasMessage
  if mac ≠ msg.messageAuthenticationCode then return (none, ctx)
  else
    let decryptedData ← crypto.decryptData ctx.ciphering estimatedCount ctx.is3gppAccess
      ctx.keys.kNasEnc msg.sht msg.plainNasMessage
    return (some decryptedData, ctx.updateDownlinkCount estimatedCount)

/-! ## What has been protected -/

variable {crypto} {ctx ctx' : NasSecurityContext} {secured : SecuredMmMessage}

/-- A message that is protected takes the uplink count and leaves the next one. -/
theorem encrypt_eq_ok {plainNasMessage : OctetString} {msgType : UInt8}
    {bypassCiphering noCipheredHeader : Bool}
    (h : crypto.encrypt ctx plainNasMessage msgType bypassCiphering noCipheredHeader =
      .ok (secured, ctx')) :
    ctx' = ctx.countOnEncrypt ∧ secured.sequenceNumber = ctx.uplinkCount.sqn ∧
      secured.sht = makeSecurityHeaderType ctx msgType noCipheredHeader ∧
      crypto.computeMac ctx.integrity ctx.uplinkCount ctx.is3gppAccess true ctx.keys.kNasInt
        secured.plainNasMessage = .ok secured.messageAuthenticationCode ∧
      (if bypassCiphering then secured.plainNasMessage = plainNasMessage
        else crypto.encryptData ctx.ciphering ctx.uplinkCount ctx.is3gppAccess plainNasMessage
          ctx.keys.kNasEnc = .ok secured.plainNasMessage) := by
  have hbind : crypto.encrypt ctx plainNasMessage msgType bypassCiphering noCipheredHeader =
      (if bypassCiphering then .ok plainNasMessage
        else crypto.encryptData ctx.ciphering ctx.uplinkCount ctx.is3gppAccess plainNasMessage
          ctx.keys.kNasEnc) >>= fun encryptedData =>
        crypto.computeMac ctx.integrity ctx.uplinkCount ctx.is3gppAccess true ctx.keys.kNasInt
          encryptedData >>= fun mac =>
            .ok (⟨makeSecurityHeaderType ctx msgType noCipheredHeader, mac, ctx.uplinkCount.sqn,
              encryptedData⟩, ctx.countOnEncrypt) := by
    cases bypassCiphering <;> rfl
  rw [hbind] at h
  obtain ⟨encryptedData, hdata, h⟩ := Fallible.bind_eq_ok.mp h
  obtain ⟨mac, hmac, h⟩ := Fallible.bind_eq_ok.mp h
  obtain ⟨rfl, rfl⟩ := Prod.mk.inj (Except.ok.inj h)
  refine ⟨rfl, rfl, rfl, hmac, ?_⟩
  cases bypassCiphering with
  | true => exact (Except.ok.inj hdata).symm
  | false => exact hdata

end NasCrypto

theorem NasSecurityContext.rollback_countOnEncrypt (ctx : NasSecurityContext) :
    ctx.countOnEncrypt.rollbackCountOnEncrypt = ctx := by
  rw [countOnEncrypt, rollbackCountOnEncrypt, SplitCount.back_next]

end Quicup.Ueransim
