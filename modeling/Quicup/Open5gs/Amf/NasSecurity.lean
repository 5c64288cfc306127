import Quicup.Core.Cursor
import Quicup.Core.Fallible
import Quicup.Core.SplitCount

/-!
# NAS security of the AMF

`nas-security.c` over the algorithms of `lib/nas/common/security.c`, which the model takes as
parameters. A packet is the payload of a message with the security header in front of it.
-/

namespace Quicup.Open5gs

/-! ## Algorithms -/

/-- What `ogs_nas_mac_calculate` and `ogs_nas_encrypt` compute for an algorithm, a key, a count,
a bearer, a direction and data. -/
structure NasAlgorithms where
  mac : UInt8 → List UInt8 → UInt32 → UInt8 → UInt8 → List UInt8 → UInt32
  cipher : UInt8 → List UInt8 → UInt32 → UInt8 → UInt8 → List UInt8 → List UInt8

def uplinkDirection : UInt8 := 0

def downlinkDirection : UInt8 := 1

namespace NasAlgorithms

variable (algs : NasAlgorithms)

/-- The assertions of both functions. The null algorithm, which no caller comes with, is turned
down as well. -/
def supports (algorithmIdentity bearer : UInt8) (data : List UInt8) : Prop :=
  1 ≤ algorithmIdentity ∧ algorithmIdentity ≤ 3 ∧ bearer ≤ 0x1F ∧ data ≠ []

instance (algorithmIdentity bearer : UInt8) (data : List UInt8) :
    Decidable (supports algorithmIdentity bearer data) :=
  inferInstanceAs (Decidable (_ ∧ _))

/-- `ogs_nas_mac_calculate` -/
def macCalculate (algorithmIdentity : UInt8) (knasInt : List UInt8) (count : UInt32)
    (bearer direction : UInt8) (data : List UInt8) : Except Fault UInt32 :=
  if supports algorithmIdentity bearer data then
    .ok (algs.mac algorithmIdentity knasInt count bearer direction data)
  else .error .assertion

theorem macCalculate_eq_ok {algs : NasAlgorithms} {algorithmIdentity bearer direction : UInt8}
    {knasInt data : List UInt8} {count mac : UInt32}
    (h : algs.macCalculate algorithmIdentity knasInt count bearer direction data = .ok mac) :
    algs.mac algorithmIdentity knasInt count bearer direction data = mac := by
  unfold macCalculate at h
  split at h
  · exact Except.ok.inj h
  · cases h

/-- `ogs_nas_encrypt` -/
def encrypt (algorithmIdentity : UInt8) (knasEnc : List UInt8) (count : UInt32)
    (bearer direction : UInt8) (data : List UInt8) : Except Fault (List UInt8) :=
  if supports algorithmIdentity bearer data then
    .ok (algs.cipher algorithmIdentity knasEnc count bearer direction data)
  else .error .assertion

end NasAlgorithms

/-! ## Messages -/

/-- Security header types of the wire. -/
def plainNasMessage : UInt8 := 0

def integrityProtected : UInt8 := 1

def integrityProtectedAndCiphered : UInt8 := 2

def integrityProtectedAndNewSecurityContext : UInt8 := 3

def integrityProtectedAndCipheredWithNewSecurityContext : UInt8 := 4

/-- `ogs_nas_5gs_security_header_t` and what is behind it. -/
structure SecuredNas where
  extendedProtocolDiscriminator : UInt8
  securityHeaderType : UInt8
  messageAuthenticationCode : UInt32
  sequenceNumber : UInt8
  payload : List UInt8
  deriving DecidableEq

/-- `ogs_nas_security_header_type_t`. No type without integrity protection asks for more. -/
structure NasSecurityHeaderType where
  integrityProtected : Bool := false
  ciphered : Bool := false
  newSecurityContext : Bool := false
  plain : integrityProtected = false → ciphered = false ∧ newSecurityContext = false := by decide

namespace NasSecurityHeaderType

/-- The types of `ngap_send_to_nas`, which does not know of others. -/
def ofHeader (securityHeaderType : UInt8) : Option NasSecurityHeaderType :=
  if securityHeaderType = plainNasMessage then some {}
  else if securityHeaderType = Open5gs.integrityProtected then some { integrityProtected := true }
  else if securityHeaderType = integrityProtectedAndCiphered then
    some { integrityProtected := true, ciphered := true }
  else if securityHeaderType = integrityProtectedAndNewSecurityContext then
    some { integrityProtected := true, newSecurityContext := true }
  else if securityHeaderType = integrityProtectedAndCipheredWithNewSecurityContext then
    some { integrityProtected := true, ciphered := true, newSecurityContext := true }
  else none

/-- The type of a message that is deciphered already. -/
def deciphered (type : NasSecurityHeaderType) : NasSecurityHeaderType where
  integrityProtected := type.integrityProtected
  ciphered := false
  newSecurityContext := type.newSecurityContext
  plain h := ⟨rfl, (type.plain h).2⟩

end NasSecurityHeaderType

/-! ## Contexts -/

/-- What the security of messages reads and writes of `amf_ue_t`. -/
structure AmfUe where
  securityContextAvailable : Bool
  macFailed : Bool := false
  selectedIntAlgorithm : UInt8
  selectedEncAlgorithm : UInt8
  knasInt : List UInt8
  knasEnc : List UInt8
  dlCount : UInt32 := 0
  ulCount : SplitCount := {}
  accessType : UInt8 := 1
  deriving DecidableEq

namespace AmfUe

variable (amfUe : AmfUe)

/-- `nas_5gs_security_encode` of a message that needs protection, as the message and the context
behind it. `plain` is what `ogs_nas_5gs_plain_encode` returns. -/
def securityEncode (algs : NasAlgorithms) (type : NasSecurityHeaderType)
    (extendedProtocolDiscriminator securityHeaderType : UInt8) (plain : Option (List UInt8)) :
    Except Fault (Option SecuredNas × AmfUe) := do
  let amfUe := if type.newSecurityContext then { amfUe with dlCount := 0, ulCount := {} } else amfUe
  let ciphered := type.ciphered && amfUe.selectedEncAlgorithm != 0
  let integrityProtected := type.integrityProtected && amfUe.selectedIntAlgorithm != 0
  let sequenceNumber := (amfUe.dlCount &&& 0xFF).toUInt8
  match plain with
  | none => return (none, amfUe)
  | some new =>
    let new ← if ciphered then
        algs.encrypt amfUe.selectedEncAlgorithm amfUe.knasEnc amfUe.dlCount amfUe.accessType
          downlinkDirection new
      else .ok new
    let mac ← if integrityProtected then
        algs.macCalculate amfUe.selectedIntAlgorithm amfUe.knasInt amfUe.dlCount amfUe.accessType
          downlinkDirection (sequenceNumber :: new)
      else .ok 0
    let secured : SecuredNas :=
      { extendedProtocolDiscriminator
        securityHeaderType
        messageAuthenticationCode := mac
        sequenceNumber
        payload := new }
    let amfUe := { amfUe with
      dlCount := (amfUe.dlCount + 1) &&& 0xFFFFFF
      securityContextAvailable := true }
    return (some secured, amfUe)

/-- The count that a message is taken to have. A new context starts from the first one. -/
def receivedCount (newSecurityContext : Bool) (sequenceNumber : UInt8) : SplitCount :=
  (if newSecurityContext then {} else amfUe.ulCount).estimate sequenceNumber

/-- The flag behind the MAC of a message. -/
def macFails (algs : NasAlgorithms) (integrityProtected : Bool) (msg : SecuredNas) :
    Except Fault Bool :=
  if integrityProtected then do
    let mac ← algs.macCalculate amfUe.selectedIntAlgorithm amfUe.knasInt amfUe.ulCount.toUInt32
      amfUe.accessType uplinkDirection (msg.sequenceNumber :: msg.payload)
    return amfUe.macFailed || mac != msg.messageAuthenticationCode
  else return amfUe.macFailed

/-- What is left of a message, unless there is nothing to decipher. -/
def decipher (algs : NasAlgorithms) (ciphered : Bool) (payload : List UInt8) :
    Except Fault (Bool × List UInt8) :=
  if ciphered then
    if payload = [] then return (false, [])
    else do
      let payload ← algs.encrypt amfUe.selectedEncAlgorithm amfUe.knasEnc amfUe.ulCount.toUInt32
        amfUe.accessType uplinkDirection payload
      return (true, payload)
  else return (true, payload)

/-- `nas_5gs_security_decode`, as its result, the context behind it and what is left of the
message. -/
def securityDecode (algs : NasAlgorithms) (type : NasSecurityHeaderType) (msg : SecuredNas) :
    Except Fault (Bool × AmfUe × List UInt8) := do
  -- without a context nothing that the header says is believed
  let type := if amfUe.securityContextAvailable then type else {}
  let ciphered := type.ciphered && amfUe.selectedEncAlgorithm != 0
  let integrityProtected := type.integrityProtected && amfUe.selectedIntAlgorithm != 0
  if ciphered || integrityProtected then
    let amfUe := { amfUe with ulCount := amfUe.receivedCount type.newSecurityContext msg.sequenceNumber }
    let macFailed ← amfUe.macFails algs integrityProtected msg
    let (ok, payload) ← amfUe.decipher algs ciphered msg.payload
    return (ok, { amfUe with macFailed }, payload)
  else
    let ulCount := if type.newSecurityContext then {} else amfUe.ulCount
    return (true, { amfUe with ulCount }, msg.payload)

/-- The MAC of a message is the one under the count that it is taken to have. -/
def Verifies (algs : NasAlgorithms) (type : NasSecurityHeaderType) (msg : SecuredNas) : Prop :=
  algs.mac amfUe.selectedIntAlgorithm amfUe.knasInt
    (amfUe.receivedCount type.newSecurityContext msg.sequenceNumber).toUInt32 amfUe.accessType
    uplinkDirection (msg.sequenceNumber :: msg.payload) = msg.messageAuthenticationCode

instance (algs : NasAlgorithms) (type : NasSecurityHeaderType) (msg : SecuredNas) :
    Decidable (amfUe.Verifies algs type msg) :=
  inferInstanceAs (Decidable (_ = _))

/-- The context keeps a security context with an integrity algorithm. -/
structure Secure (amfUe : AmfUe) : Prop where
  available : amfUe.securityContextAvailable = true
  integrity : amfUe.selectedIntAlgorithm ≠ 0

variable {amfUe} {algs : NasAlgorithms} {type : NasSecurityHeaderType} {msg : SecuredNas}
  {ok : Bool} {amfUe' : AmfUe} {payload plain : List UInt8}
  {extendedProtocolDiscriminator securityHeaderType : UInt8}

/-- Of a context in force, a message changes its uplink count and whether a MAC has failed. -/
theorem securityDecode_eq_ok (h : amfUe.Secure)
    (hdecode : amfUe.securityDecode algs type msg = .ok (ok, amfUe', payload)) :
    ∃ macFailed, amfUe' = { amfUe with
      ulCount := if type.integrityProtected then
        amfUe.receivedCount type.newSecurityContext msg.sequenceNumber else amfUe.ulCount
      macFailed } ∧
      (macFailed = true ↔
        amfUe.macFailed = true ∨ type.integrityProtected = true ∧ ¬amfUe.Verifies algs type msg) := by
  unfold securityDecode at hdecode
  simp only [if_pos h.available] at hdecode
  cases hintegrity : type.integrityProtected with
  | false =>
    obtain ⟨hciphered, hnew⟩ := type.plain hintegrity
    simp only [hintegrity, hciphered, hnew, Bool.false_and, Bool.or_self, Bool.false_eq_true,
      if_false] at hdecode
    cases hdecode
    exact ⟨amfUe.macFailed, rfl, by simp⟩
  | true =>
    have halg : (amfUe.selectedIntAlgorithm != 0) = true := bne_iff_ne.mpr h.integrity
    simp only [hintegrity, halg, Bool.true_and, Bool.or_true, if_true] at hdecode
    obtain ⟨macFailed, hmac, hrest⟩ := Fallible.bind_eq_ok.mp hdecode
    obtain ⟨_, -, hpair⟩ := Fallible.bind_eq_ok.mp hrest
    cases hpair
    obtain ⟨mac, hcalculate, hfailed⟩ := Fallible.bind_eq_ok.mp hmac
    obtain rfl := NasAlgorithms.macCalculate_eq_ok hcalculate
    obtain rfl := Except.ok.inj hfailed
    exact ⟨_, rfl, by simp [Verifies]⟩

/-- The algorithms of a context are ones that there are. -/
structure Usable (amfUe : AmfUe) : Prop where
  integrity : amfUe.selectedIntAlgorithm ≤ 3
  ciphering : amfUe.selectedEncAlgorithm ≤ 3
  bearer : amfUe.accessType ≤ 0x1F

private theorem one_le_of_ne {alg : UInt8} (h : alg ≠ 0) : 1 ≤ alg := by
  have hne : alg.toNat ≠ 0 := fun heq => h (UInt8.toNat_inj.mp heq)
  rw [UInt8.le_iff_toNat_le]
  exact Nat.one_le_iff_ne_zero.mpr hne

/-- A context whose algorithms there are decodes every message with a payload. -/
theorem Usable.securityDecode (h : amfUe.Usable) (algs : NasAlgorithms)
    (type : NasSecurityHeaderType) (hpayload : msg.payload ≠ []) :
    ∃ amfUe' payload, amfUe.securityDecode algs type msg = .ok (true, amfUe', payload) := by
  unfold AmfUe.securityDecode
  dsimp only
  generalize (if amfUe.securityContextAvailable = true then type else {}) = believed
  by_cases hchecked : (believed.ciphered && amfUe.selectedEncAlgorithm != 0 ||
    believed.integrityProtected && amfUe.selectedIntAlgorithm != 0) = true
  · rw [if_pos hchecked]
    generalize hreceived : ({ amfUe with
      ulCount := amfUe.receivedCount believed.newSecurityContext msg.sequenceNumber } : AmfUe) =
        received
    have husable : received.Usable := hreceived ▸ ⟨h.integrity, h.ciphering, h.bearer⟩
    have halgs : received.selectedIntAlgorithm = amfUe.selectedIntAlgorithm ∧
        received.selectedEncAlgorithm = amfUe.selectedEncAlgorithm := hreceived ▸ ⟨rfl, rfl⟩
    rw [← halgs.1, ← halgs.2]
    have hmac : ∃ failed, received.macFails algs
        (believed.integrityProtected && received.selectedIntAlgorithm != 0) msg = .ok failed := by
      cases hintegrity : believed.integrityProtected && received.selectedIntAlgorithm != 0 with
      | false => exact ⟨_, rfl⟩
      | true =>
        have hne := bne_iff_ne.mp (Bool.and_eq_true_iff.mp hintegrity).2
        have hsupports : NasAlgorithms.supports received.selectedIntAlgorithm received.accessType
            (msg.sequenceNumber :: msg.payload) :=
          ⟨one_le_of_ne hne, husable.integrity, husable.bearer, List.cons_ne_nil _ _⟩
        rw [macFails, if_pos rfl, NasAlgorithms.macCalculate, if_pos hsupports]
        exact ⟨_, rfl⟩
    have hdecipher : ∃ payload, received.decipher algs
        (believed.ciphered && received.selectedEncAlgorithm != 0) msg.payload =
          .ok (true, payload) := by
      cases hciphered : believed.ciphered && received.selectedEncAlgorithm != 0 with
      | false => exact ⟨_, rfl⟩
      | true =>
        have hne := bne_iff_ne.mp (Bool.and_eq_true_iff.mp hciphered).2
        have hsupports : NasAlgorithms.supports received.selectedEncAlgorithm received.accessType
            msg.payload := ⟨one_le_of_ne hne, husable.ciphering, husable.bearer, hpayload⟩
        rw [decipher, if_pos rfl, if_neg hpayload, NasAlgorithms.encrypt, if_pos hsupports]
        exact ⟨_, rfl⟩
    obtain ⟨failed, hmac⟩ := hmac
    obtain ⟨payload, hdecipher⟩ := hdecipher
    rw [hmac, Fallible.ok_bind, hdecipher]
    exact ⟨_, _, rfl⟩
  · rw [if_neg hchecked]
    exact ⟨_, _, rfl⟩

/-- A message under a new context takes the first downlink count. -/
theorem securityEncode_of_new {secured : SecuredNas} (hnew : type.newSecurityContext = true)
    (hencode : amfUe.securityEncode algs type extendedProtocolDiscriminator securityHeaderType
      (some plain) = .ok (some secured, amfUe')) :
    amfUe' = { amfUe with dlCount := 1, ulCount := {}, securityContextAvailable := true } := by
  have hbind : amfUe.securityEncode algs type extendedProtocolDiscriminator securityHeaderType
      (some plain) =
      (if type.ciphered && amfUe.selectedEncAlgorithm != 0 then
        algs.encrypt amfUe.selectedEncAlgorithm amfUe.knasEnc 0 amfUe.accessType
          downlinkDirection plain else .ok plain) >>= fun new =>
        (if type.integrityProtected && amfUe.selectedIntAlgorithm != 0 then
          algs.macCalculate amfUe.selectedIntAlgorithm amfUe.knasInt 0 amfUe.accessType
            downlinkDirection (0 :: new) else .ok 0) >>= fun mac =>
            .ok (some ⟨extendedProtocolDiscriminator, securityHeaderType, mac, 0, new⟩, { amfUe with
              dlCount := 1
              ulCount := {}
              securityContextAvailable := true }) := by
    unfold securityEncode
    simp only [hnew, if_true]
    cases type.ciphered && amfUe.selectedEncAlgorithm != 0 <;>
      cases type.integrityProtected && amfUe.selectedIntAlgorithm != 0 <;> rfl
  rw [hbind] at hencode
  obtain ⟨payload, -, hencode⟩ := Fallible.bind_eq_ok.mp hencode
  obtain ⟨mac, -, hencode⟩ := Fallible.bind_eq_ok.mp hencode
  exact (Prod.mk.inj (Except.ok.inj hencode)).2.symm

/-- A message that is protected takes the downlink count and leaves the next one. -/
theorem securityEncode_eq_ok {result : Option SecuredNas} (h : amfUe.selectedIntAlgorithm ≠ 0)
    (hintegrity : type.integrityProtected = true) (hnew : type.newSecurityContext = false)
    (hencode : amfUe.securityEncode algs type extendedProtocolDiscriminator securityHeaderType
      (some plain) = .ok (result, amfUe')) :
    ∃ payload, result = some
        { extendedProtocolDiscriminator
          securityHeaderType
          messageAuthenticationCode := algs.mac amfUe.selectedIntAlgorithm amfUe.knasInt
            amfUe.dlCount amfUe.accessType downlinkDirection
            ((amfUe.dlCount &&& 0xFF).toUInt8 :: payload)
          sequenceNumber := (amfUe.dlCount &&& 0xFF).toUInt8
          payload } ∧
      amfUe' = { amfUe with
        dlCount := (amfUe.dlCount + 1) &&& 0xFFFFFF
        securityContextAvailable := true } := by
  have halg : (amfUe.selectedIntAlgorithm != 0) = true := bne_iff_ne.mpr h
  have hbind : amfUe.securityEncode algs type extendedProtocolDiscriminator securityHeaderType
      (some plain) =
      (if type.ciphered && amfUe.selectedEncAlgorithm != 0 then
        algs.encrypt amfUe.selectedEncAlgorithm amfUe.knasEnc amfUe.dlCount amfUe.accessType
          downlinkDirection plain else .ok plain) >>= fun new =>
        algs.macCalculate amfUe.selectedIntAlgorithm amfUe.knasInt amfUe.dlCount amfUe.accessType
          downlinkDirection ((amfUe.dlCount &&& 0xFF).toUInt8 :: new) >>= fun mac =>
            .ok (some ⟨extendedProtocolDiscriminator, securityHeaderType, mac,
              (amfUe.dlCount &&& 0xFF).toUInt8, new⟩, { amfUe with
                dlCount := (amfUe.dlCount + 1) &&& 0xFFFFFF
                securityContextAvailable := true }) := by
    unfold securityEncode
    simp only [hnew, hintegrity, halg, Bool.and_self, Bool.false_eq_true, if_false, if_true]
    cases type.ciphered && amfUe.selectedEncAlgorithm != 0 <;> rfl
  rw [hbind] at hencode
  obtain ⟨payload, -, hencode⟩ := Fallible.bind_eq_ok.mp hencode
  obtain ⟨mac, hmac, hencode⟩ := Fallible.bind_eq_ok.mp hencode
  obtain ⟨rfl, rfl⟩ := Prod.mk.inj (Except.ok.inj hencode)
  obtain rfl := NasAlgorithms.macCalculate_eq_ok hmac
  exact ⟨payload, rfl, rfl⟩

end AmfUe

end Quicup.Open5gs
