import Quicup.Open5gs.Amf.UplinkCounts
import Quicup.Ueransim.Nas.Forgery

/-!
# Counts of AMF and UE

Behind a security mode procedure both sides protect messages with counts of which an octet is
sent, and messages get lost. As long as fewer than 255 messages in a row are lost, the estimated
counts are the ones that were used. The UE has a list of sequence numbers besides, and with it
refuses messages that it did not have yet.
-/

namespace Quicup.N1

open Quicup.Open5gs Quicup.Ueransim

/-! ## Algorithms of both sides -/

/-- Both sides have the same MACs, and what is ciphered does not become empty. -/
structure Interoperable (algs : NasAlgorithms) (crypto : NasCrypto) : Prop where
  mac : ∀ alg key count bearer direction data,
    crypto.computeMacEia alg count bearer direction data key =
      algs.mac alg key count (.ofNat bearer) (.ofNat direction) data
  encrypt : ∀ alg key count bearer direction data, data ≠ [] →
    crypto.encryptEea alg count bearer direction data key ≠ []

/-- A message of the AMF as the UE has it. -/
def received (msg : SecuredNas) : SecuredMmMessage where
  sht := msg.securityHeaderType
  messageAuthenticationCode := msg.messageAuthenticationCode
  sequenceNumber := msg.sequenceNumber
  plainNasMessage := msg.payload

/-- A message of the UE as the AMF has it. -/
def delivered (msg : SecuredMmMessage) : SecuredNas where
  extendedProtocolDiscriminator := mobilityManagementMessages
  securityHeaderType := msg.sht
  messageAuthenticationCode := msg.messageAuthenticationCode
  sequenceNumber := msg.sequenceNumber
  payload := msg.plainNasMessage

/-- The type of a message under the context in force. -/
def underContext (ciphered : Bool) : NasSecurityHeaderType where
  integrityProtected := true
  ciphered := ciphered
  plain h := Bool.noConfusion h

/-! ## Messages in both directions -/

/-- A message that one of both sides protects. -/
inductive N1Message
  | downlink (ciphered : Bool) (plain : List UInt8)
  | uplink (cmState : CmState) (msg : UplinkMmMessage)

/-- A message, and whether it arrives. -/
structure N1Event where
  message : N1Message
  arrives : Bool

/-- Both contexts, the messages in a row that were lost last in each direction, and how many
messages there were. -/
structure N1Counts where
  amfUe : AmfUe
  nsCtx : NasSecurityContext
  downlinkLost : Nat := 0
  uplinkLost : Nat := 0
  sent : Nat := 0
  deriving DecidableEq

namespace N1Counts

variable (algs : NasAlgorithms) (crypto : NasCrypto) (s : N1Counts)

/-- The AMF protects a message. -/
def sendDownlink (ciphered : Bool) (plain : List UInt8) : Option (SecuredNas × AmfUe) :=
  match s.amfUe.securityEncode algs (underContext ciphered) Ueransim.mobilityManagementMessages
    (if ciphered then Open5gs.integrityProtectedAndCiphered else Open5gs.integrityProtected)
    (some plain) with
  | .ok (some secured, amfUe) => some (secured, amfUe)
  | _ => none

/-- The UE protects a message, unless its counts have come to their end. Security Mode Completes
belong to the procedure. -/
def sendUplink (cmState : CmState) (msg : UplinkMmMessage) :
    Option (SecuredMmMessage × NasSecurityContext) :=
  if s.nsCtx.uplinkCount = .last ∨ msg.messageType = securityModeCompleteType ∨
      msg.messageType = securityModeCommandType then none
  else (crypto.protect s.nsCtx cmState msg).toOption

/-- The context of the UE behind a message. -/
def receiveDownlink (msg : SecuredMmMessage) : NasSecurityContext :=
  match s.nsCtx.verify crypto msg with
  | .ok (_, nsCtx) => nsCtx
  | .error _ => s.nsCtx

/-- The context of the AMF behind a message. -/
def receiveUplink (msg : SecuredNas) : AmfUe :=
  match NasSecurityHeaderType.ofHeader msg.securityHeaderType with
  | none => s.amfUe
  | some type =>
    match s.amfUe.securityDecode algs type msg with
    | .ok (_, amfUe, _) => amfUe
    | .error _ => s.amfUe

def sentBy (amfUe : AmfUe) (nsCtx : NasSecurityContext) : N1Counts :=
  { s with amfUe, nsCtx, sent := s.sent + 1 }

/-- A message is sent and arrives, or is lost with at most 253 ones before it. -/
def act (e : N1Event) : Option N1Counts :=
  if s.sent + 1 < 2 ^ 24 then
    match e.message with
    | .downlink ciphered plain =>
      if e.arrives = false ∧ 254 ≤ s.downlinkLost then none
      else
        (s.sendDownlink algs ciphered plain).map fun (secured, amfUe) =>
          if e.arrives then
            { s.sentBy amfUe (s.receiveDownlink crypto (received secured)) with downlinkLost := 0 }
          else { s.sentBy amfUe s.nsCtx with downlinkLost := s.downlinkLost + 1 }
    | .uplink cmState msg =>
      if e.arrives = false ∧ 254 ≤ s.uplinkLost then none
      else
        (s.sendUplink crypto cmState msg).map fun (secured, nsCtx) =>
          if e.arrives then
            { s.sentBy (s.receiveUplink algs (delivered secured)) nsCtx with uplinkLost := 0 }
          else { s.sentBy s.amfUe nsCtx with uplinkLost := s.uplinkLost + 1 }
  else none

/-- The UE takes a message for one with the count of the AMF, and accepts it. -/
def DownlinkAgrees (secured : SecuredNas) : Prop :=
  (s.nsCtx.estimatedDownlinkCount secured.sequenceNumber).toUInt32 = s.amfUe.dlCount ∧
    ∃ decrypted nsCtx, s.nsCtx.verify crypto (received secured) = .ok (.verified decrypted, nsCtx)

/-- The AMF takes a message for one with the count of the UE, and accepts it. -/
def UplinkAgrees (secured : SecuredMmMessage) : Prop :=
  ∃ type amfUe payload, NasSecurityHeaderType.ofHeader secured.sht = some type ∧
    s.amfUe.receivedCount type.newSecurityContext secured.sequenceNumber = s.nsCtx.uplinkCount ∧
    s.amfUe.securityDecode algs type (delivered secured) = .ok (true, amfUe, payload) ∧
    amfUe.macFailed = false

/-- A message that arrives is accepted with the count that was used. -/
def Agrees (e : N1Event) (_ : N1Counts) : Prop :=
  e.arrives = true →
    match e.message with
    | .downlink ciphered plain =>
      ∀ secured amfUe, s.sendDownlink algs ciphered plain = some (secured, amfUe) →
        s.DownlinkAgrees crypto secured
    | .uplink cmState msg =>
      ∀ secured nsCtx, s.sendUplink crypto cmState msg = some (secured, nsCtx) →
        s.UplinkAgrees algs secured

/-- The sequence number of a downlink message that arrives is not in the list of the UE. -/
def Unlisted (e : N1Event) : Prop :=
  match e.message with
  | .downlink _ _ =>
    e.arrives = true → (s.amfUe.dlCount &&& 0xFF).toUInt8 ∉ s.nsCtx.lastNasSequenceNums
  | .uplink _ _ => True

/-- The contexts are of one security context, whose messages are checked. -/
structure Shares (amfUe : AmfUe) (nsCtx : NasSecurityContext) : Prop where
  available : amfUe.securityContextAvailable = true
  macFailed : amfUe.macFailed = false
  protecting : nsCtx.Protecting
  integrity : amfUe.selectedIntAlgorithm = nsCtx.integrity
  ciphering : amfUe.selectedEncAlgorithm = nsCtx.ciphering
  knasInt : amfUe.knasInt = nsCtx.keys.kNasInt
  accessType : amfUe.accessType = .ofNat (NasCrypto.bearer nsCtx.is3gppAccess)

/-- A security mode procedure is complete: its messages had the first downlink count and the last
uplink count. -/
structure Completed : Prop where
  shares : Shares s.amfUe s.nsCtx
  dlCount : s.amfUe.dlCount = 1
  downlinkCount : s.nsCtx.downlinkCount = {}
  ulCount : s.amfUe.ulCount ≠ .last
  uplinkCount : s.nsCtx.uplinkCount = s.amfUe.ulCount.next
  downlinkLost : s.downlinkLost = 0
  uplinkLost : s.uplinkLost = 0
  sent : s.sent = 0

end N1Counts

/-- The messages of both sides, from the end of a security mode procedure on. -/
def n1System (algs : NasAlgorithms) (crypto : NasCrypto) : System N1Counts N1Event where
  init s := s.Completed
  step s e t := s.act algs crypto e = some t

namespace N1Counts

variable {algs : NasAlgorithms} {crypto : NasCrypto} {s t : N1Counts} {amfUe : AmfUe}
  {plain : List UInt8} {nsCtx : NasSecurityContext} {cmState : CmState} {secured : SecuredNas}
  {ciphered arrives : Bool} {msg : UplinkMmMessage}

/-! ## Procedures -/

/-- The counts behind a procedure that takes a context into use under which the UE has not
received anything. -/
theorem completed_of_procedure {amfUe₁ amfUe₂ : AmfUe} {type type' : NasSecurityHeaderType}
    {discriminator header : UInt8} {payload : List UInt8} {command : SecuredNas}
    {config : SecurityModeConfig} {hasEmergency : Bool} {usim usim' : Usim}
    {msg : SecurityModeCommand} {nsCtx' : NasSecurityContext} {complete : UplinkMmMessage}
    {secured : SecuredMmMessage} (hintegrity : amfUe.selectedIntAlgorithm ≠ 0)
    (hnew : type.newSecurityContext = true)
    (hencode : amfUe.securityEncode algs type discriminator header (some plain) =
      .ok (some command, amfUe₁))
    (hcommand : usim.securityModeCommand crypto config hasEmergency msg = .ok (.complete, usim'))
    (hfresh : ∀ which ctx, (usim.prepared msg).findSecurityContext msg.ksi = some (which, ctx) →
      which = .nonCurrent ∧ ctx.downlinkCount = {}) (hcurrent : usim'.currentNsCtx = some nsCtx)
    (hprotect : crypto.protect nsCtx cmState complete = .ok (secured, nsCtx'))
    (hnew' : type'.newSecurityContext = true)
    (hdecode : amfUe₁.securityDecode algs type' (delivered secured) = .ok (true, amfUe₂, payload))
    (hshares : Shares amfUe₂ nsCtx') : Completed { amfUe := amfUe₂, nsCtx := nsCtx' } := by
  have hamfUe₁ := AmfUe.securityEncode_of_new hnew hencode
  obtain ⟨hdownlink, huplink⟩ : nsCtx.downlinkCount = {} ∧ nsCtx.uplinkCount = {} := by
    cases Usim.securityModeCommand_eq_ok hcommand with
    | @taken which ctx clearNasCount htakes =>
      obtain ⟨rfl, hdownlink⟩ := hfresh which ctx htakes.found
      obtain rfl := Option.some.inj hcurrent
      exact ⟨ctx.process_downlinkCount_of_eq hdownlink, rfl⟩
  obtain ⟨_, _, _, _, hencrypt, -, -⟩ := NasCrypto.protect_eq_ok hprotect
  obtain ⟨rfl, hsqn, -⟩ := NasCrypto.encrypt_eq_ok hencrypt
  have hsecure : amfUe₁.Secure := ⟨by rw [hamfUe₁], by rw [hamfUe₁]; exact hintegrity⟩
  obtain ⟨macFailed, hamfUe₂, -⟩ := AmfUe.securityDecode_eq_ok hsecure hdecode
  have hcount : amfUe₁.receivedCount true 0 = {} := rfl
  have hul : amfUe₂.ulCount = {} := by
    rw [huplink] at hsqn
    rw [hamfUe₂, show (delivered secured).sequenceNumber = 0 from hsqn, hnew', hcount, hamfUe₁]
    exact ite_self _
  refine ⟨hshares, ?_, hdownlink, ?_, ?_, rfl, rfl, rfl⟩
  · rw [hamfUe₂, hamfUe₁]
  · rw [hul]
    decide
  · rw [hul]
    exact congrArg SplitCount.next huplink

/-! ## What is sent -/

theorem Shares.secure (h : Shares amfUe nsCtx) : amfUe.Secure :=
  ⟨h.available, h.integrity ▸ h.protecting.integrity⟩

theorem Shares.usable (h : Shares amfUe nsCtx) : amfUe.Usable := by
  refine ⟨h.integrity ▸ h.protecting.integrity_le, h.ciphering ▸ h.protecting.ciphering_le, ?_⟩
  rw [h.accessType]
  cases nsCtx.is3gppAccess <;> decide

/-- A downlink message has the next downlink count. -/
theorem sendDownlink_eq_some (h : Shares s.amfUe s.nsCtx)
    (hsend : s.sendDownlink algs ciphered plain = some (secured, amfUe)) :
    secured.sequenceNumber = (s.amfUe.dlCount &&& 0xFF).toUInt8 ∧
      secured.messageAuthenticationCode = algs.mac s.amfUe.selectedIntAlgorithm s.amfUe.knasInt
        s.amfUe.dlCount s.amfUe.accessType downlinkDirection
        (secured.sequenceNumber :: secured.payload) ∧
      amfUe = { s.amfUe with
        dlCount := (s.amfUe.dlCount + 1) &&& 0xFFFFFF
        securityContextAvailable := true } := by
  unfold sendDownlink at hsend
  split at hsend
  · next secured' amfUe' hencode =>
    obtain ⟨rfl, rfl⟩ := Prod.mk.inj (Option.some.inj hsend)
    obtain ⟨payload, hsecured, hamfUe⟩ :=
      AmfUe.securityEncode_eq_ok h.secure.integrity rfl rfl hencode
    obtain rfl := Option.some.inj hsecured
    exact ⟨rfl, rfl, hamfUe⟩
  · cases hsend

/-- An uplink message has the next uplink count. -/
theorem sendUplink_eq_some {secured : SecuredMmMessage} (hinter : Interoperable algs crypto)
    (h : Shares s.amfUe s.nsCtx) (hsend : s.sendUplink crypto cmState msg = some (secured, nsCtx)) :
    s.nsCtx.uplinkCount ≠ .last ∧ nsCtx = s.nsCtx.countOnEncrypt ∧
      secured.sequenceNumber = s.nsCtx.uplinkCount.sqn ∧ secured.plainNasMessage ≠ [] ∧
      (secured.sht = Ueransim.integrityProtected ∨
        secured.sht = Ueransim.integrityProtectedAndCiphered) ∧
      secured.messageAuthenticationCode = algs.mac s.amfUe.selectedIntAlgorithm s.amfUe.knasInt
        s.nsCtx.uplinkCount.toUInt32 s.amfUe.accessType uplinkDirection
        (secured.sequenceNumber :: secured.plainNasMessage) := by
  unfold sendUplink at hsend
  split at hsend
  · cases hsend
  · next hnot =>
    obtain ⟨hlast, hcomplete, hcommand⟩ := not_or.mp hnot |>.imp_right not_or.mp
    cases hprotect : crypto.protect s.nsCtx cmState msg with
    | error fault =>
      rw [hprotect] at hsend
      cases hsend
    | ok result =>
      rw [hprotect] at hsend
      obtain rfl := Option.some.inj hsend
      obtain ⟨plain, msgType, bypass, noHeader, hencrypt, hplain, htype⟩ :=
        NasCrypto.protect_eq_ok hprotect
      obtain ⟨hctx, hsqn, hsht, hmac, hdata⟩ := NasCrypto.encrypt_eq_ok hencrypt
      have hne : msgType ≠ securityModeCompleteType ∧ msgType ≠ securityModeCommandType := by
        rcases htype with rfl | rfl | rfl | rfl
        · exact ⟨hcomplete, hcommand⟩
        all_goals exact ⟨by decide, by decide⟩
      refine ⟨hlast, hctx, hsqn, ?_, ?_, ?_⟩
      · cases bypass with
        | true => exact hdata ▸ hplain
        | false =>
          rw [if_neg Bool.false_ne_true] at hdata
          unfold NasCrypto.encryptData at hdata
          split at hdata
          · exact Except.ok.inj hdata ▸ hplain
          · split at hdata
            · cases hdata
            · rw [← Except.ok.inj hdata]
              exact hinter.encrypt _ _ _ _ _ _ hplain
      · rw [hsht, NasCrypto.makeSecurityHeaderType, if_neg hne.1, if_neg hne.2,
          if_neg h.protecting.kNasInt]
        split
        · exact .inl rfl
        · exact .inr rfl
      · rw [NasCrypto.computeMac, if_neg h.protecting.integrity,
          if_neg (UInt8.not_lt.mpr h.protecting.integrity_le), hinter.mac] at hmac
        rw [h.integrity, h.knasInt, h.accessType, hsqn]
        exact (Except.ok.inj hmac).symm

/-! ## What is known of the counts -/

/-- The counts of both sides are as far apart as messages were lost. Behind the last message the
downlink count may have wrapped around. -/
structure Known (s : N1Counts) : Prop where
  shares : Shares s.amfUe s.nsCtx
  downlink : s.sent + 1 < 2 ^ 24 →
    s.amfUe.dlCount.toNat = s.nsCtx.downlinkCount.toNat + s.downlinkLost + 1 ∧
      s.amfUe.dlCount.toNat ≤ s.sent + 1
  downlinkLost : s.downlinkLost ≤ 254
  uplink : s.nsCtx.uplinkCount.toNat = s.amfUe.ulCount.toNat + s.uplinkLost + 1
  uplinkLost : s.uplinkLost ≤ 254

/-- The downlink count of the AMF. -/
def downlinkCount (s : N1Counts) : SplitCount := .ofNat s.amfUe.dlCount.toNat

theorem Known.estimate (h : s.Known) (hsent : s.sent + 1 < 2 ^ 24) :
    s.nsCtx.estimatedDownlinkCount (s.amfUe.dlCount &&& 0xFF).toUInt8 = s.downlinkCount ∧
      s.downlinkCount.toUInt32 = s.amfUe.dlCount := by
  obtain ⟨hdownlink, hle⟩ := h.downlink hsent
  have hlt : s.amfUe.dlCount.toNat < 2 ^ 24 := by omega
  have hnumber := SplitCount.toNat_ofNat hlt
  have hlost := h.downlinkLost
  refine ⟨?_, SplitCount.toUInt32_ofNat hlt⟩
  rw [← SplitCount.sqn_ofNat]
  apply SplitCount.estimate_eq
  · rw [hnumber]
    omega
  · rw [hnumber]
    omega

theorem Known.authentic (h : s.Known) (hinter : Interoperable algs crypto)
    (hsent : s.sent + 1 < 2 ^ 24)
    (hsend : s.sendDownlink algs ciphered plain = some (secured, amfUe)) :
    s.nsCtx.Authentic crypto (received secured) := by
  obtain ⟨hsqn, hmac, -⟩ := sendDownlink_eq_some h.shares hsend
  obtain ⟨hestimate, hnumber⟩ := h.estimate hsent
  have hcount : s.nsCtx.estimatedDownlinkCount (received secured).sequenceNumber =
      s.downlinkCount := by
    rw [← hestimate, ← hsqn]
    rfl
  have hlow : s.downlinkCount.sqn = secured.sequenceNumber := by
    rw [hsqn]
    exact SplitCount.sqn_ofNat _
  rw [NasSecurityContext.Authentic, hcount, NasCrypto.computeMac,
    if_neg h.shares.protecting.integrity,
    if_neg (UInt8.not_lt.mpr h.shares.protecting.integrity_le), hinter.mac, NasCount.toOctet4,
    hnumber, hlow]
  apply congrArg Except.ok
  change _ = secured.messageAuthenticationCode
  rw [hmac, h.shares.integrity, h.shares.knasInt, h.shares.accessType]
  rfl

/-- A downlink message is accepted exactly if its sequence number is not in the list. -/
theorem Known.downlinkAgrees_iff (h : s.Known) (hinter : Interoperable algs crypto)
    (hsent : s.sent + 1 < 2 ^ 24)
    (hsend : s.sendDownlink algs ciphered plain = some (secured, amfUe)) :
    s.DownlinkAgrees crypto secured ↔
      (s.amfUe.dlCount &&& 0xFF).toUInt8 ∉ s.nsCtx.lastNasSequenceNums := by
  obtain ⟨hsqn, -, -⟩ := sendDownlink_eq_some h.shares hsend
  obtain ⟨hestimate, hnumber⟩ := h.estimate hsent
  rw [← hsqn]
  constructor
  · rintro ⟨-, decrypted, nsCtx, hverify⟩ hmem
    rw [NasSecurityContext.verify_of_mem h.shares.protecting.integrity hmem] at hverify
    cases hverify
  · intro hmem
    obtain ⟨decrypted, hverify⟩ := @NasSecurityContext.verify_of_authentic crypto s.nsCtx
      (received secured) h.shares.protecting hmem (h.authentic hinter hsent hsend)
    refine ⟨?_, decrypted, _, hverify⟩
    rw [hsqn, hestimate, hnumber]

/-- An uplink message is always accepted. -/
theorem Known.uplinkAgrees (h : s.Known) (hinter : Interoperable algs crypto)
    {secured : SecuredMmMessage} (hsend : s.sendUplink crypto cmState msg = some (secured, nsCtx)) :
    s.UplinkAgrees algs secured ∧ s.receiveUplink algs (delivered secured) =
      { s.amfUe with ulCount := s.nsCtx.uplinkCount } := by
  obtain ⟨-, -, hsqn, hpayload, hsht, hmac⟩ := sendUplink_eq_some hinter h.shares hsend
  have hestimate : s.amfUe.ulCount.estimate secured.sequenceNumber = s.nsCtx.uplinkCount := by
    have huplink := h.uplink
    have hlost := h.uplinkLost
    rw [hsqn]
    apply SplitCount.estimate_eq
    · omega
    · omega
  have htype : ∃ type, NasSecurityHeaderType.ofHeader secured.sht = some type ∧
      type.integrityProtected = true ∧ type.newSecurityContext = false := by
    rcases hsht with hsht | hsht
    · rw [hsht]
      exact ⟨_, rfl, rfl, rfl⟩
    · rw [hsht]
      exact ⟨_, rfl, rfl, rfl⟩
  obtain ⟨type, htype, hintegrity, hnew⟩ := htype
  have hcount : s.amfUe.receivedCount type.newSecurityContext secured.sequenceNumber =
      s.nsCtx.uplinkCount := by
    rw [hnew]
    exact hestimate
  obtain ⟨amfUe, payload, hdecode⟩ :=
    @AmfUe.Usable.securityDecode s.amfUe (delivered secured) h.shares.usable algs type hpayload
  obtain ⟨macFailed, hamfUe, hfailed⟩ := AmfUe.securityDecode_eq_ok h.shares.secure hdecode
  have hverifies : s.amfUe.Verifies algs type (delivered secured) := by
    change algs.mac _ _ (s.amfUe.receivedCount _ secured.sequenceNumber).toUInt32 _ _ _ = _
    rw [hcount]
    exact hmac.symm
  have hsound : macFailed = false := by
    rw [Bool.eq_false_iff, ne_eq, hfailed, h.shares.macFailed]
    exact fun hor => hor.elim Bool.false_ne_true fun hfails => hfails.2 hverifies
  have hbehind : amfUe = { s.amfUe with ulCount := s.nsCtx.uplinkCount } := by
    rw [hamfUe, hintegrity, if_pos rfl, hsound, show (delivered secured).sequenceNumber =
      secured.sequenceNumber from rfl, hcount, ← h.shares.macFailed]
  refine ⟨⟨type, amfUe, payload, htype, hcount, hdecode, ?_⟩, ?_⟩
  · rw [hbehind]
    exact h.shares.macFailed
  · rw [receiveUplink, show (delivered secured).securityHeaderType = secured.sht from rfl, htype]
    dsimp only
    rw [hdecode, hbehind]

/-! ## Steps and runs -/

theorem toNat_next_dlCount {dlCount : UInt32} (h : dlCount.toNat + 1 < 2 ^ 24) :
    ((dlCount + 1) &&& 0xFFFFFF).toNat = dlCount.toNat + 1 := by
  have hadd : (dlCount + 1).toNat = (dlCount.toNat + 1) % 2 ^ 32 := UInt32.toNat_add ..
  have hand : ((dlCount + 1) &&& 0xFFFFFF).toNat = (dlCount + 1).toNat % 2 ^ 24 :=
    Nat.and_two_pow_sub_one_eq_mod _ 24
  omega

/-- The AMF has sent a message. -/
theorem Shares.sentDownlink (h : Shares amfUe nsCtx) (dlCount : UInt32) :
    Shares { amfUe with dlCount, securityContextAvailable := true } nsCtx :=
  ⟨rfl, h.macFailed, h.protecting, h.integrity, h.ciphering, h.knasInt, h.accessType⟩

/-- The UE has a message. -/
theorem receiveDownlink_eq (hshares : Shares s.amfUe s.nsCtx)
    (hmem : secured.sequenceNumber ∉ s.nsCtx.lastNasSequenceNums)
    (hauthentic : s.nsCtx.Authentic crypto (received secured)) :
    s.receiveDownlink crypto (received secured) =
      (s.nsCtx.noted secured.sequenceNumber).updateDownlinkCount
        (s.nsCtx.estimatedDownlinkCount secured.sequenceNumber) := by
  obtain ⟨decrypted, hverify⟩ := @NasSecurityContext.verify_of_authentic crypto s.nsCtx
    (received secured) hshares.protecting hmem hauthentic
  rw [receiveDownlink, hverify]
  rfl

/-- A downlink message goes on with what is known, unless it arrives with a number in the list. -/
theorem Known.step_downlink (h : s.Known) (hinter : Interoperable algs crypto)
    (hstep : s.act algs crypto ⟨.downlink ciphered plain, arrives⟩ = some t) :
    (s.Agrees algs crypto ⟨.downlink ciphered plain, arrives⟩ t ↔
      s.Unlisted ⟨.downlink ciphered plain, arrives⟩) ∧
    (s.Unlisted ⟨.downlink ciphered plain, arrives⟩ → t.Known) := by
  unfold act at hstep
  split at hstep
  · next hsent =>
    dsimp only at hstep
    split at hstep
    · cases hstep
    · next hroom =>
      obtain ⟨⟨secured, amfUe⟩, hsend, rfl⟩ := Option.map_eq_some_iff.mp hstep
      obtain ⟨hsqn, -, hamfUe⟩ := sendDownlink_eq_some h.shares hsend
      obtain ⟨hdownlink, hle⟩ := h.downlink hsent
      have hnext (hmore : s.sent + 1 + 1 < 2 ^ 24) :
          amfUe.dlCount.toNat = s.amfUe.dlCount.toNat + 1 := by
        rw [hamfUe]
        exact toNat_next_dlCount (by omega)
      have hshares : Shares amfUe s.nsCtx := hamfUe ▸ h.shares.sentDownlink _
      have hul : amfUe.ulCount = s.amfUe.ulCount := by rw [hamfUe]
      cases arrives with
      | false =>
        refine ⟨⟨fun _ hfalse => Bool.noConfusion hfalse, fun _ hfalse => Bool.noConfusion hfalse⟩,
          fun _ => ⟨hshares, fun hmore => ⟨?_, ?_⟩, ?_, ?_, h.uplinkLost⟩⟩
        · change amfUe.dlCount.toNat = s.nsCtx.downlinkCount.toNat + (s.downlinkLost + 1) + 1
          rw [hnext hmore, hdownlink, Nat.add_assoc _ s.downlinkLost 1]
        · change amfUe.dlCount.toNat ≤ s.sent + 1 + 1
          rw [hnext hmore]
          omega
        · exact Nat.not_le.mp fun hfull => hroom ⟨rfl, hfull⟩
        · change s.nsCtx.uplinkCount.toNat = amfUe.ulCount.toNat + s.uplinkLost + 1
          rw [hul, h.uplink]
      | true =>
        constructor
        · constructor
          · intro hagrees _
            exact (h.downlinkAgrees_iff hinter hsent hsend).mp (hagrees rfl secured amfUe hsend)
          · intro hunlisted _ secured' amfUe' hsend'
            exact (h.downlinkAgrees_iff hinter hsent hsend').mpr (hunlisted rfl)
        · intro hunlisted
          have hmem : secured.sequenceNumber ∉ s.nsCtx.lastNasSequenceNums :=
            hsqn ▸ hunlisted rfl
          have hreceive := receiveDownlink_eq h.shares hmem (h.authentic hinter hsent hsend)
          have hcount : (s.receiveDownlink crypto (received secured)).downlinkCount =
              s.downlinkCount := by
            rw [hreceive, ← (h.estimate hsent).1, ← hsqn]
            rfl
          have hlt : s.amfUe.dlCount.toNat < 2 ^ 24 := by omega
          rw [if_pos rfl]
          refine ⟨?_, fun hmore => ⟨?_, ?_⟩, Nat.zero_le _, ?_, h.uplinkLost⟩
          · change Shares amfUe (s.receiveDownlink crypto (received secured))
            rw [hreceive]
            exact ⟨hshares.available, hshares.macFailed, ⟨hshares.protecting.integrity,
              hshares.protecting.integrity_le, hshares.protecting.ciphering_le,
              hshares.protecting.kNasInt⟩, hshares.integrity, hshares.ciphering, hshares.knasInt,
              hshares.accessType⟩
          · simp only [sentBy, Nat.add_zero]
            rw [hnext hmore, hcount, downlinkCount, SplitCount.toNat_ofNat hlt]
          · change amfUe.dlCount.toNat ≤ s.sent + 1 + 1
            rw [hnext hmore]
            omega
          · change (s.receiveDownlink crypto _).uplinkCount.toNat =
              amfUe.ulCount.toNat + s.uplinkLost + 1
            rw [hreceive, hul, ← h.uplink]
            rfl
  · cases hstep

/-- An uplink message is always in order. -/
theorem Known.step_uplink (h : s.Known) (hinter : Interoperable algs crypto)
    (hstep : s.act algs crypto ⟨.uplink cmState msg, arrives⟩ = some t) :
    s.Agrees algs crypto ⟨.uplink cmState msg, arrives⟩ t ∧ t.Known := by
  unfold act at hstep
  split at hstep
  · next hsent =>
    dsimp only at hstep
    split at hstep
    · cases hstep
    · next hroom =>
      obtain ⟨⟨secured, nsCtx⟩, hsend, rfl⟩ := Option.map_eq_some_iff.mp hstep
      obtain ⟨hlast, rfl, -⟩ := sendUplink_eq_some hinter h.shares hsend
      have hnext : s.nsCtx.countOnEncrypt.uplinkCount.toNat = s.nsCtx.uplinkCount.toNat + 1 :=
        SplitCount.toNat_next hlast
      have hdownlink (hmore : s.sent + 1 + 1 < 2 ^ 24) :
          s.amfUe.dlCount.toNat = s.nsCtx.downlinkCount.toNat + s.downlinkLost + 1 ∧
            s.amfUe.dlCount.toNat ≤ s.sent + 1 + 1 :=
        (h.downlink hsent).imp_right fun hle => Nat.le_succ_of_le hle
      have hshares : Shares s.amfUe s.nsCtx.countOnEncrypt :=
        ⟨h.shares.available, h.shares.macFailed, h.shares.protecting.countOnEncrypt,
          h.shares.integrity, h.shares.ciphering, h.shares.knasInt, h.shares.accessType⟩
      cases arrives with
      | false =>
        refine ⟨fun hfalse => Bool.noConfusion hfalse,
          ⟨hshares, hdownlink, h.downlinkLost, ?_, Nat.not_le.mp fun hfull => hroom ⟨rfl, hfull⟩⟩⟩
        change s.nsCtx.countOnEncrypt.uplinkCount.toNat =
          s.amfUe.ulCount.toNat + (s.uplinkLost + 1) + 1
        rw [hnext, h.uplink, Nat.add_assoc _ s.uplinkLost 1]
      | true =>
        obtain ⟨hagrees, hreceive⟩ := h.uplinkAgrees hinter hsend
        refine ⟨fun _ secured' nsCtx' hsend' => (h.uplinkAgrees hinter hsend').1, ?_⟩
        rw [if_pos rfl, hreceive]
        refine ⟨⟨hshares.available, hshares.macFailed, hshares.protecting, hshares.integrity,
          hshares.ciphering, hshares.knasInt, hshares.accessType⟩, hdownlink, h.downlinkLost, ?_,
          Nat.zero_le _⟩
        simp only [sentBy, Nat.add_zero]
        exact hnext
  · cases hstep

theorem Completed.known (h : s.Completed) : s.Known := by
  refine ⟨h.shares, fun _ => ?_, h.downlinkLost ▸ Nat.zero_le _, ?_, h.uplinkLost ▸ Nat.zero_le _⟩
  · rw [h.dlCount, h.downlinkCount, h.downlinkLost, h.sent]
    exact ⟨rfl, Nat.le_refl _⟩
  · rw [h.uplinkCount, h.uplinkLost, SplitCount.toNat_next h.ulCount]

theorem known_of_run (hinter : Interoperable algs crypto) {events : List N1Event}
    (h : (n1System algs crypto).Run Unlisted events s) : s.Known := by
  apply h.invariant
  · exact fun s hcompleted => hcompleted.known
  · rintro s ⟨message, arrives⟩ t hknown hunlisted hstep
    cases message with
    | downlink ciphered plain => exact (hknown.step_downlink hinter hstep).2 hunlisted
    | uplink cmState msg => exact (hknown.step_uplink hinter hstep).2

end N1Counts

/-- The messages that all arrive with the counts they were sent with, and are accepted, are those
where no downlink message arrives with a sequence number that the UE has in its list. -/
theorem counts_agree_iff {algs : NasAlgorithms} {crypto : NasCrypto}
    (hinter : Interoperable algs crypto) (events : List N1Event) (s : N1Counts) :
    (n1System algs crypto).StepsRun (N1Counts.Agrees algs crypto) events s ↔
      (n1System algs crypto).Run N1Counts.Unlisted events s := by
  apply System.stepsRun_iff (N1Counts.known_of_run hinter)
  rintro s ⟨message, arrives⟩ t hknown hstep
  cases message with
  | downlink ciphered plain => exact (hknown.step_downlink hinter hstep).1
  | uplink cmState msg => exact iff_of_true (hknown.step_uplink hinter hstep).1 trivial

/-! ## Losses -/

theorem summing_interoperable : Interoperable summingAlgorithms summingCrypto where
  mac _ _ _ _ _ _ := List.foldl_map.symm
  encrypt _ _ _ _ _ _ h := h

/-- Both sides behind a procedure. -/
def completedCounts : N1Counts where
  amfUe := { integrityContext {} with knasInt := [1], dlCount := 1 }
  nsCtx := { guardedNsCtx with uplinkCount := ⟨0, 1⟩ }

theorem completedCounts_completed : completedCounts.Completed := by
  refine ⟨⟨rfl, rfl, ⟨?_, ?_, ?_, ?_⟩, rfl, rfl, rfl, rfl⟩, rfl, rfl, ?_, rfl, rfl, rfl, rfl⟩
  · exact guardedNsCtx_protecting.integrity
  · exact guardedNsCtx_protecting.integrity_le
  · exact guardedNsCtx_protecting.ciphering_le
  · exact guardedNsCtx_protecting.kNasInt
  · decide

/-- A Configuration Update Command. -/
def update (arrives : Bool) : N1Event := ⟨.downlink true [0x7E, 0, 0x54], arrives⟩

def countsBehindUpdate : N1Counts where
  amfUe := { completedCounts.amfUe with dlCount := 2 }
  nsCtx := { completedCounts.nsCtx with downlinkCount := ⟨0, 1⟩, lastNasSequenceNums := [1] }
  sent := 1

/-- Both sides behind two messages that arrived and 254 that did not. -/
def countsAfterLosses : N1Counts where
  amfUe := { completedCounts.amfUe with dlCount := 257 }
  nsCtx :=
    { completedCounts.nsCtx with downlinkCount := ⟨0, 2⟩, lastNasSequenceNums := [1, 2] }
  downlinkLost := 254
  sent := 256

theorem counts_agree_iff_summing :
    (n1System summingAlgorithms summingCrypto).StepsRun
      (N1Counts.Agrees summingAlgorithms summingCrypto) [update true] countsBehindUpdate := by
  have hstep : completedCounts.act summingAlgorithms summingCrypto (update true) =
      some countsBehindUpdate := by
    decide
  apply (counts_agree_iff summing_interoperable _ _).mpr
  exact .single completedCounts_completed (fun _ => List.not_mem_nil) hstep

/-- Behind 254 losses in a row a number is back that the UE still has in its list. -/
theorem genuine_refused_after_losses :
    (n1System summingAlgorithms summingCrypto).Run System.unrestricted
        (.replicate 2 (update true) ++ .replicate 254 (update false)) countsAfterLosses ∧
      ∃ t, (n1System summingAlgorithms summingCrypto).step countsAfterLosses (update true) t ∧
        ¬countsAfterLosses.Agrees summingAlgorithms summingCrypto (update true) t := by
  have hrun : (List.replicate 2 (update true) ++ List.replicate 254 (update false)).foldlM
      (fun s => s.act summingAlgorithms summingCrypto) completedCounts =
        some countsAfterLosses := by
    decide +kernel
  obtain ⟨t, ht⟩ : ∃ t, countsAfterLosses.act summingAlgorithms summingCrypto (update true) =
      some t :=
    Option.isSome_iff_exists.mp (by decide)
  obtain ⟨⟨secured, amfUe⟩, hsend⟩ : ∃ sent,
      countsAfterLosses.sendDownlink summingAlgorithms true [0x7E, 0, 0x54] = some sent :=
    Option.isSome_iff_exists.mp (by decide)
  refine ⟨System.run_foldlM (fun _ _ _ h => ⟨trivial, h⟩) completedCounts_completed hrun, t, ht,
    fun hagrees => ?_⟩
  obtain ⟨-, decrypted, nsCtx, hverify⟩ := hagrees rfl secured amfUe hsend
  have hsqn : secured.sequenceNumber = 1 := by
    have hnumber : (countsAfterLosses.sendDownlink summingAlgorithms true
        [0x7E, 0, 0x54]).map (·.1.sequenceNumber) = some 1 := by
      decide
    rw [hsend] at hnumber
    exact Option.some.inj hnumber
  have hmem : (received secured).sequenceNumber ∈ countsAfterLosses.nsCtx.lastNasSequenceNums := by
    change secured.sequenceNumber ∈ _
    rw [hsqn]
    exact List.mem_cons_self
  have hintegrity : countsAfterLosses.nsCtx.integrity ≠ ia0 := by decide
  rw [NasSecurityContext.verify_of_mem hintegrity hmem] at hverify
  cases hverify

end Quicup.N1
