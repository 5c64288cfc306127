import Quicup.Ueransim.Nas.Messaging

/-!
# What requests show

Registration requests and service requests that are sent in CM-IDLE. Outside of the container
they should show the cleartext elements alone, and with ciphering the container should be the
complete request.
-/

namespace Quicup.Ueransim

/-- What the code relies on of the ciphers: they keep the length, and one takes the other back. -/
structure NasCrypto.StreamCiphers (crypto : NasCrypto) : Prop where
  decrypt_encrypt (alg : UInt8) (count : UInt32) (bearer direction : Nat) (data key : OctetString) :
    crypto.decryptEea alg count bearer direction
      (crypto.encryptEea alg count bearer direction data key) key = data
  length_encrypt (alg : UInt8) (count : UInt32) (bearer direction : Nat) (data key : OctetString) :
    (crypto.encryptEea alg count bearer direction data key).length = data.length
  length_decrypt (alg : UInt8) (count : UInt32) (bearer direction : Nat) (data key : OctetString) :
    (crypto.decryptEea alg count bearer direction data key).length = data.length

/-! ## Elements -/

/-- A request with the elements alone that `HasNonCleartext` does not test. -/
def RegistrationRequest.cleartext (request : RegistrationRequest) : RegistrationRequest where
  registrationType := request.registrationType
  nasKeySetIdentifier := request.nasKeySetIdentifier
  mobileIdentity := request.mobileIdentity
  ueSecurityCapability := request.ueSecurityCapability
  additionalGuti := request.additionalGuti
  ueStatus := request.ueStatus
  epsNasMessageContainer := request.epsNasMessageContainer

def ServiceRequest.cleartext (request : ServiceRequest) : ServiceRequest where
  ngKSI := request.ngKSI
  serviceType := request.serviceType
  tmsi := request.tmsi

namespace InitialNasMessage

/-- The message types that are sent with a container. -/
def isRequest : InitialNasMessage → Bool
  | deregistrationRequest _ => false
  | _ => true

def cleartext : InitialNasMessage → InitialNasMessage
  | registrationRequest request => .registrationRequest request.cleartext
  | serviceRequest request => .serviceRequest request.cleartext
  | deregistrationRequest request => .deregistrationRequest request

def requestedNSSAI : InitialNasMessage → Option OctetString
  | registrationRequest request => request.requestedNSSAI
  | _ => none

def nasMessageContainer : InitialNasMessage → Option OctetString
  | registrationRequest request => request.nasMessageContainer
  | serviceRequest request => request.nasMessageContainer
  | deregistrationRequest _ => none

def withoutContainer : InitialNasMessage → InitialNasMessage
  | registrationRequest request =>
    .registrationRequest { request with nasMessageContainer := none }
  | serviceRequest request => .serviceRequest { request with nasMessageContainer := none }
  | deregistrationRequest request => .deregistrationRequest request

theorem isRequest_cleartext (msg : InitialNasMessage) : msg.cleartext.isRequest = msg.isRequest := by
  cases msg <;> rfl

theorem messageType_cleartext (msg : InitialNasMessage) :
    msg.cleartext.onBuild.messageType = msg.onBuild.messageType := by
  cases msg <;> rfl

variable {first second msg : InitialNasMessage} {container : OctetString}

/-- The container apart, requests with the same cleartext differ in the NSSAI alone behind
`RemoveCleartextIEs`. -/
theorem withoutContainer_eq_iff (h : first.cleartext = second.cleartext) (c d : OctetString) :
    (first.removeCleartextIEs c).withoutContainer = (second.removeCleartextIEs d).withoutContainer ↔
      first.requestedNSSAI = second.requestedNSSAI := by
  cases first <;> cases second <;>
    simp_all [removeCleartextIEs, withoutContainer, requestedNSSAI, cleartext,
      RegistrationRequest.removeCleartextIEs, RegistrationRequest.cleartext,
      ServiceRequest.removeCleartextIEs, ServiceRequest.cleartext]

theorem removeCleartextIEs_of_not_hasNonCleartext (h : msg.hasNonCleartext = false) :
    msg.removeCleartextIEs [] = msg := by
  cases msg with
  | registrationRequest request =>
    cases request
    simp_all [hasNonCleartext, removeCleartextIEs, RegistrationRequest.hasNonCleartext,
      RegistrationRequest.removeCleartextIEs]
  | serviceRequest request =>
    cases request
    simp_all [hasNonCleartext, removeCleartextIEs, ServiceRequest.hasNonCleartext,
      ServiceRequest.removeCleartextIEs]
  | deregistrationRequest request => rfl

theorem nasMessageContainer_removeCleartextIEs (h : msg.isRequest = true) :
    (msg.removeCleartextIEs container).nasMessageContainer =
      if container.length = 0 then none else some container := by
  cases msg with
  | registrationRequest request => rfl
  | serviceRequest request => rfl
  | deregistrationRequest request => cases h

@[simp] theorem onBuild_removeCleartextIEs_messageType :
    (msg.removeCleartextIEs container).onBuild.messageType = msg.onBuild.messageType := by
  cases msg <;> rfl

private theorem fits_container (h : container.length < 65536) :
    ∀ value ∈ (if container.length = 0 then none else some container),
      IeFormat.type6.Fits value := by
  intro value hvalue
  split at hvalue
  · cases hvalue
  · cases hvalue
    exact h

/-- A request whose elements can be of their formats keeps them behind `RemoveCleartextIEs`. -/
theorem fits_removeCleartextIEs (h : msg.onBuild.Fits) (hcontainer : container.length < 65536) :
    (msg.removeCleartextIEs container).onBuild.Fits := by
  have hvalue := fits_container hcontainer
  have hnone {format : IeFormat} : ∀ value ∈ (none : Option OctetString), format.Fits value := nofun
  cases msg with
  | registrationRequest request =>
    refine ⟨h.big, h.little, h.mobileIdentity, ?_⟩
    have hoptionals := h.optionals
    simp only [onBuild, RegistrationRequest.onBuild, List.forall_mem_cons] at hoptionals
    obtain ⟨-, -, -, -, hcapability, hnssai, -, -, -, -, hstatus, hguti, -, -, -, heps, -⟩ :=
      hoptionals
    simp only [onBuild, RegistrationRequest.onBuild, removeCleartextIEs,
      RegistrationRequest.removeCleartextIEs, List.forall_mem_cons]
    exact ⟨hnone, hnone, hnone, hnone, hcapability, hnssai, hnone, hnone, hnone, hnone, hstatus,
      hguti, hnone, hnone, hnone, heps, hnone, hnone, hnone, hvalue, nofun⟩
  | serviceRequest request =>
    refine ⟨h.big, h.little, h.mobileIdentity, ?_⟩
    simp only [onBuild, ServiceRequest.onBuild, removeCleartextIEs,
      ServiceRequest.removeCleartextIEs, List.forall_mem_cons]
    exact ⟨hnone, hnone, hnone, hvalue, nofun⟩
  | deregistrationRequest request => exact h

end InitialNasMessage

variable {c t : Cursor}

/-- A container that is read is no longer than its length field can tell. -/
theorem InitialBuild.length_lt_of_decode {optionalDecoders : List OptionalIe}
    (hshort : ∀ ie ∈ optionalDecoders, ie.format.Short) {body : InitialBuild.Decoded}
    (h : InitialBuild.decode optionalDecoders c = .ok (body, t)) {iei : UInt8} {value : OctetString}
    (hvalue : valueOf iei body.ies = some value) : value.length < 65536 := by
  obtain ⟨octet, u, -, h⟩ := Read.bind_ok h
  obtain ⟨mobileIdentity, v, -, h⟩ := Read.bind_ok h
  obtain ⟨size, w, -, h⟩ := Read.bind_ok h
  obtain ⟨ies, x, hies, h⟩ := Read.bind_ok h
  obtain ⟨rfl, -⟩ := Prod.mk.inj (Except.ok.inj h)
  obtain ⟨ie, hmem, rfl⟩ := mem_of_valueOf hvalue
  exact length_lt_of_decodeOptionals hshort hies ie hmem

theorem InitialNasMessage.length_lt_of_decode {msg : InitialNasMessage}
    (h : InitialNasMessage.decode c = .ok (msg, t)) {container : OctetString}
    (hcontainer : msg.nasMessageContainer = some container) : container.length < 65536 := by
  obtain ⟨epd, u, -, h⟩ := Read.bind_ok h
  obtain ⟨sht, v, -, h⟩ := Read.bind_ok h
  obtain ⟨messageType, w, -, h⟩ := Read.bind_ok h
  by_cases hheader : epd ≠ mobilityManagementMessages ∨ sht ≠ notProtected
  · rw [if_pos hheader] at h
    cases h
  rw [if_neg hheader] at h
  by_cases hregistration : messageType = registrationRequestType
  · rw [if_pos hregistration] at h
    obtain ⟨body, x, hbody, h⟩ := Read.bind_ok h
    obtain ⟨rfl, -⟩ := Prod.mk.inj (Except.ok.inj h)
    exact InitialBuild.length_lt_of_decode (by decide) hbody hcontainer
  rw [if_neg hregistration] at h
  by_cases hservice : messageType = serviceRequestType
  · rw [if_pos hservice] at h
    obtain ⟨body, x, hbody, h⟩ := Read.bind_ok h
    obtain ⟨rfl, -⟩ := Prod.mk.inj (Except.ok.inj h)
    exact InitialBuild.length_lt_of_decode (by decide) hbody hcontainer
  rw [if_neg hservice] at h
  by_cases hderegistration : messageType = deregistrationRequestUeOriginatingType
  · rw [if_pos hderegistration] at h
    obtain ⟨body, x, hbody, h⟩ := Read.bind_ok h
    obtain ⟨rfl, -⟩ := Prod.mk.inj (Except.ok.inj h)
    cases hcontainer
  · rw [if_neg hderegistration] at h
    cases h

/-! ## What is sent -/

/-- A request as it is received: the security header type and the sequence number, where there is
a security header, and the request. -/
structure SentRequest where
  securityHeader : Option (UInt8 × UInt8)
  request : InitialNasMessage
  deriving DecidableEq

namespace SentRequest

/-- The message of the last octets. -/
def ofPlain (securityHeader : Option (UInt8 × UInt8)) (plain : OctetString) : Option SentRequest :=
  (InitialNasMessage.decode (Cursor.start plain)).toOption.map fun r => ⟨securityHeader, r.1⟩

def ofPdu : OctetString → Option SentRequest
  | epd :: sht :: octets =>
    if sht = notProtected then ofPlain none (epd :: sht :: octets)
    else
      match octets.drop 4 with
      | sequenceNumber :: plain => ofPlain (some (sht, sequenceNumber)) plain
      | [] => none
  | _ => none

theorem length_lt_of_ofPlain {securityHeader : Option (UInt8 × UInt8)} {plain : OctetString}
    {sent : SentRequest} (h : ofPlain securityHeader plain = some sent) {container : OctetString}
    (hcontainer : sent.request.nasMessageContainer = some container) : container.length < 65536 := by
  obtain ⟨⟨msg, t⟩, hdecode, rfl⟩ := Option.map_eq_some_iff.mp h
  cases hrun : InitialNasMessage.decode (Cursor.start plain) with
  | error fault =>
    rw [hrun] at hdecode
    cases hdecode
  | ok r =>
    rw [hrun] at hdecode
    obtain rfl := Option.some.inj hdecode
    exact InitialNasMessage.length_lt_of_decode hrun hcontainer

/-- What is sent apart from the MAC and the container. -/
def outside (sent : SentRequest) : SentRequest := { sent with request := sent.request.withoutContainer }

end SentRequest

/-- What the network deciphers a container to. -/
def NasCrypto.decipherContainer (crypto : NasCrypto) (ctx : NasSecurityContext)
    (container : OctetString) : OctetString :=
  if ctx.ciphering = ea0 then container
  else crypto.decryptEea ctx.ciphering ctx.uplinkCount.toOctet4 (bearer ctx.is3gppAccess) 0 container
    ctx.keys.kNasEnc

namespace NasMm

variable (crypto : NasCrypto) (ue : NasMm)

/-- A message is handed to RRC. -/
def Sends (msg : InitialNasMessage) (pdu : OctetString) : Prop :=
  ∃ ue', ue.sendNasMessage crypto (.initial msg) = .ok (.ok, ue') ∧
    ue'.rrcTask = ue.rrcTask ++ [.uplinkNasDelivery 0 pdu]

/-- Where there is a context, the container of a request with more than cleartext elements is the
complete request. -/
def Complete (msg : InitialNasMessage) (pdu : OctetString) : Prop :=
  ∀ ctx, ue.protectingNsCtx = some ctx → msg.hasNonCleartext = true →
    ∃ sent container, SentRequest.ofPdu pdu = some sent ∧
      sent.request.nasMessageContainer = some container ∧
      crypto.decipherContainer ctx container = msg.encode

/-- Two requests show the same, and are in their containers. -/
structure Conceals (first second : InitialNasMessage) (pdu₁ pdu₂ : OctetString) : Prop where
  same : (SentRequest.ofPdu pdu₁).map SentRequest.outside =
    (SentRequest.ofPdu pdu₂).map SentRequest.outside
  first : ue.Complete crypto first pdu₁
  second : ue.Complete crypto second pdu₂

/-- A request that goes into a container is no longer than a container can be. -/
def Contained (msg : InitialNasMessage) : Prop :=
  ∀ ctx, ue.protectingNsCtx = some ctx → msg.hasNonCleartext = true → msg.encode.length < 65536

variable {crypto ue} {msg first second : InitialNasMessage} {pdu pdu₁ pdu₂ : OctetString}

/-- What a request is sent with as its container, `[]` for none. -/
def Container (crypto : NasCrypto) (ue : NasMm) (msg : InitialNasMessage) (container : OctetString) :
    Prop :=
  match ue.protectingNsCtx with
  | none => container = []
  | some ctx =>
    if msg.hasNonCleartext then
      crypto.encryptData ctx.ciphering ctx.uplinkCount ctx.is3gppAccess msg.encode ctx.keys.kNasEnc =
        .ok container
    else container = []

/-- The security header of a request. -/
def requestHeader (ue : NasMm) (msg : InitialNasMessage) : Option (UInt8 × UInt8) :=
  ue.protectingNsCtx.map fun ctx =>
    (NasCrypto.makeSecurityHeaderType ctx msg.onBuild.messageType true, ctx.uplinkCount.sqn)

theorem ofPlain_encode (h : msg.onBuild.Fits) (hidentity : msg.onBuild.mobileIdentity ≠ noIdentity)
    (securityHeader : Option (UInt8 × UInt8)) :
    SentRequest.ofPlain securityHeader msg.encode = some ⟨securityHeader, msg⟩ := by
  have hcopy := InitialNasMessage.deepCopy_eq h
  rw [if_neg hidentity] at hcopy
  obtain ⟨⟨decoded, t⟩, hdecode, hmsg⟩ := Fallible.bind_eq_ok.mp hcopy
  obtain rfl : decoded = msg := Except.ok.inj hmsg
  rw [SentRequest.ofPlain, hdecode]
  rfl

theorem sends_iff : ue.Sends crypto msg pdu ↔
    (ue.sendNasMessage crypto (.initial msg)).map (fun r => (r.1, r.2.rrcTask)) =
      .ok (.ok, ue.rrcTask ++ [.uplinkNasDelivery 0 pdu]) := by
  rw [Fallible.map_eq_ok]
  constructor
  · rintro ⟨ue', hsend, hrrc⟩
    exact ⟨(.ok, ue'), hsend, congrArg _ hrrc⟩
  · rintro ⟨⟨rc, ue'⟩, hsend, hr⟩
    obtain ⟨rfl, hrrc⟩ := Prod.mk.inj hr
    exact ⟨ue', hsend, hrrc⟩

/-- The octets of a secured message, read as a request. -/
theorem ofPdu_secured {secured : SecuredMmMessage} (h : secured.encode = .ok pdu) :
    SentRequest.ofPdu pdu =
      SentRequest.ofPlain (some (secured.sht, secured.sequenceNumber)) secured.plainNasMessage := by
  unfold SecuredMmMessage.encode at h
  split at h
  · cases h
  · next hsht =>
    obtain rfl := Except.ok.inj h
    rw [List.cons_append, List.cons_append, SentRequest.ofPdu, if_neg hsht]
    have hdrop : (octetsBE 4 secured.messageAuthenticationCode.toNat ++
        secured.sequenceNumber :: secured.plainNasMessage).drop 4 =
        secured.sequenceNumber :: secured.plainNasMessage :=
      List.drop_left' (length_octetsBE 4 _)
    rw [hdrop]

/-- A request is sent with its container behind what is left of it. -/
theorem Sends.ofPdu_eq (hidle : ue.cmState = .idle) (hrequest : msg.isRequest = true)
    (hfits : msg.onBuild.Fits) (h : ue.Sends crypto msg pdu) :
    msg.onBuild.mobileIdentity ≠ noIdentity ∧
      ∃ container, ue.Container crypto msg container ∧ SentRequest.ofPdu pdu =
        SentRequest.ofPlain (ue.requestHeader msg) (msg.removeCleartextIEs container).encode := by
  obtain ⟨ue', hsend, hrrc⟩ := h
  have hidentity {copy : InitialNasMessage} (hcopy : msg.deepCopy = .ok copy) :
      msg.onBuild.mobileIdentity ≠ noIdentity ∧ copy = msg := by
    rw [InitialNasMessage.deepCopy_eq hfits] at hcopy
    split at hcopy
    · cases hcopy
    · next hne => exact ⟨hne, (Except.ok.inj hcopy).symm⟩
  have hpushed {pdu' : OctetString}
      (h : ue.rrcTask ++ [NmUeNasToRrc.uplinkNasDelivery 0 pdu'] =
        ue.rrcTask ++ [.uplinkNasDelivery 0 pdu]) : pdu' = pdu :=
    (NmUeNasToRrc.uplinkNasDelivery.inj (List.cons.inj (List.append_cancel_left h)).1).2
  cases sendNasMessage_eq_ok hsend with
  | @secured ctx secured ctx' pdu' hctx hlast hprotect hpdu =>
    obtain rfl := hpushed hrrc
    have hprotectIdle : crypto.protectIdle ctx msg = .ok (secured, ctx') := by
      rw [hidle] at hprotect
      cases msg with
      | registrationRequest request => exact hprotect
      | serviceRequest request => exact hprotect
      | deregistrationRequest request => cases hrequest
    obtain ⟨copy, container, hcopy, h⟩ := NasCrypto.protectIdle_eq_ok hprotectIdle
    obtain ⟨hne, rfl⟩ := hidentity hcopy
    have hheader : ue.requestHeader copy =
        some (NasCrypto.makeSecurityHeaderType ctx copy.onBuild.messageType true,
          ctx.uplinkCount.sqn) := by
      rw [requestHeader, hctx]
      rfl
    refine ⟨hne, ?_⟩
    by_cases hnon : copy.hasNonCleartext = true
    · rw [if_pos hnon] at h
      obtain ⟨-, hseq, hsht, -, hplain⟩ := NasCrypto.encrypt_eq_ok h.2
      rw [InitialNasMessage.onBuild_removeCleartextIEs_messageType] at hsht
      refine ⟨container, ?_, ?_⟩
      · rw [Container, hctx]
        exact (if_pos hnon).mpr h.1
      · rw [ofPdu_secured hpdu, hseq, hsht, hheader]
        exact congrArg _ hplain
    · rw [if_neg hnon] at h
      obtain ⟨-, hseq, hsht, -, hplain⟩ := NasCrypto.encrypt_eq_ok h
      refine ⟨[], ?_, ?_⟩
      · rw [Container, hctx]
        exact (if_neg hnon).mpr rfl
      · rw [ofPdu_secured hpdu, hseq, hsht, hheader,
          InitialNasMessage.removeCleartextIEs_of_not_hasNonCleartext ((Bool.not_eq_true _).mp hnon)]
        exact congrArg _ hplain
  | plain hctx hpdu =>
    obtain rfl := hpushed hrrc
    obtain ⟨copy, hcopy, h⟩ := Fallible.bind_eq_ok.mp hpdu
    obtain ⟨hne, rfl⟩ := hidentity hcopy
    obtain rfl := Except.ok.inj h
    have hheader : ue.requestHeader copy = none := by
      rw [requestHeader, hctx]
      rfl
    refine ⟨hne, [], ?_, ?_⟩
    · rw [Container, hctx]
    · rw [hheader]
      rfl

theorem Container.deciphers (hcipher : crypto.StreamCiphers) {ctx : NasSecurityContext}
    {container : OctetString} (hctx : ue.protectingNsCtx = some ctx)
    (hnon : msg.hasNonCleartext = true) (h : ue.Container crypto msg container) :
    crypto.decipherContainer ctx container = msg.encode ∧ container.length = msg.encode.length := by
  rw [Container, hctx] at h
  have hdata := (if_pos hnon).mp h
  unfold NasCrypto.encryptData at hdata
  unfold NasCrypto.decipherContainer
  split at hdata
  · next halg =>
    obtain rfl := Except.ok.inj hdata
    exact ⟨if_pos halg, rfl⟩
  · next halg =>
    split at hdata
    · cases hdata
    · obtain rfl := Except.ok.inj hdata
      rw [if_neg halg]
      exact ⟨hcipher.decrypt_encrypt .., hcipher.length_encrypt ..⟩

/-- The request that is read where the container can be read. -/
theorem Sends.ofPdu_eq_some (hidle : ue.cmState = .idle) (hrequest : msg.isRequest = true)
    (hfits : msg.onBuild.Fits) (h : ue.Sends crypto msg pdu) (hcipher : crypto.StreamCiphers)
    (hcontained : ue.Contained msg) :
    ∃ container, ue.Container crypto msg container ∧
      SentRequest.ofPdu pdu = some ⟨ue.requestHeader msg, msg.removeCleartextIEs container⟩ := by
  obtain ⟨hidentity, container, hcontainer, hpdu⟩ := h.ofPdu_eq hidle hrequest hfits
  refine ⟨container, hcontainer, hpdu.trans ?_⟩
  have hlength : container.length < 65536 := by
    cases hctx : ue.protectingNsCtx with
    | none =>
      rw [Container, hctx] at hcontainer
      exact hcontainer ▸ (by decide : 0 < 65536)
    | some ctx =>
      by_cases hnon : msg.hasNonCleartext = true
      · rw [(hcontainer.deciphers hcipher hctx hnon).2]
        exact hcontained ctx hctx hnon
      · rw [Container, hctx] at hcontainer
        exact (if_neg hnon).mp hcontainer ▸ (by decide : 0 < 65536)
  apply ofPlain_encode (InitialNasMessage.fits_removeCleartextIEs hfits hlength)
  cases msg with
  | registrationRequest request => exact hidentity
  | serviceRequest request => exact hidentity
  | deregistrationRequest request => exact hidentity

/-- The container is the complete request exactly where it is not too long. -/
theorem Sends.complete_iff (hidle : ue.cmState = .idle) (hrequest : msg.isRequest = true)
    (hfits : msg.onBuild.Fits) (h : ue.Sends crypto msg pdu) (hcipher : crypto.StreamCiphers) :
    ue.Complete crypto msg pdu ↔ ue.Contained msg := by
  constructor
  · intro hcomplete ctx hctx hnon
    obtain ⟨sent, container, hsent, hcontainer, hdeciphers⟩ := hcomplete ctx hctx hnon
    obtain ⟨-, content, -, hpdu⟩ := h.ofPdu_eq hidle hrequest hfits
    have hlt := SentRequest.length_lt_of_ofPlain (hpdu.symm.trans hsent) hcontainer
    have hlength : (crypto.decipherContainer ctx container).length = container.length := by
      unfold NasCrypto.decipherContainer
      split
      · rfl
      · exact hcipher.length_decrypt ..
    rwa [← hdeciphers, hlength]
  · intro hcontained ctx hctx hnon
    obtain ⟨container, hcontainer, hpdu⟩ :=
      h.ofPdu_eq_some hidle hrequest hfits hcipher hcontained
    obtain ⟨hdeciphers, hlength⟩ := hcontainer.deciphers hcipher hctx hnon
    refine ⟨_, container, hpdu, ?_, hdeciphers⟩
    have hne : container.length ≠ 0 := by
      rw [hlength]
      exact Nat.succ_ne_zero _
    rw [InitialNasMessage.nasMessageContainer_removeCleartextIEs hrequest, if_neg hne]

end NasMm

/-- Requests with the same cleartext elements conceal what they are sent with exactly where they
agree on the requested NSSAI and fit into their containers. -/
theorem requests_conceal_iff {crypto : NasCrypto} (hcipher : crypto.StreamCiphers) {ue : NasMm}
    (hidle : ue.cmState = .idle) {first second : InitialNasMessage} (hfirst : first.isRequest = true)
    (hfits₁ : first.onBuild.Fits) (hfits₂ : second.onBuild.Fits)
    (hcleartext : first.cleartext = second.cleartext) {pdu₁ pdu₂ : OctetString}
    (h₁ : ue.Sends crypto first pdu₁) (h₂ : ue.Sends crypto second pdu₂) :
    ue.Conceals crypto first second pdu₁ pdu₂ ↔
      first.requestedNSSAI = second.requestedNSSAI ∧ ue.Contained first ∧ ue.Contained second := by
  have hsecond : second.isRequest = true := by
    rw [← hfirst, ← first.isRequest_cleartext, hcleartext, second.isRequest_cleartext]
  have hheader : ue.requestHeader first = ue.requestHeader second := by
    rw [NasMm.requestHeader, ← first.messageType_cleartext, hcleartext, second.messageType_cleartext]
    rfl
  have hsame (hcontained₁ : ue.Contained first) (hcontained₂ : ue.Contained second) :
      (SentRequest.ofPdu pdu₁).map SentRequest.outside =
        (SentRequest.ofPdu pdu₂).map SentRequest.outside ↔
      first.requestedNSSAI = second.requestedNSSAI := by
    obtain ⟨container₁, -, hpdu₁⟩ := h₁.ofPdu_eq_some hidle hfirst hfits₁ hcipher hcontained₁
    obtain ⟨container₂, -, hpdu₂⟩ := h₂.ofPdu_eq_some hidle hsecond hfits₂ hcipher hcontained₂
    rw [hpdu₁, hpdu₂, hheader, Option.map_some, Option.map_some, Option.some_inj]
    rw [← InitialNasMessage.withoutContainer_eq_iff hcleartext container₁ container₂]
    constructor
    · exact congrArg SentRequest.request
    · exact congrArg (SentRequest.mk (ue.requestHeader second))
  have hcomplete₁ := h₁.complete_iff hidle hfirst hfits₁ hcipher
  have hcomplete₂ := h₂.complete_iff hidle hsecond hfits₂ hcipher
  constructor
  · intro hconceals
    have hcontained₁ := hcomplete₁.mp hconceals.first
    have hcontained₂ := hcomplete₂.mp hconceals.second
    exact ⟨(hsame hcontained₁ hcontained₂).mp hconceals.same, hcontained₁, hcontained₂⟩
  · rintro ⟨hnssai, hcontained₁, hcontained₂⟩
    exact ⟨(hsame hcontained₁ hcontained₂).mpr hnssai, hcomplete₁.mpr hcontained₁,
      hcomplete₂.mpr hcontained₂⟩

/-! ## A request with an NSSAI -/

/-- Ciphers that mask each octet. -/
def maskingCrypto : NasCrypto where
  computeMacEia _ _ _ _ _ _ := 0
  encryptEea _ _ _ _ data _ := data.map (· ^^^ 0x5A)
  decryptEea _ _ _ _ data _ := data.map (· ^^^ 0x5A)
  hmacSha256 _ _ := .replicate 32 0

theorem maskingCrypto_streamCiphers : maskingCrypto.StreamCiphers where
  decrypt_encrypt alg count bearer direction data key := by
    simp [maskingCrypto, Function.comp_def, UInt8.xor_assoc]
  length_encrypt alg count bearer direction data key := List.length_map _
  length_decrypt alg count bearer direction data key := List.length_map _

/-- A UE in CM-IDLE with a context that protects and ciphers. -/
def protectedIdleUe : NasMm where
  usim :=
    { currentNsCtx := some
        { integrity := 2
          ciphering := 2
          keys := { kNasInt := [1], kNasEnc := [2] } } }
  cmState := .idle

def requestWith (requestedNSSAI : Option OctetString) : InitialNasMessage :=
  .registrationRequest
    { registrationType := 2
      mobileIdentity := [0xF4, 0, 0x41, 0, 0, 0, 1]
      requestedNSSAI }

theorem requestWith_fits {requestedNSSAI : Option OctetString}
    (h : ∀ value ∈ requestedNSSAI, value.length < 256) : (requestWith requestedNSSAI).onBuild.Fits where
  big := (by decide : (0 : UInt8) < 16)
  little := (by decide : (2 : UInt8) < 16)
  mobileIdentity := .inl ⟨(by decide : 7 < 65536), 0xF4, rfl, by decide, by decide⟩
  optionals := by
    simp only [requestWith, InitialNasMessage.onBuild, RegistrationRequest.onBuild,
      List.forall_mem_cons]
    have hnone {format : IeFormat} : ∀ value ∈ (none : Option OctetString), format.Fits value :=
      fun value hmem => absurd hmem (Option.not_mem_none value)
    exact ⟨hnone, hnone, hnone, hnone, hnone, h, hnone, hnone, hnone, hnone, hnone, hnone, hnone,
      hnone, hnone, hnone, hnone, hnone, hnone, hnone, List.forall_mem_nil _⟩

/-- What the requests with and without an S-NSSAI are sent as. -/
def sentWithNssai : OctetString :=
  [126, 1, 0, 0, 0, 0, 0, 126, 0, 65, 2, 0, 7, 244, 0, 65, 0, 0, 0, 1, 47, 2, 1, 1, 113, 0, 17, 36,
    90, 27, 88, 90, 93, 174, 90, 27, 90, 90, 90, 91, 117, 88, 91, 91]

def sentWithoutNssai : OctetString :=
  [126, 1, 0, 0, 0, 0, 0, 126, 0, 65, 2, 0, 7, 244, 0, 65, 0, 0, 0, 1]

theorem sends_nssai : protectedIdleUe.Sends maskingCrypto (requestWith (some [1, 1])) sentWithNssai :=
  NasMm.sends_iff.mpr (by decide)

theorem sends_no_nssai : protectedIdleUe.Sends maskingCrypto (requestWith none) sentWithoutNssai :=
  NasMm.sends_iff.mpr (by decide)

theorem requests_conceal_iff_no_nssai :
    protectedIdleUe.Conceals maskingCrypto (requestWith (some [1, 1])) (requestWith none) sentWithNssai
        sentWithoutNssai ↔
      (requestWith (some [1, 1])).requestedNSSAI = (requestWith none).requestedNSSAI ∧
        protectedIdleUe.Contained (requestWith (some [1, 1])) ∧
        protectedIdleUe.Contained (requestWith none) := by
  have hfits₁ : (requestWith (some [1, 1])).onBuild.Fits := requestWith_fits (by decide)
  have hfits₂ : (requestWith none).onBuild.Fits := requestWith_fits fun value h => absurd h (Option.not_mem_none value)
  exact requests_conceal_iff maskingCrypto_streamCiphers rfl rfl hfits₁ hfits₂ rfl sends_nssai
    sends_no_nssai

/-- With ciphering, the NSSAI of a registration request stands in front of the container. -/
theorem requested_nssai_shown :
    ∃ pdu₁ pdu₂, protectedIdleUe.Sends maskingCrypto (requestWith (some [1, 1])) pdu₁ ∧
      protectedIdleUe.Sends maskingCrypto (requestWith none) pdu₂ ∧
      (requestWith (some [1, 1])).cleartext = (requestWith none).cleartext ∧
      ¬protectedIdleUe.Conceals maskingCrypto (requestWith (some [1, 1])) (requestWith none) pdu₁
        pdu₂ := by
  refine ⟨sentWithNssai, sentWithoutNssai, sends_nssai, sends_no_nssai, rfl, fun hconceals => ?_⟩
  exact absurd hconceals.same (by decide)

end Quicup.Ueransim
