import Quicup.Core.System
import Quicup.Open5gs.Amf.NasSecurity

/-!
# Uplink counts of the AMF

Sequences of uplink messages for one security context. Forged messages should leave the uplink
count where it is, and a message that verifies should have a count above those of the messages
that have verified before.
-/

namespace Quicup.Open5gs

/-- A context, and the counts that messages have verified with, the last one first. -/
structure UplinkState where
  amfUe : AmfUe
  verified : List SplitCount := []

/-- A message and the type that it comes with. -/
structure UplinkNas where
  type : NasSecurityHeaderType
  msg : SecuredNas

namespace UplinkState

variable (algs : NasAlgorithms) (s : UplinkState) (e : UplinkNas) (t : UplinkState)

/-- The MAC of a message is checked, and it verifies. -/
def Verified : Prop := e.type.integrityProtected = true ∧ s.amfUe.Verifies algs e.type e.msg

instance : Decidable (s.Verified algs e) := inferInstanceAs (Decidable (_ ∧ _))

/-- A message is decoded. -/
def Decodes : Prop :=
  ∃ ok payload, s.amfUe.securityDecode algs e.type e.msg = .ok (ok, t.amfUe, payload) ∧
    t.verified = if s.Verified algs e then t.amfUe.ulCount :: s.verified else s.verified

/-- Only a message that verifies changes the count, and it has a count above all before. -/
structure Sound : Prop where
  unchanged : ¬s.Verified algs e → t.amfUe.ulCount = s.amfUe.ulCount
  above : s.Verified algs e → ∀ count ∈ s.verified, count.toNat < t.amfUe.ulCount.toNat

/-- A message whose MAC fails has the sequence number of the count. One that verifies has
another, the header does not start from the first count again unless it is reached without a
wrap of the sequence number, and the counts have not come to their end. -/
structure InOrder : Prop where
  failed : e.type.integrityProtected = true → ¬s.amfUe.Verifies algs e.type e.msg →
    e.msg.sequenceNumber = s.amfUe.ulCount.sqn ∧
      (e.type.newSecurityContext = true → s.amfUe.ulCount.overflow = 0)
  verified : s.Verified algs e → s.verified ≠ [] →
    if e.type.newSecurityContext then
      s.amfUe.ulCount.overflow = 0 ∧ s.amfUe.ulCount.sqn < e.msg.sequenceNumber
    else
      e.msg.sequenceNumber ≠ s.amfUe.ulCount.sqn ∧
        (e.msg.sequenceNumber < s.amfUe.ulCount.sqn → s.amfUe.ulCount.overflow ≠ 0xFFFF)

end UplinkState

/-- The messages for a context with an integrity algorithm. -/
def uplinkSystem (algs : NasAlgorithms) : System UplinkState UplinkNas where
  init s := s.amfUe.Secure ∧ s.verified = []
  step s e t := s.Decodes algs e t

namespace UplinkState

variable {algs : NasAlgorithms} {s : UplinkState} {e : UplinkNas} {t : UplinkState} {amfUe : AmfUe}
  {new : Bool} {sequenceNumber : UInt8}

/-- What is known where all messages so far were in order: the count is the last one that has
verified, and the greatest. -/
structure Known (s : UplinkState) : Prop where
  secure : s.amfUe.Secure
  last : s.verified ≠ [] → s.amfUe.ulCount ∈ s.verified
  greatest : ∀ count ∈ s.verified, count.toNat ≤ s.amfUe.ulCount.toNat

theorem Decodes.ulCount (hsecure : s.amfUe.Secure) (h : s.Decodes algs e t) :
    t.amfUe.ulCount = if e.type.integrityProtected then
      s.amfUe.receivedCount e.type.newSecurityContext e.msg.sequenceNumber else s.amfUe.ulCount := by
  obtain ⟨ok, payload, hdecode, -⟩ := h
  obtain ⟨macFailed, ht, -⟩ := AmfUe.securityDecode_eq_ok hsecure hdecode
  rw [ht]

theorem Decodes.secure (hsecure : s.amfUe.Secure) (h : s.Decodes algs e t) : t.amfUe.Secure := by
  obtain ⟨ok, payload, hdecode, -⟩ := h
  obtain ⟨macFailed, ht, -⟩ := AmfUe.securityDecode_eq_ok hsecure hdecode
  rw [ht]
  exact ⟨hsecure.available, hsecure.integrity⟩

/-- A message leaves the count as it is exactly where its sequence number is the one of the
count. -/
theorem receivedCount_eq_iff :
    amfUe.receivedCount new sequenceNumber = amfUe.ulCount ↔
      sequenceNumber = amfUe.ulCount.sqn ∧ (new = true → amfUe.ulCount.overflow = 0) := by
  cases new with
  | false => simp [AmfUe.receivedCount, SplitCount.estimate_eq_self_iff]
  | true => simp [AmfUe.receivedCount, SplitCount.first_estimate_eq_iff, and_comm]

theorem lt_receivedCount_iff :
    amfUe.ulCount.toNat < (amfUe.receivedCount new sequenceNumber).toNat ↔
      if new then amfUe.ulCount.overflow = 0 ∧ amfUe.ulCount.sqn < sequenceNumber
      else sequenceNumber ≠ amfUe.ulCount.sqn ∧
        (sequenceNumber < amfUe.ulCount.sqn → amfUe.ulCount.overflow ≠ 0xFFFF) := by
  cases new with
  | false => exact SplitCount.toNat_lt_estimate_iff
  | true => exact SplitCount.toNat_lt_first_estimate_iff

/-- A message is decoded soundly exactly where it is in order. -/
theorem Known.sound_iff (h : s.Known) (hstep : s.Decodes algs e t) :
    s.Sound algs e t ↔ s.InOrder algs e := by
  have hcount := hstep.ulCount h.secure
  constructor
  · intro hsound
    refine ⟨fun hintegrity hfails => ?_, fun hverified hnonempty => ?_⟩
    · have hsame := hsound.unchanged fun hverified => hfails hverified.2
      rw [hcount, if_pos hintegrity] at hsame
      exact receivedCount_eq_iff.mp hsame
    · have habove := hsound.above hverified _ (h.last hnonempty)
      rw [hcount, if_pos hverified.1] at habove
      exact lt_receivedCount_iff.mp habove
  · intro horder
    refine ⟨fun hnot => ?_, fun hverified count hmem => ?_⟩
    · rw [hcount]
      split
      · next hintegrity =>
        exact receivedCount_eq_iff.mpr
          (horder.failed hintegrity fun hverifies => hnot ⟨hintegrity, hverifies⟩)
      · rfl
    · have habove := lt_receivedCount_iff.mpr
        (horder.verified hverified (List.ne_nil_of_mem hmem))
      rw [hcount, if_pos hverified.1]
      exact (h.greatest count hmem).trans_lt habove

/-- A message in order keeps what is known. -/
theorem Known.decodes (h : s.Known) (horder : s.InOrder algs e) (hstep : s.Decodes algs e t) :
    t.Known := by
  have hsound := (h.sound_iff hstep).mpr horder
  have hsecure := hstep.secure h.secure
  obtain ⟨ok, payload, -, hverified⟩ := hstep
  by_cases hnow : s.Verified algs e
  · rw [if_pos hnow] at hverified
    refine ⟨hsecure, fun _ => ?_, fun count hmem => ?_⟩
    · rw [hverified]
      exact List.mem_cons_self ..
    · rw [hverified] at hmem
      rcases List.mem_cons.mp hmem with rfl | hmem
      · exact Nat.le_refl _
      · exact (hsound.above hnow count hmem).le
  · rw [if_neg hnow] at hverified
    refine ⟨hsecure, ?_, ?_⟩
    · rw [hverified, hsound.unchanged hnow]
      exact h.last
    · rw [hverified, hsound.unchanged hnow]
      exact h.greatest

theorem known_of_run {messages : List UplinkNas}
    (h : (uplinkSystem algs).Run (InOrder algs) messages s) : s.Known := by
  apply h.invariant
  · rintro s ⟨hsecure, hnone⟩
    refine ⟨hsecure, fun hsome => absurd hnone hsome, ?_⟩
    rw [hnone]
    simp
  · exact fun s e t hknown horder hstep => hknown.decodes horder hstep

end UplinkState

/-- The messages that are all decoded soundly are those that are all in order. -/
theorem uplink_sound_iff (algs : NasAlgorithms) (messages : List UplinkNas) (s : UplinkState) :
    (uplinkSystem algs).StepsRun (UplinkState.Sound algs) messages s ↔
      (uplinkSystem algs).Run (UplinkState.InOrder algs) messages s := by
  apply System.stepsRun_iff UplinkState.known_of_run
  exact fun s e t hknown hstep => hknown.sound_iff hstep

/-- A MAC that adds up the count and the octets. -/
def summingAlgorithms : NasAlgorithms where
  mac _ _ count _ _ data := (data.map UInt8.toUInt32).foldl (· + ·) count
  cipher _ _ _ _ _ data := data

/-- A context with the integrity algorithm 2, at a count. -/
def integrityContext (ulCount : SplitCount) : AmfUe where
  securityContextAvailable := true
  selectedIntAlgorithm := 2
  selectedEncAlgorithm := 0
  knasInt := []
  knasEnc := []
  ulCount := ulCount

/-- An integrity protected message with sequence number 1. -/
def firstUplink (messageAuthenticationCode : UInt32) (newSecurityContext : Bool) : UplinkNas where
  type := { integrityProtected := true, newSecurityContext, plain := nofun }
  msg :=
    { extendedProtocolDiscriminator := 0x7E
      securityHeaderType := if newSecurityContext then 3 else 1
      messageAuthenticationCode
      sequenceNumber := 1
      payload := [0x7E, 0, 0x43] }

/-- Behind a message with count 257 that has verified, the same message verifies once more, and
a forged one for a new context takes the count back to 1. -/
theorem uplink_replayed_and_reset :
    ∃ s, (uplinkSystem summingAlgorithms).Run System.unrestricted [firstUplink 451 false] s ∧
      (∃ t, (uplinkSystem summingAlgorithms).step s (firstUplink 451 false) t ∧
        ¬s.Sound summingAlgorithms (firstUplink 451 false) t) ∧
      ∃ t, (uplinkSystem summingAlgorithms).step s (firstUplink 0 true) t ∧
        ¬s.Sound summingAlgorithms (firstUplink 0 true) t := by
  let before : UplinkState := ⟨integrityContext ⟨1, 0⟩, []⟩
  let behind : UplinkState := ⟨integrityContext ⟨1, 1⟩, [⟨1, 1⟩]⟩
  have hinit : (uplinkSystem summingAlgorithms).init before := ⟨⟨rfl, by decide⟩, rfl⟩
  have hverified : before.Verified summingAlgorithms (firstUplink 451 false) := by decide
  have hagain : behind.Verified summingAlgorithms (firstUplink 451 false) := by decide
  have hforged : ¬behind.Verified summingAlgorithms (firstUplink 0 true) := by decide
  refine ⟨behind, ?_, ⟨⟨behind.amfUe, [⟨1, 1⟩, ⟨1, 1⟩]⟩, ?_, fun hsound => ?_⟩,
    ⟨{ integrityContext ⟨0, 1⟩ with macFailed := true }, [⟨1, 1⟩]⟩, ?_, fun hsound => ?_⟩
  · exact .single hinit trivial
      ⟨true, [0x7E, 0, 0x43], by decide, (if_pos hverified).symm⟩
  · exact ⟨true, [0x7E, 0, 0x43], by decide, (if_pos hagain).symm⟩
  · have habove := hsound.above hagain ⟨1, 1⟩ (List.mem_cons_self ..)
    exact Nat.lt_irrefl _ habove
  · exact ⟨true, [0x7E, 0, 0x43], by decide, (if_neg hforged).symm⟩
  · have hsame := hsound.unchanged hforged
    exact absurd hsame (by decide)

end Quicup.Open5gs
