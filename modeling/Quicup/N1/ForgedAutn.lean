import Quicup.N1.KeyAgreement

/-!
# AUTNs that are forged

The USIM takes a fresh SQN over before the MAC of its AUTN is known to be good. An AUTN without a
good MAC leaves the SQNs as they were where its SQN is not fresh.
-/

namespace Quicup.Ueransim

namespace SqnManager

variable {m : SqnManager} {sqn : Sqn}

/-- A call changes the manager exactly where it takes the SQN over. -/
theorem checkSqn_snd_eq_iff : (m.checkSqn sqn).2 = m ↔ m.isFresh sqn.value = false := by
  constructor
  · intro heq
    by_contra hfresh
    rw [Bool.not_eq_false] at hfresh
    have hchecked : (m.checkSqn sqn).1 = true := by rw [checkSqn, if_pos hfresh]
    have hstored : (m.checkSqn sqn).2.storedSeq sqn = _ := seq_stored_checkSqn sqn
    rw [heq, if_pos ⟨hchecked, rfl⟩] at hstored
    exact absurd hstored (isFresh_iff.mp hfresh).1.ne
  · intro hstale
    rw [checkSqn, if_neg (by simp [hstale])]

end SqnManager

namespace UeAuth

variable (f : MilenageFunctions) (config : AuthConfig) (ue : UeAuth)

/-- The MAC of an AUTN is that of its SQN. -/
def macMatches (rand autn : Vector UInt8 16) : Prop :=
  Autn.mac autn = (config.calculateMilenage f (config.receivedSQN f rand autn) rand false).macA

instance (rand autn : Vector UInt8 16) : Decidable (macMatches f config rand autn) :=
  inferInstanceAs (Decidable (_ = _))

/-- An AUTN that is turned down for its MAC or its separation bit leaves the SQNs as they were,
and any later AUTN is judged as if it had not come. -/
def LeavesSqn (rand autn : Vector UInt8 16) : Prop :=
  ∀ outcome ue', ue.validateAutn f config rand autn = (outcome, ue') →
    outcome = .macFailure ∨ outcome = .amfSeparationBitFailure →
    ue'.usim.sqnMng = ue.usim.sqnMng ∧
      ∀ rand' autn', (ue'.validateAutn f config rand' autn').1 =
        (ue.validateAutn f config rand' autn').1

variable {f config ue} {rand autn : Vector UInt8 16} {ue' : UeAuth}

/-- The outcomes of `validateAutn`, and the manager behind them. -/
theorem validateAutn_eq :
    ue.validateAutn f config rand autn =
      if Autn.separationBit autn = false then (.amfSeparationBitFailure, ue)
      else
        (if ¬macMatches f config rand autn then .macFailure
          else if ue.usim.sqnMng.isFresh (config.receivedSQN f rand autn).value then .ok
          else .synchronisationFailure,
        { ue with usim := { ue.usim with
          sqnMng := (ue.usim.sqnMng.checkSqn (config.receivedSQN f rand autn)).2 } }) := by
  have hchecked : (ue.usim.sqnMng.checkSqn (config.receivedSQN f rand autn)).1 =
      ue.usim.sqnMng.isFresh (config.receivedSQN f rand autn).value := by
    unfold SqnManager.checkSqn
    split <;> simp_all
  rw [← hchecked]
  have hmac : macMatches f config rand autn ↔ ¬Autn.mac autn ≠
      (config.calculateMilenage f (config.receivedSQN f rand autn) rand false).macA := not_not.symm
  unfold validateAutn
  cases hbit : Autn.separationBit autn with
  | false => rfl
  | true =>
    simp only [Bool.not_true, Bool.false_eq_true, reduceIte, Bool.true_eq_false, hmac, not_not]
    change (if Autn.mac autn ≠
        (config.calculateMilenage f (config.receivedSQN f rand autn) rand false).macA then _ else
      if (!(ue.usim.sqnMng.checkSqn (config.receivedSQN f rand autn)).1) = true then _ else _) = _
    by_cases hne : Autn.mac autn ≠
      (config.calculateMilenage f (config.receivedSQN f rand autn) rand false).macA
    · rw [if_pos hne, if_pos hne]
      rfl
    · rw [if_neg hne, if_neg hne]
      cases hfresh : (ue.usim.sqnMng.checkSqn (config.receivedSQN f rand autn)).1 with
      | false => rfl
      | true => rfl

/-- What is said of an AUTN depends on the SQNs that are kept. -/
theorem validateAutn_fst_congr (h : ue'.usim.sqnMng = ue.usim.sqnMng) :
    (ue'.validateAutn f config rand autn).1 = (ue.validateAutn f config rand autn).1 := by
  rw [validateAutn_eq, validateAutn_eq, h]
  split <;> rfl

end UeAuth

/-- An AUTN that is turned down leaves the SQNs as they were, exactly if it does not bring a fresh
SQN under the separation bit and without the MAC of that SQN. -/
theorem forged_autn_iff (f : MilenageFunctions) (config : AuthConfig) (ue : UeAuth)
    (rand autn : Vector UInt8 16) :
    ue.LeavesSqn f config rand autn ↔
      ¬(Autn.separationBit autn = true ∧ ¬UeAuth.macMatches f config rand autn ∧
        ue.usim.sqnMng.isFresh (config.receivedSQN f rand autn).value = true) := by
  constructor
  · rintro hleaves ⟨hbit, hmac, hfresh⟩
    have hrun : ue.validateAutn f config rand autn = _ := UeAuth.validateAutn_eq
    rw [if_neg (by simp [hbit]), if_pos hmac] at hrun
    have hsame := (hleaves _ _ hrun (.inl rfl)).1
    rw [SqnManager.checkSqn_snd_eq_iff, hfresh] at hsame
    cases hsame
  · intro hnot outcome ue' hrun hfailed
    have hsame : ue'.usim.sqnMng = ue.usim.sqnMng := by
      rw [UeAuth.validateAutn_eq] at hrun
      by_cases hbit : Autn.separationBit autn = false
      · rw [if_pos hbit] at hrun
        rw [(Prod.mk.inj hrun).2]
      · rw [if_neg hbit] at hrun
        obtain ⟨houtcome, rfl⟩ := Prod.mk.inj hrun
        by_cases hmac : UeAuth.macMatches f config rand autn
        · rw [if_neg (not_not.mpr hmac)] at houtcome
          subst houtcome
          split at hfailed <;> simp at hfailed
        · apply SqnManager.checkSqn_snd_eq_iff.mpr
          by_contra hfresh
          exact hnot ⟨by simpa using hbit, hmac, by simpa using hfresh⟩
    exact ⟨hsame, fun rand' autn' => UeAuth.validateAutn_fst_congr hsame⟩

end Quicup.Ueransim

namespace Quicup.N1

open Ueransim

/-- An AUTN with an SQN below 256, under a MAC of one octet over and over. -/
def autnOf (sqn mac : UInt8) : Vector UInt8 16 :=
  #v[0, 0, 0, 0, 0, sqn, 0x80, 0, mac, mac, mac, mac, mac, mac, mac, mac]

/-- Behind an AUTN with SEQ 4 under a wrong MAC, the genuine one with SEQ 3 is out of
synchronisation, which was good before. -/
theorem not_forged_autn :
    ∃ ue', newUe.validateAutn zeroMilenage zeroConfig (.replicate 16 1) (autnOf 0x81 1) =
        (.macFailure, ue') ∧
      ue'.usim.sqnMng ≠ newUe.usim.sqnMng ∧
      (newUe.validateAutn zeroMilenage zeroConfig (.replicate 16 2) (autnOf 0x61 0)).1 = .ok ∧
      (ue'.validateAutn zeroMilenage zeroConfig (.replicate 16 2) (autnOf 0x61 0)).1 =
        .synchronisationFailure := by
  have hfailed : (newUe.validateAutn zeroMilenage zeroConfig (.replicate 16 1) (autnOf 0x81 1)).1 =
      .macFailure := by decide +kernel
  have hpair (run : AutnValidationRes × UeAuth) (h : run.1 = .macFailure) :
      run = (.macFailure, run.2) := by
    rw [← h]
  refine ⟨_, hpair _ hfailed, ?_, ?_, ?_⟩
  all_goals decide +kernel

end Quicup.N1
