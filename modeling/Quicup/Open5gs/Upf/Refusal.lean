import Quicup.Open5gs.Upf.N4Steps

/-!
# Establishments that are refused

A session is added before its establishment is looked at, and no exit of the handler removes
it. A refused establishment leaves the UPF as it was only if no session was added.
-/

namespace Quicup.Open5gs

open Pfcp

variable {env : N4Env} {st st' : UpfState}

/-! ## Refused establishments -/

/-- An establishment of a session that is there leaves the list of sessions. -/
theorem sessList_establishment {sess : Nat} {req : SessionEstablishmentRequest} {answer : N4Answer}
    (h : upfN4HandleSessionEstablishmentRequest env (some sess) req st = .ok (answer, st')) :
    st'.n4.sessList = st.n4.sessList := congrArg Prod.snd (establishment_step h).slots

/-- A session is added for a new CP F-SEID if there is a free slot for it. -/
theorem addByMessage_new {fSeid : FSeid} {found : Option Nat}
    (hnew : ∀ known, st.n4.findBySmfN4FSeid env.pad fSeid ≠ .ok (some known))
    (h : st.addByMessage env (some fSeid) = .ok (found, st')) :
    (((fSeid.ipv4 = false ∧ fSeid.ipv6 = false) ∨ st.n4.upfSessPool.free = []) ∧
        found = none ∧ st' = st) ∨
      ¬((fSeid.ipv4 = false ∧ fSeid.ipv6 = false) ∨ st.n4.upfSessPool.free = []) ∧
        ∃ n, found = some n ∧ st'.n4.sessList = st.n4.sessList ++ [n] := by
  unfold UpfState.addByMessage at h
  dsimp only at h
  split at h
  · next haddr =>
    cases h
    exact .inl ⟨.inl haddr, rfl, rfl⟩
  · next haddr =>
    obtain ⟨known, hfind, h⟩ := Fallible.bind_eq_ok.mp h
    cases known with
    | some known => exact absurd hfind (hnew known)
    | none =>
      obtain ⟨⟨added, n4⟩, hadd, h⟩ := Fallible.bind_eq_ok.mp h
      obtain ⟨hfree, rfl, rfl⟩ | ⟨hfree, n, rfl, hlist, -⟩ := slots_upfSessAdd hadd
      · cases h
        exact .inl ⟨.inr hfree, rfl, rfl⟩
      · cases h
        exact .inr ⟨not_or.mpr ⟨haddr, hfree⟩, n, rfl, hlist⟩

/-- An establishment with a new CP F-SEID that is refused leaves the UPF as it was exactly if
there is no session for it: its F-SEID has no address, or no slot is free. -/
theorem refused_establishment_unchanged_iff {req : SessionEstablishmentRequest} {fSeid : FSeid}
    {answer : N4Answer} (hfSeid : req.cpFSeid = some fSeid)
    (hnew : ∀ known, st.n4.findBySmfN4FSeid env.pad fSeid ≠ .ok (some known))
    (hrun : handleEstablishment env req st = .ok (answer, st'))
    (hcause : answer.cause ≠ causeRequestAccepted) :
    st' = st ↔ (fSeid.ipv4 = false ∧ fSeid.ipv6 = false) ∨ st.n4.upfSessPool.free = [] := by
  unfold handleEstablishment at hrun
  obtain ⟨⟨found, st₁⟩, hadd, hhandle⟩ := Fallible.bind_eq_ok.mp hrun
  rw [hfSeid] at hadd
  obtain ⟨hnone, rfl, rfl⟩ | ⟨hsome, n, rfl, hlist⟩ := addByMessage_new hnew hadd
  · cases hhandle
    exact iff_of_true rfl hnone
  · apply iff_of_false _ hsome
    intro hsame
    have hlen := congrArg List.length ((sessList_establishment hhandle).trans hlist)
    rw [hsame, List.length_append] at hlen
    exact absurd hlen (by simp)

/-- A CP F-SEID with an IPv4 address. -/
def smfFSeid1 : FSeid := ⟨true, false, 1, Vector.replicate 20 127⟩

/-- An establishment with a PDR that has no ID. -/
def nameless : SessionEstablishmentRequest :=
  { cpFSeid := some smfFSeid1
    createPdr := ⟨[{}], by decide⟩ }

/-- No slot of a session is free. -/
def fullUpf : UpfState := { freshUpf with n4.upfSessPool := ⟨1, []⟩ }

/-- Without a free slot nothing changes. -/
theorem refused_establishment_unchanged_full :
    ∃ answer st', handleEstablishment smallUpf nameless fullUpf = .ok (answer, st') ∧
      answer.cause ≠ causeRequestAccepted ∧ st' = fullUpf := by
  have hfind : fullUpf.n4.findBySmfN4FSeid smallUpf.pad smfFSeid1 = .ok none := by decide
  have hrun : (handleEstablishment smallUpf nameless fullUpf).map (fun result => result.1.cause) =
      .ok causeMandatoryIeMissing := by decide
  obtain ⟨⟨answer, st'⟩, hst', hcause⟩ := Fallible.map_eq_ok.mp hrun
  have hrefused : answer.cause ≠ causeRequestAccepted := by
    rw [show answer.cause = causeMandatoryIeMissing from hcause]
    decide
  refine ⟨answer, st', hst', hrefused, ?_⟩
  apply (refused_establishment_unchanged_iff rfl _ hst' hrefused).mpr (.inr rfl)
  intro known hknown
  rw [hfind] at hknown
  cases hknown

/-- The only slot of a session stays taken when the first establishment is refused. -/
theorem refused_establishment_takes_session :
    (∀ known, freshUpf.n4.findBySmfN4FSeid smallUpf.pad smfFSeid1 ≠ .ok (some known)) ∧
      ∃ answer st', handleEstablishment smallUpf nameless freshUpf = .ok (answer, st') ∧
        answer.cause = causeMandatoryIeMissing ∧ st' ≠ freshUpf ∧ st'.n4.sessList = [0] ∧
          st'.n4.upfSessPool.free = [] := by
  have hfind : freshUpf.n4.findBySmfN4FSeid smallUpf.pad smfFSeid1 = .ok none := by decide
  have hrun : (handleEstablishment smallUpf nameless freshUpf).map
      (fun result => (result.1.cause, result.2.n4.sessList, result.2.n4.upfSessPool.free)) =
      .ok (causeMandatoryIeMissing, [0], []) := by decide
  obtain ⟨⟨answer, st'⟩, hst', houtcome⟩ := Fallible.map_eq_ok.mp hrun
  obtain ⟨hcause, hrest⟩ := Prod.mk.inj houtcome
  obtain ⟨hlist, hfree⟩ := Prod.mk.inj hrest
  constructor
  · intro known hknown
    rw [hfind] at hknown
    cases hknown
  · refine ⟨answer, st', hst', hcause, ?_, hlist, hfree⟩
    intro hsame
    rw [hsame] at hlist
    cases hlist

end Quicup.Open5gs
