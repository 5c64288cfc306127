import Mathlib.Data.List.Pairwise
import Quicup.Open5gs.Upf.SessionRuns

/-!
# Indexes of sessions

Sessions are found by their own SEID, by the SEID and the address of the SMF, and by the
addresses of their UEs. The tables are exact as long as calls for addresses are sound and
the key of a search is cleared, as the key in a session is.
-/

namespace Quicup.Open5gs

open Pfcp Function

variable {cfg : N4Config} {ctx ctx' : N4Context} {sess n m : Nat} {call : UeIpCall} {fSeid : FSeid}
  {ip : OgsIp}

/-! ## Keys -/

@[simp] theorem length_seidMem (seid : UInt64) : (seidMem seid).length = 8 := by
  simp [seidMem]

theorem seidMem_injective {seid seid' : UInt64} (h : seidMem seid = seidMem seid') :
    seid = seid' := by
  have hnat := congrArg natBE h
  rw [seidMem, seidMem, natBE_octetsBE, natBE_octetsBE] at hnat
  have hlt := seid.toNat_lt
  have hlt' := seid'.toNat_lt
  apply UInt64.toNat_inj.mp
  omega

/-- The address of an F-SEID fills the fields of `ogs_ip_t`. -/
theorem FSeid.length_toIp (h : fSeid.toIp = some ip) :
    ip.addr.length = 4 ∧ ip.addr6.length = 16 := by
  unfold FSeid.toIp at h
  split at h <;> cases h <;> simp

theorem length_fSeidMem (h : fSeid.toIp = some ip) (seid : UInt64) (pad : Vector UInt8 4) :
    (fSeidMem seid ip pad).length = fSeidLen := by
  obtain ⟨haddr, haddr6⟩ := FSeid.length_toIp h
  simp [fSeidMem, haddr, haddr6, fSeidLen]

/-- Two sessions have different SEIDs. -/
theorem N4Context.Sound.seid_inj (h : ctx.Sound cfg) (hn : n ∈ ctx.sessList) (hm : m ∈ ctx.sessList)
    (hseid : (ctx.sess n).upfN4Seid = (ctx.sess m).upfN4Seid) : n = m := by
  obtain ⟨node, hnode, hnodeSeid⟩ := h.seid n hn
  obtain ⟨node', hnode', hnodeSeid'⟩ := h.seid m hm
  have hlt {k node : Nat} (hk : k ∈ ctx.sessList) (hknode : (ctx.sess k).upfN4SeidNode = some node) :
      node < cfg.size := by
    have hused : node ∈ ctx.sessList.filterMap fun n => (ctx.sess n).upfN4SeidNode :=
      List.mem_filterMap.mpr ⟨k, hk, hknode⟩
    have hrange := h.seidPool.mem_iff.mp (List.mem_append_right _ hused)
    rw [List.mem_range, h.sizes.2] at hrange
    exact hrange
  have hsame : node = node' := by
    apply cfg.distinct node (hlt hn hnode) node' (hlt hm hnode')
    rw [← hnodeSeid, ← hnodeSeid', hseid]
  subst hsame
  -- no slot of the SEID pool is used twice
  have hpairs := List.pairwise_filterMap.mp h.seidPool.nodup.of_append_right
  have hsymm : Std.Symm fun a a' => ∀ b, (ctx.sess a).upfN4SeidNode = some b →
      ∀ b', (ctx.sess a').upfN4SeidNode = some b' → b ≠ b' :=
    ⟨fun _ _ hab b hb b' hb' => (hab b' hb' b hb).symm⟩
  by_contra hne
  exact hpairs.forall hn hm hne node hnode node hnode' rfl

/-! ## Invariant -/

/-- The sessions in the list, each with the pointer to its own key. -/
def N4Context.live (ctx : N4Context) (n : Nat) : Option Nat :=
  if n ∈ ctx.sessList then some n else none

theorem N4Context.live_eq_some : ctx.live n = some m ↔ n ∈ ctx.sessList ∧ m = n := by
  unfold N4Context.live
  split
  · next hn => simp [hn, eq_comm]
  · next hn => simp [hn]

/-- The tables of SEIDs and F-SEIDs hold the sessions in the list. Sessions may share the
SEID of an SMF. -/
structure N4Context.Indexes (ctx : N4Context) : Prop where
  upfN4Seid : ctx.upfN4SeidHash.Indexed ctx.upfN4SeidMem 8 ctx.live
  smfN4Seid : ctx.smfN4SeidHash.Backed ctx.smfN4SeidMem 8 (· ∈ ctx.sessList)
  smfN4FSeid : ctx.smfN4FSeidHash.Indexed ctx.smfN4FSeidMem fSeidLen ctx.live

/-- Calls for addresses leave the tables. -/
theorem N4Context.Indexes.same (h : ctx.Indexes) (hsame : SameSessions ctx ctx') : ctx'.Indexes := by
  have hupf : ctx'.upfN4SeidMem = ctx.upfN4SeidMem := by
    funext n
    rw [N4Context.upfN4SeidMem, hsame.upfN4Seid]
    rfl
  have hsmf : ctx'.smfN4SeidMem = ctx.smfN4SeidMem := by
    funext n
    rw [N4Context.smfN4SeidMem, N4Context.smfN4SeidMem, ← hsame.sess n]
  have hfSeid : ctx'.smfN4FSeidMem = ctx.smfN4FSeidMem := by
    funext n
    rw [N4Context.smfN4FSeidMem, N4Context.smfN4FSeidMem, ← hsame.sess n]
  have hlive : ctx'.live = ctx.live := by
    funext n
    rw [N4Context.live, hsame.sessList]
    rfl
  constructor
  · rw [hsame.upfN4SeidHash, hupf, hlive]
    exact h.upfN4Seid
  · rw [hsame.smfN4SeidHash, hsmf, hsame.sessList]
    exact h.smfN4Seid
  · rw [hsame.smfN4FSeidHash, hfSeid, hlive]
    exact h.smfN4FSeid

/-- The keys of a session that is removed are deleted. -/
theorem N4Context.Indexes.remove (h : ctx.Indexes) (hnodup : ctx.sessList.Nodup)
    (hsess : sess ∈ ctx.sessList) (hremoved : Removed cfg ctx sess ctx') : ctx'.Indexes := by
  have hown : ctx.live sess = some sess := if_pos hsess
  have hlive : ctx'.live = update ctx.live sess none := by
    funext n
    rw [update_apply, N4Context.live, hremoved.sessList, N4Context.live]
    by_cases hn : n = sess <;> simp [hnodup.mem_erase_iff, hn]
  constructor
  · obtain ⟨ht, hset, hht⟩ := h.upfN4Seid.set_none (by decide) hown
    obtain rfl := Except.ok.inj (hset.symm.trans hremoved.upfN4SeidHash)
    have hmem : ctx'.upfN4SeidMem = ctx.upfN4SeidMem := by
      funext n
      simp only [N4Context.upfN4SeidMem, hremoved.memory]
    rw [hlive, hmem]
    exact hht
  · obtain ⟨ht, hset, hht⟩ := h.smfN4Seid.set_none (by decide) fun n hn hne =>
      (hnodup.mem_erase_iff.mpr ⟨hne, hn⟩ : n ∈ ctx.sessList.erase sess)
    obtain rfl := Except.ok.inj (hset.symm.trans hremoved.smfN4SeidHash)
    have hmem : ctx'.smfN4SeidMem = ctx.smfN4SeidMem := by
      funext n
      simp only [N4Context.smfN4SeidMem, hremoved.memory]
    rw [hremoved.sessList, hmem]
    exact hht
  · obtain ⟨ht, hset, hht⟩ := h.smfN4FSeid.set_none (by decide) hown
    obtain rfl := Except.ok.inj (hset.symm.trans hremoved.smfN4FSeidHash)
    have hmem : ctx'.smfN4FSeidMem = ctx.smfN4FSeidMem := by
      funext n
      simp only [N4Context.smfN4FSeidMem, hremoved.memory]
    rw [hlive, hmem]
    exact hht

/-- A session that is added for an F-SEID without a session is entered in each table. -/
theorem N4Context.Indexes.add (h : ctx.Indexes) (hsound' : ctx'.Sound cfg)
    (hadded : Added cfg ctx n fSeid ctx')
    (hfind : ctx.findBySmfN4FSeid (Vector.replicate 4 0) fSeid = .ok none) : ctx'.Indexes := by
  obtain ⟨node, ip, hip, hmemory⟩ := hadded.memory
  have hself : ctx'.sess n =
      { upfN4SeidNode := some node, upfN4Seid := cfg.seid node, seid := fSeid.seid, ip } := by
    rw [hmemory, update_self]
  have hother {m : Nat} (hm : m ∈ ctx.sessList) : ctx'.sess m = ctx.sess m := by
    rw [hmemory, update_of_ne]
    rintro rfl
    exact hadded.fresh hm
  have hlist {m : Nat} : m ∈ ctx'.sessList ↔ m ∈ ctx.sessList ∨ m = n := by
    rw [hadded.sessList, List.mem_append, List.mem_singleton]
  have hlive : ctx'.live = update ctx.live n (some n) := by
    funext m
    rw [update_apply, N4Context.live, N4Context.live]
    by_cases hm : m = n <;> simp [hlist, hm]
  have hnew : ctx.live n = none := if_neg hadded.fresh
  constructor
  · have hkept : ctx.upfN4SeidHash.Indexed ctx'.upfN4SeidMem 8 ctx.live := by
      apply h.upfN4Seid.congr
      intro m p hp
      obtain ⟨hm, rfl⟩ := N4Context.live_eq_some.mp hp
      simp only [N4Context.upfN4SeidMem, hother hm]
    have hfresh : (ctx.upfN4SeidHash.findEntry ctx'.upfN4SeidMem
        (OgsHash.keyAt ctx'.upfN4SeidMem 8 n)).map HashEntry.val = none := by
      apply Option.eq_none_iff_forall_ne_some.mpr
      intro m hm
      obtain ⟨p, hp, hkey⟩ := hkept.owner_of_find hm
      obtain ⟨hmem, rfl⟩ := N4Context.live_eq_some.mp hp
      have hseid : (ctx'.sess p).upfN4Seid = (ctx'.sess n).upfN4Seid := by
        apply seidMem_injective
        simpa [OgsHash.keyAt, N4Context.upfN4SeidMem, List.take_of_length_le] using hkey
      have heq := hsound'.seid_inj (hlist.mpr (.inl hmem)) (hlist.mpr (.inr rfl)) hseid
      exact hadded.fresh (heq ▸ hmem)
    obtain ⟨ht, hset, hht⟩ := hkept.set_some (by decide)
      (by simp [N4Context.upfN4SeidMem] : 8 ≤ (ctx'.upfN4SeidMem n).length) hnew hfresh
    obtain rfl := Except.ok.inj (hset.symm.trans hadded.upfN4SeidHash)
    rw [hlive]
    exact hht
  · have hkept : ctx.smfN4SeidHash.Backed ctx'.smfN4SeidMem 8 (· ∈ ctx.sessList) := by
      apply h.smfN4Seid.congr
      intro m hm
      simp only [N4Context.smfN4SeidMem, hother hm]
    obtain ⟨ht, hset, hht⟩ := hkept.set_some (by decide)
      (by simp [N4Context.smfN4SeidMem] : 8 ≤ (ctx'.smfN4SeidMem n).length)
      (fun m hm => hlist.mpr (.inl hm)) (hlist.mpr (.inr rfl))
    obtain rfl := Except.ok.inj (hset.symm.trans hadded.smfN4SeidHash)
    exact hht
  · have hkept : ctx.smfN4FSeidHash.Indexed ctx'.smfN4FSeidMem fSeidLen ctx.live := by
      apply h.smfN4FSeid.congr
      intro m p hp
      obtain ⟨hm, rfl⟩ := N4Context.live_eq_some.mp hp
      simp only [N4Context.smfN4FSeidMem, hother hm]
    have hmem : ctx'.smfN4FSeidMem n = fSeidMem fSeid.seid ip (Vector.replicate 4 0) := by
      rw [N4Context.smfN4FSeidMem, hself]
    have hlen : (ctx'.smfN4FSeidMem n).length = fSeidLen := by
      rw [hmem, length_fSeidMem hip]
    have hkeyAt : OgsHash.keyAt ctx'.smfN4FSeidMem fSeidLen n =
        fSeidMem fSeid.seid ip (Vector.replicate 4 0) := by
      rw [OgsHash.keyAt, List.take_of_length_le hlen.le, hmem]
    have hfresh : (ctx.smfN4FSeidHash.findEntry ctx'.smfN4FSeidMem
        (OgsHash.keyAt ctx'.smfN4FSeidMem fSeidLen n)).map HashEntry.val = none := by
      apply Option.eq_none_iff_forall_ne_some.mpr
      intro m hm
      obtain ⟨p, hp, hkey⟩ := hkept.owner_of_find hm
      obtain ⟨hmem', rfl⟩ := N4Context.live_eq_some.mp hp
      have hold := h.smfN4FSeid.find_owner hp
      have hsame : OgsHash.keyAt ctx.smfN4FSeidMem fSeidLen p =
          fSeidMem fSeid.seid ip (Vector.replicate 4 0) := by
        rw [← hkeyAt, ← hkey, OgsHash.keyAt, OgsHash.keyAt, N4Context.smfN4FSeidMem,
          N4Context.smfN4FSeidMem, hother hmem']
      rw [N4Context.findBySmfN4FSeid, hip] at hfind
      rw [hsame, Except.ok.inj hfind] at hold
      cases hold
    obtain ⟨ht, hset, hht⟩ := hkept.set_some (by decide) hlen.ge hnew hfresh
    obtain rfl := Except.ok.inj (hset.symm.trans hadded.smfN4FSeidHash)
    rw [hlive]
    exact hht

/-! ## Runs -/

/-- The calls for addresses are sound, and the stack is clear behind the key of a search. -/
def ClearCalls (cfg : N4Config) (st : Except Fault N4Context) (e : N4Event) : Prop :=
  SoundCalls cfg st e ∧ ∀ pad fSeid, e = .establish pad fSeid → pad = Vector.replicate 4 0

/-- A run whose searches are clear keeps the tables of SEIDs. -/
theorem indexes_of_run {events : List N4Event} {st : Except Fault N4Context}
    (h : System.Run (n4System cfg) (ClearCalls cfg) events st) :
    ∃ ctx, st = .ok ctx ∧ ctx.Sound cfg ∧ ctx.Indexes := by
  apply h.invariant
  · rintro st ⟨subnets, seed, hpools, rfl⟩
    have hlive : (N4Context.init cfg subnets seed).live = fun _ => none :=
      funext fun _ => if_neg List.not_mem_nil
    refine ⟨_, rfl, init_sound cfg seed hpools, ?_, OgsHash.make_backed .., ?_⟩
    · rw [hlive]
      exact OgsHash.make_indexed _
    · rw [hlive]
      exact OgsHash.make_indexed _
  · rintro _ e _ ⟨ctx, rfl, hsound, hindexes⟩ ⟨hcall, hclear⟩ ⟨_, hst, henabled, rfl⟩
    obtain rfl := Except.ok.inj hst
    cases e with
    | establish pad fSeid =>
      obtain rfl := hclear pad fSeid rfl
      obtain ⟨n, ctx', hrun, hsound', hresult⟩ :=
        hsound.establish (Vector.replicate 4 0) fSeid
      refine ⟨ctx', congrArg (Prod.snd <$> ·) hrun, hsound', ?_⟩
      rcases hresult with rfl | ⟨sess, fSeid', -, -, hfind, hadded⟩
      · exact hindexes
      · exact hindexes.add hsound' hadded hfind
    | setUeIp sess call =>
      obtain ⟨cause, ctx', hrun, hsound', hsame⟩ := hsound.setUeIp henabled hcall
      exact ⟨ctx', congrArg (Prod.snd <$> ·) hrun, hsound', hindexes.same hsame⟩
    | remove sess =>
      obtain ⟨ctx', hrun, hsound', hremoved⟩ := hsound.remove henabled
      exact ⟨ctx', hrun, hsound', hindexes.remove hsound.nodup henabled hremoved⟩

/-- A session in the list is found by its SEID, by the F-SEID of its SMF, and by the
addresses of its UE. No search finds a session that is not in the list. -/
structure N4Context.FindsSessions (cfg : N4Config) (ctx : N4Context) : Prop where
  byUpfN4Seid : ∀ sess ∈ ctx.sessList,
    ctx.findByUpfN4Seid (ctx.sess sess).upfN4Seid = some sess
  bySmfN4FSeid : ∀ sess ∈ ctx.sessList, ∀ fSeid, fSeid.seid = (ctx.sess sess).seid →
    fSeid.toIp = some (ctx.sess sess).ip →
      ctx.findBySmfN4FSeid (Vector.replicate 4 0) fSeid = .ok (some sess)
  byUeIp : ∀ sess ∈ ctx.sessList, ∀ version p, (ctx.sess sess).ueIp version = some p →
    ∃ addr, ctx.ueIps.addr cfg.slotAddr p = some addr ∧
      ctx.findByUeIp cfg version addr = some sess
  liveUpfN4Seid : ∀ seid sess, ctx.findByUpfN4Seid seid = some sess → sess ∈ ctx.sessList
  liveSmfN4Seid : ∀ seid sess, ctx.findBySmfN4Seid seid = some sess → sess ∈ ctx.sessList
  liveSmfN4FSeid : ∀ pad fSeid sess,
    ctx.findBySmfN4FSeid pad fSeid = .ok (some sess) → sess ∈ ctx.sessList
  liveUeIp : ∀ version addr sess,
    ctx.findByUeIp cfg version addr = some sess → sess ∈ ctx.sessList

theorem N4Context.Indexes.finds (h : ctx.Indexes) (hsound : ctx.Sound cfg) :
    ctx.FindsSessions cfg where
  byUpfN4Seid sess hsess := by
    have hfind := h.upfN4Seid.find_owner (if_pos hsess : ctx.live sess = some sess)
    rwa [OgsHash.keyAt, N4Context.upfN4SeidMem, List.take_of_length_le (by simp)] at hfind
  bySmfN4FSeid sess hsess fSeid hseid hip := by
    have hfind := h.smfN4FSeid.find_owner (if_pos hsess : ctx.live sess = some sess)
    rw [OgsHash.keyAt, N4Context.smfN4FSeidMem,
      List.take_of_length_le (length_fSeidMem hip ..).le] at hfind
    rw [N4Context.findBySmfN4FSeid, hip, hseid]
    exact congrArg _ hfind
  byUeIp := hsound.ownsUeIps.table
  liveUpfN4Seid seid sess hfind := by
    obtain ⟨p, hp, -⟩ := h.upfN4Seid.owner_of_find hfind
    exact (N4Context.live_eq_some.mp hp).1
  liveSmfN4Seid seid sess hfind := h.smfN4Seid.live_of_find hfind
  liveSmfN4FSeid pad fSeid sess hfind := by
    unfold N4Context.findBySmfN4FSeid at hfind
    split at hfind
    · cases hfind
    · obtain ⟨p, hp, -⟩ := h.smfN4FSeid.owner_of_find (Except.ok.inj hfind)
      exact (N4Context.live_eq_some.mp hp).1
  liveUeIp version addr sess hfind := by
    obtain ⟨p, hp, -⟩ := (hsound.owned.index version).owner_of_find hfind
    rw [N4Context.pointers] at hp
    by_contra hnot
    rw [if_neg hnot] at hp
    cases hp

/-- In a run whose calls for addresses are sound and whose searches are clear, each
session is found by its keys, and no session that was removed is found. -/
theorem sessions_found {events : List N4Event} {st : Except Fault N4Context}
    (h : System.Run (n4System cfg) (ClearCalls cfg) events st) :
    ∃ ctx, st = .ok ctx ∧ ctx.FindsSessions cfg := by
  obtain ⟨ctx, rfl, hsound, hindexes⟩ := indexes_of_run h
  exact ⟨ctx, rfl, hindexes.finds hsound⟩

theorem sessions_found_dual :
    ∃ ctx, (.ok dualSession : Except Fault N4Context) = .ok ctx ∧ ctx.FindsSessions fourSessions :=
  sessions_found (dualSession_run (ClearCalls fourSessions)
    ⟨trivial, fun _ _ h => by cases h; rfl⟩ ⟨dualSession_sound, fun _ _ h => by cases h⟩)

/-- There is a second session. -/
def secondSession : N4Context := staleSession.next (.establish zeroPad (some (smfFSeid 8)))

/-- The second session takes the address that the first one gave back. -/
def reusedAddress : N4Context := secondSession.next (.setUeIp 1 (dynamicCall pduSessionTypeIpv6))

/-- The first session is removed, with a pointer to the address of the second. -/
def lostSession : N4Context := reusedAddress.next (.remove 0)

theorem lostSession_run : System.Run (n4System fourSessions) System.unrestricted
    [.establish zeroPad (some (smfFSeid 7)), .setUeIp 0 (dynamicCall pduSessionTypeIpv4v6),
      .setUeIp 0 (dynamicCall pduSessionTypeIpv4), .establish zeroPad (some (smfFSeid 8)),
      .setUeIp 1 (dynamicCall pduSessionTypeIpv6), .remove 0] (.ok lostSession) := by
  have hsecond : 1 ∈ secondSession.sessList := by decide +kernel
  have hfirst : 0 ∈ reusedAddress.sessList := by decide +kernel
  have hrun₁ := run_next (e := .establish zeroPad (some (smfFSeid 8))) staleSession_run trivial
    trivial (by decide +kernel)
  have hrun₂ := run_next (e := .setUeIp 1 (dynamicCall pduSessionTypeIpv6)) hrun₁ trivial hsecond
    (by decide +kernel)
  exact run_next (e := .remove 0) hrun₂ trivial hfirst (by decide +kernel)

/-- The session that is left is not found by the prefix of its UE. -/
theorem sessions_found_fails :
    ¬ ∀ (cfg : N4Config) events st,
      System.Run (n4System cfg) System.unrestricted events st →
        ∃ ctx, st = .ok ctx ∧ ctx.FindsSessions cfg := by
  intro h
  obtain ⟨ctx, hctx, hfinds⟩ := h _ _ _ lostSession_run
  obtain rfl := Except.ok.inj hctx
  have hsess : 1 ∈ lostSession.sessList := by decide +kernel
  have hptr : (lostSession.sess 1).ueIp .v6 = some (.slot 1 0) := by decide +kernel
  obtain ⟨addr, haddr, hfind⟩ := hfinds.byUeIp 1 hsess .v6 (.slot 1 0) hptr
  obtain rfl := Option.some.inj haddr
  revert hfind
  decide +kernel

end Quicup.Open5gs
