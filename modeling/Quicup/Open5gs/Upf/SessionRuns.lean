import Quicup.Open5gs.Upf.Ownership

/-!
# Runs of sessions

Sessions are added and removed, and get addresses for their UEs. Whatever the order, each
session owns what its pointers say, as long as every call for addresses is sound.
-/

namespace Quicup.Open5gs

open Pfcp

variable {cfg : N4Config} {ctx ctx' : N4Context} {sess : Nat} {call : UeIpCall}
  {events : List N4Event}

/-- What runs keep: the pools hold the sessions and their SEIDs, and each session owns
what its pointers say. -/
structure N4Context.Sound (cfg : N4Config) (ctx : N4Context) : Prop where
  owned : Owned cfg ctx.pointers ctx
  sessPool : ctx.upfSessPool.Holds ctx.sessList
  seidPool : ctx.upfN4SeidPool.Holds
    (ctx.sessList.filterMap fun n => (ctx.sess n).upfN4SeidNode)
  seid : ∀ n ∈ ctx.sessList, ∃ node, (ctx.sess n).upfN4SeidNode = some node ∧
    (ctx.sess n).upfN4Seid = cfg.seid node
  sizes : ctx.upfSessPool.size = cfg.size ∧ ctx.upfN4SeidPool.size = cfg.size

theorem N4Context.Sound.nodup (h : ctx.Sound cfg) : ctx.sessList.Nodup :=
  h.sessPool.nodup.of_append_right

/-- A key of some length is always entered or deleted. -/
theorem exists_set {κ ν : Type} (mem : κ → List UInt8) (ht : OgsHash κ ν) (key : κ) (klen : Nat)
    (val : Option ν) (hklen : klen ≠ 0) : ∃ ht', ht.set mem key klen val = .ok ht' := by
  rw [OgsHash.set, if_neg hklen]
  dsimp only
  split <;> exact ⟨_, rfl⟩

theorem SameSessions.node (h : SameSessions ctx ctx') (n : Nat) :
    (ctx'.sess n).upfN4SeidNode = (ctx.sess n).upfN4SeidNode := by
  have hn := h.sess n
  rw [← hn]

theorem SameSessions.upfN4Seid (h : SameSessions ctx ctx') (n : Nat) :
    (ctx'.sess n).upfN4Seid = (ctx.sess n).upfN4Seid := by
  have hn := h.sess n
  rw [← hn]

theorem N4Context.Sound.setUeIp (h : ctx.Sound cfg) (hsess : sess ∈ ctx.sessList)
    (hsound : call.Sound cfg ctx sess) :
    ∃ cause ctx', ctx.upfSessSetUeIp cfg sess call = .ok (cause, ctx') ∧ ctx'.Sound cfg ∧
      SameSessions ctx ctx' := by
  obtain ⟨cause, ctx', hset, howned, hsame⟩ := h.owned.setUeIp hsess hsound
  refine ⟨cause, ctx', hset, ⟨howned, ?_, ?_, ?_, ?_⟩, hsame⟩
  · rw [hsame.upfSessPool, hsame.sessList]
    exact h.sessPool
  · rw [hsame.upfN4SeidPool, hsame.sessList, funext hsame.node]
    exact h.seidPool
  · intro n hn
    rw [hsame.node, hsame.upfN4Seid]
    exact h.seid n (hsame.sessList ▸ hn)
  · rw [hsame.upfSessPool, hsame.upfN4SeidPool]
    exact h.sizes

/-- What is left of a session that is removed. -/
structure Removed (cfg : N4Config) (ctx : N4Context) (sess : Nat) (ctx' : N4Context) : Prop where
  sessList : ctx'.sessList = ctx.sessList.erase sess
  memory : ctx'.sess = ctx.sess
  upfN4SeidHash : ctx.upfN4SeidHash.set ctx.upfN4SeidMem sess 8 none = .ok ctx'.upfN4SeidHash
  smfN4SeidHash : ctx.smfN4SeidHash.set ctx.smfN4SeidMem sess 8 none = .ok ctx'.smfN4SeidHash
  smfN4FSeidHash :
    ctx.smfN4FSeidHash.set ctx.smfN4FSeidMem sess fSeidLen none = .ok ctx'.smfN4FSeidHash

theorem N4Context.Sound.remove (h : ctx.Sound cfg) (hsess : sess ∈ ctx.sessList) :
    ∃ ctx', ctx.upfSessRemove cfg sess = .ok ctx' ∧ ctx'.Sound cfg ∧ Removed cfg ctx sess ctx' := by
  obtain ⟨upfN4SeidHash, hset₁⟩ :=
    exists_set ctx.upfN4SeidMem ctx.upfN4SeidHash sess 8 none (by decide)
  obtain ⟨smfN4SeidHash, hset₂⟩ :=
    exists_set ctx.smfN4SeidMem ctx.smfN4SeidHash sess 8 none (by decide)
  obtain ⟨smfN4FSeidHash, hset₃⟩ :=
    exists_set ctx.smfN4FSeidMem ctx.smfN4FSeidHash sess fSeidLen none (by decide)
  let ctx₀ : N4Context :=
    { ctx with sessList := ctx.sessList.erase sess, upfN4SeidHash, smfN4SeidHash, smfN4FSeidHash }
  have howned₀ : Owned cfg ctx.pointers ctx₀ :=
    ⟨h.owned.hold, h.owned.record, h.owned.index, h.owned.once⟩
  obtain ⟨ctx₁, hdrop, howned, hsame, hmemory, -⟩ :=
    howned₀.dropUeIps fun version => (if_pos hsess : ctx.pointers version sess = _).symm
  obtain ⟨node, hnode, hseid⟩ := h.seid sess hsess
  have hperm := List.perm_cons_erase hsess
  let ctx' : N4Context :=
    { ctx₁ with
      upfN4SeidPool := ctx₁.upfN4SeidPool.release node
      upfSessPool := ctx₁.upfSessPool.release sess }
  have hmemory' : ctx'.sess = ctx.sess := hmemory
  have hlist : ctx'.sessList = ctx.sessList.erase sess := hsame.sessList
  have hmem (n : Nat) : n ∈ ctx.sessList.erase sess ↔ n ≠ sess ∧ n ∈ ctx.sessList :=
    h.nodup.mem_erase_iff
  refine ⟨ctx', ?_, ⟨?_, ?_, ?_, ?_, ?_⟩, ⟨hlist, hmemory', ?_, ?_, ?_⟩⟩
  · change (do
      let upfN4SeidHash ← ctx.upfN4SeidHash.set ctx.upfN4SeidMem sess 8 none
      let smfN4SeidHash ← ctx.smfN4SeidHash.set ctx.smfN4SeidMem sess 8 none
      let smfN4FSeidHash ← ctx.smfN4FSeidHash.set ctx.smfN4FSeidMem sess fSeidLen none
      let ctx ← N4Context.dropUeIps cfg
        { ctx with sessList := ctx.sessList.erase sess, upfN4SeidHash, smfN4SeidHash, smfN4FSeidHash }
        sess
      ctx.freeSlots sess) = _
    simp only [hset₁, hset₂, hset₃, Fallible.ok_bind]
    have hnode₁ : (ctx₁.sess sess).upfN4SeidNode = some node := by
      rw [hmemory]
      exact hnode
    rw [hdrop, Fallible.ok_bind, N4Context.freeSlots, hnode₁]
    rfl
  · have hown : ctx'.pointers = fun version n => if n = sess then none else ctx.pointers version n := by
      funext version n
      rw [N4Context.pointers, N4Context.pointers, hlist, hmemory']
      by_cases hn : n = sess <;> simp [hmem, hn]
    rw [hown]
    exact ⟨howned.hold, howned.record, howned.index, howned.once⟩
  · rw [hlist]
    change (ctx₁.upfSessPool.release sess).Holds _
    rw [hsame.upfSessPool]
    exact (h.sessPool.perm hperm).release
  · rw [hlist, hmemory']
    change (ctx₁.upfN4SeidPool.release node).Holds _
    rw [hsame.upfN4SeidPool]
    have hseids := h.seidPool.perm (hperm.filterMap fun n => (ctx.sess n).upfN4SeidNode)
    rw [List.filterMap_cons_some (f := fun n => (ctx.sess n).upfN4SeidNode) hnode] at hseids
    exact hseids.release
  · intro n hn
    rw [hmemory']
    rw [hlist, hmem] at hn
    exact h.seid n hn.2
  · change (ctx₁.upfSessPool.release sess).size = _ ∧ (ctx₁.upfN4SeidPool.release node).size = _
    rw [OgsPool.size_release, OgsPool.size_release, hsame.upfSessPool, hsame.upfN4SeidPool]
    exact h.sizes
  · exact hset₁.trans (congrArg _ hsame.upfN4SeidHash.symm)
  · exact hset₂.trans (congrArg _ hsame.smfN4SeidHash.symm)
  · exact hset₃.trans (congrArg _ hsame.smfN4FSeidHash.symm)

/-- The session in slot `n` that is added for a CP F-SEID. -/
structure Added (cfg : N4Config) (ctx : N4Context) (n : Nat) (fSeid : FSeid) (ctx' : N4Context) :
    Prop where
  fresh : n ∉ ctx.sessList
  sessList : ctx'.sessList = ctx.sessList ++ [n]
  memory : ∃ node ip, fSeid.toIp = some ip ∧
    ctx'.sess = Function.update ctx.sess n
      { upfN4SeidNode := some node, upfN4Seid := cfg.seid node, seid := fSeid.seid, ip }
  upfN4SeidHash : ctx.upfN4SeidHash.set ctx'.upfN4SeidMem n 8 (some n) = .ok ctx'.upfN4SeidHash
  smfN4SeidHash : ctx.smfN4SeidHash.set ctx'.smfN4SeidMem n 8 (some n) = .ok ctx'.smfN4SeidHash
  smfN4FSeidHash :
    ctx.smfN4FSeidHash.set ctx'.smfN4FSeidMem n fSeidLen (some n) = .ok ctx'.smfN4FSeidHash
  ueIps : ctx'.ueIps = ctx.ueIps

/-- A SEID is free when a session is. -/
theorem N4Context.Sound.exists_seid (h : ctx.Sound cfg) {n : Nat}
    (halloc : ctx.upfSessPool.alloc.1 = some n) :
    ∃ node, ctx.upfN4SeidPool.alloc.1 = some node := by
  have hsess := h.sessPool.length_eq
  have hseid := h.seidPool.length_eq
  have hle := List.length_filterMap_le (fun n => (ctx.sess n).upfN4SeidNode) ctx.sessList
  rw [List.length_append, List.length_range, h.sizes.1] at hsess
  rw [List.length_append, List.length_range, h.sizes.2] at hseid
  unfold OgsPool.alloc at halloc ⊢
  cases hfree : ctx.upfN4SeidPool.free with
  | cons node free => exact ⟨node, rfl⟩
  | nil =>
    have hempty : ctx.upfSessPool.free = [] := by
      apply List.eq_nil_of_length_eq_zero
      rw [hfree, List.length_nil] at hseid
      omega
    rw [hempty] at halloc
    cases halloc

theorem N4Context.Sound.add (h : ctx.Sound cfg) {fSeid : FSeid} {ip : OgsIp}
    (hip : fSeid.toIp = some ip) :
    ctx.upfSessAdd cfg fSeid = .ok (none, ctx) ∨ ∃ n ctx',
      ctx.upfSessAdd cfg fSeid = .ok (some n, ctx') ∧ ctx'.Sound cfg ∧ Added cfg ctx n fSeid ctx' := by
  cases halloc : ctx.upfSessPool.alloc with
  | mk first upfSessPool =>
  cases first with
  | none =>
    apply Or.inl
    rw [N4Context.upfSessAdd, halloc]
  | some n =>
    apply Or.inr
    obtain ⟨node, hnode⟩ := h.exists_seid (congrArg Prod.fst halloc)
    obtain ⟨upfN4SeidPool, hseids⟩ : ∃ pool, ctx.upfN4SeidPool.alloc = (some node, pool) :=
      ⟨_, Prod.ext hnode rfl⟩
    obtain ⟨hsessPool, hfresh⟩ := h.sessPool.alloc (congrArg Prod.fst halloc)
    obtain ⟨hseidPool, -⟩ := h.seidPool.alloc hnode
    rw [halloc] at hsessPool
    rw [hseids] at hseidPool
    let ctx₀ := ctx.setSess n
      { upfN4SeidNode := some node, upfN4Seid := cfg.seid node, seid := fSeid.seid, ip }
    obtain ⟨upfN4SeidHash, hset₁⟩ :=
      exists_set ctx₀.upfN4SeidMem ctx.upfN4SeidHash n 8 (some n) (by decide)
    obtain ⟨smfN4SeidHash, hset₂⟩ :=
      exists_set ctx₀.smfN4SeidMem ctx.smfN4SeidHash n 8 (some n) (by decide)
    obtain ⟨smfN4FSeidHash, hset₃⟩ :=
      exists_set ctx₀.smfN4FSeidMem ctx.smfN4FSeidHash n fSeidLen (some n) (by decide)
    let ctx' : N4Context :=
      { ctx₀ with
        upfSessPool, upfN4SeidPool, upfN4SeidHash, smfN4FSeidHash, smfN4SeidHash
        sessList := ctx.sessList ++ [n] }
    have hself : ctx'.sess n =
        { upfN4SeidNode := some node, upfN4Seid := cfg.seid node, seid := fSeid.seid, ip } :=
      Function.update_self ..
    have hother (m : Nat) (hm : m ≠ n) : ctx'.sess m = ctx.sess m := Function.update_of_ne hm ..
    refine ⟨n, ctx', ?_, ⟨?_, ?_, ?_, ?_, ?_⟩,
      ⟨hfresh, rfl, ⟨node, ip, hip, rfl⟩, hset₁, hset₂, hset₃, rfl⟩⟩
    · rw [N4Context.upfSessAdd, halloc, hseids]
      simp only [hip]
      change (do
        let upfN4SeidHash ← ctx.upfN4SeidHash.set ctx₀.upfN4SeidMem n 8 (some n)
        let smfN4FSeidHash ← ctx.smfN4FSeidHash.set ctx₀.smfN4FSeidMem n fSeidLen (some n)
        let smfN4SeidHash ← ctx.smfN4SeidHash.set ctx₀.smfN4SeidMem n 8 (some n)
        return (some n,
          ({ ctx₀ with
            upfSessPool, upfN4SeidPool, upfN4SeidHash, smfN4FSeidHash, smfN4SeidHash
            sessList := ctx.sessList ++ [n] } : N4Context))) = _
      simp only [hset₁, hset₂, hset₃, Fallible.ok_bind]
      rfl
    · have hown : ctx'.pointers = ctx.pointers := by
        funext version m
        rw [N4Context.pointers, N4Context.pointers, show ctx'.sessList = ctx.sessList ++ [n] from rfl]
        by_cases hm : m = n
        · subst hm
          rw [hself]
          simp [hfresh]
        · simp [hother m hm, hm]
      rw [hown]
      exact ⟨h.owned.hold, h.owned.record, h.owned.index, h.owned.once⟩
    · exact hsessPool.perm (List.perm_append_singleton n ctx.sessList).symm
    · apply hseidPool.perm
      have hsame : ctx.sessList.filterMap (fun n => (ctx'.sess n).upfN4SeidNode) =
          ctx.sessList.filterMap fun n => (ctx.sess n).upfN4SeidNode := by
        apply List.filterMap_congr
        intro m hm
        rw [hother m]
        rintro rfl
        exact hfresh hm
      change (node :: _).Perm ((ctx.sessList ++ [n]).filterMap _)
      rw [List.filterMap_append, hsame, List.filterMap_cons_some
        (f := fun n => (ctx'.sess n).upfN4SeidNode) (congrArg N4Sess.upfN4SeidNode hself)]
      exact (List.perm_append_singleton node _).symm
    · intro m hm
      by_cases hmn : m = n
      · subst hmn
        rw [hself]
        exact ⟨node, rfl, rfl⟩
      · rw [hother m hmn]
        apply h.seid
        exact (List.mem_append.mp hm).resolve_right fun hm => hmn (List.mem_singleton.mp hm)
    · have hsize₁ := OgsPool.size_alloc ctx.upfSessPool
      have hsize₂ := OgsPool.size_alloc ctx.upfN4SeidPool
      rw [halloc] at hsize₁
      rw [hseids] at hsize₂
      exact ⟨hsize₁.trans h.sizes.1, hsize₂.trans h.sizes.2⟩

/-- A request is for no session, for one that stands in the table, or for a new one. -/
theorem N4Context.Sound.establish (h : ctx.Sound cfg) (pad : Vector UInt8 4)
    (fSeid : Option FSeid) :
    ∃ n ctx', ctx.upfSessAddByMessage cfg pad fSeid = .ok (n, ctx') ∧ ctx'.Sound cfg ∧
      (ctx' = ctx ∨ ∃ sess fSeid', n = some sess ∧ fSeid = some fSeid' ∧
        ctx.findBySmfN4FSeid pad fSeid' = .ok none ∧ Added cfg ctx sess fSeid' ctx') := by
  unfold N4Context.upfSessAddByMessage
  cases fSeid with
  | none => exact ⟨none, ctx, rfl, h, .inl rfl⟩
  | some fSeid =>
    dsimp only
    split
    · exact ⟨none, ctx, rfl, h, .inl rfl⟩
    · next hflags =>
      obtain ⟨ip, hip⟩ : ∃ ip, fSeid.toIp = some ip := by
        unfold FSeid.toIp
        cases h4 : fSeid.ipv4 <;> cases h6 : fSeid.ipv6 <;> first | exact ⟨_, rfl⟩ | skip
        exact absurd ⟨h4, h6⟩ hflags
      have hfind : ctx.findBySmfN4FSeid pad fSeid = .ok ((ctx.smfN4FSeidHash.findEntry
          ctx.smfN4FSeidMem (fSeidMem fSeid.seid ip pad)).map HashEntry.val) := by
        rw [N4Context.findBySmfN4FSeid, hip]
      cases hfound : (ctx.smfN4FSeidHash.findEntry ctx.smfN4FSeidMem
          (fSeidMem fSeid.seid ip pad)).map HashEntry.val with
      | some n =>
        rw [hfind, hfound]
        exact ⟨some n, ctx, rfl, h, .inl rfl⟩
      | none =>
        rw [hfound] at hfind
        rw [hfind, Fallible.ok_bind]
        rcases h.add hip with hadd | ⟨n, ctx', hadd, hsound, hadded⟩
        · exact ⟨none, ctx, hadd, h, .inl rfl⟩
        · exact ⟨some n, ctx', hadd, hsound, .inr ⟨n, fSeid, rfl, rfl, hfind, hadded⟩⟩

/-- `upf_context_init` leaves no session and hands out nothing. -/
theorem init_sound (cfg : N4Config) {subnets : List Subnet} (seed : Nat → UInt32)
    (hpools : ∀ subnet ∈ subnets, ∃ size, subnet.pool = OgsPool.init size) :
    (N4Context.init cfg subnets seed).Sound cfg where
  owned := by
    refine ⟨⟨fun k => ?_, fun _ _ _ h => absurd h List.not_mem_nil, fun _ _ => rfl,
      List.nodup_nil⟩, fun n version p => ?_, fun version => ?_, rfl⟩
    · change ((UeIps.mk subnets _ _).pool k).Holds []
      unfold UeIps.pool
      cases hk : subnets[k]? with
      | none => exact OgsPool.init_holds 0
      | some subnet =>
        obtain ⟨size, hsize⟩ := hpools subnet (List.mem_of_getElem? hk)
        rw [Option.map_some, Option.getD_some, hsize]
        exact OgsPool.init_holds size
    · exact iff_of_false List.not_mem_nil (by simp [N4Context.pointers, N4Context.init])
    · have hnone : (N4Context.init cfg subnets seed).pointers version = fun _ => none :=
        funext fun _ => if_neg List.not_mem_nil
      rw [hnone]
      cases version <;> exact OgsHash.make_indexed _
  sessPool := OgsPool.init_holds cfg.size
  seidPool := OgsPool.init_holds cfg.size
  seid _ h := absurd h List.not_mem_nil
  sizes := ⟨rfl, rfl⟩

/-- The calls for addresses are sound. -/
def SoundCalls (cfg : N4Config) : Except Fault N4Context → N4Event → Prop
  | .ok ctx, .setUeIp sess call => call.Sound cfg ctx sess
  | _, _ => True

/-- A run whose calls are sound does not fault, and keeps what runs keep. -/
theorem sound_of_run {st : Except Fault N4Context}
    (h : System.Run (n4System cfg) (SoundCalls cfg) events st) :
    ∃ ctx, st = .ok ctx ∧ ctx.Sound cfg := by
  apply h.invariant
  · rintro st ⟨subnets, seed, hpools, rfl⟩
    exact ⟨_, rfl, init_sound cfg seed hpools⟩
  · rintro _ e _ ⟨ctx, rfl, hsound⟩ hcall ⟨_, hst, henabled, rfl⟩
    obtain rfl := Except.ok.inj hst
    cases e with
    | establish pad fSeid =>
      obtain ⟨n, ctx', hrun, hsound', -⟩ := hsound.establish pad fSeid
      exact ⟨ctx', congrArg (Prod.snd <$> ·) hrun, hsound'⟩
    | setUeIp sess call =>
      obtain ⟨cause, ctx', hrun, hsound', -⟩ := hsound.setUeIp henabled hcall
      exact ⟨ctx', congrArg (Prod.snd <$> ·) hrun, hsound'⟩
    | remove sess =>
      obtain ⟨ctx', hrun, hsound', -⟩ := hsound.remove henabled
      exact ⟨ctx', hrun, hsound'⟩

/-- What is handed out is what the sessions point to, each entry once. The tables lead
from their addresses to them, and nothing was freed that was not handed out. -/
structure N4Context.OwnsUeIps (cfg : N4Config) (ctx : N4Context) : Prop where
  hold : UeIpsHold ctx.ueIps ctx.held
  pointer : ∀ sess version p, (sess, version, p) ∈ ctx.held ↔
    sess ∈ ctx.sessList ∧ (ctx.sess sess).ueIp version = some p
  table : ∀ sess ∈ ctx.sessList, ∀ version p, (ctx.sess sess).ueIp version = some p →
    ∃ addr, ctx.ueIps.addr cfg.slotAddr p = some addr ∧
      ctx.findByUeIp cfg version addr = some sess
  once : ctx.freedTwice = false

theorem N4Context.Sound.ownsUeIps (h : ctx.Sound cfg) : ctx.OwnsUeIps cfg where
  hold := h.owned.hold
  pointer sess version p := by
    rw [h.owned.record, N4Context.pointers]
    by_cases hsess : sess ∈ ctx.sessList <;> simp [hsess]
  table sess hsess version p hp := by
    have hown : ctx.pointers version sess = some p := (if_pos hsess).trans hp
    obtain ⟨addr, haddr⟩ := Option.isSome_iff_exists.mp (h.owned.addr_isSome hown)
    refine ⟨addr, haddr, ?_⟩
    have hfind := (h.owned.index version).find_owner hown
    rw [OgsHash.keyAt, N4Context.ueIpMem, haddr] at hfind
    exact hfind
  once := h.owned.once

/-- In a run whose calls all free only what they assign again, and take only addresses
that no other session has, the addresses of the UEs are owned soundly after every call. -/
theorem ue_ips_owned {events : List N4Event} {st : Except Fault N4Context}
    (h : System.Run (n4System cfg) (SoundCalls cfg) events st) :
    ∃ ctx, st = .ok ctx ∧ ctx.OwnsUeIps cfg := by
  obtain ⟨ctx, rfl, hsound⟩ := sound_of_run h
  exact ⟨ctx, rfl, hsound.ownsUeIps⟩

/-! ## One session -/

/-- Four sessions. -/
def fourSessions : N4Config where
  size := 4
  seid i := .ofNat (i + 1)
  distinct := by decide
  slotAddr k i := #v[.ofNat (16 * k + i + 1), 0, 0, 0]

/-- No session, two IPv4 addresses and an IPv6 address. -/
def noSession : N4Context :=
  .init fourSessions [⟨afInet, [], .init 2⟩, ⟨afInet6, [], .init 1⟩] fun _ => 0

def zeroPad : Vector UInt8 4 := Vector.replicate 4 0

def smfFSeid (seid : UInt64) : FSeid := ⟨true, false, seid, Vector.replicate 20 1⟩

/-- A call for dynamic addresses of both versions. -/
def dynamicCall (sessionType : UInt8) : UeIpCall :=
  ⟨sessionType, ⟨true, true, Vector.replicate 20 0⟩, none, fun _ => true⟩

/-- The state after an event that does not fault. -/
def N4Context.next (ctx : N4Context) (e : N4Event) : N4Context :=
  (ctx.after fourSessions e).toOption.getD ctx

/-- A run goes on with an event that does not fault. -/
theorem run_next {P : Except Fault N4Context → N4Event → Prop} {e : N4Event}
    (hrun : System.Run (n4System fourSessions) P events (.ok ctx)) (hP : P (.ok ctx) e)
    (henabled : ctx.Enabled e) (hsome : (ctx.after fourSessions e).toOption.isSome) :
    System.Run (n4System fourSessions) P (events ++ [e]) (.ok (ctx.next e)) := by
  apply hrun.snoc hP
  refine ⟨ctx, rfl, henabled, ?_⟩
  unfold N4Context.next
  cases hafter : ctx.after fourSessions e with
  | error fault =>
    rw [hafter] at hsome
    cases hsome
  | ok ctx' => rfl

/-- A session. -/
def oneSession : N4Context := noSession.next (.establish zeroPad (some (smfFSeid 7)))

/-- A session with addresses of both versions. -/
def dualSession : N4Context := oneSession.next (.setUeIp 0 (dynamicCall pduSessionTypeIpv4v6))

/-- The session once it is given an IPv4 address only. -/
def staleSession : N4Context := dualSession.next (.setUeIp 0 (dynamicCall pduSessionTypeIpv4))

/-- The run to a session with two addresses. -/
theorem dualSession_run (P : Except Fault N4Context → N4Event → Prop)
    (hadd : P (.ok noSession) (.establish zeroPad (some (smfFSeid 7))))
    (hset : P (.ok oneSession) (.setUeIp 0 (dynamicCall pduSessionTypeIpv4v6))) :
    System.Run (n4System fourSessions) P
      [.establish zeroPad (some (smfFSeid 7)), .setUeIp 0 (dynamicCall pduSessionTypeIpv4v6)]
      (.ok dualSession) := by
  have hinit : (n4System fourSessions).init (.ok noSession) := by
    refine ⟨_, fun _ => 0, fun subnet hsubnet => ?_, rfl⟩
    rcases List.mem_cons.mp hsubnet with rfl | hsubnet
    · exact ⟨2, rfl⟩
    · obtain rfl := List.mem_singleton.mp hsubnet
      exact ⟨1, rfl⟩
  have hfirst : 0 ∈ oneSession.sessList := by decide
  exact run_next (run_next (.nil hinit) hadd trivial (by decide)) hset hfirst
    (by decide)

theorem zero_mem_dualSession : 0 ∈ dualSession.sessList := by decide

/-- The first call for addresses of a session is sound. -/
theorem dualSession_sound :
    (dynamicCall pduSessionTypeIpv4v6).Sound fourSessions oneSession 0 := by
  have hothers (version : IpVersion) (n : Nat) : oneSession.others 0 version n = none := by
    apply if_neg
    rintro ⟨hn, hne⟩
    exact hne (List.mem_singleton.mp hn)
  refine ⟨fun version h => absurd (by cases version <;> rfl) h, fun version _ => ⟨?_, ?_⟩⟩
  · intro k hk _
    cases version <;> obtain rfl := Option.some.inj hk <;> decide
  · intro words _ n q addr' hq
    cases (hothers version n).symm.trans hq

/-- A session gets two addresses and is removed. -/
theorem ue_ips_owned_removed :
    ∃ ctx, (.ok (dualSession.next (.remove 0)) : Except Fault N4Context) = .ok ctx ∧
      ctx.OwnsUeIps fourSessions :=
  ue_ips_owned (run_next (dualSession_run (SoundCalls fourSessions) trivial dualSession_sound)
    trivial zero_mem_dualSession (by decide +kernel))

/-- The run to a session with a pointer to an address that it gave back. -/
theorem staleSession_run : System.Run (n4System fourSessions) System.unrestricted
    [.establish zeroPad (some (smfFSeid 7)), .setUeIp 0 (dynamicCall pduSessionTypeIpv4v6),
      .setUeIp 0 (dynamicCall pduSessionTypeIpv4)] (.ok staleSession) :=
  run_next (dualSession_run System.unrestricted trivial trivial) trivial zero_mem_dualSession
    (by decide)

/-- The pointer to the IPv6 address that was freed stays. -/
theorem ue_ips_owned_fails :
    ¬ ∀ (cfg : N4Config) events st,
      System.Run (n4System cfg) System.unrestricted events st →
        ∃ ctx, st = .ok ctx ∧ ctx.OwnsUeIps cfg := by
  intro h
  obtain ⟨ctx, hctx, howns⟩ := h _ _ _ staleSession_run
  obtain rfl := Except.ok.inj hctx
  have hsess : 0 ∈ staleSession.sessList := by decide
  have hheld := (howns.pointer 0 .v6 (.slot 1 0)).mpr ⟨hsess, by decide⟩
  revert hheld
  decide

end Quicup.Open5gs
