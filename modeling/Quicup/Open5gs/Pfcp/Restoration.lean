import Mathlib.Data.List.NodupEquivFin
import Quicup.Core.System
import Quicup.Open5gs.Pfcp.Sessions

/-!
# TEIDs that are restored

A PDR that is restored takes its TEID over from where the TEID stood at first. As long as it
stands there, or with a PDR, and no PDR gives a TEID back that another one was restored with,
each TEID is with one PDR or free, and none that was restored is free.
-/

namespace Quicup.Open5gs.Pfcp

open Function

/-! ## Places that are exchanged -/

section

variable {α : Type} {f : Nat → α} {i n m size : Nat}

/-- Two places of an array are exchanged. -/
theorem update_update_apply :
    update (update f i (f n)) n (f i) m =
      if m = n then f i else if m = i then f n else f m := by
  simp only [update_apply]

/-- The values of an array stay when two places are exchanged. -/
theorem map_update_update_perm (hi : i < size) (hn : n < size) :
    ((List.range size).map (update (update f i (f n)) n (f i))).Perm
      ((List.range size).map f) := by
  have hswap : update (update f i (f n)) n (f i) = f ∘ Equiv.swap i n := by
    ext m
    rw [update_update_apply, Function.comp_apply, Equiv.swap_apply_def]
    by_cases hm : m = n <;> by_cases hmi : m = i <;> simp_all
  rw [hswap, ← List.map_map]
  apply List.Perm.map
  rw [List.perm_ext_iff_of_nodup (List.nodup_range.map (Equiv.injective _)) List.nodup_range]
  intro m
  simp only [List.mem_map, List.mem_range]
  constructor
  · rintro ⟨k, hk, rfl⟩
    rw [Equiv.swap_apply_def]
    split
    · exact hn
    · split
      · exact hi
      · exact hk
  · intro hm
    refine ⟨Equiv.swap i n m, ?_, Equiv.swap_apply_self i n m⟩
    rw [Equiv.swap_apply_def]
    split
    · exact hn
    · split
      · exact hi
      · exact hm

end

/-! ## All TEIDs -/

/-- The TEIDs of a pool. -/
def allTeids (size : Nat) : List UInt32 := (List.range size).map fun n => .ofNat (n + 1)

theorem allTeids_nodup {size : Nat} (hsize : size < 2 ^ 32) : (allTeids size).Nodup := by
  refine List.Nodup.map_on (fun m hm n hn heq => ?_) List.nodup_range
  rw [List.mem_range] at hm hn
  have htoNat := congrArg UInt32.toNat heq
  rw [UInt32.toNat_ofNat_of_lt' (by change m + 1 < 2 ^ 32; omega),
    UInt32.toNat_ofNat_of_lt' (by change n + 1 < 2 ^ 32; omega)] at htoNat
  omega

/-! ## Runs -/

namespace PfcpSessions

variable (w : PfcpSessions)

/-- The value in the slot of the TEID of a PDR. -/
def held (slot : Nat) : UInt32 := w.ctx.teids (w.pdr slot).teidNode

/-- The TEID that a PDR was restored with. -/
def restored (slot : Nat) : Option UInt32 :=
  if 0 < (w.pdr slot).fTeidLen then some (w.pdr slot).fTeid.teid else none

/-- The values in the free slots. -/
def freeTeids : List UInt32 := w.ctx.teidPool.free.map w.ctx.teids

/-- The PDRs of a session. -/
def slots (k : Nat) : List Nat := ((w.sess[k]?).map fun sess => sess.list .pdr).getD []

/-- The values in the free part of the pool and those of the PDRs are all TEIDs, and no TEID
that a PDR was restored with is free. -/
structure TeidsExact : Prop where
  perm : (w.freeTeids ++ w.live.map w.held).Perm (allTeids w.ctx.teidPool.size)
  unfree : ∀ slot ∈ w.live, ∀ teid, w.restored slot = some teid → teid ∉ w.freeTeids

/-- A PDR that is new has no TEID that another PDR was restored with. -/
def HandsOutFresh (w w' : PfcpSessions) : Prop :=
  ∀ slot ∈ w'.live, slot ∉ w.live → ∀ other ∈ w.live, w.restored other ≠ some (w'.pdr slot).teid

end PfcpSessions

/-- What happens to the PDRs of the sessions. -/
inductive PdrEvent
  | create (sess : Nat) (id : UInt32)
  | restore (sess slot : Nat) (fTeid : FTeid) (fTeidLen : Nat)
  | remove (sess slot : Nat)
  deriving DecidableEq

/-- A PDR that is restored or removed is one of its session. -/
def PdrEvent.run (w : PfcpSessions) : PdrEvent → Option PfcpSessions
  | .create k id => w.act k (pdrFindOrAdd id)
  | .restore k slot fTeid fTeidLen =>
    if slot ∈ w.slots k then w.act k (restoreTeid slot fTeid fTeidLen) else none
  | .remove k slot => if slot ∈ w.slots k then w.act k (pdrRemove slot) else none

/-- The sessions of a UPF from its start on. The number of PDRs is an `int`. -/
def pdrSystem : System PfcpSessions PdrEvent where
  init w := ∃ max teids seed num, max * RuleKind.pdr.maxNum < 2 ^ 31 ∧
    teids.Perm (allTeids (max * RuleKind.pdr.maxNum)) ∧ w = .init max teids seed num
  step w e w' := e.run w = some w'

/-- The slot of a PDR may be given back, or its value be put into a free slot: no other PDR
was restored with the value. -/
def PfcpSessions.Unshared (w : PfcpSessions) (slot : Nat) : Prop :=
  ∀ other ∈ w.live, other ≠ slot → w.restored other ≠ some (w.held slot)

/-- A PDR is added with a number. A TEID that is restored stands where it stood at first, or
with a PDR, and what changes places with it is not a TEID of another restored PDR that would
be free. A PDR that is removed has no TEID that another one was restored with. -/
def PdrEvent.Undisturbed (w : PfcpSessions) : PdrEvent → Prop
  | .create k id => ∀ sess, w.sess[k]? = some sess → (w.state sess).ServesPdr id
  | .restore _ slot fTeid _ =>
    (fTeid.teid ∈ allTeids w.ctx.teidPool.size →
      w.ctx.AtStart fTeid.teid ∨ fTeid.teid ∈ w.live.map w.held) ∧
    (w.ctx.AtStart fTeid.teid → w.ctx.randomToIndex fTeid.teid ∈ w.ctx.teidPool.free →
      w.Unshared slot)
  | .remove _ slot => w.Unshared slot

/-! ## The invariant -/

namespace PfcpSessions

/-- The slots of PDRs and of TEIDs are free or with a PDR, and each TEID that a PDR was
restored with is with a PDR. -/
structure TeidsKept (w : PfcpSessions) : Prop where
  size : w.ctx.teidPool.size < 2 ^ 32
  pdrs : (w.ctx.table .pdr).pool.Holds w.live
  nodes : w.ctx.teidPool.Holds (w.live.map fun slot => (w.pdr slot).teidNode)
  values : ((List.range w.ctx.teidPool.size).map w.ctx.teids).Perm (allTeids w.ctx.teidPool.size)
  restored : ∀ slot ∈ w.live, ∀ teid, w.restored slot = some teid →
    teid ∈ allTeids w.ctx.teidPool.size → teid ∈ w.live.map w.held

variable {w w' : PfcpSessions}

theorem map_held (w : PfcpSessions) :
    w.live.map w.held = (w.live.map fun slot => (w.pdr slot).teidNode).map w.ctx.teids := by
  rw [List.map_map]
  rfl

namespace TeidsKept

theorem perm (h : w.TeidsKept) :
    (w.freeTeids ++ w.live.map w.held).Perm (allTeids w.ctx.teidPool.size) := by
  rw [freeTeids, map_held, ← List.map_append]
  exact (h.nodes.map _).trans h.values

/-- No value is both free and with a PDR. -/
theorem disjoint (h : w.TeidsKept) : w.freeTeids.Disjoint (w.live.map w.held) :=
  List.disjoint_of_nodup_append (h.perm.nodup_iff.mpr (allTeids_nodup h.size))

theorem exact (h : w.TeidsKept) : w.TeidsExact where
  perm := h.perm
  unfree slot hslot teid hrestored hfree := by
    have hall := h.perm.mem_iff.mp (List.mem_append_left _ hfree)
    exact h.disjoint hfree (h.restored slot hslot teid hrestored hall)

theorem init {w : PfcpSessions} (h : pdrSystem.init w) : w.TeidsKept := by
  obtain ⟨max, teids, seed, num, hsize, hperm, rfl⟩ := h
  have hlen : teids.length = max * RuleKind.pdr.maxNum := by
    rw [hperm.length_eq, allTeids, List.length_map, List.length_range]
  refine ⟨?_, ?_, ?_, ?_, ?_⟩
  · change max * RuleKind.pdr.maxNum < 2 ^ 32
    omega
  · rw [live_init]
    exact OgsPool.init_holds _
  · rw [live_init]
    exact OgsPool.init_holds _
  · have hmap : (List.range (max * RuleKind.pdr.maxNum)).map (fun n => teids.getD n 0) = teids := by
      apply List.ext_getElem
      · simp [hlen]
      · intro n hn hn'
        simp [hn']
    exact (hmap ▸ hperm :)
  · intro slot hslot
    rw [live_init] at hslot
    cases hslot

end TeidsKept

/-! ## Steps -/

variable {k slot node other : Nat} {sess : PfcpSess} {st : PfcpState}

/-- The node of a PDR and what it was restored with are read off the PDR. -/
theorem restored_congr (h : w'.pdr other = w.pdr other) : w'.restored other = w.restored other := by
  rw [PfcpSessions.restored, PfcpSessions.restored, h]

theorem held_congr (h : w'.pdr other = w.pdr other) (hteids : w'.ctx.teids = w.ctx.teids) :
    w'.held other = w.held other := by
  rw [held, held, h, hteids]


/-- A PDR that is removed is no longer one, and the others stay. -/
theorem removed_live (hnodup : w.live.Nodup) (hsess : w.sess[k]? = some sess)
    (hslot : slot ∈ sess.list .pdr) (hremove : PdrRemoved slot (w.state sess) st) :
    let w' : PfcpSessions := ⟨st.ctx, w.sess.set k st.sess⟩
    w.live.Perm (slot :: w'.live) ∧ (∀ other ∈ w'.live, w'.pdr other = w.pdr other) ∧
      slot ∉ w'.live := by
  intro w'
  have hlive : w.live.Perm (slot :: w'.live) := by
    apply (live_perm hsess).trans
    refine List.Perm.trans ?_ ((live_set_perm hsess st.ctx st.sess).symm.cons slot)
    rw [show st.sess.list .pdr = (sess.list .pdr).erase slot from hremove.list, ← List.cons_append]
    exact (List.perm_cons_erase hslot).append_right _
  have hnot : slot ∉ w'.live := (List.nodup_cons.mp (hlive.nodup_iff.mp hnodup)).1
  exact ⟨hlive, fun other hother => hremove.others other fun heq => hnot (heq ▸ hother), hnot⟩

/-- A PDR that is restored stays, and so do the slots of the TEIDs. -/
theorem restored_frame {fTeid : FTeid} {fTeidLen : Nat} (hsess : w.sess[k]? = some sess)
    (hrestore : PdrRestored slot fTeid fTeidLen (w.state sess) st) :
    let w' : PfcpSessions := ⟨st.ctx, w.sess.set k st.sess⟩
    w'.live.Perm w.live ∧
      (w'.live.map fun slot => (w'.pdr slot).teidNode).Perm
        (w.live.map fun slot => (w.pdr slot).teidNode) ∧
      w'.ctx.teidPool = w.ctx.teidPool ∧
      w'.ctx.teids = w.ctx.swapped (w.pdr slot).teidNode fTeid.teid := by
  intro w'
  have hlive : w'.live.Perm w.live := by
    apply (live_set_perm hsess st.ctx st.sess).trans
    rw [show st.sess.list .pdr = sess.list .pdr from hrestore.list]
    exact (live_perm hsess).symm
  have hnode (other : Nat) : (w'.pdr other).teidNode = (w.pdr other).teidNode := by
    by_cases hne : other = slot
    · subst hne
      rw [show w'.pdr other = { w.pdr other with fTeid, fTeidLen } from hrestore.rule]
    · rw [show w'.pdr other = w.pdr other from hrestore.others other hne]
  refine ⟨hlive, ?_, ?_, hrestore.teids⟩
  · rw [funext hnode]
    exact hlive.map _
  · change st.ctx.teidPool = _
    rw [hrestore.frame]
    rfl

namespace TeidsKept

/-- A PDR is added with the TEID of a free slot. -/
theorem added (h : w.TeidsKept) (hsess : w.sess[k]? = some sess)
    (hadd : PdrAdded slot node (w.state sess) st) :
    slot ∉ w.live ∧
      (⟨st.ctx, w.sess.set k st.sess⟩ : PfcpSessions).live.Perm (slot :: w.live) ∧
      (⟨st.ctx, w.sess.set k st.sess⟩ : PfcpSessions).TeidsKept := by
  set w' : PfcpSessions := ⟨st.ctx, w.sess.set k st.sess⟩ with hw'
  have hslot := h.pdrs.alloc (congrArg Prod.fst hadd.pool)
  have hnode := h.nodes.alloc (congrArg Prod.fst hadd.teidPool)
  have hlive : w'.live.Perm (slot :: w.live) := by
    apply (live_set_perm hsess st.ctx st.sess).trans
    rw [show st.sess.list .pdr = sess.list .pdr ++ [slot] from hadd.list, List.append_assoc]
    exact List.perm_middle.trans ((live_perm hsess).symm.cons _)
  have hothers (other : Nat) (hother : other ∈ w.live) : w'.pdr other = w.pdr other :=
    hadd.others other fun heq => hslot.2 (heq ▸ hother)
  have hteids : w'.ctx.teids = w.ctx.teids := by
    rw [hw', hadd.frame]
    rfl
  have hteidPool : w'.ctx.teidPool = w.ctx.teidPool.alloc.2 := (congrArg Prod.snd hadd.teidPool).symm
  have hpool : (w'.ctx.table .pdr).pool = (w.ctx.table .pdr).pool.alloc.2 :=
    (congrArg Prod.snd hadd.pool).symm
  have hsize : w'.ctx.teidPool.size = w.ctx.teidPool.size := by
    rw [hteidPool, OgsPool.size_alloc]
  have hpdr : w'.pdr slot = { teidNode := node, teid := w.ctx.teids node } := hadd.rule
  have hmem (other : Nat) : other ∈ w'.live ↔ other = slot ∨ other ∈ w.live := by
    rw [hlive.mem_iff, List.mem_cons]
  refine ⟨hslot.2, hlive, ?_, ?_, ?_, ?_, ?_⟩
  · rw [hsize]
    exact h.size
  · rw [hpool]
    exact hslot.1.perm hlive.symm
  · rw [hteidPool]
    refine hnode.1.perm ((hlive.map _).trans ?_).symm
    rw [List.map_cons, hpdr, List.map_congr_left fun other hother => by rw [hothers other hother]]
  · rw [hsize, hteids]
    exact h.values
  · intro other hother teid hrestored hall
    rw [hsize] at hall
    rcases (hmem other).mp hother with rfl | hother
    · rw [PfcpSessions.restored, hpdr] at hrestored
      cases hrestored
    · rw [restored_congr (hothers other hother)] at hrestored
      obtain ⟨holder, hholder, rfl⟩ := List.mem_map.mp (h.restored other hother teid hrestored hall)
      exact List.mem_map.mpr ⟨holder, (hmem holder).mpr (.inr hholder),
        held_congr (hothers holder hholder) hteids⟩

/-- A PDR is removed whose TEID no other PDR was restored with. -/
theorem removed (h : w.TeidsKept) (hsess : w.sess[k]? = some sess) (hslot : slot ∈ sess.list .pdr)
    (hremove : PdrRemoved slot (w.state sess) st) (hunshared : w.Unshared slot) :
    (⟨st.ctx, w.sess.set k st.sess⟩ : PfcpSessions).TeidsKept := by
  obtain ⟨hlive, hothers, hnot⟩ := removed_live h.pdrs.nodup.of_append_right hsess hslot hremove
  set w' : PfcpSessions := ⟨st.ctx, w.sess.set k st.sess⟩
  have hteids : w'.ctx.teids = w.ctx.teids := hremove.teids
  have hteidPool : w'.ctx.teidPool = w.ctx.teidPool.release (w.pdr slot).teidNode := hremove.teidPool
  have hpool : (w'.ctx.table .pdr).pool = (w.ctx.table .pdr).pool.release slot := hremove.pool
  have hsize : w'.ctx.teidPool.size = w.ctx.teidPool.size := by
    rw [hteidPool, OgsPool.size_release]
  refine ⟨?_, ?_, ?_, ?_, ?_⟩
  · rw [hsize]
    exact h.size
  · rw [hpool]
    exact (h.pdrs.perm hlive).release
  · rw [hteidPool]
    have hnodes := h.nodes.perm (hlive.map _)
    rw [List.map_cons] at hnodes
    rw [List.map_congr_left fun other hother => by rw [hothers other hother]]
    exact hnodes.release
  · rw [hsize, hteids]
    exact h.values
  · intro other hother teid hrestored hall
    rw [hsize] at hall
    rw [restored_congr (hothers other hother)] at hrestored
    have hother' : other ∈ w.live := hlive.mem_iff.mpr (List.mem_cons_of_mem _ hother)
    have hne : other ≠ slot := fun heq => hnot (heq ▸ hother)
    obtain ⟨holder, hholder, rfl⟩ := List.mem_map.mp (h.restored other hother' teid hrestored hall)
    -- the PDR that has the value is not the one that is removed
    rcases List.mem_cons.mp (hlive.mem_iff.mp hholder) with rfl | hholder
    · exact absurd hrestored (hunshared other hother' hne)
    · exact List.mem_map.mpr ⟨holder, hholder, held_congr (hothers holder hholder) hteids⟩

variable {teid : UInt32} {ctx : PfcpContext} {n fTeidLen : Nat} {fTeid : FTeid}

/-- What the exchange of the places of a TEID does to the value of a slot. -/
theorem swapped_apply (hstart : ctx.AtStart teid) (m : Nat) :
    ctx.swapped n teid m =
      if m = n then teid else if m = ctx.randomToIndex teid then ctx.teids n else ctx.teids m := by
  rw [PfcpContext.swapped, if_pos hstart]
  simp only [update_apply]

theorem swapped_perm {size : Nat} (hindex : ctx.AtStart teid → ctx.randomToIndex teid < size)
    (hn : n < size) :
    ((List.range size).map (ctx.swapped n teid)).Perm ((List.range size).map ctx.teids) := by
  rw [PfcpContext.swapped]
  split
  · next hstart =>
    have hperm := map_update_update_perm (f := ctx.teids) (hindex hstart) hn
    rwa [hstart.2] at hperm
  · exact .refl _

/-- A value is with a PDR. -/
theorem mem_map_held :
    teid ∈ w.live.map w.held ↔
      ∃ m ∈ w.live.map fun slot => (w.pdr slot).teidNode, w.ctx.teids m = teid := by
  rw [map_held, List.mem_map]

/-- A PDR takes a TEID over that stands as at first, or is with a PDR already. -/
theorem restoring (h : w.TeidsKept) (hsess : w.sess[k]? = some sess) (hslot : slot ∈ sess.list .pdr)
    (hrestore : PdrRestored slot fTeid fTeidLen (w.state sess) st)
    (hstands : fTeid.teid ∈ allTeids w.ctx.teidPool.size →
      w.ctx.AtStart fTeid.teid ∨ fTeid.teid ∈ w.live.map w.held)
    (hunshared : w.ctx.AtStart fTeid.teid →
      w.ctx.randomToIndex fTeid.teid ∈ w.ctx.teidPool.free → w.Unshared slot) :
    (⟨st.ctx, w.sess.set k st.sess⟩ : PfcpSessions).TeidsKept := by
  obtain ⟨hlive, hnodes, hteidPool, hteids⟩ := restored_frame hsess hrestore
  set w' : PfcpSessions := ⟨st.ctx, w.sess.set k st.sess⟩
  have hmem : (w.pdr slot).teidNode ∈ w.live.map fun slot => (w.pdr slot).teidNode :=
    List.mem_map_of_mem (mem_live hsess hslot)
  have hrange {m : Nat} : m < w.ctx.teidPool.size ↔
      m ∈ w.ctx.teidPool.free ∨ m ∈ w.live.map fun slot => (w.pdr slot).teidNode := by
    rw [← List.mem_append, h.nodes.mem_iff, List.mem_range]
  have hindex (hstart : w.ctx.AtStart fTeid.teid) :
      w.ctx.randomToIndex fTeid.teid < w.ctx.teidPool.size :=
    hrestore.index hstart.1.1 hstart.1.2
  refine ⟨?_, ?_, ?_, ?_, ?_⟩
  · rw [hteidPool]
    exact h.size
  · rw [show (w'.ctx.table .pdr).pool = (w.ctx.table .pdr).pool from hrestore.pool]
    exact h.pdrs.perm hlive.symm
  · rw [hteidPool]
    exact h.nodes.perm hnodes.symm
  · rw [hteidPool, hteids]
    exact (swapped_perm hindex (hrange.mpr (.inr hmem))).trans h.values
  · intro other hother teid hrestored hall
    rw [hteidPool] at hall
    rw [mem_map_held, hteids]
    simp only [hnodes.mem_iff]
    by_cases hne : other = slot
    · subst hne
      have hpdr : w'.pdr other = { w.pdr other with fTeid, fTeidLen } := hrestore.rule
      rw [PfcpSessions.restored, hpdr, if_pos hrestore.length] at hrestored
      obtain rfl := Option.some.inj hrestored
      by_cases hstart : w.ctx.AtStart fTeid.teid
      · exact ⟨_, hmem, by rw [swapped_apply hstart, if_pos rfl]⟩
      · rw [PfcpContext.swapped, if_neg hstart]
        exact mem_map_held.mp ((hstands hall).resolve_left hstart)
    · have hsame : w'.pdr other = w.pdr other := hrestore.others other hne
      rw [restored_congr hsame] at hrestored
      have hother' : other ∈ w.live := hlive.mem_iff.mp hother
      obtain ⟨m, hm, rfl⟩ := mem_map_held.mp (h.restored other hother' teid hrestored hall)
      by_cases hstart : w.ctx.AtStart fTeid.teid
      swap
      · rw [PfcpContext.swapped, if_neg hstart]
        exact ⟨m, hm, rfl⟩
      by_cases hmn : m = (w.pdr slot).teidNode
      · -- the value of the slot goes to where the TEID stood, which is with a PDR
        subst hmn
        rcases hrange.mp (hindex hstart) with hfree | hused
        · exact absurd hrestored (hunshared hstart hfree other hother' hne)
        · refine ⟨_, hused, ?_⟩
          rw [swapped_apply hstart, if_pos rfl]
          split
          · next heq => rw [← heq, hstart.2]
          · rfl
      · by_cases hmi : m = w.ctx.randomToIndex fTeid.teid
        · refine ⟨_, hmem, ?_⟩
          rw [swapped_apply hstart, if_pos rfl, hmi, hstart.2]
        · exact ⟨m, hm, by rw [swapped_apply hstart, if_neg hmn, if_neg hmi]⟩

/-- A TEID is lost: there are too few slots. -/
theorem leaked_length (h : w.TeidsKept) (hsess : w.sess[k]? = some sess)
    (hleaked : TeidLeaked slot node (w.state sess) st) :
    let w' : PfcpSessions := ⟨st.ctx, w.sess.set k st.sess⟩
    w'.live.Perm w.live ∧ ¬w'.TeidsExact := by
  intro w'
  have hlive : w'.live.Perm w.live := by
    apply (live_set_perm hsess st.ctx st.sess).trans
    rw [show st.sess.list .pdr = sess.list .pdr from hleaked.list]
    exact (live_perm hsess).symm
  refine ⟨hlive, fun hexact => ?_⟩
  have hlength := h.perm.length_eq
  have hlength' := hexact.perm.length_eq
  have hteidPool : w'.ctx.teidPool = w.ctx.teidPool.alloc.2 :=
    (congrArg Prod.snd hleaked.teidPool).symm
  have halloc : w.ctx.teidPool.alloc.1 = some node := congrArg Prod.fst hleaked.teidPool
  have hfree : w.ctx.teidPool.free = node :: w'.ctx.teidPool.free := by
    rw [hteidPool]
    exact OgsPool.free_of_alloc halloc
  have hsize : w'.ctx.teidPool.size = w.ctx.teidPool.size := by
    rw [hteidPool, OgsPool.size_alloc]
  rw [hsize, ← hlength, List.length_append, List.length_append, List.length_map, List.length_map,
    freeTeids, freeTeids, List.length_map, List.length_map, hlive.length_eq, hfree,
    List.length_cons] at hlength'
  omega

/-- Where no restored TEID is free behind a removal, its value was not shared. -/
theorem unshared_of_removed (h : w.TeidsKept) (hsess : w.sess[k]? = some sess)
    (hslot : slot ∈ sess.list .pdr) (hremove : PdrRemoved slot (w.state sess) st)
    (hexact : (⟨st.ctx, w.sess.set k st.sess⟩ : PfcpSessions).TeidsExact) : w.Unshared slot := by
  obtain ⟨hlive, hothers, -⟩ := removed_live h.pdrs.nodup.of_append_right hsess hslot hremove
  set w' : PfcpSessions := ⟨st.ctx, w.sess.set k st.sess⟩
  have hteidPool : w'.ctx.teidPool = w.ctx.teidPool.release (w.pdr slot).teidNode := hremove.teidPool
  intro other hother hne hsame
  have hother' : other ∈ w'.live :=
    (List.mem_cons.mp (hlive.mem_iff.mp hother)).resolve_left hne
  rw [← restored_congr (hothers other hother')] at hsame
  refine hexact.unfree other hother' _ hsame (List.mem_map.mpr ⟨(w.pdr slot).teidNode, ?_, ?_⟩)
  · have hnodes := h.nodes.perm (hlive.map _)
    rw [List.map_cons] at hnodes
    have hlength := hnodes.length_eq
    rw [List.length_append, List.length_cons, List.length_range] at hlength
    rw [hteidPool, OgsPool.release, if_pos (by omega)]
    exact List.mem_append_right _ (List.mem_singleton_self _)
  · exact congrFun hremove.teids _

/-- Where no restored TEID is free behind a restoration, the TEID stood as at first or was
with a PDR, and what it changed places with was not shared. -/
theorem undisturbed_of_restored (h : w.TeidsKept) (hsess : w.sess[k]? = some sess)
    (hslot : slot ∈ sess.list .pdr) (hrestore : PdrRestored slot fTeid fTeidLen (w.state sess) st)
    (hexact : (⟨st.ctx, w.sess.set k st.sess⟩ : PfcpSessions).TeidsExact) :
    (PdrEvent.restore k slot fTeid fTeidLen).Undisturbed w := by
  obtain ⟨hlive, hnodes, hteidPool, hteids⟩ := restored_frame hsess hrestore
  set w' : PfcpSessions := ⟨st.ctx, w.sess.set k st.sess⟩
  have hfreeTeids : w'.freeTeids = w.ctx.teidPool.free.map w'.ctx.teids := by
    rw [freeTeids, hteidPool]
  constructor
  · intro hall
    by_contra hnot
    rw [not_or] at hnot
    have hfree : fTeid.teid ∈ w.freeTeids :=
      (List.mem_append.mp (h.perm.mem_iff.mpr hall)).resolve_right hnot.2
    have hpdr : w'.pdr slot = { w.pdr slot with fTeid, fTeidLen } := hrestore.rule
    have hrestored : w'.restored slot = some fTeid.teid := by
      rw [PfcpSessions.restored, hpdr, if_pos hrestore.length]
    refine hexact.unfree slot (hlive.mem_iff.mpr (mem_live hsess hslot)) _ hrestored ?_
    rwa [hfreeTeids, hteids, PfcpContext.swapped, if_neg hnot.1]
  · intro hstart hfree other hother hne hsame
    have hpdr : w'.pdr other = w.pdr other := hrestore.others other hne
    rw [← restored_congr hpdr] at hsame
    refine hexact.unfree other (hlive.mem_iff.mpr hother) _ hsame ?_
    rw [hfreeTeids, hteids]
    refine List.mem_map.mpr ⟨_, hfree, ?_⟩
    -- a slot that is free is not that of the PDR
    have hused : (w.pdr slot).teidNode ∈ w.live.map fun slot => (w.pdr slot).teidNode :=
      List.mem_map_of_mem (mem_live hsess hslot)
    have hne' : w.ctx.randomToIndex fTeid.teid ≠ (w.pdr slot).teidNode := fun heq =>
      List.disjoint_of_nodup_append h.nodes.nodup hfree (heq ▸ hused)
    rw [swapped_apply hstart, if_neg hne', if_pos rfl]
    rfl

end TeidsKept

theorem mem_slots_iff : slot ∈ w.slots k ↔ ∃ sess, w.sess[k]? = some sess ∧ slot ∈ sess.list .pdr := by
  unfold slots
  cases h : w.sess[k]? <;> simp

/-- What a handler has done to a PDR of a session. -/
theorem act_slot_eq_some {α : Type} {x : Handler α}
    (h : (if slot ∈ w.slots k then w.act k x else none) = some w') :
    ∃ sess result st, w.sess[k]? = some sess ∧ slot ∈ sess.list .pdr ∧
      x (w.state sess) = .ok (result, st) ∧ w' = ⟨st.ctx, w.sess.set k st.sess⟩ := by
  obtain ⟨hslot, hact⟩ := Option.ite_none_right_eq_some.mp h
  obtain ⟨sess, result, st, hsess, hrun, rfl⟩ := act_eq_some hact
  obtain ⟨sess', hsess', hmem⟩ := mem_slots_iff.mp hslot
  obtain rfl := Option.some.inj (hsess.symm.trans hsess')
  exact ⟨sess, result, st, hsess, hmem, hrun, rfl⟩

/-- What a step does, and that it is undisturbed exactly where the TEIDs stay exact. -/
theorem TeidsKept.step {e : PdrEvent} (h : w.TeidsKept) (hstep : e.run w = some w') :
    (e.Undisturbed w → w'.TeidsKept) ∧ (w'.TeidsExact → e.Undisturbed w) ∧ w.HandsOutFresh w' := by
  have hnoNew (hlive : ∀ slot ∈ w'.live, slot ∈ w.live) : w.HandsOutFresh w' :=
    fun slot hslot hnot => absurd (hlive slot hslot) hnot
  cases e with
  | create k id =>
    obtain ⟨sess, result, st, hsess, hrun, rfl⟩ := act_eq_some hstep
    have hundisturbed (hserves : (w.state sess).ServesPdr id) :
        (PdrEvent.create k id).Undisturbed w := by
      intro sess' hsess'
      obtain rfl := Option.some.inj (hsess.symm.trans hsess')
      exact hserves
    rcases pdrFindOrAdd_eq_ok hrun with ⟨hserves, rfl | ⟨slot, node, hadd⟩⟩ |
      ⟨hserves, slot, node, hleaked⟩
    · have hsame : (⟨(w.state sess).ctx, w.sess.set k (w.state sess).sess⟩ : PfcpSessions) = w := by
        obtain ⟨hk, rfl⟩ := List.getElem?_eq_some_iff.mp hsess
        change (⟨w.ctx, w.sess.set k w.sess[k]⟩ : PfcpSessions) = w
        rw [List.set_getElem_self]
      refine ⟨fun _ => by rwa [hsame], fun _ => hundisturbed hserves, hnoNew fun slot hslot => ?_⟩
      rwa [hsame] at hslot
    · obtain ⟨hnot, hlive, hkept⟩ := h.added hsess hadd
      refine ⟨fun _ => hkept, fun _ => hundisturbed hserves, fun new hnew hfresh other hother hsame => ?_⟩
      obtain rfl := (List.mem_cons.mp (hlive.mem_iff.mp hnew)).resolve_right hfresh
      have hpdr : st.rule .pdr new = { teidNode := node, teid := w.ctx.teids node } := hadd.rule
      refine h.exact.unfree other hother _ hsame (List.mem_map.mpr ⟨node, ?_, ?_⟩)
      · rw [OgsPool.free_of_alloc (congrArg Prod.fst hadd.teidPool : w.ctx.teidPool.alloc.1 = _)]
        exact List.mem_cons_self
      · exact (congrArg PfcpPdr.teid hpdr).symm
    · refine ⟨fun hall => absurd (hall sess hsess) hserves, fun hexact => ?_, ?_⟩
      · exact absurd hexact (h.leaked_length hsess hleaked).2
      · exact hnoNew fun slot hslot => (h.leaked_length hsess hleaked).1.mem_iff.mp hslot
  | restore k slot fTeid fTeidLen =>
    obtain ⟨sess, result, st, hsess, hmem, hrun, rfl⟩ := act_slot_eq_some hstep
    have hrestore := restoreTeid_eq_ok hrun
    refine ⟨fun hundisturbed => h.restoring hsess hmem hrestore hundisturbed.1 hundisturbed.2,
      h.undisturbed_of_restored hsess hmem hrestore, hnoNew fun slot hslot => ?_⟩
    exact (restored_frame hsess hrestore).1.mem_iff.mp hslot
  | remove k slot =>
    obtain ⟨sess, result, st, hsess, hmem, hrun, rfl⟩ := act_slot_eq_some hstep
    have hremove := pdrRemove_eq_ok hrun
    obtain ⟨hlive, -, -⟩ := removed_live h.pdrs.nodup.of_append_right hsess hmem hremove
    refine ⟨fun hundisturbed => h.removed hsess hmem hremove hundisturbed,
      h.unshared_of_removed hsess hmem hremove, hnoNew fun other hother => ?_⟩
    exact hlive.mem_iff.mpr (List.mem_cons_of_mem _ hother)

end PfcpSessions

/-- The TEIDs are exact in all states of a run if and only if each of its steps is undisturbed,
and behind such a run no PDR gets a TEID that another one was restored with. -/
theorem teids_exact (events : List PdrEvent) (w : PfcpSessions) :
    (pdrSystem.RunWithin PfcpSessions.TeidsExact events w ↔
      pdrSystem.Run (fun w e => e.Undisturbed w) events w) ∧
    (pdrSystem.Run (fun w e => e.Undisturbed w) events w →
      ∀ e w', pdrSystem.step w e w' → w.HandsOutFresh w') := by
  constructor
  · apply System.Run.within_iff fun w hinit => PfcpSessions.TeidsKept.init hinit
    · exact fun w hkept => hkept.exact
    · exact fun w e w' hkept hundisturbed hstep => (hkept.step hstep).1 hundisturbed
    · exact fun w e w' hkept hstep hexact => (hkept.step hstep).2.1 hexact
  · intro hrun e w' hstep
    have hkept : w.TeidsKept := hrun.invariant (fun w hinit => .init hinit)
      fun w e w' hkept hundisturbed hstep => (hkept.step hstep).1 hundisturbed
    exact (hkept.step hstep).2.2

/-! ## A TEID that has moved -/

instance (st : PfcpState) (id : UInt32) : Decidable (st.ServesPdr id) :=
  inferInstanceAs (Decidable (_ ∨ _))

instance (w : PfcpSessions) (slot : Nat) : Decidable (w.Unshared slot) :=
  inferInstanceAs (Decidable (∀ _ ∈ _, _))

instance (w w' : PfcpSessions) : Decidable (w.HandsOutFresh w') :=
  inferInstanceAs (Decidable (∀ _ ∈ _, _))

instance (w : PfcpSessions) : (e : PdrEvent) → Decidable (e.Undisturbed w)
  | .create k id =>
    inferInstanceAs (Decidable (∀ sess ∈ w.sess[k]?, (w.state sess).ServesPdr id))
  | .restore .. => inferInstanceAs (Decidable (_ ∧ _))
  | .remove _ slot => inferInstanceAs (Decidable (w.Unshared slot))

/-- One session of a UPF whose TEIDs are in order. -/
def oneSession : PfcpSessions := .init 1 (allTeids 16) 0 1

theorem oneSession_init : pdrSystem.init oneSession :=
  ⟨1, allTeids 16, 0, 1, by decide, .refl _, rfl⟩

/-- A PDR is restored with TEID 5, whose place TEID 1 takes, and the next one with TEID 1,
which does not stand at its first place. -/
def restoredInTurn : List PdrEvent :=
  [.create 0 1, .restore 0 0 { flags := 1, teid := 5 } 9, .create 0 2,
    .restore 0 1 { flags := 1, teid := 1 } 9, .create 0 3, .create 0 4]

/-- A TEID that a PDR was restored with is given to another PDR. -/
theorem teids_moved :
    ∃ events w e w', pdrSystem.Run System.unrestricted events w ∧ pdrSystem.step w e w' ∧
      ¬w.HandsOutFresh w' := by
  have hrun : ((restoredInTurn.foldlM PdrEvent.run oneSession).bind fun w =>
      ((PdrEvent.create 0 5).run w).map fun w' => decide (w.HandsOutFresh w')) = some false := by
    decide
  obtain ⟨w, hw, hlast⟩ := Option.bind_eq_some_iff.mp hrun
  obtain ⟨w', hw', hfresh⟩ := Option.map_eq_some_iff.mp hlast
  refine ⟨restoredInTurn, w, _, w', ?_, hw', of_decide_eq_false hfresh⟩
  exact System.run_foldlM (fun s e t hstep => ⟨trivial, hstep⟩) oneSession_init hw

/-- A PDR is restored and removed beside another one. -/
def restoredApart : List PdrEvent :=
  [.create 0 1, .restore 0 0 { flags := 1, teid := 5 } 9, .create 0 2, .remove 0 0]

theorem teids_exact_apart :
    ∃ w, pdrSystem.Run (fun w e => e.Undisturbed w) restoredApart w ∧
      ∀ e w', pdrSystem.step w e w' → w.HandsOutFresh w' := by
  have hrun : (restoredApart.foldlM
      (fun w (e : PdrEvent) => if e.Undisturbed w then e.run w else none) oneSession).isSome := by
    decide
  obtain ⟨w, hw⟩ := Option.isSome_iff_exists.mp hrun
  have hundisturbed : pdrSystem.Run (fun w e => e.Undisturbed w) restoredApart w :=
    System.run_foldlM (fun s e t hstep => Option.ite_none_right_eq_some.mp hstep)
      oneSession_init hw
  exact ⟨w, hundisturbed, (teids_exact restoredApart w).2 hundisturbed⟩

end Quicup.Open5gs.Pfcp
