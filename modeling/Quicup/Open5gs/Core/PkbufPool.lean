import Mathlib.Algebra.BigOperators.Group.Finset.Basic
import Mathlib.Data.Fintype.Basic
import Mathlib.Data.List.Dedup
import Quicup.Core.Cursor
import Quicup.Core.Fallible
import Quicup.Core.System
import Quicup.Open5gs.Core.Pool

/-!
# The pools of packet buffers

`ogs-pkbuf.c` without talloc. A packet buffer refers to a cluster, which refers to a block of its
size class. All three are slots of pools, and copies of a buffer share its cluster. A request that
finds its class or the pool of buffers empty keeps the slots it has taken so far.
-/

namespace Quicup.Open5gs

open Function

inductive ClusterClass
  | c128 | c256 | c512 | c1024 | c2048 | c8192 | c32768 | big
  deriving DecidableEq

namespace ClusterClass

def size : ClusterClass → Nat
  | c128 => 128
  | c256 => 256
  | c512 => 512
  | c1024 => 1024
  | c2048 => 2048
  | c8192 => 8192
  | c32768 => 32768
  | big => 1024 * 1024 + 8

/-- The classes in the order in which `cluster_alloc` and `cluster_free` go through them. -/
def all : List ClusterClass := [c128, c256, c512, c1024, c2048, c8192, c32768, big]

instance : Fintype ClusterClass where
  elems := ⟨all, by decide⟩
  complete c := by cases c <;> decide

/-- The first class with room for a request. -/
def fitting (size : Nat) : Option ClusterClass := all.find? fun c => size ≤ c.size

/-- The class with blocks of a size. -/
def ofSize (size : Nat) : Option ClusterClass := all.find? fun c => c.size = size

theorem ofSize_size (c : ClusterClass) : ofSize c.size = some c := by
  cases c <;> rfl

theorem size_injective {c c' : ClusterClass} (h : c.size = c'.size) : c = c' := by
  have hsome := ofSize_size c
  rw [h, ofSize_size] at hsome
  exact (Option.some.inj hsome).symm

end ClusterClass

structure OgsCluster where
  buffer : Nat := 0
  size : Nat := 0
  referenceCount : Nat := 0
  deriving DecidableEq

/-- A packet buffer with its cluster and the octets from `head` to `end`. -/
structure OgsPkbuf where
  cluster : Nat := 0
  size : Nat := 0
  deriving DecidableEq

/-- `ogs_pkbuf_config_t` -/
abbrev PkbufConfig : Type := ClusterClass → Nat

/-- The pools, with what the slots of buffers and clusters hold. -/
structure PkbufPool where
  pkbuf : OgsPool
  cluster : OgsPool
  classes : ClusterClass → OgsPool
  pkbufs : Nat → OgsPkbuf := fun _ => {}
  clusters : Nat → OgsCluster := fun _ => {}

namespace PkbufPool

/-- `ogs_pkbuf_pool_create` -/
def create (config : PkbufConfig) : PkbufPool where
  pkbuf := .init (∑ c, config c)
  cluster := .init (∑ c, config c)
  classes c := .init (config c)

variable (pool : PkbufPool)

def clusterAlloc (size : Nat) : Except Fault (PkbufPool × Option Nat) :=
  match pool.cluster.alloc with
  | (none, _) => .error .assertion
  | (some cluster, rest) =>
    let pool := { pool with
      cluster := rest
      clusters := update pool.clusters cluster {} }
    match ClusterClass.fitting size with
    | none => .error .assertion
    | some c =>
      match (pool.classes c).alloc with
      | (none, _) => .ok (pool, none)
      | (some buffer, rest) =>
        .ok ({ pool with
          classes := update pool.classes c rest
          clusters := update pool.clusters cluster { buffer, size := c.size } },
          some cluster)

/-- `OGS_OBJECT_REF` -/
def ref (cluster : Nat) : PkbufPool :=
  let object := pool.clusters cluster
  { pool with
    clusters := update pool.clusters cluster
      { object with referenceCount := object.referenceCount + 1 } }

/-- `OGS_OBJECT_UNREF` -/
def unref (cluster : Nat) : PkbufPool :=
  let object := pool.clusters cluster
  { pool with
    clusters := update pool.clusters cluster
      { object with referenceCount := object.referenceCount - 1 } }

def clusterFree (cluster : Nat) : Except Fault PkbufPool :=
  match ClusterClass.ofSize (pool.clusters cluster).size with
  | none => .error .assertion
  | some c => .ok { pool with
      classes := update pool.classes c
        ((pool.classes c).release (pool.clusters cluster).buffer)
      cluster := pool.cluster.release cluster }

/-- `ogs_pkbuf_alloc_debug` -/
def alloc (size : Nat) : Except Fault (PkbufPool × Option Nat) :=
  match pool.clusterAlloc size with
  | .error fault => .error fault
  | .ok (pool, none) => .ok (pool, none)
  | .ok (pool, some cluster) =>
    match pool.pkbuf.alloc with
    | (none, _) => .ok (pool, none)
    | (some pkbuf, rest) =>
      .ok ({ pool.ref cluster with
        pkbuf := rest
        pkbufs := update pool.pkbufs pkbuf { cluster, size } }, some pkbuf)

/-- `ogs_pkbuf_free` -/
def free (pkbuf : Nat) : Except Fault PkbufPool :=
  let cluster := (pool.pkbufs pkbuf).cluster
  let released := if (pool.clusters cluster).referenceCount > 1 then .ok (pool.unref cluster)
    else pool.clusterFree cluster
  released.map fun pool => { pool with pkbuf := pool.pkbuf.release pkbuf }

/-- `ogs_pkbuf_copy_debug` -/
def copy (pkbuf : Nat) : PkbufPool × Option Nat :=
  if (pool.pkbufs pkbuf).size = 0 then (pool, none)
  else
    match pool.pkbuf.alloc with
    | (none, _) => (pool, none)
    | (some newbuf, rest) =>
      let pool := { pool with
        pkbuf := rest
        pkbufs := update pool.pkbufs newbuf (pool.pkbufs pkbuf) }
      (pool.ref (pool.pkbufs newbuf).cluster, some newbuf)

/-! ## References -/

variable {pool t : PkbufPool} {refs refs' : List Nat} {cluster size : Nat} {c : ClusterClass}

/-- The distinct clusters of a class among some references. -/
def ofClass (pool : PkbufPool) (refs : List Nat) (c : ClusterClass) : List Nat :=
  refs.dedup.filter fun cluster => (pool.clusters cluster).size = c.size

/-- The clusters and blocks in use are those of the references, which the clusters count. -/
structure Clustered (pool : PkbufPool) (refs : List Nat) : Prop where
  clusters : pool.cluster.Holds refs.dedup
  blocks : ∀ c, (pool.classes c).Holds
    ((pool.ofClass refs c).map fun cluster => (pool.clusters cluster).buffer)
  sized : ∀ cluster ∈ refs, ∃ c : ClusterClass, (pool.clusters cluster).size = c.size
  counts : ∀ cluster ∈ refs, (pool.clusters cluster).referenceCount = refs.count cluster
  balanced : pool.cluster.free.length = ∑ c, (pool.classes c).free.length

/-- The pools keep their sizes, and clusters that are referred to their blocks. -/
structure Framed (pool : PkbufPool) (refs : List Nat) (t : PkbufPool) : Prop where
  cluster : t.cluster.size = pool.cluster.size
  classes : ∀ c, (t.classes c).size = (pool.classes c).size
  buffers : ∀ cluster ∈ refs, (t.clusters cluster).buffer = (pool.clusters cluster).buffer
  sizes : ∀ cluster ∈ refs, (t.clusters cluster).size = (pool.clusters cluster).size

theorem framed_ref (cluster : Nat) : pool.Framed refs (pool.ref cluster) := by
  refine ⟨rfl, fun _ => rfl, fun other _ => ?_, fun other _ => ?_⟩ <;>
    by_cases heq : other = cluster <;> simp [ref, heq]

theorem framed_unref (cluster : Nat) : pool.Framed refs (pool.unref cluster) := by
  refine ⟨rfl, fun _ => rfl, fun other _ => ?_, fun other _ => ?_⟩ <;>
    by_cases heq : other = cluster <;> simp [unref, heq]

theorem mem_ofClass :
    cluster ∈ pool.ofClass refs c ↔ cluster ∈ refs ∧ (pool.clusters cluster).size = c.size := by
  simp [ofClass]

theorem ofClass_congr (h : ∀ cluster ∈ refs, (t.clusters cluster).size =
    (pool.clusters cluster).size) (c : ClusterClass) : t.ofClass refs c = pool.ofClass refs c := by
  refine List.filter_congr fun cluster hmem => ?_
  rw [h cluster (List.mem_dedup.mp hmem)]

/-- The sum of what is free when one class changes. -/
theorem sum_update (classes : ClusterClass → OgsPool) (c : ClusterClass) (rest : OgsPool) :
    (∑ c', (update classes c rest c').free.length) + (classes c).free.length =
      (∑ c', (classes c').free.length) + rest.free.length := by
  rw [← Finset.add_sum_erase _ _ (Finset.mem_univ c), update_self,
    ← Finset.add_sum_erase _ (fun c' => (classes c').free.length) (Finset.mem_univ c)]
  have hothers : ∑ c' ∈ Finset.univ.erase c, (update classes c rest c').free.length =
      ∑ c' ∈ Finset.univ.erase c, (classes c').free.length := by
    refine Finset.sum_congr rfl fun c' hc' => ?_
    rw [update_of_ne (Finset.ne_of_mem_erase hc')]
  rw [hothers]
  omega

/-- The references may change where the counts follow, and the distinct ones stay. -/
theorem Clustered.recount (h : pool.Clustered refs) {clusters : Nat → OgsCluster}
    (hsize : ∀ cluster, (clusters cluster).size = (pool.clusters cluster).size)
    (hbuffer : ∀ cluster, (clusters cluster).buffer = (pool.clusters cluster).buffer)
    (hdedup : refs.dedup.Perm refs'.dedup)
    (hcounts : ∀ cluster ∈ refs', (clusters cluster).referenceCount = refs'.count cluster) :
    Clustered { pool with clusters } refs' where
  clusters := h.clusters.perm hdedup
  blocks c := by
    refine (h.blocks c).perm ?_
    simp only [ofClass, hsize, hbuffer]
    exact (hdedup.filter _).map _
  sized cluster hmem := by
    simp only [hsize]
    exact h.sized cluster (List.mem_dedup.mp (hdedup.mem_iff.mpr (List.mem_dedup.mpr hmem)))
  counts := hcounts
  balanced := h.balanced

theorem Clustered.perm (h : pool.Clustered refs) (hperm : refs.Perm refs') :
    pool.Clustered refs' := by
  refine h.recount (fun _ => rfl) (fun _ => rfl) hperm.dedup fun cluster hmem => ?_
  rw [h.counts cluster (hperm.mem_iff.mpr hmem), hperm.count_eq]

/-- Another reference to a cluster in use. -/
theorem Clustered.ref (h : pool.Clustered refs) (hmem : cluster ∈ refs) :
    (pool.ref cluster).Clustered (cluster :: refs) := by
  refine h.recount ?_ ?_ ?_ fun other hother => ?_
  · exact fun other => (@framed_ref pool [other] cluster).sizes other (List.mem_singleton_self _)
  · exact fun other => (@framed_ref pool [other] cluster).buffers other (List.mem_singleton_self _)
  · rw [List.dedup_cons_of_mem hmem]
  · by_cases heq : other = cluster
    · rw [heq, update_self, List.count_cons_self, ← h.counts cluster hmem]
    · rw [update_of_ne heq, List.count_cons_of_ne (Ne.symm heq)]
      exact h.counts other ((List.mem_cons.mp hother).resolve_left heq)

/-- A reference goes, and another one to the same cluster stays. -/
theorem Clustered.unref (h : pool.Clustered (cluster :: refs)) (hmem : cluster ∈ refs) :
    (pool.unref cluster).Clustered refs := by
  refine h.recount ?_ ?_ ?_ fun other hother => ?_
  · exact fun other => (@framed_unref pool [other] cluster).sizes other (List.mem_singleton_self _)
  · exact fun other =>
      (@framed_unref pool [other] cluster).buffers other (List.mem_singleton_self _)
  · rw [List.dedup_cons_of_mem hmem]
  · by_cases heq : other = cluster
    · rw [heq, update_self]
      have hcount := h.counts cluster (List.mem_cons_self ..)
      rw [List.count_cons_self] at hcount
      exact Nat.sub_eq_of_eq_add hcount
    · rw [update_of_ne heq, h.counts other (List.mem_cons_of_mem _ hother),
        List.count_cons_of_ne (Ne.symm heq)]

/-- The last reference to a cluster goes, and the cluster with it. -/
theorem Clustered.clusterFree (h : pool.Clustered (cluster :: refs)) (hnot : cluster ∉ refs) :
    ∃ t, pool.clusterFree cluster = .ok t ∧ t.Clustered refs ∧ t.pkbuf = pool.pkbuf ∧
      t.pkbufs = pool.pkbufs ∧ pool.Framed (cluster :: refs) t := by
  obtain ⟨c, hc⟩ := h.sized cluster (List.mem_cons_self ..)
  have hdedup : (cluster :: refs).dedup = cluster :: refs.dedup := List.dedup_cons_of_notMem hnot
  have hclusters : pool.cluster.Holds (cluster :: refs.dedup) := hdedup ▸ h.clusters
  have hblocks : (pool.classes c).Holds ((pool.clusters cluster).buffer ::
      (pool.ofClass refs c).map fun cluster => (pool.clusters cluster).buffer) := by
    have hown := h.blocks c
    rwa [ofClass, hdedup, List.filter_cons_of_pos (by simpa using hc), List.map_cons] at hown
  let t : PkbufPool := { pool with
    classes := update pool.classes c
      ((pool.classes c).release (pool.clusters cluster).buffer)
    cluster := pool.cluster.release cluster }
  have hfree : pool.clusterFree cluster = .ok t := by
    rw [PkbufPool.clusterFree, hc, ClusterClass.ofSize_size]
  have hframed : pool.Framed (cluster :: refs) t := by
    refine ⟨OgsPool.size_release .., fun c' => ?_, fun _ _ => rfl, fun _ _ => rfl⟩
    by_cases heq : c' = c
    · rw [heq, show t.classes c = _ from update_self .., OgsPool.size_release]
    · rw [show t.classes c' = pool.classes c' from update_of_ne heq ..]
  refine ⟨t, hfree, ?_, rfl, rfl, hframed⟩
  refine ⟨hclusters.release, fun c' => ?_,
    fun other hother => h.sized other (List.mem_cons_of_mem _ hother), fun other hother => ?_, ?_⟩
  · by_cases heq : c' = c
    · subst heq
      rw [show t.classes c' = _ from update_self ..]
      exact hblocks.release
    · rw [show t.classes c' = pool.classes c' from update_of_ne heq ..]
      have hother := h.blocks c'
      have hsize : (pool.clusters cluster).size ≠ c'.size := fun hsame =>
        heq (ClusterClass.size_injective (hsame.symm.trans hc))
      rwa [ofClass, hdedup, List.filter_cons_of_neg (by simpa using hsize)] at hother
  · have hne : cluster ≠ other := fun heq => hnot (heq ▸ hother)
    rw [h.counts other (List.mem_cons_of_mem _ hother), List.count_cons_of_ne hne]
  · have hsum : (∑ c', (t.classes c').free.length) + (pool.classes c).free.length =
        (∑ c', (pool.classes c').free.length) +
          ((pool.classes c).release (pool.clusters cluster).buffer).free.length := sum_update ..
    rw [hblocks.length_release] at hsum
    have hbalanced := h.balanced
    have hlength : t.cluster.free.length = pool.cluster.free.length + 1 :=
      hclusters.length_release
    have htotal : ∑ c', (t.classes c').free.length = (∑ c', (pool.classes c').free.length) + 1 := by
      omega
    rw [hlength, htotal, hbalanced]

/-- A request that fits a class with a block left takes a cluster that is not in use. -/
theorem Clustered.clusterAlloc (h : pool.Clustered refs)
    (hfitting : ClusterClass.fitting size = some c) (hfree : (pool.classes c).free ≠ []) :
    ∃ t cluster, pool.clusterAlloc size = .ok (t, some cluster) ∧ cluster ∉ refs ∧
      t.pkbuf = pool.pkbuf ∧ t.pkbufs = pool.pkbufs ∧
      pool.Framed refs (t.ref cluster) ∧ (t.ref cluster).Clustered (cluster :: refs) := by
  obtain ⟨block, blocks, hblock, hblockFree⟩ := OgsPool.alloc_of_ne_nil hfree
  have hclusterFree : pool.cluster.free ≠ [] := by
    intro hnil
    have hzero := h.balanced
    rw [hnil, List.length_nil, eq_comm, Finset.sum_eq_zero_iff] at hzero
    exact hfree (List.length_eq_zero_iff.mp (hzero c (Finset.mem_univ c)))
  obtain ⟨cluster, clusters, hcluster, hclustersFree⟩ := OgsPool.alloc_of_ne_nil hclusterFree
  obtain ⟨hclusters, hfresh⟩ := h.clusters.alloc (congrArg Prod.fst hcluster)
  obtain ⟨hblocks, -⟩ := (h.blocks c).alloc (congrArg Prod.fst hblock)
  rw [hcluster] at hclusters
  rw [hblock] at hblocks
  have hnot : cluster ∉ refs := fun hmem => hfresh (List.mem_dedup.mpr hmem)
  have hdedup : (cluster :: refs).dedup = cluster :: refs.dedup := List.dedup_cons_of_notMem hnot
  let t : PkbufPool := { pool with
    cluster := { pool.cluster with free := clusters }
    classes := update pool.classes c { pool.classes c with free := blocks }
    clusters := update (update pool.clusters cluster {}) cluster
      { buffer := block, size := c.size } }
  have halloc : pool.clusterAlloc size = .ok (t, some cluster) := by
    simp only [PkbufPool.clusterAlloc, hcluster, hfitting, hblock]
    rfl
  have hnew : (t.ref cluster).clusters cluster = ⟨block, c.size, 1⟩ := by
    simp [PkbufPool.ref, t]
  have hsame {other : Nat} (hne : other ≠ cluster) :
      (t.ref cluster).clusters other = pool.clusters other := by
    simp [PkbufPool.ref, t, hne]
  have hne {other : Nat} (hother : other ∈ refs) : other ≠ cluster := fun heq => hnot (heq ▸ hother)
  have hclass (c' : ClusterClass) : (t.ref cluster).ofClass (cluster :: refs) c' =
      if c.size = c'.size then cluster :: pool.ofClass refs c' else pool.ofClass refs c' := by
    have hold : (t.ref cluster).ofClass refs c' = pool.ofClass refs c' :=
      ofClass_congr (fun other hother => by rw [hsame (hne hother)]) c'
    rw [← hold]
    simp only [ofClass, hdedup, List.filter_cons, hnew, decide_eq_true_eq]
  have hbuffers (c' : ClusterClass) :
      ((pool.ofClass refs c').map fun other => ((t.ref cluster).clusters other).buffer) =
        (pool.ofClass refs c').map fun other => (pool.clusters other).buffer := by
    refine List.map_congr_left fun other hother => ?_
    rw [hsame (hne (mem_ofClass.mp hother).1)]
  have hframed : pool.Framed refs (t.ref cluster) := by
    refine ⟨rfl, fun c' => ?_, fun other hother => by rw [hsame (hne hother)],
      fun other hother => by rw [hsame (hne hother)]⟩
    by_cases heq : c' = c
    · rw [heq, show (t.ref cluster).classes c = _ from update_self ..]
    · rw [show (t.ref cluster).classes c' = pool.classes c' from update_of_ne heq ..]
  refine ⟨t, cluster, halloc, hnot, rfl, rfl, hframed, ?_, fun c' => ?_, fun other hother => ?_,
    fun other hother => ?_, ?_⟩
  · rw [hdedup]
    exact hclusters
  · rw [hclass]
    by_cases heq : c' = c
    · subst heq
      rw [if_pos rfl, List.map_cons, hbuffers, hnew]
      rw [show (t.ref cluster).classes c' = _ from update_self ..]
      exact hblocks
    · rw [if_neg fun hsize => heq (ClusterClass.size_injective hsize.symm), hbuffers]
      rw [show (t.ref cluster).classes c' = pool.classes c' from update_of_ne heq ..]
      exact h.blocks c'
  · rcases List.mem_cons.mp hother with rfl | hother
    · exact ⟨c, by rw [hnew]⟩
    · rw [hsame (hne hother)]
      exact h.sized other hother
  · rcases List.mem_cons.mp hother with rfl | hother
    · rw [hnew, List.count_cons_self, List.count_eq_zero_of_not_mem hnot]
    · rw [hsame (hne hother), List.count_cons_of_ne (hne hother).symm]
      exact h.counts other hother
  · have hsum : (∑ c', ((t.ref cluster).classes c').free.length) +
        (pool.classes c).free.length = (∑ c', (pool.classes c').free.length) + blocks.length :=
      sum_update ..
    have hbalanced := h.balanced
    rw [hclustersFree, List.length_cons] at hbalanced
    rw [hblockFree, List.length_cons] at hsum
    change clusters.length = _
    omega

/-- A request that comes back has taken a cluster, and a block where it fits a class. -/
theorem clusterAlloc_eq_ok {taken : Option Nat} (h : pool.clusterAlloc size = .ok (t, taken)) :
    t.cluster.free.length < pool.cluster.free.length ∧ t.pkbuf = pool.pkbuf ∧
      (taken ≠ none → ∃ c, ClusterClass.fitting size = some c ∧ (pool.classes c).free ≠ []) := by
  by_cases hclusters : pool.cluster.free = []
  · simp [PkbufPool.clusterAlloc, OgsPool.alloc, hclusters] at h
  obtain ⟨cluster, rest, htake, hfree⟩ := OgsPool.alloc_of_ne_nil hclusters
  have hshrinks : rest.length < pool.cluster.free.length := hfree ▸ Nat.lt_succ_self _
  rw [PkbufPool.clusterAlloc, htake] at h
  cases hfitting : ClusterClass.fitting size with
  | none =>
    rw [hfitting] at h
    cases h
  | some c =>
    rw [hfitting] at h
    by_cases hblocks : (pool.classes c).free = []
    · simp only [OgsPool.alloc, hblocks] at h
      obtain ⟨rfl, rfl⟩ := Prod.mk.inj (Except.ok.inj h)
      exact ⟨hshrinks, rfl, fun hsome => absurd rfl hsome⟩
    · obtain ⟨block, blocks, hblock, -⟩ := OgsPool.alloc_of_ne_nil hblocks
      simp only [hblock] at h
      obtain ⟨rfl, rfl⟩ := Prod.mk.inj (Except.ok.inj h)
      exact ⟨hshrinks, rfl, fun _ => ⟨c, rfl, hblocks⟩⟩

/-- A request that is not served keeps the cluster it has taken. -/
theorem alloc_eq_ok {returned : Option Nat} (h : pool.alloc size = .ok (t, returned)) :
    (returned = none → t.cluster ≠ pool.cluster) ∧
      (returned ≠ none → (∃ c, ClusterClass.fitting size = some c ∧ (pool.classes c).free ≠ []) ∧
        pool.pkbuf.free ≠ []) := by
  rw [PkbufPool.alloc] at h
  rcases halloc : pool.clusterAlloc size with fault | ⟨behind, _ | cluster⟩
  · rw [halloc] at h
    cases h
  · obtain ⟨hshrinks, -, -⟩ := clusterAlloc_eq_ok halloc
    rw [halloc] at h
    obtain ⟨rfl, rfl⟩ := Prod.mk.inj (Except.ok.inj h)
    exact ⟨fun _ hsame => absurd (hsame ▸ hshrinks) (Nat.lt_irrefl _),
      fun hsome => absurd rfl hsome⟩
  · obtain ⟨hshrinks, hpkbuf, hfits⟩ := clusterAlloc_eq_ok halloc
    rw [halloc] at h
    by_cases hpkbufs : pool.pkbuf.free = []
    · simp only [OgsPool.alloc, hpkbuf, hpkbufs] at h
      obtain ⟨rfl, rfl⟩ := Prod.mk.inj (Except.ok.inj h)
      exact ⟨fun _ hsame => absurd (hsame ▸ hshrinks) (Nat.lt_irrefl _),
        fun hsome => absurd rfl hsome⟩
    · obtain ⟨pkbuf, rest, htake, -⟩ := OgsPool.alloc_of_ne_nil hpkbufs
      simp only [hpkbuf, htake] at h
      obtain ⟨-, rfl⟩ := Prod.mk.inj (Except.ok.inj h)
      exact ⟨fun hnone => absurd hnone (Option.some_ne_none _),
        fun _ => ⟨hfits (Option.some_ne_none _), hpkbufs⟩⟩

end PkbufPool

/-! ## Calls -/

inductive PkbufCall
  | alloc (size : Nat)
  | copy (pkbuf : Nat)
  | free (pkbuf : Nat)
  deriving DecidableEq

/-- The pools, the buffers that the callers hold, and what the last call returned. -/
structure PkbufHistory where
  pool : PkbufPool
  live : List Nat := []
  returned : Option Nat := none

namespace PkbufHistory

variable (s : PkbufHistory)

/-- Callers copy and free what they hold. -/
def Valid : PkbufCall → Prop
  | .alloc _ => True
  | .copy pkbuf => pkbuf ∈ s.live
  | .free pkbuf => pkbuf ∈ s.live

def next : PkbufCall → Except Fault PkbufHistory
  | .alloc size => (s.pool.alloc size).map fun (pool, returned) =>
      { pool, live := returned.toList ++ s.live, returned }
  | .copy pkbuf =>
    let (pool, returned) := s.pool.copy pkbuf
    .ok { pool, live := returned.toList ++ s.live, returned }
  | .free pkbuf => (s.pool.free pkbuf).map fun pool =>
      { pool, live := s.live.erase pkbuf, returned := none }

/-- Runs of calls from a new pool on. A call whose assertion fails ends the run. -/
def system : System (Except Fault PkbufHistory) PkbufCall where
  init s := ∃ config, s = .ok { pool := .create config }
  step s call t := ∃ before, s = .ok before ∧ before.Valid call ∧ t = before.next call

/-- The references that the live buffers have to clusters. -/
def references : List Nat := s.live.map fun pkbuf => (s.pool.pkbufs pkbuf).cluster

/-- The distinct clusters of a class that live buffers refer to. -/
def clustersOf (c : ClusterClass) : List Nat := s.pool.ofClass s.references c

/-- A call frees the last reference to a cluster. -/
def LastFreed (call : PkbufCall) (cluster : Nat) : Prop :=
  ∃ pkbuf, call = .free pkbuf ∧ pkbuf ∈ s.live ∧ (s.pool.pkbufs pkbuf).cluster = cluster ∧
    ∀ other ∈ s.live, (s.pool.pkbufs other).cluster = cluster → other = pkbuf

/-- What is demanded of a call that returns. -/
structure Keeps (call : PkbufCall) (t : PkbufHistory) : Prop where
  counted : ∀ c, (t.pool.classes c).size - (t.pool.classes c).free.length =
    (t.clustersOf c).length
  released : ∀ cluster ∈ s.references, cluster ∈ t.pool.cluster.free ↔ s.LastFreed call cluster
  blockReleased : ∀ c, ∀ cluster ∈ s.clustersOf c,
    (s.pool.clusters cluster).buffer ∈ (t.pool.classes c).free ↔ s.LastFreed call cluster
  unchanged : (∀ pkbuf, call ≠ .free pkbuf) → t.returned = none →
    t.pool.pkbuf = s.pool.pkbuf ∧ t.pool.cluster = s.pool.cluster ∧ t.pool.classes = s.pool.classes

/-- A call returns and keeps the pools in order. -/
def Sound (s : Except Fault PkbufHistory) (call : PkbufCall) (t : Except Fault PkbufHistory) :
    Prop :=
  ∃ before after, s = .ok before ∧ t = .ok after ∧ before.Keeps call after

/-- A request fits a class that has a block left, and there is a buffer left. -/
def Serves (s : Except Fault PkbufHistory) (call : PkbufCall) : Prop :=
  ∀ before size, s = .ok before → call = .alloc size →
    (∃ c, ClusterClass.fitting size = some c ∧ (before.pool.classes c).free ≠ []) ∧
    before.pool.pkbuf.free ≠ []

/-! ## Runs -/

variable {s t : PkbufHistory} {call : PkbufCall} {pkbuf cluster : Nat}

structure Kept (s : PkbufHistory) : Prop where
  pkbufs : s.pool.pkbuf.Holds s.live
  clustered : s.pool.Clustered s.references

/-- What the pools count is what the live buffers refer to. -/
theorem Kept.counted (h : s.Kept) (c : ClusterClass) :
    (s.pool.classes c).size - (s.pool.classes c).free.length = (s.clustersOf c).length := by
  have hlen := (h.clustered.blocks c).length_eq
  rw [List.length_append, List.length_map, List.length_range] at hlen
  rw [clustersOf]
  omega

theorem mem_references : cluster ∈ s.references ↔
    ∃ pkbuf ∈ s.live, (s.pool.pkbufs pkbuf).cluster = cluster :=
  List.mem_map

/-- A cluster is free where nothing refers to it any more, and so is its block. -/
theorem Kept.free_iff (h : s.Kept) (ht : t.Kept) (hframed : s.pool.Framed s.references t.pool)
    (hsub : ∀ cluster ∈ s.references, cluster ∉ t.references → t.references ⊆ s.references)
    (hmem : cluster ∈ s.references) :
    (cluster ∈ t.pool.cluster.free ↔ cluster ∉ t.references) ∧
    ∀ c, cluster ∈ s.clustersOf c →
      ((s.pool.clusters cluster).buffer ∈ (t.pool.classes c).free ↔ cluster ∉ t.references) := by
  have hlt := h.clustered.clusters.lt_size (List.mem_dedup.mpr hmem)
  refine ⟨?_, fun c hclass => ?_⟩
  · rw [ht.clustered.clusters.mem_free_iff (hframed.cluster ▸ hlt), List.mem_dedup]
  · have hblock : (s.pool.clusters cluster).buffer < (t.pool.classes c).size := by
      rw [hframed.classes]
      exact (h.clustered.blocks c).lt_size (List.mem_map_of_mem hclass)
    rw [(ht.clustered.blocks c).mem_free_iff hblock, not_iff_not]
    constructor
    · intro hused
      by_contra hgone
      obtain ⟨other, hother, hbuffer⟩ := List.mem_map.mp hused
      obtain ⟨hotherRef, hotherSize⟩ := PkbufPool.mem_ofClass.mp hother
      have hotherMem := hsub cluster hmem hgone hotherRef
      rw [hframed.sizes other hotherMem] at hotherSize
      rw [hframed.buffers other hotherMem] at hbuffer
      have hnodup := List.Nodup.of_append_right (h.clustered.blocks c).nodup
      have heq := List.inj_on_of_nodup_map hnodup
        (PkbufPool.mem_ofClass.mpr ⟨hotherMem, hotherSize⟩) hclass hbuffer
      exact hgone (heq ▸ hotherRef)
    · intro hstays
      rw [← hframed.buffers cluster hmem]
      refine List.mem_map_of_mem (PkbufPool.mem_ofClass.mpr ⟨hstays, ?_⟩)
      rw [hframed.sizes cluster hmem]
      exact (PkbufPool.mem_ofClass.mp hclass).2

/-- What a call keeps, by what it does to the references. -/
theorem Kept.keeps (h : s.Kept) (ht : t.Kept) (hframed : s.pool.Framed s.references t.pool)
    (hlast : ∀ cluster ∈ s.references, cluster ∉ t.references ↔ s.LastFreed call cluster)
    (hsub : (∃ pkbuf, call = .free pkbuf) → t.references ⊆ s.references)
    (hunchanged : (∀ pkbuf, call ≠ .free pkbuf) → t.returned = none →
      t.pool.pkbuf = s.pool.pkbuf ∧ t.pool.cluster = s.pool.cluster ∧
        t.pool.classes = s.pool.classes) : s.Keeps call t := by
  have hshrinks (cluster : Nat) (hmem : cluster ∈ s.references) (hgone : cluster ∉ t.references) :
      t.references ⊆ s.references := by
    obtain ⟨pkbuf, hcall, -⟩ := (hlast cluster hmem).mp hgone
    exact hsub ⟨pkbuf, hcall⟩
  refine ⟨ht.counted, fun cluster hmem => ?_, fun c cluster hclass => ?_, hunchanged⟩
  · rw [(h.free_iff ht hframed hshrinks hmem).1, hlast cluster hmem]
  · have hmem := (PkbufPool.mem_ofClass.mp hclass).1
    rw [(h.free_iff ht hframed hshrinks hmem).2 c hclass, hlast cluster hmem]

/-- A call that is no release frees no reference. -/
theorem not_lastFreed (hcall : ∀ pkbuf, call ≠ .free pkbuf) (cluster : Nat) :
    ¬ s.LastFreed call cluster :=
  fun hlast => hlast.elim fun pkbuf hfreed => hcall pkbuf hfreed.1

/-- The references of the buffers held so far stay when another slot is written. -/
theorem references_update (hnot : pkbuf ∉ s.live) (entry : OgsPkbuf) :
    (s.live.map fun other => (update s.pool.pkbufs pkbuf entry other).cluster) =
      s.references := by
  refine List.map_congr_left fun other hother => ?_
  have hne : other ≠ pkbuf := fun heq => hnot (heq ▸ hother)
  rw [update_of_ne hne]

/-- One buffer more on a cluster that has one reference more. -/
theorem Kept.hold (h : s.Kept) (hcall : ∀ other, call ≠ .free other) {rest : List Nat}
    {pool : PkbufPool} (entry : OgsPkbuf)
    (htake : s.pool.pkbuf.alloc = (some pkbuf, { s.pool.pkbuf with free := rest }))
    (hclustered : pool.Clustered (entry.cluster :: s.references))
    (hframed : s.pool.Framed s.references pool) {t : PkbufHistory} (ht : t = {
      pool := { pool with
        pkbuf := { s.pool.pkbuf with free := rest }
        pkbufs := update s.pool.pkbufs pkbuf entry }
      live := pkbuf :: s.live
      returned := some pkbuf }) : t.Kept ∧ s.Keeps call t := by
  subst ht
  obtain ⟨hholds, hfresh⟩ := h.pkbufs.alloc (congrArg Prod.fst htake)
  rw [htake] at hholds
  set t : PkbufHistory := {
    pool := { pool with
      pkbuf := { s.pool.pkbuf with free := rest }
      pkbufs := update s.pool.pkbufs pkbuf entry }
    live := pkbuf :: s.live
    returned := some pkbuf }
  have hrefs : t.references = entry.cluster :: s.references := by
    change (update s.pool.pkbufs pkbuf entry pkbuf).cluster ::
      s.live.map (fun other => (update s.pool.pkbufs pkbuf _ other).cluster) = _
    rw [update_self, references_update hfresh]
  have ht : t.Kept := by
    refine ⟨hholds, ?_⟩
    rw [hrefs]
    exact ⟨hclustered.clusters, hclustered.blocks, hclustered.sized, hclustered.counts,
      hclustered.balanced⟩
  refine ⟨ht, h.keeps ht ⟨hframed.cluster, hframed.classes, hframed.buffers, hframed.sizes⟩
    (fun other hother => ?_) (fun ⟨other, hfree⟩ => absurd hfree (hcall other))
      fun _ hnone => absurd hnone (Option.some_ne_none _)⟩
  refine iff_of_false ?_ (not_lastFreed hcall other)
  rw [hrefs, not_not]
  exact List.mem_cons_of_mem _ hother

/-- A request that is served. -/
theorem Kept.alloc (h : s.Kept) {size : Nat} {c : ClusterClass}
    (hfitting : ClusterClass.fitting size = some c) (hblocks : (s.pool.classes c).free ≠ [])
    (hpkbufs : s.pool.pkbuf.free ≠ []) :
    ∃ t, s.next (.alloc size) = .ok t ∧ t.Kept ∧ s.Keeps (.alloc size) t := by
  obtain ⟨pool, cluster, halloc, hnot, hpkbuf, hentries, hframed, hclustered⟩ :=
    h.clustered.clusterAlloc hfitting hblocks
  obtain ⟨pkbuf, rest, htake, -⟩ := OgsPool.alloc_of_ne_nil hpkbufs
  refine ⟨_, ?_, h.hold (fun _ => PkbufCall.noConfusion) { cluster, size } htake
    hclustered hframed rfl⟩
  simp only [next, PkbufPool.alloc, halloc, hpkbuf, htake, hentries, Except.map]
  rfl

/-- A copy, which fails where nothing is left of the pool or the buffer has no room. -/
theorem Kept.copy (h : s.Kept) (hlive : pkbuf ∈ s.live) :
    ∃ t, s.next (.copy pkbuf) = .ok t ∧ t.Kept ∧ s.Keeps (.copy pkbuf) t := by
  have hcall (other : Nat) : PkbufCall.copy pkbuf ≠ .free other := PkbufCall.noConfusion
  have hfails : ∀ t : PkbufHistory, t = { s with returned := none } →
      t.Kept ∧ s.Keeps (.copy pkbuf) t := by
    rintro t rfl
    have hkept : Kept { s with returned := none } := ⟨h.pkbufs, h.clustered⟩
    refine ⟨hkept, h.keeps hkept ⟨rfl, fun _ => rfl, fun _ _ => rfl, fun _ _ => rfl⟩
      (fun other hother => ?_) (fun ⟨other, hfree⟩ => absurd hfree (hcall other))
        fun _ _ => ⟨rfl, rfl, rfl⟩⟩
    exact iff_of_false (not_not.mpr hother) (not_lastFreed hcall other)
  by_cases hsize : (s.pool.pkbufs pkbuf).size = 0
  · refine ⟨_, ?_, hfails _ rfl⟩
    simp [next, PkbufPool.copy, hsize]
  by_cases hpkbufs : s.pool.pkbuf.free = []
  · refine ⟨_, ?_, hfails _ rfl⟩
    simp [next, PkbufPool.copy, hsize, OgsPool.alloc, hpkbufs]
  obtain ⟨newbuf, rest, htake, -⟩ := OgsPool.alloc_of_ne_nil hpkbufs
  have hcluster : (s.pool.pkbufs pkbuf).cluster ∈ s.references :=
    mem_references.mpr ⟨pkbuf, hlive, rfl⟩
  refine ⟨_, ?_, h.hold hcall _ htake (h.clustered.ref hcluster) (PkbufPool.framed_ref _) rfl⟩
  simp only [next, PkbufPool.copy, if_neg hsize, htake, update_self]
  rfl

/-- A buffer is freed, and its cluster where no other buffer refers to it. -/
theorem Kept.free (h : s.Kept) (hlive : pkbuf ∈ s.live) :
    ∃ t, s.next (.free pkbuf) = .ok t ∧ t.Kept ∧ s.Keeps (.free pkbuf) t := by
  let cluster := (s.pool.pkbufs pkbuf).cluster
  let rest := (s.live.erase pkbuf).map fun other => (s.pool.pkbufs other).cluster
  have hperm : s.references.Perm (cluster :: rest) := (List.perm_cons_erase hlive).map _
  have hholds := (h.pkbufs.perm (List.perm_cons_erase hlive)).release
  have hclustered := h.clustered.perm hperm
  have hcount : (s.pool.clusters cluster).referenceCount = rest.count cluster + 1 := by
    rw [hclustered.counts cluster (List.mem_cons_self ..), List.count_cons_self]
  have hlast (other : Nat) (hother : other ∈ s.references) :
      other ∉ rest ↔ s.LastFreed (.free pkbuf) other := by
    have hnodup : s.live.Nodup := List.Nodup.of_append_right h.pkbufs.nodup
    constructor
    · intro hgone
      have heq : other = cluster :=
        (List.mem_cons.mp (hperm.mem_iff.mp hother)).resolve_right hgone
      refine ⟨pkbuf, rfl, hlive, heq.symm, fun other' hother' hsame => ?_⟩
      by_contra hne
      exact hgone (List.mem_map.mpr ⟨other', (List.mem_erase_of_ne hne).mpr hother', hsame⟩)
    · rintro ⟨pkbuf', heq, -, rfl, honly⟩ hstays
      obtain rfl := PkbufCall.free.inj heq
      obtain ⟨other', hother', hsame⟩ := List.mem_map.mp hstays
      have hother'' := honly other' (List.mem_of_mem_erase hother') hsame
      exact hnodup.not_mem_erase (hother'' ▸ hother')
  have hfreed : ∃ pool, (if (s.pool.clusters cluster).referenceCount > 1
      then .ok (s.pool.unref cluster) else s.pool.clusterFree cluster) = Except.ok pool ∧
      pool.Clustered rest ∧ pool.pkbuf = s.pool.pkbuf ∧ pool.pkbufs = s.pool.pkbufs ∧
      s.pool.Framed s.references pool := by
    by_cases hmem : cluster ∈ rest
    · have hmany : (s.pool.clusters cluster).referenceCount > 1 := by
        rw [hcount]
        exact Nat.succ_lt_succ (List.count_pos_iff.mpr hmem)
      rw [if_pos hmany]
      exact ⟨_, rfl, hclustered.unref hmem, rfl, rfl, PkbufPool.framed_unref cluster⟩
    · have hone : ¬ (s.pool.clusters cluster).referenceCount > 1 := by
        rw [hcount, List.count_eq_zero_of_not_mem hmem]
        exact Nat.lt_irrefl 1
      rw [if_neg hone]
      obtain ⟨pool, hfree, hrest, hpkbuf, hentries, hframed⟩ := hclustered.clusterFree hmem
      have hsub : s.references ⊆ cluster :: rest := hperm.subset
      exact ⟨pool, hfree, hrest, hpkbuf, hentries, hframed.cluster, hframed.classes,
        fun other hother => hframed.buffers other (hsub hother),
        fun other hother => hframed.sizes other (hsub hother)⟩
  obtain ⟨pool, hfree, hrest, hpkbuf, hentries, hframed⟩ := hfreed
  let t : PkbufHistory := {
    pool := { pool with pkbuf := s.pool.pkbuf.release pkbuf }
    live := s.live.erase pkbuf
    returned := none }
  have hnext : s.next (.free pkbuf) = .ok t := by
    rw [next, PkbufPool.free, hfree]
    simp only [Except.map, hpkbuf]
    rfl
  have hrefs : t.references = rest := by
    change (s.live.erase pkbuf).map (fun other => (pool.pkbufs other).cluster) = rest
    rw [hentries]
  have ht : t.Kept := by
    refine ⟨hholds, ?_⟩
    rw [hrefs]
    exact ⟨hrest.clusters, hrest.blocks, hrest.sized, hrest.counts, hrest.balanced⟩
  refine ⟨t, hnext, ht, h.keeps ht ⟨hframed.cluster, hframed.classes, hframed.buffers,
    hframed.sizes⟩ (fun other hother => ?_) (fun _ => ?_) fun hcall => absurd rfl (hcall pkbuf)⟩
  · rw [hrefs]
    exact hlast other hother
  · rw [hrefs]
    exact fun other hother => hperm.mem_iff.mpr (List.mem_cons_of_mem _ hother)

theorem Kept.create (config : PkbufConfig) : Kept { pool := .create config } where
  pkbufs := OgsPool.init_holds _
  clustered :=
    { clusters := OgsPool.init_holds _
      blocks := fun c => OgsPool.init_holds _
      sized := List.forall_mem_nil _
      counts := List.forall_mem_nil _
      balanced := by simp [PkbufPool.create, OgsPool.init] }

/-- A call under the condition returns, and keeps the pools in order. -/
theorem Kept.next (h : s.Kept) (hvalid : s.Valid call) (hserves : Serves (.ok s) call) :
    ∃ t, s.next call = .ok t ∧ t.Kept ∧ s.Keeps call t := by
  cases call with
  | alloc size =>
    obtain ⟨⟨c, hfitting, hblocks⟩, hpkbufs⟩ := hserves s size rfl rfl
    exact h.alloc hfitting hblocks hpkbufs
  | copy pkbuf => exact h.copy hvalid
  | free pkbuf => exact h.free hvalid

theorem Kept.sound_iff (h : s.Kept) (hvalid : s.Valid call) :
    Sound (.ok s) call (s.next call) ↔ Serves (.ok s) call := by
  constructor
  · rintro ⟨before, after, hbefore, hafter, hkeeps⟩ before' size hbefore' rfl
    obtain rfl := Except.ok.inj hbefore
    obtain rfl := Except.ok.inj hbefore'
    obtain ⟨⟨pool, returned⟩, halloc, rfl⟩ := Fallible.map_eq_ok.mp hafter
    obtain ⟨hfails, hserved⟩ := PkbufPool.alloc_eq_ok halloc
    refine hserved fun hnone => hfails hnone ?_
    exact (hkeeps.unchanged (fun _ => PkbufCall.noConfusion) hnone).2.1
  · intro hserves
    obtain ⟨t, hnext, -, hkeeps⟩ := h.next hvalid hserves
    exact ⟨s, t, rfl, hnext, hkeeps⟩

theorem Kept.run {calls : List PkbufCall} {s : Except Fault PkbufHistory}
    (h : system.Run Serves calls s) : ∃ before, s = .ok before ∧ before.Kept := by
  apply h.invariant
  · rintro s ⟨config, rfl⟩
    exact ⟨_, rfl, .create config⟩
  · rintro s call t ⟨before, rfl, hkept⟩ hserves ⟨before', heq, hvalid, rfl⟩
    obtain rfl := Except.ok.inj heq
    obtain ⟨t, hnext, ht, -⟩ := hkept.next hvalid hserves
    exact ⟨t, hnext, ht⟩

/-- The runs that keep the pools in order are those in which every request is served. -/
theorem pools_kept_iff {calls : List PkbufCall} {s : Except Fault PkbufHistory} :
    system.StepsRun Sound calls s ↔ system.Run Serves calls s := by
  apply System.stepsRun_iff Kept.run
  rintro s call t ⟨before, rfl, hkept⟩ ⟨before', heq, hvalid, rfl⟩
  obtain rfl := Except.ok.inj heq
  exact hkept.sound_iff hvalid

/-- A block in each of two classes. -/
private def twoBlocks : PkbufConfig
  | .c128 => 1
  | .c256 => 1
  | _ => 0

/-- The second request for the smallest class fails, and a cluster is gone. -/
theorem cluster_lost : ¬ ∀ (calls : List PkbufCall) (s t : Except Fault PkbufHistory)
    (call : PkbufCall), system.Run System.unrestricted calls s → system.step s call t →
      Sound s call t := by
  intro h
  let start : PkbufHistory := { pool := .create twoBlocks }
  have hrun : system.Run System.unrestricted [.alloc 100] (start.next (.alloc 100)) :=
    .single ⟨twoBlocks, rfl⟩ trivial ⟨start, rfl, trivial, rfl⟩
  obtain ⟨before, after, hbefore, hafter, hkeeps⟩ :=
    h _ _ _ (.alloc 100) hrun ⟨_, rfl, trivial, rfl⟩
  obtain rfl := Except.ok.inj hbefore
  obtain rfl := Except.ok.inj hafter
  have hsame := hkeeps.unchanged (fun _ => PkbufCall.noConfusion) rfl
  exact absurd hsame.2.1 (by decide)

end PkbufHistory

end Quicup.Open5gs
