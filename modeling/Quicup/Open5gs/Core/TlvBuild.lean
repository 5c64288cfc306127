import Quicup.Core.Procedure
import Quicup.Open5gs.Core.PkbufPool
import Quicup.Open5gs.Core.TlvMsg

/-!
# Messages that are built

`ogs_tlv_build_msg` takes a node from a pool for each IE that is present and renders them into a
packet buffer. A build that fails gives nothing back.
-/

namespace Quicup.Open5gs

open Fallible Memory

/-! ## Nodes -/

/-- `ogs_tlv_t` with its slot in the pool, its value, and the nodes that are embedded in it. -/
inductive TlvNode
  | mk (slot : Nat) (mode : TlvMode) (type length inst : Nat) (value : Option (List UInt8))
    (embedded : List TlvNode)

/-- What `tlv_put_type`, `tlv_put_length` and `tlv_put_instance` write. -/
def TlvMode.put (mode : TlvMode) (type length inst : Nat) : List UInt8 :=
  octetsBE mode.typeSize type ++ (octetsBE mode.lengthSize length ++ octetsBE mode.instSize inst)

/-- `memcpy` from a pointer -/
def loadValue : Option (List UInt8) → Nat → Except Fault (List UInt8)
  | _, 0 => .ok []
  | none, _ + 1 => .error .nullDeref
  | some data, length + 1 => load .outOfBounds data 0 (length + 1)

mutual

/-- What a node adds in `ogs_tlv_calc_length`. -/
def TlvNode.octetCount : TlvNode → Nat
  | .mk _ mode _ length _ _ [] => mode.headerSize + length
  | .mk _ mode _ _ _ _ (node :: nodes) => mode.headerSize + octetCounts (node :: nodes)

def octetCounts : List TlvNode → Nat
  | [] => 0
  | node :: nodes => node.octetCount + octetCounts nodes

end

/-- `ogs_tlv_calc_length` -/
def ogsTlvCalcLength (nodes : List TlvNode) : Nat := octetCounts nodes % 2 ^ 32

mutual

def TlvNode.render : TlvNode → Except Fault (List UInt8)
  | .mk _ mode type length inst value [] => do
    let octets ← loadValue value length
    return mode.put type length inst ++ octets
  | .mk _ mode type _ inst _ (node :: nodes) => do
    let octets ← renderAll (node :: nodes)
    return mode.put type (ogsTlvCalcLength (node :: nodes)) inst ++ octets

def renderAll : List TlvNode → Except Fault (List UInt8)
  | [] => .ok []
  | node :: nodes => do
    let first ← node.render
    let rest ← renderAll nodes
    return first ++ rest

end

/-- `ogs_tlv_render`, which asserts that there is room. -/
def ogsTlvRender (nodes : List TlvNode) (length : Nat) : Except Fault (List UInt8) := do
  let octets ← renderAll nodes
  if length < octets.length then .error .assertion else return octets

mutual

def TlvNode.slots : TlvNode → List Nat
  | .mk slot _ _ _ _ _ embedded => slotsOf embedded ++ [slot]

/-- The slots in the order in which `ogs_tlv_free_all` gives them back. -/
def slotsOf : List TlvNode → List Nat
  | [] => []
  | node :: nodes => node.slots ++ slotsOf nodes

end

/-! ## IEs -/

/-- The entries of a descriptor with how often they may come: more often before an entry of the type
`OGS_TLV_MORE`. -/
def repeated : List TlvDesc → List (TlvDesc × Nat)
  | [] => []
  | [desc] => [(desc, 1)]
  | desc :: next :: rest =>
    if next.ctype = .more then (desc, next.length) :: repeated rest
    else (desc, 1) :: repeated (next :: rest)

/-- The IEs that are present, with the offsets of their structures. -/
def presentIes (msg : TlvMsg) : Nat → List (TlvDesc × Nat) → List (TlvDesc × Nat)
  | _, [] => []
  | offset, (desc, count) :: rest =>
    (((List.range count).map fun j => offset + desc.vsize * j).takeWhile
      fun place => (msg place).presence ≠ 0).map (desc, ·) ++
        presentIes msg (offset + desc.vsize * count) rest

/-- The length and the value of a leaf, unless it is refused. -/
def TlvDesc.leafValue (desc : TlvDesc) (v : TlvIe) : Option (Nat × Option (List UInt8)) :=
  match desc.ctype.format with
  | .integer width => some (width, some (octetsBE width v.number))
  | .fixedStr => some (desc.length, v.data)
  | .varStr => if v.len = 0 then none else some (v.len, v.data)
  | .null => some (0, none)
  | .unknown => none

/-- What is done with the pool of nodes, with nothing for `NULL` or 0. -/
abbrev TlvBuild : Type → Type := Procedure Unit OgsPool

/-- `ogs_tlv_get`, with the assertion behind it. -/
def ogsTlvGet : TlvBuild Nat := fun pool =>
  match pool.alloc with
  | (none, _) => .error .assertion
  | (some slot, rest) => .ok (.ok slot, rest)

/-- `tlv_add_leaf`, by `ogs_tlv_add` at the top and else by `ogs_tlv_embed`, which asserts nothing of
the value. -/
def tlvAddLeaf (top : Bool) (mode : TlvMode) (desc : TlvDesc) (v : TlvIe) : TlvBuild TlvNode :=
  match desc.leafValue v with
  | none => .refuse ()
  | some (length, value) => do
    let slot ← ogsTlvGet
    .assert (!top || length = 0 || value.isSome)
    return .mk slot (desc.ctype.mode mode) desc.type length desc.inst value []

/-- The loop over the IEs. -/
def addAll (add : TlvDesc → Nat → TlvBuild TlvNode) :
    List (TlvDesc × Nat) → TlvBuild (List TlvNode)
  | [] => pure []
  | (desc, offset) :: rest => do
    let node ← add desc offset
    let nodes ← addAll add rest
    return node :: nodes

/-- `tlv_add_compound`, with how many more levels the assertion on `depth` lets pass, and whether
there is no parent. The structures of a compound are behind its `presence`. -/
def tlvAddCompound (msg : TlvMsg) (mode : TlvMode) :
    Nat → Bool → List TlvDesc → Nat → TlvBuild (List TlvNode)
  | 0, _, _, _ => .fault .assertion
  | levels + 1, top, descs, offset =>
    addAll (fun desc place =>
      if desc.ctype = .compound then do
        let slot ← ogsTlvGet
        let embedded ← tlvAddCompound msg mode levels false desc.childDescs (place + 8)
        .check (!embedded.isEmpty) ()
        return .mk slot (desc.ctype.mode mode) desc.type 0 desc.inst none embedded
      else tlvAddLeaf top mode desc (msg place)) (presentIes msg offset (repeated descs))

/-! ## Messages -/

/-- The pools of nodes and of packet buffers. -/
structure BuildPools where
  tlv : OgsPool
  pkbuf : PkbufPool

/-- The nodes of a message. It has none if the descriptor has no children. -/
def tlvAddMsg (desc : TlvDesc) (msg : TlvMsg) (mode : TlvMode) : TlvBuild (List TlvNode) :=
  if desc.childDescs = [] then pure []
  else do
    let root ← tlvAddCompound msg mode 9 true desc.childDescs 0
    .check (!root.isEmpty) ()
    return root

/-- `ogs_tlv_build_msg`: a buffer and the octets that are put into it, or `NULL`. -/
def ogsTlvBuildMsg (desc : TlvDesc) (msg : TlvMsg) (mode : TlvMode) (pools : BuildPools) :
    Except Fault (BuildPools × Option (Nat × List UInt8)) :=
  if desc.ctype ≠ .message then .error .assertion
  else do
    match ← tlvAddMsg desc msg mode pools.tlv with
    | (.error (), tlv) => return (⟨tlv, pools.pkbuf⟩, none)
    | (.ok root, tlv) =>
      let length := ogsTlvCalcLength root
      -- `OGS_TLV_MAX_HEADROOM`
      let (pkbuf, buffer) ← pools.pkbuf.alloc ((16 + length) % 2 ^ 32)
      match buffer with
      | none => return (⟨tlv, pkbuf⟩, none)
      | some buffer =>
        -- `ogs_pkbuf_put`
        if 2 ^ 32 ≤ 16 + length then .error .assertion
        else do
          let octets ← ogsTlvRender root length
          if octets.length ≠ length then return (⟨tlv, pkbuf⟩, none)
          else return (⟨(slotsOf root).foldl .release tlv, pkbuf⟩, some (buffer, octets))

/-! ## What a message asks for -/

/-- An IE asks for a node that adds so many octets, or is refused, or fails an assertion. -/
inductive TlvAsk
  | node (octets : Nat)
  | refused
  | broken
  deriving DecidableEq

/-- With so many free nodes: how many are taken, and whether all that is asked for is granted, unless
an assertion fails. -/
def grant : List TlvAsk → Nat → Option (Nat × Bool)
  | [], _ => some (0, true)
  | .node _ :: _, 0 => none
  | .node _ :: asks, free + 1 => (grant asks free).map fun (taken, all) => (taken + 1, all)
  | .refused :: _, _ => some (0, false)
  | .broken :: _, _ => none

/-- The octets that the nodes add. -/
def askedOctets (asks : List TlvAsk) : Nat :=
  (asks.map fun | .node octets => octets | _ => 0).sum

def leafAsks (top : Bool) (mode : TlvMode) (desc : TlvDesc) (v : TlvIe) : List TlvAsk :=
  match desc.leafValue v with
  | none => [.refused]
  | some (length, value) => .node ((desc.ctype.mode mode).headerSize + length) ::
      if !top || length = 0 || value.isSome then [] else [.broken]

/-- A list of IEs that must not be empty. -/
def refusedIfEmpty (ies : List (TlvDesc × Nat)) : List TlvAsk := if ies = [] then [.refused] else []

def compoundAsks (msg : TlvMsg) (mode : TlvMode) : Nat → Bool → List TlvDesc → Nat → List TlvAsk
  | 0, _, _, _ => [.broken]
  | levels + 1, top, descs, offset =>
    (presentIes msg offset (repeated descs)).flatMap fun (desc, place) =>
      if desc.ctype = .compound then
        .node (desc.ctype.mode mode).headerSize ::
          (compoundAsks msg mode levels false desc.childDescs (place + 8) ++
            refusedIfEmpty (presentIes msg (place + 8) (repeated desc.childDescs)))
      else leafAsks top mode desc (msg place)

def msgAsks (desc : TlvDesc) (msg : TlvMsg) (mode : TlvMode) : List TlvAsk :=
  if desc.childDescs = [] then []
  else compoundAsks msg mode 9 true desc.childDescs 0 ++
    refusedIfEmpty (presentIes msg 0 (repeated desc.childDescs))

/-! ## What is taken from the pool -/

/-- A part of the build takes what is asked for from the front of the free nodes, and what it returns
satisfies `Q`. -/
def Meets {α : Type} (x : TlvBuild α) (asks : List TlvAsk) (Q : α → Prop) : Prop :=
  ∀ pool : OgsPool,
    match grant asks pool.free.length with
    | none => ∃ fault, x pool = .error fault
    | some (taken, false) => x pool = .ok (.error (), { pool with free := pool.free.drop taken })
    | some (taken, true) =>
      ∃ a, Q a ∧ x pool = .ok (.ok a, { pool with free := pool.free.drop taken })

theorem grant_append (xs ys : List TlvAsk) (free : Nat) :
    grant (xs ++ ys) free = match grant xs free with
      | some (taken, true) => (grant ys (free - taken)).map fun (more, all) => (taken + more, all)
      | result => result := by
  induction xs generalizing free with
  | nil => simp [grant]
  | cons ask xs ih =>
    cases ask with
    | refused | broken => rfl
    | node octets =>
      cases free with
      | zero => rfl
      | succ free =>
        rw [List.cons_append, grant, grant, ih]
        rcases grant xs free with _ | ⟨taken, _ | _⟩
        · rfl
        · rfl
        · simp only [Option.map_some, Nat.add_sub_add_right, Option.map_map]
          congr 1
          funext more
          simp [Nat.add_right_comm]

namespace Meets

variable {α β : Type} {x : TlvBuild α} {f : α → TlvBuild β} {xs ys : List TlvAsk} {P : α → Prop}
variable {Q : β → Prop}

theorem pure {a : α} (h : P a) : Meets (Pure.pure a) [] P := fun _ => ⟨a, h, rfl⟩

theorem refuse : Meets (.refuse () : TlvBuild α) [.refused] P := fun _ => rfl

theorem fault (fault : Fault) : Meets (.fault fault : TlvBuild α) [.broken] P := fun _ => ⟨fault, rfl⟩

theorem bind (hx : Meets x xs P) (hf : ∀ a, P a → Meets (f a) ys Q) : Meets (x >>= f) (xs ++ ys) Q := by
  intro pool
  have hfirst := hx pool
  rw [grant_append]
  rcases hgrant : grant xs pool.free.length with _ | ⟨taken, _ | _⟩
  · rw [hgrant] at hfirst
    obtain ⟨fault, hrun⟩ := hfirst
    exact ⟨fault, by change Procedure.andThen x f pool = _; rw [Procedure.andThen, hrun]⟩
  · rw [hgrant] at hfirst
    change Procedure.andThen x f pool = _
    rw [Procedure.andThen, hfirst]
  · rw [hgrant] at hfirst
    obtain ⟨a, ha, hrun⟩ := hfirst
    have hsecond := hf a ha { pool with free := pool.free.drop taken }
    rw [List.length_drop] at hsecond
    rw [Procedure.bind_run hrun]
    dsimp only at hsecond ⊢
    rcases hrest : grant ys (pool.free.length - taken) with _ | ⟨more, _ | _⟩
    · rw [hrest] at hsecond
      exact hsecond
    · rw [hrest] at hsecond
      simpa [List.drop_drop] using hsecond
    · rw [hrest] at hsecond
      simpa [List.drop_drop] using hsecond

/-- A part behind which nothing is asked for. -/
theorem bind_pure {g : α → β} (hx : Meets x xs P) (hg : ∀ a, P a → Q (g a)) :
    Meets (do let a ← x; return g a) xs Q := by
  have h : Meets (do let a ← x; return g a) (xs ++ []) Q := hx.bind fun a ha => .pure (hg a ha)
  rwa [List.append_nil] at h

end Meets

theorem ogsTlvGet_meets (octets : Nat) : Meets ogsTlvGet [.node octets] fun _ => True := by
  intro pool
  obtain ⟨size, free⟩ := pool
  cases free with
  | nil => exact ⟨.assertion, rfl⟩
  | cons slot free => exact ⟨slot, trivial, rfl⟩

theorem assert_meets (p : Bool) :
    Meets (.assert p : TlvBuild Unit) (if p then [] else [.broken]) fun _ => True := by
  cases p with
  | true => exact .pure trivial
  | false => exact .fault .assertion

theorem check_meets {p : Bool} {Q : Prop} [Decidable Q] (h : p = true ↔ ¬Q) :
    Meets (.check p () : TlvBuild Unit) (if Q then [.refused] else []) fun _ => True := by
  cases p with
  | true =>
    rw [if_neg (h.mp rfl)]
    exact .pure trivial
  | false =>
    rw [if_pos (by simpa using h)]
    exact .refuse

theorem askedOctets_append (xs ys : List TlvAsk) :
    askedOctets (xs ++ ys) = askedOctets xs + askedOctets ys := by
  simp [askedOctets]

theorem askedOctets_refusedIfEmpty (ies : List (TlvDesc × Nat)) :
    askedOctets (refusedIfEmpty ies) = 0 := by
  unfold refusedIfEmpty
  split_ifs <;> rfl

theorem octetCount_compound (slot type inst : Nat) (mode : TlvMode) (embedded : List TlvNode) :
    (TlvNode.mk slot mode type 0 inst none embedded).octetCount =
      mode.headerSize + octetCounts embedded := by
  cases embedded with
  | nil => rfl
  | cons node nodes => rw [TlvNode.octetCount]

theorem tlvAddLeaf_meets (top : Bool) (mode : TlvMode) (desc : TlvDesc) (v : TlvIe) :
    Meets (tlvAddLeaf top mode desc v) (leafAsks top mode desc v)
      fun node => node.octetCount = askedOctets (leafAsks top mode desc v) := by
  unfold tlvAddLeaf leafAsks
  cases desc.leafValue v with
  | none => exact .refuse
  | some leaf =>
    obtain ⟨length, value⟩ := leaf
    have hcount : askedOctets (.node ((desc.ctype.mode mode).headerSize + length) ::
        if !top || length = 0 || value.isSome then [] else [.broken]) =
          (desc.ctype.mode mode).headerSize + length := by
      split_ifs <;> rfl
    refine (ogsTlvGet_meets _).bind fun slot _ => (assert_meets _).bind_pure fun _ _ => ?_
    rw [hcount, TlvNode.octetCount]

/-- The IEs of a list, one after the other. -/
theorem addAll_meets {add : TlvDesc → Nat → TlvBuild TlvNode}
    (asks : TlvDesc → Nat → List TlvAsk)
    (h : ∀ desc place, Meets (add desc place) (asks desc place)
      fun node => node.octetCount = askedOctets (asks desc place)) (ies : List (TlvDesc × Nat)) :
    Meets (addAll add ies) (ies.flatMap fun (desc, place) => asks desc place) fun nodes =>
      octetCounts nodes = askedOctets (ies.flatMap fun (desc, place) => asks desc place) ∧
        (nodes = [] ↔ ies = []) := by
  induction ies with
  | nil => exact .pure (by simp [octetCounts, askedOctets])
  | cons ie ies ih =>
    obtain ⟨desc, place⟩ := ie
    rw [List.flatMap_cons]
    refine (h desc place).bind fun node hnode => ih.bind_pure fun nodes hnodes => ?_
    rw [octetCounts, hnode, hnodes.1, askedOctets_append]
    simp

theorem tlvAddCompound_meets (msg : TlvMsg) (mode : TlvMode) (levels : Nat) (top : Bool)
    (descs : List TlvDesc) (offset : Nat) :
    Meets (tlvAddCompound msg mode levels top descs offset)
      (compoundAsks msg mode levels top descs offset) fun nodes =>
        octetCounts nodes = askedOctets (compoundAsks msg mode levels top descs offset) ∧
          (nodes = [] ↔ presentIes msg offset (repeated descs) = []) := by
  induction levels generalizing top descs offset with
  | zero => exact .fault .assertion
  | succ levels ih =>
    refine addAll_meets (fun desc place => if desc.ctype = .compound then
      .node (desc.ctype.mode mode).headerSize ::
        (compoundAsks msg mode levels false desc.childDescs (place + 8) ++
          refusedIfEmpty (presentIes msg (place + 8) (repeated desc.childDescs)))
      else leafAsks top mode desc (msg place)) (fun desc place => ?_) _
    by_cases hcompound : desc.ctype = .compound
    · simp only [if_pos hcompound]
      refine (ogsTlvGet_meets (desc.ctype.mode mode).headerSize).bind fun slot _ => ?_
      refine (ih false desc.childDescs (place + 8)).bind fun embedded hembedded => ?_
      refine (check_meets (Q := presentIes msg (place + 8) (repeated desc.childDescs) = [])
        ?_).bind_pure fun _ _ => ?_
      · rw [← hembedded.2]
        simp
      · rw [octetCount_compound, hembedded.1]
        change _ = _ + askedOctets (_ ++ refusedIfEmpty _)
        rw [askedOctets_append, askedOctets_refusedIfEmpty]
        rfl
    · simp only [if_neg hcompound]
      exact tlvAddLeaf_meets top mode desc (msg place)

theorem tlvAddMsg_meets (desc : TlvDesc) (msg : TlvMsg) (mode : TlvMode) :
    Meets (tlvAddMsg desc msg mode) (msgAsks desc msg mode)
      fun root => octetCounts root = askedOctets (msgAsks desc msg mode) := by
  unfold tlvAddMsg msgAsks
  split_ifs with hdescs
  · exact .pure rfl
  · refine (tlvAddCompound_meets msg mode 9 true desc.childDescs 0).bind fun root hroot => ?_
    refine (check_meets (Q := presentIes msg 0 (repeated desc.childDescs) = []) ?_).bind_pure
      fun _ _ => ?_
    · rw [← hroot.2]
      simp
    · rw [hroot.1, askedOctets_append, askedOctets_refusedIfEmpty]
      rfl

/-! ## Rendering -/

theorem length_loadValue {value : Option (List UInt8)} {length : Nat} {octets : List UInt8}
    (h : loadValue value length = .ok octets) : octets.length = length := by
  cases length with
  | zero =>
    cases h
    rfl
  | succ length =>
    cases value with
    | none => cases h
    | some data =>
      change load Fault.outOfBounds data 0 (length + 1) = _ at h
      unfold load at h
      split_ifs at h with hlength
      cases h
      rw [List.length_take, List.length_drop]
      omega

theorem length_put (mode : TlvMode) (type length inst : Nat) :
    (mode.put type length inst).length = mode.headerSize := by
  simp [TlvMode.put, TlvMode.headerSize, Nat.add_assoc]

mutual

theorem TlvNode.length_render {node : TlvNode} {octets : List UInt8} (h : node.render = .ok octets) :
    octets.length = node.octetCount := by
  match node with
  | .mk slot mode type length inst value [] =>
    rw [TlvNode.render] at h
    obtain ⟨xs, hxs, h⟩ := bind_eq_ok.mp h
    cases h
    rw [List.length_append, length_put, length_loadValue hxs, TlvNode.octetCount]
  | .mk slot mode type length inst value (node :: nodes) =>
    rw [TlvNode.render] at h
    obtain ⟨xs, hxs, h⟩ := bind_eq_ok.mp h
    cases h
    rw [List.length_append, length_put, length_renderAll hxs, TlvNode.octetCount]

theorem length_renderAll {nodes : List TlvNode} {octets : List UInt8}
    (h : renderAll nodes = .ok octets) : octets.length = octetCounts nodes := by
  match nodes with
  | [] =>
    cases h
    rfl
  | node :: nodes =>
    rw [renderAll] at h
    obtain ⟨xs, hxs, h⟩ := bind_eq_ok.mp h
    obtain ⟨ys, hys, h⟩ := bind_eq_ok.mp h
    cases h
    rw [List.length_append, TlvNode.length_render hxs, length_renderAll hys, octetCounts]

end

/-- What is rendered is as long as was counted. -/
theorem length_ogsTlvRender {nodes : List TlvNode} {octets : List UInt8}
    (h : ogsTlvRender nodes (ogsTlvCalcLength nodes) = .ok octets) :
    octets.length = ogsTlvCalcLength nodes := by
  obtain ⟨rendered, hrendered, h⟩ := bind_eq_ok.mp h
  split_ifs at h with hroom
  cases h
  have hlength := length_renderAll hrendered
  have hle : ogsTlvCalcLength nodes ≤ octetCounts nodes := Nat.mod_le ..
  omega

/-! ## Failed builds -/

/-- No block is left for a request, or no buffer, but the cluster that is taken first. -/
def PkbufPool.Unserved (pool : PkbufPool) (size : Nat) : Prop :=
  pool.cluster.free ≠ [] ∧ ∃ c, ClusterClass.fitting size = some c ∧
    ((pool.classes c).free = [] ∨ pool.pkbuf.free = [])

theorem PkbufPool.alloc_none_iff {pool : PkbufPool} {size : Nat} :
    (∃ t, pool.alloc size = .ok (t, none)) ↔ pool.Unserved size := by
  unfold PkbufPool.Unserved PkbufPool.alloc PkbufPool.clusterAlloc OgsPool.alloc
  rcases pool.cluster.free with _ | ⟨cluster, clusters⟩
  · simp
  rcases ClusterClass.fitting size with _ | c
  · simp
  rcases hblocks : (pool.classes c).free with _ | ⟨block, blocks⟩
  · simp [hblocks]
  rcases hpkbufs : pool.pkbuf.free with _ | ⟨pkbuf, pkbufs⟩
  · simp [hblocks, hpkbufs]
  · simp [hblocks, hpkbufs]

/-- A request that is not served keeps a cluster. -/
theorem PkbufPool.alloc_none_lt {pool t : PkbufPool} {size : Nat}
    (h : pool.alloc size = .ok (t, none)) :
    t.cluster.free.length < pool.cluster.free.length := by
  rw [PkbufPool.alloc] at h
  rcases halloc : pool.clusterAlloc size with fault | ⟨behind, _ | cluster⟩
  · rw [halloc] at h
    cases h
  · rw [halloc] at h
    cases h
    exact (clusterAlloc_eq_ok halloc).1
  · rw [halloc] at h
    dsimp only at h
    split at h
    · cases h
      exact (clusterAlloc_eq_ok halloc).1
    · cases h

/-- The same entries are free. -/
structure BuildPools.SameFree (pools later : BuildPools) : Prop where
  tlv : later.tlv.free.Perm pools.tlv.free
  pkbuf : later.pkbuf.pkbuf.free.Perm pools.pkbuf.pkbuf.free
  cluster : later.pkbuf.cluster.free.Perm pools.pkbuf.cluster.free
  classes : ∀ c, (later.pkbuf.classes c).free.Perm (pools.pkbuf.classes c).free

/-- A build that returns `NULL` leaves the entries free that were free. -/
def NullKeepsPools (desc : TlvDesc) (msg : TlvMsg) (mode : TlvMode) (pools : BuildPools) : Prop :=
  ∀ later, ogsTlvBuildMsg desc msg mode pools = .ok (later, none) → pools.SameFree later

/-- Before an IE that is refused no node is granted, and where all is granted, a buffer is too. -/
def NothingLost (asks : List TlvAsk) (pools : BuildPools) : Prop :=
  match grant asks pools.tlv.free.length with
  | none => True
  | some (taken, false) => taken = 0
  | some (_, true) => ¬pools.pkbuf.Unserved ((16 + askedOctets asks % 2 ^ 32) % 2 ^ 32)

theorem grant_le {asks : List TlvAsk} {free taken : Nat} {all : Bool}
    (h : grant asks free = some (taken, all)) : taken ≤ free := by
  induction asks generalizing free taken with
  | nil =>
    cases h
    exact Nat.zero_le free
  | cons ask asks ih =>
    cases ask with
    | refused =>
      cases h
      exact Nat.zero_le free
    | broken => cases h
    | node octets =>
      cases free with
      | zero => cases h
      | succ free =>
        obtain ⟨⟨k, all⟩, hrest, heq⟩ := Option.map_eq_some_iff.mp h
        cases heq
        exact Nat.succ_le_succ (ih hrest)

/-- A build that returns `NULL` keeps the pools if and only if nothing is lost: it is refused before
it has taken a node, or is not refused and gets its buffer. -/
theorem nullKeepsPools_iff (desc : TlvDesc) (msg : TlvMsg) (mode : TlvMode) (pools : BuildPools) :
    NullKeepsPools desc msg mode pools ↔
      (desc.ctype = .message → NothingLost (msgAsks desc msg mode) pools) := by
  have hadd := tlvAddMsg_meets desc msg mode pools.tlv
  unfold NullKeepsPools NothingLost ogsTlvBuildMsg
  by_cases hdesc : desc.ctype = .message
  swap
  · refine iff_of_true ?_ fun h => absurd h hdesc
    rw [if_pos hdesc]
    rintro later ⟨⟩
  rw [if_neg (not_not.mpr hdesc), imp_iff_right hdesc]
  rcases hgrant : grant (msgAsks desc msg mode) pools.tlv.free.length with _ | ⟨taken, _ | _⟩
  · rw [hgrant] at hadd
    obtain ⟨fault, hrun⟩ := hadd
    refine iff_of_true ?_ trivial
    rw [hrun]
    rintro later ⟨⟩
  · rw [hgrant] at hadd
    rw [hadd]
    constructor
    · intro h
      have hlength := (h _ rfl).tlv.length_eq
      have hle := grant_le hgrant
      rw [List.length_drop] at hlength
      omega
    · rintro hzero later ⟨⟩
      obtain rfl : taken = 0 := hzero
      exact ⟨.refl _, .refl _, .refl _, fun _ => .refl _⟩
  · rw [hgrant] at hadd
    obtain ⟨root, hroot, hrun⟩ := hadd
    rw [hrun, ok_bind]
    dsimp only
    have hlength : ogsTlvCalcLength root = askedOctets (msgAsks desc msg mode) % 2 ^ 32 := by
      rw [ogsTlvCalcLength, hroot]
    rw [← hlength, ← PkbufPool.alloc_none_iff]
    constructor
    · rintro h ⟨t, ht⟩
      have hcluster := (h ⟨_, t⟩ (by rw [ht]; rfl)).cluster.length_eq
      have hlt := PkbufPool.alloc_none_lt ht
      dsimp only at hcluster
      omega
    · intro hserved later h
      obtain ⟨⟨pkbuf, buffer⟩, halloc, h⟩ := bind_eq_ok.mp h
      cases buffer with
      | none => exact absurd ⟨pkbuf, halloc⟩ hserved
      | some buffer =>
        dsimp only at h
        split_ifs at h with hput
        obtain ⟨octets, hoctets, h⟩ := bind_eq_ok.mp h
        rw [if_neg (not_not.mpr (length_ogsTlvRender hoctets))] at h
        cases h

/-- A message of two IEs, of which the second is a string. -/
def flagAndName : TlvDesc :=
  .mk .message 0 0 0 0 [.mk .null 1 0 0 8 [], .mk .varStr 2 0 0 24 []]

/-- Both are present and the string is empty: the node of the first is not given back. -/
theorem not_nullKeepsPools :
    ¬NullKeepsPools flagAndName (fun _ => { presence := 1 }) .t2L2
      ⟨.init 4, .create fun _ => 1⟩ := by
  intro h
  have hlength := (h ⟨⟨4, [1, 2, 3]⟩, .create fun _ => 1⟩ rfl).tlv.length_eq
  exact absurd hlength (by decide)

end Quicup.Open5gs
