import Mathlib.Data.List.Perm.Basic
import Quicup.Open5gs.Upf.QuicServer

/-!
# The registry of connected gNBs

The list of the registry goes by connection and its index by address. The two stay
together as long as no gNB address has two connections when one of them is shut
down, and the pool is not exhausted.
-/

namespace Quicup.Open5gs.QuicServer

open OgsHash

/-- A search for an address finds a connected node that comes from it exactly when
there is one, and the list has the connected connections. -/
structure Exact (s : QuicServer) : Prop where
  lookup : ∀ ip : IpString,
    (∃ n, s.find ip.chars = .ok (some n) ∧ ((s.node n).conn, ip) ∈ s.connected) ↔
      ∃ conn, (conn, ip) ∈ s.connected
  list : (s.quicClientList.map fun n => (s.node n).conn).Perm (s.connected.map Prod.fst)

/-- A server that has crashed has no registry. -/
def Serving : Except Fault QuicServer → Prop
  | .ok s => s.Exact
  | .error _ => False

/-- A node is left for a new connection, and a connection that is shut down is the
only one from its address. -/
def Uncontended : Except Fault QuicServer → ConnectionEvent → Prop
  | .ok s, .connected _ _ => s.connected.length < quicClientPoolSize
  | .ok s, .shutdownComplete conn =>
    ∀ ip, (conn, ip) ∈ s.connected → ∀ other, (other, ip) ∈ s.connected → other = conn
  | .error _, _ => True

/-- What ties the nodes, the list and the index to the connected connections. -/
structure Registered (s : QuicServer) : Prop where
  pool : (s.quicClientPool ++ s.quicClientList).Perm (List.range quicClientPoolSize)
  handles : (s.connected.map Prod.fst).Nodup
  list : (s.quicClientList.map fun n => (s.node n).conn).Perm (s.connected.map Prod.fst)
  named : ∀ n ∈ s.quicClientList, ∀ ip, ((s.node n).conn, ip) ∈ s.connected →
    cString (s.mem n) = ip.chars
  hash : s.quicClientHash.WellFormed s.mem
  keyed : ∀ e ∈ s.quicClientHash, e.key ∈ s.quicClientList ∧
    cString (s.mem e.key) = content s.mem e
  valued : ∀ e ∈ s.quicClientHash, e.val ∈ s.quicClientList ∧
    cString (s.mem e.val) = content s.mem e
  indexed : ∀ n ∈ s.quicClientList, ∃ e ∈ s.quicClientHash, content s.mem e = cString (s.mem n)

variable {s t : QuicServer} {conn : Nat} {ip : IpString}

namespace Registered

/-- The node of a connected connection. -/
theorem exists_node (h : s.Registered) (hconn : (conn, ip) ∈ s.connected) :
    ∃ n ∈ s.quicClientList, (s.node n).conn = conn ∧ cString (s.mem n) = ip.chars := by
  have hmem : conn ∈ s.quicClientList.map fun n => (s.node n).conn :=
    h.list.mem_iff.mpr (List.mem_map.mpr ⟨_, hconn, rfl⟩)
  obtain ⟨n, hn, rfl⟩ := List.mem_map.mp hmem
  exact ⟨n, hn, rfl, h.named n hn ip hconn⟩

variable {n : Nat}

/-- The connection of a node. -/
theorem exists_connection (h : s.Registered) (hn : n ∈ s.quicClientList) :
    ∃ ip, ((s.node n).conn, ip) ∈ s.connected ∧ cString (s.mem n) = ip.chars := by
  have hmem := h.list.mem_iff.mp (List.mem_map.mpr ⟨n, hn, rfl⟩)
  obtain ⟨⟨c, ip⟩, hc, hsame⟩ := List.mem_map.mp hmem
  change c = (s.node n).conn at hsame
  rw [hsame] at hc
  exact ⟨ip, hc, h.named n hn ip hc⟩

theorem conn_injective (h : s.Registered) {m : Nat} (hn : n ∈ s.quicClientList)
    (hm : m ∈ s.quicClientList) (hsame : (s.node n).conn = (s.node m).conn) : n = m :=
  List.inj_on_of_nodup_map (h.list.nodup_iff.mpr h.handles) hn hm hsame

theorem pool_nodup (h : s.Registered) : (s.quicClientPool ++ s.quicClientList).Nodup :=
  h.pool.nodup_iff.mpr List.nodup_range

theorem length (h : s.Registered) :
    s.quicClientPool.length + s.connected.length = quicClientPoolSize := by
  have hpool := h.pool.length_eq
  have hlist := h.list.length_eq
  rw [List.length_append, List.length_range] at hpool
  rw [List.length_map, List.length_map] at hlist
  rw [← hlist, hpool]

theorem exact (h : s.Registered) : s.Exact where
  lookup ip := by
    constructor
    · rintro ⟨n, -, hn⟩
      exact ⟨_, hn⟩
    · rintro ⟨conn, hconn⟩
      obtain ⟨n, hn, -, htext⟩ := h.exists_node hconn
      obtain ⟨e, he, hcontent⟩ := h.indexed n hn
      obtain ⟨hval, hvalText⟩ := h.valued e he
      -- the node found is named by the same text, and so has the same address
      obtain ⟨ip', hip', htext'⟩ := h.exists_connection hval
      have hsame : ip' = ip :=
        IpString.ext (htext'.symm.trans (hvalText.trans (hcontent.trans htext)))
      refine ⟨e.val, ?_, hsame ▸ hip'⟩
      rw [find_eq, h.hash.findEntry_eq_some_iff.mpr ⟨he, hcontent.trans htext⟩]
      rfl
  list := h.list

/-- A node takes a name while the nodes in use keep theirs, and the index binds the
name to it. -/
theorem bind (h : s.Registered) {mem : Nat → List UInt8}
    (hmem : ∀ m ∈ s.quicClientList, mem m = s.mem m) (hname : cString (mem n) = ip.chars) :
    ∃ ht, s.quicClientHash.set mem n (strlen (mem n)) (some n) = .ok ht ∧ ht.WellFormed mem ∧
      (∀ e ∈ ht, e.key ∈ s.quicClientList ++ [n] ∧ cString (mem e.key) = content mem e) ∧
      (∀ e ∈ ht, e.val ∈ s.quicClientList ++ [n] ∧ cString (mem e.val) = content mem e) ∧
      ∀ m ∈ s.quicClientList ++ [n], ∃ e ∈ ht, content mem e = cString (mem m) := by
  have hcontent (e : HashEntry Nat Nat) (he : e ∈ s.quicClientHash) :
      content mem e = content s.mem e := by
    rw [content, hmem _ (h.keyed e he).1, content]
  have hwell := h.hash.congr hcontent
  have hlength : ip.chars.length = strlen (mem n) := congrArg List.length hname.symm
  have hklen : strlen (mem n) ≠ 0 := fun hzero =>
    ip.nonempty (List.length_eq_zero_iff.mp (hlength.trans hzero))
  obtain ⟨ht, bound, hset, hwell', hent, hbound, hval, hkey⟩ :=
    hwell.set_some hklen ((take_strlen _).trans hname) hlength n
  have hlast : n ∈ s.quicClientList ++ [n] := List.mem_append_right _ (List.mem_singleton_self n)
  refine ⟨ht, hset, hwell', fun e he => ?_, fun e he => ?_, fun m hm => ?_⟩
  · rcases (hent e).mp he with ⟨he, -⟩ | rfl
    · obtain ⟨hlist, htext⟩ := h.keyed e he
      rw [hcontent e he, hmem _ hlist]
      exact ⟨List.mem_append_left _ hlist, htext⟩
    · -- the key pointer is the one of the entry found, or the new node's own
      cases hfind : s.quicClientHash.findEntry mem ip.chars with
      | none =>
        rw [hfind] at hkey
        rw [← hkey, hbound]
        exact ⟨hlast, hname⟩
      | some found =>
        rw [hfind] at hkey
        obtain ⟨hfound, hsame⟩ := hwell.findEntry_eq_some_iff.mp hfind
        obtain ⟨hlist, htext⟩ := h.keyed found hfound
        rw [← hkey, hbound]
        refine ⟨List.mem_append_left _ hlist, ?_⟩
        exact (congrArg cString (hmem _ hlist)).trans
          (htext.trans ((hcontent found hfound).symm.trans hsame))
  · rcases (hent e).mp he with ⟨he, -⟩ | rfl
    · obtain ⟨hlist, htext⟩ := h.valued e he
      rw [hcontent e he, hmem _ hlist]
      exact ⟨List.mem_append_left _ hlist, htext⟩
    · rw [hval, hbound]
      exact ⟨hlast, hname⟩
  · by_cases hsame : cString (mem m) = ip.chars
    · exact ⟨bound, (hent bound).mpr (.inr rfl), hbound.trans hsame.symm⟩
    · rcases List.mem_append.mp hm with hlist | hm
      · obtain ⟨e, he, htext⟩ := h.indexed m hlist
        rw [hmem m hlist] at hsame ⊢
        have hother : content mem e ≠ ip.chars := by rwa [hcontent e he, htext]
        exact ⟨e, (hent e).mpr (.inl ⟨he, hother⟩), (hcontent e he).trans htext⟩
      · rw [List.mem_singleton.mp hm] at hsame
        exact absurd hname hsame

/-- The node a new connection takes is not in use, and the nodes in use keep what
they hold. -/
theorem onConnected (h : s.Registered) (hfree : s.connected.length < quicClientPoolSize)
    (hnew : ∀ ip, (conn, ip) ∉ s.connected) (ip : IpString) :
    ∃ t, s.onConnected conn ip = .ok t ∧ t.Registered ∧
      t.connected = s.connected ++ [(conn, ip)] := by
  have hlength := h.length
  obtain ⟨n, pool, hpool⟩ : ∃ n pool, s.quicClientPool = n :: pool :=
    List.exists_cons_of_length_pos (by omega)
  have hnodup := h.pool_nodup
  rw [hpool, List.cons_append, List.nodup_cons, List.mem_append] at hnodup
  have hn : n ∉ s.quicClientList := fun hmem => hnodup.1 (.inr hmem)
  let node := Function.update s.node n ⟨conn, strcpy (s.node n).ipAddress ip.chars⟩
  have hself : node n = ⟨conn, strcpy (s.node n).ipAddress ip.chars⟩ := Function.update_self ..
  have hkeep (m : Nat) (hm : m ∈ s.quicClientList) : node m = s.node m :=
    Function.update_of_ne (fun hsame : m = n => hn (hsame ▸ hm)) ..
  have hname : cString (node n).ipAddress = ip.chars := hself ▸ cString_strcpy ..
  let mem (m : Nat) : List UInt8 := (node m).ipAddress
  have hmem (m : Nat) (hm : m ∈ s.quicClientList) : mem m = s.mem m :=
    congrArg QuicClientNode.ipAddress (hkeep m hm)
  obtain ⟨ht, hset, hwell, hkeyed, hvalued, hindexed⟩ := h.bind hmem hname
  have hnewHandle : conn ∉ s.connected.map Prod.fst := fun hmem => by
    obtain ⟨⟨_, ip⟩, hconn, rfl⟩ := List.mem_map.mp hmem
    exact hnew ip hconn
  refine ⟨⟨node, pool, s.quicClientList ++ [n], ht, s.connected ++ [(conn, ip)]⟩, ?_, ?_, rfl⟩
  · rw [QuicServer.onConnected, hpool]
    change (s.quicClientHash.set mem n (strlen (mem n)) (some n) >>= _) = _
    rw [hset]
    rfl
  · exact
      { pool := by
          refine List.Perm.trans ?_ h.pool
          rw [hpool, ← List.append_assoc]
          exact List.perm_append_comm
        handles := by
          rw [List.map_append, List.nodup_append]
          refine ⟨h.handles, List.nodup_singleton _, fun _ hold _ hlast hsame => ?_⟩
          have hconn : _ = conn := hsame.trans (List.mem_singleton.mp hlast)
          exact hnewHandle (hconn ▸ hold)
        list := by
          rw [List.map_append, List.map_append]
          refine List.Perm.append ?_ (.of_eq (congrArg (fun m => [QuicClientNode.conn m]) hself))
          rw [List.map_congr_left fun m hm => congrArg QuicClientNode.conn (hkeep m hm)]
          exact h.list
        named := fun m hm ip' hconn => by
          rcases List.mem_append.mp hm with hlist | hlast
          · rw [show (node m).conn = (s.node m).conn from
              congrArg QuicClientNode.conn (hkeep m hlist)] at hconn
            rcases List.mem_append.mp hconn with hold | hlatest
            · exact (congrArg cString (hmem m hlist)).trans (h.named m hlist ip' hold)
            · -- the handle of a node in use is not the new one
              obtain ⟨hsame, -⟩ := Prod.mk.inj (List.mem_singleton.mp hlatest)
              have hused := h.list.mem_iff.mp (List.mem_map.mpr ⟨m, hlist, rfl⟩)
              exact absurd (hsame ▸ hused) hnewHandle
          · rw [List.mem_singleton.mp hlast] at hconn ⊢
            rw [show (node n).conn = conn from congrArg QuicClientNode.conn hself] at hconn
            rcases List.mem_append.mp hconn with hold | hlatest
            · exact absurd hold (hnew ip')
            · obtain ⟨-, hsame⟩ := Prod.mk.inj (List.mem_singleton.mp hlatest)
              rw [hsame]
              exact hname
        hash := hwell
        keyed := hkeyed
        valued := hvalued
        indexed := hindexed }

/-- The shutdown of a connection without a node changes nothing. -/
theorem onShutdownComplete_absent (h : s.Registered)
    (habsent : ∀ ip, (conn, ip) ∉ s.connected) : s.onShutdownComplete conn = .ok s := by
  have hfind : s.quicClientList.find? (fun n => (s.node n).conn = conn) = none := by
    rw [List.find?_eq_none]
    intro n hn hsame
    obtain ⟨ip, hconn, -⟩ := h.exists_connection hn
    exact habsent ip (of_decide_eq_true hsame ▸ hconn)
  have hfilter : s.connected.filter (fun c => c.1 ≠ conn) = s.connected :=
    List.filter_eq_self.mpr fun c hc => decide_eq_true fun hsame => habsent c.2 (hsame ▸ hc)
  simp only [QuicServer.onShutdownComplete, hfilter, hfind]
  rfl

/-- The shutdown of a connection takes its node off the list and its name out of the
index. -/
theorem onShutdownComplete_present (h : s.Registered) (hconn : (conn, ip) ∈ s.connected) :
    ∃ n ht, n ∈ s.quicClientList ∧ (s.node n).conn = conn ∧ cString (s.mem n) = ip.chars ∧
      ht.WellFormed s.mem ∧
      (∀ e, e ∈ ht ↔ e ∈ s.quicClientHash ∧ content s.mem e ≠ ip.chars) ∧
      s.onShutdownComplete conn = .ok { s with
        connected := s.connected.filter fun c => c.1 ≠ conn
        quicClientHash := ht
        quicClientList := s.quicClientList.erase n
        quicClientPool := s.quicClientPool ++ [n] } := by
  obtain ⟨n, hn, hhandle, hname⟩ := h.exists_node hconn
  have hfind : s.quicClientList.find? (fun n => (s.node n).conn = conn) = some n := by
    cases hfind : s.quicClientList.find? (fun n => (s.node n).conn = conn) with
    | none => exact absurd (decide_eq_true hhandle) (List.find?_eq_none.mp hfind n hn)
    | some m =>
      have hm := List.find?_some hfind
      rw [decide_eq_true_iff] at hm
      rw [h.conn_injective (List.mem_of_find?_eq_some hfind) hn (hm.trans hhandle.symm)]
  have hklen : strlen (s.mem n) ≠ 0 := fun hzero =>
    ip.nonempty (List.length_eq_zero_iff.mp ((congrArg List.length hname.symm).trans hzero))
  obtain ⟨ht, hset, hwell, hent⟩ := h.hash.set_none hklen ((take_strlen _).trans hname)
  have hfree : s.free n = s.quicClientPool ++ [n] := by
    have hlength := h.pool.length_eq
    have hused := List.length_pos_of_mem hn
    rw [List.length_append, List.length_range] at hlength
    rw [free, if_pos (by omega)]
  refine ⟨n, ht, hn, hhandle, hname, hwell, hent, ?_⟩
  simp only [QuicServer.onShutdownComplete, hfind]
  change (s.quicClientHash.set s.mem n (strlen (s.mem n)) none >>= _) = _
  rw [hset]
  exact congrArg (fun pool => Except.ok { s with
    connected := s.connected.filter fun c => c.1 ≠ conn
    quicClientHash := ht
    quicClientList := s.quicClientList.erase n
    quicClientPool := pool }) hfree

/-- The shutdown of the only connection from its address leaves the others in place. -/
theorem onShutdownComplete (h : s.Registered) (hconn : (conn, ip) ∈ s.connected)
    (halone : ∀ other, (other, ip) ∈ s.connected → other = conn) :
    ∃ t, s.onShutdownComplete conn = .ok t ∧ t.Registered := by
  obtain ⟨n, ht, hn, hhandle, hname, hwell, hent, heq⟩ := h.onShutdownComplete_present hconn
  have hlist : s.quicClientList.Nodup := (List.nodup_append.mp h.pool_nodup).2.1
  have hrest {m : Nat} : m ∈ s.quicClientList.erase n ↔ m ≠ n ∧ m ∈ s.quicClientList :=
    hlist.mem_erase_iff
  -- a node that holds another name is not the one that leaves
  have hother {e : HashEntry Nat Nat} (he : content s.mem e ≠ ip.chars) {m : Nat}
      (hm : m ∈ s.quicClientList ∧ cString (s.mem m) = content s.mem e) :
      m ∈ s.quicClientList.erase n ∧ cString (s.mem m) = content s.mem e := by
    refine ⟨hrest.mpr ⟨fun hsame => he ?_, hm.1⟩, hm.2⟩
    rw [← hm.2, hsame]
    exact hname
  refine ⟨_, heq, ?_⟩
  exact
    { pool := by
        refine List.Perm.trans ?_ h.pool
        rw [List.append_assoc]
        exact (List.perm_cons_erase hn).symm.append_left _
      handles := h.handles.sublist (List.filter_sublist.map _)
      list := by
        have hconnected : (s.connected.filter fun c => c.1 ≠ conn).map Prod.fst =
            (s.connected.map Prod.fst).erase conn := by
          rw [h.handles.erase_eq_filter, List.filter_map]
          refine congrArg _ (List.filter_congr fun c _ => ?_)
          rw [Function.comp_apply, bne, decide_not, beq_eq_decide]
        rw [hconnected]
        refine (List.cons_perm_iff_perm_erase.mp (List.Perm.trans ?_ h.list)).2
        rw [← hhandle]
        exact ((List.perm_cons_erase hn).map fun m => (s.node m).conn).symm
      named := fun m hm ip' hconn' =>
        h.named m (List.mem_of_mem_erase hm) ip' (List.mem_of_mem_filter hconn')
      hash := hwell
      keyed := fun e he => hother ((hent e).mp he).2 (h.keyed e ((hent e).mp he).1)
      valued := fun e he => hother ((hent e).mp he).2 (h.valued e ((hent e).mp he).1)
      indexed := fun m hm => by
        obtain ⟨hne, hm⟩ := hrest.mp hm
        obtain ⟨e, he, hcontent⟩ := h.indexed m hm
        refine ⟨e, (hent e).mpr ⟨he, fun hsame => hne ?_⟩, hcontent⟩
        -- a second node of the name would be a second connection from the address
        obtain ⟨ip', hconn', hname'⟩ := h.exists_connection hm
        have hip : ip' = ip := IpString.ext (hname'.symm.trans (hcontent.symm.trans hsame))
        exact h.conn_injective hm hn ((halone _ (hip ▸ hconn')).trans hhandle.symm) }

theorem init {node : Nat → QuicClientNode} {seed : UInt32} :
    ({ node, quicClientHash := .make seed } : QuicServer).Registered where
  pool := by rw [List.append_nil]
  handles := List.nodup_nil
  list := .nil
  named _ h := nomatch h
  hash := make_wellFormed seed
  keyed _ h := nomatch h.choose_spec
  valued _ h := nomatch h.choose_spec
  indexed _ h := nomatch h

end Registered

/-! ## Runs -/

/-- The server runs, and its registry is in order. -/
def Intact : Except Fault QuicServer → Prop
  | .ok s => s.Registered
  | .error _ => False

variable {r r' : Except Fault QuicServer} {e : ConnectionEvent}

theorem intact_step (h : Intact r) (hguard : Uncontended r e) (hstep : Step r e r') :
    Intact r' := by
  cases hstep with
  | connected hnew =>
    obtain ⟨t, heq, ht, -⟩ := Registered.onConnected h hguard hnew _
    rw [heq]
    exact ht
  | @shutdownComplete s conn =>
    by_cases hpresent : ∃ ip, (conn, ip) ∈ s.connected
    · obtain ⟨ip, hconn⟩ := hpresent
      obtain ⟨t, heq, ht⟩ := Registered.onShutdownComplete h hconn (hguard ip hconn)
      rw [heq]
      exact ht
    · rw [Registered.onShutdownComplete_absent h (not_exists.mp hpresent)]
      exact h

/-- The exhausted pool crashes the server, and the shutdown of one of two connections
from an address takes the other one out of the index. -/
theorem uncontended_of_serving (h : Intact r) (hstep : Step r e r') (hserving : Serving r') :
    Uncontended r e := by
  cases hstep with
  | @connected s conn ip hnew =>
    have hlength := Registered.length h
    cases hpool : s.quicClientPool with
    | nil =>
      rw [onConnected, hpool] at hserving
      exact hserving.elim
    | cons n pool =>
      rw [hpool, List.length_cons] at hlength
      change s.connected.length < quicClientPoolSize
      omega
  | @shutdownComplete s conn =>
    intro ip hconn other hother
    by_contra hne
    obtain ⟨n, ht, -, -, -, hwell, hent, heq⟩ := Registered.onShutdownComplete_present h hconn
    rw [heq] at hserving
    have hstill : (other, ip) ∈ s.connected.filter fun c => c.1 ≠ conn :=
      List.mem_filter.mpr ⟨hother, decide_eq_true hne⟩
    obtain ⟨m, hfind, -⟩ := (hserving.lookup ip).mpr ⟨other, hstill⟩
    have habsent : ht.findEntry s.mem ip.chars = none :=
      hwell.findEntry_eq_none_iff.mpr fun e he => ((hent e).mp he).2
    rw [find_eq] at hfind
    have hsearch := Except.ok.inj hfind
    change (ht.findEntry s.mem ip.chars).map HashEntry.val = some m at hsearch
    rw [habsent] at hsearch
    exact nomatch hsearch

/-- The registry is exact after every event in exactly the runs in which the pool
suffices and no address has two connections at the shutdown of one of them. -/
theorem serving_iff {events : List ConnectionEvent} {r : Except Fault QuicServer} :
    System.RunWithin system Serving events r ↔ system.Run Uncontended events r := by
  have hinit (r : Except Fault QuicServer) (hr : system.init r) : Intact r := by
    obtain ⟨node, seed, rfl⟩ := hr
    exact Registered.init
  have hgood (r : Except Fault QuicServer) (hr : Intact r) : Serving r := by
    cases r with
    | ok s => exact Registered.exact hr
    | error => exact hr.elim
  exact System.Run.within_iff hinit hgood (fun _ _ _ => intact_step)
    fun _ _ _ => uncontended_of_serving

/-- Two connections from `10.0.0.1`, and the shutdown of the first one. -/
theorem serving_overlap : ¬∀ events r, system.Run System.unrestricted events r → Serving r := by
  intro hall
  let ip : IpString := ⟨[49, 48, 46, 48, 46, 48, 46, 49], by decide, by simp, by decide⟩
  let s₀ : QuicServer := { node := fun _ => ⟨0, []⟩, quicClientHash := .make 0 }
  have h₀ : system.Run System.unrestricted [] (.ok s₀) := .nil ⟨_, _, rfl⟩
  have hnew₁ (ip : IpString) : (1, ip) ∉ s₀.connected := nofun
  obtain ⟨s₁, heq₁, hreg₁, hconnected₁⟩ :=
    Registered.init.onConnected (by decide) hnew₁ ip
  have h₁ : system.Run System.unrestricted _ (.ok s₁) := heq₁ ▸ h₀.snoc trivial (.connected hnew₁)
  change s₁.connected = [(1, ip)] at hconnected₁
  have hnew₂ (ip : IpString) : (2, ip) ∉ s₁.connected := by
    rw [hconnected₁, List.mem_singleton]
    exact fun hsame => nomatch congrArg Prod.fst hsame
  obtain ⟨s₂, heq₂, hreg₂, hconnected₂⟩ :=
    hreg₁.onConnected (by rw [hconnected₁]; decide) hnew₂ ip
  have h₂ : system.Run System.unrestricted _ (.ok s₂) := heq₂ ▸ h₁.snoc trivial (.connected hnew₂)
  rw [hconnected₁] at hconnected₂
  have hstep : Step (.ok s₂) (.shutdownComplete 1) (s₂.onShutdownComplete 1) := .shutdownComplete
  have h₃ : system.Run System.unrestricted _ (s₂.onShutdownComplete 1) := h₂.snoc trivial hstep
  have hintact : Intact (.ok s₂) := hreg₂
  have halone := uncontended_of_serving hintact hstep (hall _ _ h₃)
  have hfirst : (1, ip) ∈ s₂.connected := hconnected₂ ▸ List.mem_cons_self
  have hsecond : (2, ip) ∈ s₂.connected := hconnected₂ ▸ List.mem_cons_of_mem _ List.mem_cons_self
  exact absurd (halone ip hfirst 2 hsecond) (by decide)

end Quicup.Open5gs.QuicServer
