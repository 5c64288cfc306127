import Mathlib.Data.List.Perm.Basic
import Mathlib.Data.List.Range
import Quicup.Ueransim.Quic.Task

/-!
# Ownership of the send contexts

A context passes from `send` to the queue or to msquic, and from there to the
pool, along six paths. Every path moves it from one place to another, so that the
contexts of all requests stay accounted for in every run, and with them the
blocks of the pool.
-/

namespace Quicup.Ueransim

/-- The blocks of the pool that some contexts occupy. -/
def blocksOf (contexts : List SendContext) : List Nat :=
  contexts.filterMap fun ctx => ctx.block.index?

@[simp] theorem blocksOf_nil : blocksOf [] = [] := rfl

@[simp] theorem blocksOf_append (l m : List SendContext) :
    blocksOf (l ++ m) = blocksOf l ++ blocksOf m :=
  List.filterMap_append

@[simp] theorem blocksOf_cons (ctx : SendContext) (l : List SendContext) :
    blocksOf (ctx :: l) = ctx.block.index?.toList ++ blocksOf l := by
  rw [blocksOf, List.filterMap_cons]
  cases ctx.block.index? <;> rfl

namespace SendContextPool

/-- An allocation splits the free blocks into the block it returns and the rest. -/
theorem allocate_perm (p : SendContextPool) (fresh : Nat) :
    ((p.allocate fresh).1.index?.toList ++ (p.allocate fresh).2.pool).Perm p.pool := by
  rw [allocate]
  cases h : p.pool.getLast? with
  | none => exact .rfl
  | some index =>
    obtain ⟨free, hfree⟩ := List.getLast?_eq_some_iff.mp h
    rw [hfree, List.dropLast_concat]
    exact List.perm_append_comm

@[simp] theorem deallocate_pool (p : SendContextPool) (block : Block) :
    (p.deallocate block).pool = p.pool ++ block.index?.toList := by
  cases block with
  | pooled index => rfl
  | heap id => exact (List.append_nil _).symm

end SendContextPool

namespace QuicTask

variable (s : QuicTask)

/-- The contexts that are allocated: with `send`, in the queue, or owned by msquic. -/
def live : List SendContext := s.sending.toList ++ s.pendingContexts ++ s.owned

/-- The requests by the places their contexts are in. -/
def places : List Nat := (s.live ++ s.freed).map SendContext.request

/-- The free blocks of the pool and those of the live contexts. -/
def blocks : List Nat := s.contextPool.pool ++ blocksOf s.live

/-- The requests whose datagrams were passed to msquic, in order, with those that
are still to be passed on behind them, and last the request that comes next. -/
def line : List Nat :=
  (s.handed.map Prod.snd ++ s.pendingContexts ++ s.sending.toList).map SendContext.request ++
    [s.requests]

/-- Every context is in one place, is freed at most once, and reached msquic in the
order of the requests, and every block of the pool is free or in use. -/
structure Accounted : Prop where
  onePlace : s.places.Perm (List.range s.requests)
  freedOnce : (s.freed.map SendContext.request).Nodup
  inOrder : (s.handed.map fun h => h.2.request).Pairwise (· < ·)
  blocks : s.blocks.Perm (List.range SendContextPool.capacity)

/-- What the steps preserve. -/
structure Ledger : Prop where
  places : s.places.Perm (List.range s.requests)
  blocks : s.blocks.Perm (List.range SendContextPool.capacity)
  drained : s.quicState ≠ .connecting → s.pendingContexts = []
  line : s.line.Pairwise (· < ·)

variable {s} {t : QuicTask} {ctx : SendContext} {queue : List SendContext}

theorem Ledger.accountsForAll (h : s.Ledger) : s.Accounted where
  onePlace := h.places
  freedOnce := by
    have hnodup : s.places.Nodup := h.places.nodup_iff.mpr List.nodup_range
    rw [QuicTask.places, List.map_append] at hnodup
    exact (List.nodup_append.mp hnodup).2.1
  inOrder := by
    have hline := h.line
    rw [QuicTask.line, List.append_assoc, List.map_append, List.append_assoc] at hline
    have hhanded := (List.pairwise_append.mp hline).1
    rwa [List.map_map] at hhanded
  blocks := h.blocks

/-! ## Contexts changing places -/

theorem count_places (s : QuicTask) (request : Nat) :
    s.places.count request =
      (s.sending.toList.map SendContext.request).count request +
        (s.pendingContexts.map SendContext.request).count request +
        (s.owned.map SendContext.request).count request +
        (s.freed.map SendContext.request).count request := by
  simp only [places, live, List.map_append, List.count_append]

theorem count_blocks (s : QuicTask) (index : Nat) :
    s.blocks.count index =
      s.contextPool.pool.count index + (blocksOf s.sending.toList).count index +
        (blocksOf s.pendingContexts).count index + (blocksOf s.owned).count index := by
  simp only [blocks, live, blocksOf_append, List.count_append]
  omega

/-- `t` accounts for what `s` does and for the contexts `held`. -/
structure Absorbs (held : List SendContext) (s t : QuicTask) : Prop where
  places : t.places.Perm (held.map SendContext.request ++ s.places)
  blocks : t.blocks.Perm (blocksOf held ++ s.blocks)

theorem delete_absorbs (s : QuicTask) (ctx : SendContext) : Absorbs [ctx] s (s.delete ctx) where
  places := by
    rw [List.perm_iff_count]
    intro request
    simp only [List.count_append, count_places, delete, List.map_append]
    omega
  blocks := by
    rw [List.perm_iff_count]
    intro index
    simp only [List.count_append, count_blocks, delete, SendContextPool.deallocate_pool,
      blocksOf_cons, blocksOf_nil, List.append_nil]
    omega

theorem own_absorbs (s : QuicTask) (ctx : SendContext) :
    Absorbs [ctx] s { s with owned := s.owned ++ [ctx] } where
  places := by
    rw [List.perm_iff_count]
    intro request
    simp only [List.count_append, count_places, List.map_append]
    omega
  blocks := by
    rw [List.perm_iff_count]
    intro index
    simp only [List.count_append, count_blocks, blocksOf_append]
    omega

/-- A context that is sent is owned by msquic or deleted. -/
theorem executeSend_absorbs (s : QuicTask) (accepts : Bool) (ctx : SendContext) :
    Absorbs [ctx] s (s.executeSend accepts ctx) := by
  let t := { s with handed := s.handed ++ [(s.connection, ctx)] }
  have hsend : Absorbs [ctx] t (s.executeSend accepts ctx) := by
    rw [executeSend]
    split
    · exact own_absorbs t ctx
    · exact delete_absorbs t ctx
  exact ⟨hsend.places, hsend.blocks⟩

/-- Nothing held is left to account for. -/
theorem Absorbs.refl (s : QuicTask) : Absorbs [] s s where
  places := .rfl
  blocks := .rfl

theorem Absorbs.trans {u : QuicTask} (h : Absorbs [] s t) (h' : Absorbs [] t u) :
    Absorbs [] s u where
  places := h'.places.trans h.places
  blocks := h'.blocks.trans h.blocks

/-- What is taken off the queue and absorbed again stays accounted for. -/
theorem Absorbs.ofQueue {rest : List SendContext} (hqueue : s.pendingContexts = ctx :: rest)
    (h : Absorbs [ctx] { s with pendingContexts := rest } t) : Absorbs [] s t where
  places := by
    have hrest : s.pendingContexts = [ctx] ++ rest := hqueue
    refine h.places.trans (List.perm_iff_count.mpr fun request => ?_)
    simp only [List.count_append, count_places, hrest, List.map_append, List.map_nil,
      List.nil_append]
    omega
  blocks := by
    have hrest : s.pendingContexts = [ctx] ++ rest := hqueue
    refine h.blocks.trans (List.perm_iff_count.mpr fun index => ?_)
    simp only [List.count_append, count_blocks, hrest, blocksOf_append, blocksOf_nil,
      List.nil_append]
    omega

/-- What `send` holds and is absorbed again stays accounted for. -/
theorem Absorbs.ofSending (hsending : s.sending = some ctx)
    (h : Absorbs [ctx] { s with sending := none } t) : Absorbs [] s t where
  places := by
    refine h.places.trans (List.perm_iff_count.mpr fun request => ?_)
    simp only [List.count_append, count_places, hsending, Option.toList_some, Option.toList_none,
      List.map_nil, List.nil_append, List.count_nil]
    omega
  blocks := by
    refine h.blocks.trans (List.perm_iff_count.mpr fun index => ?_)
    simp only [List.count_append, count_blocks, hsending, Option.toList_some, Option.toList_none,
      blocksOf_nil, List.nil_append, List.count_nil]
    omega

/-- What msquic owns and is absorbed again stays accounted for. -/
theorem Absorbs.ofOwned (howned : ctx ∈ s.owned)
    (h : Absorbs [ctx] { s with owned := s.owned.erase ctx } t) : Absorbs [] s t where
  places := by
    refine h.places.trans (List.perm_iff_count.mpr fun request => ?_)
    have hcount := ((List.perm_cons_erase howned).map SendContext.request).count_eq request
    rw [← List.singleton_append, List.map_append, List.count_append] at hcount
    simp only [List.count_append, count_places, List.map_nil, List.nil_append]
    omega
  blocks := by
    refine h.blocks.trans (List.perm_iff_count.mpr fun index => ?_)
    have hcount := ((List.perm_cons_erase howned).filterMap fun c => c.block.index?).count_eq index
    change (blocksOf s.owned).count index = (blocksOf ([ctx] ++ s.owned.erase ctx)).count index
      at hcount
    rw [blocksOf_append, List.count_append] at hcount
    simp only [List.count_append, count_blocks, blocksOf_nil, List.nil_append]
    omega

theorem queue_absorbs (s : QuicTask) (ctx : SendContext) :
    Absorbs [ctx] s { s with pendingContexts := s.pendingContexts ++ [ctx] } where
  places := by
    rw [List.perm_iff_count]
    intro request
    simp only [List.count_append, count_places, List.map_append]
    omega
  blocks := by
    rw [List.perm_iff_count]
    intro index
    simp only [List.count_append, count_blocks, blocksOf_append]
    omega

/-- The loop of `CONNECTED`: each step takes one context off the queue and sends it. -/
theorem flush_absorbs (accepts : Nat → Bool) (hqueue : s.pendingContexts = queue) :
    Absorbs [] s (flush accepts queue s) := by
  induction queue generalizing s with
  | nil =>
    have hs : flush accepts [] s = s := by rw [flush, ← hqueue]
    rw [hs]
    exact .refl s
  | cons ctx rest ih =>
    have hsend := executeSend_absorbs { s with pendingContexts := rest } (accepts ctx.request) ctx
    exact (hsend.ofQueue hqueue).trans (ih (executeSend_pendingContexts ..))

/-- The loop of `SHUTDOWN_COMPLETE`: each step takes one context off the queue and deletes it. -/
theorem purge_absorbs (hqueue : s.pendingContexts = queue) : Absorbs [] s (purge queue s) := by
  induction queue generalizing s with
  | nil =>
    have hs : purge [] s = s := by rw [purge, ← hqueue]
    rw [hs]
    exact .refl s
  | cons ctx rest ih =>
    have hdelete := delete_absorbs { s with pendingContexts := rest } ctx
    exact (hdelete.ofQueue hqueue).trans (ih rfl)

/-! ## Steps -/

/-- A step that takes no request keeps the contexts accounted for. It may drop
requests from the line, and it ends with an empty queue unless it is connecting. -/
theorem Ledger.ofAbsorbs (h : s.Ledger) (habsorbs : Absorbs [] s t)
    (hrequests : t.requests = s.requests) (hline : t.line.Sublist s.line)
    (hdrained : t.quicState ≠ .connecting → t.pendingContexts = []) : t.Ledger where
  places := hrequests ▸ habsorbs.places.trans h.places
  blocks := habsorbs.blocks.trans h.blocks
  drained := hdrained
  line := h.line.sublist hline

theorem Ledger.beginSend (h : s.Ledger) (w : NmGnbGtpToQuic) (hsending : s.sending = none) :
    (s.beginSend w).Ledger where
  places := by
    have hplaces : (s.beginSend w).places.Perm (s.places ++ [s.requests]) := by
      rw [List.perm_iff_count]
      intro request
      simp only [List.count_append, count_places, QuicTask.beginSend, hsending,
        Option.toList_some, Option.toList_none, List.map_cons, List.map_nil, List.count_nil]
      omega
    refine hplaces.trans ?_
    change (s.places ++ [s.requests]).Perm (List.range (s.requests + 1))
    rw [List.range_succ]
    exact h.places.append_right _
  blocks := by
    refine List.Perm.trans ?_ h.blocks
    rw [List.perm_iff_count]
    intro index
    have hcount := (s.contextPool.allocate_perm s.requests).count_eq index
    rw [List.count_append] at hcount
    simp only [count_blocks, QuicTask.beginSend, hsending, Option.toList_some,
      Option.toList_none, blocksOf_cons, blocksOf_nil, List.append_nil, List.count_nil]
    omega
  drained := h.drained
  line := by
    have hline : (s.beginSend w).line = s.line ++ [s.requests + 1] := by
      simp only [QuicTask.line, QuicTask.beginSend, hsending, Option.toList_some,
        Option.toList_none, List.append_nil, List.map_append, List.map_cons, List.map_nil]
    rw [hline, List.pairwise_append]
    refine ⟨h.line, List.pairwise_singleton .., fun request hrequest next hnext => ?_⟩
    rw [List.mem_singleton.mp hnext]
    -- the last entry of the line bounds the others
    have hbefore := List.pairwise_append.mp h.line
    rcases List.mem_append.mp hrequest with hearlier | hlast
    · exact (hbefore.2.2 request hearlier s.requests (List.mem_singleton_self _)).trans
        (Nat.lt_succ_self _)
    · rw [List.mem_singleton.mp hlast]
      exact Nat.lt_succ_self _

/-- `send` queues the context it holds, or else has the queue empty and sends it. -/
theorem Ledger.send (h : s.Ledger) (results : ApiResults) (hsending : s.sending = some ctx) :
    (s.send ctx results).Ledger := by
  have hqueued := (queue_absorbs { s with sending := none } ctx).ofSending hsending
  have hline : ((s.handed.map Prod.snd ++ (s.pendingContexts ++ [ctx]) ++ []).map
      SendContext.request ++ [s.requests]).Sublist s.line := by
    rw [QuicTask.line, hsending, List.append_nil, ← List.append_assoc]
    exact .refl _
  cases hstate : s.quicState with
  | disconnected =>
    rw [send_disconnected hstate, connect]
    split
    · exact h.ofAbsorbs ⟨hqueued.places, hqueued.blocks⟩ rfl hline fun hn => absurd rfl hn
    · exact h.ofAbsorbs ⟨hqueued.places, hqueued.blocks⟩ rfl hline fun hn => absurd rfl hn
  | connecting =>
    rw [send_connecting hstate]
    exact h.ofAbsorbs ⟨hqueued.places, hqueued.blocks⟩ rfl hline fun hn => absurd hstate hn
  | connected =>
    rw [send_connected hstate]
    have hempty : s.pendingContexts = [] := h.drained (by rw [hstate]; exact nofun)
    have hsent := executeSend_absorbs { s with sending := none } results.datagramSend ctx
    refine h.ofAbsorbs (hsent.ofSending hsending) (executeSend_requests ..) ?_ fun _ => ?_
    · rw [hempty] at hline
      simpa only [QuicTask.line, executeSend_handed, executeSend_pendingContexts,
        executeSend_sending, executeSend_requests, hempty, List.map_append, List.map_cons,
        List.map_nil, Option.toList_none, List.append_nil, List.nil_append] using hline
    · rw [executeSend_pendingContexts]
      exact hempty

theorem Ledger.onConnected (h : s.Ledger) (conn : Nat) (accepts : Nat → Bool) :
    (s.onConnected conn accepts).Ledger := by
  let t := { s with quicState := .connected, connections := s.setPhase conn .connected }
  have hflush : Absorbs [] t (s.onConnected conn accepts) := flush_absorbs accepts rfl
  refine h.ofAbsorbs ⟨hflush.places, hflush.blocks⟩ (flush_requests ..) ?_ fun _ =>
    flush_pendingContexts ..
  simp only [QuicTask.onConnected, QuicTask.line, flush_handed, flush_pendingContexts,
    flush_sending, flush_requests, List.append_nil, List.map_append, List.map_map,
    Function.comp_def, List.map_id']
  exact .refl _

theorem Ledger.onShutdownComplete (h : s.Ledger) (conn : Nat) :
    (s.onShutdownComplete conn).Ledger := by
  let t := { s with quicState := .disconnected, connections := s.setPhase conn .closed }
  have hpurge : Absorbs [] t (s.onShutdownComplete conn) := purge_absorbs rfl
  refine h.ofAbsorbs ⟨hpurge.places, hpurge.blocks⟩ (purge_requests ..) ?_ fun _ =>
    purge_pendingContexts ..
  rw [QuicTask.onShutdownComplete, QuicTask.line, purge_handed, purge_pendingContexts,
    purge_sending, purge_requests, List.append_nil, QuicTask.line]
  -- the requests of the purged contexts leave the line
  exact (((List.sublist_append_left _ _).append_right _).map _).append_right _

theorem Ledger.onDatagramSendStateChanged (h : s.Ledger) (state : DatagramSendState)
    (howned : ctx ∈ s.owned) : (s.onDatagramSendStateChanged ctx state).Ledger := by
  rw [QuicTask.onDatagramSendStateChanged]
  split
  · have hdelete := delete_absorbs { s with owned := s.owned.erase ctx } ctx
    exact h.ofAbsorbs (hdelete.ofOwned howned) rfl (.refl _) h.drained
  · exact h

/-- What the task starts with is accounted for. -/
theorem Ledger.init {s : QuicTask} (hinit : system.init s) : s.Ledger where
  places := by
    rw [show s = {} from hinit]
    exact .rfl
  blocks := by
    have hfree (p : SendContextPool) : ({ contextPool := p } : QuicTask).blocks = p.pool :=
      List.append_nil _
    rw [show s = {} from hinit, hfree]
  drained _ := by
    rw [show s = {} from hinit]
  line := by
    rw [show s = {} from hinit]
    exact List.pairwise_singleton ..

/-- One case for each step of the two threads. -/
theorem Ledger.step {e : Event} (h : s.Ledger) (hstep : Step s e t) : t.Ledger := by
  cases hstep with
  | beginSend hsending => exact h.beginSend _ hsending
  | send hsending => exact h.send _ hsending
  | connected _ => exact h.onConnected _ _
  | beginShutdownComplete _ => exact ⟨h.places, h.blocks, h.drained, h.line⟩
  | shutdownComplete _ => exact h.onShutdownComplete _
  | datagramSendStateChanged howned => exact h.onDatagramSendStateChanged _ howned

/-- In every run, every context is in one place and freed at most once, the
datagrams reach msquic in the order of their requests, and no block of the pool is
lost or listed twice. -/
theorem accounted {events : List Event} {s : QuicTask}
    (h : system.Run System.unrestricted events s) : s.Accounted :=
  (h.invariant (fun _ => Ledger.init) fun _ _ _ hledger _ => Ledger.step hledger).accountsForAll

/-- A queued datagram that is acknowledged after the flush, and one that msquic refuses. -/
theorem accounted_acknowledged :
    ∃ s : QuicTask, s.handed.length = 2 ∧ s.freed.length = 2 ∧ s.Accounted := by
  let w : NmGnbGtpToQuic := ⟨⟨[10, 0, 0, 1], InetAddress.quicPort⟩, []⟩
  have h₀ : system.Run System.unrestricted [] {} := .nil rfl
  have h₁ : system.Run System.unrestricted [.beginSend w] _ :=
    run_snoc h₀ trivial (.beginSend rfl)
  have h₂ : system.Run System.unrestricted [_, .send ⟨true, true, true⟩] _ :=
    run_snoc h₁ trivial (.send rfl)
  have h₃ : system.Run System.unrestricted [_, _, .connected 0 fun _ => true] _ :=
    run_snoc h₂ trivial (.connected rfl)
  have h₄ : system.Run System.unrestricted [_, _, _, .beginSend w] _ :=
    run_snoc h₃ trivial (.beginSend rfl)
  have h₅ : system.Run System.unrestricted [_, _, _, _, .send ⟨true, true, false⟩] _ :=
    run_snoc h₄ trivial (.send rfl)
  have h₆ : system.Run System.unrestricted
      [_, _, _, _, _, .datagramSendStateChanged _ .acknowledged] _ :=
    run_snoc h₅ trivial (.datagramSendStateChanged (List.mem_singleton_self _))
  exact ⟨_, rfl, rfl, accounted h₆⟩

end QuicTask

end Quicup.Ueransim
