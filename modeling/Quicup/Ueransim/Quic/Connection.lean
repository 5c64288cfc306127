import Mathlib.Logic.Relation
import Quicup.Ueransim.Quic.Task

/-!
# The connection of the QUIC task

The task holds one connection and one queue. At most one connection at a time is
started and not shut down, and while it is starting up it is the one the task
holds, opened for the address of the first queued request.
-/

namespace Quicup.Ueransim

/-- The phases in which further events of a connection are to come. -/
def ConnectionPhase.isAwaited : ConnectionPhase → Bool
  | .started | .connected | .closing => true
  | .opened | .closed => false

namespace QuicTask

/-- A connection that was started and has not completed its shutdown. -/
def Awaits (s : QuicTask) (conn : Nat) : Prop :=
  ∃ phase, s.phase conn = some phase ∧ phase.isAwaited = true

/-- What is known of the connections in every state. -/
structure Tracked (s : QuicTask) : Prop where
  unique : ∀ i j, s.Awaits i → s.Awaits j → i = j
  idle : s.quicState = .disconnected → ∀ i, ¬s.Awaits i
  queue : s.quicState = .connecting ↔ s.pendingContexts ≠ []
  started : ∀ i, s.phase i = some .started →
    s.quicState = .connecting ∧ s.connection = some i ∧
      ∀ ctx ∈ s.pendingContexts.head?, s.remote i = some ctx.ip
  handles : ∀ i, s.connection = some i ∨ some i ∈ s.handed.map Prod.fst →
    i < s.connections.length

variable {s t : QuicTask} {conn : Nat} {phase : ConnectionPhase} {e : Event} {c : Connection}

theorem Awaits.ofPhase (h : s.phase conn = some phase) (hphase : phase.isAwaited = true) :
    s.Awaits conn :=
  ⟨phase, h, hphase⟩

theorem awaits_of_setPhase (h : t.connections = s.setPhase conn phase) (hconn : s.Awaits conn)
    (i : Nat) : t.Awaits i ↔ s.Awaits i ∧ (conn = i → phase.isAwaited = true) := by
  obtain ⟨before, hbefore, hawaited⟩ := hconn
  rw [Awaits, phase_of_setPhase h]
  split
  · rename_i hi
    rw [← hi, hbefore]
    constructor
    · rintro ⟨_, ⟨⟩, hp⟩
      exact ⟨⟨before, hbefore, hawaited⟩, fun _ => hp⟩
    · rintro ⟨_, hp⟩
      exact ⟨phase, rfl, hp rfl⟩
  · rename_i hi
    exact ⟨fun ha => ⟨ha, fun hc => absurd hc hi⟩, And.left⟩

theorem awaits_of_append (h : t.connections = s.connections ++ [c]) (i : Nat) :
    t.Awaits i ↔ if i = s.connections.length then c.phase.isAwaited = true else s.Awaits i := by
  rw [Awaits, phase_of_append h]
  split
  · constructor
    · rintro ⟨_, ⟨⟩, hp⟩
      exact hp
    · exact fun hp => ⟨c.phase, rfl, hp⟩
  · exact Iff.rfl

/-! ## Preservation -/

theorem Tracked.empty (h : s.Tracked) (hstate : s.quicState ≠ .connecting) :
    s.pendingContexts = [] :=
  not_not.mp fun hpending => hstate (h.queue.mpr hpending)

/-- A step that leaves connections, queue and state alone may hand over datagrams
with the handles it knows. -/
theorem Tracked.ofFrame (h : s.Tracked) (hstate : t.quicState = s.quicState)
    (hconnection : t.connection = s.connection) (hconnections : t.connections = s.connections)
    (hpending : t.pendingContexts = s.pendingContexts)
    (hhanded : ∀ i, some i ∈ t.handed.map Prod.fst →
      s.connection = some i ∨ some i ∈ s.handed.map Prod.fst) : t.Tracked := by
  have hphase (i : Nat) : t.phase i = s.phase i := by rw [phase, hconnections, phase]
  have hremote (i : Nat) : t.remote i = s.remote i := by rw [remote, hconnections, remote]
  have hawaits (i : Nat) : t.Awaits i ↔ s.Awaits i := by rw [Awaits, hphase, Awaits]
  exact
    { unique := fun i j hi hj => h.unique i j ((hawaits i).mp hi) ((hawaits j).mp hj)
      idle := fun hidle i hi => h.idle (hstate ▸ hidle) i ((hawaits i).mp hi)
      queue := by rw [hstate, hpending]; exact h.queue
      started := fun i hi => by
        rw [hstate, hconnection, hpending, hremote]
        exact h.started i (hphase i ▸ hi)
      handles := fun i hi => by
        rw [hconnections]
        rcases hi with hcurrent | hi
        · exact h.handles i (.inl (hconnection ▸ hcurrent))
        · exact h.handles i (hhanded i hi) }

/-- The first request of a connection is queued, and the connection is opened for
its address. -/
theorem Tracked.ofOpen (h : s.Tracked) {ctx : SendContext} (hidle : ∀ i, ¬s.Awaits i)
    (hstate : t.quicState = .connecting) (hconnection : t.connection = some s.connections.length)
    (hconnections : t.connections = s.connections ++ [c]) (hpending : t.pendingContexts = [ctx])
    (hremote : c.remote = ctx.ip) (hhanded : t.handed = s.handed) : t.Tracked := by
  -- no earlier connection is awaited, so only the new one can be
  have hnew (i : Nat) (hi : t.Awaits i) : i = s.connections.length := by
    rw [awaits_of_append hconnections] at hi
    split at hi
    · assumption
    · exact absurd hi (hidle i)
  refine
    { unique := fun i j hi hj => (hnew i hi).trans (hnew j hj).symm
      idle := fun hdisconnected => nomatch hstate.symm.trans hdisconnected
      queue := ?_
      started := fun i hi => ?_
      handles := fun i hi => ?_ }
  · rw [hpending]
    exact ⟨fun _ => List.cons_ne_nil _ _, fun _ => hstate⟩
  · have hi := hnew i (Awaits.ofPhase hi rfl)
    refine ⟨hstate, hi ▸ hconnection, fun first hfirst => ?_⟩
    rw [hpending] at hfirst
    rw [remote_of_append hconnections, if_pos hi, hremote, Option.some.inj hfirst]
  · rw [hconnections, List.length_append, List.length_singleton]
    rw [hconnection, hhanded] at hi
    rcases hi with hcurrent | hi
    · exact Nat.lt_succ_of_le (Option.some.inj hcurrent).ge
    · exact Nat.lt_succ_of_lt (h.handles i (.inr hi))

theorem Tracked.send (h : s.Tracked) (ctx : SendContext) (results : ApiResults) :
    (s.send ctx results).Tracked := by
  cases hstate : s.quicState with
  | disconnected =>
    have hidle := h.idle hstate
    have hempty : s.pendingContexts = [] := h.empty (by rw [hstate]; exact nofun)
    rw [send_disconnected hstate, connect, hempty]
    split
    · exact
        { unique := h.unique
          idle := nofun
          queue := ⟨fun _ => List.cons_ne_nil _ _, fun _ => rfl⟩
          started := fun i hi => absurd (Awaits.ofPhase hi rfl) (hidle i)
          handles := h.handles }
    · exact h.ofOpen hidle rfl rfl rfl rfl rfl rfl
  | connecting =>
    obtain ⟨first, rest, hpending⟩ := List.exists_cons_of_ne_nil (h.queue.mp hstate)
    rw [send_connecting hstate, hpending]
    exact
      { unique := h.unique
        idle := h.idle
        queue := ⟨fun _ => List.cons_ne_nil _ _, fun _ => hstate⟩
        started := fun i hi => by
          have hstarted := h.started i hi
          rw [hpending] at hstarted
          exact hstarted
        handles := h.handles }
  | connected =>
    rw [send_connected hstate]
    refine h.ofFrame (executeSend_quicState ..) (executeSend_connection ..)
      (executeSend_connections ..) (executeSend_pendingContexts ..) fun i hi => ?_
    rw [executeSend_handed, List.map_append, List.mem_append] at hi
    rcases hi with hearlier | hi
    · exact .inr hearlier
    · exact .inl (List.mem_singleton.mp hi).symm

/-- The connection that is reported on is the only one awaited, so afterwards none
is starting up. -/
theorem Tracked.ofPhaseChange (h : s.Tracked) (hconn : s.Awaits conn)
    (hconnections : t.connections = s.setPhase conn phase) (hphase : phase ≠ .started)
    (hidle : t.quicState = .disconnected → phase.isAwaited = false)
    (hqueue : t.quicState = .connecting ↔ t.pendingContexts ≠ [])
    (hhandles : ∀ i, t.connection = some i ∨ some i ∈ t.handed.map Prod.fst →
      s.connection = some i ∨ some i ∈ s.handed.map Prod.fst) : t.Tracked := by
  have hawaits := awaits_of_setPhase hconnections hconn
  have hsame (i : Nat) (hi : t.Awaits i) : conn = i :=
    h.unique conn i hconn ((hawaits i).mp hi).1
  refine
    { unique := fun i j hi hj => (hsame i hi).symm.trans (hsame j hj)
      idle := fun hdisconnected i hi => ?_
      queue := hqueue
      started := fun i hi => ?_
      handles := fun i hi => ?_ }
  · have hstill := ((hawaits i).mp hi).2 (hsame i hi)
    rw [hidle hdisconnected] at hstill
    exact Bool.false_ne_true hstill
  · have hi' := hsame i (Awaits.ofPhase hi rfl)
    obtain ⟨before, hbefore, -⟩ := hconn
    rw [phase_of_setPhase hconnections, if_pos hi', ← hi', hbefore] at hi
    exact absurd (Option.some.inj hi) hphase
  · rw [hconnections, setPhase, List.length_modify]
    exact h.handles i (hhandles i hi)

theorem Tracked.step (h : s.Tracked) (hstep : Step s e t) : t.Tracked := by
  cases hstep with
  | beginSend _ => exact h.ofFrame rfl rfl rfl rfl fun _ => .inr
  | send _ => exact h.send _ _
  | @connected conn accepts hstarted =>
    have hconnections : (s.onConnected conn accepts).connections = s.setPhase conn .connected :=
      flush_connections ..
    refine h.ofPhaseChange (.ofPhase hstarted rfl) hconnections nofun (fun hn => ?_) ?_ fun i hi => ?_
    · rw [onConnected, flush_quicState] at hn
      exact nomatch hn
    · rw [onConnected, flush_quicState, flush_pendingContexts]
      exact ⟨nofun, fun hn => absurd rfl hn⟩
    · rw [onConnected, flush_connection, flush_handed, List.map_append, List.mem_append] at hi
      rcases hi with hcurrent | hearlier | hi
      · exact .inl hcurrent
      · exact .inr hearlier
      · rw [List.map_map] at hi
        obtain ⟨_, _, hi⟩ := List.mem_map.mp hi
        exact .inl hi
  | @beginShutdownComplete conn hphase =>
    have hconn : s.Awaits conn := hphase.elim (.ofPhase · rfl) (.ofPhase · rfl)
    have hconnections : (s.beginShutdownComplete conn).connections = s.setPhase conn .closing := rfl
    refine h.ofPhaseChange hconn hconnections nofun (fun hn => ?_) h.queue fun i hi => ?_
    · exact absurd hconn (h.idle hn conn)
    · exact .inr (hi.resolve_left nofun)
  | @shutdownComplete conn hphase =>
    have hconnections : (s.onShutdownComplete conn).connections = s.setPhase conn .closed :=
      purge_connections ..
    refine h.ofPhaseChange (.ofPhase hphase rfl) hconnections nofun (fun _ => rfl) ?_ fun i hi => ?_
    · rw [onShutdownComplete, purge_quicState, purge_pendingContexts]
      exact ⟨nofun, fun hn => absurd rfl hn⟩
    · rw [onShutdownComplete, purge_connection, purge_handed] at hi
      exact hi
  | datagramSendStateChanged _ =>
    rw [onDatagramSendStateChanged]
    split
    · exact h.ofFrame rfl rfl rfl rfl fun _ => .inr
    · exact h

theorem Tracked.init (hinit : system.init s) : s.Tracked := by
  have hnone (i : Nat) : ¬({} : QuicTask).Awaits i := by
    rintro ⟨_, hphase, _⟩
    exact nomatch hphase
  rw [show s = {} from hinit]
  exact
    { unique := fun i _ hi => absurd hi (hnone i)
      idle := fun _ => hnone
      queue := ⟨nofun, fun hn => absurd rfl hn⟩
      started := fun i hi => absurd (Awaits.ofPhase hi rfl) (hnone i)
      handles := fun i hi => by rcases hi with hi | hi <;> exact nomatch hi }

theorem tracked {events : List Event} (h : system.Run System.unrestricted events s) : s.Tracked :=
  h.invariant (fun _ => Tracked.init) fun _ _ _ htracked _ => Tracked.step htracked

/-! ## Leaving the connecting state -/

/-- Some steps lead out of the connecting state. -/
def CanLeave (s : QuicTask) : Prop :=
  ∃ t, Relation.ReflTransGen (fun s t => ∃ e, Step s e t) s t ∧ t.quicState ≠ .connecting

/-- While the task is connecting it awaits a connection, and can leave that state. -/
def NotStuck (s : QuicTask) : Prop :=
  s.quicState = .connecting → (∃ conn, s.Awaits conn) ∧ s.CanLeave

/-- `ConnectionOpen` and `ConnectionStart` succeed whenever a connection is needed. -/
def ConnectSucceeds (s : QuicTask) : Event → Prop
  | .send results =>
    s.quicState = .disconnected → results.connectionOpen = true ∧ results.connectionStart = true
  | _ => True

/-- The events of an awaited connection lead out of the connecting state. -/
theorem Awaits.canLeave (h : s.Awaits conn) : s.CanLeave := by
  have hclosing {s : QuicTask} (hphase : s.phase conn = some .closing) :
      (∃ e, Step s e (s.onShutdownComplete conn)) ∧
        (s.onShutdownComplete conn).quicState ≠ .connecting :=
    ⟨⟨_, .shutdownComplete hphase⟩, by rw [onShutdownComplete, purge_quicState]; exact nofun⟩
  obtain ⟨phase, hphase, hawaited⟩ := h
  cases phase with
  | opened | closed => exact nomatch hawaited
  | started =>
    refine ⟨_, .single ⟨.connected conn fun _ => true, .connected hphase⟩, ?_⟩
    rw [onConnected, flush_quicState]
    exact nofun
  | connected =>
    have hnext : (s.beginShutdownComplete conn).phase conn = some .closing := by
      rw [phase_of_setPhase rfl, if_pos rfl, hphase]
      rfl
    obtain ⟨hstep, hstate⟩ := hclosing hnext
    exact ⟨_, .tail (.single ⟨_, .beginShutdownComplete (.inr hphase)⟩) hstep, hstate⟩
  | closing =>
    obtain ⟨hstep, hstate⟩ := hclosing hphase
    exact ⟨_, .single hstep, hstate⟩

/-- Once nothing is awaited, the task queues every further request and stays connecting. -/
theorem stuck_step (hstate : s.quicState = .connecting) (hnone : ∀ i, ¬s.Awaits i)
    (hstep : Step s e t) : t.quicState = .connecting ∧ ∀ i, ¬t.Awaits i := by
  cases hstep with
  | beginSend _ => exact ⟨hstate, hnone⟩
  | send _ =>
    rw [send_connecting hstate]
    exact ⟨hstate, hnone⟩
  | connected hphase => exact absurd (.ofPhase hphase rfl) (hnone _)
  | beginShutdownComplete hphase =>
    exact absurd (hphase.elim (.ofPhase · rfl) (.ofPhase · rfl)) (hnone _)
  | shutdownComplete hphase => exact absurd (.ofPhase hphase rfl) (hnone _)
  | datagramSendStateChanged _ =>
    rw [onDatagramSendStateChanged]
    split <;> exact ⟨hstate, hnone⟩

theorem stuck_forever (hstate : s.quicState = .connecting) (hnone : ∀ i, ¬s.Awaits i)
    (hpath : Relation.ReflTransGen (fun s t => ∃ e, Step s e t) s t) :
    t.quicState = .connecting ∧ ∀ i, ¬t.Awaits i := by
  induction hpath with
  | refl => exact ⟨hstate, hnone⟩
  | tail _ hstep ih =>
    obtain ⟨_, hstep⟩ := hstep
    exact stuck_step ih.1 ih.2 hstep

/-- Being able to leave the connecting state is the same as awaiting a connection. -/
theorem canLeave_iff (hstate : s.quicState = .connecting) :
    s.CanLeave ↔ ∃ conn, s.Awaits conn := by
  constructor
  · rintro ⟨t, hpath, hleft⟩
    by_contra hnone
    exact hleft (stuck_forever hstate (not_exists.mp hnone) hpath).1
  · rintro ⟨conn, hconn⟩
    exact hconn.canLeave

theorem notStuck_iff_awaits :
    s.NotStuck ↔ (s.quicState = .connecting → ∃ conn, s.Awaits conn) :=
  forall_congr' fun hstate => by rw [canLeave_iff hstate, and_self]

/-- A connection that is needed is awaited afterwards if it was opened and started. -/
theorem Tracked.awaits_send (h : s.Tracked) (hstate : s.quicState = .disconnected)
    (ctx : SendContext) (results : ApiResults) :
    (∃ conn, (s.send ctx results).Awaits conn) ↔
      results.connectionOpen = true ∧ results.connectionStart = true := by
  have hidle := h.idle hstate
  rw [send_disconnected hstate, connect]
  split
  · rename_i hopen
    constructor
    · rintro ⟨conn, hconn⟩
      exact absurd hconn (hidle conn)
    · rintro ⟨hopened, _⟩
      rw [hopened] at hopen
      exact nomatch hopen
  · rename_i hopen
    have hopened : results.connectionOpen = true := by simpa using hopen
    rw [hopened, eq_self, true_and]
    constructor
    · rintro ⟨conn, hconn⟩
      rw [awaits_of_append (s := s) rfl] at hconn
      split at hconn
      · cases hstart : results.connectionStart with
        | true => rfl
        | false =>
          rw [hstart] at hconn
          exact nomatch hconn
      · exact absurd hconn (hidle conn)
    · intro hstart
      refine ⟨s.connections.length, (awaits_of_append (s := s) rfl _).mpr ?_⟩
      rw [if_pos rfl, hstart]
      rfl

/-- The steps that keep the task from being stuck are those on which a connection
that is needed comes about. -/
theorem Tracked.notStuck_step (h : s.Tracked) (hstep : Step s e t) :
    t.NotStuck ↔ s.NotStuck ∧ ConnectSucceeds s e := by
  rw [notStuck_iff_awaits, notStuck_iff_awaits]
  cases hstep with
  | beginSend _ => exact (and_iff_left trivial).symm
  | @send ctx results _ =>
    cases hstate : s.quicState with
    | disconnected =>
      have hconnecting : (s.send ctx results).quicState = .connecting := by
        rw [send_disconnected hstate, connect]
        split <;> rfl
      have hawaits := h.awaits_send hstate ctx results
      constructor
      · exact fun ht => ⟨nofun, fun _ => hawaits.mp (ht hconnecting)⟩
      · exact fun ⟨_, hsucceeds⟩ _ => hawaits.mpr (hsucceeds hstate)
    | connecting =>
      rw [send_connecting hstate]
      exact ⟨fun ht => ⟨fun _ => ht hstate, fun hn => nomatch hstate.symm.trans hn⟩,
        fun hs _ => hs.1 rfl⟩
    | connected =>
      have hconnected : (s.send ctx results).quicState = .connected := by
        rw [send_connected hstate, executeSend_quicState]
        exact hstate
      rw [hconnected]
      exact ⟨fun _ => ⟨nofun, fun hn => nomatch hstate.symm.trans hn⟩, fun _ => nofun⟩
  | @connected conn accepts hphase =>
    have hconnected : (s.onConnected conn accepts).quicState = .connected := flush_quicState ..
    rw [hconnected]
    exact ⟨fun _ => ⟨fun _ => ⟨conn, .ofPhase hphase rfl⟩, trivial⟩, fun _ => nofun⟩
  | @beginShutdownComplete conn hphase =>
    have hconn : s.Awaits conn := hphase.elim (.ofPhase · rfl) (.ofPhase · rfl)
    have hstill : (s.beginShutdownComplete conn).Awaits conn :=
      (awaits_of_setPhase rfl hconn conn).mpr ⟨hconn, fun _ => rfl⟩
    exact ⟨fun _ => ⟨fun _ => ⟨conn, hconn⟩, trivial⟩, fun _ _ => ⟨conn, hstill⟩⟩
  | @shutdownComplete conn hphase =>
    have hdisconnected : (s.onShutdownComplete conn).quicState = .disconnected :=
      purge_quicState ..
    rw [hdisconnected]
    exact ⟨fun _ => ⟨fun _ => ⟨conn, .ofPhase hphase rfl⟩, trivial⟩, fun _ => nofun⟩
  | datagramSendStateChanged _ =>
    rw [onDatagramSendStateChanged]
    split <;> exact (and_iff_left trivial).symm

/-- The task is never stuck in a run exactly if every connection it needed was
opened and started. -/
theorem notStuck_iff {events : List Event} (h : system.Run System.unrestricted events s) :
    s.NotStuck ↔ system.Run ConnectSucceeds events s := by
  refine h.good_iff tracked (fun s hinit => ?_) fun _ _ _ => Tracked.notStuck_step
  rw [show s = {} from hinit]
  exact nofun

/-- `ConnectionStart` fails for the first request. -/
theorem stuck_connectionStart :
    ¬∀ events s, system.Run System.unrestricted events s → s.NotStuck := by
  intro hall
  have h₀ : system.Run System.unrestricted [] {} := .nil rfl
  have h₁ : system.Run System.unrestricted
      [.beginSend ⟨⟨[10, 0, 0, 1], InetAddress.quicPort⟩, []⟩] _ :=
    run_snoc h₀ trivial (.beginSend rfl)
  have h₂ : system.Run System.unrestricted [_, .send ⟨true, false, true⟩] _ :=
    run_snoc h₁ trivial (.send rfl)
  obtain ⟨⟨conn, hconn⟩, -⟩ := hall _ _ h₂ rfl
  rw [awaits_of_append (s := {}) rfl] at hconn
  split at hconn
  · exact nomatch hconn
  · obtain ⟨_, hphase, _⟩ := hconn
    exact nomatch hphase

/-- A first request whose connection comes about. -/
theorem notStuck_connecting :
    ∃ events s, system.Run ConnectSucceeds events s ∧ s.quicState = .connecting ∧ s.NotStuck := by
  have h₀ : system.Run ConnectSucceeds [] {} := .nil rfl
  have h₁ : system.Run ConnectSucceeds
      [.beginSend ⟨⟨[10, 0, 0, 1], InetAddress.quicPort⟩, []⟩] _ :=
    run_snoc h₀ trivial (.beginSend rfl)
  have h₂ : system.Run ConnectSucceeds [_, .send ⟨true, true, true⟩] _ :=
    run_snoc h₁ (fun _ => ⟨rfl, rfl⟩) (.send rfl)
  exact ⟨_, _, h₂, rfl, (notStuck_iff (h₂.mono fun _ _ _ => trivial)).mpr h₂⟩

end QuicTask

end Quicup.Ueransim
