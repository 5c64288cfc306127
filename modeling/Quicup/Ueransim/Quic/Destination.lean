import Quicup.Ueransim.Quic.Connection

/-!
# Where the datagrams go

A request carries the address of its UPF, and the task has one connection. The
address counts for the request that opens the connection, and every later request
is sent on the connection that is there.
-/

namespace Quicup.Ueransim.QuicTask

/-- Everything passed to `DatagramSend` was passed with a connection that was opened
for the address of its request. -/
def SentToRequested (s : QuicTask) : Prop :=
  ∀ h ∈ s.handed, ∃ conn, h.1 = some conn ∧ s.remote conn = some h.2.ip

/-- A request that is handled while the task is connected finds a connection to its
address, and requests that are queued together have one address. -/
def OneDestination (s : QuicTask) : Event → Prop
  | .send _ => s.quicState = .connected →
    ∀ ctx ∈ s.sending, ∃ conn, s.connection = some conn ∧ s.remote conn = some ctx.ip
  | .connected _ _ => ∀ first ∈ s.pendingContexts.head?, ∀ ctx ∈ s.pendingContexts,
    ctx.ip = first.ip
  | _ => True

variable {s t : QuicTask}

theorem sentToRequested_of_handed (hremote : ∀ i, t.remote i = s.remote i)
    (hhanded : t.handed = s.handed) : t.SentToRequested ↔ s.SentToRequested := by
  simp only [SentToRequested, hremote, hhanded]

/-- What is passed to `DatagramSend` is judged by the connection of the task. -/
theorem sentToRequested_append (hremote : ∀ i, t.remote i = s.remote i)
    (contexts : List SendContext)
    (hhanded : t.handed = s.handed ++ contexts.map fun ctx => (s.connection, ctx)) :
    t.SentToRequested ↔ s.SentToRequested ∧
      ∀ ctx ∈ contexts, ∃ conn, s.connection = some conn ∧ s.remote conn = some ctx.ip := by
  simp only [SentToRequested, hremote, hhanded, List.forall_mem_append, List.forall_mem_map]

/-- Opening a connection leaves the earlier ones as they are. -/
theorem Tracked.sentToRequested_of_append (h : s.Tracked) {c : Connection}
    (hconnections : t.connections = s.connections ++ [c]) (hhanded : t.handed = s.handed) :
    t.SentToRequested ↔ s.SentToRequested := by
  have hremote {h' : Option Nat × SendContext} (hmem : h' ∈ s.handed) {conn : Nat}
      (hconn : h'.1 = some conn) : t.remote conn = s.remote conn := by
    have hlt := h.handles conn (.inr (List.mem_map.mpr ⟨h', hmem, hconn⟩))
    rw [remote_of_append hconnections, if_neg (Nat.ne_of_lt hlt)]
  rw [SentToRequested, hhanded]
  refine forall₂_congr fun h' hmem => exists_congr fun conn => and_congr_right fun hconn => ?_
  rw [hremote hmem hconn]

theorem Tracked.sentToRequested_send (h : s.Tracked) {ctx : SendContext}
    (hsending : s.sending = some ctx) (results : ApiResults) :
    (s.send ctx results).SentToRequested ↔
      s.SentToRequested ∧ OneDestination s (.send results) := by
  rw [OneDestination, hsending]
  cases hstate : s.quicState with
  | disconnected =>
    have hsame : (s.send ctx results).SentToRequested ↔ s.SentToRequested := by
      rw [send_disconnected hstate, connect]
      split
      · exact .rfl
      · exact h.sentToRequested_of_append rfl rfl
    rw [hsame]
    exact ⟨fun hs => ⟨hs, fun hconnected => by cases hconnected⟩, And.left⟩
  | connecting =>
    rw [send_connecting hstate]
    exact ⟨fun hs => ⟨hs, fun hconnected => by cases hconnected⟩, And.left⟩
  | connected =>
    rw [send_connected hstate]
    have hremote (i : Nat) :
        (executeSend { s with sending := none } results.datagramSend ctx).remote i =
          s.remote i :=
      congrArg (fun connections : List Connection => (connections[i]?).map Connection.remote)
        (executeSend_connections ..)
    rw [sentToRequested_append hremote [ctx] (executeSend_handed ..)]
    simp only [List.mem_singleton, forall_eq, Option.mem_def, Option.some.injEq, forall_eq',
      true_implies]

/-- The queue is flushed on the connection that its first request opened. -/
theorem Tracked.sentToRequested_connected (h : s.Tracked) {conn : Nat}
    (hphase : s.phase conn = some .started) (accepts : Nat → Bool) :
    (s.onConnected conn accepts).SentToRequested ↔
      s.SentToRequested ∧ OneDestination s (.connected conn accepts) := by
  obtain ⟨hstate, hconnection, hremote⟩ := h.started conn hphase
  have hhanded : (s.onConnected conn accepts).handed =
      s.handed ++ s.pendingContexts.map fun ctx => (s.connection, ctx) := flush_handed ..
  rw [sentToRequested_append (remote_of_setPhase (flush_connections ..)) _ hhanded, OneDestination]
  obtain ⟨first, rest, hpending⟩ := List.exists_cons_of_ne_nil (h.queue.mp hstate)
  rw [hpending] at hremote ⊢
  have hfirst : s.remote conn = some first.ip := hremote first rfl
  simp only [hconnection, Option.some.injEq, exists_eq_left', hfirst, List.head?_cons,
    Option.mem_def, forall_eq', eq_comm]

theorem Tracked.sentToRequested_step {e : Event} (h : s.Tracked) (hstep : Step s e t) :
    t.SentToRequested ↔ s.SentToRequested ∧ OneDestination s e := by
  cases hstep with
  | beginSend _ => exact (and_iff_left trivial).symm
  | send hsending => exact h.sentToRequested_send hsending _
  | connected hphase => exact h.sentToRequested_connected hphase _
  | @beginShutdownComplete conn _ =>
    have hconnections : (s.beginShutdownComplete conn).connections = s.setPhase conn .closing := rfl
    exact (sentToRequested_of_handed (remote_of_setPhase hconnections) rfl).trans
      (and_iff_left trivial).symm
  | @shutdownComplete conn _ =>
    have hconnections : (s.onShutdownComplete conn).connections = s.setPhase conn .closed :=
      purge_connections ..
    exact (sentToRequested_of_handed (remote_of_setPhase hconnections) (purge_handed ..)).trans
      (and_iff_left trivial).symm
  | datagramSendStateChanged _ =>
    rw [onDatagramSendStateChanged]
    split <;> exact (and_iff_left trivial).symm

/-- Every datagram goes to the address of its request in exactly the runs in which
no request met a connection that was opened for another. -/
theorem sentToRequested_iff {events : List Event}
    (h : system.Run System.unrestricted events s) :
    s.SentToRequested ↔ system.Run OneDestination events s := by
  refine h.good_iff tracked (fun s hinit => ?_) fun _ _ _ => Tracked.sentToRequested_step
  rw [show s = {} from hinit]
  exact nofun

/-- Two requests for different addresses, the second one while the task is connected. -/
theorem sentToRequested_second :
    ¬∀ events s, system.Run System.unrestricted events s → s.SentToRequested := by
  intro hall
  have h₀ : system.Run System.unrestricted [] {} := .nil rfl
  have h₁ : system.Run System.unrestricted
      [.beginSend ⟨⟨[10, 0, 0, 1], InetAddress.quicPort⟩, []⟩] _ :=
    run_snoc h₀ trivial (.beginSend rfl)
  have h₂ : system.Run System.unrestricted [_, .send ⟨true, true, true⟩] _ :=
    run_snoc h₁ trivial (.send rfl)
  have h₃ : system.Run System.unrestricted [_, _, .connected 0 fun _ => true] _ :=
    run_snoc h₂ trivial (.connected rfl)
  have h₄ : system.Run System.unrestricted
      [_, _, _, .beginSend ⟨⟨[10, 0, 0, 2], InetAddress.quicPort⟩, []⟩] _ :=
    run_snoc h₃ trivial (.beginSend rfl)
  have h₅ : system.Run System.unrestricted [_, _, _, _, .send ⟨true, true, true⟩] _ :=
    run_snoc h₄ trivial (.send rfl)
  obtain ⟨conn, hconn, hremote⟩ := hall _ _ h₅ _ (List.mem_cons_of_mem _ (List.mem_singleton_self _))
  cases hconn
  exact nomatch congrArg (Option.map InetAddress.address) hremote

/-- One request, queued and sent when its connection is there. -/
theorem sentToRequested_first :
    ∃ events s, system.Run OneDestination events s ∧ s.handed.length = 1 ∧ s.SentToRequested := by
  have h₀ : system.Run OneDestination [] {} := .nil rfl
  have h₁ : system.Run OneDestination
      [.beginSend ⟨⟨[10, 0, 0, 1], InetAddress.quicPort⟩, []⟩] _ :=
    run_snoc h₀ trivial (.beginSend rfl)
  have h₂ : system.Run OneDestination [_, .send ⟨true, true, true⟩] _ :=
    run_snoc h₁ nofun (.send rfl)
  have h₃ : system.Run OneDestination [_, _, .connected 0 fun _ => true] _ :=
    run_snoc h₂ (fun _ hfirst _ hctx => congrArg SendContext.ip
      ((List.mem_singleton.mp hctx).trans (Option.some.inj hfirst))) (.connected rfl)
  exact ⟨_, _, h₃, rfl, (sentToRequested_iff (h₃.mono fun _ _ _ => trivial)).mpr h₃⟩

end Quicup.Ueransim.QuicTask
