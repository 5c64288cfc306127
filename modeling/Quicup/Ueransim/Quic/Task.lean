import Quicup.Core.System
import Quicup.Ueransim.Utils.Network

/-!
# The QUIC task of the gNB

`quic/task.cpp` as a transition system. The task thread takes a request,
allocates its context and then runs the rest of `send` under the state lock. The
connection callback runs on a worker of msquic, and its handling of the shutdown
releases the connection before it takes the lock. The results of the msquic
calls are part of the events. What msquic owns, what was handed to it and what
was freed are recorded beside the state of the task.
-/

namespace Quicup.Ueransim

/-! ## The context pool -/

/-- Where a context is placed. -/
inductive Block
  | pooled (index : Nat)
  | heap (id : Nat)
  deriving DecidableEq

/-- The number of the block within the pool. -/
def Block.index? : Block → Option Nat
  | .pooled index => some index
  | .heap _ => none

namespace SendContextPool

def capacity : Nat := 4096

end SendContextPool

/-- The free blocks of the pool. The last one is given out first. -/
structure SendContextPool where
  pool : List Nat := List.range SendContextPool.capacity

namespace SendContextPool

/-- A free block, or else a new one from the heap. -/
def allocate (p : SendContextPool) (fresh : Nat) : Block × SendContextPool :=
  match p.pool.getLast? with
  | none => (.heap fresh, p)
  | some index => (.pooled index, ⟨p.pool.dropLast⟩)

def deallocate (p : SendContextPool) : Block → SendContextPool
  | .pooled index => ⟨p.pool ++ [index]⟩
  | .heap _ => p

end SendContextPool

/-! ## State -/

structure NmGnbGtpToQuic where
  ip : InetAddress
  data : OctetString
  deriving DecidableEq

/-- A send context, with the number and the address of the request it was made for. -/
structure SendContext where
  block : Block
  payload : OctetString
  request : Nat
  ip : InetAddress
  deriving DecidableEq

inductive QuicState
  | disconnected
  | connecting
  | connected
  deriving DecidableEq

/-- How far a connection of msquic has come. It is `closing` while its shutdown is
being handled. -/
inductive ConnectionPhase
  | opened
  | started
  | connected
  | closing
  | closed
  deriving DecidableEq

structure Connection where
  remote : InetAddress
  phase : ConnectionPhase
  deriving DecidableEq

/-- The task, and behind it what is known of msquic. A handle is an index into the
connections opened so far. -/
structure QuicTask where
  quicState : QuicState := .disconnected
  connection : Option Nat := none
  pendingContexts : List SendContext := []
  contextPool : SendContextPool := {}
  /-- The context that `send` has allocated and not passed on yet. -/
  sending : Option SendContext := none
  connections : List Connection := []
  /-- Contexts of the datagrams msquic accepted and has not reported a final state for. -/
  owned : List SendContext := []
  /-- Everything passed to `DatagramSend`, with the handle it was passed with. -/
  handed : List (Option Nat × SendContext) := []
  freed : List SendContext := []
  /-- Number of requests taken. -/
  requests : Nat := 0

/-- What the msquic calls within one `send` return. A resumption ticket that is not
accepted is only logged, so `SetParam` has no result here. -/
structure ApiResults where
  connectionOpen : Bool
  connectionStart : Bool
  datagramSend : Bool
  deriving DecidableEq

inductive DatagramSendState
  | unknown
  | sent
  | lostSuspect
  | lostDiscarded
  | acknowledged
  | acknowledgedSpurious
  | canceled
  deriving DecidableEq

/-- The states after which the context is deleted. -/
def DatagramSendState.isFinal : DatagramSendState → Bool
  | .acknowledged | .acknowledgedSpurious | .canceled | .lostDiscarded => true
  | .unknown | .sent | .lostSuspect => false

namespace QuicTask

variable (s : QuicTask) {t : QuicTask} {c : Connection}

def setPhase (conn : Nat) (phase : ConnectionPhase) : List Connection :=
  s.connections.modify conn fun c => { c with phase }

/-! ## Sending -/

/-- `delete` of a context. -/
def delete (ctx : SendContext) : QuicTask :=
  { s with contextPool := s.contextPool.deallocate ctx.block, freed := s.freed ++ [ctx] }

/-- `DatagramSend` refuses every datagram when there is no connection. -/
def executeSend (accepts : Bool) (ctx : SendContext) : QuicTask :=
  let s := { s with handed := s.handed ++ [(s.connection, ctx)] }
  if accepts && s.connection.isSome then { s with owned := s.owned ++ [ctx] }
  else s.delete ctx

@[simp] theorem executeSend_pendingContexts (accepts : Bool) (ctx : SendContext) :
    (s.executeSend accepts ctx).pendingContexts = s.pendingContexts := by
  rw [executeSend]
  split <;> rfl

@[simp] theorem executeSend_sending (accepts : Bool) (ctx : SendContext) :
    (s.executeSend accepts ctx).sending = s.sending := by
  rw [executeSend]
  split <;> rfl

@[simp] theorem executeSend_requests (accepts : Bool) (ctx : SendContext) :
    (s.executeSend accepts ctx).requests = s.requests := by
  rw [executeSend]
  split <;> rfl

@[simp] theorem executeSend_quicState (accepts : Bool) (ctx : SendContext) :
    (s.executeSend accepts ctx).quicState = s.quicState := by
  rw [executeSend]
  split <;> rfl

@[simp] theorem executeSend_connection (accepts : Bool) (ctx : SendContext) :
    (s.executeSend accepts ctx).connection = s.connection := by
  rw [executeSend]
  split <;> rfl

@[simp] theorem executeSend_connections (accepts : Bool) (ctx : SendContext) :
    (s.executeSend accepts ctx).connections = s.connections := by
  rw [executeSend]
  split <;> rfl

@[simp] theorem executeSend_handed (accepts : Bool) (ctx : SendContext) :
    (s.executeSend accepts ctx).handed = s.handed ++ [(s.connection, ctx)] := by
  rw [executeSend]
  split <;> rfl

/-- The handle of a connection that is opened and not started is kept. -/
def connect (dest : InetAddress) (results : ApiResults) : QuicTask :=
  if !results.connectionOpen then s
  else
    { s with
      connection := some s.connections.length
      connections := s.connections ++
        [⟨dest, if results.connectionStart then .started else .opened⟩] }

/-- The allocation in front of the lock in `send`. -/
def beginSend (w : NmGnbGtpToQuic) : QuicTask :=
  let allocated := s.contextPool.allocate s.requests
  { s with contextPool := allocated.2
           sending := some ⟨allocated.1, w.data, s.requests, w.ip⟩
           requests := s.requests + 1 }

/-- `send` behind the lock. -/
def send (ctx : SendContext) (results : ApiResults) : QuicTask :=
  let s := { s with sending := none }
  match s.quicState with
  | .disconnected =>
    connect { s with quicState := .connecting, pendingContexts := s.pendingContexts ++ [ctx] }
      ctx.ip results
  | .connecting => { s with pendingContexts := s.pendingContexts ++ [ctx] }
  | .connected => s.executeSend results.datagramSend ctx

theorem send_disconnected {s : QuicTask} (h : s.quicState = .disconnected) (ctx : SendContext)
    (results : ApiResults) :
    s.send ctx results =
      connect { s with quicState := .connecting,
                       pendingContexts := s.pendingContexts ++ [ctx],
                       sending := none } ctx.ip results := by
  rw [send]
  split
  · rfl
  · rename_i hstate
    exact nomatch h.symm.trans hstate
  · rename_i hstate
    exact nomatch h.symm.trans hstate

theorem send_connecting {s : QuicTask} (h : s.quicState = .connecting) (ctx : SendContext)
    (results : ApiResults) :
    s.send ctx results =
      { s with pendingContexts := s.pendingContexts ++ [ctx], sending := none } := by
  rw [send]
  split
  · rename_i hstate
    exact nomatch h.symm.trans hstate
  · rfl
  · rename_i hstate
    exact nomatch h.symm.trans hstate

theorem send_connected {s : QuicTask} (h : s.quicState = .connected) (ctx : SendContext)
    (results : ApiResults) :
    s.send ctx results = executeSend { s with sending := none } results.datagramSend ctx := by
  rw [send]
  split
  · rename_i hstate
    exact nomatch h.symm.trans hstate
  · rename_i hstate
    exact nomatch h.symm.trans hstate
  · rfl

/-! ## The connection callback -/

/-- The loop that sends the queued contexts. -/
def flush (accepts : Nat → Bool) : List SendContext → QuicTask → QuicTask
  | [], s => { s with pendingContexts := [] }
  | ctx :: rest, s =>
    flush accepts rest (executeSend { s with pendingContexts := rest } (accepts ctx.request) ctx)

@[simp] theorem flush_quicState (accepts : Nat → Bool) (queue : List SendContext) :
    (flush accepts queue s).quicState = s.quicState := by
  induction queue generalizing s with
  | nil => rfl
  | cons ctx rest ih => rw [flush, ih, executeSend_quicState]

@[simp] theorem flush_sending (accepts : Nat → Bool) (queue : List SendContext) :
    (flush accepts queue s).sending = s.sending := by
  induction queue generalizing s with
  | nil => rfl
  | cons ctx rest ih => rw [flush, ih, executeSend_sending]

@[simp] theorem flush_requests (accepts : Nat → Bool) (queue : List SendContext) :
    (flush accepts queue s).requests = s.requests := by
  induction queue generalizing s with
  | nil => rfl
  | cons ctx rest ih => rw [flush, ih, executeSend_requests]

@[simp] theorem flush_connection (accepts : Nat → Bool) (queue : List SendContext) :
    (flush accepts queue s).connection = s.connection := by
  induction queue generalizing s with
  | nil => rfl
  | cons ctx rest ih => rw [flush, ih, executeSend_connection]

@[simp] theorem flush_connections (accepts : Nat → Bool) (queue : List SendContext) :
    (flush accepts queue s).connections = s.connections := by
  induction queue generalizing s with
  | nil => rfl
  | cons ctx rest ih => rw [flush, ih, executeSend_connections]

@[simp] theorem flush_pendingContexts (accepts : Nat → Bool) (queue : List SendContext) :
    (flush accepts queue s).pendingContexts = [] := by
  induction queue generalizing s with
  | nil => rfl
  | cons ctx rest ih => rw [flush, ih]

@[simp] theorem flush_handed (accepts : Nat → Bool) (queue : List SendContext) :
    (flush accepts queue s).handed = s.handed ++ queue.map fun ctx => (s.connection, ctx) := by
  induction queue generalizing s with
  | nil => exact (List.append_nil _).symm
  | cons ctx rest ih =>
    rw [flush, ih, executeSend_handed, executeSend_connection, List.append_assoc]
    rfl

def onConnected (conn : Nat) (accepts : Nat → Bool) : QuicTask :=
  flush accepts s.pendingContexts
    { s with quicState := .connected, connections := s.setPhase conn .connected }

/-- The handling of `SHUTDOWN_COMPLETE` in front of the lock. -/
def beginShutdownComplete (conn : Nat) : QuicTask :=
  { s with connection := none, connections := s.setPhase conn .closing }

/-- The loop that deletes the queued contexts. -/
def purge : List SendContext → QuicTask → QuicTask
  | [], s => { s with pendingContexts := [] }
  | ctx :: rest, s => purge rest (delete { s with pendingContexts := rest } ctx)

@[simp] theorem purge_quicState (queue : List SendContext) : (purge queue s).quicState = s.quicState := by
  induction queue generalizing s with
  | nil => rfl
  | cons ctx rest ih => exact ih _

@[simp] theorem purge_sending (queue : List SendContext) : (purge queue s).sending = s.sending := by
  induction queue generalizing s with
  | nil => rfl
  | cons ctx rest ih => exact ih _

@[simp] theorem purge_requests (queue : List SendContext) : (purge queue s).requests = s.requests := by
  induction queue generalizing s with
  | nil => rfl
  | cons ctx rest ih => exact ih _

@[simp] theorem purge_connection (queue : List SendContext) : (purge queue s).connection = s.connection := by
  induction queue generalizing s with
  | nil => rfl
  | cons ctx rest ih => exact ih _

@[simp] theorem purge_connections (queue : List SendContext) : (purge queue s).connections = s.connections := by
  induction queue generalizing s with
  | nil => rfl
  | cons ctx rest ih => exact ih _

@[simp] theorem purge_handed (queue : List SendContext) : (purge queue s).handed = s.handed := by
  induction queue generalizing s with
  | nil => rfl
  | cons ctx rest ih => exact ih _

@[simp] theorem purge_pendingContexts (queue : List SendContext) :
    (purge queue s).pendingContexts = [] := by
  induction queue generalizing s with
  | nil => rfl
  | cons ctx rest ih => exact ih _

/-- The handling of `SHUTDOWN_COMPLETE` behind the lock. -/
def onShutdownComplete (conn : Nat) : QuicTask :=
  purge s.pendingContexts
    { s with quicState := .disconnected, connections := s.setPhase conn .closed }

def onDatagramSendStateChanged (ctx : SendContext) (state : DatagramSendState) : QuicTask :=
  if state.isFinal then delete { s with owned := s.owned.erase ctx } ctx else s

/-! ## The connections -/

/-- The phase of a connection. -/
def phase (conn : Nat) : Option ConnectionPhase := (s.connections[conn]?).map Connection.phase

/-- The address a connection was opened for. -/
def remote (conn : Nat) : Option InetAddress := (s.connections[conn]?).map Connection.remote

theorem getElem?_of_setPhase {s : QuicTask} {conn : Nat} {phase : ConnectionPhase}
    (h : t.connections = s.setPhase conn phase) (i : Nat) :
    t.connections[i]? =
      if conn = i then s.connections[i]?.map fun c => { c with phase } else s.connections[i]? := by
  rw [h, setPhase, List.getElem?_modify]
  split
  · rfl
  · exact Option.map_id'

theorem getElem?_of_append {s : QuicTask} (h : t.connections = s.connections ++ [c]) (i : Nat) :
    t.connections[i]? = if i = s.connections.length then some c else s.connections[i]? := by
  rw [h]
  split
  · rename_i hi
    rw [hi, List.getElem?_concat_length]
  · rcases Nat.lt_or_ge i s.connections.length with hlt | hge
    · exact List.getElem?_append_left hlt
    · rw [List.getElem?_eq_none hge, List.getElem?_eq_none]
      rw [List.length_append, List.length_singleton]
      omega

theorem phase_of_setPhase {s : QuicTask} {conn : Nat} {phase : ConnectionPhase}
    (h : t.connections = s.setPhase conn phase) (i : Nat) :
    t.phase i = if conn = i then (s.phase i).map fun _ => phase else s.phase i := by
  rw [QuicTask.phase, getElem?_of_setPhase h, QuicTask.phase, Option.map_map]
  split
  · exact Option.map_map ..
  · rfl

theorem remote_of_setPhase {s : QuicTask} {conn : Nat} {phase : ConnectionPhase}
    (h : t.connections = s.setPhase conn phase) (i : Nat) : t.remote i = s.remote i := by
  rw [remote, getElem?_of_setPhase h, remote]
  split
  · exact Option.map_map ..
  · rfl

theorem phase_of_append {s : QuicTask} (h : t.connections = s.connections ++ [c]) (i : Nat) :
    t.phase i = if i = s.connections.length then some c.phase else s.phase i := by
  rw [phase, getElem?_of_append h, phase]
  split <;> rfl

theorem remote_of_append {s : QuicTask} (h : t.connections = s.connections ++ [c]) (i : Nat) :
    t.remote i = if i = s.connections.length then some c.remote else s.remote i := by
  rw [remote, getElem?_of_append h, remote]
  split <;> rfl

/-! ## Runs -/

inductive Event
  | beginSend (w : NmGnbGtpToQuic)
  | send (results : ApiResults)
  | connected (conn : Nat) (accepts : Nat → Bool)
  | beginShutdownComplete (conn : Nat)
  | shutdownComplete (conn : Nat)
  | datagramSendStateChanged (ctx : SendContext) (state : DatagramSendState)

/-- The steps of the two threads. A connection that was started is reported as
connected at most once and as shut down once, and a send state is reported for
contexts that msquic owns only. -/
inductive Step : QuicTask → Event → QuicTask → Prop
  | beginSend {s w} : s.sending = none → Step s (.beginSend w) (s.beginSend w)
  | send {s ctx results} : s.sending = some ctx → Step s (.send results) (s.send ctx results)
  | connected {s conn accepts} : s.phase conn = some .started →
      Step s (.connected conn accepts) (s.onConnected conn accepts)
  | beginShutdownComplete {s conn} :
      s.phase conn = some .started ∨ s.phase conn = some .connected →
      Step s (.beginShutdownComplete conn) (s.beginShutdownComplete conn)
  | shutdownComplete {s conn} : s.phase conn = some .closing →
      Step s (.shutdownComplete conn) (s.onShutdownComplete conn)
  | datagramSendStateChanged {s ctx state} : ctx ∈ s.owned →
      Step s (.datagramSendStateChanged ctx state) (s.onDatagramSendStateChanged ctx state)

/-- The task starts disconnected, with every block of the pool free. -/
def system : System QuicTask Event where
  init s := s = {}
  step := Step

theorem run_snoc {P : QuicTask → Event → Prop} {events : List Event} {s : QuicTask} {e : Event}
    (h : system.Run P events s) (hp : P s e) (hstep : Step s e t) :
    system.Run P (events ++ [e]) t :=
  h.snoc hp hstep

end QuicTask

end Quicup.Ueransim
