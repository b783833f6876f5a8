import Mathlib.Data.List.AList
import Siren.Lib.Machine
import Siren.Net.SocketsOps
import Siren.Net.TcpConnection.Basic

/-!
# `TcpServer` and its loops

The server lives on its base loop, its connections on the loops of the pool, or on the base loop when the
pool is empty. A close starts on the loop of the connection (`handleClose`), goes to the base loop
(`removeConnectionInLoop`) and comes back (`connectDestroyed`); the destructor runs on the base loop and
hands `connectDestroyed` of every connection to its loop. Each loop has one list of functors, run in the
order they were queued. Steps of different loops interleave in any way.

Of a connection there is its `state_` here; that its `closeCallback_` is `removeConnection` bound to the raw
pointer of the server is what `closeCallback` does.
-/

namespace Siren

namespace TcpServer

open TcpConnection (StateE)

/-- The base loop and the loops of `threadPool_`. -/
inductive LoopId where
  | base
  | io (i : Nat)
  deriving DecidableEq

/-- A connection object: which one it is, and what it was constructed with. -/
structure Conn where
  id : Nat
  name : Text
  loop : LoopId
  deriving DecidableEq

inductive Functor where
  | connectEstablished (conn : Conn)
  | connectDestroyed (conn : Conn)
  | removeConnectionInLoop (conn : Conn)
  deriving DecidableEq

inductive Failure where
  /-- `assert(n == 1)` in `removeConnectionInLoop`. -/
  | notErased
  /-- `assert(state_ == kConnecting)` in `connectEstablished`. -/
  | notConnecting
  /-- An assertion of `channel_->remove()` in `connectDestroyed`. -/
  | channelInUse
  /-- `removeConnection` or `removeConnectionInLoop` on a server whose destructor has completed. -/
  | serverGone
  deriving DecidableEq

/-- Where `~TcpServer` is. -/
inductive Lifetime where
  | alive
  | destroying
  | destroyed
  deriving DecidableEq

end TcpServer

structure TcpServer where
  ipPort_ : Text
  name_ : Text
  /-- `threadPool_->loops_.size()` -/
  loops : Nat
  /-- `threadPool_->next_` -/
  next_ : Nat
  nextConnId_ : Int
  connections_ : AList fun _ : Text => TcpServer.Conn

namespace TcpServer

open TcpConnection (StateE)

/-- A server that has accepted nothing, on a pool of so many threads. -/
def fresh (ipPort nameArg : Text) (loops : Nat) : TcpServer := ⟨ipPort, nameArg, loops, 0, 1, ∅⟩

/-- The constructor. -/
def new (ntop : Sockets.InetNtop) (listenAddr : Sockets.SockAddr) (nameArg : Text) (loops : Nat) :
    Except Sockets.Failure TcpServer := do
  let ipPort ← InetAddress.toIpPort ntop listenAddr
  return fresh ipPort nameArg loops

/-- `EventLoopThreadPool::getNextLoop` -/
def getNextLoop (server : TcpServer) : LoopId × TcpServer :=
  if server.loops = 0 then (.base, server)
  else
    let next := server.next_ + 1
    (.io server.next_, { server with next_ := if server.loops ≤ next then 0 else next })

/-- `buf` of `newConnection`. -/
def connBuf (server : TcpServer) : Text :=
  snprintf 64 ('-' :: server.ipPort_ ++ '#' :: formatInt server.nextConnId_)

/-- `connName` of `newConnection`. -/
def connName (server : TcpServer) : Text := server.name_ ++ server.connBuf

/-! ### The server, its connections and the loops -/

structure State where
  server : TcpServer
  lifetime : Lifetime
  /-- The functors of each loop, the next one to run first. -/
  queues : LoopId → List Functor
  /-- The connection of which the loop is in `handleClose`, before `closeCallback_`. -/
  closing : LoopId → Option Conn
  /-- `state_` of each connection. -/
  states : Nat → StateE
  /-- History: the connections constructed. -/
  accepted : List Conn
  /-- History: the connections removed by `removeConnectionInLoop`. -/
  removed : List Conn
  /-- History: the runs of `connectDestroyed`. -/
  destroyed : List Conn
  /-- History: entries of `connections_` that `newConnection` overwrote. -/
  overwritten : List Conn

/-- A constructed server. -/
def State.init (server : TcpServer) : State :=
  ⟨server, .alive, fun _ => [], fun _ => none, fun _ => .kConnecting, [], [], [], []⟩

def State.queueInLoop (s : State) (loop : LoopId) (f : Functor) : State :=
  { s with queues := Function.update s.queues loop (s.queues loop ++ [f]) }

def State.setState (s : State) (conn : Conn) (state : StateE) : State :=
  { s with states := Function.update s.states conn.id state }

def State.connectEstablished (s : State) (conn : Conn) : Except Failure State := do
  cassert (s.states conn.id = .kConnecting) Failure.notConnecting
  return s.setState conn .kConnected

/-- `channel_->remove()` wants the channel registered and without interest: `kConnecting` was never
registered, `kDisconnecting` still reads. -/
def State.connectDestroyed (s : State) (conn : Conn) : Except Failure State := do
  let s := if s.states conn.id = .kConnected then s.setState conn .kDisconnected else s
  cassert (s.states conn.id = .kDisconnected) Failure.channelInUse
  return { s with destroyed := s.destroyed ++ [conn] }

def State.removeConnectionInLoop (s : State) (conn : Conn) : Except Failure State := do
  cassert (s.lifetime ≠ .destroyed) Failure.serverGone
  let n := if conn.name ∈ s.server.connections_ then 1 else 0
  cassert (n = 1) Failure.notErased
  let server := { s.server with connections_ := s.server.connections_.erase conn.name }
  return State.queueInLoop { s with server, removed := s.removed ++ [conn] } conn.loop
    (.connectDestroyed conn)

/-- `removeConnection`, called on the thread of `here`. -/
def State.removeConnection (s : State) (here : LoopId) (conn : Conn) : Except Failure State := do
  cassert (s.lifetime ≠ .destroyed) Failure.serverGone
  if here = .base then s.removeConnectionInLoop conn
  else return s.queueInLoop .base (.removeConnectionInLoop conn)

def State.runFunctor (s : State) : Functor → Except Failure State
  | .connectEstablished conn => s.connectEstablished conn
  | .connectDestroyed conn => s.connectDestroyed conn
  | .removeConnectionInLoop conn => s.removeConnectionInLoop conn

/-- `loop->runInLoop(f)` on the thread of the base loop. -/
def State.runInLoop (s : State) (loop : LoopId) (f : Functor) : Except Failure State :=
  if loop = .base then s.runFunctor f else .ok (s.queueInLoop loop f)

/-- The connection that `newConnection` constructs next. -/
def State.nextConn (s : State) : Conn :=
  let (ioLoop, server) := s.server.getNextLoop
  ⟨s.accepted.length, server.connName, ioLoop⟩

/-- `newConnection` up to the entry in `connections_`. -/
def State.enterConnection (s : State) : State :=
  let conn := s.nextConn
  let (_, server) := s.server.getNextLoop
  { s with
    server := { server with
      nextConnId_ := toInt (server.nextConnId_ + 1)
      connections_ := server.connections_.insert conn.name conn }
    states := Function.update s.states conn.id .kConnecting
    accepted := s.accepted ++ [conn]
    overwritten := s.overwritten ++ (server.connections_.lookup conn.name).toList }

def State.newConnection (s : State) : Except Failure State :=
  s.enterConnection.runInLoop s.nextConn.loop (.connectEstablished s.nextConn)

/-- `handleClose` of a connection up to `connectionCallback_`. -/
def State.handleClose (s : State) (conn : Conn) : State :=
  { s.setState conn .kDisconnected with closing := Function.update s.closing conn.loop (some conn) }

/-- The end of `handleClose`: `closeCallback_` is `removeConnection` of the server. -/
def State.closeCallback (s : State) (loop : LoopId) : Except Failure State :=
  match s.closing loop with
  | none => .ok s
  | some conn =>
    State.removeConnection { s with closing := Function.update s.closing loop none } loop conn

def State.runNext (s : State) (loop : LoopId) : Except Failure State :=
  match s.queues loop with
  | [] => .ok s
  | f :: rest => State.runFunctor { s with queues := Function.update s.queues loop rest } f

/-- One round of the loop in `~TcpServer`: the entry is reset and `connectDestroyed` goes to its loop. -/
def State.destroyNext (s : State) (name : Text) : Except Failure State :=
  match s.server.connections_.lookup name with
  | none => .ok s
  | some conn =>
    State.runInLoop
      { s with server := { s.server with connections_ := s.server.connections_.erase name } }
      conn.loop (.connectDestroyed conn)

/-! ### Steps -/

inductive Label where
  | newConnection
  /-- `shutdown()` or `forceClose()`, on any thread. -/
  | disconnect (conn : Conn)
  /-- An event or a functor of the connection's loop ends in `handleClose`. -/
  | handleClose (conn : Conn)
  /-- `handleClose` comes to `closeCallback_`. -/
  | closeCallback (loop : LoopId)
  /-- The loop runs its next functor. -/
  | runNext (loop : LoopId)
  /-- `~TcpServer` begins. -/
  | beginDestroy
  | destroyNext (name : Text)
  /-- The members of the server are destroyed. -/
  | endDestroy
  deriving DecidableEq

/-- The thread of the loop is free for another step of its own. -/
def State.free (s : State) (loop : LoopId) : Prop :=
  s.closing loop = none ∧ (loop = .base → s.lifetime ≠ .destroying)

instance (s : State) (loop : LoopId) : Decidable (s.free loop) := by
  unfold State.free
  infer_instance

def Enabled (s : State) : Label → Prop
  | .newConnection => s.lifetime = .alive ∧ s.free .base
  | .disconnect conn => conn ∈ s.accepted ∧ s.states conn.id = .kConnected
  | .handleClose conn =>
    conn ∈ s.accepted ∧ (s.states conn.id = .kConnected ∨ s.states conn.id = .kDisconnecting) ∧
      s.free conn.loop
  | .closeCallback loop => s.closing loop ≠ none ∧ (loop = .base → s.lifetime ≠ .destroying)
  | .runNext loop => s.queues loop ≠ [] ∧ s.free loop
  | .beginDestroy => s.lifetime = .alive
  | .destroyNext name => s.lifetime = .destroying ∧ name ∈ s.server.connections_
  | .endDestroy => s.lifetime = .destroying ∧ s.server.connections_.keys = []

instance (s : State) : (a : Label) → Decidable (Enabled s a)
  | .newConnection | .disconnect _ | .handleClose _ | .closeCallback _ | .runNext _ | .beginDestroy
  | .destroyNext _ | .endDestroy => by
    unfold Enabled
    infer_instance

def effect (s : State) : Label → Except Failure State
  | .newConnection => s.newConnection
  | .disconnect conn => .ok (s.setState conn .kDisconnecting)
  | .handleClose conn => .ok (s.handleClose conn)
  | .closeCallback loop => s.closeCallback loop
  | .runNext loop => s.runNext loop
  | .beginDestroy => .ok { s with lifetime := .destroying }
  | .destroyNext name => s.destroyNext name
  | .endDestroy => .ok { s with lifetime := .destroyed }

def step (s : State) (a : Label) : Option (Except Failure State) :=
  if Enabled s a then some (effect s a) else none

/-- A server with its connections on any number of loops. -/
def runs : Machine (Except Failure State) Label := .ofExcept step

theorem step_eq_some {s : State} {a : Label} {r : Except Failure State} :
    step s a = some r ↔ Enabled s a ∧ effect s a = r := by
  simp [step]

end TcpServer

end Siren
