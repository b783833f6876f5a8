import Siren.Net.TcpConnection.Close

/-!
# The owners of a `TcpConnection`

A connection with everything that holds a `shared_ptr` to it: the map of a `TcpServer` or `connection_` of a
`TcpClient`, functors in the mailboxes of its loop and of the server's, the guard of a dispatch, the local
pointers of the calls that the loop thread is in, and the copies of users on any thread. It is destroyed when
the last of them is gone. `send`, `startRead` and `stopRead` of another thread queue a functor that holds
nothing but `this`.

Calls of other threads have two halves, what they do to the connection and the `queueInLoop` at their end,
and the thread holds the connection in between. The functors of a batch that have been run are destroyed at
the end of the batch. Clients and servers are destroyed on the thread of their loop, at any point. Of the loop
there is what concerns this connection: a poll or a batch begins when the one before is finished.

`step_takes` says what each step does; `owners_eq_zero` says when the connection is destroyed.
-/

namespace Siren.TcpConnection

open Channel (Handler handleEventWithGuard)

/-- Whether the functor holds a `shared_ptr` to the connection. -/
def Functor.owns : Functor → Bool
  | .sendInLoop _ => false
  | .startReadInLoop => false
  | .stopReadInLoop => false
  | _ => true

/-- The functors in the mailbox of the connection's loop. -/
inductive LoopFunctor where
  | connectEstablished
  | connectDestroyed
  | member (f : Functor)
  deriving DecidableEq

def LoopFunctor.owns : LoopFunctor → Bool
  | .connectEstablished => true
  | .connectDestroyed => true
  | .member f => f.owns

inductive Holder where
  | client
  /-- A server on the loop of the connection. -/
  | server
  /-- A server whose pool the loop of the connection is in. -/
  | poolServer
  deriving DecidableEq

inductive CloseCallback where
  /-- `removeConnection` bound to the holder's raw pointer. -/
  | holder
  /-- `detail::removeConnection` -/
  | detached
  deriving DecidableEq

/-- The functions of a connection that come back to it after a callback of the user. -/
inductive Frame where
  | connectEstablished
  | handleClose
  | connectDestroyed
  deriving DecidableEq

inductive Failure where
  /-- A functor runs on a connection that was destroyed. -/
  | destroyed
  /-- `handleEvent` of a channel that was destroyed with its connection. -/
  | channelGone
  /-- `removeConnection` of a holder that was destroyed. -/
  | holderGone
  /-- `assert(n == 1)` of the server, `assert(connection_ == conn)` of the client. -/
  | notHeld
  /-- `assert(state_ == kConnecting)` in `connectEstablished`. -/
  | notConnecting
  | conn (assertion : Assertion)
  | channelRemove (assertion : EPollPoller.Assertion)
  deriving DecidableEq

/-- A connection and what holds it. -/
structure Shared where
  conn : TcpConnection
  holder : Holder
  /-- The destructor of the holder has not run. -/
  alive : Bool
  /-- `connections_` or `connection_` has the connection. -/
  held : Bool
  closeCallback_ : CloseCallback
  /-- The channel waits in `activeChannels_`. -/
  active : Bool
  /-- The `guard` of `Channel::handleEvent`. -/
  guard : Bool
  /-- What is left of `handleEventWithGuard`. -/
  handlers : List Handler
  /-- The calls that the loop thread is in, the innermost first. -/
  frames : List Frame
  pendingFunctors : List LoopFunctor
  /-- The batch of `doPendingFunctors`, less those already run. -/
  functors : List LoopFunctor
  /-- Those already run. -/
  ran : List LoopFunctor
  /-- `removeConnectionInLoop` in the mailbox of the server's loop. -/
  removals : Nat
  /-- Those already run in the batch there. -/
  removalsRan : Nat
  /-- The copies of users. -/
  copies : Nat
  /-- The functors that calls of other threads are about to queue. -/
  calls : List Functor
  /-- `connectDestroyed` has run. -/
  removed : Bool

namespace Shared

variable (s : Shared)

/-- The functors to come. -/
def queue : List LoopFunctor := s.functors ++ s.pendingFunctors

/-- `use_count()` -/
def owners : Nat :=
  s.held.toNat + (s.ran ++ s.queue).countP LoopFunctor.owns + s.removals + s.removalsRan + s.copies +
    s.calls.length + s.guard.toNat + s.frames.length

/-- `loop_->queueInLoop(f)` -/
def queueInLoop (f : LoopFunctor) : Shared := { s with pendingFunctors := s.pendingFunctors ++ [f] }

/-- The state after a member function that turned the connection into `c`. -/
def setConn (c : TcpConnection) : Shared :=
  { s with
    conn := { c with pendingFunctors := [] }
    pendingFunctors := s.pendingFunctors ++ c.pendingFunctors.map .member }

/-! ### What the loop runs -/

/-- `connectEstablished` up to `connectionCallback_`. -/
def connectEstablished : Except Failure Shared := do
  cassert (s.conn.state = .kConnecting) .notConnecting
  return { s with conn := s.conn.connectEstablished, frames := .connectEstablished :: s.frames }

/-- `channel_->remove()`, the end of `connectDestroyed`. -/
def channelRemove : Except Failure Shared :=
  match s.conn.channel.remove () with
  | .error a => .error (.channelRemove a)
  | .ok channel => .ok { s with conn := { s.conn with channel }, removed := true }

/-- `connectDestroyed` up to `connectionCallback_`, or to its end where it calls none. -/
def connectDestroyed : Except Failure Shared :=
  if s.conn.state = .kConnected then
    .ok { s with
      conn := (s.conn.setState .kDisconnected).setInterest .disableAll
      frames := .connectDestroyed :: s.frames }
  else s.channelRemove

/-- `handleClose` up to `closeCallback_`. -/
def handleClose : Except Failure Shared := do
  let conn ← s.conn.handleClose.mapError .conn
  return { s with conn, frames := .handleClose :: s.frames }

def handleRead (result : ReadResult) : Except Failure Shared :=
  if result.count = 0 then
    handleClose { s with conn := { s.conn with inputBuffer := s.conn.inputBuffer.readFd result } }
  else do
    let conn ← (s.conn.handleRead result).mapError .conn
    return s.setConn conn

/-- The next callback of the channel. -/
def runHandler (read : ReadResult) (write : WriteResult) : Handler → Except Failure Shared
  | .close => s.handleClose
  | .error => .ok (s.setConn s.conn.handleError)
  | .read => s.handleRead read
  | .write => .ok (s.setConn (s.conn.handleWrite write))

def forceCloseInLoop : Except Failure Shared :=
  if s.conn.state = .kConnected ∨ s.conn.state = .kDisconnecting then s.handleClose else .ok s

def run (result : WriteResult) : LoopFunctor → Except Failure Shared
  | .connectEstablished => s.connectEstablished
  | .connectDestroyed => s.connectDestroyed
  | .member .forceCloseInLoop => s.forceCloseInLoop
  | .member f => do
    let conn ← (s.conn.runFunctor result f).mapError .conn
    return s.setConn conn

/-! ### The holder -/

/-- `TcpServer::removeConnectionInLoop`, or `TcpClient::removeConnection`, which does the same with
`connection_`. -/
def removeConnectionInLoop : Except Failure Shared := do
  cassert (s.alive = true) .holderGone
  cassert (s.held = true) .notHeld
  return queueInLoop { s with held := false } .connectDestroyed

/-- `removeConnection` -/
def removeConnection : Except Failure Shared :=
  match s.holder with
  | .client | .server => s.removeConnectionInLoop
  | .poolServer => do
    cassert (s.alive = true) .holderGone
    return { s with removals := s.removals + 1 }

def closeCallback : Except Failure Shared :=
  match s.closeCallback_ with
  | .holder => s.removeConnection
  | .detached => .ok (s.queueInLoop .connectDestroyed)

/-- `connection_.unique()` -/
def unique : Prop := s.owners = 1

instance : Decidable s.unique := inferInstanceAs (Decidable (s.owners = 1))

/-- `~TcpClient` -/
def destroyClient : Shared :=
  let s := { s with alive := false }
  if s.held then
    let unique := s.unique
    let s := { s with closeCallback_ := .detached }
    let s := if unique then s.setConn s.conn.forceClose else s
    { s with held := false }
  else s

/-- `~TcpServer` -/
def destroyServer : Except Failure Shared :=
  let s := { s with alive := false }
  if s.held then
    let s := { s with held := false }
    if s.holder = .server then s.connectDestroyed else .ok (s.queueInLoop .connectDestroyed)
  else .ok s

def destroyHolder : Except Failure Shared :=
  match s.holder with
  | .client => .ok s.destroyClient
  | .server | .poolServer => s.destroyServer

/-! ### Steps -/

inductive Label where
  /-- A user copies a `shared_ptr`. -/
  | copy
  | drop
  /-- A call of a user on another thread, up to its `queueInLoop`; it writes nothing. -/
  | beginCall (call : Call)
  | endCall (f : Functor)
  /-- A call of a user on the loop thread. -/
  | request (call : Call) (result : WriteResult)
  /-- A timer of `forceCloseWithDelay` fires. -/
  | delayedForceClose
  /-- The poller reports the descriptor. -/
  | poll (revents : Mask)
  /-- `handleEvent` begins. -/
  | dispatch
  /-- The next callback of it. -/
  | handle (read : ReadResult) (write : WriteResult)
  | endDispatch
  /-- `connectEstablished` returns. -/
  | endEstablished
  /-- `handleClose` comes to `closeCallback_`. -/
  | closeCallback
  /-- `connectDestroyed` comes to `channel_->remove()`. -/
  | channelRemove
  /-- `doPendingFunctors` swaps the functors out. -/
  | swap
  | runFunctor (result : WriteResult)
  /-- `doPendingFunctors` returns. -/
  | endBatch
  /-- The loop of the server runs `removeConnectionInLoop`. -/
  | removeConnectionInLoop
  /-- `doPendingFunctors` returns there. -/
  | endRemoval
  /-- `~TcpClient` or `~TcpServer` -/
  | destroyHolder

/-- The loop thread has finished its last poll and its last batch. -/
def idle : Prop :=
  s.active = false ∧ s.guard = false ∧ s.frames = [] ∧ s.functors = [] ∧ s.ran = []

instance : Decidable s.idle :=
  inferInstanceAs (Decidable (_ = _ ∧ _ = _ ∧ s.frames = [] ∧ s.functors = [] ∧ s.ran = []))

/-- A user has the connection: it hands itself out in its callbacks. -/
def reachable : Prop := s.owners ≠ 0 ∧ s.conn.state ≠ .kConnecting

instance : Decidable s.reachable := inferInstanceAs (Decidable (_ ≠ _ ∧ s.conn.state ≠ .kConnecting))

def step : Label → Option (Except Failure Shared)
  | .copy => if s.reachable then some (.ok { s with copies := s.copies + 1 }) else none
  | .drop => if 0 < s.copies then some (.ok { s with copies := s.copies - 1 }) else none
  | .beginCall call =>
    if 0 < s.copies then
      let c := s.conn.call .other (.wrote 0) call
      some (.ok { s with conn := { c with pendingFunctors := [] }, calls := s.calls ++ c.pendingFunctors })
    else none
  | .endCall f =>
    if f ∈ s.calls then some (.ok (queueInLoop { s with calls := s.calls.erase f } (.member f))) else none
  | .request call result =>
    if s.reachable then some (.ok (s.setConn (s.conn.call .loop result call))) else none
  | .delayedForceClose =>
    if 0 < s.conn.delayedForceCloses then
      let conn := { s.conn with delayedForceCloses := s.conn.delayedForceCloses - 1 }
      some (.ok (if s.owners = 0 then { s with conn } else s.setConn conn.forceClose))
    else none
  | .poll revents =>
    if s.idle then
      (s.conn.channel.poll [((s.conn.channel.channel ()).fd, revents)]).map fun (channel, _) =>
        .ok { s with conn := { s.conn with channel }, active := true }
    else none
  | .dispatch =>
    if s.active ∧ s.guard = false ∧ s.frames = [] then
      if s.owners = 0 then some (.error .channelGone)
      else some (.ok { s with
        active := false
        guard := true
        handlers := handleEventWithGuard (s.conn.channel.channel ()).revents })
    else none
  | .handle read write =>
    if s.guard ∧ s.frames = [] then
      match s.handlers with
      | [] => none
      | handler :: handlers => some (runHandler { s with handlers } read write handler)
    else none
  | .endDispatch =>
    if s.guard ∧ s.frames = [] ∧ s.handlers = [] then some (.ok { s with guard := false }) else none
  | .endEstablished =>
    match s.frames with
    | .connectEstablished :: frames => some (.ok { s with frames })
    | _ => none
  | .closeCallback =>
    match s.frames with
    | .handleClose :: frames => some (closeCallback { s with frames })
    | _ => none
  | .channelRemove =>
    match s.frames with
    | .connectDestroyed :: frames => some (channelRemove { s with frames })
    | _ => none
  | .swap =>
    if s.idle then some (.ok { s with functors := s.pendingFunctors, pendingFunctors := [] }) else none
  | .runFunctor result =>
    if s.frames = [] then
      match s.functors with
      | [] => none
      | f :: functors =>
        if s.owners = 0 then some (.error .destroyed)
        else some (run { s with functors, ran := s.ran ++ [f] } result f)
    else none
  | .endBatch =>
    if s.frames = [] ∧ s.functors = [] then some (.ok { s with ran := [] }) else none
  | .removeConnectionInLoop =>
    if 0 < s.removals then
      some (Shared.removeConnectionInLoop
        { s with removals := s.removals - 1, removalsRan := s.removalsRan + 1 })
    else none
  | .endRemoval => some (.ok { s with removalsRan := 0 })
  | .destroyHolder => if s.alive then some s.destroyHolder else none

/-- A connection that nobody has called yet. -/
def constructed (holder : Holder) (conn : TcpConnection) : Shared where
  conn
  holder
  alive := true
  held := true
  closeCallback_ := .holder
  active := false
  guard := false
  handlers := []
  frames := []
  pendingFunctors := []
  functors := []
  ran := []
  removals := 0
  removalsRan := 0
  copies := 0
  calls := []
  removed := false

/-- `newConnection` has passed `connectEstablished` to the loop of the connection, and is in it where that
is its own. -/
def init (holder : Holder) (conn : TcpConnection) : Shared :=
  match holder with
  | .client | .server =>
    { constructed holder conn with conn := conn.connectEstablished, frames := [.connectEstablished] }
  | .poolServer => { constructed holder conn with pendingFunctors := [.connectEstablished] }

/-- A connection and its owners, until an assertion fails or something destroyed is used. -/
def runs : Machine (Except Failure Shared) Label := .ofExcept step

/-! ### Steps, case by case -/

variable {s}

/-- What a step does, with its guard. -/
inductive Takes (s : Shared) : Label → Except Failure Shared → Prop
  | copy (hreachable : s.reachable) : Takes s .copy (.ok { s with copies := s.copies + 1 })
  | drop (hcopies : 0 < s.copies) : Takes s .drop (.ok { s with copies := s.copies - 1 })
  | beginCall (call : Call) (hcopies : 0 < s.copies) :
    Takes s (.beginCall call) (.ok { s with
      conn := { s.conn.call .other (.wrote 0) call with pendingFunctors := [] }
      calls := s.calls ++ (s.conn.call .other (.wrote 0) call).pendingFunctors })
  | endCall (f : Functor) (hf : f ∈ s.calls) :
    Takes s (.endCall f) (.ok (queueInLoop { s with calls := s.calls.erase f } (.member f)))
  | request (call : Call) (result : WriteResult) (hreachable : s.reachable) :
    Takes s (.request call result) (.ok (s.setConn (s.conn.call .loop result call)))
  | expired (hdelayed : 0 < s.conn.delayedForceCloses) (howners : s.owners = 0) :
    Takes s .delayedForceClose
      (.ok { s with conn := { s.conn with delayedForceCloses := s.conn.delayedForceCloses - 1 } })
  | delayedForceClose (hdelayed : 0 < s.conn.delayedForceCloses) (howners : s.owners ≠ 0) :
    Takes s .delayedForceClose (.ok (s.setConn
      { s.conn with delayedForceCloses := s.conn.delayedForceCloses - 1 }.forceClose))
  | poll (revents : Mask) (channel : MirroredRegistry Unit) (activeChannels : List Unit) (hidle : s.idle)
    (hpoll : s.conn.channel.poll [((s.conn.channel.channel ()).fd, revents)] = some (channel, activeChannels)) :
    Takes s (.poll revents) (.ok { s with conn := { s.conn with channel }, active := true })
  | channelGone (hactive : s.active = true) (howners : s.owners = 0) : Takes s .dispatch (.error .channelGone)
  | dispatch (hactive : s.active = true) (howners : s.owners ≠ 0) : Takes s .dispatch (.ok { s with
      active := false
      guard := true
      handlers := handleEventWithGuard (s.conn.channel.channel ()).revents })
  | handle (read : ReadResult) (write : WriteResult) (handler : Handler) (handlers : List Handler)
    (hguard : s.guard = true) (hframes : s.frames = []) (hhandlers : s.handlers = handler :: handlers) :
    Takes s (.handle read write) (runHandler { s with handlers } read write handler)
  | endDispatch (hguard : s.guard = true) : Takes s .endDispatch (.ok { s with guard := false })
  | endEstablished (frames : List Frame) (hframes : s.frames = .connectEstablished :: frames) :
    Takes s .endEstablished (.ok { s with frames })
  | closeCallback (frames : List Frame) (hframes : s.frames = .handleClose :: frames) :
    Takes s .closeCallback (closeCallback { s with frames })
  | channelRemove (frames : List Frame) (hframes : s.frames = .connectDestroyed :: frames) :
    Takes s .channelRemove (channelRemove { s with frames })
  | swap (hidle : s.idle) :
    Takes s .swap (.ok { s with functors := s.pendingFunctors, pendingFunctors := [] })
  | destroyed (result : WriteResult) (f : LoopFunctor) (functors : List LoopFunctor)
    (hfunctors : s.functors = f :: functors) (howners : s.owners = 0) :
    Takes s (.runFunctor result) (.error .destroyed)
  | runFunctor (result : WriteResult) (f : LoopFunctor) (functors : List LoopFunctor)
    (hframes : s.frames = []) (hfunctors : s.functors = f :: functors) (howners : s.owners ≠ 0) :
    Takes s (.runFunctor result) (run { s with functors, ran := s.ran ++ [f] } result f)
  | endBatch : Takes s .endBatch (.ok { s with ran := [] })
  | removeConnectionInLoop (hremovals : 0 < s.removals) :
    Takes s .removeConnectionInLoop (Shared.removeConnectionInLoop
      { s with removals := s.removals - 1, removalsRan := s.removalsRan + 1 })
  | endRemoval : Takes s .endRemoval (.ok { s with removalsRan := 0 })
  | destroyHolder (halive : s.alive = true) : Takes s .destroyHolder s.destroyHolder

theorem step_takes {a : Label} {r : Except Failure Shared} (h : s.step a = some r) : Takes s a r := by
  cases a with
  | copy =>
    obtain ⟨hreachable, rfl⟩ := Machine.of_ite_eq_some h
    exact .copy hreachable
  | drop =>
    obtain ⟨hcopies, rfl⟩ := Machine.of_ite_eq_some h
    exact .drop hcopies
  | beginCall call =>
    obtain ⟨hcopies, rfl⟩ := Machine.of_ite_eq_some h
    exact .beginCall call hcopies
  | endCall f =>
    obtain ⟨hf, rfl⟩ := Machine.of_ite_eq_some h
    exact .endCall f hf
  | request call result =>
    obtain ⟨hreachable, rfl⟩ := Machine.of_ite_eq_some h
    exact .request call result hreachable
  | delayedForceClose =>
    obtain ⟨hdelayed, h⟩ := Option.ite_none_right_eq_some.mp h
    obtain rfl := Option.some.inj h
    by_cases howners : s.owners = 0
    · rw [if_pos howners]
      exact .expired hdelayed howners
    · rw [if_neg howners]
      exact .delayedForceClose hdelayed howners
  | poll revents =>
    obtain ⟨hidle, h⟩ := Option.ite_none_right_eq_some.mp h
    obtain ⟨⟨channel, activeChannels⟩, hpoll, rfl⟩ := Option.map_eq_some_iff.mp h
    exact .poll revents channel activeChannels hidle hpoll
  | dispatch =>
    obtain ⟨⟨hactive, -⟩, h⟩ := Option.ite_none_right_eq_some.mp h
    split at h
    · rename_i howners
      obtain rfl := Option.some.inj h
      exact .channelGone hactive howners
    · rename_i howners
      obtain rfl := Option.some.inj h
      exact .dispatch hactive howners
  | handle read write =>
    obtain ⟨⟨hguard, hframes⟩, h⟩ := Option.ite_none_right_eq_some.mp h
    split at h
    · cases h
    · rename_i handler handlers hhandlers
      obtain rfl := Option.some.inj h
      exact .handle read write handler handlers hguard hframes hhandlers
  | endDispatch =>
    obtain ⟨⟨hguard, -⟩, rfl⟩ := Machine.of_ite_eq_some h
    exact .endDispatch hguard
  | endEstablished =>
    simp only [step] at h
    split at h
    · rename_i frames hframes
      obtain rfl := Option.some.inj h
      exact .endEstablished frames hframes
    · cases h
  | closeCallback =>
    simp only [step] at h
    split at h
    · rename_i frames hframes
      obtain rfl := Option.some.inj h
      exact .closeCallback frames hframes
    · cases h
  | channelRemove =>
    simp only [step] at h
    split at h
    · rename_i frames hframes
      obtain rfl := Option.some.inj h
      exact .channelRemove frames hframes
    · cases h
  | swap =>
    obtain ⟨hidle, rfl⟩ := Machine.of_ite_eq_some h
    exact .swap hidle
  | runFunctor result =>
    obtain ⟨hframes, h⟩ := Option.ite_none_right_eq_some.mp h
    split at h
    · cases h
    · rename_i f functors hfunctors
      split at h
      · rename_i howners
        obtain rfl := Option.some.inj h
        exact .destroyed result f functors hfunctors howners
      · rename_i howners
        obtain rfl := Option.some.inj h
        exact .runFunctor result f functors hframes hfunctors howners
  | endBatch =>
    obtain ⟨-, rfl⟩ := Machine.of_ite_eq_some h
    exact .endBatch
  | removeConnectionInLoop =>
    obtain ⟨hremovals, rfl⟩ := Machine.of_ite_eq_some h
    exact .removeConnectionInLoop hremovals
  | endRemoval =>
    obtain rfl := Option.some.inj h
    exact .endRemoval
  | destroyHolder =>
    obtain ⟨halive, rfl⟩ := Machine.of_ite_eq_some h
    exact .destroyHolder halive

/-! ### What the loop runs, case by case -/

variable {t : Shared}

/-- `handleClose` of an open connection, up to `closeCallback_`. -/
def closing (s : Shared) : Shared :=
  { s with
    conn := (((s.conn.setState .kDisconnected).setInterest .disableAll).record .connectionDown).record
      .closeCallback
    frames := .handleClose :: s.frames }

theorem handleClose_ok (hok : s.handleClose = .ok t) :
    (s.conn.state = .kDisconnecting ∨ s.conn.state = .kConnected) ∧ t = s.closing := by
  obtain ⟨c, hc, hok⟩ := of_bind_ok hok
  obtain ⟨hopen, hc⟩ := of_cassert_bind (of_mapError_ok hc)
  obtain rfl := Except.ok.inj hc
  exact ⟨hopen, (Except.ok.inj hok).symm⟩

/-- A read closes the connection, or comes to a message or nothing. -/
theorem handleRead_ok {read : ReadResult} (hok : s.handleRead read = .ok t) :
    (∃ c, c.state = s.conn.state ∧ c.channel = s.conn.channel ∧ c.reading = s.conn.reading ∧ t = s.setConn c) ∨
      read = .read [] ∧ ∃ inputBuffer, handleClose { s with conn := { s.conn with inputBuffer } } = .ok t := by
  unfold handleRead at hok
  split at hok
  · rename_i hcount
    refine .inr ⟨?_, _, hok⟩
    cases read with
    | failed => cases hcount
    | read bytes =>
      rw [List.length_eq_zero_iff.mp (Int.natCast_eq_zero.mp hcount)]
  · rename_i hcount
    obtain ⟨c, hc, hok⟩ := of_bind_ok hok
    obtain rfl := Except.ok.inj hok
    rcases handleRead_cases s.conn read with ⟨bytes, rfl, -, heq⟩ | ⟨rfl, -⟩ | ⟨rfl, heq⟩
    · have hread := Except.ok.inj (heq.symm.trans (of_mapError_ok hc))
      exact .inl ⟨c, by rw [← hread]; rfl, by rw [← hread]; rfl, by rw [← hread]; rfl, rfl⟩
    · exact absurd rfl hcount
    · have hread := Except.ok.inj (heq.symm.trans (of_mapError_ok hc))
      exact .inl ⟨c, by rw [← hread], by rw [← hread], by rw [← hread], rfl⟩

/-- The functors that the connection queued itself: one closes it, or finds it closed. -/
theorem run_member_ok {result : WriteResult} {f : Functor} (hok : s.run result (.member f) = .ok t) :
    f = .forceCloseInLoop ∧ (s.handleClose = .ok t ∨
        ¬ (s.conn.state = .kConnected ∨ s.conn.state = .kDisconnecting) ∧ t = s) ∨
      f ≠ .forceCloseInLoop ∧ ∃ c, s.conn.runFunctor result f = .ok c ∧ t = s.setConn c := by
  by_cases hf : f = .forceCloseInLoop
  · subst hf
    refine .inl ⟨rfl, ?_⟩
    change s.forceCloseInLoop = .ok t at hok
    unfold Shared.forceCloseInLoop at hok
    split at hok
    · exact .inl hok
    · rename_i hclosed
      exact .inr ⟨hclosed, (Except.ok.inj hok).symm⟩
  · have hrun : s.run result (.member f) = (do
        let conn ← (s.conn.runFunctor result f).mapError .conn
        return s.setConn conn) := by
      cases f <;> first | rfl | exact absurd rfl hf
    rw [hrun] at hok
    obtain ⟨c, hc, hok⟩ := of_bind_ok hok
    exact .inr ⟨hf, c, of_mapError_ok hc, (Except.ok.inj hok).symm⟩

theorem channelRemove_ok (hok : s.channelRemove = .ok t) :
    ∃ channel, s.conn.channel.remove () = .ok channel ∧
      t = { s with conn := { s.conn with channel }, removed := true } := by
  unfold Shared.channelRemove at hok
  split at hok
  · cases hok
  · rename_i channel hchannel
    exact ⟨channel, hchannel, (Except.ok.inj hok).symm⟩

theorem connectDestroyed_ok (hok : s.connectDestroyed = .ok t) :
    (s.conn.state = .kConnected ∧ t = { s with
      conn := (s.conn.setState .kDisconnected).setInterest .disableAll
      frames := .connectDestroyed :: s.frames }) ∨
    (s.conn.state ≠ .kConnected ∧ s.channelRemove = .ok t) := by
  unfold Shared.connectDestroyed at hok
  split at hok
  · rename_i hstate
    exact .inl ⟨hstate, (Except.ok.inj hok).symm⟩
  · rename_i hstate
    exact .inr ⟨hstate, hok⟩

theorem removeConnectionInLoop_ok (hok : s.removeConnectionInLoop = .ok t) :
    s.alive = true ∧ s.held = true ∧ t = queueInLoop { s with held := false } .connectDestroyed := by
  obtain ⟨halive, hok⟩ := of_cassert_bind hok
  obtain ⟨hheld, hok⟩ := of_cassert_bind hok
  exact ⟨halive, hheld, (Except.ok.inj hok).symm⟩

/-- A close callback passes the connection on, to `connectDestroyed` or to the loop of the server. -/
theorem closeCallback_ok (hok : s.closeCallback = .ok t) :
    (s.closeCallback_ = .detached ∨ s.alive = true) ∧
      ((∃ held, t = queueInLoop { s with held } .connectDestroyed) ∨
        t = { s with removals := s.removals + 1 }) := by
  unfold Shared.closeCallback at hok
  split at hok
  · unfold removeConnection at hok
    split at hok
    · obtain ⟨halive, -, rfl⟩ := removeConnectionInLoop_ok hok
      exact ⟨.inr halive, .inl ⟨false, rfl⟩⟩
    · obtain ⟨halive, -, rfl⟩ := removeConnectionInLoop_ok hok
      exact ⟨.inr halive, .inl ⟨false, rfl⟩⟩
    · obtain ⟨halive, hok⟩ := of_cassert_bind hok
      obtain rfl := Except.ok.inj hok
      exact ⟨.inr halive, .inr rfl⟩
  · rename_i hdetached
    obtain rfl := Except.ok.inj hok
    exact ⟨.inl hdetached, .inl ⟨s.held, rfl⟩⟩

/-- The connection of a destroyed client has the close callback that needs none, and is closed if nobody else
held it. -/
theorem destroyClient_of_held (hheld : s.held = true) : s.destroyClient =
    { if s.unique then setConn { s with alive := false, closeCallback_ := .detached } s.conn.forceClose
      else { s with alive := false, closeCallback_ := .detached } with held := false } := by
  rw [destroyClient, if_pos hheld]
  rfl

theorem destroyServer_of_held (hheld : s.held = true) : s.destroyServer =
    if s.holder = .server then Shared.connectDestroyed { s with alive := false, held := false }
    else .ok (queueInLoop { s with alive := false, held := false } .connectDestroyed) := by
  rw [destroyServer, if_pos hheld]

theorem destroyHolder_ok (hok : s.destroyHolder = .ok t) :
    (s.held = false ∧ t = { s with alive := false }) ∨
    (s.held = true ∧ s.holder = .client ∧ t = s.destroyClient) ∨
    (s.held = true ∧ s.holder = .server ∧
      Shared.connectDestroyed { s with alive := false, held := false } = .ok t) ∨
    (s.held = true ∧ s.holder = .poolServer ∧
      t = queueInLoop { s with alive := false, held := false } .connectDestroyed) := by
  unfold Shared.destroyHolder at hok
  cases hheld : s.held with
  | false =>
    refine .inl ⟨rfl, ?_⟩
    split at hok
    · simpa [destroyClient, hheld] using hok.symm
    · simpa [destroyServer, hheld] using hok.symm
    · simpa [destroyServer, hheld] using hok.symm
  | true =>
    refine .inr ?_
    split at hok
    · rename_i hholder
      exact .inl ⟨rfl, hholder, (Except.ok.inj hok).symm⟩
    · rename_i hholder
      rw [destroyServer_of_held hheld, if_pos hholder] at hok
      exact .inr (.inl ⟨rfl, hholder, hok⟩)
    · rename_i hholder
      rw [destroyServer_of_held hheld, if_neg (by simp [hholder])] at hok
      exact .inr (.inr ⟨rfl, hholder, (Except.ok.inj hok).symm⟩)

/-! ### Without an owner -/

/-- Nothing holds the connection. -/
structure Unowned (s : Shared) : Prop where
  held : s.held = false
  functors : ∀ f ∈ s.ran ++ s.queue, f.owns = false
  removals : s.removals = 0
  removalsRan : s.removalsRan = 0
  copies : s.copies = 0
  calls : s.calls = []
  guard : s.guard = false
  frames : s.frames = []

theorem owners_eq_zero : s.owners = 0 ↔ s.Unowned := by
  constructor
  · intro h
    simp only [owners, Nat.add_eq_zero_iff, List.countP_eq_zero, Bool.toNat_eq_zero, List.length_eq_zero_iff,
      Bool.not_eq_true] at h
    obtain ⟨⟨⟨⟨⟨⟨⟨hheld, hfunctors⟩, hremovals⟩, hremovalsRan⟩, hcopies⟩, hcalls⟩, hguard⟩, hframes⟩ := h
    exact ⟨hheld, hfunctors, hremovals, hremovalsRan, hcopies, hcalls, hguard, hframes⟩
  · rintro ⟨hheld, hfunctors, hremovals, hremovalsRan, hcopies, hcalls, hguard, hframes⟩
    simp only [owners, Nat.add_eq_zero_iff, List.countP_eq_zero, Bool.toNat_eq_zero, List.length_eq_zero_iff,
      Bool.not_eq_true]
    exact ⟨⟨⟨⟨⟨⟨⟨hheld, hfunctors⟩, hremovals⟩, hremovalsRan⟩, hcopies⟩, hcalls⟩, hguard⟩, hframes⟩

end Shared

end Siren.TcpConnection
