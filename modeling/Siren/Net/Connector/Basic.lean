import Siren.Net.EPollPoller

/-!
# `Connector`

A connector on its loop: the channel of an attempt with the poller it is registered in, the retry timers
that have not fired, and the connector's functors in the mailbox of the loop. Each iteration of the loop
polls, runs the callbacks of channels and timers, and then one batch of functors. `start` and `stop` come
from callbacks and functors on the loop thread, and from other threads, which first set `connect_` and
queue their functor later.

* `Ends`: what `handleWrite`, `handleError` and `stopInLoop` do to an attempt.
* `fails_only_at_start`: in every run the channel of an attempt is there until its `resetChannel` runs, the
  removed one is out of the poller by then, and no assertion fails but those of `startInLoop` and
  `connecting`.
-/

namespace Siren

namespace Connector

inductive States where
  | kDisconnected
  | kConnecting
  | kConnected
  deriving DecidableEq

/-- The functors that a connector puts into the mailbox of its loop. -/
inductive Functor where
  | startInLoop
  | stopInLoop
  | resetChannel
  deriving DecidableEq

/-- The calls that any thread may make. -/
inductive Call where
  | start
  | stop
  deriving DecidableEq

/-- What a call sets `connect_` to. -/
def Call.connect : Call → Bool
  | .start => true
  | .stop => false

/-- What it runs or queues. -/
def Call.functor : Call → Functor
  | .start => .startInLoop
  | .stop => .stopInLoop

inductive Action where
  /-- `sockets::createNonblockingOrDie` returned this descriptor. -/
  | create (sockfd : Int)
  | close (sockfd : Int)
  /-- `newConnectionCallback_(sockfd)` -/
  | newConnection (sockfd : Int)
  deriving DecidableEq

/-- The ways a member function may stop the program. -/
inductive Assertion where
  /-- `state_ == kDisconnected` in `startInLoop`, with `connect_` as it was then. -/
  | startInLoop (connect : Bool)
  | connecting
  | handleWrite
  /-- `removeAndResetChannel` without a channel. -/
  | noChannel
  | channelRemove (assertion : EPollPoller.Assertion)
  /-- `~Channel` of a channel that the poller has. -/
  | channelDestroyed
  deriving DecidableEq

/-- What the system calls of `connect()` answer, and the calls of other threads that set `connect_` before
they return. -/
structure ConnectResult where
  sockfd : Int
  savedErrno : Nat
  meanwhile : List Call

end Connector

structure Connector where
  /-- `connect_` (`connect` is the function). -/
  connect_ : Bool
  state : Connector.States
  /-- `channel_`, with the poller that knows it. -/
  channel : Option (MirroredRegistry Unit)
  retryDelayMs : Nat
  /-- The functors of this connector in `pendingFunctors_` of the loop. -/
  pendingFunctors : List Connector.Functor
  /-- Those in the batch of `doPendingFunctors` that were not run yet. -/
  functors : List Connector.Functor
  /-- The calls of other threads that have set `connect_` and not yet queued their functor. -/
  calls : List Connector.Call
  /-- The delays of the retry timers that have not fired. -/
  timers : List Nat
  /-- History: what the connector did with its sockets. -/
  log : List Connector.Action

namespace Connector

def kMaxRetryDelayMs : Nat := 30 * 1000

def kInitRetryDelayMs : Nat := 500

/-- `Connector(loop, serverAddr)` -/
def new : Connector where
  connect_ := false
  state := .kDisconnected
  channel := none
  retryDelayMs := kInitRetryDelayMs
  pendingFunctors := []
  functors := []
  calls := []
  timers := []
  log := []

variable (c : Connector)

def setState (s : States) : Connector := { c with state := s }

def record (a : Action) : Connector := { c with log := c.log ++ [a] }

/-- `loop_->queueInLoop(f)` -/
def queueInLoop (f : Functor) : Connector := { c with pendingFunctors := c.pendingFunctors ++ [f] }

/-- The first statement of a call on another thread. -/
def beginCall (call : Call) : Connector := { c with connect_ := call.connect, calls := c.calls ++ [call] }

/-- The rest of it: the functor is queued. -/
def endCall (call : Call) : Connector :=
  ({ c with calls := c.calls.erase call } : Connector).queueInLoop call.functor

/-- `functors.swap(pendingFunctors_)` -/
def swapFunctors : Connector := { c with functors := c.pendingFunctors, pendingFunctors := [] }

/-! ### Attempts -/

def retry (sockfd : Int) : Connector :=
  let c := (c.record (.close sockfd)).setState .kDisconnected
  if c.connect_ then
    { c with
      timers := c.timers ++ [c.retryDelayMs]
      retryDelayMs := min (c.retryDelayMs * 2) kMaxRetryDelayMs }
  else c

def connecting (sockfd : Int) : Except Assertion Connector := do
  let c := c.setState .kConnecting
  cassert (c.channel.isNone) .connecting
  let channel := (MirroredRegistry.new ⟨fun _ : Unit => sockfd, fun _ _ _ => rfl⟩).setInterest .enableWriting ()
  return { c with channel := some channel }

/-- The branches of the `switch` in `connect()`. -/
inductive Next where
  | connecting
  | retry
  | error
  | unexpected
  deriving DecidableEq

/-- The branch for `savedErrno`. The last two differ in the line they log. -/
def next (savedErrno : Nat) : Next :=
  if savedErrno ∈ [0, EINPROGRESS, EINTR, EISCONN] then .connecting
  else if savedErrno ∈ [EAGAIN, EADDRINUSE, EADDRNOTAVAIL, ECONNREFUSED, ENETUNREACH] then .retry
  else if savedErrno ∈ [EACCES, EPERM, EAFNOSUPPORT, EALREADY, EBADF, EFAULT, ENOTSOCK] then .error
  else .unexpected

/-- `connect()` -/
def connect (result : ConnectResult) : Except Assertion Connector :=
  let c := result.meanwhile.foldl beginCall (c.record (.create result.sockfd))
  match next result.savedErrno with
  | .connecting => c.connecting result.sockfd
  | .retry => .ok (c.retry result.sockfd)
  | .error => .ok (c.record (.close result.sockfd))
  | .unexpected => .ok (c.record (.close result.sockfd))

def startInLoop (result : ConnectResult) : Except Assertion Connector := do
  cassert (c.state = .kDisconnected) (.startInLoop c.connect_)
  if c.connect_ then c.connect result else return c

/-- `removeAndResetChannel`, with the descriptor it returns. -/
def removeAndResetChannel : Except Assertion (Connector × Int) :=
  match c.channel with
  | none => .error .noChannel
  | some channel =>
    match (channel.setInterest .disableAll ()).remove () with
    | .error a => .error (.channelRemove a)
    | .ok channel =>
      .ok (({ c with channel := some channel } : Connector).queueInLoop .resetChannel, (channel.channel ()).fd)

/-- `channel_.reset()`: `~Channel` asserts that the poller does not have the channel. -/
def resetChannel : Except Assertion Connector := do
  match c.channel with
  | none => return c
  | some channel =>
    cassert (channel.hasChannel () = false) .channelDestroyed
    return { c with channel := none }

def stopInLoop : Except Assertion Connector :=
  if c.state = .kConnecting then do
    let (c, sockfd) ← (c.setState .kDisconnected).removeAndResetChannel
    return c.retry sockfd
  else .ok c

/-- `handleWrite`, when `getSocketError` and `isSelfConnect` answer `err` and `selfConnect`. -/
def handleWrite (err : Nat) (selfConnect : Bool) : Except Assertion Connector :=
  if c.state = .kConnecting then do
    let (c, sockfd) ← c.removeAndResetChannel
    if err ≠ 0 then return c.retry sockfd
    else if selfConnect then return c.retry sockfd
    else
      let c := c.setState .kConnected
      if c.connect_ then return c.record (.newConnection sockfd) else return c.record (.close sockfd)
  else do
    cassert (c.state = .kDisconnected) .handleWrite
    return c

def handleError : Except Assertion Connector :=
  if c.state = .kConnecting then do
    let (c, sockfd) ← c.removeAndResetChannel
    return c.retry sockfd
  else .ok c

/-! ### The loop's side -/

open Channel (Handler handleEventWithGuard)

/-- `start()` and `stop()` on the loop thread. -/
def call (result : ConnectResult) : Call → Except Assertion Connector
  | .start => startInLoop { c with connect_ := true } result
  | .stop => .ok (({ c with connect_ := false } : Connector).queueInLoop .stopInLoop)

/-- Runs a functor. -/
def runFunctor (result : ConnectResult) : Functor → Except Assertion Connector
  | .startInLoop => c.startInLoop result
  | .stopInLoop => c.stopInLoop
  | .resetChannel => c.resetChannel

/-- The next callback of the channel, which has no close callback and no read callback. -/
def runHandler (err : Nat) (selfConnect : Bool) : Handler → Except Assertion Connector
  | .error => c.handleError
  | .write => c.handleWrite err selfConnect
  | .close => .ok c
  | .read => .ok c

/-- The two halves of an iteration of the loop. -/
inductive Phase where
  /-- The callbacks of the active channels. -/
  | events
  /-- The batch of functors, and what comes before the first poll. -/
  | functors
  deriving DecidableEq

/-- A connector on its loop. -/
structure Loop where
  conn : Connector
  phase : Phase
  /-- The connector's channel waits in `activeChannels_`. -/
  active : Bool
  /-- What is left of its `handleEventWithGuard`. -/
  handlers : List Handler

inductive Label where
  /-- A call on the loop thread. -/
  | call (call : Call) (result : ConnectResult)
  /-- A call on another thread sets `connect_`. -/
  | beginCall (call : Call)
  /-- It queues its functor. -/
  | endCall (call : Call)
  /-- The poller returns; it may report the connector's channel. -/
  | poll (revents : Option Mask)
  /-- The retry timer with this index fires. -/
  | fire (timer : Nat) (result : ConnectResult)
  /-- `handleEvent` of the connector's channel begins. -/
  | dispatch
  /-- The next callback of it. -/
  | handle (err : Nat) (selfConnect : Bool)
  /-- `doPendingFunctors` swaps the functors out. -/
  | swap
  | runFunctor (result : ConnectResult)

namespace Loop

/-- A new connector on a loop that has not polled yet. -/
def init : Loop := ⟨.new, .functors, false, []⟩

/-- The state after a member function of the connector. -/
def after (s : Loop) (r : Except Assertion Connector) : Except Assertion Loop :=
  r.map fun conn => { s with conn }

/-- A step. No code of users runs between the callbacks of the connector's channel: the call of
`newConnectionCallback_` ends the last of them. -/
def step (s : Loop) : Label → Option (Except Assertion Loop)
  | .call call result => if s.handlers = [] then some (s.after (s.conn.call result call)) else none
  | .beginCall call => some (.ok { s with conn := s.conn.beginCall call })
  | .endCall call => if call ∈ s.conn.calls then some (.ok { s with conn := s.conn.endCall call }) else none
  | .poll none =>
    if s.phase = .functors ∧ s.conn.functors = [] then some (.ok { s with phase := .events }) else none
  | .poll (some revents) =>
    if s.phase = .functors ∧ s.conn.functors = [] then do
      let channel ← s.conn.channel
      let (channel, _) ← channel.poll [((channel.channel ()).fd, revents)]
      return .ok { s with conn := { s.conn with channel := some channel }, phase := .events, active := true }
    else none
  | .fire timer result =>
    if s.phase = .events ∧ s.handlers = [] ∧ timer < s.conn.timers.length then
      let conn := { s.conn with timers := s.conn.timers.eraseIdx timer }
      some (s.after (conn.startInLoop result))
    else none
  | .dispatch =>
    if s.active ∧ s.handlers = [] then
      s.conn.channel.map fun channel =>
        .ok { s with active := false, handlers := handleEventWithGuard (channel.channel ()).revents }
    else none
  | .handle err selfConnect =>
    match s.handlers with
    | [] => none
    | handler :: handlers => some (after { s with handlers } (s.conn.runHandler err selfConnect handler))
  | .swap =>
    if s.phase = .events ∧ s.active = false ∧ s.handlers = [] ∧ s.conn.functors = [] then
      some (.ok { s with conn := s.conn.swapFunctors, phase := .functors })
    else none
  | .runFunctor result =>
    match s.phase, s.conn.functors with
    | .functors, f :: functors => some (s.after (runFunctor { s.conn with functors } result f))
    | _, _ => none

end Loop

/-- A connector on its loop, until an assertion fails. -/
def loop : Machine (Except Assertion Loop) Label := .ofExcept Loop.step

/-! ### What the member functions do -/

variable {c d : Connector}

/-- The calls that other threads begin while `connect()` is in the kernel. -/
theorem foldl_beginCall (calls : List Call) : calls.foldl beginCall c =
    { c with connect_ := calls.foldl (fun _ call => call.connect) c.connect_, calls := c.calls ++ calls } := by
  induction calls generalizing c with
  | nil => simp
  | cons call calls ih =>
    rw [List.foldl_cons, ih]
    simp [beginCall]

/-- `d` is `c` after the end of an attempt: its channel is out of the poller and about to be reset, and
the connector is connected, or disconnected with a retry timer if a connection is still wanted. -/
structure Ends (c d : Connector) : Prop where
  state : d.state = .kConnected ∧ d.timers = c.timers ∨
    d.state = .kDisconnected ∧ (d.timers = c.timers ∨ d.timers = c.timers ++ [c.retryDelayMs])
  channel : ∃ channel, d.channel = some channel ∧ (channel.channel ()).index = kNew
  pendingFunctors : d.pendingFunctors = c.pendingFunctors ++ [.resetChannel]
  functors : d.functors = c.functors
  calls : d.calls = c.calls

theorem removeAndResetChannel_spec (h : c.channel.isSome) :
    ∃ channel sockfd, (channel.channel ()).index = kNew ∧ c.removeAndResetChannel =
      .ok (({ c with channel := some channel } : Connector).queueInLoop .resetChannel, sockfd) := by
  obtain ⟨channel, hchannel⟩ := Option.isSome_iff_exists.mp h
  obtain ⟨removed, hok, hindex, -⟩ := channel.remove_disableAll ()
  exact ⟨removed, (removed.channel ()).fd, hindex, by simp only [removeAndResetChannel, hchannel, hok]⟩

section Retry

variable (sockfd : Int)

@[simp] theorem retry_state : (c.retry sockfd).state = .kDisconnected := by
  simp only [retry]
  split <;> rfl

@[simp] theorem retry_channel : (c.retry sockfd).channel = c.channel := by
  simp only [retry]
  split <;> rfl

@[simp] theorem retry_pendingFunctors : (c.retry sockfd).pendingFunctors = c.pendingFunctors := by
  simp only [retry]
  split <;> rfl

@[simp] theorem retry_functors : (c.retry sockfd).functors = c.functors := by
  simp only [retry]
  split <;> rfl

@[simp] theorem retry_calls : (c.retry sockfd).calls = c.calls := by
  simp only [retry]
  split <;> rfl

/-- A retry timer is set while a connection is wanted. -/
theorem retry_timers :
    (c.retry sockfd).timers = if c.connect_ then c.timers ++ [c.retryDelayMs] else c.timers := by
  simp only [retry]
  show (if c.connect_ = true then _ else _ : Connector).timers = _
  split <;> rfl

end Retry

/-- What is left of a failed attempt. -/
theorem Ends.retry {channel : MirroredRegistry Unit} (h : (channel.channel ()).index = kNew) (s : States)
    (sockfd : Int) : Ends c ((({ c.setState s with channel := some channel } : Connector).queueInLoop
      .resetChannel).retry sockfd) where
  state := by
    refine Or.inr ⟨retry_state sockfd, ?_⟩
    rw [retry_timers]
    split
    · exact Or.inr rfl
    · exact Or.inl rfl
  channel := ⟨channel, retry_channel sockfd, h⟩
  pendingFunctors := retry_pendingFunctors sockfd
  functors := retry_functors sockfd
  calls := retry_calls sockfd

theorem handleWrite_ends (hstate : c.state = .kConnecting) (h : c.channel.isSome) (err : Nat)
    (selfConnect : Bool) : ∃ d, c.handleWrite err selfConnect = .ok d ∧ Ends c d := by
  obtain ⟨channel, sockfd, hindex, hok⟩ := removeAndResetChannel_spec h
  rw [handleWrite, if_pos hstate, hok, ok_bind]
  have hretry := Ends.retry (c := c) hindex c.state sockfd
  by_cases herr : err ≠ 0
  · exact ⟨_, if_pos herr, hretry⟩
  · by_cases hself : selfConnect = true
    · exact ⟨_, (if_neg herr).trans (if_pos hself), hretry⟩
    · simp only [if_neg herr, if_neg hself]
      split
      · exact ⟨_, rfl, Or.inl ⟨rfl, rfl⟩, ⟨channel, rfl, hindex⟩, rfl, rfl, rfl⟩
      · exact ⟨_, rfl, Or.inl ⟨rfl, rfl⟩, ⟨channel, rfl, hindex⟩, rfl, rfl, rfl⟩

theorem handleError_ends (hstate : c.state = .kConnecting) (h : c.channel.isSome) :
    ∃ d, c.handleError = .ok d ∧ Ends c d ∧ d.state = .kDisconnected := by
  obtain ⟨channel, sockfd, hindex, hok⟩ := removeAndResetChannel_spec h
  rw [handleError, if_pos hstate, hok, ok_bind]
  exact ⟨_, rfl, Ends.retry (c := c) hindex c.state sockfd, retry_state sockfd⟩

theorem stopInLoop_ends (hstate : c.state = .kConnecting) (h : c.channel.isSome) :
    ∃ d, c.stopInLoop = .ok d ∧ Ends c d := by
  obtain ⟨channel, sockfd, hindex, hok⟩ := removeAndResetChannel_spec (c := c.setState .kDisconnected) h
  rw [stopInLoop, if_pos hstate, hok, ok_bind]
  exact ⟨_, rfl, Ends.retry hindex .kDisconnected sockfd⟩

/-- `d` is `c` after a `connect()` that other threads began these calls during, as far as the mailbox is
concerned. -/
structure Connects (c : Connector) (meanwhile : List Call) (d : Connector) : Prop where
  pendingFunctors : d.pendingFunctors = c.pendingFunctors
  functors : d.functors = c.functors
  calls : d.calls = c.calls ++ meanwhile

/-- Whether `connect()` leaves a retry timer when it is refused. -/
def ConnectResult.retries (result : ConnectResult) : Bool :=
  result.meanwhile.foldl (fun _ call => call.connect) true

theorem connecting_of_some (h : c.channel.isSome) (sockfd : Int) :
    c.connecting sockfd = .error .connecting := by
  have hnot : ¬ (c.setState .kConnecting).channel.isNone = true := by
    simpa [setState] using Option.isSome_iff_ne_none.mp h
  simp only [connecting, cassert_of_not hnot, error_bind]

theorem connecting_of_none (h : c.channel = none) (sockfd : Int) :
    ∃ channel, c.connecting sockfd = .ok { c with state := .kConnecting, channel := some channel } := by
  have hnone : (c.setState .kConnecting).channel.isNone = true := by simp [setState, h]
  refine ⟨(MirroredRegistry.new ⟨fun _ : Unit => sockfd, fun _ _ _ => rfl⟩).setInterest .enableWriting (), ?_⟩
  simp only [connecting, cassert_of hnone, ok_bind]
  rfl

/-- What `connect()` does while a connection is wanted, by the branch it takes. -/
theorem connect_cases (hwanted : c.connect_ = true) (result : ConnectResult) :
    (next result.savedErrno = .connecting ∧ c.channel.isSome ∧ c.connect result = .error .connecting) ∨
    ∃ d, c.connect result = .ok d ∧ Connects c result.meanwhile d ∧
      ((next result.savedErrno = .connecting ∧ c.channel = none ∧ d.state = .kConnecting ∧
          d.channel.isSome ∧ d.timers = c.timers) ∨
        (next result.savedErrno = .retry ∧ d.state = .kDisconnected ∧ d.channel = c.channel ∧
          d.timers = if result.retries then c.timers ++ [c.retryDelayMs] else c.timers) ∨
        (next result.savedErrno ≠ .connecting ∧ next result.savedErrno ≠ .retry ∧ d.state = c.state ∧
          d.channel = c.channel ∧ d.timers = c.timers)) := by
  simp only [connect, foldl_beginCall]
  cases hnext : next result.savedErrno with
  | connecting =>
    cases hchannel : c.channel with
    | some channel => exact Or.inl ⟨rfl, rfl, connecting_of_some (by simp [record, hchannel]) _⟩
    | none =>
      obtain ⟨channel, hok⟩ := connecting_of_none (c := { c.record (.create result.sockfd) with
        connect_ := result.meanwhile.foldl (fun _ call => call.connect) c.connect_
        calls := c.calls ++ result.meanwhile }) hchannel result.sockfd
      exact Or.inr ⟨_, hok, ⟨rfl, rfl, rfl⟩, Or.inl ⟨rfl, rfl, rfl, rfl, rfl⟩⟩
  | retry =>
    refine Or.inr ⟨_, rfl, ⟨?_, ?_, ?_⟩, Or.inr (Or.inl ⟨rfl, retry_state _, ?_, ?_⟩)⟩
    · exact retry_pendingFunctors _
    · exact retry_functors _
    · exact retry_calls _
    · exact retry_channel _
    · rw [retry_timers, ConnectResult.retries]
      simp only [record, hwanted]
  | error =>
    exact Or.inr ⟨_, rfl, ⟨rfl, rfl, rfl⟩, Or.inr (Or.inr ⟨by decide, by decide, rfl, rfl, rfl⟩)⟩
  | unexpected =>
    exact Or.inr ⟨_, rfl, ⟨rfl, rfl, rfl⟩, Or.inr (Or.inr ⟨by decide, by decide, rfl, rfl, rfl⟩)⟩

/-! ### Soundness -/

/-- The queued functors in the order in which they will run. -/
def mailbox (c : Connector) : List Functor := c.functors ++ c.pendingFunctors

/-- An attempt has its channel; any other channel is out of the poller, with one `resetChannel` to come. -/
structure Sound (c : Connector) : Prop where
  connecting : c.state = .kConnecting → c.channel.isSome
  removed : c.state ≠ .kConnecting → ∀ channel, c.channel = some channel → (channel.channel ()).index = kNew
  resets : c.mailbox.count .resetChannel = if c.state ≠ .kConnecting ∧ c.channel.isSome then 1 else 0

theorem new_sound : new.Sound where
  connecting h := by cases h
  removed _ _ h := by cases h
  resets := rfl

namespace Sound

/-- What changes neither the state nor the channel nor the resets to come. -/
theorem of_same (h : c.Sound) (hstate : d.state = c.state) (hchannel : d.channel = c.channel)
    (hresets : d.mailbox.count .resetChannel = c.mailbox.count .resetChannel) : d.Sound where
  connecting := by simpa only [hstate, hchannel] using h.connecting
  removed := by simpa only [hstate, hchannel] using h.removed
  resets := by simpa only [hstate, hchannel, hresets] using h.resets

theorem beginCall (h : c.Sound) (call : Call) : (c.beginCall call).Sound := h.of_same rfl rfl rfl

theorem queueInLoop (h : c.Sound) (call : Call) : (c.queueInLoop call.functor).Sound := by
  refine h.of_same rfl rfl ?_
  have hcount : [call.functor].count Functor.resetChannel = 0 := by cases call <;> rfl
  simp [mailbox, Connector.queueInLoop, hcount]

theorem swapFunctors (h : c.Sound) (hfunctors : c.functors = []) : c.swapFunctors.Sound :=
  h.of_same rfl rfl (by simp [mailbox, Connector.swapFunctors, hfunctors])

/-- The end of an attempt. -/
theorem ends (h : c.Sound) (hstate : c.state = .kConnecting) (hends : Ends c d) : d.Sound := by
  have hne : d.state ≠ .kConnecting := by
    rcases hends.state with ⟨hd, -⟩ | ⟨hd, -⟩ <;> simp [hd]
  obtain ⟨channel, hchannel, hindex⟩ := hends.channel
  have hresets := h.resets
  rw [if_neg (by simp [hstate]), mailbox, List.count_append] at hresets
  refine ⟨fun hd => absurd hd hne, fun _ channel' hchannel' => ?_, ?_⟩
  · obtain rfl := Option.some.inj (hchannel.symm.trans hchannel')
    exact hindex
  · rw [if_pos ⟨hne, by simp [hchannel]⟩, mailbox, hends.functors, hends.pendingFunctors]
    simp only [List.count_append, List.count_singleton_self]
    omega

theorem connect (h : c.Sound) (hstate : c.state = .kDisconnected) {meanwhile : List Call}
    (hd : Connects c meanwhile d) (hcases : d.state = .kConnecting ∧ c.channel = none ∧ d.channel.isSome ∨
      d.state = .kDisconnected ∧ d.channel = c.channel) : d.Sound := by
  have hmailbox : d.mailbox = c.mailbox := by rw [mailbox, mailbox, hd.functors, hd.pendingFunctors]
  rcases hcases with ⟨hds, hnone, hsome⟩ | ⟨hds, hchannel⟩
  · have hresets := h.resets
    rw [hnone, if_neg (by simp)] at hresets
    refine ⟨fun _ => hsome, fun hne => absurd hds hne, ?_⟩
    rw [hmailbox, hresets, if_neg (by simp [hds])]
  · exact h.of_same (hds.trans hstate.symm) hchannel (by rw [hmailbox])

end Sound

/-- The assertions that an untimely `start` can reach. -/
def Assertion.ofStart : Assertion → Bool
  | .startInLoop _ => true
  | .connecting => true
  | _ => false

/-- What `startInLoop` does. -/
theorem startInLoop_cases (c : Connector) (result : ConnectResult) :
    (c.state ≠ .kDisconnected ∧ c.startInLoop result = .error (.startInLoop c.connect_)) ∨
    (c.state = .kDisconnected ∧ c.connect_ = false ∧ c.startInLoop result = .ok c) ∨
    (c.state = .kDisconnected ∧ c.connect_ = true ∧ c.startInLoop result = c.connect result) := by
  by_cases hstate : c.state = .kDisconnected
  · refine Or.inr ?_
    simp only [startInLoop, cassert_of hstate, ok_bind]
    cases hwanted : c.connect_ with
    | false => exact Or.inl ⟨hstate, rfl, rfl⟩
    | true => exact Or.inr ⟨hstate, rfl, rfl⟩
  · exact Or.inl ⟨hstate, by simp only [startInLoop, cassert_of_not hstate, error_bind]⟩

theorem startInLoop_disconnected {result : ConnectResult} (hok : c.startInLoop result = .ok d) :
    c.state = .kDisconnected := by
  rcases startInLoop_cases c result with ⟨-, heq⟩ | ⟨hstate, -⟩ | ⟨hstate, -⟩
  · cases heq.symm.trans hok
  · exact hstate
  · exact hstate

/-- The results in which the connector is sound, or which an untimely `start` led to. -/
def SoundResult : Except Assertion Connector → Prop
  | .ok d => d.Sound
  | .error a => a.ofStart = true

namespace Sound

theorem startInLoop (h : c.Sound) (result : ConnectResult) : SoundResult (c.startInLoop result) := by
  rcases startInLoop_cases c result with ⟨-, heq⟩ | ⟨-, -, heq⟩ | ⟨hstate, hwanted, heq⟩
  · rw [heq]
    rfl
  · rw [heq]
    exact h
  · rw [heq]
    rcases connect_cases hwanted result with ⟨-, -, heq⟩ | ⟨d, heq, hd, hcases⟩
    · rw [heq]
      rfl
    · rw [heq]
      refine h.connect hstate hd ?_
      rcases hcases with ⟨-, hnone, hds, hsome, -⟩ | ⟨-, hds, hchannel, -⟩ | ⟨-, -, hds, hchannel, -⟩
      · exact Or.inl ⟨hds, hnone, hsome⟩
      · exact Or.inr ⟨hds, hchannel⟩
      · exact Or.inr ⟨hds.trans hstate, hchannel⟩

theorem call (h : c.Sound) (result : ConnectResult) (call : Call) : SoundResult (c.call result call) := by
  cases call with
  | start => exact startInLoop (c := { c with connect_ := true }) (h.of_same rfl rfl rfl) result
  | stop => exact queueInLoop (c := { c with connect_ := false }) (h.of_same rfl rfl rfl) .stop

theorem stopInLoop (h : c.Sound) : ∃ d, c.stopInLoop = .ok d ∧ d.Sound := by
  by_cases hstate : c.state = .kConnecting
  · obtain ⟨d, heq, hends⟩ := stopInLoop_ends hstate (h.connecting hstate)
    exact ⟨d, heq, h.ends hstate hends⟩
  · exact ⟨c, by rw [Connector.stopInLoop, if_neg hstate], h⟩

/-- A functor other than `resetChannel` leaves the batch. -/
theorem pop {f : Functor} {functors : List Functor} (h : c.Sound) (hc : c.functors = f :: functors)
    (hne : f ≠ .resetChannel) : ({ c with functors } : Connector).Sound := by
  refine h.of_same rfl rfl ?_
  rw [mailbox, mailbox, hc, List.cons_append, List.count_cons_of_ne hne]

theorem resetChannel {functors : List Functor} (h : c.Sound) (hc : c.functors = .resetChannel :: functors) :
    ∃ d, Connector.resetChannel { c with functors } = .ok d ∧ d.Sound := by
  have hresets := h.resets
  rw [mailbox, hc, List.cons_append, List.count_cons_self] at hresets
  split at hresets
  · rename_i hremoved
    obtain ⟨channel, hchannel⟩ := Option.isSome_iff_exists.mp hremoved.2
    have hgone := MirroredRegistry.hasChannel_of_new (h.removed hremoved.1 channel hchannel)
    refine ⟨{ c with functors, channel := none }, ?_, fun hstate => absurd hstate hremoved.1,
      (fun _ channel' h' => by cases h'), ?_⟩
    · simp only [Connector.resetChannel, hchannel, cassert_of hgone, ok_bind]
      rfl
    · rw [if_neg (by simp)]
      show (functors ++ c.pendingFunctors).count .resetChannel = 0
      omega
  · omega

/-- A functor that has left the batch. -/
theorem runFunctor {f : Functor} {functors : List Functor} (h : c.Sound) (hc : c.functors = f :: functors)
    (result : ConnectResult) : SoundResult (Connector.runFunctor { c with functors } result f) := by
  cases f with
  | startInLoop => exact startInLoop (h.pop hc (by decide)) result
  | stopInLoop =>
    obtain ⟨d, heq, hd⟩ := (h.pop hc (by decide)).stopInLoop
    rw [Connector.runFunctor, heq]
    exact hd
  | resetChannel =>
    obtain ⟨d, heq, hd⟩ := h.resetChannel hc
    rw [Connector.runFunctor, heq]
    exact hd

theorem handleError (h : c.Sound) : ∃ d, c.handleError = .ok d ∧ d.Sound ∧ d.state ≠ .kConnecting ∧
    (c.state ≠ .kConnected → d.state ≠ .kConnected) := by
  by_cases hstate : c.state = .kConnecting
  · obtain ⟨d, heq, hends, hd⟩ := handleError_ends hstate (h.connecting hstate)
    exact ⟨d, heq, h.ends hstate hends, by simp [hd], by simp [hd]⟩
  · exact ⟨c, by rw [Connector.handleError, if_neg hstate], h, hstate, id⟩

theorem handleWrite (h : c.Sound) (hopen : c.state ≠ .kConnected) (err : Nat) (selfConnect : Bool) :
    ∃ d, c.handleWrite err selfConnect = .ok d ∧ d.Sound ∧ d.state ≠ .kConnecting := by
  by_cases hstate : c.state = .kConnecting
  · obtain ⟨d, heq, hends⟩ := handleWrite_ends hstate (h.connecting hstate) err selfConnect
    refine ⟨d, heq, h.ends hstate hends, ?_⟩
    rcases hends.state with ⟨hd, -⟩ | ⟨hd, -⟩ <;> simp [hd]
  · have hdisconnected : c.state = .kDisconnected := by
      cases hs : c.state <;> simp_all
    refine ⟨c, ?_, h, hstate⟩
    rw [Connector.handleWrite, if_neg hstate, cassert_of hdisconnected]
    rfl

end Sound

/-! ### Every run -/

namespace Loop

/-- The connector is sound; while it waits in `activeChannels_` its attempt goes on; and its write callback,
the last of a dispatch, finds it unconnected. -/
structure Sound (s : Loop) : Prop where
  conn : s.conn.Sound
  quiet : s.phase = .functors → s.active = false ∧ s.handlers = []
  active : s.active = true → s.conn.state = .kConnecting
  handlers : s.handlers ≠ [] → s.active = false ∧ s.conn.state ≠ .kConnected
  last : s.handlers.Pairwise fun handler _ => handler ≠ .write

/-- The results in which the loop is sound, or which an untimely `start` led to. -/
def SoundResult : Except Assertion Loop → Prop
  | .ok t => t.Sound
  | .error a => a.ofStart = true

theorem init_sound : init.Sound where
  conn := new_sound
  quiet _ := ⟨rfl, rfl⟩
  active h := by cases h
  handlers h := absurd rfl h
  last := .nil

theorem handleEventWithGuard_last (revents : Mask) :
    (handleEventWithGuard revents).Pairwise fun handler _ => handler ≠ .write := by
  unfold handleEventWithGuard
  split <;> split <;> split <;> split <;> simp

variable {s : Loop}

/-- A member function that runs between two dispatches. -/
theorem Sound.after (h : s.Sound) (hhandlers : s.handlers = []) {r : Except Assertion Connector}
    (hr : Connector.SoundResult r)
    (hactive : ∀ d, r = .ok d → s.active = true → d.state = .kConnecting) : SoundResult (s.after r) := by
  cases r with
  | error a => exact hr
  | ok d => exact ⟨hr, h.quiet, hactive d rfl, fun hne => absurd hhandlers hne, h.last⟩

/-- `startInLoop` on a connector that waits in `activeChannels_` fails its assertion. -/
theorem Sound.after_startInLoop (h : s.Sound) (hhandlers : s.handlers = []) {c : Connector} (hc : c.Sound)
    (hstate : c.state = s.conn.state) (result : ConnectResult) :
    SoundResult (s.after (c.startInLoop result)) := by
  refine h.after hhandlers (hc.startInLoop result) fun d hd hactive => ?_
  have hconnecting := hstate.trans (h.active hactive)
  cases (startInLoop_disconnected hd).symm.trans hconnecting

theorem Sound.handle {handler : Handler} {handlers : List Handler} (h : s.Sound)
    (hs : s.handlers = handler :: handlers) (err : Nat) (selfConnect : Bool) :
    ∃ d, s.conn.runHandler err selfConnect handler = .ok d ∧ Sound { s with conn := d, handlers } := by
  obtain ⟨hactive, hopen⟩ := h.handlers (by simp [hs])
  have hphase : s.phase ≠ .functors := by
    intro hphase
    have hnil := (h.quiet hphase).2
    simp [hs] at hnil
  have hlast := h.last
  rw [hs, List.pairwise_cons] at hlast
  have hsound : ∀ d : Connector, d.Sound → (handlers ≠ [] → d.state ≠ .kConnected) →
      Sound { s with conn := d, handlers } := fun d hd hstate =>
    ⟨hd, fun hp => absurd hp hphase, fun ha => by simp [hactive] at ha, fun hne => ⟨hactive, hstate hne⟩, hlast.2⟩
  cases handler with
  | close => exact ⟨s.conn, rfl, hsound _ h.conn fun _ => hopen⟩
  | read => exact ⟨s.conn, rfl, hsound _ h.conn fun _ => hopen⟩
  | error =>
    obtain ⟨d, heq, hd, -, hkeep⟩ := h.conn.handleError
    exact ⟨d, heq, hsound d hd fun _ => hkeep hopen⟩
  | write =>
    obtain ⟨d, heq, hd, -⟩ := h.conn.handleWrite hopen err selfConnect
    have hnil : handlers = [] := by
      rcases handlers with - | ⟨next, handlers⟩
      · rfl
      · exact absurd rfl (hlast.1 next List.mem_cons_self)
    exact ⟨d, heq, hsound d hd fun hne => absurd hnil hne⟩

/-- What a step does, label by label. -/
inductive Takes (s : Loop) : Label → Except Assertion Loop → Prop where
  | call (call : Call) (result : ConnectResult) (hhandlers : s.handlers = []) :
    Takes s (.call call result) (s.after (s.conn.call result call))
  | beginCall (call : Call) : Takes s (.beginCall call) (.ok { s with conn := s.conn.beginCall call })
  | endCall (call : Call) (hcall : call ∈ s.conn.calls) :
    Takes s (.endCall call) (.ok { s with conn := s.conn.endCall call })
  | poll (hphase : s.phase = .functors) : Takes s (.poll none) (.ok { s with phase := .events })
  | report (revents : Mask) (channel polled : MirroredRegistry Unit) (hphase : s.phase = .functors)
    (hchannel : s.conn.channel = some channel) (hindex : (channel.channel ()).index = kAdded) :
    Takes s (.poll (some revents))
      (.ok { s with conn := { s.conn with channel := some polled }, phase := .events, active := true })
  | fire (timer : Nat) (result : ConnectResult) (hhandlers : s.handlers = [])
    (htimer : timer < s.conn.timers.length) : Takes s (.fire timer result)
      (s.after (startInLoop { s.conn with timers := s.conn.timers.eraseIdx timer } result))
  | dispatch (channel : MirroredRegistry Unit) (hactive : s.active = true) : Takes s .dispatch
      (.ok { s with active := false, handlers := handleEventWithGuard (channel.channel ()).revents })
  | handle (err : Nat) (selfConnect : Bool) (handler : Handler) (handlers : List Handler)
    (hhandlers : s.handlers = handler :: handlers) : Takes s (.handle err selfConnect)
      (after { s with handlers } (s.conn.runHandler err selfConnect handler))
  | swap (hactive : s.active = false) (hhandlers : s.handlers = []) (hfunctors : s.conn.functors = []) :
    Takes s .swap (.ok { s with conn := s.conn.swapFunctors, phase := .functors })
  | runFunctor (result : ConnectResult) (f : Functor) (functors : List Functor)
    (hphase : s.phase = .functors) (hfunctors : s.conn.functors = f :: functors) :
    Takes s (.runFunctor result) (s.after (Connector.runFunctor { s.conn with functors } result f))

theorem step_takes {a : Label} {r : Except Assertion Loop} (hstep : s.step a = some r) : s.Takes a r := by
  cases a with
  | call call result =>
    obtain ⟨hhandlers, hr⟩ := Option.ite_none_right_eq_some.mp hstep
    exact Option.some.inj hr ▸ .call call result hhandlers
  | beginCall call => exact Option.some.inj hstep ▸ .beginCall call
  | endCall call =>
    obtain ⟨hcall, hr⟩ := Option.ite_none_right_eq_some.mp hstep
    exact Option.some.inj hr ▸ .endCall call hcall
  | poll revents =>
    cases revents with
    | none =>
      obtain ⟨⟨hphase, -⟩, hr⟩ := Option.ite_none_right_eq_some.mp hstep
      exact Option.some.inj hr ▸ .poll hphase
    | some revents =>
      obtain ⟨⟨hphase, -⟩, hpoll⟩ := Option.ite_none_right_eq_some.mp hstep
      obtain ⟨channel, hchannel, hpoll⟩ := Option.bind_eq_some_iff.mp hpoll
      obtain ⟨⟨polled, activeChannels⟩, hpolled, hr⟩ := Option.bind_eq_some_iff.mp hpoll
      obtain ⟨⟨⟩, -, hindex, -⟩ := MirroredRegistry.poll_singleton hpolled
      exact Option.some.inj hr ▸ .report revents channel polled hphase hchannel hindex
  | fire timer result =>
    obtain ⟨⟨-, hhandlers, htimer⟩, hr⟩ := Option.ite_none_right_eq_some.mp hstep
    exact Option.some.inj hr ▸ .fire timer result hhandlers htimer
  | dispatch =>
    obtain ⟨⟨hactive, -⟩, hdispatch⟩ := Option.ite_none_right_eq_some.mp hstep
    obtain ⟨channel, -, rfl⟩ := Option.map_eq_some_iff.mp hdispatch
    exact .dispatch channel hactive
  | handle err selfConnect =>
    cases hhandlers : s.handlers with
    | nil => simp [step, hhandlers] at hstep
    | cons handler handlers =>
      simp only [step, hhandlers] at hstep
      exact Option.some.inj hstep ▸ .handle err selfConnect handler handlers hhandlers
  | swap =>
    obtain ⟨⟨-, hactive, hhandlers, hfunctors⟩, hr⟩ := Option.ite_none_right_eq_some.mp hstep
    exact Option.some.inj hr ▸ .swap hactive hhandlers hfunctors
  | runFunctor result =>
    cases hphase : s.phase with
    | events => simp [step, hphase] at hstep
    | functors =>
      cases hfunctors : s.conn.functors with
      | nil => simp [step, hphase, hfunctors] at hstep
      | cons f functors =>
        simp only [step, hphase, hfunctors] at hstep
        exact Option.some.inj hstep ▸ .runFunctor result f functors hphase hfunctors

/-- A step from a sound loop. -/
theorem Sound.step {a : Label} {r : Except Assertion Loop} (h : s.Sound) (hstep : s.step a = some r) :
    SoundResult r := by
  cases step_takes hstep with
  | call call result hhandlers =>
    cases call with
    | start =>
      exact h.after_startInLoop (c := { s.conn with connect_ := true }) hhandlers
        (h.conn.of_same rfl rfl rfl) rfl result
    | stop =>
      refine h.after hhandlers (h.conn.call result .stop) fun d hd => ?_
      obtain rfl := Except.ok.inj hd
      exact h.active
  | beginCall call => exact ⟨h.conn.beginCall call, h.quiet, h.active, h.handlers, h.last⟩
  | endCall call hcall =>
    have hconn : (s.conn.endCall call).Sound :=
      Connector.Sound.queueInLoop (c := { s.conn with calls := s.conn.calls.erase call })
        (h.conn.of_same rfl rfl rfl) call
    exact ⟨hconn, h.quiet, h.active, h.handlers, h.last⟩
  | poll hphase => exact ⟨h.conn, (fun hp => by cases hp), h.active, h.handlers, h.last⟩
  | report revents channel polled hphase hchannel hindex =>
    have hstate : s.conn.state = .kConnecting := by
      by_contra hne
      have hnew := h.conn.removed hne channel hchannel
      rw [hindex] at hnew
      exact absurd hnew (by decide)
    have hresets := h.conn.resets
    rw [if_neg (by simp [hstate])] at hresets
    have hconn : ({ s.conn with channel := some polled } : Connector).Sound := by
      refine ⟨fun _ => rfl, fun hne => absurd hstate hne, ?_⟩
      rw [if_neg (by simp [hstate])]
      exact hresets
    obtain ⟨-, hhandlers⟩ := h.quiet hphase
    exact ⟨hconn, (fun hp => by cases hp), fun _ => hstate, fun hne => absurd hhandlers hne, h.last⟩
  | fire timer result hhandlers htimer =>
    exact h.after_startInLoop (c := { s.conn with timers := s.conn.timers.eraseIdx timer }) hhandlers
      (h.conn.of_same rfl rfl rfl) rfl result
  | dispatch channel hactive =>
    have hphase : s.phase ≠ .functors := by
      intro hphase
      have hquiet := (h.quiet hphase).1
      simp [hactive] at hquiet
    have hopen : s.conn.state ≠ .kConnected := by simp [h.active hactive]
    exact ⟨h.conn, fun hp => absurd hp hphase, (fun ha => by cases ha), fun _ => ⟨rfl, hopen⟩,
      handleEventWithGuard_last _⟩
  | handle err selfConnect handler handlers hhandlers =>
    obtain ⟨d, heq, hd⟩ := h.handle hhandlers err selfConnect
    rw [heq]
    exact hd
  | swap hactive hhandlers hfunctors =>
    exact ⟨h.conn.swapFunctors hfunctors, fun _ => ⟨hactive, hhandlers⟩, h.active, h.handlers, h.last⟩
  | runFunctor result f functors hphase hfunctors =>
    obtain ⟨hactive, hhandlers⟩ := h.quiet hphase
    refine h.after hhandlers (h.conn.runFunctor hfunctors result) fun d _ ha => ?_
    simp [hactive] at ha

end Loop

/-- **In every run the connector is sound, and only the assertions of `startInLoop` and `connecting` can
fail.** -/
theorem fails_only_at_start (as : List Label) : loop.Always Loop.SoundResult (.ok .init) as := by
  refine Machine.Always.of_step (I := Loop.SoundResult) Loop.init_sound fun u a v hu huv => ?_
  cases u with
  | error e => cases huv
  | ok s => exact Loop.Sound.step hu huv

end Connector

end Siren
