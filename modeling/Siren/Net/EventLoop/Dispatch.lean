import Siren.Net.TcpClient.Removal
import Siren.Net.TcpConnection.Removal

/-!
# Dispatch of the active channels

The iterations of `EventLoop::loop()`, with everything that has a channel on the loop: acceptors, clients
with their connectors, connections. `poll` fills `activeChannels_`, each channel in it gets its `handleEvent`,
and `doPendingFunctors` ends the iteration. In callbacks and functors users may call anything. The steps of an
object that remove its channel come through `EventLoop::removeChannel` and its assertion. The wakeup channel
and the timer channel stay as long as the loop.

`~TcpServer` is one step for each connection it holds and one for its acceptor, `~TcpClient` one for its
connection, and a `stop` of the connector. Which connection is whose is left open, and so is the order in
which the functors of different objects run.

* `waiting_channels_live`: the channels whose turn is to come are registered and not destroyed, and the
  assertion of `removeChannel` does not fail, in every run in which connections keep their owners and
  `~TcpServer` finds none of its channels in `activeChannels_`, but for the one whose callback it is called in.
-/

namespace Siren

/-! ### The acceptor -/

structure Acceptor where
  /-- `acceptChannel_`, with the poller that knows it. -/
  acceptChannel_ : MirroredRegistry Unit
  listening_ : Bool

namespace Acceptor

/-- `Acceptor(loop, listenAddr, reuseport)`, with this socket. -/
def new (fd : Int) : Acceptor := ⟨.new ⟨fun _ => fd, fun _ _ _ => rfl⟩, false⟩

def listen (a : Acceptor) : Acceptor := ⟨a.acceptChannel_.setInterest .enableReading (), true⟩

/-- `~Acceptor` -/
def destroy (a : Acceptor) : Except EPollPoller.Assertion (MirroredRegistry Unit) :=
  (a.acceptChannel_.setInterest .disableAll ()).remove ()

/-- The poller has the channel. -/
def registered (a : Acceptor) : Bool := a.acceptChannel_.hasChannel ()

end Acceptor

namespace EventLoop.Dispatch

open TcpConnection (Shared)

/-! ### States -/

/-- The channels of a loop. -/
inductive ChannelId where
  | wakeup
  | timer
  | acceptor (i : Nat)
  | connector (i : Nat)
  | connection (i : Nat)
  deriving DecidableEq

/-- The parts of an iteration. -/
inductive Phase where
  /-- From `activeChannels_.clear()` to the return of `poll`. -/
  | polling
  /-- `eventHandling_` is set. -/
  | events
  /-- `doPendingFunctors`, and what comes before `loop()`. -/
  | functors
  deriving DecidableEq

inductive Failure where
  /-- The assertion of `EventLoop::removeChannel`. -/
  | removeChannel (p : ChannelId)
  | acceptor (i : Nat) (assertion : EPollPoller.Assertion)
  | client (i : Nat) (assertion : Connector.Assertion)
  | connection (i : Nat) (failure : TcpConnection.Failure)

/-- Where the loop is. -/
structure Iteration where
  phase : Phase
  activeChannels_ : List ChannelId
  currentActiveChannel_ : Option ChannelId
  /-- Those of `activeChannels_` whose turn is to come. -/
  waiting : List ChannelId

/-- The assertion of `EventLoop::removeChannel`. -/
def Iteration.MayRemove (s : Iteration) (p : ChannelId) : Prop :=
  s.phase = .events → s.currentActiveChannel_ = some p ∨ p ∉ s.activeChannels_

instance (s : Iteration) (p : ChannelId) : Decidable (s.MayRemove p) :=
  inferInstanceAs (Decidable (s.phase = .events → _ = _ ∨ p ∉ s.activeChannels_))

structure State extends Iteration where
  /-- `none` for a destroyed one. -/
  acceptors : List (Option Acceptor)
  clients : List TcpClient
  connections : List Shared

namespace State

/-- A constructed loop. -/
def init : State := ⟨⟨.functors, [], none, []⟩, [], [], []⟩

variable (s : State)

/-- The poller has the channel. -/
def registered : ChannelId → Bool
  | .wakeup => true
  | .timer => true
  | .acceptor i => s.acceptors[i]?.any fun a => a.any Acceptor.registered
  | .connector i => s.clients[i]?.any TcpClient.registered
  | .connection i => s.connections[i]?.any Shared.registered

/-- The channel is not destroyed. -/
def live : ChannelId → Bool
  | .wakeup => true
  | .timer => true
  | .acceptor i => s.acceptors[i]?.any Option.isSome
  | .connector i => s.clients[i]?.any fun c => c.connector.conn.channel.isSome
  | .connection i => s.connections[i]?.any fun c => c.owners != 0

/-- The last `handleEvent` has returned. -/
def handled : Prop :=
  (∀ c ∈ s.clients, c.connector.handlers = []) ∧ ∀ c ∈ s.connections, c.guard = false ∧ c.frames = []

instance : Decidable s.handled :=
  inferInstanceAs (Decidable ((∀ c ∈ s.clients, _ = _) ∧ ∀ c ∈ s.connections, _ = _ ∧ _ = _))

/-- `doPendingFunctors` has returned. -/
def idle : Prop :=
  (∀ c ∈ s.clients, c.connector.phase = .functors ∧ c.connector.conn.functors = []) ∧
    ∀ c ∈ s.connections, c.idle

instance : Decidable s.idle :=
  inferInstanceAs (Decidable ((∀ c ∈ s.clients, _ = _ ∧ _ = _) ∧ ∀ c ∈ s.connections, c.idle))

/-- A step of the object `i` of a list, which has the channel `p`, with the assertion of `removeChannel` where
the step removes the channel. -/
def objectStep {σ ε : Type} (p : ChannelId) (objects : List σ) (i : Nat) (step : σ → Option (Except ε σ))
    (callsRemove : σ → Bool) (failure : ε → Failure) (put : List σ → State) : Option (Except Failure State) :=
  match objects[i]? with
  | none => none
  | some c => (step c).map fun r => do
    cassert (callsRemove c = true → s.MayRemove p) (.removeChannel p)
    let d ← r.mapError failure
    return put (objects.set i d)

def clientStep (i : Nat) (a : TcpClient.Label) : Option (Except Failure State) :=
  s.objectStep (.connector i) s.clients i (·.step a) (·.callsRemove a) (.client i) fun clients =>
    { s with clients }

def connectionStep (i : Nat) (a : Shared.Label) : Option (Except Failure State) :=
  s.objectStep (.connection i) s.connections i (·.step a) (·.callsRemove a) (.connection i) fun connections =>
    { s with connections }

/-! ### Steps -/

/-- `epoll_wait` reports the descriptor of the channel, and `fillActiveChannels` sets `revents_`. -/
def polled (p : ChannelId) (revents : Mask) : Option (Except Failure State) :=
  match p with
  | .wakeup => some (.ok s)
  | .timer => some (.ok s)
  | .acceptor i =>
    match s.acceptors[i]? with
    | some (some a) =>
      (a.acceptChannel_.poll [((a.acceptChannel_.channel ()).fd, revents)]).map fun (acceptChannel_, _) =>
        .ok { s with acceptors := s.acceptors.set i (some { a with acceptChannel_ }) }
    | _ => none
  | .connector i => s.clientStep i (.connector (.poll (some revents)))
  | .connection i => s.connectionStep i (.poll revents)

/-- `activeChannels->push_back(channel)` -/
def push (p : ChannelId) : State :=
  { s with activeChannels_ := s.activeChannels_ ++ [p], waiting := s.waiting ++ [p] }

/-- `handleEvent` begins. -/
def handleEvent (p : ChannelId) : Option (Except Failure State) :=
  match p with
  | .wakeup => some (.ok s)
  | .timer => some (.ok s)
  | .acceptor _ => some (.ok s)
  | .connector i => s.clientStep i (.connector .dispatch)
  | .connection i => s.connectionStep i .dispatch

/-- `~Acceptor` -/
def destroyAcceptor (i : Nat) (a : Acceptor) : Except Failure State := do
  cassert (s.MayRemove (.acceptor i)) (.removeChannel (.acceptor i))
  let _ ← a.destroy.mapError (.acceptor i)
  return { s with acceptors := s.acceptors.set i none }

/-- The loop thread is in the callbacks of the channel. -/
def inCallback (p : ChannelId) : Bool := s.phase == .events && s.currentActiveChannel_ == some p

/-- Where a client's steps happen. -/
def allowsClient (i : Nat) : TcpClient.Label → Bool
  | .connector (.poll none) => s.phase == .polling
  | .connector (.poll (some _)) => false
  | .connector .dispatch => false
  | .connector (.handle _ _) => s.inCallback (.connector i)
  | .connector (.fire _ _) => s.inCallback .timer
  | .connector .swap => s.phase == .functors
  | .connector (.runFunctor _) => s.phase == .functors
  | .connector (.call _ _) => s.phase != .polling
  | .connect _ => s.phase != .polling
  | .stop _ => s.phase != .polling
  | .disconnect => s.phase != .polling
  | .removeConnection _ => s.phase != .polling
  -- the rest is other threads'
  | _ => true

/-- Where a connection's steps happen. The server of a connection in a pool is on another thread. -/
def allowsConnection (i : Nat) (c : Shared) : Shared.Label → Bool
  | .poll _ => false
  | .dispatch => false
  | .handle _ _ => s.inCallback (.connection i)
  | .endDispatch => s.inCallback (.connection i)
  | .delayedForceClose => s.inCallback .timer
  | .swap => s.phase == .functors
  | .runFunctor _ => s.phase == .functors
  | .endBatch => s.phase == .functors
  | .request _ _ => s.phase != .polling
  | .endEstablished => s.phase != .polling
  | .closeCallback => s.phase != .polling
  | .channelRemove => s.phase != .polling
  | .destroyHolder => s.phase != .polling || c.holder == .poolServer
  | _ => true

/-- Where connections come from: the callback of an acceptor or a connector, or the thread of a server. -/
def allowsNew : TcpConnection.Holder → Bool
  | .server => match s.currentActiveChannel_ with
    | some (.acceptor _) => true
    | _ => false
  | .client => match s.currentActiveChannel_ with
    | some (.connector _) => true
    | _ => false
  | .poolServer => true

inductive Label where
  /-- An iteration begins: `activeChannels_.clear()`. -/
  | clear
  /-- `poll` puts a channel into `activeChannels_`. -/
  | report (p : ChannelId) (revents : Mask)
  /-- `eventHandling_ = true` -/
  | beginEvents
  /-- `currentActiveChannel_` moves on. -/
  | dispatchNext
  /-- `eventHandling_ = false` -/
  | endEvents
  | newAcceptor (fd : Int)
  | listen (i : Nat)
  | destroyAcceptor (i : Nat)
  | newClient
  | client (i : Nat) (a : TcpClient.Label)
  | newConnection (holder : TcpConnection.Holder) (fd : Int) (writeCompleteCallback : Bool)
    (highWaterMark : Option Nat)
  | connection (i : Nat) (a : Shared.Label)

def step : Label → Option (Except Failure State)
  | .clear =>
    if s.phase = .functors ∧ s.idle then
      some (.ok { s with phase := .polling, activeChannels_ := [], waiting := [] })
    else none
  | .report p revents =>
    if s.phase = .polling ∧ p ∉ s.activeChannels_ then
      (s.polled p revents).map fun r => r.map (push · p)
    else none
  | .beginEvents => if s.phase = .polling then some (.ok { s with phase := .events }) else none
  | .dispatchNext =>
    if s.phase = .events ∧ s.handled then
      match s.waiting with
      | [] => none
      | p :: waiting => handleEvent { s with currentActiveChannel_ := some p, waiting } p
    else none
  | .endEvents =>
    if s.phase = .events ∧ s.handled ∧ s.waiting = [] then
      some (.ok { s with phase := .functors, currentActiveChannel_ := none })
    else none
  | .newAcceptor fd =>
    if s.phase ≠ .polling then some (.ok { s with acceptors := s.acceptors ++ [some (.new fd)] }) else none
  | .listen i =>
    match s.acceptors[i]? with
    | some (some a) =>
      if s.phase ≠ .polling then some (.ok { s with acceptors := s.acceptors.set i (some a.listen) }) else none
    | _ => none
  | .destroyAcceptor i =>
    match s.acceptors[i]? with
    | some (some a) => if s.phase ≠ .polling then some (s.destroyAcceptor i a) else none
    | _ => none
  | .newClient => if s.phase ≠ .polling then some (.ok { s with clients := s.clients ++ [.new] }) else none
  | .client i a => if s.allowsClient i a then s.clientStep i a else none
  | .newConnection holder fd writeCompleteCallback highWaterMark =>
    if s.allowsNew holder then
      some (.ok { s with
        connections := s.connections ++ [.init holder (.new fd writeCompleteCallback highWaterMark)] })
    else none
  | .connection i a =>
    match s.connections[i]? with
    | none => none
    | some c => if s.allowsConnection i c a then s.connectionStep i a else none

end State

/-- A loop with its channels, until an assertion fails or something destroyed is used. -/
def runs : Machine (Except Failure State) State.Label := .ofExcept State.step

/-! ### The condition -/

/-- A connection keeps its owner. `~TcpServer` finds neither its acceptor nor a connection that it destroys at
once in `activeChannels_`, but for the channel whose callback it is called in. -/
def State.KeepsWaiting (s : State) : State.Label → Prop
  | .connection i a => ∀ c, s.connections[i]? = some c → c.KeepsOwner a ∧
      (a = .destroyHolder → c.holder = .server → c.held = true → s.MayRemove (.connection i))
  | .destroyAcceptor i => s.MayRemove (.acceptor i)
  | _ => True

namespace State

variable {s t : State} {a : Label} {r : Except Failure State} {i : Nat} {p : ChannelId} {c : Shared}

/-! ### Objects in lists -/

theorem any_getElem?_concat {α : Type} {l : List α} {x : α} {f : α → Bool} (h : l[i]?.any f = true) :
    (l ++ [x])[i]?.any f = true := by
  cases hi : l[i]? with
  | none => simp [hi] at h
  | some y =>
    obtain ⟨hlt, -⟩ := List.getElem?_eq_some_iff.mp hi
    rw [List.getElem?_append_left hlt]
    exact h

/-- What an object is replaced by has the property too. -/
theorem any_getElem?_set {α : Type} {l : List α} {x : α} {j : Nat} {f : α → Bool} (h : l[j]?.any f = true)
    (hx : j = i → f x = true) : (l.set i x)[j]?.any f = true := by
  rw [List.getElem?_set]
  split
  · rename_i hij
    split
    · exact hx hij.symm
    · rename_i hlt
      rw [List.getElem?_eq_none (by omega)] at h
      exact absurd h (by simp)
  · exact h

/-- The invariant of an object replaced. -/
theorem of_getElem?_set {α : Type} {l : List α} {x y : α} {j : Nat} {P : Nat → α → Prop}
    (h : ∀ j y, l[j]? = some y → P j y) (hx : P i x) (hj : (l.set i x)[j]? = some y) : P j y := by
  rw [List.getElem?_set] at hj
  split at hj
  · rename_i hij
    split at hj
    · obtain rfl := Option.some.inj hj
      exact hij ▸ hx
    · cases hj
  · exact h j y hj

theorem of_getElem?_concat {α : Type} {l : List α} {x y : α} {j : Nat} {P : Nat → α → Prop}
    (h : ∀ j y, l[j]? = some y → P j y) (hx : ∀ j, P j x) (hj : (l ++ [x])[j]? = some y) : P j y := by
  rw [List.getElem?_append] at hj
  split at hj
  · exact h j y hj
  · rw [List.getElem?_singleton] at hj
    obtain ⟨-, rfl⟩ := Machine.of_ite_eq_some hj
    exact hx j

/-! ### The invariant -/

/-- The connections and clients are sound, what is waiting is in `activeChannels_`, behind the current channel,
and registered; a `connectDestroyed` that is under way may remove its channel. -/
structure Sound (s : State) : Prop where
  connections : ∀ (i : Nat) (c : Shared), s.connections[i]? = some c → c.Fresh ∨ c.Established
  clients : ∀ (i : Nat) (c : TcpClient), s.clients[i]? = some c → c.Sound
  listed : ∀ p ∈ s.waiting, p ∈ s.activeChannels_
  nodup : s.waiting.Nodup
  behind : ∀ p ∈ s.waiting, s.currentActiveChannel_ ≠ some p
  current : s.phase ≠ .events → s.currentActiveChannel_ = none
  finished : s.phase = .functors → s.waiting = []
  registered : ∀ p ∈ s.waiting, s.registered p = true
  destroying : ∀ (i : Nat) (c : Shared), s.connections[i]? = some c → .connectDestroyed ∈ c.frames →
    s.phase ≠ .polling ∧ s.MayRemove (.connection i)

/-- The results that a run may reach. -/
def Reached : Except Failure State → Prop
  | .ok t => t.Sound
  | .error e => ∀ p, e ≠ .removeChannel p

theorem init_sound : init.Sound where
  connections i c h := by simp [init] at h
  clients i c h := by simp [init] at h
  listed p h := by cases h
  nodup := .nil
  behind p h := by cases h
  current _ := rfl
  finished _ := rfl
  registered p h := by cases h
  destroying i c h := by simp [init] at h

/-- What may be removed is not waiting. -/
theorem Sound.not_waiting (h : s.Sound) (hphase : s.phase ≠ .polling) (hp : s.MayRemove p) : p ∉ s.waiting := by
  intro hmem
  cases hs : s.phase with
  | polling => exact hphase hs
  | events =>
    rcases hp hs with hcurrent | hnot
    · exact h.behind p hmem hcurrent
    · exact hnot (h.listed p hmem)
  | functors => simp [h.finished hs] at hmem

/-! ### Steps of objects -/

/-- Objects change, the loop stays where it is. -/
theorem Sound.objects (h : s.Sound) {acceptors : List (Option Acceptor)} {clients : List TcpClient}
    {connections : List Shared}
    (hconnections : ∀ (i : Nat) (c : Shared), connections[i]? = some c → (c.Fresh ∨ c.Established) ∧
      (.connectDestroyed ∈ c.frames → s.phase ≠ .polling ∧ s.MayRemove (.connection i)))
    (hclients : ∀ (i : Nat) (c : TcpClient), clients[i]? = some c → c.Sound)
    (hregistered : ∀ p ∈ s.waiting, s.registered p = true →
      State.registered { s with acceptors, clients, connections } p = true) :
    Sound { s with acceptors, clients, connections } where
  connections i c hc := (hconnections i c hc).1
  clients := hclients
  listed := h.listed
  nodup := h.nodup
  behind := h.behind
  current := h.current
  finished := h.finished
  registered p hp := hregistered p hp (h.registered p hp)
  destroying i c hc := (hconnections i c hc).2

/-- What the invariant says of one connection. -/
theorem Sound.connection (h : s.Sound) (i : Nat) (c : Shared) (hc : s.connections[i]? = some c) :
    (c.Fresh ∨ c.Established) ∧
      (.connectDestroyed ∈ c.frames → s.phase ≠ .polling ∧ s.MayRemove (.connection i)) :=
  ⟨h.connections i c hc, h.destroying i c hc⟩

theorem Sound.setConnection (h : s.Sound) (hc : c.Fresh ∨ c.Established)
    (hdestroying : .connectDestroyed ∈ c.frames → s.phase ≠ .polling ∧ s.MayRemove (.connection i))
    (hregistered : .connection i ∈ s.waiting → c.registered = true) :
    Sound { s with connections := s.connections.set i c } := by
  refine h.objects (fun _ _ => of_getElem?_set h.connection ⟨hc, hdestroying⟩) h.clients fun p hp hreg => ?_
  cases p with
  | connection j => exact any_getElem?_set hreg fun hj => hregistered (hj ▸ hp)
  | _ => exact hreg

theorem Sound.setClient (h : s.Sound) {c : TcpClient} (hc : c.Sound)
    (hregistered : .connector i ∈ s.waiting → c.registered = true) :
    Sound { s with clients := s.clients.set i c } := by
  refine h.objects h.connection (fun _ _ => of_getElem?_set h.clients hc) fun p hp hreg => ?_
  cases p with
  | connector j => exact any_getElem?_set hreg fun hj => hregistered (hj ▸ hp)
  | _ => exact hreg

theorem Sound.setAcceptor (h : s.Sound) {a : Option Acceptor}
    (hregistered : .acceptor i ∈ s.waiting → a.any Acceptor.registered = true) :
    Sound { s with acceptors := s.acceptors.set i a } := by
  refine h.objects h.connection h.clients fun p hp hreg => ?_
  cases p with
  | acceptor j => exact any_getElem?_set hreg fun hj => hregistered (hj ▸ hp)
  | _ => exact hreg

theorem Sound.newConnection (h : s.Sound) (holder : TcpConnection.Holder) (fd : Int)
    (writeCompleteCallback : Bool) (highWaterMark : Option Nat) : Sound { s with
      connections := s.connections ++ [.init holder (.new fd writeCompleteCallback highWaterMark)] } := by
  refine h.objects (fun _ _ => of_getElem?_concat h.connection fun j => ⟨?_, fun hframe => ?_⟩) h.clients
    fun p _ hreg => ?_
  · by_cases hholder : holder = .poolServer
    · subst hholder
      exact .inl (Shared.fresh_init fd writeCompleteCallback highWaterMark)
    · exact .inr (Shared.established_init hholder _)
  · cases holder <;> simp [Shared.init, Shared.constructed] at hframe
  · cases p with
    | connection j => exact any_getElem?_concat hreg
    | _ => exact hreg

theorem Sound.newClient (h : s.Sound) : Sound { s with clients := s.clients ++ [.new] } := by
  refine h.objects h.connection (fun _ _ => of_getElem?_concat h.clients fun _ => TcpClient.new_sound)
    fun p _ hreg => ?_
  cases p with
  | connector j => exact any_getElem?_concat hreg
  | _ => exact hreg

theorem Sound.newAcceptor (h : s.Sound) (fd : Int) :
    Sound { s with acceptors := s.acceptors ++ [some (.new fd)] } := by
  refine h.objects h.connection h.clients fun p _ hreg => ?_
  cases p with
  | acceptor j => exact any_getElem?_concat hreg
  | _ => exact hreg

/-- What a step of an object comes to. -/
theorem objectStep_cases {σ ε : Type} {objects : List σ} {step : σ → Option (Except ε σ)}
    {callsRemove : σ → Bool} {failure : ε → Failure} {put : List σ → State}
    (hstep : s.objectStep p objects i step callsRemove failure put = some r) :
    ∃ c x, objects[i]? = some c ∧ step c = some x ∧
      ((callsRemove c = true ∧ ¬ s.MayRemove p ∧ r = .error (.removeChannel p)) ∨
        (∃ e, r = .error (failure e)) ∨
        ∃ d, x = .ok d ∧ r = .ok (put (objects.set i d))) := by
  unfold objectStep at hstep
  split at hstep
  · cases hstep
  · rename_i c hc
    obtain ⟨x, hx, rfl⟩ := Option.map_eq_some_iff.mp hstep
    refine ⟨c, x, hc, hx, ?_⟩
    by_cases hmay : callsRemove c = true → s.MayRemove p
    · refine .inr ?_
      rw [cassert_of hmay]
      cases x with
      | error e => exact .inl ⟨e, rfl⟩
      | ok d => exact .inr ⟨d, rfl, rfl⟩
    · obtain ⟨hremove, hnot⟩ := Classical.not_imp.mp hmay
      rw [cassert_of_not hmay]
      exact .inl ⟨hremove, hnot, rfl⟩

/-- A step of a connection that keeps its owner, in which a `connectDestroyed` may remove the channel. -/
theorem Sound.connectionStep (h : s.Sound) {a : Shared.Label} (hstep : s.connectionStep i a = some r)
    (hkeeps : ∀ c, s.connections[i]? = some c → c.KeepsOwner a)
    (hmay : ∀ c, s.connections[i]? = some c →
      (a = .channelRemove ∧ .connectDestroyed ∈ c.frames) ∨ c.Destroys a →
        s.phase ≠ .polling ∧ s.MayRemove (.connection i)) : Reached r := by
  obtain ⟨c, x, hc, hx, ⟨hremove, hnot, -⟩ | ⟨e, rfl⟩ | ⟨d, rfl, rfl⟩⟩ := objectStep_cases hstep
  · exact absurd (hmay c hc (Shared.of_callsRemove hremove)).2 hnot
  · exact fun p hp => by cases hp
  · refine h.setConnection ?_ (fun hframe => ?_) fun hwaiting => ?_
    · rcases h.connections i c hc with hfresh | hestablished
      · exact (hfresh.step hx).imp_right And.left
      · exact .inr (hestablished.step (hkeeps c hc) hx)
    · rcases Shared.step_destroying hx hframe with hbefore | hbegins
      · exact h.destroying i c hc hbefore
      · exact hmay c hc (.inr hbegins)
    · have hregistered : c.registered = true := by simpa [State.registered, hc] using h.registered _ hwaiting
      rcases Shared.step_registered hx hregistered with hd | hremove
      · exact hd
      · obtain ⟨hphase, hp⟩ := hmay c hc (Shared.of_callsRemove hremove)
        exact absurd hwaiting (h.not_waiting hphase hp)

/-- A step of a client, in which a connector may remove its channel. -/
theorem Sound.clientStep (h : s.Sound) {a : TcpClient.Label} (hstep : s.clientStep i a = some r)
    (hmay : ∀ c, s.clients[i]? = some c → c.callsRemove a = true →
      s.phase ≠ .polling ∧ s.MayRemove (.connector i)) : Reached r := by
  obtain ⟨c, x, hc, hx, ⟨hremove, hnot, -⟩ | ⟨e, rfl⟩ | ⟨d, rfl, rfl⟩⟩ := objectStep_cases hstep
  · exact absurd (hmay c hc hremove).2 hnot
  · exact fun p hp => by cases hp
  · refine h.setClient ((h.clients i c hc).step hx) fun hwaiting => ?_
    have hregistered : c.registered = true := by simpa [State.registered, hc] using h.registered _ hwaiting
    rcases TcpClient.step_registered hx hregistered with hd | hremove
    · exact hd
    · obtain ⟨hphase, hp⟩ := hmay c hc hremove
      exact absurd hwaiting (h.not_waiting hphase hp)

/-! ### Steps of the loop -/

theorem Sound.not_destroying (h : s.Sound) (hphase : s.phase = .polling) :
    ∀ (i : Nat) (c : Shared), s.connections[i]? = some c → .connectDestroyed ∉ c.frames :=
  fun i c hc hframe => (h.destroying i c hc hframe).1 hphase

theorem not_destroying_of_handled (h : s.handled) :
    ∀ (i : Nat) (c : Shared), s.connections[i]? = some c → .connectDestroyed ∉ c.frames := by
  intro i c hc
  rw [(h.2 c (List.mem_of_getElem? hc)).2]
  exact List.not_mem_nil

theorem not_destroying_of_idle (h : s.idle) :
    ∀ (i : Nat) (c : Shared), s.connections[i]? = some c → .connectDestroyed ∉ c.frames := by
  intro i c hc
  obtain ⟨-, -, hframes, -⟩ := h.2 c (List.mem_of_getElem? hc)
  rw [hframes]
  exact List.not_mem_nil

theorem Sound.clear (h : s.Sound) (hphase : s.phase = .functors) (hidle : s.idle) :
    Sound { s with phase := .polling, activeChannels_ := [], waiting := [] } where
  connections := h.connections
  clients := h.clients
  listed p hp := by cases hp
  nodup := .nil
  behind p hp := by cases hp
  current _ := h.current (by simp [hphase])
  finished _ := rfl
  registered p hp := by cases hp
  destroying i c hc hframe := absurd hframe (not_destroying_of_idle hidle i c hc)

/-- A channel that the poller reports is registered; the loop is still in `poll`. -/
theorem polled_ok {revents : Mask} (hpolled : s.polled p revents = some (.ok t)) :
    t.toIteration = s.toIteration ∧ t.registered p = true := by
  cases p with
  | wakeup =>
    obtain rfl := Except.ok.inj (Option.some.inj hpolled)
    exact ⟨rfl, rfl⟩
  | timer =>
    obtain rfl := Except.ok.inj (Option.some.inj hpolled)
    exact ⟨rfl, rfl⟩
  | acceptor i =>
    simp only [polled] at hpolled
    split at hpolled
    · rename_i a ha
      obtain ⟨⟨channel, activeChannels⟩, hpoll, hr⟩ := Option.map_eq_some_iff.mp hpolled
      obtain rfl := Except.ok.inj hr
      obtain ⟨hlt, -⟩ := List.getElem?_eq_some_iff.mp ha
      refine ⟨rfl, ?_⟩
      simpa [State.registered, hlt, Acceptor.registered] using (MirroredRegistry.hasChannel_of_poll hpoll).2
    · cases hpolled
  | connector i =>
    change s.clientStep i _ = _ at hpolled
    obtain ⟨c, x, hc, hx, ⟨-, -, hr⟩ | ⟨e, hr⟩ | ⟨d, rfl, hr⟩⟩ := objectStep_cases hpolled
    · cases hr
    · cases hr
    · obtain rfl := Except.ok.inj hr
      obtain ⟨hlt, -⟩ := List.getElem?_eq_some_iff.mp hc
      refine ⟨rfl, ?_⟩
      simpa [State.registered, hlt] using TcpClient.registered_of_poll hx
  | connection i =>
    change s.connectionStep i _ = _ at hpolled
    obtain ⟨c, x, hc, hx, ⟨-, -, hr⟩ | ⟨e, hr⟩ | ⟨d, rfl, hr⟩⟩ := objectStep_cases hpolled
    · cases hr
    · cases hr
    · obtain rfl := Except.ok.inj hr
      obtain ⟨hlt, -⟩ := List.getElem?_eq_some_iff.mp hc
      refine ⟨rfl, ?_⟩
      simpa [State.registered, hlt] using Shared.registered_of_poll hx

theorem Sound.polled (h : s.Sound) {revents : Mask} (hpolled : s.polled p revents = some r) : Reached r := by
  cases p with
  | wakeup =>
    obtain rfl := Option.some.inj hpolled
    exact h
  | timer =>
    obtain rfl := Option.some.inj hpolled
    exact h
  | acceptor i =>
    simp only [State.polled] at hpolled
    split at hpolled
    · obtain ⟨⟨channel, activeChannels⟩, hpoll, rfl⟩ := Option.map_eq_some_iff.mp hpolled
      exact h.setAcceptor fun _ => (MirroredRegistry.hasChannel_of_poll hpoll).2
    · cases hpolled
  | connector i => exact h.clientStep hpolled fun c _ hremove => by cases hremove
  | connection i =>
    refine h.connectionStep hpolled (fun _ _ => trivial) fun c _ hdestroys => ?_
    rcases hdestroys with ⟨ha, -⟩ | ⟨result, ha⟩ | ⟨ha, -⟩ <;> cases ha

theorem Sound.push (h : s.Sound) (hphase : s.phase = .polling) (hp : p ∉ s.activeChannels_)
    (hregistered : s.registered p = true) : (s.push p).Sound where
  connections := h.connections
  clients := h.clients
  listed q hq := by
    simp only [State.push, List.mem_append] at hq ⊢
    exact hq.imp (h.listed q) id
  nodup := by
    have hnew : p ∉ s.waiting := fun hmem => hp (h.listed p hmem)
    exact h.nodup.append (List.nodup_singleton p) (List.disjoint_singleton.mpr hnew)
  behind q _ := by
    show s.currentActiveChannel_ ≠ _
    simp [h.current (by simp [hphase])]
  current := h.current
  finished hfunctors := by cases hphase.symm.trans hfunctors
  registered q hq := by
    rcases List.mem_append.mp hq with hq | hq
    · exact h.registered q hq
    · obtain rfl := List.mem_singleton.mp hq
      exact hregistered
  destroying i c hc hframe := absurd hframe (h.not_destroying hphase i c hc)

theorem Sound.beginEvents (h : s.Sound) (hphase : s.phase = .polling) : Sound { s with phase := .events } where
  connections := h.connections
  clients := h.clients
  listed := h.listed
  nodup := h.nodup
  behind := h.behind
  current hne := absurd rfl hne
  finished hfunctors := by cases hfunctors
  registered := h.registered
  destroying i c hc hframe := absurd hframe (h.not_destroying hphase i c hc)

/-- The next channel becomes the current one. -/
theorem Sound.next (h : s.Sound) (hphase : s.phase = .events) (hhandled : s.handled) {waiting : List ChannelId}
    (hwaiting : s.waiting = p :: waiting) : Sound { s with currentActiveChannel_ := some p, waiting } where
  connections := h.connections
  clients := h.clients
  listed q hq := h.listed q (by simp [hwaiting, hq])
  nodup := by
    have hnodup := h.nodup
    rw [hwaiting] at hnodup
    exact hnodup.of_cons
  behind q hq hcurrent := by
    obtain rfl := Option.some.inj hcurrent
    have hnodup := h.nodup
    rw [hwaiting, List.nodup_cons] at hnodup
    exact hnodup.1 hq
  current hne := absurd hphase hne
  finished hfunctors := by cases hphase.symm.trans hfunctors
  registered q hq := h.registered q (by simp [hwaiting, hq])
  destroying i c hc hframe := absurd hframe (not_destroying_of_handled hhandled i c hc)

theorem Sound.handleEvent (h : s.Sound) (hevent : s.handleEvent p = some r) : Reached r := by
  cases p with
  | wakeup =>
    obtain rfl := Option.some.inj hevent
    exact h
  | timer =>
    obtain rfl := Option.some.inj hevent
    exact h
  | acceptor i =>
    obtain rfl := Option.some.inj hevent
    exact h
  | connector i => exact h.clientStep hevent fun c _ hremove => by cases hremove
  | connection i =>
    refine h.connectionStep hevent (fun _ _ => trivial) fun c _ hdestroys => ?_
    rcases hdestroys with ⟨ha, -⟩ | ⟨result, ha⟩ | ⟨ha, -⟩ <;> cases ha

theorem Sound.endEvents (h : s.Sound) (hhandled : s.handled) (hwaiting : s.waiting = []) :
    Sound { s with phase := .functors, currentActiveChannel_ := none } where
  connections := h.connections
  clients := h.clients
  listed := h.listed
  nodup := h.nodup
  behind p _ hcurrent := by cases hcurrent
  current _ := rfl
  finished _ := hwaiting
  registered := h.registered
  destroying i c hc hframe := absurd hframe (not_destroying_of_handled hhandled i c hc)

/-! ### Every step -/

theorem Sound.destroyAcceptor (h : s.Sound) {a : Acceptor} (hphase : s.phase ≠ .polling)
    (hmay : s.MayRemove (.acceptor i)) : Reached (s.destroyAcceptor i a) := by
  obtain ⟨channel, hok, -⟩ := a.acceptChannel_.remove_disableAll ()
  have hdestroy : s.destroyAcceptor i a = .ok { s with acceptors := s.acceptors.set i none } := by
    rw [State.destroyAcceptor, cassert_of hmay, Acceptor.destroy, hok]
    rfl
  rw [hdestroy]
  exact h.setAcceptor fun hwaiting => absurd hwaiting (h.not_waiting hphase hmay)

theorem mayRemove_of_inCallback (h : s.inCallback p = true) : s.phase ≠ .polling ∧ s.MayRemove p := by
  simp only [inCallback, Bool.and_eq_true, beq_iff_eq] at h
  exact ⟨by simp [h.1], fun _ => .inl h.2⟩

theorem mayRemove_of_functors (h : s.phase = .functors) : s.phase ≠ .polling ∧ s.MayRemove p :=
  ⟨by simp [h], fun hevents => by cases h.symm.trans hevents⟩

/-- A connector removes its channel in its own callbacks, and in functors. -/
theorem mayRemove_of_client {c : TcpClient} {a : TcpClient.Label} (hallows : s.allowsClient i a = true)
    (hremove : c.callsRemove a = true) : s.phase ≠ .polling ∧ s.MayRemove (.connector i) := by
  rcases TcpClient.of_callsRemove hremove with ⟨err, selfConnect, rfl⟩ | ⟨result, rfl⟩
  · exact mayRemove_of_inCallback hallows
  · exact mayRemove_of_functors (by simpa [allowsClient] using hallows)

/-- A connection removes its channel in functors, and where `~TcpServer` may. -/
theorem Sound.mayRemove_of_connection (h : s.Sound) {a : Shared.Label} (hc : s.connections[i]? = some c)
    (hallows : s.allowsConnection i c a = true) (hkeeps : s.KeepsWaiting (.connection i a))
    (hremove : (a = .channelRemove ∧ .connectDestroyed ∈ c.frames) ∨ c.Destroys a) :
    s.phase ≠ .polling ∧ s.MayRemove (.connection i) := by
  rcases hremove with ⟨rfl, hframe⟩ | ⟨result, rfl⟩ | ⟨rfl, hholder, hheld⟩
  · exact h.destroying i c hc hframe
  · exact mayRemove_of_functors (by simpa [allowsConnection] using hallows)
  · refine ⟨?_, (hkeeps c hc).2 rfl hholder hheld⟩
    simpa [allowsConnection, hholder] using hallows

theorem Sound.step (h : s.Sound) (hkeeps : s.KeepsWaiting a) (hstep : s.step a = some r) : Reached r := by
  cases a with
  | clear =>
    obtain ⟨⟨hphase, hidle⟩, rfl⟩ := Machine.of_ite_eq_some hstep
    exact h.clear hphase hidle
  | report p revents =>
    obtain ⟨⟨hphase, hp⟩, hstep⟩ := Option.ite_none_right_eq_some.mp hstep
    obtain ⟨x, hx, rfl⟩ := Option.map_eq_some_iff.mp hstep
    have hreached := h.polled hx
    cases x with
    | error e => exact hreached
    | ok t =>
      obtain ⟨hiteration, hregistered⟩ := polled_ok hx
      refine Sound.push hreached ?_ ?_ hregistered
      · rw [hiteration]
        exact hphase
      · rw [hiteration]
        exact hp
  | beginEvents =>
    obtain ⟨hphase, rfl⟩ := Machine.of_ite_eq_some hstep
    exact h.beginEvents hphase
  | dispatchNext =>
    obtain ⟨⟨hphase, hhandled⟩, hstep⟩ := Option.ite_none_right_eq_some.mp hstep
    split at hstep
    · cases hstep
    · rename_i p waiting hwaiting
      exact (h.next hphase hhandled hwaiting).handleEvent hstep
  | endEvents =>
    obtain ⟨⟨-, hhandled, hwaiting⟩, rfl⟩ := Machine.of_ite_eq_some hstep
    exact h.endEvents hhandled hwaiting
  | newAcceptor fd =>
    obtain ⟨-, rfl⟩ := Machine.of_ite_eq_some hstep
    exact h.newAcceptor fd
  | listen i =>
    simp only [State.step] at hstep
    split at hstep
    · obtain ⟨-, rfl⟩ := Machine.of_ite_eq_some hstep
      exact h.setAcceptor fun _ => MirroredRegistry.hasChannel_setInterest _ .enableReading ()
    · cases hstep
  | destroyAcceptor i =>
    simp only [State.step] at hstep
    split at hstep
    · obtain ⟨hphase, rfl⟩ := Machine.of_ite_eq_some hstep
      exact h.destroyAcceptor hphase hkeeps
    · cases hstep
  | newClient =>
    obtain ⟨-, rfl⟩ := Machine.of_ite_eq_some hstep
    exact h.newClient
  | client i a =>
    obtain ⟨hallows, hstep⟩ := Option.ite_none_right_eq_some.mp hstep
    exact h.clientStep hstep fun c _ hremove => mayRemove_of_client hallows hremove
  | newConnection holder fd writeCompleteCallback highWaterMark =>
    obtain ⟨-, rfl⟩ := Machine.of_ite_eq_some hstep
    exact h.newConnection holder fd writeCompleteCallback highWaterMark
  | connection i a =>
    simp only [State.step] at hstep
    split at hstep
    · cases hstep
    · rename_i c hc
      obtain ⟨hallows, hstep⟩ := Option.ite_none_right_eq_some.mp hstep
      refine h.connectionStep hstep (fun d hd => (hkeeps d hd).1) fun d hd hremove => ?_
      obtain rfl := Option.some.inj (hc.symm.trans hd)
      exact h.mayRemove_of_connection hc hallows hkeeps hremove

end State

open Dispatch.State

/-! ### Every run -/

end EventLoop.Dispatch

end Siren
