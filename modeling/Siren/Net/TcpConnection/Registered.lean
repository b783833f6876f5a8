import Siren.Net.TcpConnection.Owners

/-!
# The channel of a destroyed connection

From `connectEstablished` to the end of `connectDestroyed` the poller has the channel of a connection, and
somebody has to hold the connection: its client or server, then `guardThis` of `handleClose`, then the
functors that hand it over to `connectDestroyed`. `~TcpClient` lets go of a connection that is still open. It
closes one that nobody else holds; one that is shared it leaves to the others, who need not close it.

* `owner_while_registered`: an owner remains until `connectDestroyed` has run, and the poller has no channel
  of a destroyed connection, in every run in which a client is destroyed only with its connection unshared,
  closed or about to be, and nothing registers the channel again after `connectDestroyed`.
-/

namespace Siren.TcpConnection

open Channel (Handler)

/-! ### Member functions that do not close -/

/-- `d` comes from `c` without closing, and at most begins to disconnect. -/
def Stays (c d : TcpConnection) : Prop :=
  d.state = c.state ∨ (c.state = .kConnected ∨ c.state = .kDisconnecting) ∧ d.state = .kDisconnecting

variable {c d e : TcpConnection}

theorem Stays.closed (h : Stays c d) : d.state = .kDisconnected ↔ c.state = .kDisconnected := by
  rcases h with h | ⟨hc | hc, hd⟩
  · rw [h]
  · simp [hc, hd]
  · simp [hc, hd]

theorem Stays.connecting (h : Stays c d) : d.state = .kConnecting ↔ c.state = .kConnecting := by
  rcases h with h | ⟨hc | hc, hd⟩
  · rw [h]
  · simp [hc, hd]
  · simp [hc, hd]

theorem Stays.connected (h : Stays c d) (hd : d.state = .kConnected) : c.state = .kConnected := by
  rcases h with h | ⟨-, hd'⟩
  · exact h.symm.trans hd
  · cases hd'.symm.trans hd

theorem sendInLoop_state (data : List Byte) (result : WriteResult) :
    (c.sendInLoop data result).state = c.state :=
  (Writes.sendInLoop data result).state

theorem shutdownInLoop_state : c.shutdownInLoop.state = c.state := by
  unfold shutdownInLoop
  split <;> rfl

theorem startReadInLoop_state (c : TcpConnection) : c.startReadInLoop.state = c.state := by
  unfold startReadInLoop
  split <;> rfl

theorem stopReadInLoop_state (c : TcpConnection) : c.stopReadInLoop.state = c.state := by
  unfold stopReadInLoop
  split <;> rfl

theorem shutdownInLoop_channel : c.shutdownInLoop.channel = c.channel := by
  unfold shutdownInLoop
  split <;> rfl

theorem queueWriteComplete_channel : c.queueWriteComplete.channel = c.channel := by
  unfold queueWriteComplete
  split <;> rfl

theorem writeDirectly_channel (data : List Byte) (result : WriteResult) :
    (c.writeDirectly data result).conn.channel = c.channel := by
  unfold writeDirectly
  split
  · cases result with
    | failed errno => rfl
    | wrote n =>
      show (if _ then _ else _ : TcpConnection).channel = _
      split
      · exact queueWriteComplete_channel
      · rfl
  · rfl

/-- `sendInLoop` finds nothing in front of the message, and `write` takes all of it or answers that the peer
is gone. -/
def WritesAtOnce (c : TcpConnection) (message : List Byte) (result : WriteResult) : Prop :=
  c.isWriting = false ∧ c.outputBuffer.readableBytes = 0 ∧
    match result with
    | .wrote n => writeCount n message.length = message.length
    | .failed errno => isFault errno = true

theorem ne_EWOULDBLOCK_of_isFault {errno : Nat} (h : isFault errno = true) : errno ≠ EWOULDBLOCK := by
  rintro rfl
  exact absurd h (by decide)

/-- Of a message that is written at once `sendInLoop` has nothing left to append. -/
theorem WritesAtOnce.rest {data : List Byte} {result : WriteResult} (h : c.WritesAtOnce data result) :
    (c.writeDirectly data result).faultError = true ∨ (c.writeDirectly data result).remaining = 0 := by
  obtain ⟨hwriting, hempty, hresult⟩ := h
  unfold writeDirectly
  simp only [hwriting, hempty, Bool.not_false, beq_self_eq_true, Bool.and_self, if_true]
  cases result with
  | wrote n =>
    right
    show data.length - writeCount n data.length = 0
    rw [hresult, Nat.sub_self]
  | failed errno =>
    left
    show (errno != EWOULDBLOCK && isFault errno) = true
    simp [ne_EWOULDBLOCK_of_isFault hresult, show isFault errno = true from hresult]

/-- Of an empty message nothing is left either. -/
theorem writeDirectly_nil (result : WriteResult) : (c.writeDirectly [] result).remaining = 0 := by
  unfold writeDirectly
  split
  · cases result with
    | wrote n => exact Nat.zero_sub _
    | failed errno => rfl
  · rfl

/-- A message that is written at once, or given up, leaves the channel alone. -/
theorem sendInLoop_channel {data : List Byte} {result : WriteResult}
    (h : c.state = .kDisconnected ∨ data = [] ∨ c.WritesAtOnce data result) :
    (c.sendInLoop data result).channel = c.channel := by
  unfold sendInLoop
  dsimp only
  split
  · rfl
  · rename_i hstate
    have hrest : ((c.record (.sendInLoop data)).writeDirectly data result).faultError = true ∨
        ((c.record (.sendInLoop data)).writeDirectly data result).remaining = 0 := by
      rcases h with hdisconnected | rfl | hwrites
      · exact absurd hdisconnected hstate
      · exact .inr (writeDirectly_nil result)
      · exact WritesAtOnce.rest hwrites
    rw [if_neg (by rcases hrest with hfault | hzero <;> simp [*])]
    exact writeDirectly_channel data result

theorem handleWrite_of_not_writing (h : c.isWriting = false) (result : WriteResult) :
    c.handleWrite result = c := by
  unfold handleWrite
  simp [h]

/-! ### Calls and functors -/

theorem Stays.trans (h : Stays c d) (h' : Stays d e) : Stays c e := by
  rcases h with h | ⟨hc, hd⟩
  · unfold Stays at h' ⊢
    rwa [h] at h'
  · rcases h' with h' | ⟨-, he⟩
    · exact .inr ⟨hc, h'.trans hd⟩
    · exact .inr ⟨hc, he⟩

theorem Stays.rule : MemberRule Stays where
  refl _ := .inl rfl
  trans := Stays.trans
  record _ _ _ := .inl rfl
  queueInLoop _ _ := .inl rfl
  setOutputBuffer _ _ := .inl rfl
  enableWriting _ := .inl rfl
  disableWriting _ := .inl rfl
  setState _ hopen := .inr ⟨hopen, rfl⟩
  delay _ _ := .inl rfl

theorem Stays.call (thread : Thread) (result : WriteResult) (call : Call) :
    Stays c (c.call thread result call) :=
  Stays.rule.call thread result call (fun _ _ => .inl (startReadInLoop_state c))
    (fun _ _ => .inl (stopReadInLoop_state c))

/-- On the loop thread, a connection that is no more connected touches its channel for `startRead` and
`stopRead` only. -/
theorem call_loop_channel (hstate : c.state ≠ .kConnected) {call : Call}
    (hcall : call ≠ .startRead ∧ call ≠ .stopRead) (result : WriteResult) :
    (c.call .loop result call).channel = c.channel := by
  have hsend : ∀ message len, (c.send .loop message len result).channel = c.channel := by
    intro message len
    unfold TcpConnection.send
    rw [if_neg hstate]
    split <;> rfl
  cases call with
  | send message => exact hsend ..
  | sendString message => exact hsend message (toInt message.length)
  | sendBuffer message =>
    show (c.sendBuffer .loop message result).channel = _
    rw [sendBuffer, if_neg fun h => hstate h.1]
  | shutdown =>
    show (c.shutdown .loop).channel = _
    rw [shutdown, if_neg hstate]
  | forceClose =>
    show c.forceClose.channel = _
    unfold TcpConnection.forceClose
    split <;> rfl
  | forceCloseWithDelay =>
    show c.forceCloseWithDelay.channel = _
    unfold TcpConnection.forceCloseWithDelay
    split <;> rfl
  | startRead => exact absurd rfl hcall.1
  | stopRead => exact absurd rfl hcall.2

/-- A call on another thread leaves the channel to the loop. -/
theorem call_other_channel (call : Call) (result : WriteResult) :
    (c.call .other result call).channel = c.channel := by
  have hsend : ∀ message len, (c.send .other message len result).channel = c.channel := by
    intro message len
    unfold TcpConnection.send
    split
    · rfl
    · split <;> rfl
  cases call with
  | send message => exact hsend ..
  | sendString message => exact hsend message (toInt message.length)
  | sendBuffer message =>
    show (c.sendBuffer .other message result).channel = _
    unfold TcpConnection.sendBuffer
    split <;> rfl
  | shutdown =>
    show (c.shutdown .other).channel = _
    unfold TcpConnection.shutdown
    split <;> rfl
  | forceClose =>
    show c.forceClose.channel = _
    unfold TcpConnection.forceClose
    split <;> rfl
  | forceCloseWithDelay =>
    show c.forceCloseWithDelay.channel = _
    unfold TcpConnection.forceCloseWithDelay
    split <;> rfl
  | startRead => rfl
  | stopRead => rfl

/-- The functor leaves the channel alone: a `sendInLoop` is given up, or nothing of its message has to wait. -/
def LeavesChannel (c : TcpConnection) (result : WriteResult) : Functor → Prop
  | .sendInLoop message => c.state = .kDisconnected ∨ message = [] ∨ c.WritesAtOnce message result
  | .startReadInLoop => False
  | .stopReadInLoop => False
  | _ => True

theorem runFunctor_ok {f : Functor} {result : WriteResult} (hf : f ≠ .forceCloseInLoop)
    (hok : c.runFunctor result f = .ok d) :
    d.state = c.state ∧ (c.LeavesChannel result f → d.channel = c.channel) := by
  cases f with
  | sendInLoop message =>
    obtain rfl := Except.ok.inj hok
    exact ⟨sendInLoop_state _ _, sendInLoop_channel⟩
  | shutdownInLoop =>
    obtain rfl := Except.ok.inj hok
    exact ⟨shutdownInLoop_state, fun _ => shutdownInLoop_channel⟩
  | forceCloseInLoop => exact absurd rfl hf
  | startReadInLoop =>
    obtain rfl := Except.ok.inj hok
    exact ⟨startReadInLoop_state c, fun h => h.elim⟩
  | stopReadInLoop =>
    obtain rfl := Except.ok.inj hok
    exact ⟨stopReadInLoop_state c, fun h => h.elim⟩
  | writeCompleteCallback =>
    obtain rfl := Except.ok.inj hok
    exact ⟨rfl, fun _ => rfl⟩
  | highWaterMarkCallback size =>
    obtain rfl := Except.ok.inj hok
    exact ⟨rfl, fun _ => rfl⟩

namespace Shared

/-! ### What is owed -/

/-- `forceCloseInLoop` is queued, or about to be. -/
def Closes (s : Shared) : Prop := .member .forceCloseInLoop ∈ s.queue ∨ .forceCloseInLoop ∈ s.calls

/-- A client is destroyed when nobody else holds its connection, or it is closed, or about to be. After
`connectDestroyed` nothing touches the channel: no `startRead` or `stopRead` takes effect, and no `sendInLoop`
has something left to write. -/
def KeepsOwner (s : Shared) : Label → Prop
  | .destroyHolder => s.holder = .client → s.held = true → s.unique ∨ s.conn.state = .kDisconnected ∨ s.Closes
  | .request call _ => s.removed = true → call ≠ .startRead ∧ call ≠ .stopRead
  | .runFunctor result =>
    s.removed = true → ∀ f, s.functors.head? = some (.member f) → s.conn.LeavesChannel result f
  | _ => True

/-- The channel is out of the poller, and has no interest in writing. -/
def Gone (s : Shared) : Prop := (s.conn.channel.channel ()).index = kNew ∧ s.conn.isWriting = false

/-- The connection is closed with its close callback behind it, or its close callback is that of a holder
that is destroyed. -/
def Doomed (s : Shared) : Prop :=
  s.conn.state = .kDisconnected ∧ .handleClose ∉ s.frames ∨ s.alive = false ∧ s.closeCallback_ = .holder

/-- Before `connectEstablished`: nobody has met the connection. -/
structure Fresh (s : Shared) : Prop where
  connecting : s.conn.state = .kConnecting
  index : (s.conn.channel.channel ()).index = kNew
  holder : s.holder = .poolServer
  callback : s.closeCallback_ = .holder
  queued : .connectEstablished ∈ s.queue
  only : ∀ f ∈ s.queue, f = .connectEstablished ∨ f = .connectDestroyed
  handed : s.held = true ∨ .connectDestroyed ∈ s.queue
  dead : .connectDestroyed ∈ s.queue → s.alive = false
  active : s.active = false
  guard : s.guard = false
  frames : s.frames = []
  removals : s.removals = 0
  copies : s.copies = 0
  calls : s.calls = []
  timers : s.conn.delayedForceCloses = 0
  removed : s.removed = false

/-- After `connectEstablished`: where the calls that the loop thread is in have brought the connection. -/
structure Staged (s : Shared) : Prop where
  established : s.conn.state ≠ .kConnecting
  server : s.holder ≠ .client → s.closeCallback_ = .holder
  removing : 0 < s.removals → s.conn.state = .kDisconnected ∧ .handleClose ∉ s.frames
  closing : .handleClose ∈ s.frames → s.conn.state = .kDisconnected
  once : s.frames.count .handleClose ≤ 1
  destroying : .connectDestroyed ∈ s.frames → s.conn.state = .kDisconnected
  disconnected : s.removed = true → s.conn.state ≠ .kConnected
  gone : s.removed = true → s.Gone ∨ .handleClose ∈ s.frames

/-- While the connection is open somebody holds it or is about to close it, and a closed one is on its way to
`connectDestroyed`. -/
structure Established (s : Shared) : Prop extends Staged s where
  opened : s.conn.state ≠ .kDisconnected →
    s.removed = true ∨ s.held = true ∨ .connectDestroyed ∈ s.queue ∨ s.Closes
  closed : s.conn.state = .kDisconnected → s.removed = true ∨ .handleClose ∈ s.frames ∨
    .connectDestroyed ∈ s.frames ∨ .connectDestroyed ∈ s.queue ∨ 0 < s.removals
  doomed : s.removed = true ∨ .connectDestroyed ∈ s.queue ∨ .connectDestroyed ∈ s.frames → s.Doomed

variable {s t : Shared} {a : Label}

/-- `t` comes from `s` without a change of those who have to hold the connection. -/
structure Quiet (s t : Shared) : Prop where
  stays : Stays s.conn t.conn
  holder : t.holder = s.holder
  alive : t.alive = s.alive
  held : t.held = s.held
  callback : t.closeCallback_ = s.closeCallback_
  removed : t.removed = s.removed
  removals : t.removals = s.removals
  closing : t.frames.count .handleClose = s.frames.count .handleClose
  destroying : .connectDestroyed ∈ t.frames ↔ .connectDestroyed ∈ s.frames
  queued : .connectDestroyed ∈ t.queue ↔ .connectDestroyed ∈ s.queue
  closes : s.conn.state ≠ .kDisconnected → s.Closes → t.Closes
  gone : s.removed = true → s.Gone → t.Gone

theorem Quiet.mem_closing (h : Quiet s t) : .handleClose ∈ t.frames ↔ .handleClose ∈ s.frames := by
  rw [← List.count_pos_iff, h.closing, List.count_pos_iff]

theorem Quiet.doomed (h : Quiet s t) (hs : s.Doomed) : t.Doomed := by
  unfold Doomed
  rw [h.stays.closed, h.mem_closing, h.alive, h.callback]
  exact hs

theorem Staged.quiet (h : s.Staged) (hq : Quiet s t) : t.Staged where
  established := by
    rw [Ne, hq.stays.connecting]
    exact h.established
  server := by
    rw [hq.holder, hq.callback]
    exact h.server
  removing := by
    rw [hq.removals, hq.stays.closed, hq.mem_closing]
    exact h.removing
  closing := by
    rw [hq.mem_closing, hq.stays.closed]
    exact h.closing
  once := by
    rw [hq.closing]
    exact h.once
  destroying := by
    rw [hq.destroying, hq.stays.closed]
    exact h.destroying
  disconnected := by
    rw [hq.removed]
    exact fun hr hstate => h.disconnected hr (hq.stays.connected hstate)
  gone := by
    rw [hq.removed, hq.mem_closing]
    intro hr
    rcases h.gone hr with hgone | hclosing
    · exact .inl (hq.gone hr hgone)
    · exact .inr hclosing

/-- Who has the connection otherwise, and what waits for it, is not part of where it has come to. -/
theorem Staged.rest (h : s.Staged) {alive held active guard : Bool} {handlers : List Handler}
    {pendingFunctors functors ran : List LoopFunctor} {removalsRan copies : Nat} {calls : List Functor} :
    Staged { s with
      alive, held, active, guard, handlers, pendingFunctors, functors, ran, removalsRan, copies, calls } :=
  ⟨h.established, h.server, h.removing, h.closing, h.once, h.destroying, h.disconnected, h.gone⟩

theorem Established.quiet (h : s.Established) (hq : Quiet s t) : t.Established where
  toStaged := h.toStaged.quiet hq
  opened := by
    rw [Ne, hq.stays.closed, hq.removed, hq.held, hq.queued]
    intro hstate
    rcases h.opened hstate with hr | hr | hr | hr
    · exact .inl hr
    · exact .inr (.inl hr)
    · exact .inr (.inr (.inl hr))
    · exact .inr (.inr (.inr (hq.closes hstate hr)))
  closed := by
    rw [hq.stays.closed, hq.removed, hq.mem_closing, hq.destroying, hq.queued, hq.removals]
    exact h.closed
  doomed := by
    rw [hq.removed, hq.queued, hq.destroying]
    exact fun hs => hq.doomed (h.doomed hs)

theorem Gone.of_channel {d : TcpConnection} (h : s.Gone) (hd : d.channel = s.conn.channel) :
    (d.channel.channel ()).index = kNew ∧ d.isWriting = false := by
  unfold TcpConnection.isWriting
  rw [hd]
  exact h

/-- A member function that does not close, and leaves a removed channel alone. -/
theorem Quiet.setConn {c : TcpConnection} (hstays : Stays s.conn c)
    (hchannel : s.removed = true → s.Gone → c.channel = s.conn.channel) : Quiet s (s.setConn c) where
  stays := hstays
  holder := rfl
  alive := rfl
  held := rfl
  callback := rfl
  removed := rfl
  removals := rfl
  closing := rfl
  destroying := Iff.rfl
  queued := by simp [Shared.setConn, queue]
  closes _ h := by
    rcases h with h | h
    · refine .inl ?_
      simp only [Shared.setConn, queue, List.mem_append] at h ⊢
      rcases h with h | h
      · exact .inl h
      · exact .inr (.inl h)
    · exact .inr h
  gone hr hgone := hgone.of_channel (hchannel hr hgone)

/-- What changes neither the connection's state and channel nor those who have to hold it. -/
theorem Quiet.of_same (hstate : t.conn.state = s.conn.state) (hchannel : t.conn.channel = s.conn.channel)
    (hholder : t.holder = s.holder) (halive : t.alive = s.alive) (hheld : t.held = s.held)
    (hcallback : t.closeCallback_ = s.closeCallback_) (hremoved : t.removed = s.removed)
    (hremovals : t.removals = s.removals) (hframes : t.frames = s.frames) (hqueue : t.queue = s.queue)
    (hcalls : t.calls = s.calls) : Quiet s t where
  stays := .inl hstate
  holder := hholder
  alive := halive
  held := hheld
  callback := hcallback
  removed := hremoved
  removals := hremovals
  closing := by rw [hframes]
  destroying := by rw [hframes]
  queued := by rw [hqueue]
  closes _ h := by
    unfold Closes
    rw [hqueue, hcalls]
    exact h
  gone _ h := h.of_channel hchannel

/-- A functor that is neither `connectDestroyed` nor about to close the connection leaves the queue. -/
theorem Quiet.pop {f : LoopFunctor} {functors : List LoopFunctor} (hfunctors : s.functors = f :: functors)
    (hdestroy : f ≠ .connectDestroyed)
    (hclose : f = .member .forceCloseInLoop → s.conn.state = .kDisconnected) :
    Quiet s { s with functors, ran := s.ran ++ [f] } where
  stays := .inl rfl
  holder := rfl
  alive := rfl
  held := rfl
  callback := rfl
  removed := rfl
  removals := rfl
  closing := rfl
  destroying := Iff.rfl
  queued := by simp [queue, hfunctors, hdestroy.symm]
  closes hstate h := by
    have hne : .member .forceCloseInLoop ≠ f := fun hf => hstate (hclose hf.symm)
    rcases h with h | h
    · exact .inl (by simpa [queue, hfunctors, hne] using h)
    · exact .inr h
  gone _ h := h

/-! ### Steps that hand the connection over -/

/-- `handleClose` of an open connection, with the loop thread in no other call. -/
theorem Established.closes (h : s.Established)
    (hopen : s.conn.state = .kDisconnecting ∨ s.conn.state = .kConnected)
    (hstate : t.conn.state = .kDisconnected) (hframes : t.frames = [.handleClose])
    (hholder : t.holder = s.holder) (halive : t.alive = s.alive)
    (hcallback : t.closeCallback_ = s.closeCallback_) (hremoved : t.removed = s.removed)
    (hremovals : t.removals = s.removals) (hqueue : .connectDestroyed ∈ t.queue → .connectDestroyed ∈ s.queue) :
    t.Established := by
  have hnot : s.conn.state ≠ .kDisconnected := by rcases hopen with h | h <;> simp [h]
  have hmem : .handleClose ∈ t.frames := by simp [hframes]
  refine ⟨⟨by simp [hstate], ?_, ?_, fun _ => hstate, by simp [hframes], fun _ => hstate, by simp [hstate],
    fun _ => .inr hmem⟩, fun hne => absurd hstate hne, fun _ => .inr (.inl hmem), ?_⟩
  · rw [hholder, hcallback]
    exact h.server
  · rw [hremovals]
    exact fun hr => absurd (h.removing hr).1 hnot
  · intro hs
    have hdoomed : s.Doomed := by
      refine h.doomed ?_
      rcases hs with hr | hr | hr
      · exact .inl (hremoved ▸ hr)
      · exact .inr (.inl (hqueue hr))
      · simp [hframes] at hr
    rcases hdoomed with ⟨hclosed, -⟩ | ⟨hdead, hholder⟩
    · exact absurd hclosed hnot
    · exact .inr ⟨halive.trans hdead, hcallback.trans hholder⟩

/-- `closeCallback_` passes the closed connection on. -/
theorem Established.closeCallback (h : s.Established) {frames : List Frame}
    (hframes : s.frames = .handleClose :: frames) (hok : Shared.closeCallback { s with frames } = .ok t) :
    t.Established := by
  have hstate := h.closing (by simp [hframes])
  have hout : .handleClose ∉ frames := by
    have honce := h.once
    rw [hframes, List.count_cons_self] at honce
    exact List.count_eq_zero.mp (by omega)
  have hdestroying : ∀ f ∈ frames, f ∈ s.frames := fun f hf => by simp [hframes, hf]
  obtain ⟨hlive, hresult⟩ := closeCallback_ok hok
  have hremoved : s.removed = false := by
    by_contra hr
    rcases h.doomed (.inl (by simpa using hr)) with ⟨-, hnot⟩ | ⟨hdead, hholder⟩
    · exact hnot (by simp [hframes])
    · rcases hlive with hdetached | halive
      · exact absurd (hholder.symm.trans hdetached) (by decide)
      · exact Bool.noConfusion (hdead.symm.trans halive)
  have hstaged : ∀ removals, Staged { s with frames, removals } := fun removals =>
    ⟨h.established, h.server, fun _ => ⟨hstate, hout⟩, fun _ => hstate,
      by simp [List.count_eq_zero_of_not_mem hout], fun _ => hstate, h.disconnected,
      fun hr => by simp [hremoved] at hr⟩
  rcases hresult with ⟨held, rfl⟩ | rfl
  · refine ⟨(hstaged s.removals).rest, fun hne => absurd hstate hne, fun _ => ?_, fun _ => .inl ⟨hstate, hout⟩⟩
    exact .inr (.inr (.inr (.inl (by simp [queueInLoop, queue]))))
  · refine ⟨hstaged _, fun hne => absurd hstate hne, fun _ => ?_, fun _ => .inl ⟨hstate, hout⟩⟩
    exact .inr (.inr (.inr (.inr (Nat.succ_pos _))))

theorem gone_of_remove {channel : MirroredRegistry Unit} (hchannel : s.conn.channel.remove () = .ok channel) :
    (channel.channel ()).index = kNew ∧ (channel.channel ()).isWriting = false := by
  obtain ⟨-, hnone, hself⟩ := MirroredRegistry.remove_spec hchannel
  rw [hself]
  refine ⟨rfl, ?_⟩
  show Mask.has (s.conn.channel.channel ()).events Channel.kWriteEvent = false
  rw [hnone]
  decide

/-- `channel_->remove()` at the end of `connectDestroyed`. -/
theorem Staged.channelRemove (h : s.Staged) (hdoomed : s.Doomed) (hstate : s.conn.state ≠ .kConnected)
    (hok : s.channelRemove = .ok t) : t.Established := by
  obtain ⟨channel, hchannel, rfl⟩ := channelRemove_ok hok
  exact ⟨⟨h.established, h.server, h.removing, h.closing, h.once, h.destroying, fun _ => hstate,
    fun _ => .inl (gone_of_remove hchannel)⟩, fun _ => .inl rfl, fun _ => .inl rfl, fun _ => hdoomed⟩

theorem Staged.connectDestroyed (h : s.Staged) (hdoomed : s.Doomed) (hok : s.connectDestroyed = .ok t) :
    t.Established := by
  rcases connectDestroyed_ok hok with ⟨hstate, rfl⟩ | ⟨hstate, hok⟩
  · have hout : .handleClose ∉ s.frames := fun hmem => by simp [h.closing hmem] at hstate
    have hdead : s.alive = false ∧ s.closeCallback_ = .holder := by
      rcases hdoomed with ⟨hclosed, -⟩ | hdead
      · cases hclosed.symm.trans hstate
      · exact hdead
    refine ⟨⟨by simp [TcpConnection.setInterest, TcpConnection.setState], h.server, fun hr => ?_,
      fun _ => rfl, ?_, fun _ => rfl, by simp [TcpConnection.setInterest, TcpConnection.setState], fun hr => ?_⟩,
      fun hne => absurd rfl hne, fun _ => .inr (.inr (.inl List.mem_cons_self)), fun _ => .inr hdead⟩
    · cases (h.removing hr).1.symm.trans hstate
    · rw [List.count_cons_of_ne (by decide)]
      exact h.once
    · exact absurd hstate (h.disconnected hr)
  · exact h.channelRemove hdoomed hstate hok

/-- The loop of the server runs `removeConnectionInLoop`. -/
theorem Established.removeConnectionInLoop (h : s.Established) (hremovals : 0 < s.removals)
    (hok : Shared.removeConnectionInLoop
      { s with removals := s.removals - 1, removalsRan := s.removalsRan + 1 } = .ok t) : t.Established := by
  obtain ⟨-, -, rfl⟩ := removeConnectionInLoop_ok hok
  obtain ⟨hstate, hout⟩ := h.removing hremovals
  refine ⟨⟨h.established, h.server, fun _ => ⟨hstate, hout⟩, h.closing, h.once, h.destroying, h.disconnected,
    h.gone⟩, fun hne => absurd hstate hne, fun _ => ?_, fun _ => .inl ⟨hstate, hout⟩⟩
  exact .inr (.inr (.inr (.inl (by simp [queueInLoop, queue]))))

/-- `~TcpClient` lets go of a connection that is closed, about to be, or that it closes itself. -/
theorem Established.destroyClient (h : s.Established) (halive : s.alive = true) (hheld : s.held = true)
    (hclient : s.holder = .client) (hkeeps : s.unique ∨ s.conn.state = .kDisconnected ∨ s.Closes) :
    s.destroyClient.Established := by
  have hclosed : s.removed = true ∨ .connectDestroyed ∈ s.queue ∨ .connectDestroyed ∈ s.frames →
      s.conn.state = .kDisconnected ∧ .handleClose ∉ s.frames := by
    intro hs
    rcases h.doomed hs with hd | ⟨hdead, -⟩
    · exact hd
    · exact Bool.noConfusion (halive.symm.trans hdead)
  let bare : Shared := { s with alive := false, closeCallback_ := .detached, held := false }
  have hbare : bare.Staged := ⟨h.established, fun hne => absurd hclient hne, h.removing, h.closing, h.once,
    h.destroying, h.disconnected, h.gone⟩
  rw [destroyClient_of_held hheld]
  split
  · have hquiet : Quiet bare (bare.setConn s.conn.forceClose) :=
      .setConn (.call .other (.wrote 0) .forceClose) fun _ _ => call_other_channel .forceClose (.wrote 0)
    have hstaged := hbare.quiet hquiet
    refine ⟨hstaged.rest, fun hne => ?_, fun hstate => ?_, fun hs => ?_⟩
    · -- An open connection gets its `forceCloseInLoop`.
      have hopen : s.conn.state = .kConnected ∨ s.conn.state = .kDisconnecting := by
        have hnot : s.conn.state ≠ .kDisconnected := fun hd => hne (hquiet.stays.closed.mpr hd)
        have hestablished := h.established
        cases hstate : s.conn.state <;> simp_all
      refine .inr (.inr (.inr (.inl ?_)))
      simp [setConn, queue, TcpConnection.forceClose, hopen, TcpConnection.queueInLoop]
    · rcases h.closed (hquiet.stays.closed.mp hstate) with hr | hr | hr | hr | hr
      · exact .inl hr
      · exact .inr (.inl hr)
      · exact .inr (.inr (.inl hr))
      · exact .inr (.inr (.inr (.inl (hquiet.queued.mpr hr))))
      · exact .inr (.inr (.inr (.inr hr)))
    · obtain ⟨hstate, hout⟩ := hclosed (by
        rcases hs with hr | hr | hr
        · exact .inl hr
        · exact .inr (.inl (hquiet.queued.mp hr))
        · exact .inr (.inr hr))
      exact .inl ⟨hquiet.stays.closed.mpr hstate, hout⟩
  · rename_i hshared
    refine ⟨hbare.rest, fun hne => ?_, h.closed, fun hs => .inl (hclosed hs)⟩
    rcases hkeeps with hunique | hstate | hcloses
    · exact absurd hunique hshared
    · exact absurd hstate hne
    · exact .inr (.inr (.inr hcloses))

theorem Established.destroyHolder (h : s.Established) (halive : s.alive = true)
    (hkeeps : s.KeepsOwner .destroyHolder) (hok : s.destroyHolder = .ok t) : t.Established := by
  rcases destroyHolder_ok hok with ⟨hheld, rfl⟩ | ⟨hheld, hholder, rfl⟩ | ⟨hheld, hholder, hok⟩ |
    ⟨hheld, hholder, rfl⟩
  · refine ⟨h.rest, h.opened, h.closed, fun hs => ?_⟩
    rcases h.doomed hs with hd | ⟨-, hcallback⟩
    · exact .inl hd
    · exact .inr ⟨rfl, hcallback⟩
  · exact h.destroyClient halive hheld hholder (hkeeps hholder hheld)
  · have hstaged : Staged { s with alive := false, held := false } := h.rest
    exact hstaged.connectDestroyed (.inr ⟨rfl, h.server (by simp [hholder])⟩) hok
  · have hqueued : .connectDestroyed ∈
        (queueInLoop { s with alive := false, held := false } .connectDestroyed).queue := by
      simp [queueInLoop, queue]
    exact ⟨h.rest, fun _ => .inr (.inr (.inl hqueued)), fun _ => .inr (.inr (.inr (.inl hqueued))),
      fun _ => .inr ⟨rfl, h.server (by simp [hholder])⟩⟩

/-! ### What the loop runs -/

theorem Established.runHandler (h : s.Established) (hframes : s.frames = []) {read : ReadResult}
    {write : WriteResult} {handler : Handler} (hok : s.runHandler read write handler = .ok t) :
    t.Established := by
  have hclose : ∀ inputBuffer, Shared.handleClose { s with conn := { s.conn with inputBuffer } } = .ok t →
      t.Established := by
    intro inputBuffer hok
    obtain ⟨hopen, rfl⟩ := handleClose_ok hok
    exact h.closes hopen rfl (by simp [Shared.closing, hframes]) rfl rfl rfl rfl rfl fun hq => hq
  cases handler with
  | close => exact hclose s.conn.inputBuffer hok
  | error =>
    obtain rfl := Except.ok.inj hok
    exact h.quiet (.setConn (.inl rfl) fun _ _ => rfl)
  | write =>
    obtain rfl := Except.ok.inj hok
    refine h.quiet (.setConn (.inl (handleWrite_state s.conn write)) fun _ hgone => ?_)
    rw [handleWrite_of_not_writing hgone.2]
  | read =>
    rcases handleRead_ok hok with ⟨c, hstate, hchannel, -, rfl⟩ | ⟨-, inputBuffer, hok⟩
    · exact h.quiet (.setConn (.inl hstate) fun _ _ => hchannel)
    · exact hclose inputBuffer hok

theorem Established.runFunctor (h : s.Established) {result : WriteResult} {f : LoopFunctor}
    {functors : List LoopFunctor} (hframes : s.frames = []) (hfunctors : s.functors = f :: functors)
    (hkeeps : s.KeepsOwner (.runFunctor result))
    (hok : run { s with functors, ran := s.ran ++ [f] } result f = .ok t) : t.Established := by
  cases f with
  | connectEstablished =>
    obtain ⟨hstate, -⟩ := of_cassert_bind hok
    exact absurd hstate h.established
  | connectDestroyed =>
    have hqueued : .connectDestroyed ∈ s.queue := by simp [queue, hfunctors]
    have hstaged : Staged { s with functors, ran := s.ran ++ [.connectDestroyed] } := h.rest
    exact hstaged.connectDestroyed (h.doomed (.inr (.inl hqueued))) hok
  | member f =>
    rcases run_member_ok hok with ⟨rfl, hclose | ⟨hclosed, rfl⟩⟩ | ⟨hf, c, hrun, rfl⟩
    · obtain ⟨hopen, rfl⟩ := handleClose_ok hclose
      refine h.closes hopen rfl (by simp [Shared.closing, hframes]) rfl rfl rfl rfl rfl fun hq => ?_
      simpa [Shared.closing, queue, hfunctors] using hq
    · refine h.quiet (.pop hfunctors (by simp) fun _ => ?_)
      have hestablished := h.established
      cases hstate : s.conn.state <;> simp_all
    · obtain ⟨hstate, hchannel⟩ := runFunctor_ok hf hrun
      have hpop := h.quiet (.pop hfunctors (by simp) fun hclose => absurd (LoopFunctor.member.inj hclose) hf)
      refine hpop.quiet (.setConn (.inl hstate) fun hr _ => hchannel ?_)
      exact hkeeps hr f (by simp [hfunctors])

/-! ### Every step -/

theorem Quiet.beginCall (call : Call) : Quiet s { s with
    conn := { s.conn.call .other (.wrote 0) call with pendingFunctors := [] }
    calls := s.calls ++ (s.conn.call .other (.wrote 0) call).pendingFunctors } where
  stays := .call .other (.wrote 0) call
  holder := rfl
  alive := rfl
  held := rfl
  callback := rfl
  removed := rfl
  removals := rfl
  closing := rfl
  destroying := Iff.rfl
  queued := Iff.rfl
  closes _ h := h.imp id fun hcall => List.mem_append_left _ hcall
  gone _ h := h.of_channel (call_other_channel call (.wrote 0))

theorem Quiet.endCall {f : Functor} :
    Quiet s (queueInLoop { s with calls := s.calls.erase f } (.member f)) where
  stays := .inl rfl
  holder := rfl
  alive := rfl
  held := rfl
  callback := rfl
  removed := rfl
  removals := rfl
  closing := rfl
  destroying := Iff.rfl
  queued := by simp [queueInLoop, queue]
  closes _ h := by
    rcases h with h | h
    · refine .inl ?_
      simp only [queueInLoop, queue, List.mem_append] at h ⊢
      rcases h with h | h
      · exact .inl h
      · exact .inr (.inl h)
    · by_cases hf : f = .forceCloseInLoop
      · exact .inl (by simp [queueInLoop, queue, hf])
      · exact .inr ((List.mem_erase_of_ne (Ne.symm hf)).mpr h)
  gone _ h := h

theorem Quiet.popFrame {frames : List Frame} (hframes : s.frames = .connectEstablished :: frames) :
    Quiet s { s with frames } where
  stays := .inl rfl
  holder := rfl
  alive := rfl
  held := rfl
  callback := rfl
  removed := rfl
  removals := rfl
  closing := by rw [hframes, List.count_cons_of_ne (by decide)]
  destroying := by simp [hframes]
  queued := Iff.rfl
  closes _ h := h
  gone _ h := h

theorem Established.step (h : s.Established) (hkeeps : s.KeepsOwner a) (hstep : s.step a = some (.ok t)) :
    t.Established := by
  generalize hr : Except.ok t = r at hstep
  cases step_takes hstep with
  | beginCall call hcopies =>
    obtain rfl := Except.ok.inj hr
    exact h.quiet (.beginCall call)
  | endCall f hf =>
    obtain rfl := Except.ok.inj hr
    exact h.quiet .endCall
  | request call result hreachable =>
    obtain rfl := Except.ok.inj hr
    exact h.quiet (.setConn (.call .loop result call) fun hremoved _ =>
      call_loop_channel (h.disconnected hremoved) (hkeeps hremoved) result)
  | delayedForceClose hdelayed howners =>
    obtain rfl := Except.ok.inj hr
    exact h.quiet (.setConn (.call .other (.wrote 0) .forceClose) fun _ _ =>
      call_other_channel .forceClose (.wrote 0))
  | poll revents channel activeChannels hidle hpoll =>
    obtain rfl := Except.ok.inj hr
    obtain ⟨⟨⟩, -, hadded, -⟩ := MirroredRegistry.poll_singleton hpoll
    refine h.quiet ⟨.inl rfl, rfl, rfl, rfl, rfl, rfl, rfl, rfl, Iff.rfl, Iff.rfl, fun _ hc => hc, ?_⟩
    intro _ hgone
    cases hgone.1.symm.trans hadded
  | handle read write handler handlers hguard hframes hhandlers =>
    have hsame := h.quiet (t := { s with handlers }) (.of_same rfl rfl rfl rfl rfl rfl rfl rfl rfl rfl rfl)
    exact hsame.runHandler hframes hr.symm
  | endEstablished frames hframes =>
    obtain rfl := Except.ok.inj hr
    exact h.quiet (.popFrame hframes)
  | closeCallback frames hframes => exact h.closeCallback hframes hr.symm
  | channelRemove frames hframes =>
    have hstate := h.destroying (by simp [hframes])
    have hmem : ∀ f ∈ frames, f ∈ s.frames := fun f hf => by simp [hframes, hf]
    have hdoomed : Doomed { s with frames } := by
      rcases h.doomed (.inr (.inr (by simp [hframes]))) with ⟨-, hout⟩ | hdead
      · exact .inl ⟨hstate, fun hf => hout (hmem _ hf)⟩
      · exact .inr hdead
    have hstaged : Staged { s with frames } := by
      refine ⟨h.established, h.server, fun hr => ⟨hstate, fun hf => (h.removing hr).2 (hmem _ hf)⟩,
        fun _ => hstate, ?_, fun _ => hstate, h.disconnected, fun hremoved => ?_⟩
      · have honce := h.once
        rwa [hframes, List.count_cons_of_ne (by decide)] at honce
      · rcases h.gone hremoved with hgone | hmem
        · exact .inl hgone
        · exact .inr (by simpa [hframes] using hmem)
    exact hstaged.channelRemove hdoomed (by simp [hstate]) hr.symm
  | swap hidle =>
    obtain rfl := Except.ok.inj hr
    obtain ⟨-, -, -, hfunctors, -⟩ := hidle
    exact h.quiet (.of_same rfl rfl rfl rfl rfl rfl rfl rfl rfl (by simp [queue, hfunctors]) rfl)
  | runFunctor result f functors hframes hfunctors howners =>
    exact h.runFunctor hframes hfunctors hkeeps hr.symm
  | removeConnectionInLoop hremovals => exact h.removeConnectionInLoop hremovals hr.symm
  | destroyHolder halive => exact h.destroyHolder halive hkeeps hr.symm
  | channelGone => cases hr
  | destroyed => cases hr
  | _ =>
    obtain rfl := Except.ok.inj hr
    exact h.quiet (.of_same rfl rfl rfl rfl rfl rfl rfl rfl rfl rfl rfl)

/-- `connectEstablished` runs on the loop of the connection. -/
theorem Fresh.runFunctor (h : s.Fresh) {result : WriteResult} {f : LoopFunctor} {functors : List LoopFunctor}
    (hfunctors : s.functors = f :: functors)
    (hok : run { s with functors, ran := s.ran ++ [f] } result f = .ok t) :
    t.Established ∧ t.conn.state = .kConnected := by
  have hmem : f ∈ s.queue := by simp [queue, hfunctors]
  rcases h.only f hmem with rfl | rfl
  · obtain ⟨-, hok⟩ := of_cassert_bind hok
    obtain rfl := Except.ok.inj hok
    have hqueue : ∀ g ∈ functors ++ s.pendingFunctors, g ∈ s.queue := fun g hg => by
      rw [queue, hfunctors, List.cons_append]
      exact List.mem_cons_of_mem _ hg
    refine ⟨⟨⟨by simp [TcpConnection.connectEstablished], fun _ => h.callback, fun hr => ?_, ?_, ?_, ?_,
      fun hr => ?_, fun hr => ?_⟩, fun _ => ?_, ?_, ?_⟩, rfl⟩
    · simp [h.removals] at hr
    · simp [h.frames]
    · simp [h.frames]
    · simp [h.frames]
    · simp [h.removed] at hr
    · simp [h.removed] at hr
    · rcases h.handed with hheld | hqueued
      · exact .inr (.inl hheld)
      · refine .inr (.inr (.inl ?_))
        simpa [queue, hfunctors] using hqueued
    · simp [TcpConnection.connectEstablished]
    · rintro (hr | hr | hr)
      · simp [h.removed] at hr
      · exact .inr ⟨h.dead (hqueue _ hr), h.callback⟩
      · simp [h.frames] at hr
  · rcases connectDestroyed_ok hok with ⟨hstate, -⟩ | ⟨-, hok⟩
    · cases h.connecting.symm.trans hstate
    · obtain ⟨channel, hchannel, -⟩ := channelRemove_ok hok
      exact absurd h.index (MirroredRegistry.remove_spec hchannel).1

/-- The functors to come are the same, in other places. -/
theorem Fresh.rest (h : s.Fresh) {pendingFunctors functors ran : List LoopFunctor} {removalsRan : Nat}
    (hqueue : functors ++ pendingFunctors = s.queue) :
    Fresh { s with pendingFunctors, functors, ran, removalsRan } where
  connecting := h.connecting
  index := h.index
  holder := h.holder
  callback := h.callback
  queued := by
    rw [queue, hqueue]
    exact h.queued
  only := by
    rw [queue, hqueue]
    exact h.only
  handed := by
    rw [queue, hqueue]
    exact h.handed
  dead := by
    rw [queue, hqueue]
    exact h.dead
  active := h.active
  guard := h.guard
  frames := h.frames
  removals := h.removals
  copies := h.copies
  calls := h.calls
  timers := h.timers
  removed := h.removed

theorem Fresh.step (h : s.Fresh) (hstep : s.step a = some (.ok t)) :
    t.Fresh ∨ t.Established ∧ t.conn.state = .kConnected := by
  generalize hr : Except.ok t = r at hstep
  cases step_takes hstep with
  | copy hreachable => exact absurd h.connecting hreachable.2
  | drop hcopies => simp [h.copies] at hcopies
  | beginCall call hcopies => simp [h.copies] at hcopies
  | endCall f hf => simp [h.calls] at hf
  | request call result hreachable => exact absurd h.connecting hreachable.2
  | expired hdelayed howners => simp [h.timers] at hdelayed
  | delayedForceClose hdelayed howners => simp [h.timers] at hdelayed
  | poll revents channel activeChannels hidle hpoll =>
    obtain ⟨⟨⟩, -, hadded, -⟩ := MirroredRegistry.poll_singleton hpoll
    cases h.index.symm.trans hadded
  | channelGone => cases hr
  | dispatch hactive howners => simp [h.active] at hactive
  | handle read write handler handlers hguard hframes hhandlers => simp [h.guard] at hguard
  | endDispatch hguard => simp [h.guard] at hguard
  | endEstablished frames hframes => simp [h.frames] at hframes
  | closeCallback frames hframes => simp [h.frames] at hframes
  | channelRemove frames hframes => simp [h.frames] at hframes
  | swap hidle =>
    obtain rfl := Except.ok.inj hr
    obtain ⟨-, -, -, hfunctors, -⟩ := hidle
    exact .inl (h.rest (by simp [queue, hfunctors]))
  | destroyed => cases hr
  | runFunctor result f functors hframes hfunctors howners => exact .inr (h.runFunctor hfunctors hr.symm)
  | endBatch =>
    obtain rfl := Except.ok.inj hr
    exact .inl (h.rest rfl)
  | removeConnectionInLoop hremovals => simp [h.removals] at hremovals
  | endRemoval =>
    obtain rfl := Except.ok.inj hr
    exact .inl (h.rest rfl)
  | destroyHolder halive =>
    rcases destroyHolder_ok hr.symm with ⟨hheld, rfl⟩ | ⟨hheld, hholder, rfl⟩ | ⟨hheld, hholder, hok⟩ |
      ⟨hheld, hholder, rfl⟩
    · exact .inl ⟨h.connecting, h.index, h.holder, h.callback, h.queued, h.only, h.handed, fun _ => rfl,
        h.active, h.guard, h.frames, h.removals, h.copies, h.calls, h.timers, h.removed⟩
    · cases h.holder.symm.trans hholder
    · cases h.holder.symm.trans hholder
    · refine .inl ⟨h.connecting, h.index, h.holder, h.callback, ?_, ?_, .inr ?_, fun _ => rfl, h.active,
        h.guard, h.frames, h.removals, h.copies, h.calls, h.timers, h.removed⟩
      · have hqueued := h.queued
        simp only [queueInLoop, queue, List.mem_append] at hqueued ⊢
        tauto
      · intro f hf
        simp only [queueInLoop, queue, ← List.append_assoc, List.mem_append, List.mem_singleton] at hf
        rcases hf with hf | hf
        · exact h.only f (by simpa [queue] using hf)
        · exact .inr hf
      · simp [queueInLoop, queue]

/-! ### Every run -/

theorem established_init {holder : Holder} (hholder : holder ≠ .poolServer) (conn : TcpConnection) :
    (init holder conn).Established := by
  have hinit : init holder conn =
      { constructed holder conn with conn := conn.connectEstablished, frames := [.connectEstablished] } := by
    cases holder with
    | client => rfl
    | server => rfl
    | poolServer => exact absurd rfl hholder
  rw [hinit]
  have hstate : conn.connectEstablished.state = .kConnected := rfl
  refine ⟨⟨by simp [hstate], fun _ => rfl, fun hr => ?_, by simp, by simp, by simp, fun hr => ?_,
    fun hr => ?_⟩, fun _ => .inr (.inl rfl), by simp [hstate], ?_⟩
  · cases hr
  · cases hr
  · cases hr
  · rintro (hr | hr | hr)
    · cases hr
    · cases hr
    · simp at hr

theorem fresh_init (fd : Int) (writeCompleteCallback : Bool) (highWaterMark : Option Nat) :
    (init .poolServer (.new fd writeCompleteCallback highWaterMark)).Fresh where
  connecting := rfl
  index := rfl
  holder := rfl
  callback := rfl
  queued := List.mem_cons_self
  only f hf := .inl (List.mem_singleton.mp hf)
  handed := .inl rfl
  dead hf := by cases List.mem_singleton.mp hf
  active := rfl
  guard := rfl
  frames := rfl
  removals := rfl
  copies := rfl
  calls := rfl
  timers := rfl
  removed := rfl

end Shared

end Siren.TcpConnection
