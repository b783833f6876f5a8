import Siren.Net.EventLoop.Dispatch
import Siren.Net.TcpConnection.Unregistered

/-!
# Destroying a live connection

`connectDestroyed` as `~TcpServer` runs it on whatever connections it still has: between any two steps of an
established connection. It undoes `kConnected` and leaves every other state as it is. The callback that reports
DOWN is the calls that users make while it runs.

* `destroyed_cleanly_iff`: after every run, `connectDestroyed` fails no assertion and leaves a disconnected
  connection outside the poller, without interest and with one DOWN, if and only if the loop may remove the
  channel and the connection is in `kConnected` with a callback that does not end up reading, or closed without
  interest. In `kDisconnecting` it never does.
-/

namespace Siren.TcpConnection

open EventLoop.Dispatch (Iteration ChannelId)

/-- The assertions that `connectDestroyed` comes through. -/
inductive DestroyFailure where
  /-- One of `Channel::remove` or of the poller. -/
  | channel (assertion : EPollPoller.Assertion)
  /-- The one of `EventLoop::removeChannel`. -/
  | removeChannel

/-- A call that is made while a callback runs: its thread, and what answers the `write` it may make. -/
structure Reaction where
  thread : Thread
  call : Call
  result : WriteResult

/-- The connection after a callback. -/
def react (c : TcpConnection) (reactions : List Reaction) : TcpConnection :=
  reactions.foldl (fun c r => c.call r.thread r.result r.call) c

/-- `connectDestroyed`, where the loop is at `loop` and knows the channel as `p`. -/
def connectDestroyed (c : TcpConnection) (loop : Iteration) (p : ChannelId) (reactions : List Reaction) :
    Except DestroyFailure TcpConnection := do
  let c :=
    if c.state = .kConnected then
      (((c.setState .kDisconnected).setInterest .disableAll).record .connectionDown).react reactions
    else c
  -- `channel_->remove()`
  cassert ((c.channel.channel ()).isNoneEvent = true) (.channel .channelRemove)
  cassert (loop.MayRemove p) .removeChannel
  let channel ← (c.channel.remove ()).mapError .channel
  return { c with channel }

/-- What `connectDestroyed` owes. -/
structure CleanlyDestroyed (c : TcpConnection) : Prop where
  state : c.state = .kDisconnected
  removed : c.registered = false
  interest : (c.channel.channel ()).isNoneEvent = true
  downs : c.log.count .connectionDown = 1

/-- Whether a disconnected connection is read after a call, when it was, or was not, before. -/
def Reaction.reading (reading : Bool) (r : Reaction) : Bool :=
  match r.thread, r.call with
  | .loop, .startRead => true
  | .loop, .stopRead => false
  | _, _ => reading

/-- Whether the calls leave a disconnected connection reading that has no interest. -/
def startsReading (reactions : List Reaction) : Bool := reactions.foldl Reaction.reading false

/-- The condition for a clean end: the loop may remove the channel, and the connection is connected, with a
callback whose last `startRead` or `stopRead` on the loop is no `startRead`, or closed without interest. -/
def EndsCleanly (c : TcpConnection) (loop : Iteration) (p : ChannelId) (reactions : List Reaction) : Prop :=
  loop.MayRemove p ∧
    (c.state = .kConnected ∧ startsReading reactions = false ∨
      c.state = .kDisconnected ∧ (c.channel.channel ()).isNoneEvent = true)

variable {c d : TcpConnection}

/-! ### Before `connectDestroyed` -/

/-- What every step of an established connection keeps. -/
structure Undestroyed (c : TcpConnection) : Prop where
  established : c.state ≠ .kConnecting
  downs : c.log.count .connectionDown = if c.state = .kDisconnected then 1 else 0
  registered : c.registered = true

theorem Undestroyed.keeps (h : Undestroyed c) (hk : Keeps c d) (hregistered : d.registered = true) :
    Undestroyed d where
  established he := h.established (hk.connecting he)
  downs := by
    rw [hk.count_eq rfl, h.downs]
    simp only [hk.closed]
  registered := hregistered

theorem Undestroyed.handleClose (h : Undestroyed c) (hok : c.handleClose = .ok d) : Undestroyed d := by
  obtain ⟨hopen, hok⟩ := of_cassert_bind hok
  obtain rfl := Except.ok.inj hok
  have hnot : c.state ≠ .kDisconnected := by rcases hopen with hs | hs <;> simp [hs]
  have hdowns := h.downs
  rw [if_neg hnot] at hdowns
  refine ⟨by simp, by simp [hdowns], ?_⟩
  exact registered_of_channel rfl (registered_setInterest (c := c.setState .kDisconnected) .disableAll)

theorem Undestroyed.runHandler (h : Undestroyed c) {read : ReadResult} {write : WriteResult}
    {handler : Channel.Handler} (hok : Dispatch.runHandler c read write handler = .ok d) : Undestroyed d := by
  cases handler with
  | close => exact h.handleClose hok
  | error =>
    obtain rfl := Except.ok.inj hok
    exact h
  | write =>
    obtain rfl := Except.ok.inj hok
    exact h.keeps (Keeps.rule.handleWrite c write) (registered_rule.handleWrite c write h.registered)
  | read =>
    have hread : Undestroyed { c with inputBuffer := c.inputBuffer.readFd read } :=
      ⟨h.established, h.downs, h.registered⟩
    rcases handleRead_cases c read with ⟨bytes, -, -, heq⟩ | ⟨-, heq⟩ | ⟨-, heq⟩
    · obtain rfl := Except.ok.inj (heq.symm.trans hok)
      have hdowns : (c.log ++ [Action.messageCallback (c.inputBuffer.readFd read).content]).count
          Action.connectionDown = c.log.count Action.connectionDown := by simp
      exact ⟨h.established, hdowns.trans h.downs, h.registered⟩
    · exact hread.handleClose (heq.symm.trans hok)
    · obtain rfl := Except.ok.inj (heq.symm.trans hok)
      exact hread

theorem Undestroyed.runFunctor (h : Undestroyed c) {f : Functor} {result : WriteResult}
    (hok : c.runFunctor result f = .ok d) : Undestroyed d := by
  by_cases hf : f = .forceCloseInLoop
  · subst hf
    change c.forceCloseInLoop = .ok d at hok
    unfold forceCloseInLoop at hok
    split at hok
    · exact h.handleClose hok
    · obtain rfl := Except.ok.inj hok
      exact h
  · exact h.keeps (Keeps.runFunctor hf hok) (registered_runFunctor hf hok h.registered)

theorem Undestroyed.step {s t : Dispatch} {a : EventLabel} (h : Undestroyed s.conn)
    (hstep : s.step a = some (.ok t)) : Undestroyed t.conn := by
  cases a with
  | request thread call result =>
    obtain rfl := Except.ok.inj (Option.some.inj hstep)
    exact h.keeps (Keeps.call thread result call) (registered_call thread result call h.registered)
  | delayedForceClose =>
    rw [Dispatch.step, Option.ite_none_right_eq_some] at hstep
    obtain rfl := Except.ok.inj (Option.some.inj hstep.2)
    have hless : Undestroyed { s.conn with delayedForceCloses := s.conn.delayedForceCloses - 1 } :=
      ⟨h.established, h.downs, h.registered⟩
    exact hless.keeps (Keeps.rule.forceClose _) (registered_call .loop (.wrote 0) .forceClose hless.registered)
  | poll revents =>
    rw [Dispatch.step, Option.ite_none_right_eq_some] at hstep
    obtain ⟨⟨channel, active⟩, hpoll, heq⟩ := Option.map_eq_some_iff.mp hstep.2
    obtain rfl := Except.ok.inj heq
    exact ⟨h.established, h.downs, (MirroredRegistry.hasChannel_of_poll hpoll).2⟩
  | handle read write =>
    simp only [Dispatch.step] at hstep
    split at hstep
    · cases hstep
    · rename_i handler handlers hhandlers
      obtain ⟨d, hd, rfl⟩ := of_map_ok (Option.some.inj hstep)
      exact h.runHandler hd
  | swap =>
    rw [Dispatch.step, Option.ite_none_right_eq_some] at hstep
    obtain rfl := Except.ok.inj (Option.some.inj hstep.2)
    exact ⟨h.established, h.downs, h.registered⟩
  | runFunctor result =>
    rw [Dispatch.step, Option.ite_none_right_eq_some] at hstep
    obtain ⟨-, hstep⟩ := hstep
    split at hstep
    · cases hstep
    · rename_i f functors hfunctors
      have hpop : Undestroyed { s.conn with functors } := ⟨h.established, h.downs, h.registered⟩
      obtain ⟨d, hd, rfl⟩ := of_map_ok (Option.some.inj hstep)
      exact hpop.runFunctor hd

/-! ### The callback that reports DOWN -/

/-- On a disconnected connection, `startRead` and `stopRead` on the loop are all that changes the interest. -/
theorem ReadsIff.call {reading : Bool} (h : ReadsIff c reading) (hstate : c.state = .kDisconnected)
    (r : Reaction) : ReadsIff (c.call r.thread r.result r.call) (r.reading reading) := by
  obtain ⟨thread, call, result⟩ := r
  have hquiet : ∀ d : TcpConnection, d.channel = c.channel → ReadsIff d reading := by
    intro d hd
    unfold ReadsIff
    rw [hd]
    exact h
  cases thread with
  | other => exact hquiet _ (call_other_channel call result)
  | loop =>
    have hloop : call ≠ .startRead ∧ call ≠ .stopRead →
        ReadsIff (c.call .loop result call) reading :=
      fun hcall => hquiet _ (call_loop_channel (by simp [hstate]) hcall result)
    cases call with
    | startRead => exact h.startReadInLoop
    | stopRead => exact h.stopReadInLoop
    | _ => exact hloop (by simp)

/-- A callback on a disconnected connection. -/
theorem react_disconnected (reactions : List Reaction) {reading : Bool} (hstate : c.state = .kDisconnected)
    (hregistered : c.registered = true) (h : ReadsIff c reading) :
    (c.react reactions).state = .kDisconnected ∧ (c.react reactions).registered = true ∧
      (c.react reactions).log.count .connectionDown = c.log.count .connectionDown ∧
      ReadsIff (c.react reactions) (reactions.foldl Reaction.reading reading) := by
  induction reactions generalizing c reading with
  | nil => exact ⟨hstate, hregistered, rfl, h⟩
  | cons r reactions ih =>
    have hkeeps := Keeps.call (c := c) r.thread r.result r.call
    obtain ⟨hs, hr, hcount, hreads⟩ := ih (hkeeps.closed.mpr hstate)
      (registered_call r.thread r.result r.call hregistered) (h.call hstate r)
    exact ⟨hs, hr, hcount.trans (hkeeps.count_eq rfl), hreads⟩

/-! ### `connectDestroyed` -/

/-- The end of `connectDestroyed`. -/
theorem removed_cleanly_iff {loop : Iteration} {p : ChannelId} (hregistered : c.registered = true) :
    Machine.Holds CleanlyDestroyed (do
      cassert ((c.channel.channel ()).isNoneEvent = true) (DestroyFailure.channel .channelRemove)
      cassert (loop.MayRemove p) .removeChannel
      let channel ← (c.channel.remove ()).mapError .channel
      return { c with channel }) ↔
    loop.MayRemove p ∧ c.state = .kDisconnected ∧ (c.channel.channel ()).isNoneEvent = true ∧
      c.log.count .connectionDown = 1 := by
  by_cases hnone : (c.channel.channel ()).isNoneEvent = true
  · rw [cassert_of hnone, ok_bind]
    by_cases hmay : loop.MayRemove p
    · obtain ⟨channel, hremove⟩ := MirroredRegistry.remove_ok (r := c.channel) (p := ()) (by simpa [Channel.isNoneEvent] using hnone)
        (MirroredRegistry.hasChannel_iff.mp hregistered)
      obtain ⟨-, -, hchannel⟩ := MirroredRegistry.remove_spec hremove
      rw [cassert_of hmay, ok_bind, hremove]
      show CleanlyDestroyed { c with channel } ↔ _
      constructor
      · rintro ⟨hstate, -, -, hdowns⟩
        exact ⟨hmay, hstate, hnone, hdowns⟩
      · rintro ⟨-, hstate, -, hdowns⟩
        refine ⟨hstate, ?_, ?_, hdowns⟩
        · exact MirroredRegistry.hasChannel_of_new (by rw [hchannel])
        · show (channel.channel ()).isNoneEvent = true
          rw [hchannel]
          exact hnone
    · rw [cassert_of_not hmay, error_bind]
      exact ⟨fun h => absurd h Machine.holds_error, fun h => absurd h.1 hmay⟩
  · rw [cassert_of_not hnone, error_bind]
    exact ⟨fun h => absurd h Machine.holds_error, fun h => absurd h.2.2.1 hnone⟩

theorem Undestroyed.destroyed_cleanly (h : Undestroyed c) (loop : Iteration) (p : ChannelId)
    (reactions : List Reaction) :
    Machine.Holds CleanlyDestroyed (c.connectDestroyed loop p reactions) ↔
      c.EndsCleanly loop p reactions := by
  unfold connectDestroyed EndsCleanly
  dsimp only
  by_cases hconnected : c.state = .kConnected
  · rw [if_pos hconnected]
    have hregistered : (((c.setState .kDisconnected).setInterest .disableAll).record .connectionDown).registered =
        true := registered_of_channel rfl (registered_setInterest (c := c.setState .kDisconnected) .disableAll)
    have hempty : ReadsIff (((c.setState .kDisconnected).setInterest .disableAll).record .connectionDown)
        false := by
      show (((c.setState .kDisconnected).setInterest .disableAll).channel.channel ()).events = _
      rw [setInterest_channel]
      rfl
    have hdowns := h.downs
    rw [if_neg (by simp [hconnected])] at hdowns
    obtain ⟨hstate, hreg, hcount, hreads⟩ := react_disconnected reactions rfl hregistered hempty
    rw [removed_cleanly_iff hreg, hreads.isNoneEvent_iff, hcount]
    simp [hstate, hconnected, hdowns, startsReading]
  · rw [if_neg hconnected, removed_cleanly_iff h.registered]
    constructor
    · rintro ⟨hmay, hstate, hnone, -⟩
      exact ⟨hmay, .inr ⟨hstate, hnone⟩⟩
    · rintro ⟨hmay, ⟨hstate, -⟩ | ⟨hstate, hnone⟩⟩
      · exact absurd hstate hconnected
      · refine ⟨hmay, hstate, hnone, ?_⟩
        rw [h.downs, if_pos hstate]

/-! ### Every run -/

theorem established_undestroyed (fd : Int) (writeCompleteCallback : Bool) (highWaterMark : Option Nat) :
    Undestroyed (established fd writeCompleteCallback highWaterMark).conn where
  established := by simp [TcpConnection.established, connectEstablished]
  downs := by simp [TcpConnection.established, connectEstablished, new]
  registered := registered_setInterest .enableReading

/-- **Destroying a live connection**: after every run of an established connection, `connectDestroyed` ends it
cleanly if and only if the loop may remove its channel and the connection is connected, with a callback that
does not leave it reading, or closed without interest. -/
theorem destroyed_cleanly_iff (fd : Int) (writeCompleteCallback : Bool) (highWaterMark : Option Nat)
    {as : List EventLabel} {s : Dispatch}
    (hrun : events.run (.ok (established fd writeCompleteCallback highWaterMark)) as = some (.ok s))
    (loop : Iteration) (p : ChannelId) (reactions : List Reaction) :
    Machine.Holds CleanlyDestroyed (s.conn.connectDestroyed loop p reactions) ↔
      s.conn.EndsCleanly loop p reactions := by
  have hinv : events.Always (Machine.HoldsIfOk fun s => Undestroyed s.conn)
      (.ok (established fd writeCompleteCallback highWaterMark)) as :=
    Machine.ofExcept_always_holdsIfOk (established_undestroyed fd writeCompleteCallback highWaterMark)
      fun _ _ _ h hstep => h.step hstep
  have hreached : Undestroyed s.conn := hinv.last hrun
  exact hreached.destroyed_cleanly loop p reactions

/-- `destroyed_cleanly_iff` for a connection whose peer is silent. -/
theorem silent_connection_destroyed : Machine.Holds CleanlyDestroyed
    ((established 7 false none).conn.connectDestroyed ⟨.functors, [], none, []⟩ (.connection 0) []) := by
  have hrun : events.run (.ok (established 7 false none)) [] = some (.ok (established 7 false none)) := rfl
  refine (destroyed_cleanly_iff 7 false none hrun _ _ _).mpr ⟨?_, .inl ⟨rfl, rfl⟩⟩
  decide

/-- After `shutdown` the channel still reads, and `connectDestroyed` does not disable it. -/
theorem half_closed_not_destroyed : ¬ ∀ as s,
    events.run (.ok (established 7 false none)) as = some (.ok s) → Machine.Holds CleanlyDestroyed
      (s.conn.connectDestroyed ⟨.functors, [], none, []⟩ (.connection 0) []) := by
  intro h
  have hfail := h [.request .loop .shutdown (.wrote 0)] _ rfl
  exact absurd hfail Machine.holds_error

end Siren.TcpConnection
