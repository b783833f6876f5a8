import Siren.Net.TcpConnection.Reading

/-!
# The channel of a closed connection

`handleClose` and `connectDestroyed` leave the channel of the connection without interest, and
`Channel::remove` asserts just that. `sendInLoop` gives up on a disconnected connection and `forceCloseInLoop`
does nothing; `startReadInLoop` and `stopReadInLoop` do not look at the state.

* `closed_unregistered_iff`: a disconnected connection has no interest until `connectDestroyed` has run, and is
  not in the poller after, exactly in the runs in which no `startRead` takes effect on a disconnected connection
  and, after `connectDestroyed`, no `stopRead` either, and nothing closes a connection after `connectDestroyed`.
-/

namespace Siren.TcpConnection

open Channel (Handler)

variable {c d : TcpConnection}

/-! ### The interest of a closed connection -/

/-- The mask of interest is that of reading, or empty. -/
def ReadsIff (c : TcpConnection) (reading : Bool) : Prop :=
  (c.channel.channel ()).events = if reading then Channel.kReadEvent else Channel.kNoneEvent

theorem ReadsIff.isNoneEvent_iff {reading : Bool} (h : ReadsIff c reading) :
    (c.channel.channel ()).isNoneEvent = true ↔ reading = false := by
  unfold Channel.isNoneEvent
  rw [h]
  cases reading <;> decide

theorem ReadsIff.isReading_eq {reading : Bool} (h : ReadsIff c reading) : c.isReading = reading := by
  unfold isReading Channel.isReading
  rw [h]
  cases reading <;> decide

theorem ReadsIff.startReadInLoop {reading : Bool} (h : ReadsIff c reading) :
    ReadsIff c.startReadInLoop true := by
  unfold TcpConnection.startReadInLoop
  split
  · show ((c.setInterest .enableReading).channel.channel ()).events = _
    rw [setInterest_channel]
    show (c.channel.channel ()).events ||| Channel.kReadEvent = _
    rw [h]
    cases reading <;> decide
  · rename_i hreading
    have htrue : c.isReading = true := by simp_all
    rw [h.isReading_eq] at htrue
    exact htrue ▸ h

theorem ReadsIff.stopReadInLoop {reading : Bool} (h : ReadsIff c reading) :
    ReadsIff c.stopReadInLoop false := by
  unfold TcpConnection.stopReadInLoop
  split
  · show ((c.setInterest .disableReading).channel.channel ()).events = _
    rw [setInterest_channel]
    show (c.channel.channel ()).events &&& ~~~Channel.kReadEvent = _
    rw [h]
    cases reading <;> decide
  · rename_i hreading
    have hfalse : c.isReading = false := by simp_all
    rw [h.isReading_eq] at hfalse
    exact hfalse ▸ h

theorem ReadsIff.of_channel {reading : Bool} (hd : d.channel = c.channel) (h : ReadsIff c reading) :
    ReadsIff d reading := by
  unfold ReadsIff
  rw [hd]
  exact h

theorem ReadsIff.isWriting_eq {reading : Bool} (h : ReadsIff c reading) : c.isWriting = false := by
  unfold isWriting Channel.isWriting
  rw [h]
  cases reading <;> decide

theorem readsIff_disableAll : ReadsIff (c.setInterest .disableAll) false := by
  unfold ReadsIff
  rw [setInterest_channel]
  rfl

theorem registered_enableReading (h : c.isReading = false) : c.startReadInLoop.registered = true := by
  unfold startReadInLoop
  rw [if_pos (by simp [h])]
  exact registered_of_channel rfl (registered_setInterest (c := c) .enableReading)

/-- `stopReadInLoop` registers a channel that has no interest to disable. -/
theorem registered_disableReading (h : c.reading = true) : c.stopReadInLoop.registered = true := by
  unfold stopReadInLoop
  rw [if_pos (by simp [h])]
  exact registered_of_channel rfl (registered_setInterest (c := c) .disableReading)

namespace Shared

/-! ### What is owed -/

/-- A closed connection has no interest until `connectDestroyed` has run, and is not in the poller after. -/
structure Unregistered (s : Shared) : Prop where
  quiet : s.conn.state = .kDisconnected → s.removed = false →
    (s.conn.channel.channel ()).isNoneEvent = true
  gone : s.conn.state = .kDisconnected → s.removed = true → s.registered = false

/-- No `startRead` takes effect on a disconnected connection, and after `connectDestroyed` no `stopRead`, and
nothing closes a connection that was not disconnected then. -/
def LeavesClosed (s : Shared) : Label → Prop
  | .request call _ =>
    s.conn.state = .kDisconnected → call ≠ .startRead ∧ (s.removed = true → call ≠ .stopRead)
  | .handle read _ => s.conn.state = .kDisconnecting → s.removed = true →
      s.handlers.head? ≠ some .close ∧ (s.handlers.head? = some .read → read ≠ .read [])
  | .runFunctor _ => s.owners ≠ 0 →
      (s.conn.state = .kDisconnected → s.functors.head? ≠ some (.member .startReadInLoop) ∧
        (s.removed = true → s.functors.head? ≠ some (.member .stopReadInLoop))) ∧
      (s.conn.state = .kDisconnecting → s.removed = true →
        s.functors.head? ≠ some (.member .forceCloseInLoop))
  | _ => True

/-- After `connectEstablished`: what holds while no closed connection is registered again. -/
structure Silenced (s : Shared) : Prop where
  established : s.conn.state ≠ .kConnecting
  disconnected : s.removed = true → s.conn.state ≠ .kConnected
  destroying : .connectDestroyed ∈ s.frames → s.conn.state = .kDisconnected
  quiet : s.conn.state = .kDisconnected → ReadsIff s.conn false
  gone : s.conn.state = .kDisconnected → s.removed = true → s.registered = false

variable {s t : Shared} {a : Label}

theorem Silenced.unregistered (h : s.Silenced) : s.Unregistered where
  quiet hstate _ := (h.quiet hstate).isNoneEvent_iff.mpr rfl
  gone := h.gone

theorem Fresh.unregistered (h : s.Fresh) : s.Unregistered where
  quiet hstate := by cases h.connecting.symm.trans hstate
  gone hstate := by cases h.connecting.symm.trans hstate

/-! ### Steps that do not close -/

/-- `t` comes from `s` without a close, and a closed connection stays unregistered. -/
structure Rests (s t : Shared) : Prop where
  stays : Stays s.conn t.conn
  removed : t.removed = s.removed
  destroying : .connectDestroyed ∈ t.frames → .connectDestroyed ∈ s.frames
  quiet : s.conn.state = .kDisconnected → ReadsIff s.conn false → ReadsIff t.conn false
  gone : s.conn.state = .kDisconnected → s.removed = true → s.registered = false → t.registered = false

theorem Silenced.rests (h : s.Silenced) (hr : Rests s t) : t.Silenced where
  established he := h.established (hr.stays.connecting.mp he)
  disconnected := by
    rw [hr.removed]
    exact fun hremoved hstate => h.disconnected hremoved (hr.stays.connected hstate)
  destroying hframe := hr.stays.closed.mpr (h.destroying (hr.destroying hframe))
  quiet hstate := by
    have hbefore := hr.stays.closed.mp hstate
    exact hr.quiet hbefore (h.quiet hbefore)
  gone hstate := by
    have hbefore := hr.stays.closed.mp hstate
    rw [hr.removed]
    exact fun hremoved => hr.gone hbefore hremoved (h.gone hbefore hremoved)

/-- A step that leaves the channel of a closed connection alone. -/
theorem Rests.of_channel (hstays : Stays s.conn t.conn)
    (hchannel : s.conn.state = .kDisconnected → t.conn.channel = s.conn.channel)
    (hremoved : t.removed = s.removed) (hframes : .connectDestroyed ∈ t.frames → .connectDestroyed ∈ s.frames) :
    Rests s t where
  stays := hstays
  removed := hremoved
  destroying := hframes
  quiet hstate hreads := hreads.of_channel (hchannel hstate)
  gone hstate _ hgone := by
    rw [registered, TcpConnection.registered, hchannel hstate]
    exact hgone

theorem Rests.of_same (hstate : t.conn.state = s.conn.state) (hchannel : t.conn.channel = s.conn.channel)
    (hremoved : t.removed = s.removed) (hframes : .connectDestroyed ∈ t.frames → .connectDestroyed ∈ s.frames) :
    Rests s t :=
  .of_channel (.inl hstate) (fun _ => hchannel) hremoved hframes

theorem Rests.setConn {c : TcpConnection} (hstays : Stays s.conn c)
    (hchannel : s.conn.state = .kDisconnected → c.channel = s.conn.channel) : Rests s (s.setConn c) :=
  .of_channel hstays hchannel rfl id

/-- `stopReadInLoop`, on a disconnected connection only before `connectDestroyed`. -/
theorem Rests.stopReadInLoop (hremoved : s.conn.state = .kDisconnected → s.removed = false) :
    Rests s (s.setConn s.conn.stopReadInLoop) where
  stays := .call .loop (.wrote 0) .stopRead
  removed := rfl
  destroying := id
  quiet _ hreads := hreads.stopReadInLoop.of_channel rfl
  gone hstate hr := Bool.noConfusion ((hremoved hstate).symm.trans hr)

/-- `handleClose` before `connectDestroyed`. -/
theorem silenced_closing (hremoved : s.removed = false) : s.closing.Silenced where
  established he := by cases he
  disconnected _ he := by cases he
  destroying _ := rfl
  quiet _ := (readsIff_disableAll (c := s.conn.setState .kDisconnected)).of_channel rfl
  gone _ hr := Bool.noConfusion (hremoved.symm.trans hr)

/-- `connectDestroyed` has not run on a connection that is closed now. -/
theorem Silenced.handleClose (h : s.Silenced) (hleaves : s.conn.state = .kDisconnecting → s.removed = false)
    (hok : s.handleClose = .ok t) : t.Silenced := by
  obtain ⟨hopen, rfl⟩ := handleClose_ok hok
  refine silenced_closing ?_
  rcases hopen with hstate | hstate
  · exact hleaves hstate
  · exact Bool.eq_false_iff.mpr fun hremoved => h.disconnected hremoved hstate

theorem Silenced.runHandler (h : s.Silenced) {read : ReadResult} {write : WriteResult} {handler : Handler}
    (hleaves : s.conn.state = .kDisconnecting → s.removed = true →
      handler ≠ .close ∧ (handler = .read → read ≠ .read []))
    (hok : s.runHandler read write handler = .ok t) : t.Silenced := by
  have hclose : handler = .close ∨ handler = .read ∧ read = .read [] →
      s.conn.state = .kDisconnecting → s.removed = false := by
    intro hcloses hstate
    refine Bool.eq_false_iff.mpr fun hremoved => ?_
    obtain ⟨hnot, hread⟩ := hleaves hstate hremoved
    rcases hcloses with heq | ⟨heq, hempty⟩
    · exact hnot heq
    · exact hread heq hempty
  cases handler with
  | close => exact h.handleClose (hclose (.inl rfl)) hok
  | error =>
    obtain rfl := Except.ok.inj hok
    exact h.rests (.setConn (.inl rfl) fun _ => rfl)
  | write =>
    obtain rfl := Except.ok.inj hok
    refine h.rests (.setConn (.inl (handleWrite_state s.conn write)) fun hstate => ?_)
    rw [handleWrite_of_not_writing (h.quiet hstate).isWriting_eq write]
  | read =>
    rcases handleRead_ok hok with ⟨c, hstate, hchannel, -, rfl⟩ | ⟨hempty, inputBuffer, hok⟩
    · exact h.rests (.setConn (.inl hstate) fun _ => hchannel)
    · have hread : Silenced { s with conn := { s.conn with inputBuffer } } := h.rests (.of_same rfl rfl rfl id)
      exact hread.handleClose (hclose (.inr ⟨rfl, hempty⟩)) hok

/-- `channel_->remove()` of a connection that is no more connected. -/
theorem Silenced.channelRemove (h : s.Silenced) (hstate : s.conn.state ≠ .kConnected)
    (hok : s.channelRemove = .ok t) : t.Silenced := by
  obtain ⟨channel, hchannel, rfl⟩ := channelRemove_ok hok
  obtain ⟨-, hnone, hself⟩ := MirroredRegistry.remove_spec hchannel
  refine ⟨h.established, fun _ => hstate, h.destroying, fun _ => ?_, fun _ _ => ?_⟩
  · show (channel.channel ()).events = Channel.kNoneEvent
    rw [hself]
    exact hnone
  · exact MirroredRegistry.hasChannel_of_new (gone_of_remove hchannel).1

theorem Silenced.connectDestroyed (h : s.Silenced) (hok : s.connectDestroyed = .ok t) : t.Silenced := by
  rcases connectDestroyed_ok hok with ⟨hstate, rfl⟩ | ⟨hstate, hok⟩
  · refine ⟨fun he => (by cases he), fun _ he => (by cases he), fun _ => rfl, fun _ => ?_, fun _ hr => ?_⟩
    · exact readsIff_disableAll (c := s.conn.setState .kDisconnected)
    · exact absurd hstate (h.disconnected hr)
  · exact h.channelRemove hstate hok

theorem Silenced.runFunctor (h : s.Silenced) {result : WriteResult} {f : LoopFunctor}
    (hread : s.conn.state = .kDisconnected → f ≠ .member .startReadInLoop ∧
      (s.removed = true → f ≠ .member .stopReadInLoop))
    (hclose : s.conn.state = .kDisconnecting → s.removed = true → f ≠ .member .forceCloseInLoop)
    (hok : s.run result f = .ok t) : t.Silenced := by
  cases f with
  | connectEstablished =>
    obtain ⟨hstate, -⟩ := of_cassert_bind hok
    exact absurd hstate h.established
  | connectDestroyed => exact h.connectDestroyed hok
  | member f =>
    rcases run_member_ok hok with ⟨rfl, hcloses | ⟨-, rfl⟩⟩ | ⟨hf, c, hrun, rfl⟩
    · refine h.handleClose (fun hstate => ?_) hcloses
      exact Bool.eq_false_iff.mpr fun hremoved => hclose hstate hremoved rfl
    · exact h
    · obtain ⟨hstate, hchannel⟩ := runFunctor_ok hf hrun
      by_cases hstop : f = .stopReadInLoop
      · subst hstop
        obtain rfl := Except.ok.inj hrun
        refine h.rests (.stopReadInLoop fun hdisconnected => ?_)
        exact Bool.eq_false_iff.mpr fun hremoved => (hread hdisconnected).2 hremoved rfl
      · refine h.rests (.setConn (.inl hstate) fun hdisconnected => hchannel ?_)
        cases f with
        | sendInLoop message => exact .inl hdisconnected
        | startReadInLoop => exact absurd rfl (hread hdisconnected).1
        | stopReadInLoop => exact absurd rfl hstop
        | _ => trivial

theorem Silenced.request (h : s.Silenced) {call : Call} {result : WriteResult}
    (hleaves : s.conn.state = .kDisconnected → call ≠ .startRead ∧ (s.removed = true → call ≠ .stopRead)) :
    (s.setConn (s.conn.call .loop result call)).Silenced := by
  by_cases hstop : call = .stopRead
  · subst hstop
    refine h.rests (.stopReadInLoop fun hstate => ?_)
    exact Bool.eq_false_iff.mpr fun hremoved => (hleaves hstate).2 hremoved rfl
  · refine h.rests (.setConn (.call .loop result call) fun hstate => ?_)
    exact call_loop_channel (by simp [hstate]) ⟨(hleaves hstate).1, hstop⟩ result

theorem Silenced.destroyClient (h : s.Silenced) (hheld : s.held = true) : s.destroyClient.Silenced := by
  rw [destroyClient_of_held hheld]
  split
  · exact h.rests (.of_channel (.call .other (.wrote 0) .forceClose)
      (fun _ => call_other_channel .forceClose (.wrote 0)) rfl id)
  · exact h.rests (.of_same rfl rfl rfl id)

theorem Silenced.step (h : s.Silenced) (hleaves : s.LeavesClosed a) (hstep : s.step a = some (.ok t)) :
    t.Silenced := by
  generalize hr : Except.ok t = r at hstep
  cases step_takes hstep with
  | beginCall call hcopies =>
    obtain rfl := Except.ok.inj hr
    exact h.rests (.of_channel (.call .other (.wrote 0) call)
      (fun _ => call_other_channel call (.wrote 0)) rfl id)
  | request call result hreachable =>
    obtain rfl := Except.ok.inj hr
    exact h.request hleaves
  | delayedForceClose hdelayed howners =>
    obtain rfl := Except.ok.inj hr
    exact h.rests (.of_channel (.call .other (.wrote 0) .forceClose)
      (fun _ => call_other_channel .forceClose (.wrote 0)) rfl id)
  | poll revents channel activeChannels hidle hpoll =>
    obtain rfl := Except.ok.inj hr
    obtain ⟨⟨⟩, -, -, hchannel⟩ := MirroredRegistry.poll_singleton hpoll
    refine h.rests ⟨.inl rfl, rfl, id, fun _ hreads => ?_, fun _ _ hgone => ?_⟩
    · show (channel.channel ()).events = _
      rw [hchannel, Function.update_self]
      exact hreads
    · exact Bool.noConfusion (hgone.symm.trans (MirroredRegistry.hasChannel_of_poll hpoll).1)
  | handle read write handler handlers hguard hframes hhandlers =>
    have hbefore : Silenced { s with handlers } := h.rests (.of_same rfl rfl rfl id)
    refine hbefore.runHandler (fun hstate hremoved => ?_) hr.symm
    simpa [hhandlers] using hleaves hstate hremoved
  | endEstablished frames hframes =>
    obtain rfl := Except.ok.inj hr
    exact h.rests (.of_same rfl rfl rfl fun hf => by simp [hframes, hf])
  | closeCallback frames hframes =>
    have hmem : .connectDestroyed ∈ frames → .connectDestroyed ∈ s.frames := fun hf => by simp [hframes, hf]
    obtain ⟨-, ⟨held, rfl⟩ | rfl⟩ := closeCallback_ok hr.symm
    · exact h.rests (.of_same rfl rfl rfl hmem)
    · exact h.rests (.of_same rfl rfl rfl hmem)
  | channelRemove frames hframes =>
    have hbefore : Silenced { s with frames } :=
      h.rests (.of_same rfl rfl rfl fun hf => by simp [hframes])
    have hstate := h.destroying (by simp [hframes])
    exact hbefore.channelRemove (by simp [hstate]) hr.symm
  | runFunctor result f functors hframes hfunctors howners =>
    have hbefore : Silenced { s with functors, ran := s.ran ++ [f] } := h.rests (.of_same rfl rfl rfl id)
    have hrun := hleaves howners
    simp only [hfunctors, List.head?_cons, ne_eq, Option.some.injEq] at hrun
    exact hbefore.runFunctor hrun.1 hrun.2 hr.symm
  | removeConnectionInLoop hremovals =>
    obtain ⟨-, -, rfl⟩ := removeConnectionInLoop_ok hr.symm
    exact h.rests (.of_same rfl rfl rfl id)
  | destroyHolder halive =>
    rcases destroyHolder_ok hr.symm with ⟨-, rfl⟩ | ⟨hheld, -, rfl⟩ | ⟨-, -, hok⟩ | ⟨-, -, rfl⟩
    · exact h.rests (.of_same rfl rfl rfl id)
    · exact h.destroyClient hheld
    · have hbefore : Silenced { s with alive := false, held := false } := h.rests (.of_same rfl rfl rfl id)
      exact hbefore.connectDestroyed hok
    · exact h.rests (.of_same rfl rfl rfl id)
  | channelGone => cases hr
  | destroyed => cases hr
  | _ =>
    obtain rfl := Except.ok.inj hr
    exact h.rests (.of_same rfl rfl rfl id)

/-! ### Steps that register it again -/

theorem Silenced.not_unregistered_startRead (h : s.Silenced) (hstate : s.conn.state = .kDisconnected) :
    ¬ (s.setConn s.conn.startReadInLoop).Unregistered := by
  intro hunregistered
  have hreads := h.quiet hstate
  have hstays : s.conn.startReadInLoop.state = .kDisconnected :=
    (Stays.call .loop (.wrote 0) .startRead).closed.mpr hstate
  cases hremoved : s.removed with
  | false =>
    have hnone : ReadsIff (s.setConn s.conn.startReadInLoop).conn true := hreads.startReadInLoop.of_channel rfl
    exact Bool.noConfusion (hnone.isNoneEvent_iff.mp (hunregistered.quiet hstays hremoved))
  | true =>
    have hregistered : (s.setConn s.conn.startReadInLoop).registered = true :=
      registered_of_channel rfl (registered_enableReading hreads.isReading_eq)
    exact Bool.noConfusion ((hunregistered.gone hstays hremoved).symm.trans hregistered)

theorem not_unregistered_stopRead (hreading : s.conn.reading = true) (hstate : s.conn.state = .kDisconnected)
    (hremoved : s.removed = true) : ¬ (s.setConn s.conn.stopReadInLoop).Unregistered := by
  intro hunregistered
  have hstays : s.conn.stopReadInLoop.state = .kDisconnected :=
    (Stays.call .loop (.wrote 0) .stopRead).closed.mpr hstate
  have hregistered : (s.setConn s.conn.stopReadInLoop).registered = true :=
    registered_of_channel rfl (registered_disableReading hreading)
  exact Bool.noConfusion ((hunregistered.gone hstays hremoved).symm.trans hregistered)

theorem not_unregistered_handleClose (hstate : s.conn.state = .kDisconnecting) (hremoved : s.removed = true) :
    s.handleClose = .ok s.closing ∧ ¬ s.closing.Unregistered := by
  constructor
  · have hclose : s.conn.handleClose = .ok s.closing.conn := by
      rw [TcpConnection.handleClose, cassert_of (.inl hstate)]
      rfl
    rw [Shared.handleClose, hclose]
    rfl
  · exact fun hunregistered =>
      Bool.noConfusion ((hunregistered.gone rfl hremoved).symm.trans registered_closing)

/-- A step outside the condition succeeds, and registers a closed connection. -/
theorem Silenced.breaks {r : Except Failure Shared} (h : s.Silenced) (hreading : s.conn.reading = true)
    (hnot : ¬ s.LeavesClosed a) (hstep : s.step a = some r) : ∃ t, r = .ok t ∧ ¬ t.Unregistered := by
  cases step_takes hstep with
  | request call result hreachable =>
    refine ⟨_, rfl, ?_⟩
    obtain ⟨hstate, hcall⟩ := Classical.not_imp.mp hnot
    by_cases hstart : call = .startRead
    · subst hstart
      exact h.not_unregistered_startRead hstate
    · obtain ⟨hremoved, hstop⟩ : s.removed = true ∧ call = .stopRead := by
        simpa [hstart] using hcall
      subst hstop
      exact not_unregistered_stopRead hreading hstate hremoved
  | handle read write handler handlers hguard hframes hhandlers =>
    obtain ⟨hstate, hcloses⟩ := Classical.not_imp.mp hnot
    obtain ⟨hremoved, hcloses⟩ := Classical.not_imp.mp hcloses
    rw [hhandlers] at hcloses
    cases handler with
    | error => simp at hcloses
    | write => simp at hcloses
    | close =>
      obtain ⟨hclose, hunregistered⟩ := not_unregistered_handleClose (s := { s with handlers }) hstate hremoved
      exact ⟨_, hclose, hunregistered⟩
    | read =>
      obtain rfl : read = .read [] := by simpa using hcloses
      obtain ⟨hclose, hunregistered⟩ := not_unregistered_handleClose
        (s := { s with
          handlers
          conn := { s.conn with inputBuffer := s.conn.inputBuffer.readFd (.read []) } }) hstate hremoved
      exact ⟨_, hclose, hunregistered⟩
  | destroyed result f functors hfunctors howners => exact absurd (fun hne => absurd howners hne) hnot
  | runFunctor result f functors hframes hfunctors howners =>
    obtain ⟨-, hrun⟩ := Classical.not_imp.mp hnot
    rw [hfunctors] at hrun
    have hbefore : Silenced { s with functors, ran := s.ran ++ [f] } := h.rests (.of_same rfl rfl rfl id)
    cases hstate : s.conn.state with
    | kConnecting => exact absurd hstate h.established
    | kConnected => simp [hstate] at hrun
    | kDisconnected =>
      by_cases hstart : f = .member .startReadInLoop
      · subst hstart
        exact ⟨_, rfl, hbefore.not_unregistered_startRead hstate⟩
      · obtain ⟨hremoved, hstop⟩ : s.removed = true ∧ f = .member .stopReadInLoop := by
          simpa [hstate, hstart] using hrun
        subst hstop
        exact ⟨_, rfl, not_unregistered_stopRead (s := { s with functors, ran := _ }) hreading hstate hremoved⟩
    | kDisconnecting =>
      obtain ⟨hremoved, hforce⟩ : s.removed = true ∧ f = .member .forceCloseInLoop := by
        simpa [hstate] using hrun
      subst hforce
      obtain ⟨hclose, hunregistered⟩ := not_unregistered_handleClose
        (s := { s with functors, ran := s.ran ++ [.member .forceCloseInLoop] }) hstate hremoved
      refine ⟨_, ?_, hunregistered⟩
      rw [← hclose]
      exact if_pos (.inr hstate)
  | _ => exact absurd trivial hnot

theorem Fresh.leavesClosed (h : s.Fresh) (a : Label) : s.LeavesClosed a := by
  have hconnecting := h.connecting
  cases a with
  | request call result =>
    intro hstate
    cases hconnecting.symm.trans hstate
  | handle read write =>
    intro hstate
    cases hconnecting.symm.trans hstate
  | runFunctor result =>
    intro _
    refine ⟨fun hstate => ?_, fun hstate => ?_⟩
    · cases hconnecting.symm.trans hstate
    · cases hconnecting.symm.trans hstate
  | _ => trivial

/-! ### Every run -/

theorem silenced_of_connected (h : s.Established) (hstate : s.conn.state = .kConnected) : s.Silenced where
  established := h.established
  disconnected := h.disconnected
  destroying := h.destroying
  quiet hclosed := by cases hstate.symm.trans hclosed
  gone hclosed := by cases hstate.symm.trans hclosed

/-- **A closed connection stays unregistered**: a disconnected connection has no interest until
`connectDestroyed` has run and is not in the poller after, in every state of a run, if and only if no `startRead`
takes effect on a disconnected connection and, after `connectDestroyed`, no `stopRead` either, and nothing closes
a connection after `connectDestroyed`. -/
theorem closed_unregistered_iff (holder : Holder) (fd : Int) (writeCompleteCallback : Bool)
    (highWaterMark : Option Nat) (as : List Label) :
    runs.Always (Machine.HoldsIfOk Unregistered)
        (.ok (init holder (.new fd writeCompleteCallback highWaterMark))) as ↔
      runs.Meets (Machine.AtOk LeavesClosed)
        (.ok (init holder (.new fd writeCompleteCallback highWaterMark))) as := by
  refine Machine.ofExcept_always_iff_meets
    (I := fun s => s.conn.reading = true ∧ (s.Fresh ∨ s.Silenced)) ?_ ?_ ?_ ?_ ?_
  · exact fun s h => h.2.elim Fresh.unregistered Silenced.unregistered
  · rintro s a t ⟨hreading, hfresh | hsilenced⟩ hleaves hstep
    · refine ⟨(step_reads hstep).reading hreading, (hfresh.step hstep).imp_right fun h => ?_⟩
      exact silenced_of_connected h.1 h.2
    · exact ⟨(step_reads hstep).reading hreading, .inr (hsilenced.step hleaves hstep)⟩
  · rintro s a t ⟨hreading, hfresh | hsilenced⟩ hnot hstep
    · exact absurd (hfresh.leavesClosed a) hnot
    · obtain ⟨u, hu, hunregistered⟩ := hsilenced.breaks hreading hnot hstep
      obtain rfl := Except.ok.inj hu
      exact hunregistered
  · rintro s a e ⟨hreading, hfresh | hsilenced⟩ hnot hstep
    · exact hnot (hfresh.leavesClosed a)
    · obtain ⟨u, hu, -⟩ := hsilenced.breaks hreading hnot hstep
      cases hu
  · cases holder with
    | poolServer => exact ⟨rfl, .inl (fresh_init fd writeCompleteCallback highWaterMark)⟩
    | client => exact ⟨rfl, .inr (silenced_of_connected (established_init (by decide) _) rfl)⟩
    | server => exact ⟨rfl, .inr (silenced_of_connected (established_init (by decide) _) rfl)⟩

/-- The callback that reports DOWN calls `startRead`. -/
theorem closed_connection_reads :
    ¬ ∀ as, runs.Always (Machine.HoldsIfOk Unregistered) (.ok (init .server (.new 5 false none))) as := by
  intro h
  have hlast := (h [.endEstablished, .request .forceClose (.wrote 0), .swap, .runFunctor (.wrote 0),
    .request .startRead (.wrote 0)]).last (t := .ok _) rfl
  exact absurd (hlast.quiet rfl rfl) (by decide)

end Shared

end Siren.TcpConnection
