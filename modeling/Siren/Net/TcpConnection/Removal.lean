import Siren.Net.TcpConnection.Registered

/-!
# Who removes the channel of a connection

`Channel::remove` is called at the end of `connectDestroyed` only. That runs as a functor, or at once in
`~TcpServer` when the server is on the loop of the connection. Every other step leaves a registered channel
registered (`step_registered`), and only these two begin a `connectDestroyed` (`step_destroying`).
-/

namespace Siren.TcpConnection

open Channel (Handler InterestCall)

/-- The poller has the channel. -/
def registered (c : TcpConnection) : Bool := c.channel.hasChannel ()

variable {c d : TcpConnection}

theorem registered_of_channel (hd : d.channel = c.channel) (h : c.registered = true) : d.registered = true := by
  unfold registered
  rw [hd]
  exact h

theorem registered_setInterest (call : InterestCall) : (c.setInterest call).registered = true :=
  MirroredRegistry.hasChannel_setInterest c.channel call ()

/-! ### Member functions -/

theorem registered_rule : MemberRule fun c d => c.registered = true → d.registered = true where
  refl _ := id
  trans h h' := h' ∘ h
  record _ _ _ := registered_of_channel rfl
  queueInLoop _ _ := registered_of_channel rfl
  setOutputBuffer _ _ := registered_of_channel rfl
  enableWriting _ _ := registered_setInterest .enableWriting
  disableWriting _ _ := registered_setInterest .disableWriting
  setState _ _ := registered_of_channel rfl
  delay _ _ := registered_of_channel rfl

theorem registered_startReadInLoop (h : c.registered = true) : c.startReadInLoop.registered = true := by
  unfold startReadInLoop
  split
  · exact registered_of_channel rfl (registered_setInterest (c := c) .enableReading)
  · exact h

theorem registered_stopReadInLoop (h : c.registered = true) : c.stopReadInLoop.registered = true := by
  unfold stopReadInLoop
  split
  · exact registered_of_channel rfl (registered_setInterest (c := c) .disableReading)
  · exact h

theorem registered_call (thread : Thread) (result : WriteResult) (call : Call) (h : c.registered = true) :
    (c.call thread result call).registered = true :=
  registered_rule.call thread result call (fun _ _ => registered_startReadInLoop)
    (fun _ _ => registered_stopReadInLoop) h

theorem registered_runFunctor {f : Functor} {result : WriteResult} (hf : f ≠ .forceCloseInLoop)
    (hok : c.runFunctor result f = .ok d) (h : c.registered = true) : d.registered = true :=
  registered_rule.runFunctor hf (fun _ => registered_startReadInLoop) (fun _ => registered_stopReadInLoop) hok h

namespace Shared

/-! ### Steps -/

variable {s t : Shared} {a : Label}

/-- The poller has the channel. -/
def registered (s : Shared) : Bool := s.conn.registered

/-- The step begins a `connectDestroyed`. -/
def Destroys (s : Shared) (a : Label) : Prop :=
  (∃ result, a = .runFunctor result) ∨ (a = .destroyHolder ∧ s.holder = .server ∧ s.held = true)

/-- The step comes through `channel_->remove()` to the loop: the channel has no interest. -/
def callsRemove (s : Shared) (a : Label) : Bool :=
  (s.conn.channel.channel ()).isNoneEvent && match a with
    | .channelRemove => s.frames.head? == some .connectDestroyed
    | .runFunctor _ =>
      s.frames.isEmpty && s.functors.head? == some .connectDestroyed && s.conn.state != .kConnected
    | .destroyHolder => s.holder == .server && s.held && s.conn.state != .kConnected
    | _ => false

theorem of_callsRemove (h : s.callsRemove a = true) :
    (a = .channelRemove ∧ .connectDestroyed ∈ s.frames) ∨ s.Destroys a := by
  obtain ⟨-, h⟩ := Bool.and_eq_true_iff.mp h
  cases a with
  | channelRemove => exact .inl ⟨rfl, List.mem_of_head? (by simpa using h)⟩
  | runFunctor result => exact .inr (.inl ⟨result, rfl⟩)
  | destroyHolder =>
    simp only [Bool.and_eq_true, beq_iff_eq] at h
    exact .inr (.inr ⟨rfl, h.1.1, h.1.2⟩)
  | _ => cases h

theorem registered_closing : s.closing.registered = true := registered_setInterest .disableAll

theorem registered_runHandler {read : ReadResult} {write : WriteResult} {handler : Handler}
    (h : s.registered = true) (hok : s.runHandler read write handler = .ok t) : t.registered = true := by
  cases handler with
  | close =>
    obtain ⟨-, rfl⟩ := handleClose_ok hok
    exact registered_closing
  | error =>
    obtain rfl := Except.ok.inj hok
    exact h
  | write =>
    obtain rfl := Except.ok.inj hok
    exact registered_rule.handleWrite _ write h
  | read =>
    rcases handleRead_ok hok with ⟨c, -, hchannel, -, rfl⟩ | ⟨-, inputBuffer, hok⟩
    · exact registered_of_channel hchannel h
    · obtain ⟨-, rfl⟩ := handleClose_ok hok
      exact registered_closing

theorem registered_destroyClient (hheld : s.held = true) (h : s.registered = true) :
    s.destroyClient.registered = true := by
  rw [destroyClient_of_held hheld]
  split
  · exact registered_of_channel (call_other_channel .forceClose (.wrote 0)) h
  · exact h

/-- A channel that is polled is registered. -/
theorem registered_of_poll {revents : Mask} (hstep : s.step (.poll revents) = some (.ok t)) :
    t.registered = true := by
  generalize hr : Except.ok t = r at hstep
  cases step_takes hstep with
  | poll revents channel activeChannels hidle hpoll =>
    obtain rfl := Except.ok.inj hr
    exact (MirroredRegistry.hasChannel_of_poll hpoll).2

/-- A removal that fails no assertion found a channel without interest. -/
theorem isNoneEvent_of_channelRemove (hok : s.channelRemove = .ok t) :
    (s.conn.channel.channel ()).isNoneEvent = true := by
  obtain ⟨channel, hchannel, -⟩ := channelRemove_ok hok
  simp [Channel.isNoneEvent, (MirroredRegistry.remove_spec hchannel).2.1]

theorem registered_run {result : WriteResult} {f : LoopFunctor} (h : s.registered = true)
    (hok : s.run result f = .ok t) :
    t.registered = true ∨
      f = .connectDestroyed ∧ s.conn.state ≠ .kConnected ∧ (s.conn.channel.channel ()).isNoneEvent = true := by
  cases f with
  | connectEstablished =>
    obtain ⟨-, hok⟩ := of_cassert_bind hok
    obtain rfl := Except.ok.inj hok
    exact .inl (registered_setInterest .enableReading)
  | connectDestroyed =>
    rcases connectDestroyed_ok hok with ⟨-, rfl⟩ | ⟨hstate, hok⟩
    · exact .inl (registered_setInterest .disableAll)
    · exact .inr ⟨rfl, hstate, isNoneEvent_of_channelRemove hok⟩
  | member f =>
    refine .inl ?_
    rcases run_member_ok hok with ⟨-, hclose | ⟨-, rfl⟩⟩ | ⟨hf, c, hrun, rfl⟩
    · obtain ⟨-, rfl⟩ := handleClose_ok hclose
      exact registered_closing
    · exact h
    · exact registered_of_channel (c := c) rfl (registered_runFunctor hf hrun h)

/-- A registered channel stays registered, unless the step removes it. -/
theorem step_registered (hstep : s.step a = some (.ok t)) (h : s.registered = true) :
    t.registered = true ∨ s.callsRemove a = true := by
  generalize hr : Except.ok t = r at hstep
  cases step_takes hstep with
  | beginCall call hcopies =>
    obtain rfl := Except.ok.inj hr
    exact .inl (registered_of_channel (call_other_channel call (.wrote 0)) h)
  | request call result hreachable =>
    obtain rfl := Except.ok.inj hr
    exact .inl (registered_call .loop result call h)
  | delayedForceClose hdelayed howners =>
    obtain rfl := Except.ok.inj hr
    exact .inl (registered_of_channel (call_other_channel .forceClose (.wrote 0)) h)
  | poll revents channel activeChannels hidle hpoll =>
    obtain rfl := Except.ok.inj hr
    exact .inl (MirroredRegistry.hasChannel_of_poll hpoll).2
  | handle read write handler handlers hguard hframes hhandlers =>
    exact .inl (registered_runHandler (s := { s with handlers }) h hr.symm)
  | closeCallback frames hframes =>
    obtain ⟨-, ⟨held, rfl⟩ | rfl⟩ := closeCallback_ok hr.symm
    · exact .inl h
    · exact .inl h
  | channelRemove frames hframes =>
    have hnone := isNoneEvent_of_channelRemove (s := { s with frames }) hr.symm
    exact .inr (by simpa [callsRemove, hframes] using hnone)
  | runFunctor result f functors hframes hfunctors howners =>
    have hrun := registered_run (s := { s with functors, ran := s.ran ++ [f] }) h hr.symm
    rcases hrun with ht | ⟨rfl, hstate, hnone⟩
    · exact .inl ht
    · exact .inr (by simpa [callsRemove, hframes, hfunctors, hstate] using hnone)
  | removeConnectionInLoop hremovals =>
    obtain ⟨-, -, rfl⟩ := removeConnectionInLoop_ok hr.symm
    exact .inl h
  | destroyHolder halive =>
    rcases destroyHolder_ok hr.symm with ⟨-, rfl⟩ | ⟨hheld, -, rfl⟩ | ⟨hheld, hholder, hok⟩ | ⟨-, -, rfl⟩
    · exact .inl h
    · exact .inl (registered_destroyClient hheld h)
    · rcases connectDestroyed_ok hok with ⟨-, rfl⟩ | ⟨hstate, hok⟩
      · exact .inl (registered_setInterest .disableAll)
      · have hnone := isNoneEvent_of_channelRemove hok
        have hnot : s.conn.state ≠ .kConnected := hstate
        exact .inr (by simpa [callsRemove, hheld, hholder, hnot] using hnone)
    · exact .inl h
  | channelGone => cases hr
  | destroyed => cases hr
  | _ =>
    obtain rfl := Except.ok.inj hr
    exact .inl h

theorem destroying_runHandler {read : ReadResult} {write : WriteResult} {handler : Handler}
    (hok : s.runHandler read write handler = .ok t) (h : .connectDestroyed ∈ t.frames) :
    .connectDestroyed ∈ s.frames := by
  cases handler with
  | close =>
    obtain ⟨-, rfl⟩ := handleClose_ok hok
    simpa [Shared.closing] using h
  | error =>
    obtain rfl := Except.ok.inj hok
    exact h
  | write =>
    obtain rfl := Except.ok.inj hok
    exact h
  | read =>
    rcases handleRead_ok hok with ⟨c, -, -, -, rfl⟩ | ⟨-, inputBuffer, hok⟩
    · exact h
    · obtain ⟨-, rfl⟩ := handleClose_ok hok
      simpa [Shared.closing] using h

theorem destroyClient_frames (hheld : s.held = true) : s.destroyClient.frames = s.frames := by
  rw [destroyClient_of_held hheld]
  split <;> rfl

/-- Nothing else begins a `connectDestroyed` that comes back after its callback. -/
theorem step_destroying (hstep : s.step a = some (.ok t)) (h : .connectDestroyed ∈ t.frames) :
    .connectDestroyed ∈ s.frames ∨ s.Destroys a := by
  generalize hr : Except.ok t = r at hstep
  cases step_takes hstep with
  | handle read write handler handlers hguard hframes hhandlers =>
    exact .inl (destroying_runHandler (s := { s with handlers }) hr.symm h)
  | endEstablished frames hframes =>
    obtain rfl := Except.ok.inj hr
    exact .inl (by simpa [hframes] using h)
  | closeCallback frames hframes =>
    obtain ⟨-, ⟨held, rfl⟩ | rfl⟩ := closeCallback_ok hr.symm
    · exact .inl (by simpa [hframes, queueInLoop] using h)
    · exact .inl (by simpa [hframes] using h)
  | channelRemove frames hframes =>
    obtain ⟨channel, -, rfl⟩ := channelRemove_ok hr.symm
    exact .inl (by simp [hframes])
  | runFunctor result f functors hframes hfunctors howners => exact .inr (.inl ⟨result, rfl⟩)
  | removeConnectionInLoop hremovals =>
    obtain ⟨-, -, rfl⟩ := removeConnectionInLoop_ok hr.symm
    exact .inl h
  | destroyHolder halive =>
    rcases destroyHolder_ok hr.symm with ⟨-, rfl⟩ | ⟨hheld, -, rfl⟩ | ⟨hheld, hholder, -⟩ | ⟨-, -, rfl⟩
    · exact .inl h
    · rw [destroyClient_frames hheld] at h
      exact .inl h
    · exact .inr (.inr ⟨rfl, hholder, hheld⟩)
    · exact .inl h
  | channelGone => cases hr
  | destroyed => cases hr
  | _ =>
    obtain rfl := Except.ok.inj hr
    exact .inl h

end Shared

end Siren.TcpConnection
