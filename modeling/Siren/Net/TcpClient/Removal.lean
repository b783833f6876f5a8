import Siren.Net.TcpClient.Sockets

/-!
# Who removes the channel of a connector

`removeAndResetChannel` is called in two callbacks of the channel and in `stopInLoop`, a functor. Everything
else that the connector, its client and their users do leaves a registered channel registered
(`TcpClient.step_registered`).
-/

namespace Siren.Connector

variable {c d : Connector} {result : ConnectResult} {s t : Loop} {a : Label}

/-- The poller has the channel. -/
def registered (c : Connector) : Bool := c.channel.any fun channel => channel.hasChannel ()

theorem registered_of_channel (hd : d.channel = c.channel) (h : c.registered = true) : d.registered = true := by
  unfold registered
  rw [hd]
  exact h

/-- An attempt begins without a channel. -/
theorem startInLoop_channel (hok : c.startInLoop result = .ok d) :
    d.channel = c.channel ∨ c.channel = none := by
  rcases startInLoop_cases c result with ⟨-, heq⟩ | ⟨-, -, heq⟩ | ⟨-, hwanted, heq⟩
  · cases heq.symm.trans hok
  · exact .inl (congrArg channel (Except.ok.inj (heq.symm.trans hok))).symm
  · rcases connect_cases hwanted result with ⟨-, -, herr⟩ | ⟨e, he, -, hcases⟩
    · cases (heq.trans herr).symm.trans hok
    · obtain rfl := Except.ok.inj ((heq.trans he).symm.trans hok)
      rcases hcases with ⟨-, hnone, -⟩ | ⟨-, -, hchannel, -⟩ | ⟨-, -, -, hchannel, -⟩
      · exact .inr hnone
      · exact .inl hchannel
      · exact .inl hchannel

theorem registered_startInLoop (hok : c.startInLoop result = .ok d) (h : c.registered = true) :
    d.registered = true := by
  rcases startInLoop_channel hok with hchannel | hnone
  · exact registered_of_channel hchannel h
  · simp [registered, hnone] at h

/-- The step comes to `removeAndResetChannel`. -/
def Loop.callsRemove (s : Loop) : Label → Bool
  | .handle _ _ =>
    (s.handlers.head? == some .error || s.handlers.head? == some .write) && s.conn.state == .kConnecting &&
      s.conn.channel.isSome
  | .runFunctor _ =>
    s.phase == .functors && s.conn.functors.head? == some .stopInLoop && s.conn.state == .kConnecting &&
      s.conn.channel.isSome
  | _ => false

/-- A channel that is polled is registered. -/
theorem Loop.registered_of_poll {revents : Mask} (hstep : s.step (.poll (some revents)) = some (.ok t)) :
    t.conn.registered = true := by
  obtain ⟨-, hpoll⟩ := Option.ite_none_right_eq_some.mp hstep
  obtain ⟨channel, -, hpoll⟩ := Option.bind_eq_some_iff.mp hpoll
  obtain ⟨⟨polled, activeChannels⟩, hpolled, hr⟩ := Option.bind_eq_some_iff.mp hpoll
  obtain rfl := Except.ok.inj (Option.some.inj hr)
  exact (MirroredRegistry.hasChannel_of_poll hpolled).2

theorem isSome_of_registered (h : c.registered = true) : c.channel.isSome = true := by
  cases hchannel : c.channel with
  | none => simp [registered, hchannel] at h
  | some channel => rfl

/-- A registered channel is not reset. -/
theorem resetChannel_of_registered (h : c.registered = true) : c.resetChannel ≠ .ok d := by
  intro hok
  cases hchannel : c.channel with
  | none => simp [registered, hchannel] at h
  | some channel =>
    have hregistered : channel.hasChannel () = true := by simpa [registered, hchannel] using h
    simp only [resetChannel, hchannel] at hok
    obtain ⟨hgone, -⟩ := of_cassert_bind hok
    exact Bool.noConfusion (hgone.symm.trans hregistered)

/-- A callback of the channel removes it, or changes nothing. -/
theorem runHandler_registered {err : Nat} {selfConnect : Bool} {handler : Channel.Handler}
    (hok : c.runHandler err selfConnect handler = .ok d) :
    d = c ∨ (handler = .error ∨ handler = .write) ∧ c.state = .kConnecting := by
  cases handler with
  | close => exact .inl (Except.ok.inj hok).symm
  | read => exact .inl (Except.ok.inj hok).symm
  | error =>
    by_cases hstate : c.state = .kConnecting
    · exact .inr ⟨.inl rfl, hstate⟩
    · rw [runHandler, handleError, if_neg hstate] at hok
      exact .inl (Except.ok.inj hok).symm
  | write =>
    by_cases hstate : c.state = .kConnecting
    · exact .inr ⟨.inr rfl, hstate⟩
    · rw [runHandler, handleWrite, if_neg hstate] at hok
      obtain ⟨-, hok⟩ := of_cassert_bind hok
      exact .inl (Except.ok.inj hok).symm

theorem Loop.step_registered (hstep : s.step a = some (.ok t)) (h : s.conn.registered = true) :
    t.conn.registered = true ∨ s.callsRemove a = true := by
  have hsome := isSome_of_registered h
  generalize hr : Except.ok t = r at hstep
  cases step_takes hstep with
  | call call result hhandlers =>
    obtain ⟨d, hok, rfl⟩ := after_eq_ok hr.symm
    cases call with
    | start => exact .inl (registered_startInLoop hok h)
    | stop =>
      obtain rfl := Except.ok.inj hok
      exact .inl h
  | report revents channel polled hphase hchannel hindex =>
    rw [← hr] at hstep
    exact .inl (registered_of_poll hstep)
  | fire timer result hhandlers htimer =>
    obtain ⟨d, hok, rfl⟩ := after_eq_ok hr.symm
    exact .inl (registered_startInLoop hok h)
  | handle err selfConnect handler handlers hhandlers =>
    obtain ⟨d, hok, rfl⟩ := after_eq_ok hr.symm
    rcases runHandler_registered hok with rfl | ⟨hhandler, hstate⟩
    · exact .inl h
    · exact .inr (by simpa [callsRemove, hhandlers, hstate, hsome] using hhandler)
  | runFunctor result f functors hphase hfunctors =>
    obtain ⟨d, hok, rfl⟩ := after_eq_ok hr.symm
    cases f with
    | startInLoop => exact .inl (registered_startInLoop hok h)
    | stopInLoop =>
      by_cases hstate : s.conn.state = .kConnecting
      · exact .inr (by simp [callsRemove, hphase, hfunctors, hstate, hsome])
      · have hne : ({ s.conn with functors := functors } : Connector).state ≠ .kConnecting := hstate
        rw [runFunctor, stopInLoop, if_neg hne] at hok
        obtain rfl := Except.ok.inj hok
        exact .inl h
    | resetChannel =>
      exact absurd hok (resetChannel_of_registered (c := { s.conn with functors := functors }) h)
  | _ =>
    obtain rfl := Except.ok.inj hr
    exact .inl h

end Siren.Connector

namespace Siren.TcpClient

variable {s t : TcpClient} {a : Label}

/-- The poller has the channel of the connector. -/
def registered (s : TcpClient) : Bool := s.connector.conn.registered

/-- The step comes to `removeAndResetChannel`. -/
def callsRemove (s : TcpClient) : Label → Bool
  | .connector a => s.connector.callsRemove a
  | _ => false

/-- A callback of the channel or a functor. -/
theorem of_callsRemove (h : s.callsRemove a = true) :
    (∃ err selfConnect, a = .connector (.handle err selfConnect)) ∨
      ∃ result, a = .connector (.runFunctor result) := by
  cases a with
  | connector a =>
    cases a with
    | handle err selfConnect => exact .inl ⟨err, selfConnect, rfl⟩
    | runFunctor result => exact .inr ⟨result, rfl⟩
    | _ => cases h
  | _ => cases h

/-- A registered channel of the connector stays registered, unless the step removes it. -/
theorem step_registered (hstep : s.step a = some (.ok t)) (h : s.registered = true) :
    t.registered = true ∨ s.callsRemove a = true := by
  cases step_takes hstep with
  | connector a loop hloop => exact Connector.Loop.step_registered hloop h
  | connect result loop hloop => exact Connector.Loop.step_registered hloop h
  | stop result loop hloop => exact Connector.Loop.step_registered hloop h
  | restart result d hsome hhandlers hretry hok => exact .inl (Connector.registered_startInLoop hok h)
  | _ => exact .inl h

/-- A channel that is polled is registered. -/
theorem registered_of_poll {revents : Mask}
    (hstep : s.step (.connector (.poll (some revents))) = some (.ok t)) : t.registered = true := by
  cases step_takes hstep with
  | connector a loop hloop => exact Connector.Loop.registered_of_poll hloop

end Siren.TcpClient
