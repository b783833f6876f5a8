import Siren.Net.TcpClient.Sockets

/-!
# Connecting an idle `TcpClient` again

`startInLoop` asserts that the connector is `kDisconnected`. A connector leaves `kConnected` only by
`restart`, which the client calls only when its connection closes with `retry_` and `connect_` set. So two
ends leave an idle client whose connector still says `kConnected`: the close of a connection without a
reconnect, and a success that nobody wants any more, which closes its socket.

`reconnectable_iff`: an idle client can be connected again exactly after the runs without such an end.
-/

namespace Siren.Connector

variable {c d : Connector} {result : ConnectResult}

/-! ### Who becomes connected -/

theorem startInLoop_state (hok : c.startInLoop result = .ok d) : d.state ≠ .kConnected := by
  rcases startInLoop_cases c result with ⟨-, heq⟩ | ⟨hstate, -, heq⟩ | ⟨hstate, hwanted, heq⟩
  · cases heq.symm.trans hok
  · obtain rfl := Except.ok.inj (heq.symm.trans hok)
    simp [hstate]
  · rcases connect_cases hwanted result with ⟨-, -, herr⟩ | ⟨e, he, -, hcases⟩
    · cases (heq.trans herr).symm.trans hok
    · obtain rfl := Except.ok.inj ((heq.trans he).symm.trans hok)
      rcases hcases with ⟨-, -, hd, -⟩ | ⟨-, hd, -⟩ | ⟨-, -, hd, -⟩
      · simp [hd]
      · simp [hd]
      · simp [hd, hstate]

theorem stopInLoop_state (hsound : c.Sound) (hok : c.stopInLoop = .ok d) :
    d = c ∨ d.state = .kDisconnected := by
  by_cases hstate : c.state = .kConnecting
  · obtain ⟨channel, hchannel⟩ := Option.isSome_iff_exists.mp (hsound.connecting hstate)
    obtain ⟨removed, hremoved⟩ := removeAndResetChannel_fd (c := c.setState .kDisconnected) hchannel
    rw [stopInLoop, if_pos hstate, hremoved] at hok
    obtain rfl := Except.ok.inj hok
    exact .inr (retry_state _)
  · rw [stopInLoop, if_neg hstate] at hok
    exact .inl (Except.ok.inj hok).symm

/-- A success: its socket is passed on while it is wanted, and else closed. -/
theorem handleWrite_success (hsound : c.Sound) (hstate : c.state = .kConnecting) :
    ∃ d sockfd, c.handleWrite 0 false = .ok d ∧ d.state = .kConnected ∧
      d.log = c.log ++ [if c.connect_ then .newConnection sockfd else .close sockfd] := by
  obtain ⟨channel, hchannel⟩ := Option.isSome_iff_exists.mp (hsound.connecting hstate)
  obtain ⟨removed, hremoved⟩ := removeAndResetChannel_fd hchannel
  rw [handleWrite, if_pos hstate, hremoved, ok_bind]
  by_cases hwanted : c.connect_ = true
  · refine ⟨_, (channel.channel ()).fd, if_pos hwanted, rfl, ?_⟩
    rw [if_pos hwanted]
    rfl
  · refine ⟨_, (channel.channel ()).fd, if_neg hwanted, rfl, ?_⟩
    rw [if_neg hwanted]
    rfl

/-- Nothing else connects a connector. -/
theorem handleWrite_connected (hsound : c.Sound) {err : Nat} {selfConnect : Bool}
    (hbefore : c.state ≠ .kConnected) (hok : c.handleWrite err selfConnect = .ok d)
    (hafter : d.state = .kConnected) : c.state = .kConnecting ∧ err = 0 ∧ selfConnect = false := by
  by_cases hstate : c.state = .kConnecting
  · obtain ⟨channel, hchannel⟩ := Option.isSome_iff_exists.mp (hsound.connecting hstate)
    obtain ⟨removed, hremoved⟩ := removeAndResetChannel_fd hchannel
    rw [handleWrite, if_pos hstate, hremoved, ok_bind] at hok
    dsimp only at hok
    split at hok
    · obtain rfl := Except.ok.inj hok
      simp at hafter
    · rename_i herr
      split at hok
      · obtain rfl := Except.ok.inj hok
        simp at hafter
      · rename_i hself
        exact ⟨hstate, by simpa using herr, by simpa using hself⟩
  · rw [handleWrite, if_neg hstate] at hok
    obtain ⟨-, hok⟩ := of_cassert_bind hok
    obtain rfl := Except.ok.inj hok
    exact absurd hafter hbefore

/-- The next callback of the channel is the write callback of an attempt that succeeds. -/
def Loop.Succeeds (s : Loop) (err : Nat) (selfConnect : Bool) : Prop :=
  s.handlers.head? = some .write ∧ s.conn.state = .kConnecting ∧ err = 0 ∧ selfConnect = false

theorem Loop.Succeeds.step {s : Loop} {err : Nat} {selfConnect : Bool} (hsound : s.Sound)
    (h : s.Succeeds err selfConnect) :
    ∃ t sockfd, s.step (.handle err selfConnect) = some (.ok t) ∧ t.conn.state = .kConnected ∧
      t.conn.log = s.conn.log ++ [if s.conn.connect_ then .newConnection sockfd else .close sockfd] := by
  obtain ⟨hhead, hstate, rfl, rfl⟩ := h
  obtain ⟨handlers, hhandlers⟩ := List.head?_eq_some_iff.mp hhead
  obtain ⟨d, sockfd, hok, hd, hlog⟩ := handleWrite_success hsound.conn hstate
  refine ⟨{ s with handlers, conn := d }, sockfd, ?_, hd, hlog⟩
  simp only [Loop.step, hhandlers, runHandler, hok]
  rfl

/-- A step of the loop that connects the connector is the write callback of an attempt that succeeds. -/
theorem Loop.becomes_kConnected {s t : Loop} {a : Label} (hsound : s.Sound)
    (hstep : s.step a = some (.ok t)) (hbefore : s.conn.state ≠ .kConnected)
    (hafter : t.conn.state = .kConnected) :
    ∃ err selfConnect, a = .handle err selfConnect ∧ s.Succeeds err selfConnect := by
  generalize hr : Except.ok t = r at hstep
  cases step_takes hstep with
  | call call result hhandlers =>
    obtain ⟨d, hok, rfl⟩ := after_eq_ok hr.symm
    cases call with
    | start => exact absurd hafter (startInLoop_state hok)
    | stop =>
      obtain rfl := Except.ok.inj hok
      exact absurd hafter hbefore
  | fire timer result hhandlers htimer =>
    obtain ⟨d, hok, rfl⟩ := after_eq_ok hr.symm
    exact absurd hafter (startInLoop_state hok)
  | handle err selfConnect handler handlers hhandlers =>
    obtain ⟨d, hok, rfl⟩ := after_eq_ok hr.symm
    cases handler with
    | close => exact absurd (Except.ok.inj hok ▸ hafter) hbefore
    | read => exact absurd (Except.ok.inj hok ▸ hafter) hbefore
    | error =>
      obtain ⟨e, he, -, -, hkeep⟩ := hsound.conn.handleError
      obtain rfl := Except.ok.inj (he.symm.trans hok)
      exact absurd hafter (hkeep hbefore)
    | write =>
      exact ⟨err, selfConnect, rfl, by simp [hhandlers], handleWrite_connected hsound.conn hbefore hok hafter⟩
  | runFunctor result f functors hphase hfunctors =>
    obtain ⟨d, hok, rfl⟩ := after_eq_ok hr.symm
    cases f with
    | startInLoop => exact absurd hafter (startInLoop_state hok)
    | stopInLoop =>
      rcases stopInLoop_state (hsound.conn.pop hfunctors (by decide)) hok with rfl | hd
      · exact absurd hafter hbefore
      · simp [show d.state = .kConnected from hafter] at hd
    | resetChannel =>
      obtain rfl := resetChannel_ok (c := { s.conn with functors := functors }) hok
      exact absurd hafter hbefore
  | _ =>
    obtain rfl := Except.ok.inj hr
    exact absurd hafter hbefore

/-- A call connects nothing. -/
theorem Loop.call_kConnected {s t : Loop} {call : Call} (hsound : s.Sound)
    (hstep : s.step (.call call result) = some (.ok t)) (hafter : t.conn.state = .kConnected) :
    s.conn.state = .kConnected := by
  by_contra hbefore
  obtain ⟨err, selfConnect, ha, -⟩ := becomes_kConnected hsound hstep hbefore hafter
  cases ha

/-- A connect of a disconnected connector without a channel creates a socket. -/
theorem startInLoop_creates (hstate : c.state = .kDisconnected) (hwanted : c.connect_ = true)
    (hchannel : c.channel = none) (result : ConnectResult) :
    ∃ d, c.startInLoop result = .ok d ∧ c.log ++ [.create result.sockfd] <+: d.log := by
  have hstart : c.startInLoop result = c.connect result := by
    simp only [startInLoop, cassert_of hstate, ok_bind, hwanted, if_true]
  rw [hstart]
  simp only [connect, foldl_beginCall]
  cases next result.savedErrno with
  | connecting =>
    obtain ⟨channel, hok⟩ := connecting_of_none (c := { c.record (.create result.sockfd) with
      connect_ := result.meanwhile.foldl (fun _ call => call.connect) c.connect_
      calls := c.calls ++ result.meanwhile }) hchannel result.sockfd
    exact ⟨_, hok, List.prefix_rfl⟩
  | retry =>
    refine ⟨_, rfl, ?_⟩
    rw [retry_log]
    exact List.prefix_append _ _
  | error => exact ⟨_, rfl, List.prefix_append _ _⟩
  | unexpected => exact ⟨_, rfl, List.prefix_append _ _⟩

end Siren.Connector

namespace Siren.TcpClient

open Connector (Assertion ConnectResult)

/-! ### The client's side -/

/-- No connection, and no attempt, retry timer or functor of the connector. -/
structure Idle (s : TcpClient) : Prop where
  connection : s.connection_ = none
  attempt : s.connector.conn.state ≠ .kConnecting
  timers : s.connector.conn.timers = []
  functors : s.connector.conn.mailbox = []

/-- `connect()` starts an attempt, from a disconnected connector. -/
def Connects (s : TcpClient) (result : ConnectResult) : Prop :=
  s.connector.conn.state = .kDisconnected ∧
    ∃ t, s.connect result = .ok t ∧ s.connector.conn.log ++ [.create result.sockfd] <+: t.connector.conn.log

/-- A success is still wanted, and the close of a connection restarts the connector. -/
def Renews (s : TcpClient) : Label → Prop
  | .connector (.handle err selfConnect) =>
    s.connector.Succeeds err selfConnect → s.connector.conn.connect_ = true
  | .removeConnection _ => s.retry_ = true ∧ s.connect_ = true
  | _ => True

/-- A connected connector has passed its socket on to the connection. -/
def Live (s : TcpClient) : Prop := s.connector.conn.state = .kConnected → s.connection_.isSome

/-- The connector is connected for nothing. -/
def Stuck (s : TcpClient) : Prop := s.connector.conn.state = .kConnected ∧ s.connection_ = none

variable {s t : TcpClient} {a : Label}

theorem passedOn_eq_none {c d : Connector} (h : Connector.SocketStep c d) (hstate : c.state ≠ .kConnecting) :
    passedOn c d = none := by
  cases h with
  | same hlog hattempt => simp [passedOn, hlog]
  | create sockfd hnone hlog hattempt => simp [passedOn, hlog]
  | refuse sockfd hnone hlog hattempt => simp [passedOn, hlog]
  | dispose sockfd how hsome hlog hattempt hpassed => simp [Connector.attempt_eq_none hstate] at hsome

theorem Sound.live_step (h : s.Sound) (hlive : s.Live) (hrenews : Renews s a)
    (hstep : s.step a = some (.ok t)) : t.Live := by
  cases step_takes hstep with
  | connector a loop hloop =>
    intro hafter
    by_cases hbefore : s.connector.conn.state = .kConnected
    · simp [TcpClient.newConnection, hlive hbefore]
    · obtain ⟨err, selfConnect, rfl, hsucceeds⟩ :=
        Connector.Loop.becomes_kConnected h.connector hloop hbefore hafter
      obtain ⟨loop', sockfd, hstep', -, hlog⟩ := hsucceeds.step h.connector
      obtain rfl := Except.ok.inj (Option.some.inj (hloop.symm.trans hstep'))
      rw [if_pos (hrenews hsucceeds)] at hlog
      simp [TcpClient.newConnection, passedOn, hlog]
  | connect result loop hloop =>
    exact fun hafter => hlive (Connector.Loop.call_kConnected h.connector hloop hafter)
  | stop result loop hloop =>
    exact fun hafter => hlive (Connector.Loop.call_kConnected h.connector hloop hafter)
  | restart result d hsome hhandlers hretry hok =>
    exact fun hafter => absurd hafter (Connector.startInLoop_state hok)
  | removeConnection result hsome hretry => exact absurd hrenews hretry
  | _ => exact hlive

/-- A step that misses the condition leaves the connector connected for nothing. -/
theorem Sound.stuck_of_miss (h : s.Sound) (hmiss : ¬ Renews s a) (hstep : s.step a = some (.ok t)) :
    t.Stuck := by
  cases step_takes hstep with
  | connector a loop hloop =>
    cases a with
    | handle err selfConnect =>
      obtain ⟨hsucceeds, hunwanted⟩ := Classical.not_imp.mp hmiss
      obtain ⟨loop', sockfd, hstep', hstate, hlog⟩ := hsucceeds.step h.connector
      obtain rfl := Except.ok.inj (Option.some.inj (hloop.symm.trans hstep'))
      have hnone : s.connection_ = none := by
        rw [← Option.not_isSome_iff_eq_none]
        intro hsome
        cases hsucceeds.2.1.symm.trans (h.connected hsome)
      refine ⟨hstate, ?_⟩
      rw [if_neg hunwanted] at hlog
      simp [TcpClient.newConnection, passedOn, hlog, hnone]
    | _ => exact absurd trivial hmiss
  | restart result d hsome hhandlers hretry hok => exact absurd hretry hmiss
  | removeConnection result hsome hretry => exact ⟨h.connected hsome, rfl⟩
  | _ => exact absurd trivial hmiss

/-- Nothing disconnects it again. -/
theorem Sound.stuck_step (h : s.Sound) (hstuck : s.Stuck) (hstep : s.step a = some (.ok t)) : t.Stuck := by
  obtain ⟨hstate, hnone⟩ := hstuck
  cases step_takes hstep with
  | connector a loop hloop =>
    refine ⟨Connector.Loop.step_kConnected h.connector hstate hloop, ?_⟩
    have hpassed := passedOn_eq_none (Connector.Loop.step_sockets h.connector hloop) (by simp [hstate])
    simp [TcpClient.newConnection, hpassed, hnone]
  | connect result loop hloop => exact ⟨Connector.Loop.step_kConnected h.connector hstate hloop, hnone⟩
  | stop result loop hloop => exact ⟨Connector.Loop.step_kConnected h.connector hstate hloop, hnone⟩
  | restart result d hsome hhandlers hretry hok => simp [hnone] at hsome
  | removeConnection result hsome hretry => simp [hnone] at hsome
  | _ => exact ⟨hstate, hnone⟩

/-- An idle client connects when its connector is not connected for nothing. -/
theorem Sound.connects (h : s.Sound) (hlive : s.Live) (hidle : s.Idle) (result : ConnectResult) :
    s.Connects result := by
  have hstate : s.connector.conn.state = .kDisconnected := by
    cases hstate : s.connector.conn.state with
    | kDisconnected => rfl
    | kConnecting => exact absurd hstate hidle.attempt
    | kConnected =>
      have hsome := hlive hstate
      simp [hidle.connection] at hsome
  have hchannel : s.connector.conn.channel = none := by
    have hresets := h.connector.conn.resets
    rw [hidle.functors] at hresets
    simpa [hstate] using hresets
  obtain ⟨d, hok, hlog⟩ := Connector.startInLoop_creates (c := { s.connector.conn with connect_ := true })
    hstate rfl hchannel result
  refine ⟨hstate, { s with connector := { s.connector with conn := d }, connect_ := true }, ?_, hlog⟩
  show after _ (Connector.startInLoop { s.connector.conn with connect_ := true } result) = _
  rw [hok]
  rfl

/-! ### Every run -/

/-- **An idle client can be connected again** exactly when each success of the run was still wanted and each
close of a connection restarted the connector. -/
theorem reconnectable_iff {as : List Label} {s : TcpClient} (hrun : runs.run (.ok new) as = some (.ok s))
    (hidle : s.Idle) (result : ConnectResult) :
    s.Connects result ↔ runs.Meets (Machine.AtOk Renews) (.ok new) as := by
  have hsound : ∀ {bs r}, runs.run (.ok new) bs = some r → Machine.HoldsIfOk Sound r := fun hbs =>
    (Machine.ofExcept_always_holdsIfOk (I := Sound) new_sound fun _ _ _ h hstep => h.step hstep).last hbs
  constructor
  · intro hconnects
    by_contra hmeets
    obtain ⟨u, a, v, ⟨bs, hbs⟩, huv, hmiss, hv⟩ := Machine.exists_miss hmeets hrun
    cases u with
    | error e => exact hmiss trivial
    | ok u =>
      have hstuck : Machine.HoldsIfOk (fun s => s.Sound ∧ s.Stuck) v := by
        cases v with
        | error e => trivial
        | ok v => exact ⟨(hsound hbs).step huv, (hsound hbs).stuck_of_miss hmiss huv⟩
      have hlast : Machine.HoldsIfOk (ε := Assertion) (fun s => s.Sound ∧ s.Stuck) (.ok s) := by
        refine hv.invariant (fun r a r' hr hstep => ?_) hstuck
        cases r with
        | error e => cases hstep
        | ok s =>
          cases r' with
          | error e => trivial
          | ok t => exact ⟨hr.1.step hstep, hr.1.stuck_step hr.2 hstep⟩
      cases hlast.2.1.symm.trans hconnects.1
  · intro hmeets
    have hnew : Machine.HoldsIfOk (ε := Assertion) (fun s => s.Sound ∧ s.Live) (.ok new) :=
      ⟨new_sound, fun h => by cases h⟩
    have hlive : Machine.HoldsIfOk (ε := Assertion) (fun s => s.Sound ∧ s.Live) (.ok s) := by
      refine (Machine.Always.of_invariant (C := Machine.AtOk Renews) hnew ?_ hmeets).last hrun
      intro r a r' hr hC hstep
      cases r with
      | error e => cases hstep
      | ok s =>
        cases r' with
        | error e => trivial
        | ok t => exact ⟨hr.1.step hstep, hr.1.live_step hr.2 hC hstep⟩
    exact hlive.1.connects hlive.2 hidle result

/-- `reconnectable_iff` after an attempt that `stop` ended. -/
theorem reconnectable_after_stop : ∃ as s, runs.run (.ok new) as = some (.ok s) ∧
    s.connector.conn.log = [.create 3, .close 3] ∧ s.Connects ⟨3, EINPROGRESS, []⟩ := by
  let as : List Label := [.connect ⟨3, EINPROGRESS, []⟩, .stop ⟨0, 0, []⟩, .connector (.poll none),
    .connector .swap, .connector (.runFunctor ⟨0, 0, []⟩), .connector (.poll none), .connector .swap,
    .connector (.runFunctor ⟨0, 0, []⟩)]
  obtain ⟨s, hrun, hidle, hlog⟩ : ∃ s, runs.run (.ok new) as = some (.ok s) ∧ s.Idle ∧
      s.connector.conn.log = [.create 3, .close 3] :=
    ⟨_, rfl, ⟨rfl, by decide, rfl, rfl⟩, rfl⟩
  refine ⟨as, s, hrun, hlog, (reconnectable_iff hrun hidle _).mpr ?_⟩
  exact .cons rfl trivial (.cons rfl trivial (.cons rfl trivial (.cons rfl trivial (.cons rfl trivial
    (.cons rfl trivial (.cons rfl trivial (.cons rfl trivial Machine.meets_nil)))))))

/-- A connection closes without a reconnect: the client is idle, and its next `connect()` fails. -/
theorem closed_client_cannot_connect : ∃ s, runs.run (.ok new)
      [.connect ⟨3, EINPROGRESS, []⟩, .connector (.poll (some POLLOUT)), .connector .dispatch,
        .connector (.handle 0 false), .connector .swap, .connector (.runFunctor ⟨0, 0, []⟩),
        .removeConnection ⟨0, 0, []⟩] = some (.ok s) ∧
    s.Idle ∧ s.connect ⟨4, EINPROGRESS, []⟩ = .error (.startInLoop true) :=
  ⟨_, rfl, ⟨rfl, by decide, rfl, rfl⟩, rfl⟩

end Siren.TcpClient
