import Siren.Net.Connector.Attempts
import Siren.Net.TcpClient.Basic

/-!
# The sockets of a `Connector`

`connect()` creates a socket, and every way out of an attempt closes it or passes it to
`newConnectionCallback_`: each errno class of `connect(2)`, an error or a failed completion, a stop, a
self-connect, a success that is wanted or not. The log of the connector tells them apart, socket by socket.

`sockets_owned`: in every run the log is, for each socket disposed of, its creation and then its one close
or its one passing on, and last the creation of the socket of `channel_` while the connector is
`kConnecting`.
-/

namespace Siren.Connector

/-! ### Lifetimes of sockets -/

inductive Disposal where
  | closed
  | passedOn
  deriving DecidableEq

def Disposal.action (sockfd : Int) : Disposal → Action
  | .closed => .close sockfd
  | .passedOn => .newConnection sockfd

/-- Sockets one after the other, each from its creation to its disposal. -/
def lifetimes (done : List (Int × Disposal)) : List Action :=
  done.flatMap fun socket => [.create socket.1, socket.2.action socket.1]

/-- The socket of `channel_` while the connector is `kConnecting`. -/
def attempt (c : Connector) : Option Int :=
  if c.state = .kConnecting then c.channel.map fun channel => (channel.channel ()).fd else none

/-- Every socket created was closed or passed on, once, but for the one of the attempt. -/
def Owned (c : Connector) : Prop :=
  ∃ done, c.log = lifetimes done ++ c.attempt.toList.map .create

variable {c d : Connector} {sockfd : Int} {how : Disposal} {result : ConnectResult}

/-- What a member function that turns `c` into `d` does with sockets. -/
inductive SocketStep (c d : Connector) : Prop where
  | same (hlog : d.log = c.log) (hattempt : d.attempt = c.attempt)
  | create (sockfd : Int) (hnone : c.attempt = none) (hlog : d.log = c.log ++ [.create sockfd])
    (hattempt : d.attempt = some sockfd)
  /-- A socket that `connect()` does not keep. -/
  | refuse (sockfd : Int) (hnone : c.attempt = none)
    (hlog : d.log = c.log ++ [.create sockfd, .close sockfd]) (hattempt : d.attempt = none)
  /-- The end of an attempt. -/
  | dispose (sockfd : Int) (how : Disposal) (hsome : c.attempt = some sockfd)
    (hlog : d.log = c.log ++ [how.action sockfd]) (hattempt : d.attempt = none)
    (hpassed : how = .passedOn → d.state = .kConnected)

variable {c d e : Connector} {sockfd : Int} {how : Disposal} {result : ConnectResult}

theorem lifetimes_concat (done : List (Int × Disposal)) :
    lifetimes (done ++ [(sockfd, how)]) = lifetimes done ++ [.create sockfd, how.action sockfd] := by
  simp [lifetimes]

theorem new_owned : new.Owned := ⟨[], rfl⟩

namespace SocketStep

theorem refl (c : Connector) : SocketStep c c := .same rfl rfl

theorem owned (h : SocketStep c d) (hc : c.Owned) : d.Owned := by
  obtain ⟨done, hdone⟩ := hc
  cases h with
  | same hlog hattempt => exact ⟨done, by rw [hlog, hattempt, hdone]⟩
  | create sockfd hnone hlog hattempt => exact ⟨done, by simp [hlog, hattempt, hdone, hnone]⟩
  | refuse sockfd hnone hlog hattempt =>
    refine ⟨done ++ [(sockfd, .closed)], ?_⟩
    rw [lifetimes_concat, hlog, hattempt, hdone, hnone]
    simp [Disposal.action]
  | dispose sockfd how hsome hlog hattempt hpassed =>
    refine ⟨done ++ [(sockfd, how)], ?_⟩
    rw [lifetimes_concat, hlog, hattempt, hdone, hsome]
    simp

/-- The step goes on from, or comes to, a connector that differs in nothing this is about. -/
theorem congr_left (h : SocketStep c d) (hlog : c.log = e.log) (hattempt : c.attempt = e.attempt) :
    SocketStep e d := by
  cases h with
  | same hlog' hattempt' => exact .same (hlog'.trans hlog) (hattempt'.trans hattempt)
  | create sockfd hnone hlog' hattempt' =>
    exact .create sockfd (hattempt.symm.trans hnone) (hlog ▸ hlog') hattempt'
  | refuse sockfd hnone hlog' hattempt' =>
    exact .refuse sockfd (hattempt.symm.trans hnone) (hlog ▸ hlog') hattempt'
  | dispose sockfd how hsome hlog' hattempt' hpassed =>
    exact .dispose sockfd how (hattempt.symm.trans hsome) (hlog ▸ hlog') hattempt' hpassed

end SocketStep

theorem attempt_eq_none (h : c.state ≠ .kConnecting) : c.attempt = none := if_neg h

theorem attempt_eq_some {channel : MirroredRegistry Unit} (h : c.state = .kConnecting)
    (hchannel : c.channel = some channel) : c.attempt = some (channel.channel ()).fd := by
  simp [attempt, h, hchannel]

/-! ### What the member functions do with sockets -/

@[simp] theorem retry_log : (c.retry sockfd).log = c.log ++ [.close sockfd] := by
  simp only [retry]
  split <;> rfl

theorem connect_sockets (hstate : c.state = .kDisconnected) (hok : c.connect result = .ok d) :
    SocketStep c d := by
  have hnone : c.attempt = none := attempt_eq_none (by simp [hstate])
  simp only [connect, foldl_beginCall] at hok
  cases hnext : next result.savedErrno with
  | connecting =>
    simp only [hnext, connecting] at hok
    obtain ⟨-, hok⟩ := of_cassert_bind hok
    obtain rfl := Except.ok.inj hok
    refine .create result.sockfd hnone rfl ?_
    rw [attempt_eq_some rfl rfl, MirroredRegistry.channel_setInterest, Function.update_self]
    rfl
  | retry =>
    simp only [hnext] at hok
    obtain rfl := Except.ok.inj hok
    refine .refuse result.sockfd hnone ?_ (attempt_eq_none (by simp))
    rw [retry_log]
    simp [record]
  | error =>
    simp only [hnext] at hok
    obtain rfl := Except.ok.inj hok
    exact .refuse result.sockfd hnone (by simp [record]) (attempt_eq_none (by simp [record, hstate]))
  | unexpected =>
    simp only [hnext] at hok
    obtain rfl := Except.ok.inj hok
    exact .refuse result.sockfd hnone (by simp [record]) (attempt_eq_none (by simp [record, hstate]))

theorem startInLoop_sockets (hok : c.startInLoop result = .ok d) : SocketStep c d := by
  rcases startInLoop_cases c result with ⟨-, heq⟩ | ⟨-, -, heq⟩ | ⟨hstate, -, heq⟩
  · rw [heq] at hok
    cases hok
  · obtain rfl := Except.ok.inj (heq.symm.trans hok)
    exact .refl c
  · exact connect_sockets hstate (heq.symm.trans hok)

/-- `removeAndResetChannel` returns the descriptor of the channel. -/
theorem removeAndResetChannel_fd {channel : MirroredRegistry Unit} (h : c.channel = some channel) :
    ∃ removed, c.removeAndResetChannel =
      .ok (({ c with channel := some removed } : Connector).queueInLoop .resetChannel,
        (channel.channel ()).fd) := by
  obtain ⟨removed, hok, -, hfd⟩ := channel.remove_disableAll ()
  exact ⟨removed, by simp only [removeAndResetChannel, h, hok, hfd]⟩

theorem stopInLoop_sockets (hsound : c.Sound) (hok : c.stopInLoop = .ok d) : SocketStep c d := by
  by_cases hstate : c.state = .kConnecting
  · obtain ⟨channel, hchannel⟩ := Option.isSome_iff_exists.mp (hsound.connecting hstate)
    obtain ⟨removed, hremoved⟩ := removeAndResetChannel_fd (c := c.setState .kDisconnected) hchannel
    rw [stopInLoop, if_pos hstate, hremoved] at hok
    obtain rfl := Except.ok.inj hok
    exact .dispose _ .closed (attempt_eq_some hstate hchannel) retry_log (attempt_eq_none (by simp)) (by simp)
  · rw [stopInLoop, if_neg hstate] at hok
    exact Except.ok.inj hok ▸ .refl c

theorem handleError_sockets (hsound : c.Sound) (hok : c.handleError = .ok d) : SocketStep c d := by
  by_cases hstate : c.state = .kConnecting
  · obtain ⟨channel, hchannel⟩ := Option.isSome_iff_exists.mp (hsound.connecting hstate)
    obtain ⟨removed, hremoved⟩ := removeAndResetChannel_fd hchannel
    rw [handleError, if_pos hstate, hremoved] at hok
    obtain rfl := Except.ok.inj hok
    exact .dispose _ .closed (attempt_eq_some hstate hchannel) retry_log (attempt_eq_none (by simp)) (by simp)
  · rw [handleError, if_neg hstate] at hok
    exact Except.ok.inj hok ▸ .refl c

theorem handleWrite_sockets (hsound : c.Sound) {err : Nat} {selfConnect : Bool}
    (hok : c.handleWrite err selfConnect = .ok d) : SocketStep c d := by
  by_cases hstate : c.state = .kConnecting
  · obtain ⟨channel, hchannel⟩ := Option.isSome_iff_exists.mp (hsound.connecting hstate)
    obtain ⟨removed, hremoved⟩ := removeAndResetChannel_fd hchannel
    have hsome := attempt_eq_some hstate hchannel
    rw [handleWrite, if_pos hstate, hremoved, ok_bind] at hok
    dsimp only at hok
    split at hok
    · obtain rfl := Except.ok.inj hok
      exact .dispose _ .closed hsome retry_log (attempt_eq_none (by simp)) (by simp)
    · split at hok
      · obtain rfl := Except.ok.inj hok
        exact .dispose _ .closed hsome retry_log (attempt_eq_none (by simp)) (by simp)
      · split at hok
        · obtain rfl := Except.ok.inj hok
          exact .dispose _ .passedOn hsome rfl (attempt_eq_none (by simp [record, setState])) fun _ => rfl
        · obtain rfl := Except.ok.inj hok
          exact .dispose _ .closed hsome rfl (attempt_eq_none (by simp [record, setState])) (by simp)
  · rw [handleWrite, if_neg hstate] at hok
    obtain ⟨-, hok⟩ := of_cassert_bind hok
    exact Except.ok.inj hok ▸ .refl c

theorem resetChannel_sockets (hstate : c.state ≠ .kConnecting) (hok : c.resetChannel = .ok d) :
    SocketStep c d := by
  obtain rfl := resetChannel_ok hok
  refine .same rfl ?_
  rw [attempt_eq_none hstate]
  exact attempt_eq_none hstate

/-! ### One step of the loop -/

theorem Loop.after_eq_ok {s t : Loop} {r : Except Assertion Connector} (h : s.after r = .ok t) :
    ∃ d, r = .ok d ∧ t = { s with conn := d } := by
  cases r with
  | error e => cases h
  | ok d => exact ⟨d, rfl, (Except.ok.inj h).symm⟩

/-- A poll that reports the channel leaves its descriptor. -/
theorem Loop.report_sockets {s t : Loop} {revents : Mask}
    (hstep : s.step (.poll (some revents)) = some (.ok t)) : SocketStep s.conn t.conn := by
  obtain ⟨-, hpoll⟩ := Option.ite_none_right_eq_some.mp hstep
  obtain ⟨channel, hchannel, hpoll⟩ := Option.bind_eq_some_iff.mp hpoll
  obtain ⟨⟨polled, activeChannels⟩, hpolled, hr⟩ := Option.bind_eq_some_iff.mp hpoll
  obtain rfl := Except.ok.inj (Option.some.inj hr)
  obtain ⟨⟨⟩, -, -, hupdate⟩ := MirroredRegistry.poll_singleton hpolled
  refine .same rfl ?_
  have hfd : (polled.channel ()).fd = (channel.channel ()).fd := by
    rw [hupdate, Function.update_self]
  simp [attempt, hchannel, hfd]

theorem Loop.step_sockets {s t : Loop} {a : Label} (hsound : s.Sound) (hstep : s.step a = some (.ok t)) :
    SocketStep s.conn t.conn := by
  generalize hr : Except.ok t = r at hstep
  cases step_takes hstep with
  | call call result hhandlers =>
    obtain ⟨d, hok, rfl⟩ := after_eq_ok hr.symm
    cases call with
    | start => exact (startInLoop_sockets hok).congr_left rfl rfl
    | stop =>
      obtain rfl := Except.ok.inj hok
      exact .same rfl rfl
  | beginCall call =>
    obtain rfl := Except.ok.inj hr
    exact .same rfl rfl
  | endCall call hcall =>
    obtain rfl := Except.ok.inj hr
    exact .same rfl rfl
  | poll hphase =>
    obtain rfl := Except.ok.inj hr
    exact .same rfl rfl
  | report revents channel polled hphase hchannel hindex =>
    obtain rfl := Except.ok.inj hr
    exact report_sockets hstep
  | fire timer result hhandlers htimer =>
    obtain ⟨d, hok, rfl⟩ := after_eq_ok hr.symm
    exact (startInLoop_sockets hok).congr_left rfl rfl
  | dispatch channel hactive =>
    obtain rfl := Except.ok.inj hr
    exact .same rfl rfl
  | handle err selfConnect handler handlers hhandlers =>
    obtain ⟨d, hok, rfl⟩ := after_eq_ok hr.symm
    cases handler with
    | close => exact Except.ok.inj hok ▸ .refl _
    | read => exact Except.ok.inj hok ▸ .refl _
    | error => exact handleError_sockets hsound.conn hok
    | write => exact handleWrite_sockets hsound.conn hok
  | swap hactive hhandlers hfunctors =>
    obtain rfl := Except.ok.inj hr
    exact .same rfl rfl
  | runFunctor result f functors hphase hfunctors =>
    obtain ⟨d, hok, rfl⟩ := after_eq_ok hr.symm
    cases f with
    | startInLoop => exact (startInLoop_sockets hok).congr_left rfl rfl
    | stopInLoop =>
      exact (stopInLoop_sockets (hsound.conn.pop hfunctors (by decide)) hok).congr_left rfl rfl
    | resetChannel =>
      have hstate : s.conn.state ≠ .kConnecting := by
        intro hstate
        have hresets := hsound.conn.resets
        rw [mailbox, hfunctors, List.cons_append, List.count_cons_self, if_neg (by simp [hstate])] at hresets
        omega
      exact (resetChannel_sockets (c := { s.conn with functors := functors }) hstate hok).congr_left rfl rfl

/-- A connected connector stays connected, or an assertion fails. -/
theorem Loop.step_kConnected {s t : Loop} {a : Label} (hsound : s.Sound) (hstate : s.conn.state = .kConnected)
    (hstep : s.step a = some (.ok t)) : t.conn.state = .kConnected := by
  have hstart : ∀ {c d : Connector} {result : ConnectResult}, c.state = .kConnected →
      c.startInLoop result ≠ .ok d := by
    intro c d result hc hok
    cases (startInLoop_disconnected hok).symm.trans hc
  generalize hr : Except.ok t = r at hstep
  cases step_takes hstep with
  | call call result hhandlers =>
    obtain ⟨d, hok, rfl⟩ := after_eq_ok hr.symm
    cases call with
    | start => exact absurd hok (hstart (c := { s.conn with connect_ := true }) hstate)
    | stop =>
      obtain rfl := Except.ok.inj hok
      exact hstate
  | fire timer result hhandlers htimer =>
    obtain ⟨d, hok, rfl⟩ := after_eq_ok hr.symm
    exact absurd hok (hstart (c := { s.conn with timers := s.conn.timers.eraseIdx timer }) hstate)
  | handle err selfConnect handler handlers hhandlers =>
    exact absurd hstate (hsound.handlers (by simp [hhandlers])).2
  | runFunctor result f functors hphase hfunctors =>
    obtain ⟨d, hok, rfl⟩ := after_eq_ok hr.symm
    cases f with
    | startInLoop => exact absurd hok (hstart (c := { s.conn with functors := functors }) hstate)
    | stopInLoop =>
      have hne : ({ s.conn with functors := functors } : Connector).state ≠ .kConnecting := by simp [hstate]
      rw [runFunctor, stopInLoop, if_neg hne] at hok
      exact Except.ok.inj hok ▸ hstate
    | resetChannel =>
      obtain rfl := resetChannel_ok (c := { s.conn with functors := functors }) hok
      exact hstate
  | _ =>
    obtain rfl := Except.ok.inj hr
    exact hstate

end Siren.Connector

namespace Siren.TcpClient

open Connector (Assertion ConnectResult SocketStep)

/-! ### The client -/

/-- The client's connection comes from the socket its connector is connected with, and no socket of the
connector is lost or disposed of twice. -/
structure Sound (s : TcpClient) : Prop where
  connector : s.connector.Sound
  connected : s.connection_.isSome → s.connector.conn.state = .kConnected
  owned : s.connector.conn.Owned

variable {s t : TcpClient} {a : Label}

theorem new_sound : new.Sound where
  connector := Connector.Loop.init_sound
  connected h := by cases h
  owned := Connector.new_owned

/-- The connector passes a socket on when it becomes connected only. -/
theorem kConnected_of_passedOn {c d : Connector} (h : SocketStep c d) (hpassed : (passedOn c d).isSome) :
    d.state = .kConnected := by
  cases h with
  | same hlog hattempt => simp [passedOn, hlog] at hpassed
  | create sockfd hnone hlog hattempt => simp [passedOn, hlog] at hpassed
  | refuse sockfd hnone hlog hattempt => simp [passedOn, hlog] at hpassed
  | dispose sockfd how hsome hlog hattempt hstate =>
    cases how with
    | closed => simp [passedOn, hlog, Connector.Disposal.action] at hpassed
    | passedOn => exact hstate rfl

theorem Sound.newConnection (h : s.Sound) {a : Connector.Label} {loop : Connector.Loop}
    (hstep : s.connector.step a = some (.ok loop)) : (s.newConnection loop).Sound := by
  have hsockets := Connector.Loop.step_sockets h.connector hstep
  refine ⟨h.connector.step hstep, fun hsome => ?_, hsockets.owned h.owned⟩
  by_cases hpassed : (passedOn s.connector.conn loop.conn).isSome
  · exact kConnected_of_passedOn hsockets hpassed
  · rw [Option.not_isSome_iff_eq_none] at hpassed
    simp only [TcpClient.newConnection, hpassed, Option.none_or] at hsome
    exact Connector.Loop.step_kConnected h.connector (h.connected hsome) hstep

theorem Sound.call (h : s.Sound) {call : Connector.Call} {result : ConnectResult} {loop : Connector.Loop}
    {connect : Bool} (hloop : s.connector.step (.call call result) = some (.ok loop)) :
    Sound { s with connector := loop, connect_ := connect } := by
  refine ⟨h.connector.step hloop, fun hsome => ?_, ?_⟩
  · exact Connector.Loop.step_kConnected h.connector (h.connected hsome) hloop
  · exact (Connector.Loop.step_sockets h.connector hloop).owned h.owned

/-- The connector of a closed connection is restarted from `kConnected`. -/
theorem Sound.restart (h : s.Sound) (hsome : s.connection_.isSome) (hhandlers : s.connector.handlers = [])
    {result : ConnectResult} {d : Connector} (hd : s.connector.conn.restart result = .ok d) :
    Sound { s with connector := { s.connector with conn := d }, connection_ := none } := by
  have hstate := h.connected hsome
  let c : Connector := { s.connector.conn with
    state := .kDisconnected, retryDelayMs := Connector.kInitRetryDelayMs, connect_ := true }
  have hsound := h.connector.conn
  have hc : c.Sound := by
    refine ⟨fun hconnecting => (by cases hconnecting), fun _ => hsound.removed (by simp [hstate]), ?_⟩
    have hresets : c.mailbox.count .resetChannel = _ := hsound.resets
    rw [hresets]
    simp [c, hstate]
  have hactive : s.connector.active = false := by
    by_contra hactive
    have hconnecting := h.connector.active (by simpa using hactive)
    simp [hstate] at hconnecting
  have hattempt : c.attempt = s.connector.conn.attempt := by
    rw [Connector.attempt_eq_none (by simp [hstate] : s.connector.conn.state ≠ .kConnecting)]
    exact Connector.attempt_eq_none (by simp [c])
  have hloop := h.connector.after hhandlers (hc.startInLoop result) fun d _ hactive' => by
    simp [hactive] at hactive'
  rw [show c.startInLoop result = .ok d from hd] at hloop
  have hsockets : SocketStep s.connector.conn d :=
    (Connector.startInLoop_sockets (c := c) hd).congr_left rfl hattempt
  exact ⟨hloop, fun hnone => (by cases hnone), hsockets.owned h.owned⟩

theorem Sound.step (h : s.Sound) (hstep : s.step a = some (.ok t)) : t.Sound := by
  cases step_takes hstep with
  | connector a loop hloop => exact h.newConnection hloop
  | connect result loop hloop => exact h.call hloop
  | stop result loop hloop => exact h.call hloop
  | restart result d hsome hhandlers hretry hok => exact h.restart hsome hhandlers hok
  | removeConnection result hsome hretry => exact ⟨h.connector, fun hnone => (by cases hnone), h.owned⟩
  | _ => exact ⟨h.connector, h.connected, h.owned⟩

/-! ### Every run -/

/-- **The sockets of a connector**: in every run of a connector and its client, up to a failed assertion, the
log is the lifetimes of the sockets that were closed or passed on, each once, and then the creation of the
socket of `channel_` if the connector is `kConnecting`. -/
theorem sockets_owned (as : List Label) :
    runs.Always (Machine.HoldsIfOk fun s => s.connector.conn.Owned) (.ok new) as :=
  (Machine.ofExcept_always_holdsIfOk (I := Sound) new_sound fun _ _ _ h hstep => h.step hstep).mono
    fun r hr => by
      cases r with
      | error e => trivial
      | ok s => exact hr.owned

end Siren.TcpClient
