import Siren.Net.TcpClient.Sockets

/-!
# `TcpClient::stop`

`stop` clears both flags, the client's `connect_` and the connector's, and only `connect` sets them again:
`restart` would set the connector's too, but looks at the client's first. Whatever is still outstanding then
runs with both flags clear, and can only close sockets.

* `Connector.Loop.rests_step`: what a step of the connector does while its flag is clear.
* `stop_is_final`: no attempt and no `newConnection` after `stop`.
-/

namespace Siren.Connector

variable {c d : Connector} {result : ConnectResult}

/-- From `c` a connector that is not to connect has come to this result: it has closed sockets at most. A
failed assertion is not the one of `connecting`, which comes after `connect(2)`. -/
def Rests (c : Connector) : Except Assertion Connector → Prop
  | .ok d => d.connect_ = false ∧ ∃ sockets : List Int, d.log = c.log ++ sockets.map .close
  | .error e => e ≠ .connecting

theorem Rests.same (h : d.connect_ = false) (hlog : d.log = c.log) : Rests c (.ok d) :=
  ⟨h, [], hlog.trans (List.append_nil _).symm⟩

theorem Rests.retry (h : d.connect_ = false) (hlog : d.log = c.log) (sockfd : Int) :
    Rests c (.ok (d.retry sockfd)) := by
  refine ⟨?_, [sockfd], ?_⟩
  · simp only [Connector.retry, record, setState, h]
    rfl
  · rw [retry_log, hlog]
    rfl

theorem Rests.of_log {r : Except Assertion Connector} (h : Rests d r) (hlog : d.log = c.log) : Rests c r := by
  unfold Rests at *
  rwa [hlog] at h

theorem Rests.cassert {p : Prop} [Decidable p] {e : Assertion} (he : e ≠ .connecting) (h : d.connect_ = false)
    (hlog : d.log = c.log) : Rests c (Siren.cassert.{0, 0} p e >>= fun _ => .ok d) := by
  by_cases hp : p
  · rw [cassert_of hp, ok_bind]
    exact .same h hlog
  · rw [cassert_of_not hp, error_bind]
    exact he

/-- A computation on what `removeAndResetChannel` leaves. -/
theorem Rests.removeAndResetChannel (h : d.connect_ = false) (hlog : d.log = c.log)
    {f : Connector × Int → Except Assertion Connector}
    (hf : ∀ e sockfd, e.connect_ = false → e.log = c.log → Rests c (f (e, sockfd))) :
    Rests c (d.removeAndResetChannel >>= f) := by
  cases hchannel : d.channel with
  | none =>
    have herr : d.removeAndResetChannel = .error .noChannel := by simp only [Connector.removeAndResetChannel, hchannel]
    rw [herr, error_bind]
    exact fun he => by cases he
  | some channel =>
    obtain ⟨removed, hok⟩ := removeAndResetChannel_fd hchannel
    rw [hok, ok_bind]
    exact hf _ _ h hlog

theorem rests_startInLoop (h : c.connect_ = false) (result : ConnectResult) : Rests c (c.startInLoop result) := by
  rcases startInLoop_cases c result with ⟨-, herr⟩ | ⟨-, -, hok⟩ | ⟨-, hwanted, -⟩
  · rw [herr]
    exact fun he => by cases he
  · rw [hok]
    exact .same h rfl
  · exact absurd hwanted (by simp [h])

theorem rests_stopInLoop (h : c.connect_ = false) : Rests c c.stopInLoop := by
  unfold stopInLoop
  split
  · exact Rests.removeAndResetChannel (d := c.setState .kDisconnected) h rfl
      fun _ sockfd he hlog => Rests.retry he hlog sockfd
  · exact .same h rfl

theorem rests_handleError (h : c.connect_ = false) : Rests c c.handleError := by
  unfold handleError
  split
  · exact Rests.removeAndResetChannel h rfl fun _ sockfd he hlog => Rests.retry he hlog sockfd
  · exact .same h rfl

/-- The socket of an attempt that succeeds all the same is closed. -/
theorem rests_handleWrite (h : c.connect_ = false) (err : Nat) (selfConnect : Bool) :
    Rests c (c.handleWrite err selfConnect) := by
  unfold handleWrite
  split
  · refine Rests.removeAndResetChannel h rfl fun e sockfd he hlog => ?_
    dsimp only
    split
    · exact Rests.retry he hlog sockfd
    · split
      · exact Rests.retry he hlog sockfd
      · split
        · rename_i hwanted
          exact absurd hwanted (by simp [setState, he])
        · refine ⟨he, [sockfd], ?_⟩
          rw [← hlog]
          rfl
  · exact .cassert (by decide) h rfl

theorem rests_resetChannel (h : c.connect_ = false) : Rests c c.resetChannel := by
  unfold resetChannel
  split
  · exact .same h rfl
  · exact .cassert (by decide) h rfl

theorem rests_runFunctor (h : c.connect_ = false) (result : ConnectResult) (f : Functor) :
    Rests c (c.runFunctor result f) := by
  cases f with
  | startInLoop => exact rests_startInLoop h result
  | stopInLoop => exact rests_stopInLoop h
  | resetChannel => exact rests_resetChannel h

theorem rests_runHandler (h : c.connect_ = false) (err : Nat) (selfConnect : Bool)
    (handler : Channel.Handler) : Rests c (c.runHandler err selfConnect handler) := by
  cases handler with
  | close => exact .same h rfl
  | read => exact .same h rfl
  | error => exact rests_handleError h
  | write => exact rests_handleWrite h err selfConnect

/-- The label belongs to a call of `start`: it sets `connect_`. -/
def Label.Starts : Label → Prop
  | .call .start _ => True
  | .beginCall .start => True
  | _ => False

theorem Loop.after_conn (s : Loop) (r : Except Assertion Connector) : (s.after r).map Loop.conn = r := by
  cases r <;> rfl

theorem Loop.rests_step {s : Loop} {a : Label} {r : Except Assertion Loop} (h : s.conn.connect_ = false)
    (ha : ¬ a.Starts) (hstep : s.step a = some r) : Rests s.conn (r.map Loop.conn) := by
  cases step_takes hstep with
  | call call result hhandlers =>
    cases call with
    | start => exact absurd trivial ha
    | stop => exact .same rfl rfl
  | beginCall call =>
    cases call with
    | start => exact absurd trivial ha
    | stop => exact .same rfl rfl
  | endCall call hcall => exact .same h rfl
  | poll hphase => exact .same h rfl
  | report revents channel polled hphase hchannel hindex => exact .same h rfl
  | fire timer result hhandlers htimer =>
    rw [after_conn]
    exact (rests_startInLoop (c := { s.conn with timers := s.conn.timers.eraseIdx timer }) h result).of_log rfl
  | dispatch channel hactive => exact .same h rfl
  | handle err selfConnect handler handlers hhandlers =>
    rw [after_conn]
    exact rests_runHandler h err selfConnect handler
  | swap hactive hhandlers hfunctors => exact .same h rfl
  | runFunctor result f functors hphase hfunctors =>
    rw [after_conn]
    exact (rests_runFunctor (c := { s.conn with functors := functors }) h result f).of_log rfl

end Siren.Connector

namespace Siren.TcpClient

open Connector (Assertion ConnectResult)

/-- The steps of a call of `stop`, on the loop's thread or on another one. -/
inductive StopCall : List Label → Prop
  | onLoop (result : ConnectResult) : StopCall [.stop result]
  | elsewhere : StopCall [.setConnect false, .connector (.beginCall .stop), .connector (.endCall .stop)]

/-- The label belongs to a call of `connect`: it sets one of the flags. -/
def Label.Connects : Label → Prop
  | .connect _ => True
  | .setConnect true => True
  | .connector a => a.Starts
  | _ => False

/-- Both flags are clear. -/
def Stopped (s : TcpClient) : Prop := s.connect_ = false ∧ s.connector.conn.connect_ = false

/-- Since `s` the client has closed sockets at most: none was created, and `newConnection` was not called. A
failed assertion is not the one of `connecting`, which comes after `connect(2)`. -/
def OnlyCloses (s : TcpClient) : Except Assertion TcpClient → Prop
  | .ok t => (∃ sockets : List Int, t.connector.conn.log = s.connector.conn.log ++ sockets.map .close) ∧
    (t.connection_ = s.connection_ ∨ t.connection_ = none)
  | .error e => e ≠ .connecting

variable {s t u : TcpClient} {a : Label} {r : Except Assertion TcpClient}

theorem OnlyCloses.refl (s : TcpClient) : OnlyCloses s (.ok s) :=
  ⟨⟨[], (List.append_nil _).symm⟩, Or.inl rfl⟩

theorem OnlyCloses.trans (h : OnlyCloses s (.ok t)) (h' : OnlyCloses t r) : OnlyCloses s r := by
  cases r with
  | error e => exact h'
  | ok u =>
    obtain ⟨⟨sockets, hlog⟩, hconnection⟩ := h
    obtain ⟨⟨sockets', hlog'⟩, hconnection'⟩ := h'
    refine ⟨⟨sockets ++ sockets', ?_⟩, ?_⟩
    · rw [hlog', hlog, List.append_assoc, List.map_append]
    · exact hconnection'.elim (fun heq => hconnection.imp heq.trans heq.trans) Or.inr

theorem passedOn_of_closes {c d : Connector} {sockets : List Int} (h : d.log = c.log ++ sockets.map .close) :
    passedOn c d = none := by
  simp [passedOn, h]

/-- What becomes of a stopped client in a step that is not of `connect`. -/
theorem Stopped.step (h : s.Stopped) (ha : ¬ a.Connects) (hstep : s.step a = some r) :
    Machine.HoldsIfOk Stopped r ∧ OnlyCloses s r := by
  obtain ⟨hconnect, hconn⟩ := h
  cases a with
  | connector a =>
    obtain ⟨r', hr', rfl⟩ := Option.map_eq_some_iff.mp hstep
    have hrests := Connector.Loop.rests_step hconn ha hr'
    cases r' with
    | error e => exact ⟨trivial, hrests⟩
    | ok loop =>
      obtain ⟨hconn', sockets, hlog⟩ := hrests
      refine ⟨⟨hconnect, hconn'⟩, ⟨sockets, hlog⟩, Or.inl ?_⟩
      show (passedOn s.connector.conn loop.conn).or s.connection_ = s.connection_
      rw [passedOn_of_closes hlog, Option.none_or]
  | connect result => exact absurd trivial ha
  | stop result =>
    obtain ⟨-, rfl⟩ := Machine.of_ite_eq_some hstep
    exact ⟨⟨rfl, rfl⟩, ⟨[], (List.append_nil _).symm⟩, Or.inl rfl⟩
  | disconnect =>
    obtain ⟨-, rfl⟩ := Machine.of_ite_eq_some hstep
    exact ⟨⟨rfl, hconn⟩, OnlyCloses.refl s⟩
  | enableRetry =>
    obtain rfl := Option.some.inj hstep
    exact ⟨⟨hconnect, hconn⟩, OnlyCloses.refl s⟩
  | setConnect connect =>
    obtain rfl := Option.some.inj hstep
    cases connect with
    | true => exact absurd trivial ha
    | false => exact ⟨⟨rfl, hconn⟩, OnlyCloses.refl s⟩
  | removeConnection result =>
    obtain ⟨-, rfl⟩ := Machine.of_ite_eq_some hstep
    simp only [removeConnection, hconnect, Bool.and_false, if_neg Bool.false_ne_true]
    exact ⟨⟨rfl, hconn⟩, ⟨[], (List.append_nil _).symm⟩, Or.inr rfl⟩

theorem StopCall.stopped {as : List Label} (h : StopCall as) (hrun : runs.run (.ok s) as = some (.ok t)) :
    t.Stopped := by
  cases h with
  | onLoop result =>
    obtain ⟨r, hr, hrun⟩ := Option.bind_eq_some_iff.mp hrun
    obtain rfl := Option.some.inj hrun
    obtain ⟨-, hr⟩ := Machine.of_ite_eq_some hr
    obtain rfl := Except.ok.inj hr
    exact ⟨rfl, rfl⟩
  | elsewhere =>
    have hcalls : Connector.Call.stop ∈ s.connector.conn.calls ++ [.stop] := by simp
    simp only [Machine.run_cons, Machine.run_nil, runs, Machine.ofExcept_step_ok, TcpClient.step, Option.bind_some,
      Connector.Loop.step, Option.map_some, Except.map, Connector.beginCall, hcalls, if_true, Option.some.injEq,
      Except.ok.injEq, TcpClient.newConnection] at hrun
    subst hrun
    exact ⟨rfl, rfl⟩

/-- **`stop` is final until the next `connect`**: after a call of `stop` has returned, on whichever thread and
whatever it leaves outstanding, in every run without a step of `connect` no attempt is made and
`newConnection` is not called. The steps of calls on other threads may be taken one by one. -/
theorem stop_is_final {stop as : List Label} (hstop : StopCall stop)
    (hrun : runs.run (.ok s) stop = some (.ok t)) (has : ∀ a ∈ as, ¬ a.Connects) :
    runs.Always (OnlyCloses t) (.ok t) as := by
  have h0 : Machine.HoldsIfOk (ε := Assertion) Stopped (.ok t) ∧ OnlyCloses t (.ok t) :=
    ⟨hstop.stopped hrun, .refl t⟩
  have hmeets : runs.Meets (fun _ a => ¬ a.Connects) (.ok t) as := by
    intro pre a u v hpre _ _
    exact has a (hpre.subset (List.mem_append_right _ (List.mem_singleton_self _)))
  refine (Machine.Always.of_invariant (I := fun r => Machine.HoldsIfOk Stopped r ∧ OnlyCloses t r) h0 ?_
    hmeets).mono fun _ h => h.2
  intro r a r' h ha hstep
  cases r with
  | error e => cases hstep
  | ok u =>
    obtain ⟨hstopped, hcloses⟩ := Stopped.step h.1 ha hstep
    exact ⟨hstopped, h.2.trans hcloses⟩

/-- `stop` on another thread while an attempt is under way: the attempt succeeds before `stopInLoop` is run,
and its socket is closed. -/
theorem success_after_stop_closed : ∃ s t u,
    runs.run (.ok new) [.connect ⟨3, EINPROGRESS, []⟩] = some (.ok s) ∧
    runs.run (.ok s) [.setConnect false, .connector (.beginCall .stop), .connector (.endCall .stop)] =
      some (.ok t) ∧
    runs.run (.ok t) [.connector (.poll (some POLLOUT)), .connector .dispatch, .connector (.handle 0 false)] =
      some (.ok u) ∧ OnlyCloses t (.ok u) := by
  obtain ⟨s, t, u, hs, ht, hu⟩ : ∃ s t u,
      runs.run (.ok new) [.connect ⟨3, EINPROGRESS, []⟩] = some (.ok s) ∧
      runs.run (.ok s) [.setConnect false, .connector (.beginCall .stop), .connector (.endCall .stop)] =
        some (.ok t) ∧
      runs.run (.ok t) [.connector (.poll (some POLLOUT)), .connector .dispatch,
        .connector (.handle 0 false)] = some (.ok u) := ⟨_, _, _, rfl, rfl, rfl⟩
  refine ⟨s, t, u, hs, ht, hu, (stop_is_final .elsewhere ht ?_).last hu⟩
  simp [Label.Connects, Connector.Label.Starts]

end Siren.TcpClient
