import Siren.Net.Connector.Basic

/-!
# `TcpClient` over its `Connector`

The client owns a connector and at most one connection. `newConnection` is the connector's callback;
`removeConnection` is the close callback of the connection, and restarts the connector when `retry_` and
`connect_` are set. The connection is its socket here: when it closes is the environment's choice.

Calls on the loop thread are labels of their own. The calls of other threads come as the steps they are
made of: the write of the client's `connect_` (`setConnect`), and those of `Connector::start` and `stop`.

`step_takes` says what each step does that fails no assertion.
-/

namespace Siren

namespace Connector

/-- `restart()` -/
def restart (c : Connector) (result : ConnectResult) : Except Assertion Connector :=
  startInLoop { c with state := .kDisconnected, retryDelayMs := kInitRetryDelayMs, connect_ := true } result

end Connector

structure TcpClient where
  /-- `connector_` on the loop of the client. -/
  connector : Connector.Loop
  retry_ : Bool
  connect_ : Bool
  /-- The socket of `connection_`. -/
  connection_ : Option Int

namespace TcpClient

open Connector (Assertion ConnectResult)

/-- `TcpClient(loop, serverAddr, nameArg)` -/
def new : TcpClient := ⟨.init, false, true, none⟩

variable (s : TcpClient)

/-- The client after a member function of its connector that calls no `newConnectionCallback_`. -/
def after (r : Except Assertion Connector) : Except Assertion TcpClient :=
  r.map fun conn => { s with connector := { s.connector with conn } }

/-- The socket that the connector passed to `newConnectionCallback_` on its way from `c` to `d`. -/
def passedOn (c d : Connector) : Option Int :=
  (d.log.drop c.log.length).findSome? fun
    | .newConnection sockfd => some sockfd
    | _ => none

/-- `newConnection`, as far as the step of the connector called it. -/
def newConnection (loop : Connector.Loop) : TcpClient :=
  { s with connector := loop, connection_ := (passedOn s.connector.conn loop.conn).or s.connection_ }

/-- `connect()` -/
def connect (result : ConnectResult) : Except Assertion TcpClient :=
  after { s with connect_ := true } (s.connector.conn.call result .start)

/-- `stop()` -/
def stop (result : ConnectResult) : Except Assertion TcpClient :=
  after { s with connect_ := false } (s.connector.conn.call result .stop)

/-- `disconnect()`; what `connection_->shutdown()` leads to is up to the connection. -/
def disconnect : TcpClient := { s with connect_ := false }

/-- `removeConnection` -/
def removeConnection (result : ConnectResult) : Except Assertion TcpClient :=
  let s := { s with connection_ := none }
  if s.retry_ && s.connect_ then s.after (s.connector.conn.restart result) else .ok s

inductive Label where
  /-- A step of the connector, of its loop, or of a call of `start` or `stop`. -/
  | connector (a : Connector.Label)
  | connect (result : ConnectResult)
  | stop (result : ConnectResult)
  | disconnect
  | enableRetry
  /-- A call on another thread sets `connect_`. -/
  | setConnect (connect : Bool)
  /-- The connection closes; `connect(2)` answers `result` if the connector restarts. -/
  | removeConnection (result : ConnectResult)

def step : Label → Option (Except Assertion TcpClient)
  | .connector a => (s.connector.step a).map fun r => r.map s.newConnection
  | .connect result => if s.connector.handlers = [] then some (s.connect result) else none
  | .stop result => if s.connector.handlers = [] then some (s.stop result) else none
  | .disconnect => if s.connector.handlers = [] then some (.ok s.disconnect) else none
  | .enableRetry => some (.ok { s with retry_ := true })
  | .setConnect connect => some (.ok { s with connect_ := connect })
  | .removeConnection result =>
    if s.connection_.isSome ∧ s.connector.handlers = [] then some (s.removeConnection result) else none

/-- A client on its loop, until an assertion fails. -/
def runs : Machine (Except Assertion TcpClient) Label := .ofExcept step

/-! ### Steps, case by case -/

variable {s : TcpClient} {t : TcpClient} {a : Label}

theorem after_eq_ok {r : Except Assertion Connector} (h : s.after r = .ok t) :
    ∃ d, r = .ok d ∧ t = { s with connector := { s.connector with conn := d } } := by
  cases r with
  | error e => cases h
  | ok d => exact ⟨d, rfl, (Except.ok.inj h).symm⟩

/-- A call of the client on its connector is a step of the connector's loop. -/
theorem call_eq_ok {call : Connector.Call} {result : ConnectResult} {connect : Bool}
    (hhandlers : s.connector.handlers = [])
    (hok : after { s with connect_ := connect } (s.connector.conn.call result call) = .ok t) :
    ∃ loop, s.connector.step (.call call result) = some (.ok loop) ∧
      t = { s with connector := loop, connect_ := connect } := by
  obtain ⟨d, hd, rfl⟩ := after_eq_ok hok
  refine ⟨{ s.connector with conn := d }, ?_, rfl⟩
  simp only [Connector.Loop.step, hhandlers, if_true, hd, Connector.Loop.after]
  rfl

/-- What a step that fails no assertion does. -/
inductive Takes (s : TcpClient) : Label → TcpClient → Prop
  | connector (a : Connector.Label) (loop : Connector.Loop) (hloop : s.connector.step a = some (.ok loop)) :
    Takes s (.connector a) (s.newConnection loop)
  | connect (result : ConnectResult) (loop : Connector.Loop)
    (hloop : s.connector.step (.call .start result) = some (.ok loop)) :
    Takes s (.connect result) { s with connector := loop, connect_ := true }
  | stop (result : ConnectResult) (loop : Connector.Loop)
    (hloop : s.connector.step (.call .stop result) = some (.ok loop)) :
    Takes s (.stop result) { s with connector := loop, connect_ := false }
  | disconnect : Takes s .disconnect s.disconnect
  | enableRetry : Takes s .enableRetry { s with retry_ := true }
  | setConnect (connect : Bool) : Takes s (.setConnect connect) { s with connect_ := connect }
  | restart (result : ConnectResult) (d : Connector) (hsome : s.connection_.isSome)
    (hhandlers : s.connector.handlers = []) (hretry : s.retry_ = true ∧ s.connect_ = true)
    (hok : s.connector.conn.restart result = .ok d) : Takes s (.removeConnection result)
      { s with connector := { s.connector with conn := d }, connection_ := none }
  | removeConnection (result : ConnectResult) (hsome : s.connection_.isSome)
    (hretry : ¬ (s.retry_ = true ∧ s.connect_ = true)) :
    Takes s (.removeConnection result) { s with connection_ := none }

theorem step_takes (hstep : s.step a = some (.ok t)) : Takes s a t := by
  cases a with
  | connector a =>
    obtain ⟨r, hr, hmap⟩ := Option.map_eq_some_iff.mp hstep
    cases r with
    | error e => cases hmap
    | ok loop =>
      obtain rfl := Except.ok.inj hmap
      exact .connector a loop hr
  | connect result =>
    obtain ⟨hhandlers, hok⟩ := Option.ite_none_right_eq_some.mp hstep
    obtain ⟨loop, hloop, rfl⟩ := call_eq_ok hhandlers (Option.some.inj hok)
    exact .connect result loop hloop
  | stop result =>
    obtain ⟨hhandlers, hok⟩ := Option.ite_none_right_eq_some.mp hstep
    obtain ⟨loop, hloop, rfl⟩ := call_eq_ok hhandlers (Option.some.inj hok)
    exact .stop result loop hloop
  | disconnect =>
    obtain ⟨-, hok⟩ := Option.ite_none_right_eq_some.mp hstep
    obtain rfl := Except.ok.inj (Option.some.inj hok)
    exact .disconnect
  | enableRetry =>
    obtain rfl := Except.ok.inj (Option.some.inj hstep)
    exact .enableRetry
  | setConnect connect =>
    obtain rfl := Except.ok.inj (Option.some.inj hstep)
    exact .setConnect connect
  | removeConnection result =>
    obtain ⟨⟨hsome, hhandlers⟩, hok⟩ := Option.ite_none_right_eq_some.mp hstep
    simp only [removeConnection, Option.some.injEq, Bool.and_eq_true] at hok
    split at hok
    · rename_i hretry
      obtain ⟨d, hd, rfl⟩ := after_eq_ok hok
      exact .restart result d hsome hhandlers hretry hd
    · rename_i hretry
      obtain rfl := Except.ok.inj hok
      exact .removeConnection result hsome hretry

end TcpClient

end Siren
