import Siren.Net.TcpClient.Sockets

/-!
# Retry delays

Each failed attempt sets a retry timer with `retryDelayMs_`, which then doubles up to `kMaxRetryDelayMs`; only
`restart` puts it back. `start`, `stop` and a success leave it as it is, so a connector that is started anew
goes on with the delay of the attempts before.

* `Backs`: what a member function may do to the timers and the delay.
* `retry_delays`: in every run of a client the delays of the retry timers set since the connector was made or
  last restarted are 500, 1000, 2000 and so on, up to 30000 ms.
-/

namespace Siren

namespace Connector

/-- The delay of a retry after `k` others since the connector was made or restarted. -/
def retryDelay (k : Nat) : Nat := min (kInitRetryDelayMs * 2 ^ k) kMaxRetryDelayMs

theorem retryDelay_zero : retryDelay 0 = kInitRetryDelayMs := by decide

theorem retryDelay_succ (k : Nat) : min (retryDelay k * 2) kMaxRetryDelayMs = retryDelay (k + 1) := by
  unfold retryDelay
  rw [Nat.pow_succ, ← Nat.mul_assoc]
  omega

theorem kInitRetryDelayMs_le (k : Nat) : kInitRetryDelayMs ≤ retryDelay k := by
  have hpow : 1 ≤ 2 ^ k := Nat.one_le_two_pow
  have hmax : kInitRetryDelayMs ≤ kMaxRetryDelayMs := by decide
  have hmul : kInitRetryDelayMs * 1 ≤ kInitRetryDelayMs * 2 ^ k := Nat.mul_le_mul_left _ hpow
  unfold retryDelay
  omega

/-! ### Member functions -/

/-- `d` is `c` with no more retry timers, or with one of the delay `c` was at, which has doubled. -/
def Backs (c d : Connector) : Prop :=
  d.timers = c.timers ∧ d.retryDelayMs = c.retryDelayMs ∨
    d.timers = c.timers ++ [c.retryDelayMs] ∧ d.retryDelayMs = min (c.retryDelayMs * 2) kMaxRetryDelayMs

variable {b c d : Connector} {result : ConnectResult}

theorem Backs.refl : Backs c c := .inl ⟨rfl, rfl⟩

/-- What leaves the timers and the delay alone may come before. -/
theorem Backs.of_same (h : Backs c d) (htimers : c.timers = b.timers)
    (hdelay : c.retryDelayMs = b.retryDelayMs) : Backs b d := by
  unfold Backs at *
  rwa [htimers, hdelay] at h

theorem retry_backs (sockfd : Int) : Backs c (c.retry sockfd) := by
  unfold retry
  dsimp only
  split
  · exact .inr ⟨rfl, rfl⟩
  · exact .inl ⟨rfl, rfl⟩

theorem connecting_backs {sockfd : Int} (hok : c.connecting sockfd = .ok d) : Backs c d := by
  obtain ⟨-, hok⟩ := of_cassert_bind hok
  obtain rfl := Except.ok.inj hok
  exact .inl ⟨rfl, rfl⟩

theorem startInLoop_backs (hok : c.startInLoop result = .ok d) : Backs c d := by
  obtain ⟨-, hok⟩ := of_cassert_bind hok
  split at hok
  · simp only [connect, foldl_beginCall] at hok
    split at hok
    · exact (connecting_backs hok).of_same rfl rfl
    · obtain rfl := Except.ok.inj hok
      exact (retry_backs _).of_same rfl rfl
    · obtain rfl := Except.ok.inj hok
      exact .inl ⟨rfl, rfl⟩
    · obtain rfl := Except.ok.inj hok
      exact .inl ⟨rfl, rfl⟩
  · obtain rfl := Except.ok.inj hok
    exact .refl

/-- `removeAndResetChannel` leaves the timers and the delay alone. -/
theorem removeAndResetChannel_ok {sockfd : Int} (hok : c.removeAndResetChannel = .ok (d, sockfd)) :
    d.timers = c.timers ∧ d.retryDelayMs = c.retryDelayMs := by
  unfold removeAndResetChannel at hok
  split at hok
  · cases hok
  · split at hok
    · cases hok
    · obtain ⟨rfl, -⟩ := Prod.mk.inj (Except.ok.inj hok)
      exact ⟨rfl, rfl⟩

/-- The end of an attempt: the channel goes, and `retry` gets the socket. -/
theorem removeAndRetry_backs
    (hok : (c.removeAndResetChannel >>= fun (c, sockfd) => pure (c.retry sockfd)) = .ok d) : Backs c d := by
  obtain ⟨⟨e, sockfd⟩, hremoved, hok⟩ := of_bind_ok hok
  obtain ⟨htimers, hdelay⟩ := removeAndResetChannel_ok hremoved
  obtain rfl := Except.ok.inj hok
  exact (retry_backs sockfd).of_same htimers hdelay

theorem stopInLoop_backs (hok : c.stopInLoop = .ok d) : Backs c d := by
  unfold stopInLoop at hok
  split at hok
  · exact (removeAndRetry_backs hok).of_same rfl rfl
  · obtain rfl := Except.ok.inj hok
    exact .refl

theorem handleError_backs (hok : c.handleError = .ok d) : Backs c d := by
  unfold handleError at hok
  split at hok
  · exact removeAndRetry_backs hok
  · obtain rfl := Except.ok.inj hok
    exact .refl

theorem handleWrite_backs {err : Nat} {selfConnect : Bool} (hok : c.handleWrite err selfConnect = .ok d) :
    Backs c d := by
  unfold handleWrite at hok
  split at hok
  · obtain ⟨⟨e, sockfd⟩, hremoved, hok⟩ := of_bind_ok hok
    obtain ⟨htimers, hdelay⟩ := removeAndResetChannel_ok hremoved
    dsimp only at hok
    split at hok
    · obtain rfl := Except.ok.inj hok
      exact (retry_backs sockfd).of_same htimers hdelay
    · split at hok
      · obtain rfl := Except.ok.inj hok
        exact (retry_backs sockfd).of_same htimers hdelay
      · -- a success leaves the delay where it was
        split at hok
        · obtain rfl := Except.ok.inj hok
          exact .inl ⟨htimers, hdelay⟩
        · obtain rfl := Except.ok.inj hok
          exact .inl ⟨htimers, hdelay⟩
  · obtain ⟨-, hok⟩ := of_cassert_bind hok
    obtain rfl := Except.ok.inj hok
    exact .refl

theorem call_backs {call : Call} (hok : c.call result call = .ok d) : Backs c d := by
  cases call with
  | start => exact (startInLoop_backs hok).of_same rfl rfl
  | stop =>
    obtain rfl := Except.ok.inj hok
    exact .inl ⟨rfl, rfl⟩

theorem resetChannel_backs (hok : c.resetChannel = .ok d) : Backs c d := by
  unfold resetChannel at hok
  split at hok
  · obtain rfl := Except.ok.inj hok
    exact .refl
  · obtain ⟨-, hok⟩ := of_cassert_bind hok
    obtain rfl := Except.ok.inj hok
    exact .inl ⟨rfl, rfl⟩

theorem runFunctor_backs {f : Functor} (hok : c.runFunctor result f = .ok d) : Backs c d := by
  cases f with
  | startInLoop => exact startInLoop_backs hok
  | stopInLoop => exact stopInLoop_backs hok
  | resetChannel => exact resetChannel_backs hok

theorem runHandler_backs {err : Nat} {selfConnect : Bool} {handler : Channel.Handler}
    (hok : c.runHandler err selfConnect handler = .ok d) : Backs c d := by
  cases handler with
  | error => exact handleError_backs hok
  | write => exact handleWrite_backs hok
  | close =>
    obtain rfl := Except.ok.inj hok
    exact .refl
  | read =>
    obtain rfl := Except.ok.inj hok
    exact .refl

/-- What a restart does, from the initial delay. -/
theorem restart_backs (hok : c.restart result = .ok d) :
    Backs { c with retryDelayMs := kInitRetryDelayMs } d :=
  (startInLoop_backs hok).of_same rfl rfl

/-! ### Steps of the loop -/

namespace Loop

/-- The retry timers that are left when a step begins: a timer that fires is none any more. -/
def timersLeft (s : Loop) : Label → List Nat
  | .fire timer _ => s.conn.timers.eraseIdx timer
  | _ => s.conn.timers

variable {s t : Loop} {a : Label}

theorem step_backs (hstep : s.step a = some (.ok t)) :
    Backs { s.conn with timers := s.timersLeft a } t.conn := by
  generalize hr : Except.ok t = r at hstep
  cases step_takes hstep with
  | call call result hhandlers =>
    obtain ⟨d, hok, rfl⟩ := Loop.after_eq_ok hr.symm
    exact call_backs hok
  | fire timer result hhandlers htimer =>
    obtain ⟨d, hok, rfl⟩ := Loop.after_eq_ok hr.symm
    exact startInLoop_backs hok
  | handle err selfConnect handler handlers hhandlers =>
    obtain ⟨d, hok, rfl⟩ := Loop.after_eq_ok hr.symm
    exact runHandler_backs hok
  | runFunctor result f functors hphase hfunctors =>
    obtain ⟨d, hok, rfl⟩ := Loop.after_eq_ok hr.symm
    exact (runFunctor_backs hok).of_same rfl rfl
  | _ =>
    obtain rfl := Except.ok.inj hr
    exact .inl ⟨rfl, rfl⟩

end Loop

end Connector

namespace TcpClient

open Connector (Assertion Backs retryDelay kInitRetryDelayMs)

/-! ### The delays of a run -/

def timersLeft (s : TcpClient) : Label → List Nat
  | .connector a => s.connector.timersLeft a
  | _ => s.connector.conn.timers

/-- The step restarts the connector. -/
def Restarts (s : TcpClient) : Label → Prop
  | .removeConnection _ => s.retry_ = true ∧ s.connect_ = true
  | _ => False

instance (s : TcpClient) (a : Label) : Decidable (s.Restarts a) :=
  match a with
  | .removeConnection _ => inferInstanceAs (Decidable (s.retry_ = true ∧ s.connect_ = true))
  | .connector _ | .connect _ | .stop _ | .disconnect | .enableRetry | .setConnect _ =>
    inferInstanceAs (Decidable False)

/-- The delays of the retry timers set since the connector was made or restarted, after a step from `s` to `t`. -/
def delaysAfter (s : TcpClient) (a : Label) (t : TcpClient) (delays : List Nat) : List Nat :=
  (if s.Restarts a then [] else delays) ++ t.connector.conn.timers.drop (s.timersLeft a).length

/-- A client on its loop with the delays of its retry timers. -/
def delayed : Machine (Except Assertion (TcpClient × List Nat)) Label :=
  .ofExcept (Machine.recording step delaysAfter)

variable {s t : TcpClient} {a : Label}

/-- The delay a step begins with. -/
def delayBefore (s : TcpClient) (a : Label) : Nat :=
  if s.Restarts a then kInitRetryDelayMs else s.connector.conn.retryDelayMs

theorem delayBefore_of_not (h : ¬ s.Restarts a) : s.delayBefore a = s.connector.conn.retryDelayMs := if_neg h

theorem step_backs (hstep : s.step a = some (.ok t)) :
    Backs { s.connector.conn with timers := s.timersLeft a, retryDelayMs := s.delayBefore a }
      t.connector.conn := by
  cases step_takes hstep with
  | connector a loop hloop => exact Connector.Loop.step_backs hloop
  | connect result loop hloop => exact Connector.Loop.step_backs hloop
  | stop result loop hloop => exact Connector.Loop.step_backs hloop
  | disconnect => exact .inl ⟨rfl, rfl⟩
  | enableRetry => exact .inl ⟨rfl, rfl⟩
  | setConnect connect => exact .inl ⟨rfl, rfl⟩
  | restart result d hsome hhandlers hretry hok =>
    have hdelay : s.delayBefore (.removeConnection result) = kInitRetryDelayMs := if_pos hretry
    rw [hdelay]
    exact Connector.restart_backs hok
  | removeConnection result hsome hretry =>
    rw [delayBefore_of_not (a := .removeConnection result) hretry]
    exact .inl ⟨rfl, rfl⟩

/-- The delays recorded are those of the first retries, the connector is at the next one, and the pending
timers have some of these delays. -/
structure Inv (s : TcpClient × List Nat) : Prop where
  delays : s.2 = (List.range s.2.length).map retryDelay
  current : s.1.connector.conn.retryDelayMs = retryDelay s.2.length
  pending : ∀ delay ∈ s.1.connector.conn.timers, ∃ k, delay = retryDelay k

theorem init_inv : Inv (new, []) where
  delays := rfl
  current := Connector.retryDelay_zero.symm
  pending _ hmem := by cases hmem

/-- A timer that was pending before the step. -/
theorem mem_timers_of_left {delay : Nat} (hmem : delay ∈ s.timersLeft a) : delay ∈ s.connector.conn.timers := by
  cases a with
  | connector a =>
    cases a with
    | fire timer result => exact List.mem_of_mem_eraseIdx hmem
    | _ => exact hmem
  | _ => exact hmem

/-- The delays that count when a step begins are those of the first retries, and it begins with the next. -/
theorem Inv.begin {delays : List Nat} (h : Inv (s, delays)) (a : Label) :
    ∃ n, (if s.Restarts a then [] else delays) = (List.range n).map retryDelay ∧
      s.delayBefore a = retryDelay n := by
  by_cases hrestart : s.Restarts a
  · refine ⟨0, if_pos hrestart, ?_⟩
    rw [delayBefore, if_pos hrestart]
    exact Connector.retryDelay_zero.symm
  · refine ⟨delays.length, (if_neg hrestart).trans h.delays, ?_⟩
    rw [delayBefore_of_not hrestart]
    exact h.current

theorem inv_of_delays {n : Nat} {delays : List Nat} (hdelays : delays = (List.range n).map retryDelay)
    (hcurrent : s.connector.conn.retryDelayMs = retryDelay n)
    (hpending : ∀ delay ∈ s.connector.conn.timers, ∃ k, delay = retryDelay k) : Inv (s, delays) := by
  have hlength : delays.length = n := by rw [hdelays, List.length_map, List.length_range]
  refine ⟨?_, ?_, hpending⟩
  · rw [hlength]
    exact hdelays
  · rw [hlength]
    exact hcurrent

theorem Inv.step {u v : TcpClient × List Nat} (h : Inv u)
    (hstep : Machine.recording TcpClient.step delaysAfter u a = some (.ok v)) : Inv v := by
  obtain ⟨s, delays⟩ := u
  obtain ⟨t, after⟩ := v
  obtain ⟨hstep, hafter⟩ := Machine.recording_eq_ok.mp hstep
  obtain rfl : after = delaysAfter s a t delays := hafter
  obtain ⟨n, hdelays, hdelay⟩ := h.begin a
  have hleft : ∀ delay ∈ s.timersLeft a, ∃ k, delay = retryDelay k :=
    fun delay hmem => h.pending delay (mem_timers_of_left hmem)
  have hafter : delaysAfter s a t delays =
      (List.range n).map retryDelay ++ t.connector.conn.timers.drop (s.timersLeft a).length := by
    rw [delaysAfter, hdelays]
  rcases step_backs hstep with ⟨htimers, hcurrent⟩ | ⟨htimers, hcurrent⟩
  · -- no timer was set
    refine inv_of_delays (n := n) ?_ (hcurrent.trans hdelay) ?_
    · rw [hafter, htimers, List.drop_length, List.append_nil]
    · rw [htimers]
      exact hleft
  · refine inv_of_delays (n := n + 1) ?_ ?_ ?_
    · rw [hafter, htimers, List.drop_left, List.range_succ, List.map_append, List.map_singleton]
      exact congrArg (fun delay => _ ++ [delay]) hdelay
    · rw [hcurrent, hdelay]
      exact Connector.retryDelay_succ n
    · intro delay hmem
      rw [htimers] at hmem
      rcases List.mem_append.mp hmem with hmem | hmem
      · exact hleft delay hmem
      · exact ⟨n, (List.mem_singleton.mp hmem).trans hdelay⟩

/-- **The retries back off**: in every run of a client, whatever is called, answered or closed, the delays of the
retry timers set since the connector was made or last restarted are `min (500 * 2 ^ k) 30000` for `k = 0, 1, ...`,
in this order; the connector is at the next of them, and each pending timer has one. -/
theorem retry_delays (as : List Label) :
    delayed.Always (Machine.HoldsIfOk fun s =>
      (∀ k, k < s.2.length → s.2[k]? = some (min (500 * 2 ^ k) 30000)) ∧
      s.1.connector.conn.retryDelayMs = min (500 * 2 ^ s.2.length) 30000 ∧
      ∀ delay ∈ s.1.connector.conn.timers, 500 ≤ delay ∧ delay ≤ 30000) (.ok (new, [])) as := by
  have hinv : delayed.Always (Machine.HoldsIfOk Inv) (.ok (new, [])) as :=
    Machine.ofExcept_always_holdsIfOk init_inv fun _ _ _ h hstep => h.step hstep
  refine hinv.mono fun r hr => ?_
  cases r with
  | error e => trivial
  | ok s =>
    refine ⟨fun k hk => ?_, hr.current, fun delay hmem => ?_⟩
    · rw [hr.delays, List.getElem?_map, List.getElem?_range hk]
      rfl
    · obtain ⟨k, rfl⟩ := hr.pending delay hmem
      exact ⟨Connector.kInitRetryDelayMs_le k, Nat.min_le_right _ _⟩

/-- Refused at once, then a retry that fails in `handleWrite`: 500 ms, 1000 ms. -/
example : (delayed.run (.ok (new, []))
    [.connect ⟨3, ECONNREFUSED, []⟩, .connector (.poll none), .connector (.fire 0 ⟨4, EINPROGRESS, []⟩),
      .connector .swap, .connector (.poll (some POLLOUT)), .connector .dispatch,
      .connector (.handle ECONNREFUSED false)]).map
      (fun r => r.toOption.map fun s => (s.2, s.1.connector.conn.timers)) = some (some ([500, 1000], [1000])) := by
  decide

end TcpClient

end Siren
