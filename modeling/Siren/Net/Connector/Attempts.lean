import Siren.Net.Connector.Basic

/-!
# One attempt at a time

A start begins an attempt whenever a connection is wanted, and asserts that the connector is disconnected
and its old channel reset. Nothing in `start` or `stop` takes back what may still begin or end an attempt:
`stop` leaves a pending retry timer alone, and does not wait for the functors it relies on. So a start that
comes while something is outstanding leads to two attempts, or to a failed assertion.

* `one_attempt_iff`: there is one attempt at a time exactly in the runs whose starts find the connector idle
  (`StartsIdle`). The runs in which `start` is called only with nothing outstanding, and retry timers fire
  only after the old channel was reset (`CallsIdle`), are among these: whatever `stop`, the channel, the
  retry timers and the mailbox do, each attempt hands over to at most one other.
-/

namespace Siren.Connector

/-- The pending retry timers and the attempt in `kConnecting`. -/
def attempts (c : Connector) : Nat := c.timers.length + if c.state = .kConnecting then 1 else 0

/-- At most one retry timer or attempt in `kConnecting`; `startInLoop` finds `kDisconnected` when a
connection is wanted, and `connecting` finds no channel. -/
def OneAttempt : Except Assertion Loop → Prop
  | .ok s => s.conn.attempts ≤ 1
  | .error (.startInLoop connect) => connect = false
  | .error .connecting => False
  | .error _ => True

/-- What `startInLoop` must find when a connection is wanted, for these answers of the system: what it
begins, an attempt or a retry timer, is the only one. -/
def Idle (c : Connector) (result : ConnectResult) : Prop :=
  c.connect_ = true → c.state = .kDisconnected ∧
    (next result.savedErrno = .connecting → c.channel = none ∧ c.timers = []) ∧
    (next result.savedErrno = .retry → result.retries = true → c.timers = [])

/-- `start()` on the loop thread and the queued `startInLoop` find the connector idle; a retry timer that
begins an attempt finds no channel. -/
def StartsIdle (s : Loop) : Label → Prop
  | .call .start result => Idle { s.conn with connect_ := true } result
  | .fire _ result => s.conn.connect_ = true → next result.savedErrno = .connecting → s.conn.channel = none
  | .runFunctor result => s.conn.functors.head? = some .startInLoop → s.conn.Idle result
  | _ => True

/-- The pending retry timers, and the attempt or connection. -/
def busy (c : Connector) : Nat := c.timers.length + if c.state = .kDisconnected then 0 else 1

/-- What may still begin an attempt, and the attempt or connection. -/
def outstanding (c : Connector) : Nat :=
  c.busy + c.mailbox.count .startInLoop + c.calls.count .start

/-- `start` is called with nothing outstanding, on the loop thread also after the old channel was reset; a
retry timer fires after the old channel was reset. -/
def CallsIdle (s : Loop) : Label → Prop
  | .call .start result => s.conn.outstanding = 0 ∧ s.conn.channel = none ∧ .start ∉ result.meanwhile
  | .beginCall .start => s.conn.outstanding = 0
  | .fire _ result => s.conn.channel = none ∧ .start ∉ result.meanwhile
  | .runFunctor result => s.conn.functors.head? = some .startInLoop → .start ∉ result.meanwhile
  | _ => True

/-! ### Steps that start nothing -/

variable {c d : Connector} {s t : Loop} {result : ConnectResult}

theorem busy_eq_zero : c.busy = 0 ↔ c.timers = [] ∧ c.state = .kDisconnected := by
  unfold busy
  by_cases hstate : c.state = .kDisconnected
  · simp [hstate]
  · simp [hstate]

theorem attempts_le_busy (c : Connector) : c.attempts ≤ c.busy := by
  unfold attempts busy
  cases c.state <;> simp

theorem busy_of_connecting (h : c.state = .kConnecting) : c.busy = c.timers.length + 1 := by simp [busy, h]

/-- The end of an attempt hands over to at most one retry timer or connection. -/
theorem Ends.busy_le (h : Ends c d) (hstate : c.state = .kConnecting) : d.busy ≤ c.busy := by
  rw [busy_of_connecting hstate]
  unfold busy
  rcases h.state with ⟨hd, htimers⟩ | ⟨hd, htimers | htimers⟩ <;> simp [hd, htimers]

theorem Ends.mailbox (h : Ends c d) : d.mailbox = c.mailbox ++ [.resetChannel] := by
  rw [Connector.mailbox, h.functors, h.pendingFunctors, ← List.append_assoc]
  rfl

theorem stopInLoop_cases (h : c.Sound) (hok : c.stopInLoop = .ok d) :
    d = c ∨ c.state = .kConnecting ∧ Ends c d := by
  by_cases hstate : c.state = .kConnecting
  · obtain ⟨e, heq, hends⟩ := stopInLoop_ends hstate (h.connecting hstate)
    obtain rfl := Except.ok.inj (heq.symm.trans hok)
    exact Or.inr ⟨hstate, hends⟩
  · rw [stopInLoop, if_neg hstate] at hok
    exact Or.inl (Except.ok.inj hok).symm

theorem runHandler_cases (h : c.Sound) {err : Nat} {selfConnect : Bool} {handler : Channel.Handler}
    (hok : c.runHandler err selfConnect handler = .ok d) : d = c ∨ c.state = .kConnecting ∧ Ends c d := by
  cases handler with
  | close => exact Or.inl (Except.ok.inj hok).symm
  | read => exact Or.inl (Except.ok.inj hok).symm
  | error =>
    rw [runHandler] at hok
    by_cases hstate : c.state = .kConnecting
    · obtain ⟨e, heq, hends, -⟩ := handleError_ends hstate (h.connecting hstate)
      obtain rfl := Except.ok.inj (heq.symm.trans hok)
      exact Or.inr ⟨hstate, hends⟩
    · rw [handleError, if_neg hstate] at hok
      exact Or.inl (Except.ok.inj hok).symm
  | write =>
    rw [runHandler] at hok
    by_cases hstate : c.state = .kConnecting
    · obtain ⟨e, heq, hends⟩ := handleWrite_ends hstate (h.connecting hstate) err selfConnect
      obtain rfl := Except.ok.inj (heq.symm.trans hok)
      exact Or.inr ⟨hstate, hends⟩
    · rw [handleWrite, if_neg hstate] at hok
      by_cases hdisconnected : c.state = .kDisconnected
      · rw [cassert_of hdisconnected] at hok
        exact Or.inl (Except.ok.inj hok).symm
      · rw [cassert_of_not hdisconnected] at hok
        cases hok

theorem resetChannel_ok (hok : c.resetChannel = .ok d) : d = { c with channel := none } := by
  cases hchannel : c.channel with
  | none =>
    simp only [resetChannel, hchannel] at hok
    rw [← Except.ok.inj hok, ← hchannel]
  | some channel =>
    by_cases hgone : channel.hasChannel () = false
    · simp only [resetChannel, hchannel, cassert_of hgone, ok_bind] at hok
      exact (Except.ok.inj hok).symm
    · simp only [resetChannel, hchannel, cassert_of_not hgone, error_bind] at hok
      cases hok

/-! ### Starts -/

/-- A start that finds the connector idle. -/
theorem Idle.startInLoop (h : c.Idle result) (hbusy : c.busy ≤ 1) :
    c.startInLoop result = .error (.startInLoop false) ∨
      ∃ d, c.startInLoop result = .ok d ∧ d.busy ≤ 1 := by
  rcases startInLoop_cases c result with ⟨hstate, heq⟩ | ⟨-, -, heq⟩ | ⟨hstate, hwanted, heq⟩
  · have hunwanted : c.connect_ = false := by
      by_contra hwanted
      exact hstate (h (by simpa using hwanted)).1
    exact Or.inl (by rw [heq, hunwanted])
  · exact Or.inr ⟨c, heq, hbusy⟩
  · obtain ⟨-, hconnecting, hretry⟩ := h hwanted
    rcases connect_cases hwanted result with ⟨hnext, hsome, -⟩ | ⟨d, hok, -, hcases⟩
    · simp [(hconnecting hnext).1] at hsome
    refine Or.inr ⟨d, heq.trans hok, ?_⟩
    rcases hcases with ⟨hnext, -, hds, -, htimers⟩ | ⟨hnext, hds, -, htimers⟩ | ⟨-, -, hds, -, htimers⟩
    · simp [busy, hds, htimers, (hconnecting hnext).2]
    · by_cases hretries : result.retries = true
      · simp [busy, hds, htimers, hretries, hretry hnext hretries]
      · simpa [busy, hstate, hds, htimers, hretries] using hbusy
    · simpa [busy, hstate, hds, htimers] using hbusy

/-- A start that does not. -/
theorem startInLoop_of_not_idle (h : ¬ c.Idle result) :
    c.startInLoop result = .error (.startInLoop true) ∨ c.startInLoop result = .error .connecting ∨
      ∃ d, c.startInLoop result = .ok d ∧ 1 < d.attempts := by
  unfold Idle at h
  push Not at h
  obtain ⟨hwanted, h⟩ := h
  rcases startInLoop_cases c result with ⟨-, heq⟩ | ⟨-, hunwanted, -⟩ | ⟨hstate, -, heq⟩
  · exact Or.inl (by rw [heq, hwanted])
  · simp [hwanted] at hunwanted
  refine Or.inr ?_
  rw [heq]
  rcases connect_cases hwanted result with ⟨-, -, hok⟩ | ⟨d, hok, -, hcases⟩
  · exact Or.inl hok
  refine Or.inr ⟨d, hok, ?_⟩
  rcases hcases with ⟨hnext, hnone, hds, -, htimers⟩ | ⟨hnext, hds, -, htimers⟩ | ⟨hnext, hnext', -⟩
  · have htimer : c.timers ≠ [] := fun hnil => by simp [hstate, hnext, hnone, hnil] at h
    have hlen := List.length_pos_iff.mpr htimer
    simp only [attempts, hds, htimers, if_true]
    omega
  · obtain ⟨hretries, htimer⟩ : result.retries = true ∧ c.timers ≠ [] := by
      simpa [hstate, hnext] using h
    have hlen := List.length_pos_iff.mpr htimer
    simp only [attempts, htimers, hretries, if_true, List.length_append, List.length_singleton]
    omega
  · simp [hstate, hnext, hnext'] at h

/-! ### Runs whose starts find the connector idle -/

/-- The connector is sound, and a retry timer, an attempt and a connection exclude each other. -/
structure Exclusive (s : Loop) : Prop where
  sound : s.Sound
  busy : s.conn.busy ≤ 1

theorem Exclusive.timer_fires (h : Exclusive s) {timer : Nat} (htimer : timer < s.conn.timers.length) :
    s.conn.state = .kDisconnected ∧ s.conn.timers.eraseIdx timer = [] := by
  have hbusy := h.busy
  unfold Connector.busy at hbusy
  have hstate : s.conn.state = .kDisconnected := by
    by_contra hne
    rw [if_neg hne] at hbusy
    omega
  rw [if_pos hstate] at hbusy
  refine ⟨hstate, List.length_eq_zero_iff.mp ?_⟩
  rw [List.length_eraseIdx_of_lt htimer]
  omega

/-- A retry timer finds the connector idle, unless the old channel was not reset. -/
theorem Exclusive.idle_of_fire (h : Exclusive s) {timer : Nat} (htimer : timer < s.conn.timers.length) :
    Idle { s.conn with timers := s.conn.timers.eraseIdx timer } result ↔
      (s.conn.connect_ = true → next result.savedErrno = .connecting → s.conn.channel = none) := by
  obtain ⟨hstate, hnil⟩ := h.timer_fires htimer
  simp only [Idle, hstate, hnil]
  tauto

/-- The results that a run may reach. -/
def Reached : Except Assertion Loop → Prop
  | .ok s => Exclusive s
  | r@(.error _) => OneAttempt r

theorem Reached.oneAttempt {r : Except Assertion Loop} (h : Reached r) : OneAttempt r := by
  cases r with
  | error e => exact h
  | ok s => exact (attempts_le_busy s.conn).trans h.busy

/-- A start in a run whose starts find the connector idle, from the connector `c`. -/
theorem Reached.startInLoop (hc : c.busy ≤ 1) (hidle : c.Idle result)
    (hsound : Loop.SoundResult (s.after (c.startInLoop result))) : Reached (s.after (c.startInLoop result)) := by
  rcases hidle.startInLoop hc with heq | ⟨d, heq, hd⟩
  · rw [heq]
    rfl
  · rw [heq] at hsound ⊢
    exact ⟨hsound, hd⟩

theorem Exclusive.step {a : Label} {r : Except Assertion Loop} (h : Exclusive s) (ha : StartsIdle s a)
    (hstep : s.step a = some r) : Reached r := by
  have hsound := h.sound.step hstep
  cases Loop.step_takes hstep with
  | call call result hhandlers =>
    cases call with
    | start => exact Reached.startInLoop (c := { s.conn with connect_ := true }) h.busy ha hsound
    | stop => exact ⟨hsound, h.busy⟩
  | beginCall call => exact ⟨hsound, h.busy⟩
  | endCall call hcall => exact ⟨hsound, h.busy⟩
  | poll hphase => exact ⟨hsound, h.busy⟩
  | report revents channel polled hphase hchannel hindex => exact ⟨hsound, h.busy⟩
  | fire timer result hhandlers htimer =>
    obtain ⟨hstate, hnil⟩ := h.timer_fires htimer
    have hbusy : Connector.busy { s.conn with timers := s.conn.timers.eraseIdx timer } = 0 :=
      busy_eq_zero.mpr ⟨hnil, hstate⟩
    exact Reached.startInLoop (by omega) ((h.idle_of_fire htimer).mpr ha) hsound
  | dispatch channel hactive => exact ⟨hsound, h.busy⟩
  | handle err selfConnect handler handlers hhandlers =>
    obtain ⟨d, heq, hd⟩ := h.sound.handle hhandlers err selfConnect
    rw [heq]
    refine ⟨hd, ?_⟩
    rcases runHandler_cases h.sound.conn heq with rfl | ⟨hstate, hends⟩
    · exact h.busy
    · exact (hends.busy_le hstate).trans h.busy
  | swap hactive hhandlers hfunctors => exact ⟨hsound, h.busy⟩
  | runFunctor result f functors hphase hfunctors =>
    cases f with
    | startInLoop =>
      have hidle : s.conn.Idle result := ha (by rw [hfunctors]; rfl)
      exact Reached.startInLoop (c := { s.conn with functors }) h.busy hidle hsound
    | stopInLoop =>
      have hc := h.sound.conn.pop hfunctors (by decide)
      obtain ⟨d, heq, -⟩ := hc.stopInLoop
      rw [runFunctor, heq] at hsound ⊢
      refine ⟨hsound, ?_⟩
      rcases stopInLoop_cases hc heq with rfl | ⟨hstate, hends⟩
      · exact h.busy
      · exact (hends.busy_le hstate).trans h.busy
    | resetChannel =>
      obtain ⟨d, heq, -⟩ := h.sound.conn.resetChannel hfunctors
      rw [runFunctor, heq] at hsound ⊢
      obtain rfl := resetChannel_ok heq
      exact ⟨hsound, h.busy⟩

/-- A start that does not find the connector idle leads to a second attempt or to a failed assertion. -/
theorem not_oneAttempt_of_start (h : ¬ c.Idle result) : ¬ OneAttempt (s.after (c.startInLoop result)) := by
  rcases startInLoop_of_not_idle h with heq | heq | ⟨d, heq, hd⟩
  · rw [heq]
    exact Bool.true_eq_false_eq_False
  · rw [heq]
    exact id
  · rw [heq]
    exact Nat.not_le.mpr hd

theorem Exclusive.break {a : Label} {r : Except Assertion Loop} (h : Exclusive s) (ha : ¬ StartsIdle s a)
    (hstep : s.step a = some r) : ¬ OneAttempt r := by
  cases Loop.step_takes hstep with
  | call call result hhandlers =>
    cases call with
    | start => exact not_oneAttempt_of_start (c := { s.conn with connect_ := true }) ha
    | stop => exact absurd trivial ha
  | beginCall call => exact absurd trivial ha
  | endCall call hcall => exact absurd trivial ha
  | poll hphase => exact absurd trivial ha
  | report revents channel polled hphase hchannel hindex => exact absurd trivial ha
  | fire timer result hhandlers htimer =>
    exact not_oneAttempt_of_start fun hidle => ha ((h.idle_of_fire htimer).mp hidle)
  | dispatch channel hactive => exact absurd trivial ha
  | handle err selfConnect handler handlers hhandlers => exact absurd trivial ha
  | swap hactive hhandlers hfunctors => exact absurd trivial ha
  | runFunctor result f functors hphase hfunctors =>
    have hstart : f = .startInLoop := by
      by_contra hne
      exact ha fun hhead => absurd (by simpa [hfunctors] using hhead) hne
    subst hstart
    exact not_oneAttempt_of_start (c := { s.conn with functors }) fun hidle => ha fun _ => hidle

/-! ### Runs in which `start` is called with nothing outstanding -/

/-- No `resetChannel` comes after a `startInLoop` in the mailbox. -/
def ResetsFirst (c : Connector) : Prop :=
  c.mailbox.Pairwise fun f g => f = .startInLoop → g ≠ .resetChannel

/-- What may begin an attempt, the attempt and the connection exclude each other. -/
structure Sole (c : Connector) : Prop where
  outstanding : c.outstanding ≤ 1
  resetsFirst : c.ResetsFirst

theorem outstanding_eq_zero : c.outstanding = 0 ↔
    (c.timers = [] ∧ c.state = .kDisconnected) ∧ .startInLoop ∉ c.mailbox ∧ .start ∉ c.calls := by
  rw [outstanding, Nat.add_eq_zero_iff, Nat.add_eq_zero_iff, busy_eq_zero, List.count_eq_zero,
    List.count_eq_zero, and_assoc]

/-- A retry timer that fires is outstanding no more. -/
theorem outstanding_fire {timer : Nat} (htimer : timer < c.timers.length) :
    outstanding { c with timers := c.timers.eraseIdx timer } + 1 = c.outstanding := by
  have hbusy : busy { c with timers := c.timers.eraseIdx timer } + 1 = c.busy := by
    simp only [busy, List.length_eraseIdx_of_lt htimer]
    omega
  simp only [outstanding, ← hbusy]
  show _ + c.mailbox.count .startInLoop + c.calls.count .start + 1 = _
  omega

theorem queueInLoop_mailbox (c : Connector) (f : Functor) : (c.queueInLoop f).mailbox = c.mailbox ++ [f] := by
  simp [mailbox, queueInLoop]

theorem ResetsFirst.of_not_mem (h : .startInLoop ∉ c.mailbox) : c.ResetsFirst :=
  List.pairwise_iff_forall_sublist.mpr fun hsub heq =>
    absurd (heq ▸ hsub.subset List.mem_cons_self) h

/-- What is queued behind a start may be anything but a `resetChannel`. -/
theorem ResetsFirst.concat (h : c.ResetsFirst) {f : Functor} (hf : f ≠ .resetChannel)
    (hd : d.mailbox = c.mailbox ++ [f]) : d.ResetsFirst := by
  rw [ResetsFirst, hd, List.pairwise_append]
  refine ⟨h, List.pairwise_singleton _ _, fun g _ f' hf' _ => ?_⟩
  rw [List.mem_singleton.mp hf']
  exact hf

namespace Sole

/-- `stop()` on the loop thread. -/
theorem stop (h : c.Sole) : (({ c with connect_ := false } : Connector).queueInLoop .stopInLoop).Sole := by
  have hmailbox := queueInLoop_mailbox { c with connect_ := false } .stopInLoop
  refine ⟨?_, h.resetsFirst.concat (by decide) hmailbox⟩
  rw [Connector.outstanding, hmailbox, List.count_append]
  exact h.outstanding

theorem beginCall (h : c.Sole) {call : Call} (hstart : call = .start → c.outstanding = 0) :
    (c.beginCall call).Sole := by
  refine ⟨?_, h.resetsFirst⟩
  have hout := h.outstanding
  show c.busy + c.mailbox.count .startInLoop + (c.calls ++ [call]).count .start ≤ 1
  rw [List.count_append]
  cases call with
  | start =>
    have hzero := hstart rfl
    unfold Connector.outstanding at hzero
    rw [List.count_singleton_self]
    omega
  | stop => exact hout

/-- A start about to be queued becomes a queued one. -/
theorem endCall (h : c.Sole) {call : Call} (hcall : call ∈ c.calls) : (c.endCall call).Sole := by
  have hmailbox : (c.endCall call).mailbox = c.mailbox ++ [call.functor] := queueInLoop_mailbox _ _
  refine ⟨?_, h.resetsFirst.concat (by cases call <;> decide) hmailbox⟩
  have hout := h.outstanding
  unfold Connector.outstanding at hout
  show c.busy + (c.endCall call).mailbox.count .startInLoop + (c.calls.erase call).count .start ≤ 1
  rw [hmailbox, List.count_append]
  cases call with
  | start =>
    have hpos := List.count_pos_iff.mpr hcall
    rw [List.count_erase_self, show [Call.start.functor].count Functor.startInLoop = 1 from rfl]
    omega
  | stop =>
    rw [List.count_erase_of_ne (by decide)]
    exact hout

theorem swapFunctors (h : c.Sole) (hfunctors : c.functors = []) : c.swapFunctors.Sole := by
  have hmailbox : c.swapFunctors.mailbox = c.mailbox := by
    simp [mailbox, Connector.swapFunctors, hfunctors]
  refine ⟨?_, ?_⟩
  · show c.busy + c.swapFunctors.mailbox.count .startInLoop + c.calls.count .start ≤ 1
    rw [hmailbox]
    exact h.outstanding
  · rw [ResetsFirst, hmailbox]
    exact h.resetsFirst

/-- A functor leaves the batch. -/
theorem pop (h : c.Sole) {f : Functor} {functors : List Functor} (hc : c.functors = f :: functors) :
    ({ c with functors } : Connector).Sole := by
  have hout := h.outstanding
  have hfirst := h.resetsFirst
  have hmailbox : c.mailbox = f :: (functors ++ c.pendingFunctors) := by
    rw [mailbox, hc]
    rfl
  rw [Connector.outstanding, hmailbox] at hout
  rw [ResetsFirst, hmailbox, List.pairwise_cons] at hfirst
  refine ⟨?_, hfirst.2⟩
  show c.busy + (functors ++ c.pendingFunctors).count .startInLoop + c.calls.count .start ≤ 1
  have hle := List.count_le_count_cons (a := Functor.startInLoop) (b := f)
    (l := functors ++ c.pendingFunctors)
  omega

/-- The end of an attempt: nothing but the attempt was outstanding. -/
theorem ends (h : c.Sole) (hstate : c.state = .kConnecting) (hends : Ends c d) : d.Sole := by
  have hout := h.outstanding
  have hbusy := hends.busy_le hstate
  have hcount : d.mailbox.count .startInLoop = c.mailbox.count .startInLoop := by
    rw [hends.mailbox, List.count_append]
    rfl
  have hnone : c.mailbox.count .startInLoop = 0 := by
    have hpos := busy_of_connecting hstate
    unfold Connector.outstanding at hout
    omega
  refine ⟨?_, ResetsFirst.of_not_mem (List.count_eq_zero.mp (hcount.trans hnone))⟩
  unfold Connector.outstanding at hout ⊢
  rw [hcount, hends.calls]
  omega

/-- A start from a connector with nothing outstanding. -/
theorem startInLoop (hzero : c.outstanding = 0) (hmeanwhile : .start ∉ result.meanwhile)
    (hok : c.startInLoop result = .ok d) : d.Sole := by
  obtain ⟨⟨htimers, hstate⟩, hmailbox, hcalls⟩ := outstanding_eq_zero.mp hzero
  rcases startInLoop_cases c result with ⟨-, heq⟩ | ⟨-, -, heq⟩ | ⟨-, hwanted, heq⟩
  · cases heq.symm.trans hok
  · obtain rfl := Except.ok.inj (heq.symm.trans hok)
    exact ⟨by omega, ResetsFirst.of_not_mem hmailbox⟩
  · rcases connect_cases hwanted result with ⟨-, -, hfail⟩ | ⟨e, hok', hconnects, hcases⟩
    · cases (heq.trans hfail).symm.trans hok
    obtain rfl := Except.ok.inj ((heq.trans hok').symm.trans hok)
    have hsame : e.mailbox = c.mailbox := by
      rw [mailbox, mailbox, hconnects.functors, hconnects.pendingFunctors]
    have hbusy : e.busy ≤ 1 := by
      rcases hcases with ⟨-, -, hds, -, hdt⟩ | ⟨-, hds, -, hdt⟩ | ⟨-, -, hds, -, hdt⟩
      · simp [busy, hds, hdt, htimers]
      · by_cases hretries : result.retries = true <;> simp [busy, hds, hdt, htimers, hretries]
      · simp [busy, hds, hdt, htimers, hstate]
    refine ⟨?_, ResetsFirst.of_not_mem (by rwa [hsame])⟩
    rw [Connector.outstanding, hsame, List.count_eq_zero_of_not_mem hmailbox, hconnects.calls,
      List.count_append, List.count_eq_zero_of_not_mem hcalls, List.count_eq_zero_of_not_mem hmeanwhile]
    exact hbusy

/-- A queued start whose turn has come is the only thing outstanding, and the old channel was reset. -/
theorem idle_of_functor (h : c.Sole) (hsound : c.Sound) {functors : List Functor}
    (hc : c.functors = .startInLoop :: functors) :
    Connector.outstanding { c with functors } = 0 ∧ c.channel = none := by
  have hout := h.outstanding
  have hfirst := h.resetsFirst
  have hmailbox : c.mailbox = .startInLoop :: (functors ++ c.pendingFunctors) := by
    rw [mailbox, hc]
    rfl
  rw [Connector.outstanding, hmailbox, List.count_cons_self] at hout
  have hzero : Connector.outstanding { c with functors } = 0 := by
    show c.busy + (functors ++ c.pendingFunctors).count .startInLoop + c.calls.count .start = 0
    omega
  refine ⟨hzero, ?_⟩
  by_contra hne
  -- a channel that was not reset has its `resetChannel` in the mailbox, in front of the start
  have hstate : c.state = .kDisconnected := (outstanding_eq_zero.mp hzero).1.2
  have hresets := hsound.resets
  rw [if_pos ⟨by simp [hstate], Option.isSome_iff_ne_none.mpr hne⟩] at hresets
  have hmem : .resetChannel ∈ c.mailbox := List.count_pos_iff.mp (by omega)
  rw [ResetsFirst, hmailbox, List.pairwise_cons] at hfirst
  rw [hmailbox, List.mem_cons] at hmem
  rcases hmem with heq | hmem
  · cases heq
  · exact hfirst.1 _ hmem rfl rfl

end Sole

/-- A connector with nothing outstanding and no channel is idle. -/
theorem idle_of_outstanding (hzero : c.outstanding = 0) (hnone : c.channel = none) : c.Idle result := by
  obtain ⟨⟨htimers, hstate⟩, -⟩ := outstanding_eq_zero.mp hzero
  exact fun _ => ⟨hstate, fun _ => ⟨hnone, htimers⟩, fun _ _ => htimers⟩

theorem CallsIdle.startsIdle {a : Label} (ha : CallsIdle s a) (hsound : s.Sound) (h : s.conn.Sole) :
    StartsIdle s a := by
  cases a with
  | call call result =>
    cases call with
    | start => exact idle_of_outstanding (c := { s.conn with connect_ := true }) ha.1 ha.2.1
    | stop => trivial
  | fire timer result => exact fun _ _ => ha.1
  | runFunctor result =>
    intro hhead
    obtain ⟨functors, hfunctors⟩ := List.head?_eq_some_iff.mp hhead
    obtain ⟨hzero, hnone⟩ := h.idle_of_functor hsound.conn hfunctors
    exact idle_of_outstanding (c := { s.conn with functors }) hzero hnone
  | beginCall call => trivial
  | endCall call => trivial
  | poll revents => trivial
  | dispatch => trivial
  | handle err selfConnect => trivial
  | swap => trivial

theorem Sole.after_start (hzero : c.outstanding = 0) (hmeanwhile : .start ∉ result.meanwhile)
    (ht : .ok t = s.after (c.startInLoop result)) : t.conn.Sole := by
  cases hok : c.startInLoop result with
  | error a =>
    rw [hok] at ht
    cases ht
  | ok d =>
    rw [hok] at ht
    obtain rfl := Except.ok.inj ht
    exact Sole.startInLoop hzero hmeanwhile hok

theorem Sole.step {a : Label} (h : s.conn.Sole) (hsound : s.Sound) (ha : CallsIdle s a)
    (hstep : s.step a = some (.ok t)) : t.conn.Sole := by
  generalize hr : Except.ok t = r at hstep
  cases Loop.step_takes hstep with
  | call call result hhandlers =>
    cases call with
    | start => exact Sole.after_start (c := { s.conn with connect_ := true }) ha.1 ha.2.2 hr
    | stop =>
      obtain rfl := Except.ok.inj hr
      exact h.stop
  | beginCall call =>
    obtain rfl := Except.ok.inj hr
    refine h.beginCall fun hstart => ?_
    subst hstart
    exact ha
  | endCall call hcall =>
    obtain rfl := Except.ok.inj hr
    exact h.endCall hcall
  | poll hphase =>
    obtain rfl := Except.ok.inj hr
    exact h
  | report revents channel polled hphase hchannel hindex =>
    obtain rfl := Except.ok.inj hr
    exact ⟨h.outstanding, h.resetsFirst⟩
  | fire timer result hhandlers htimer =>
    have hzero := Nat.le_of_succ_le_succ ((outstanding_fire htimer).le.trans h.outstanding)
    exact Sole.after_start (Nat.le_zero.mp hzero) ha.2 hr
  | dispatch channel hactive =>
    obtain rfl := Except.ok.inj hr
    exact h
  | handle err selfConnect handler handlers hhandlers =>
    obtain ⟨d, heq, -⟩ := hsound.handle hhandlers err selfConnect
    rw [heq] at hr
    obtain rfl := Except.ok.inj hr
    rcases runHandler_cases hsound.conn heq with rfl | ⟨hstate, hends⟩
    · exact h
    · exact h.ends hstate hends
  | swap hactive hhandlers hfunctors =>
    obtain rfl := Except.ok.inj hr
    exact h.swapFunctors hfunctors
  | runFunctor result f functors hphase hfunctors =>
    have hpop := h.pop hfunctors
    cases f with
    | startInLoop =>
      obtain ⟨hzero, -⟩ := h.idle_of_functor hsound.conn hfunctors
      exact Sole.after_start hzero (ha (by rw [hfunctors]; rfl)) hr
    | stopInLoop =>
      have hc := hsound.conn.pop hfunctors (by decide)
      obtain ⟨d, heq, -⟩ := hc.stopInLoop
      rw [runFunctor, heq] at hr
      obtain rfl := Except.ok.inj hr
      rcases stopInLoop_cases hc heq with rfl | ⟨hstate, hends⟩
      · exact hpop
      · exact hpop.ends hstate hends
    | resetChannel =>
      obtain ⟨d, heq, -⟩ := hsound.conn.resetChannel hfunctors
      rw [runFunctor, heq] at hr
      obtain rfl := Except.ok.inj hr
      obtain rfl := resetChannel_ok heq
      exact ⟨hpop.outstanding, hpop.resetsFirst⟩

/-! ### Every run -/

/-- **One attempt at a time.** There is at most one retry timer or attempt in `kConnecting`, and every start
with a connection wanted finds the connector disconnected and without a channel, exactly in the runs whose
starts find the connector idle; among these are the runs in which `start` is called with nothing
outstanding. -/
theorem one_attempt_iff (as : List Label) :
    (loop.Always OneAttempt (.ok .init) as ↔ loop.Meets (Machine.AtOk StartsIdle) (.ok .init) as) ∧
      (loop.Meets (Machine.AtOk CallsIdle) (.ok .init) as → loop.Always OneAttempt (.ok .init) as) := by
  have hiff : loop.Always OneAttempt (.ok .init) as ↔ loop.Meets (Machine.AtOk StartsIdle) (.ok .init) as := by
    refine Machine.always_iff_meets (I := Reached) (fun _ => Reached.oneAttempt) ?_ ?_
      (⟨Loop.init_sound, Nat.zero_le 1⟩ : Exclusive .init)
    · intro u a r hu ha hstep
      cases u with
      | error e => cases hstep
      | ok s => exact Exclusive.step hu ha hstep
    · intro u a r hu ha hstep
      cases u with
      | error e => cases hstep
      | ok s => exact Exclusive.break hu ha hstep
  refine ⟨hiff, fun hcalls => hiff.mpr ?_⟩
  exact Machine.ofExcept_meets_imp (I := fun s => s.Sound ∧ s.conn.Sole)
    ⟨Loop.init_sound, Nat.zero_le 1, .nil⟩
    (fun _ _ _ h ha hstep => ⟨h.1.step hstep, h.2.step h.1 ha hstep⟩)
    (fun _ _ h ha => ha.startsIdle h.1 h.2) hcalls

/-- A refused attempt, a `stop` that has run, a new start: the retry timer of the first attempt is still
there, and when it fires `startInLoop` fails its assertion. -/
theorem start_after_stop_fails : ¬ loop.Always OneAttempt (.ok .init)
    [.call .start ⟨3, ECONNREFUSED, []⟩, .call .stop ⟨0, 0, []⟩, .poll none, .swap, .runFunctor ⟨0, 0, []⟩,
      .call .start ⟨4, EINPROGRESS, []⟩, .poll none, .fire 0 ⟨5, 0, []⟩] := by
  intro h
  have hlast := h.last (t := .error (.startInLoop true)) rfl
  exact Bool.noConfusion hlast

end Siren.Connector
