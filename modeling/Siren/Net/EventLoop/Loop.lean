import Mathlib.Data.List.Basic
import Siren.Net.EventLoop

/-!
# `EventLoop::loop()` and its callers

One machine of the loop thread going through its iterations (`Position`) and of any number of other
threads calling `queueInLoop` and `quit`. A `push_back` and a swap are atomic here. What is not atomic is
kept apart: the test of `while (!quit_)` from the entry of `poll`, the `push_back` of `queueInLoop` and
the store of `quit` from the `wakeup()` that follows them, the switch of `callingPendingFunctors_` from
the swap before it and from the destruction of the batch after it.

The labels carry what the environment decides: who calls what when, whether `poll` reports the wakeup
channel. `quitPolls` is history: how many polls were started since some `quit()` returned.
-/

namespace Siren.EventLoop.Loop

/-! ### States -/

/-- Where the loop thread is. -/
inductive Position where
  /-- Before `loop()` is entered, or after it returned. -/
  | outside
  /-- At `while (!quit_)`. -/
  | test
  /-- The test found `quit_` unset, `poll` is not entered yet. -/
  | toPoll
  | polling
  /-- Handling `activeChannels_`, with `handleRead` of the wakeup channel still to come or not. -/
  | events (wakeup : Bool)
  /-- In `doPendingFunctors`, before the swap. -/
  | swapping
  /-- In `doPendingFunctors`, in the loop over the batch. -/
  | running
  /-- At the end of `doPendingFunctors`: the batch is being destroyed. -/
  | destroying
  deriving DecidableEq

/-- What a caller has done and not followed by its `wakeup()` yet. -/
inductive Call where
  /-- The `push_back` of `queueInLoop`. -/
  | pushed
  /-- The store of `quit`. -/
  | quitStored
  deriving DecidableEq

structure State (T F : Type*) where
  position : Position
  quit_ : Bool
  callingPendingFunctors : Bool
  /-- The counter behind `wakeupFd_`. -/
  eventfd : Nat
  pendingFunctors : List F
  /-- The batch swapped out, alive until `doPendingFunctors` returns. -/
  functors : List F
  /-- How many functors of the batch were run or are being run. -/
  ran : Nat
  calls : Caller T → Option Call
  /-- Polls started since a `quit()` returned, `none` when none returned since the construction or since
  `loop()` returned last. -/
  quitPolls : Option Nat

/-- A constructed `EventLoop`. -/
def State.init (T F : Type*) : State T F :=
  ⟨.outside, false, false, 0, [], [], 0, fun _ => none, none⟩

/-! ### Steps -/

inductive Label (T F : Type*) where
  /-- `loop()` is called: `quit_ = false`. -/
  | enter
  /-- `while (!quit_)`. -/
  | test
  /-- `poller_->poll` is entered. -/
  | startPoll
  /-- It returns, with the wakeup channel among `activeChannels_` or not. -/
  | pollReturns (wakeup : Bool)
  /-- `EventLoop::handleRead`. -/
  | handleRead
  /-- All active channels are handled: `callingPendingFunctors_ = true`. -/
  | endEvents
  | swap
  | runFunctor
  /-- The loop over the batch ends: `callingPendingFunctors_ = false`. -/
  | endBatch
  /-- The destructor of the batch returns. -/
  | endDestroy
  /-- `queueInLoop` up to and with its `push_back`. -/
  | push (caller : Caller T) (functor : F)
  /-- The store of `quit`. -/
  | storeQuit (caller : Caller T)
  /-- `wakeup()` at the end of `queueInLoop` or `quit`. -/
  | wakeup (caller : Caller T)

variable {T F : Type*} [DecidableEq T]

/-- The loop thread is in code that may call the loop's public functions: before or after `loop()`, in an
event callback, in the body of a functor, in the destructor of an object captured in the batch. -/
def State.inUserCode (s : State T F) : Bool :=
  match s.position with
  | .outside | .events _ => true
  | .running => 0 < s.ran
  | .destroying => s.functors ≠ []
  | _ => false

def State.queueInLoop (s : State T F) (caller : Caller T) (functor : F) : State T F :=
  { s with
    pendingFunctors := s.pendingFunctors ++ [functor]
    calls :=
      if caller ≠ .loop ∨ s.callingPendingFunctors then Function.update s.calls caller (some .pushed)
      else s.calls }

/-- A `quit()` returns. -/
def State.quitReturns (s : State T F) : State T F :=
  { s with quitPolls := some (s.quitPolls.getD 0) }

def State.quit (s : State T F) (caller : Caller T) : State T F :=
  if caller = .loop then State.quitReturns { s with quit_ := true }
  else { s with quit_ := true, calls := Function.update s.calls caller (some .quitStored) }

/-- `wakeup()` adds one to the counter, and the call it ends returns. -/
def State.wakeup (s : State T F) (caller : Caller T) : State T F :=
  let t := { s with eventfd := s.eventfd + 1, calls := Function.update s.calls caller none }
  if s.calls caller = some .quitStored then t.quitReturns else t

/-- Which labels can happen. The loop thread goes on only when it is in no call of its own. -/
def Enabled (s : State T F) : Label T F → Prop
  | .enter => s.position = .outside ∧ s.calls .loop = none
  | .test => s.position = .test
  | .startPoll => s.position = .toPoll
  | .pollReturns wakeup => s.position = .polling ∧ (wakeup → 0 < s.eventfd)
  | .handleRead => s.position = .events true ∧ s.calls .loop = none
  | .endEvents => s.position = .events false ∧ s.calls .loop = none
  | .swap => s.position = .swapping
  | .runFunctor => s.position = .running ∧ s.ran < s.functors.length ∧ s.calls .loop = none
  | .endBatch => s.position = .running ∧ s.ran = s.functors.length ∧ s.calls .loop = none
  | .endDestroy => s.position = .destroying ∧ s.calls .loop = none
  | .push caller _ => s.calls caller = none ∧ (caller = .loop → s.inUserCode)
  | .storeQuit caller => s.calls caller = none ∧ (caller = .loop → s.inUserCode)
  | .wakeup caller => s.calls caller ≠ none

instance (s : State T F) : (a : Label T F) → Decidable (Enabled s a)
  | .enter | .test | .startPoll | .pollReturns _ | .handleRead | .endEvents | .swap | .runFunctor
  | .endBatch | .endDestroy | .push .. | .storeQuit _ | .wakeup _ => by
    unfold Enabled
    infer_instance

/-- What each label does. -/
def effect (s : State T F) : Label T F → State T F
  | .enter => { s with position := .test, quit_ := false }
  | .test =>
    if s.quit_ then { s with position := .outside, quitPolls := none } else { s with position := .toPoll }
  | .startPoll => { s with position := .polling, quitPolls := s.quitPolls.map (· + 1) }
  | .pollReturns wakeup => { s with position := .events wakeup }
  | .handleRead => { s with position := .events false, eventfd := 0 }
  | .endEvents => { s with position := .swapping, callingPendingFunctors := true }
  | .swap =>
    { s with position := .running, functors := s.pendingFunctors, pendingFunctors := [], ran := 0 }
  | .runFunctor => { s with ran := s.ran + 1 }
  | .endBatch => { s with position := .destroying, callingPendingFunctors := false }
  | .endDestroy => { s with position := .test, functors := [] }
  | .push caller functor => s.queueInLoop caller functor
  | .storeQuit caller => s.quit caller
  | .wakeup caller => s.wakeup caller

/-- The loop with its callers. -/
def machine (T F : Type*) [DecidableEq T] : Machine (State T F) (Label T F) :=
  .guarded Enabled effect

theorem step_eq_some {s t : State T F} {a : Label T F} :
    (machine T F).step s a = some t ↔ Enabled s a ∧ effect s a = t :=
  Machine.guarded_step_eq_some
variable {s t : State T F} {a : Label T F}

theorem reaches_effect (hen : Enabled s a) : (machine T F).Reaches s (effect s a) :=
  .of_enabled hen

/-! ### Where the loop thread is -/

/-- `callingPendingFunctors_` is set from before the swap to the end of the loop over the batch, and only
there the loop thread owes a `wakeup()`. -/
structure Placed (s : State T F) : Prop where
  calling : s.callingPendingFunctors = true ↔ s.position = .swapping ∨ s.position = .running
  loopCalls : s.calls .loop ≠ none → s.position = .running
  loopQuit : s.calls .loop ≠ some .quitStored
  ran : s.position = .running → s.ran ≤ s.functors.length

omit [DecidableEq T] in
theorem placed_init : Placed (State.init T F) := by
  constructor <;> simp [State.init]

omit [DecidableEq T] in
theorem Placed.loopCalls_none (h : Placed s) (hpos : s.position ≠ .running) : s.calls .loop = none := by
  by_contra hne
  exact hpos (h.loopCalls hne)

theorem Placed.queueInLoop (h : Placed s) (caller : Caller T) (functor : F)
    (hloop : caller = .loop → s.inUserCode) : Placed (s.queueInLoop caller functor) := by
  by_cases hc : caller = .loop
  · subst hc
    by_cases hcalling : s.callingPendingFunctors = true
    · refine ⟨h.calling, fun _ => ?_, by simp [State.queueInLoop, hcalling], h.ran⟩
      rcases h.calling.mp hcalling with hpos | hpos
      · simp [State.inUserCode, hpos] at hloop
      · exact hpos
    · have hcalls : (s.queueInLoop .loop functor).calls = s.calls := by
        simp [State.queueInLoop, hcalling]
      exact ⟨h.calling, hcalls ▸ h.loopCalls, hcalls ▸ h.loopQuit, h.ran⟩
  · have hcalls : (s.queueInLoop caller functor).calls .loop = s.calls .loop := by
      simp [State.queueInLoop, hc, Function.update_of_ne (Ne.symm hc)]
    exact ⟨h.calling, hcalls ▸ h.loopCalls, hcalls ▸ h.loopQuit, h.ran⟩

theorem Placed.quit (h : Placed s) (caller : Caller T) : Placed (s.quit caller) := by
  by_cases hc : caller = .loop
  · simp only [State.quit, hc, if_true]
    exact ⟨h.calling, h.loopCalls, h.loopQuit, h.ran⟩
  · have hcalls : (s.quit caller).calls .loop = s.calls .loop := by
      simp [State.quit, hc, Function.update_of_ne (Ne.symm hc)]
    have hquit : Placed { s with quit_ := true, calls := (s.quit caller).calls } :=
      ⟨h.calling, hcalls ▸ h.loopCalls, hcalls ▸ h.loopQuit, h.ran⟩
    simpa [State.quit, hc] using hquit

@[simp] theorem wakeup_position (caller : Caller T) : (s.wakeup caller).position = s.position := by
  unfold State.wakeup
  split <;> rfl

@[simp] theorem wakeup_calls (caller : Caller T) :
    (s.wakeup caller).calls = Function.update s.calls caller none := by
  unfold State.wakeup
  split <;> rfl

@[simp] theorem wakeup_quit_ (caller : Caller T) : (s.wakeup caller).quit_ = s.quit_ := by
  unfold State.wakeup
  split <;> rfl

theorem Placed.wakeup (h : Placed s) (caller : Caller T) : Placed (s.wakeup caller) := by
  have hcalls : (s.wakeup caller).calls .loop = none ∨ (s.wakeup caller).calls .loop = s.calls .loop := by
    rw [wakeup_calls]
    by_cases hc : caller = .loop
    · exact .inl (by simp [hc])
    · exact .inr (by simp [Function.update_of_ne (Ne.symm hc)])
  refine ⟨?_, fun hne => ?_, fun hq => ?_, ?_⟩
  · unfold State.wakeup
    split <;> exact h.calling
  · rw [wakeup_position]
    rcases hcalls with hnone | hsame
    · exact absurd hnone hne
    · exact h.loopCalls (hsame ▸ hne)
  · rcases hcalls with hnone | hsame
    · rw [hnone] at hq
      cases hq
    · exact h.loopQuit (hsame ▸ hq)
  · unfold State.wakeup
    split <;> exact h.ran

omit [DecidableEq T] in
/-- A step of the loop thread outside `doPendingFunctors` leaves it outside. -/
theorem Placed.move (h : Placed s) {p : Position} {quit : Bool} {eventfd : Nat} {polls : Option Nat}
    (hs : s.position ≠ .swapping ∧ s.position ≠ .running) (hp : p ≠ .swapping ∧ p ≠ .running) :
    Placed { s with position := p, quit_ := quit, eventfd := eventfd, quitPolls := polls } := by
  have hcalling : s.callingPendingFunctors ≠ true := by
    rw [Ne, h.calling, not_or]
    exact hs
  refine ⟨⟨fun hc => absurd hc hcalling, fun hc => ?_⟩, fun hne => ?_, h.loopQuit,
    fun hpos => absurd hpos hp.2⟩
  · exact hc.elim (fun hc => absurd hc hp.1) (fun hc => absurd hc hp.2)
  · exact absurd (h.loopCalls hne) hs.2

theorem Placed.step (h : Placed s) (hstep : (machine T F).step s a = some t) : Placed t := by
  obtain ⟨hen, rfl⟩ := step_eq_some.mp hstep
  cases a with
  | push caller functor => exact h.queueInLoop caller functor hen.2
  | storeQuit caller => exact h.quit caller
  | wakeup caller => exact h.wakeup caller
  | enter => exact h.move (by simp [hen.1]) (by simp)
  | test =>
    have hpos : s.position = .test := hen
    simp only [effect]
    split <;> exact h.move (by simp [hpos]) (by simp)
  | startPoll =>
    have hpos : s.position = .toPoll := hen
    exact h.move (by simp [hpos]) (by simp)
  | pollReturns wakeup => exact h.move (by simp [hen.1]) (by simp)
  | handleRead => exact h.move (by simp [hen.1]) (by simp)
  | endEvents => exact ⟨by simp [effect], fun hne => absurd hen.2 hne, h.loopQuit, by simp [effect]⟩
  | swap =>
    have hpos : s.position = .swapping := hen
    exact ⟨by simp [effect, h.calling, hpos], fun _ => rfl, h.loopQuit, by simp [effect]⟩
  | runFunctor => exact ⟨h.calling, h.loopCalls, h.loopQuit, fun _ => hen.2.1⟩
  | endBatch => exact ⟨by simp [effect], fun hne => absurd hen.2.2 hne, h.loopQuit, by simp [effect]⟩
  | endDestroy =>
    refine ⟨?_, fun hne => absurd hen.2 hne, h.loopQuit, by simp [effect]⟩
    simp [effect, h.calling, hen.1]

@[simp] theorem quit_quit_ (caller : Caller T) : (s.quit caller).quit_ = true := by
  unfold State.quit
  split <;> rfl

@[simp] theorem quit_position (caller : Caller T) : (s.quit caller).position = s.position := by
  unfold State.quit
  split <;> rfl

/-- Only the entry of `loop()` and the test lead into `loop()` and out of it. -/
theorem effect_position_eq_outside (hen : Enabled s a) (henter : a ≠ .enter) (htest : a ≠ .test) :
    (effect s a).position = .outside ↔ s.position = .outside := by
  cases a with
  | enter => exact absurd rfl henter
  | test => exact absurd rfl htest
  | startPoll | swap => simp [effect, show s.position = _ from hen]
  | runFunctor => exact Iff.rfl
  | push caller functor => exact Iff.rfl
  | storeQuit caller => simp [effect]
  | wakeup caller => simp [effect]
  | _ => simp [effect, hen.1]

/-- Only the entry of `loop()` and `quit()` write `quit_`. -/
theorem effect_quit_ (henter : a ≠ .enter) (hquit : ∀ caller, a ≠ .storeQuit caller) :
    (effect s a).quit_ = s.quit_ := by
  cases a with
  | enter => exact absurd rfl henter
  | storeQuit caller => exact absurd rfl (hquit caller)
  | test =>
    simp only [effect]
    split <;> rfl
  | wakeup caller => exact wakeup_quit_ caller
  | _ => rfl

/-! ### The loop comes back to its test -/

/-- The steps of the loop thread between the entry of `poll` and the next test. -/
def Label.Iterates : Label T F → Prop
  | .pollReturns _ | .handleRead | .endEvents | .swap | .runFunctor | .endBatch | .endDestroy => True
  | .wakeup caller => caller = .loop
  | _ => False

/-- An iteration that no caller interferes with leads from `s` to the next test. -/
def ReachesTest (s : State T F) : Prop :=
  ∃ as t, (machine T F).run s as = some t ∧ (∀ a ∈ as, a.Iterates) ∧
    t.position = .test ∧ t.quit_ = s.quit_ ∧ t.quitPolls = s.quitPolls

/-- A loop that gets to its test after an enabled step gets there before it. -/
theorem ReachesTest.of_enabled (hen : Enabled s a) (ha : a.Iterates) (hquit : (effect s a).quit_ = s.quit_)
    (hpolls : (effect s a).quitPolls = s.quitPolls) (h : ReachesTest (effect s a)) : ReachesTest s := by
  obtain ⟨as, t, hrun, has, htest, hquit', hpolls'⟩ := h
  refine ⟨a :: as, t, ?_, ?_, htest, hquit'.trans hquit, hpolls'.trans hpolls⟩
  · rw [Machine.run_cons, step_eq_some.mpr ⟨hen, rfl⟩]
    exact hrun
  · exact List.forall_mem_cons.mpr ⟨ha, has⟩

theorem reachesTest_of_test (hpos : s.position = .test) : ReachesTest s :=
  ⟨[], s, rfl, by simp, hpos, rfl, rfl⟩

theorem reachesTest_of_destroying (hpos : s.position = .destroying) (hcalls : s.calls .loop = none) :
    ReachesTest s := by
  apply ReachesTest.of_enabled (a := .endDestroy) ⟨hpos, hcalls⟩ trivial rfl rfl
  exact reachesTest_of_test rfl

/-- By induction on the functors of the batch that are still to run. -/
theorem reachesTest_of_running (n : Nat) (h : Placed s) (hpos : s.position = .running)
    (hcalls : s.calls .loop = none) (hn : s.functors.length - s.ran = n) : ReachesTest s := by
  induction n generalizing s with
  | zero =>
    have hran : s.ran = s.functors.length := by
      have hle := h.ran hpos
      omega
    apply ReachesTest.of_enabled (a := .endBatch) ⟨hpos, hran, hcalls⟩ trivial rfl rfl
    exact reachesTest_of_destroying rfl hcalls
  | succ n ih =>
    have hen : Enabled s .runFunctor := ⟨hpos, by omega, hcalls⟩
    apply ReachesTest.of_enabled hen trivial rfl rfl
    exact ih (h.step (step_eq_some.mpr ⟨hen, rfl⟩)) hpos hcalls (by simp only [effect]; omega)

theorem reachesTest_of_swapping (h : Placed s) (hpos : s.position = .swapping) : ReachesTest s := by
  have hen : Enabled s .swap := hpos
  apply ReachesTest.of_enabled hen trivial rfl rfl
  refine reachesTest_of_running _ (h.step (step_eq_some.mpr ⟨hen, rfl⟩)) rfl ?_ rfl
  exact h.loopCalls_none (by simp [hpos])

theorem reachesTest_of_events (h : Placed s) (hpos : s.position = .events false) : ReachesTest s := by
  have hen : Enabled s .endEvents := ⟨hpos, h.loopCalls_none (by simp [hpos])⟩
  apply ReachesTest.of_enabled hen trivial rfl rfl
  exact reachesTest_of_swapping (h.step (step_eq_some.mpr ⟨hen, rfl⟩)) rfl

/-- A loop thread that entered `poll` gets back to its test. -/
theorem Placed.reachesTest (h : Placed s) (hpos : s.position ≠ .outside ∧ s.position ≠ .toPoll) :
    ReachesTest s := by
  cases hp : s.position with
  | outside => exact absurd hp hpos.1
  | toPoll => exact absurd hp hpos.2
  | test => exact reachesTest_of_test hp
  | polling =>
    have hen : Enabled s (.pollReturns false) := ⟨hp, by simp⟩
    apply ReachesTest.of_enabled hen trivial rfl rfl
    exact reachesTest_of_events (h.step (step_eq_some.mpr ⟨hen, rfl⟩)) rfl
  | events wakeup =>
    cases wakeup with
    | false => exact reachesTest_of_events h hp
    | true =>
      have hen : Enabled s .handleRead := ⟨hp, h.loopCalls_none (by simp [hp])⟩
      apply ReachesTest.of_enabled hen trivial rfl rfl
      exact reachesTest_of_events (h.step (step_eq_some.mpr ⟨hen, rfl⟩)) rfl
  | swapping => exact reachesTest_of_swapping h hp
  | running =>
    by_cases hcalls : s.calls .loop = none
    · exact reachesTest_of_running _ h hp hcalls rfl
    · -- the wakeup the loop thread owes comes first
      have hpolls : (s.wakeup .loop).quitPolls = s.quitPolls := by
        simp [State.wakeup, h.loopQuit]
      apply ReachesTest.of_enabled (a := .wakeup .loop) hcalls rfl (wakeup_quit_ _) hpolls
      exact reachesTest_of_running _ (h.wakeup .loop) ((wakeup_position _).trans hp) (by simp [effect]) rfl
  | destroying => exact reachesTest_of_destroying hp (h.loopCalls_none (by simp [hp]))

end Siren.EventLoop.Loop
