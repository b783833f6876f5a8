import Siren.Net.EventLoop.Loop

/-!
# `EventLoop::quit`

Once a `quit()` has returned, the `loop()` call that is running or is entered next should start one more
`poll` at most. But `loop()` sets `quit_ = false` on entry, so a `quit()` that stored before is forgotten,
and `EventLoopThread` publishes its loop before `loop()` is entered.

`quit_heard_exact`: no `quit()` is forgotten in runs where `loop()` is entered only when no `quit()` stands
between its store and its return and none has returned since the construction or since `loop()` returned
last; a run that enters `loop()` otherwise can go on past one poll after a returned `quit()`.
-/

namespace Siren.EventLoop.Loop

variable {T F : Type*} [DecidableEq T] {s t : State T F} {a : Label T F}

/-- Since some `quit()` returned, at most one `poll` was started. -/
def QuitHeard (s : State T F) : Prop := ∀ n, s.quitPolls = some n → n ≤ 1

/-- `loop()` is entered with no `quit()` stored that it would have to hear. -/
def EntersUnquit (s : State T F) : Label T F → Prop
  | .enter => s.quitPolls = none ∧ ∀ caller, s.calls caller ≠ some .quitStored
  | _ => True

/-- While `loop()` runs, `quit_` is set from the store of a `quit()` on, and polls are counted only with
`quit_` set. -/
structure Heard (s : State T F) : Prop where
  stored : s.position ≠ .outside → ∀ caller, s.calls caller = some .quitStored → s.quit_ = true
  returned : s.position ≠ .outside → s.quitPolls ≠ none → s.quit_ = true
  polls : ∀ n, s.quitPolls = some n → n ≤ 1
  before : s.position = .outside ∨ s.position = .toPoll → ∀ n, s.quitPolls = some n → n = 0

omit [DecidableEq T] in
theorem heard_init : Heard (State.init T F) := by
  constructor <;> simp [State.init]

/-! ### What each step keeps -/

omit [DecidableEq T] in
/-- A step of the loop thread inside `loop()` that does not touch `quit_`. -/
theorem Heard.move (h : Heard s) {p : Position} {calling : Bool} {eventfd : Nat} {pending functors : List F}
    {ran : Nat} (hs : s.position ≠ .outside) (hp : p ≠ .outside ∧ p ≠ .toPoll) :
    Heard { s with
      position := p, callingPendingFunctors := calling, eventfd := eventfd, pendingFunctors := pending
      functors := functors, ran := ran } :=
  ⟨fun _ => h.stored hs, fun _ => h.returned hs, h.polls, fun hpos => (not_or.mpr hp hpos).elim⟩

omit [DecidableEq T] in
/-- A `quit()` that returns while `loop()` runs has `quit_` set. -/
theorem Heard.quitReturns (h : Heard s) (hquit : s.position ≠ .outside → s.quit_ = true) :
    Heard s.quitReturns := by
  refine ⟨h.stored, fun hpos _ => hquit hpos, fun n hn => ?_, fun hpos n hn => ?_⟩
  · cases hpolls : s.quitPolls with
    | none =>
      simp only [State.quitReturns, hpolls, Option.getD_none, Option.some.injEq] at hn
      omega
    | some m =>
      simp only [State.quitReturns, hpolls, Option.getD_some, Option.some.injEq] at hn
      exact hn ▸ h.polls m hpolls
  · cases hpolls : s.quitPolls with
    | none =>
      simp only [State.quitReturns, hpolls, Option.getD_none, Option.some.injEq] at hn
      exact hn.symm
    | some m =>
      simp only [State.quitReturns, hpolls, Option.getD_some, Option.some.injEq] at hn
      exact hn ▸ h.before hpos m hpolls

theorem Heard.quit (h : Heard s) (caller : Caller T) : Heard (s.quit caller) := by
  have hset : Heard { s with quit_ := true } :=
    ⟨fun _ _ _ => rfl, fun _ _ => rfl, h.polls, h.before⟩
  unfold State.quit
  split
  · exact hset.quitReturns fun _ => rfl
  · exact ⟨fun _ _ _ => rfl, fun _ _ => rfl, h.polls, h.before⟩

theorem Heard.wakeup (h : Heard s) (caller : Caller T) : Heard (s.wakeup caller) := by
  have hleft : Heard { s with
      eventfd := s.eventfd + 1, calls := Function.update s.calls caller none } := by
    refine ⟨fun hpos c hc => ?_, h.returned, h.polls, h.before⟩
    by_cases hne : c = caller
    · simp [hne] at hc
    · exact h.stored hpos c (by simpa [Function.update_of_ne hne] using hc)
  unfold State.wakeup
  dsimp only
  split
  · rename_i hcall
    exact hleft.quitReturns fun hpos => h.stored hpos caller hcall
  · exact hleft

theorem Heard.queueInLoop (h : Heard s) (caller : Caller T) (functor : F) :
    Heard (s.queueInLoop caller functor) := by
  refine ⟨fun hpos c hc => ?_, h.returned, h.polls, h.before⟩
  unfold State.queueInLoop at hc
  dsimp only at hc
  split at hc
  · by_cases hne : c = caller
    · simp [hne] at hc
    · exact h.stored hpos c (by simpa [Function.update_of_ne hne] using hc)
  · exact h.stored hpos c hc

omit [DecidableEq T] in
/-- A test that does not find `quit_` finds no returned `quit()`. -/
theorem Heard.quitPolls_none (h : Heard s) (hpos : s.position ≠ .outside) (hquit : s.quit_ ≠ true) :
    s.quitPolls = none := by
  by_contra hne
  exact hquit (h.returned hpos hne)

theorem Heard.test (h : Heard s) (hpos : s.position = .test) : Heard (effect s .test) := by
  have hin : s.position ≠ .outside := by simp [hpos]
  simp only [effect]
  split
  · exact ⟨fun hne => absurd rfl hne, fun _ hne => absurd rfl hne, by simp, by simp⟩
  · rename_i hquit
    have hnone := h.quitPolls_none hin hquit
    exact ⟨fun _ => h.stored hin, fun _ => h.returned hin, h.polls, fun _ n hn => by simp [hnone] at hn⟩

theorem Heard.startPoll (h : Heard s) (hpos : s.position = .toPoll) : Heard (effect s .startPoll) := by
  have hin : s.position ≠ .outside := by simp [hpos]
  refine ⟨fun _ => h.stored hin, fun _ hne => h.returned hin ?_, fun n hn => ?_, by simp [effect]⟩
  · simpa [effect] using hne
  · obtain ⟨m, hm, rfl⟩ := Option.map_eq_some_iff.mp hn
    have hm0 := h.before (.inr hpos) m hm
    omega

theorem Heard.step (h : Heard s) (hC : EntersUnquit s a)
    (hstep : (machine T F).step s a = some t) : Heard t := by
  obtain ⟨hen, rfl⟩ := step_eq_some.mp hstep
  cases a with
  | enter =>
    obtain ⟨hnone, hstored⟩ := hC
    exact ⟨fun _ c hc => absurd hc (hstored c), fun _ hne => absurd hnone hne, h.polls, by simp [effect]⟩
  | test => exact h.test hen
  | startPoll => exact h.startPoll hen
  | pollReturns wakeup => exact h.move (by simp [hen.1]) (by simp)
  | handleRead => exact h.move (by simp [hen.1]) (by simp)
  | endEvents => exact h.move (by simp [hen.1]) (by simp)
  | swap =>
    have hpos : s.position = .swapping := hen
    exact h.move (by simp [hpos]) (by simp)
  | runFunctor => exact h.move (by simp [hen.1]) (by simp [hen.1])
  | endBatch => exact h.move (by simp [hen.1]) (by simp)
  | endDestroy => exact h.move (by simp [hen.1]) (by simp)
  | push caller functor => exact h.queueInLoop caller functor
  | storeQuit caller => exact h.quit caller
  | wakeup caller => exact h.wakeup caller

/-! ### A forgotten `quit()` -/

/-- With `quit_` unset at the test, the loop thread starts a `poll`, and gets back to the test. -/
theorem Placed.reaches_next_test (h : Placed s) (hpos : s.position = .test) (hquit : s.quit_ = false) :
    ∃ t, (machine T F).Reaches s t ∧ t.position = .test ∧ t.quit_ = false ∧
      t.quitPolls = s.quitPolls.map (· + 1) := by
  have htest : effect s .test = { s with position := .toPoll } := by simp [effect, hquit]
  have hen : Enabled (effect s .test) .startPoll := by rw [htest]; rfl
  have hplaced : Placed (effect (effect s .test) .startPoll) :=
    Placed.step (h.step (a := .test) (step_eq_some.mpr ⟨hpos, rfl⟩)) (step_eq_some.mpr ⟨hen, rfl⟩)
  obtain ⟨as, t, hrun, -, htest', hquit', hpolls⟩ := hplaced.reachesTest (by simp [effect])
  have hstart : (machine T F).Reaches s (effect (effect s .test) .startPoll) :=
    (reaches_effect (a := .test) hpos).trans (reaches_effect hen)
  refine ⟨t, hstart.trans ⟨as, hrun⟩, htest', ?_, ?_⟩
  · rw [hquit', htest]
    exact hquit
  · rw [hpolls, htest]
    rfl

/-- With `quit_` unset at the test after a `quit()` returned, the loop goes round twice. -/
theorem Placed.reaches_forgotten (h : Placed s) (hpos : s.position = .test) (hquit : s.quit_ = false)
    (hpolls : s.quitPolls ≠ none) : ∃ u, (machine T F).Reaches s u ∧ ¬ QuitHeard u := by
  obtain ⟨n, hn⟩ := Option.ne_none_iff_exists'.mp hpolls
  obtain ⟨t, hst, htest, htquit, htpolls⟩ := h.reaches_next_test hpos hquit
  have hplaced : Placed t := hst.invariant (fun _ _ _ h hstep => h.step hstep) h
  obtain ⟨u, htu, -, -, hupolls⟩ := hplaced.reaches_next_test htest htquit
  refine ⟨u, hst.trans htu, fun hheard => ?_⟩
  have hle := hheard (n + 1 + 1) (by simp [hupolls, htpolls, hn])
  omega

/-- After `loop()` was entered over a `quit()` it should have heard, the loop can go round twice. -/
theorem reaches_forgotten_quit (hplaced : Placed s) (hC : ¬ EntersUnquit s a)
    (hstep : (machine T F).step s a = some t) : ∃ u, (machine T F).Reaches t u ∧ ¬ QuitHeard u := by
  have hplaced' : Placed t := hplaced.step hstep
  obtain ⟨hen, rfl⟩ := step_eq_some.mp hstep
  cases a with
  | enter =>
    by_cases hpolls : s.quitPolls = none
    · -- a `quit()` stands after its store: let it return first
      have hstored : ∃ caller, s.calls caller = some .quitStored := by
        by_contra hnone
        exact hC ⟨hpolls, fun caller hcall => hnone ⟨caller, hcall⟩⟩
      obtain ⟨caller, hcall⟩ := hstored
      have hcall' : (effect s .enter).calls caller = some .quitStored := hcall
      have hwake : Enabled (effect s .enter) (.wakeup caller) := by
        show (effect s .enter).calls caller ≠ none
        simp [hcall']
      obtain ⟨u, hreach, hlost⟩ := (hplaced'.wakeup caller).reaches_forgotten
        (wakeup_position _) (wakeup_quit_ _) (by simp [State.wakeup, hcall', State.quitReturns])
      exact ⟨u, (reaches_effect hwake).trans hreach, hlost⟩
    · exact hplaced'.reaches_forgotten rfl rfl hpolls
  | _ => exact absurd trivial hC

/-! ### Every interleaving -/

/-- **A `quit()` is heard**: exactly the entries of `loop()` over a `quit()` that stored before let the
loop start more than one `poll` after it returned. -/
theorem quit_heard_exact : (machine T F).ExactCondition EntersUnquit QuitHeard (State.init T F) := by
  refine .of_invariant (I := Heard) placed_init heard_init (fun _ _ _ h hstep => h.step hstep)
    (fun _ _ _ _ h hC hstep => h.step hC hstep) (fun _ _ h => h.polls)
    fun _ _ _ h hC hstep => reaches_forgotten_quit h hC hstep

/-- A `quit()` between the publication of the loop and the entry of `loop()` is forgotten. -/
theorem early_quit_forgotten :
    ¬ ∀ as, (machine Nat Nat).Always QuitHeard (State.init Nat Nat) as := by
  intro h
  have hlast := (h [.storeQuit (.other 0), .wakeup (.other 0), .enter, .test, .startPoll, .pollReturns true,
    .handleRead, .endEvents, .swap, .endBatch, .endDestroy, .test, .startPoll]).last rfl
  exact absurd (hlast 2 rfl) (by decide)

end Siren.EventLoop.Loop
