import Siren.Net.EventLoop.Loop

/-!
# Wakeups of `EventLoop::queueInLoop`

A functor that is pending when the loop thread enters `poll` should find the eventfd readable, or a thread
about to make it so. `queueInLoop` leaves the `wakeup()` out when the loop thread calls it with
`callingPendingFunctors_` unset: fine in an event callback, where the swap is still to come. But
`doPendingFunctors` unsets the flag before its batch is destroyed, and the destructor of an object held
by a functor of the batch may call `queueInLoop` too.

`noLostWakeup_exact`: no poll sleeps over pending work in runs where every functor queued by the loop
thread outside an event callback and a running functor finds the eventfd positive or another thread on its
way to `wakeup()`; a run with any other such call can go on into a `poll` that sleeps.
-/

namespace Siren.EventLoop.Loop

variable {T F : Type*} [DecidableEq T] {s t : State T F} {a : Label T F}

/-- Something is to end the `poll` that the loop thread is in or comes to. -/
def WakeupComing (s : State T F) : Prop :=
  0 < s.eventfd ∨ ∃ thread, s.calls (.other thread) = some .pushed

/-- In `poll`, functors are pending only if something is to end it. -/
def NoLostWakeup (s : State T F) : Prop :=
  s.position = .polling → s.pendingFunctors ≠ [] → WakeupComing s

/-- A call of `queueInLoop` on the loop thread is one of an event callback or a running functor, or finds
a wakeup that is coming anyway. -/
def QueuesUnderWakeup (s : State T F) : Label T F → Prop
  | .push .loop _ =>
    (∃ wakeup, s.position = .events wakeup) ∨ s.callingPendingFunctors = true ∨ WakeupComing s
  | _ => True

/-- A swap of the pending functors is to come before the next `poll`. -/
def SwapAhead (s : State T F) : Prop := (∃ wakeup, s.position = .events wakeup) ∨ s.position = .swapping

/-- Before a `poll` with no swap ahead, a pending functor has its wakeup written or coming. -/
def Awake (s : State T F) : Prop :=
  SwapAhead s ∨ s.pendingFunctors = [] ∨ 0 < s.eventfd ∨ ∃ caller, s.calls caller = some .pushed

omit [DecidableEq T] in
theorem Awake.noLostWakeup (hplaced : Placed s) (h : Awake s) : NoLostWakeup s := by
  intro hpos hpending
  rcases h with (⟨wakeup, hev⟩ | hswap) | hnil | hfd | ⟨caller, hpushed⟩
  · simp [hpos] at hev
  · simp [hpos] at hswap
  · exact absurd hnil hpending
  · exact .inl hfd
  · cases caller with
    | loop =>
      have hrun := hplaced.loopCalls (by simp [hpushed])
      simp [hpos] at hrun
    | other thread => exact .inr ⟨thread, hpushed⟩

/-! ### What each step keeps -/

omit [DecidableEq T] in
/-- A step of the loop thread that has no swap ahead and touches neither the mailbox nor the eventfd. -/
theorem Awake.move (h : Awake s) {p : Position} {quit calling : Bool} {functors : List F} {ran : Nat}
    {polls : Option Nat} (hs : ¬ SwapAhead s) :
    Awake { s with
      position := p, quit_ := quit, callingPendingFunctors := calling, functors := functors, ran := ran
      quitPolls := polls } :=
  .inr (h.resolve_left hs)

theorem awake_queueInLoop {caller : Caller T} {functor : F}
    (hC : QueuesUnderWakeup s (.push caller functor)) : Awake (s.queueInLoop caller functor) := by
  cases caller with
  | other thread => exact .inr (.inr (.inr ⟨.other thread, by simp [State.queueInLoop]⟩))
  | loop =>
    rcases hC with hev | hcalling | hfd | ⟨thread, hpushed⟩
    · exact .inl (.inl hev)
    · exact .inr (.inr (.inr ⟨.loop, by simp [State.queueInLoop, hcalling]⟩))
    · exact .inr (.inr (.inl hfd))
    · refine .inr (.inr (.inr ⟨.other thread, ?_⟩))
      simp only [State.queueInLoop]
      split <;> simp [hpushed]

theorem Awake.quit (h : Awake s) {caller : Caller T} (hcaller : s.calls caller = none) :
    Awake (s.quit caller) := by
  unfold State.quit
  split
  · exact h
  · refine h.imp_right (Or.imp_right (Or.imp_right ?_))
    rintro ⟨c, hpushed⟩
    refine ⟨c, ?_⟩
    have hne : c ≠ caller := by
      rintro rfl
      rw [hcaller] at hpushed
      cases hpushed
    simpa [Function.update_of_ne hne] using hpushed

theorem awake_wakeup (s : State T F) (caller : Caller T) : Awake (s.wakeup caller) := by
  refine .inr (.inr (.inl ?_))
  unfold State.wakeup
  split <;> exact Nat.succ_pos _

theorem Awake.step (h : Awake s) (hC : QueuesUnderWakeup s a)
    (hstep : (machine T F).step s a = some t) : Awake t := by
  obtain ⟨hen, rfl⟩ := step_eq_some.mp hstep
  cases a with
  | push caller functor => exact awake_queueInLoop hC
  | storeQuit caller => exact h.quit hen.1
  | wakeup caller => exact awake_wakeup s caller
  | pollReturns wakeup => exact .inl (.inl ⟨wakeup, rfl⟩)
  | handleRead => exact .inl (.inl ⟨false, rfl⟩)
  | endEvents => exact .inl (.inr rfl)
  | swap => exact .inr (.inl rfl)
  | enter => exact h.move (by simp [SwapAhead, hen.1])
  | test =>
    have hpos : s.position = .test := hen
    simp only [effect]
    split <;> exact h.move (by simp [SwapAhead, hpos])
  | startPoll =>
    have hpos : s.position = .toPoll := hen
    exact h.move (by simp [SwapAhead, hpos])
  | runFunctor => exact h.move (by simp [SwapAhead, hen.1])
  | endBatch => exact h.move (by simp [SwapAhead, hen.1])
  | endDestroy => exact h.move (by simp [SwapAhead, hen.1])

/-! ### A call that misses the condition -/

/-- Functors are pending and nothing is to end the next `poll`. -/
def Asleep (s : State T F) : Prop := s.pendingFunctors ≠ [] ∧ ¬ WakeupComing s

theorem Asleep.reaches_poll_of_toPoll (h : Asleep s) (hpos : s.position = .toPoll) :
    ∃ u, (machine T F).Reaches s u ∧ ¬ NoLostWakeup u :=
  ⟨effect s .startPoll, reaches_effect hpos, fun hlost => h.2 (hlost rfl h.1)⟩

/-- The loop thread enters `poll` from its test, if need be with another call of `loop()`. -/
theorem Asleep.reaches_poll_of_test (hplaced : Placed s) (h : Asleep s) (hpos : s.position = .test) :
    ∃ u, (machine T F).Reaches s u ∧ ¬ NoLostWakeup u := by
  have hpass : ∀ s : State T F, s.position = .test → s.quit_ = false → Asleep s →
      ∃ u, (machine T F).Reaches s u ∧ ¬ NoLostWakeup u := by
    intro s hpos hquit h
    have htest : effect s .test = { s with position := .toPoll } := by simp [effect, hquit]
    obtain ⟨u, hreach, hlost⟩ := Asleep.reaches_poll_of_toPoll (s := effect s .test)
      (by rw [htest]; exact h) (by rw [htest])
    exact ⟨u, (reaches_effect (a := .test) hpos).trans hreach, hlost⟩
  by_cases hquit : s.quit_ = true
  · have htest : effect s .test = { s with position := .outside, quitPolls := none } := by
      simp [effect, hquit]
    have henter : Enabled (effect s .test) .enter := by
      rw [htest]
      exact ⟨rfl, hplaced.loopCalls_none (by simp [hpos])⟩
    obtain ⟨u, hreach, hlost⟩ := hpass (effect (effect s .test) .enter) rfl rfl (by rw [htest]; exact h)
    exact ⟨u, ((reaches_effect (a := .test) hpos).trans (reaches_effect henter)).trans hreach, hlost⟩
  · exact hpass s hpos (by simpa using hquit) h

/-- The loop thread enters `poll` from where its own calls write no wakeup. -/
theorem Asleep.reaches_poll (hplaced : Placed s) (h : Asleep s)
    (hpos : s.position = .outside ∨ s.position = .destroying) :
    ∃ u, (machine T F).Reaches s u ∧ ¬ NoLostWakeup u := by
  have hmove : ∃ b, Enabled s b ∧ (effect s b).position = .test ∧ Asleep (effect s b) := by
    rcases hpos with hpos | hpos
    · exact ⟨.enter, ⟨hpos, hplaced.loopCalls_none (by simp [hpos])⟩, rfl, h⟩
    · exact ⟨.endDestroy, ⟨hpos, hplaced.loopCalls_none (by simp [hpos])⟩, rfl, h⟩
  obtain ⟨b, hen, htest, hasleep⟩ := hmove
  obtain ⟨u, hreach, hlost⟩ :=
    hasleep.reaches_poll_of_test (hplaced.step (step_eq_some.mpr ⟨hen, rfl⟩)) htest
  exact ⟨u, (reaches_effect hen).trans hreach, hlost⟩

omit [DecidableEq T] in
/-- The loop thread calls from outside event callbacks and running functors in two places only. -/
theorem Placed.inUserCode_cases (h : Placed s) (huser : s.inUserCode) :
    (∃ wakeup, s.position = .events wakeup) ∨ s.callingPendingFunctors = true ∨
      s.position = .outside ∨ s.position = .destroying := by
  cases hpos : s.position with
  | outside => exact .inr (.inr (.inl rfl))
  | events wakeup => exact .inl ⟨wakeup, rfl⟩
  | running => exact .inr (.inl (h.calling.mpr (.inr hpos)))
  | destroying => exact .inr (.inr (.inr rfl))
  | _ => simp [State.inUserCode, hpos] at huser

/-- After a call on the loop thread that finds no wakeup coming and writes none, the loop thread can go
on into a `poll` that sleeps over the functor. -/
theorem reaches_lost_wakeup (hplaced : Placed s) (hC : ¬ QueuesUnderWakeup s a)
    (hstep : (machine T F).step s a = some t) : ∃ u, (machine T F).Reaches t u ∧ ¬ NoLostWakeup u := by
  have hplaced' : Placed t := hplaced.step hstep
  obtain ⟨hen, rfl⟩ := step_eq_some.mp hstep
  cases a with
  | push caller functor =>
    cases caller with
    | other thread => exact absurd trivial hC
    | loop =>
      simp only [QueuesUnderWakeup, not_or] at hC
      obtain ⟨hev, hcalling, hcoming⟩ := hC
      have hqueue : s.queueInLoop .loop functor =
          { s with pendingFunctors := s.pendingFunctors ++ [functor] } := by
        simp [State.queueInLoop, hcalling]
      apply Asleep.reaches_poll hplaced'
      · exact ⟨by simp [effect, hqueue], by simpa [effect, hqueue, WakeupComing] using hcoming⟩
      · have huser := hplaced.inUserCode_cases (hen.2 rfl)
        simpa only [effect, hqueue] using (huser.resolve_left hev).resolve_left hcalling
  | _ => exact absurd trivial hC

/-! ### Every interleaving -/

/-- **No lost wakeup**: exactly the calls of `queueInLoop` on the loop thread outside event callbacks and
running functors, with no wakeup coming, let a `poll` sleep over pending functors. -/
theorem noLostWakeup_exact :
    (machine T F).ExactCondition QueuesUnderWakeup NoLostWakeup (State.init T F) := by
  refine .of_invariant (I := Awake) placed_init (.inr (.inl rfl)) (fun _ _ _ h hstep => h.step hstep)
    (fun _ _ _ _ h hC hstep => h.step hC hstep) (fun _ hplaced h => h.noLostWakeup hplaced)
    fun _ _ _ h hC hstep => reaches_lost_wakeup h hC hstep

/-- The destructor of an object held by the batch queues a functor: the next `poll` finds it pending and
no wakeup written. -/
theorem batch_destructor_loses_wakeup :
    ¬ ∀ as, (machine Nat Nat).Always NoLostWakeup (State.init Nat Nat) as := by
  intro h
  have hlast := (h [.enter, .test, .startPoll, .push (.other 0) 10, .wakeup (.other 0), .pollReturns true,
    .handleRead, .endEvents, .swap, .runFunctor, .endBatch, .push .loop 11, .endDestroy, .test,
    .startPoll]).last rfl
  rcases hlast rfl (by decide) with hfd | ⟨thread, hpushed⟩
  · exact absurd hfd (by decide)
  · simp [effect, State.queueInLoop, State.wakeup, State.init] at hpushed

end Siren.EventLoop.Loop
