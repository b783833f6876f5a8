import Siren.Net.EventLoop.Quit

/-!
# `EventLoopThread`

The owner calls `startLoop` and later the destructor; `threadFunc` constructs an `EventLoop`, publishes it
in `loop_`, runs `loop()`, takes the pointer back and destroys the loop. The destructor reads `loop_`
without the mutex, once to test it and once to call `quit()` through it, and joins only if the test found a
loop. The `EventLoop` itself is the machine of `Siren.Net.EventLoop.Loop`, whose other threads are the
owner (`none`) and any number of others (`some thread`).

`destroyed_safely_exact`: the destructor is safe in runs where nobody else stores a `quit()` between the
entry of `loop()` and the destructor's own `quit()`; after any such store the thread can take its pointer
back before the destructor looks at it.
-/

namespace Siren.EventLoopThread

open EventLoop (Caller)

/-! ### States -/

/-- What the destructor must not do. -/
inductive Failure where
  /-- `thread_` is destroyed while it is joinable: `std::terminate`. -/
  | joinableDestroyed
  /-- `quit()` is called on a loop that `threadFunc` destroyed. -/
  | quitOnDestroyed
  /-- `quit()` is called through the null pointer. -/
  | quitOnNull
  deriving DecidableEq

/-- Where `threadFunc` is. -/
inductive Thread where
  | notStarted
  /-- Its `EventLoop` is constructed, `callback_` may be running. -/
  | initializing
  /-- `loop_ = &loop` is done. -/
  | published
  | looping
  /-- `loop()` returned. -/
  | returned
  /-- `loop_ = nullptr` is done. -/
  | retracted
  /-- The loop is destroyed. -/
  | finished
  deriving DecidableEq

/-- Where the owner is. -/
inductive Owner where
  | constructed
  /-- In `startLoop`, with `thread_` assigned. -/
  | waiting
  /-- `startLoop` returned. -/
  | started
  /-- In the destructor, `loop_ != nullptr` was true. -/
  | checked
  /-- About to call `quit()` through the pointer it loaded. -/
  | calling
  /-- In `quit()` and the `join()` after it. -/
  | joining
  /-- At the end of the destructor, before the members are destroyed. -/
  | leaving
  | destroyed
  deriving DecidableEq

structure State (T F : Type*) where
  /-- The `EventLoop` of `threadFunc`. -/
  loop : EventLoop.Loop.State (Option T) F
  thread : Thread
  owner : Owner
  /-- Whether `loop_` points to the loop. -/
  loop_ : Bool
  /-- Whether `thread_` is joinable. -/
  joinable : Bool

def State.init (T F : Type*) : State T F := ⟨.init _ _, .notStarted, .constructed, false, false⟩

/-! ### Steps -/

inductive Label (T F : Type*) where
  /-- `startLoop()` up to the assignment of `thread_`. -/
  | startLoop
  /-- It finds `loop_` set and returns. -/
  | startLoopReturns
  /-- The destructor tests `loop_ != nullptr`. -/
  | testLoop
  /-- It loads `loop_` for the call. -/
  | loadLoop
  | callQuit
  | join
  /-- The members are destroyed. -/
  | destroyMembers
  /-- `threadFunc` sets `loop_`. -/
  | publish
  /-- `threadFunc` resets `loop_`. -/
  | retract
  | destroyLoop
  /-- A step of the loop thread in `callback_` or `loop()`, or of another thread calling the loop. -/
  | loop (a : EventLoop.Loop.Label (Option T) F)

variable {T F : Type*} [DecidableEq T]

/-- The destructor has made its call of `quit()`, or passed by it. -/
def Owner.pastQuit : Owner → Bool
  | .joining | .leaving | .destroyed => true
  | _ => false

/-- A caller of the loop's public functions: the loop thread from `callback_` or from inside `loop()`, other
threads once `startLoop` returned and as long as the loop exists. The owner's own call is `callQuit`. -/
def State.mayCall (s : State T F) : Caller (Option T) → Prop
  | .loop => s.thread = .initializing ∨ s.thread = .looping
  | .other none => False
  | .other (some _) => s.owner ≠ .constructed ∧ s.owner ≠ .waiting ∧ s.thread ≠ .finished

instance (s : State T F) : (caller : Caller (Option T)) → Decidable (s.mayCall caller)
  | .loop | .other none | .other (some _) => by
    unfold State.mayCall
    infer_instance

/-- Which steps of the loop machine `threadFunc` and the callers let happen. -/
def State.mayStep (s : State T F) : EventLoop.Loop.Label (Option T) F → Prop
  | .enter => s.thread = .published
  | .push caller _ => s.mayCall caller
  | .storeQuit caller => s.mayCall caller
  | .wakeup _ => True
  | _ => s.thread = .looping

instance (s : State T F) : (a : EventLoop.Loop.Label (Option T) F) → Decidable (s.mayStep a)
  | .enter | .test | .startPoll | .pollReturns _ | .handleRead | .endEvents | .swap | .runFunctor
  | .endBatch | .endDestroy | .push .. | .storeQuit _ | .wakeup _ => by
    unfold State.mayStep
    infer_instance

def Enabled (s : State T F) : Label T F → Prop
  | .startLoop => s.owner = .constructed
  | .startLoopReturns => s.owner = .waiting ∧ s.loop_ = true
  | .testLoop => s.owner = .constructed ∨ s.owner = .started
  | .loadLoop => s.owner = .checked
  | .callQuit => s.owner = .calling
  | .join => s.owner = .joining ∧ s.loop.calls (.other none) = none ∧ s.thread = .finished
  | .destroyMembers => s.owner = .leaving
  | .publish => s.thread = .initializing
  | .retract => s.thread = .returned
  | .destroyLoop => s.thread = .retracted
  | .loop a => s.mayStep a ∧ EventLoop.Loop.Enabled s.loop a

instance (s : State T F) : (a : Label T F) → Decidable (Enabled s a)
  | .startLoop | .startLoopReturns | .testLoop | .loadLoop | .callQuit | .join | .destroyMembers
  | .publish | .retract | .destroyLoop | .loop _ => by
    unfold Enabled
    infer_instance

/-- A step of the loop, and `threadFunc` in or out of `loop()` with it. -/
def State.stepLoop (s : State T F) (a : EventLoop.Loop.Label (Option T) F) : State T F :=
  let loop := EventLoop.Loop.effect s.loop a
  { s with
    loop := loop
    thread := match a with
      | .enter => .looping
      | .test => if loop.position = .outside then .returned else s.thread
      | _ => s.thread }

def effect (s : State T F) : Label T F → Except Failure (State T F)
  | .startLoop => .ok { s with owner := .waiting, thread := .initializing, joinable := true }
  | .startLoopReturns => .ok { s with owner := .started }
  | .testLoop => .ok { s with owner := if s.loop_ then .checked else .leaving }
  | .loadLoop => if s.loop_ then .ok { s with owner := .calling } else .error .quitOnNull
  | .callQuit =>
    if s.thread = .finished then .error .quitOnDestroyed
    else .ok { s with owner := .joining, loop := s.loop.quit (.other none) }
  | .join => .ok { s with owner := .leaving, joinable := false }
  | .destroyMembers =>
    if s.joinable then .error .joinableDestroyed else .ok { s with owner := .destroyed }
  | .publish => .ok { s with thread := .published, loop_ := true }
  | .retract => .ok { s with thread := .retracted, loop_ := false }
  | .destroyLoop => .ok { s with thread := .finished }
  | .loop a => .ok (s.stepLoop a)

def step (s : State T F) (a : Label T F) : Option (Except Failure (State T F)) :=
  if Enabled s a then some (effect s a) else none

/-- An `EventLoopThread` with its owner and the callers of its loop. -/
def machine (T F : Type*) [DecidableEq T] : Machine (Except Failure (State T F)) (Label T F) :=
  .ofExcept step

variable {s t : State T F} {a : Label T F}

theorem step_eq_some {r : Except Failure (State T F)} : step s a = some r ↔ Enabled s a ∧ effect s a = r := by
  simp [step]

/-! ### What holds in every run -/

/-- What the two sides know of each other: the pointer is set between publication and retraction, the loop
is inside `loop()` just when `threadFunc` is, and an owner past `startLoop` has a joinable thread. -/
structure Sound (s : State T F) : Prop where
  placed : EventLoop.Loop.Placed s.loop
  pointer : s.loop_ = true ↔ s.thread = .published ∨ s.thread = .looping ∨ s.thread = .returned
  inside : s.thread = .looping ↔ s.loop.position ≠ .outside
  constructed : s.owner = .constructed → s.thread = .notStarted ∧ s.joinable = false
  waiting : s.owner = .waiting → s.thread ≠ .notStarted ∧ s.joinable = true
  started : s.owner = .started ∨ s.owner = .checked ∨ s.owner = .calling →
    s.thread ≠ .notStarted ∧ s.thread ≠ .initializing ∧ s.joinable = true

omit [DecidableEq T] in
theorem sound_init : Sound (State.init T F) := by
  refine ⟨EventLoop.Loop.placed_init, ?_, ?_, ?_, ?_, ?_⟩ <;> simp [State.init, EventLoop.Loop.State.init]

/-- A step of the loop takes `threadFunc` into `loop()`, out of it, or leaves it where it is. -/
theorem stepLoop_thread {a : EventLoop.Loop.Label (Option T) F} (hmay : s.mayStep a)
    (hen : EventLoop.Loop.Enabled s.loop a) :
    (a = .enter ∧ s.thread = .published ∧ (s.stepLoop a).thread = .looping ∧
        (s.stepLoop a).loop.position ≠ .outside) ∨
      (a = .test ∧ s.thread = .looping ∧ s.loop.quit_ = true ∧ (s.stepLoop a).thread = .returned ∧
        (s.stepLoop a).loop.position = .outside) ∨
      ((s.stepLoop a).thread = s.thread ∧
        ((s.stepLoop a).loop.position = .outside ↔ s.loop.position = .outside)) := by
  by_cases henter : a = .enter
  · subst henter
    exact .inl ⟨rfl, hmay, rfl, by simp [State.stepLoop, EventLoop.Loop.effect]⟩
  by_cases htest : a = .test
  · subst htest
    have hpos : s.loop.position = .test := hen
    by_cases hquit : s.loop.quit_ = true
    · refine .inr (.inl ⟨rfl, hmay, hquit, ?_⟩)
      simp [State.stepLoop, EventLoop.Loop.effect, hquit]
    · refine .inr (.inr ?_)
      simp [State.stepLoop, EventLoop.Loop.effect, hquit, hpos]
  · refine .inr (.inr ⟨?_, EventLoop.Loop.effect_position_eq_outside hen henter htest⟩)
    cases a with
    | enter => exact absurd rfl henter
    | test => exact absurd rfl htest
    | _ => rfl

omit [DecidableEq T] in
/-- `threadFunc` goes on after it was started. -/
theorem Sound.move (h : Sound s) {loop : EventLoop.Loop.State (Option T) F} {p : Thread} {set : Bool}
    (hplaced : EventLoop.Loop.Placed loop) (hs : s.thread ≠ .notStarted)
    (hp : p ≠ .notStarted ∧ p ≠ .initializing)
    (hpointer : set = true ↔ p = .published ∨ p = .looping ∨ p = .returned)
    (hinside : p = .looping ↔ loop.position ≠ .outside) :
    Sound { s with loop := loop, thread := p, loop_ := set } :=
  ⟨hplaced, hpointer, hinside, fun hc => absurd (h.constructed hc).1 hs,
    fun hw => ⟨hp.1, (h.waiting hw).2⟩, fun hs' => ⟨hp.1, hp.2, (h.started hs').2.2⟩⟩

theorem Sound.stepLoop (h : Sound s) {a : EventLoop.Loop.Label (Option T) F} (hmay : s.mayStep a)
    (hen : EventLoop.Loop.Enabled s.loop a) : Sound (s.stepLoop a) := by
  have hplaced := h.placed.step (EventLoop.Loop.step_eq_some.mpr ⟨hen, rfl⟩)
  have hshape : s.stepLoop a = { s with
      loop := EventLoop.Loop.effect s.loop a, thread := (s.stepLoop a).thread, loop_ := s.loop_ } := rfl
  obtain ⟨-, hs, ht, hpos⟩ | ⟨-, hs, -, ht, hpos⟩ | ⟨ht, hpos⟩ := stepLoop_thread hmay hen
  · rw [hshape, ht]
    exact h.move hplaced (by simp [hs]) (by simp) (by simpa [hs] using h.pointer)
      ⟨fun _ => hpos, fun _ => rfl⟩
  · rw [hshape, ht]
    exact h.move hplaced (by simp [hs]) (by simp) (by simpa [hs] using h.pointer)
      ⟨fun hne => by simp at hne, fun hne => absurd hpos hne⟩
  · rw [hshape, ht]
    exact ⟨hplaced, h.pointer, h.inside.trans (not_congr hpos.symm), h.constructed, h.waiting, h.started⟩

theorem Sound.step (h : Sound s) (hstep : step s a = some (.ok t)) : Sound t := by
  obtain ⟨hen, heff⟩ := step_eq_some.mp hstep
  cases a with
  | loop a =>
    obtain rfl := Except.ok.inj heff
    exact h.stepLoop hen.1 hen.2
  | startLoop =>
    obtain rfl := Except.ok.inj heff
    have hthread := (h.constructed hen).1
    refine ⟨h.placed, ?_, ?_, by simp, by simp, by simp⟩
    · simpa [hthread] using h.pointer
    · simpa [hthread] using h.inside
  | startLoopReturns =>
    obtain rfl := Except.ok.inj heff
    refine ⟨h.placed, h.pointer, h.inside, by simp, by simp, fun _ => ?_⟩
    refine ⟨(h.waiting hen.1).1, fun hinit => ?_, (h.waiting hen.1).2⟩
    have hpointer := h.pointer.mp hen.2
    simp [show s.thread = .initializing from hinit] at hpointer
  | testLoop =>
    obtain rfl := Except.ok.inj heff
    by_cases hloop : s.loop_ = true
    · have hstarted : s.owner = .started := by
        refine hen.resolve_left fun hc => ?_
        have hpointer := h.pointer.mp hloop
        simp [(h.constructed hc).1] at hpointer
      simp only [hloop, if_true]
      exact ⟨h.placed, by simpa [hloop] using h.pointer, h.inside, by simp, by simp,
        fun _ => h.started (.inl hstarted)⟩
    · exact ⟨h.placed, h.pointer, h.inside, by simp [hloop], by simp [hloop], by simp [hloop]⟩
  | loadLoop =>
    simp only [effect] at heff
    split at heff
    · obtain rfl := Except.ok.inj heff
      exact ⟨h.placed, h.pointer, h.inside, by simp, by simp, fun _ => h.started (.inr (.inl hen))⟩
    · cases heff
  | callQuit =>
    simp only [effect] at heff
    split at heff
    · cases heff
    · obtain rfl := Except.ok.inj heff
      refine ⟨h.placed.quit (.other none), h.pointer, ?_, by simp, by simp, by simp⟩
      simpa using h.inside
  | join =>
    obtain rfl := Except.ok.inj heff
    exact ⟨h.placed, h.pointer, h.inside, by simp, by simp, by simp⟩
  | destroyMembers =>
    simp only [effect] at heff
    split at heff
    · cases heff
    · obtain rfl := Except.ok.inj heff
      exact ⟨h.placed, h.pointer, h.inside, by simp, by simp, by simp⟩
  | publish =>
    obtain rfl := Except.ok.inj heff
    have hthread : s.thread = .initializing := hen
    exact h.move h.placed (by simp [hthread]) (by simp) (by simp) (by simpa [hthread] using h.inside)
  | retract =>
    obtain rfl := Except.ok.inj heff
    have hthread : s.thread = .returned := hen
    exact h.move h.placed (by simp [hthread]) (by simp) (by simp) (by simpa [hthread] using h.inside)
  | destroyLoop =>
    obtain rfl := Except.ok.inj heff
    have hthread : s.thread = .retracted := hen
    exact h.move h.placed (by simp [hthread]) (by simp) (by simpa [hthread] using h.pointer)
      (by simpa [hthread] using h.inside)

/-! ### The destructor when nobody else quits the running loop -/

/-- Nobody but the owner's destructor stores the first `quit()` of a running loop. -/
def QuitsInOrder (s : State T F) : Label T F → Prop
  | .loop (.storeQuit _) => s.thread = .looping → s.owner.pastQuit
  | _ => True

/-- Until the destructor calls `quit()` the thread stays in `loop()` once it entered it, and a destructor
that ends has joined. -/
structure Kept (s : State T F) : Prop where
  running : ¬ s.owner.pastQuit →
    s.thread = .notStarted ∨ s.thread = .initializing ∨ s.thread = .published ∨ s.thread = .looping
  unquit : ¬ s.owner.pastQuit → s.thread = .looping → s.loop.quit_ = false
  left : s.owner = .leaving ∨ s.owner = .destroyed → s.joinable = false

omit [DecidableEq T] in
theorem kept_init : Kept (State.init T F) := by
  constructor <;> simp [State.init]

theorem Kept.stepLoop (h : Kept s) {a : EventLoop.Loop.Label (Option T) F}
    (hC : QuitsInOrder s (.loop a)) (hmay : s.mayStep a) (hen : EventLoop.Loop.Enabled s.loop a) :
    Kept (s.stepLoop a) := by
  obtain ⟨rfl, hs, ht, -⟩ | ⟨-, hs, hquit, -, -⟩ | ⟨ht, -⟩ := stepLoop_thread hmay hen
  · exact ⟨fun _ => .inr (.inr (.inr ht)), fun _ _ => rfl, h.left⟩
  · have hpast : s.owner.pastQuit := by
      by_contra hpast
      simp [h.unquit hpast hs] at hquit
    exact ⟨fun hno => absurd hpast hno, fun hno => absurd hpast hno, h.left⟩
  · refine ⟨fun hno => ?_, fun hno hlooping => ?_, h.left⟩
    · rw [ht]
      exact h.running hno
    · have hlooping' : s.thread = .looping := ht ▸ hlooping
      rw [← h.unquit hno hlooping']
      apply EventLoop.Loop.effect_quit_
      · rintro rfl
        have hpub : s.thread = .published := hmay
        simp [hpub] at hlooping'
      · rintro caller rfl
        exact hno (hC hlooping')

omit [DecidableEq T] in
/-- An owner past `startLoop` and before its `quit()` finds the loop published. -/
theorem Kept.published (hsound : Sound s) (h : Kept s)
    (howner : s.owner = .started ∨ s.owner = .checked ∨ s.owner = .calling) :
    s.loop_ = true ∧ s.thread ≠ .finished := by
  have hpast : ¬ s.owner.pastQuit := by
    rcases howner with ho | ho | ho <;> simp [ho, Owner.pastQuit]
  obtain ⟨hstart, hinit, -⟩ := hsound.started howner
  have hthread := ((h.running hpast).resolve_left hstart).resolve_left hinit
  refine ⟨hsound.pointer.mpr (hthread.imp_right .inl), ?_⟩
  rcases hthread with ht | ht <;> simp [ht]

theorem Kept.step (hsound : Sound s) (h : Kept s) (hC : QuitsInOrder s a) {r : Except Failure (State T F)}
    (hstep : EventLoopThread.step s a = some r) : ∃ t, r = .ok t ∧ Kept t := by
  obtain ⟨hen, rfl⟩ := step_eq_some.mp hstep
  cases a with
  | loop a => exact ⟨_, rfl, h.stepLoop hC hen.1 hen.2⟩
  | startLoop =>
    have howner : s.owner = .constructed := hen
    exact ⟨_, rfl, by simp, by simp, by simp⟩
  | startLoopReturns =>
    have hpast : ¬ s.owner.pastQuit := by simp [hen.1, Owner.pastQuit]
    exact ⟨_, rfl, fun _ => h.running hpast, fun _ => h.unquit hpast, by simp⟩
  | testLoop =>
    rcases hen with howner | howner
    · obtain ⟨hthread, hjoinable⟩ := hsound.constructed howner
      exact ⟨_, rfl, by simp [hthread], by simp [hthread], fun _ => hjoinable⟩
    · have hpast : ¬ s.owner.pastQuit := by simp [howner, Owner.pastQuit]
      have hloop := (h.published hsound (.inl howner)).1
      exact ⟨_, rfl, fun _ => h.running hpast, fun _ => h.unquit hpast, by simp [hloop]⟩
  | loadLoop =>
    have howner : s.owner = .checked := hen
    have hpast : ¬ s.owner.pastQuit := by simp [howner, Owner.pastQuit]
    have hloop := (h.published hsound (.inr (.inl howner))).1
    exact ⟨{ s with owner := .calling }, by simp [effect, hloop], fun _ => h.running hpast,
      fun _ => h.unquit hpast, by simp⟩
  | callQuit =>
    have hfinished := (h.published hsound (.inr (.inr hen))).2
    exact ⟨{ s with owner := .joining, loop := s.loop.quit (.other none) }, by simp [effect, hfinished],
      by simp [Owner.pastQuit], by simp [Owner.pastQuit], by simp⟩
  | join => exact ⟨_, rfl, by simp [Owner.pastQuit], by simp [Owner.pastQuit], fun _ => rfl⟩
  | destroyMembers =>
    have hjoined := h.left (.inl hen)
    refine ⟨{ s with owner := .destroyed }, by simp [effect, hjoined], ?_, ?_, fun _ => hjoined⟩
    · simp [Owner.pastQuit]
    · simp [Owner.pastQuit]
  | publish =>
    exact ⟨_, rfl, by simp, by simp, h.left⟩
  | retract =>
    have hthread : s.thread = .returned := hen
    have hpast : s.owner.pastQuit := by
      by_contra hpast
      simpa [hthread] using h.running hpast
    exact ⟨_, rfl, fun hno => absurd hpast hno, fun hno => absurd hpast hno, h.left⟩
  | destroyLoop =>
    have hthread : s.thread = .retracted := hen
    have hpast : s.owner.pastQuit := by
      by_contra hpast
      simpa [hthread] using h.running hpast
    exact ⟨_, rfl, fun hno => absurd hpast hno, fun hno => absurd hpast hno, h.left⟩

/-! ### The destructor after an early `quit()` -/

theorem reaches_effect {r : Except Failure (State T F)} (hen : Enabled s a) (heff : effect s a = r) :
    (machine T F).Reaches (.ok s) r :=
  .of_step (step_eq_some.mpr ⟨hen, heff⟩)

/-- A run of the loop thread between two tests is one of the whole machine while `threadFunc` is in
`loop()`. -/
theorem reaches_iteration {loop : EventLoop.Loop.State (Option T) F}
    (as : List (EventLoop.Loop.Label (Option T) F)) (has : ∀ a ∈ as, a.Iterates)
    (hthread : s.thread = .looping) (hrun : (EventLoop.Loop.machine _ _).run s.loop as = some loop) :
    (machine T F).Reaches (.ok s) (.ok { s with loop := loop }) := by
  induction as generalizing s with
  | nil =>
    obtain rfl := Option.some.inj hrun
    exact .refl
  | cons a as ih =>
    obtain ⟨ha, has⟩ := List.forall_mem_cons.mp has
    obtain ⟨mid, hmid, hrun⟩ := Option.bind_eq_some_iff.mp hrun
    obtain ⟨hen, rfl⟩ := EventLoop.Loop.step_eq_some.mp hmid
    have hmay : s.mayStep a := by
      cases a with
      | enter | test | push | storeQuit => exact ha.elim
      | wakeup => trivial
      | _ => exact hthread
    have hstep : s.stepLoop a = { s with loop := EventLoop.Loop.effect s.loop a } := by
      cases a with
      | enter | test | push | storeQuit => exact ha.elim
      | _ => rfl
    have hreach : (machine T F).Reaches (.ok s) (.ok (s.stepLoop a)) :=
      reaches_effect (a := .loop a) ⟨hmay, hen⟩ rfl
    rw [hstep] at hreach
    exact hreach.trans (ih has hthread hrun)

/-- `threadFunc` came to its end, and the owner is where it was. -/
def Finishes (s : State T F) : Prop :=
  ∃ t, (machine T F).Reaches (.ok s) (.ok t) ∧ t.thread = .finished ∧ t.loop_ = false ∧
    t.owner = s.owner ∧ t.joinable = s.joinable

/-- At the test with `quit_` set, `loop()` returns, and `threadFunc` takes its pointer back and ends. -/
theorem finishes_of_test (hthread : s.thread = .looping) (hpos : s.loop.position = .test)
    (hquit : s.loop.quit_ = true) : Finishes s := by
  have hreturned : (s.stepLoop .test).thread = .returned := by
    simp [State.stepLoop, EventLoop.Loop.effect, hquit]
  have htest : (machine T F).Reaches (.ok s) (.ok (s.stepLoop .test)) :=
    reaches_effect (a := .loop .test) ⟨hthread, hpos⟩ rfl
  have hretract : (machine T F).Reaches (.ok (s.stepLoop .test))
      (.ok { s.stepLoop .test with thread := .retracted, loop_ := false }) :=
    reaches_effect (a := .retract) hreturned rfl
  have hdestroy : (machine T F).Reaches (.ok { s.stepLoop .test with thread := .retracted, loop_ := false })
      (.ok { s.stepLoop .test with thread := .finished, loop_ := false }) :=
    reaches_effect (a := .destroyLoop) rfl rfl
  exact ⟨_, (htest.trans hretract).trans hdestroy, rfl, rfl, rfl, rfl⟩

theorem Sound.finishes_of_ne_toPoll (h : Sound s) (hthread : s.thread = .looping)
    (hquit : s.loop.quit_ = true) (hpos : s.loop.position ≠ .toPoll) : Finishes s := by
  obtain ⟨as, loop, hrun, has, htest, hquit', -⟩ := h.placed.reachesTest ⟨h.inside.mp hthread, hpos⟩
  obtain ⟨t, hreach, ht⟩ := finishes_of_test (s := { s with loop := loop }) hthread htest (hquit'.trans hquit)
  exact ⟨t, (reaches_iteration as has hthread hrun).trans hreach, ht⟩

/-- A running loop with `quit_` set lets `threadFunc` come to its end. -/
theorem Sound.finishes (h : Sound s) (hthread : s.thread = .looping) (hquit : s.loop.quit_ = true) :
    Finishes s := by
  by_cases hpos : s.loop.position = .toPoll
  · have hen : Enabled s (.loop .startPoll) := ⟨hthread, hpos⟩
    obtain ⟨t, hreach, ht⟩ := (h.stepLoop hen.1 hen.2).finishes_of_ne_toPoll hthread hquit
      (by simp [State.stepLoop, EventLoop.Loop.effect])
    exact ⟨t, (reaches_effect hen rfl).trans hreach, ht⟩
  · exact h.finishes_of_ne_toPoll hthread hquit hpos

/-- The destructor fails when the thread ended before its test of `loop_`. -/
theorem fails_of_started (howner : s.owner = .started) (hloop : s.loop_ = false)
    (hjoinable : s.joinable = true) :
    (machine T F).Reaches (.ok s) (.error .joinableDestroyed) := by
  have htest : (machine T F).Reaches (.ok s) (.ok { s with owner := .leaving }) :=
    reaches_effect (a := .testLoop) (.inr howner) (by simp [effect, hloop])
  apply htest.trans
  exact reaches_effect (a := .destroyMembers) rfl (by simp [effect, hjoinable])

/-- It fails when the thread ended between its load of `loop_` and the call through it. -/
theorem fails_of_calling (howner : s.owner = .calling) (hthread : s.thread = .finished) :
    (machine T F).Reaches (.ok s) (.error .quitOnDestroyed) :=
  reaches_effect (a := .callQuit) howner (by simp [effect, hthread])

/-- With `quit_` set in a running loop before its own `quit()`, the destructor can fail. -/
theorem Sound.reaches_failure (h : Sound s) (hthread : s.thread = .looping) (hquit : s.loop.quit_ = true)
    (hpast : ¬ s.owner.pastQuit) : ∃ e, (machine T F).Reaches (.ok s) (.error e) := by
  have hloop : s.loop_ = true := h.pointer.mpr (.inr (.inl hthread))
  have hfail_started : ∀ s : State T F, Sound s → s.thread = .looping → s.loop.quit_ = true →
      s.owner = .started → ∃ e, (machine T F).Reaches (.ok s) (.error e) := by
    intro s h hthread hquit howner
    obtain ⟨t, hreach, -, hloop, howner', hjoinable⟩ := h.finishes hthread hquit
    have hstarted := (h.started (.inl howner)).2.2
    exact ⟨_, hreach.trans (fails_of_started (howner'.trans howner) hloop (hjoinable.trans hstarted))⟩
  have hfail_calling : ∀ s : State T F, Sound s → s.thread = .looping → s.loop.quit_ = true →
      s.owner = .calling → ∃ e, (machine T F).Reaches (.ok s) (.error e) := by
    intro s h hthread hquit howner
    obtain ⟨t, hreach, hfinished, -, howner', -⟩ := h.finishes hthread hquit
    exact ⟨_, hreach.trans (fails_of_calling (howner'.trans howner) hfinished)⟩
  cases howner : s.owner with
  | constructed => simp [(h.constructed howner).1] at hthread
  | started => exact hfail_started s h hthread hquit howner
  | calling => exact hfail_calling s h hthread hquit howner
  | waiting =>
    have hen : Enabled s .startLoopReturns := ⟨howner, hloop⟩
    obtain ⟨e, hreach⟩ := hfail_started _ (h.step (step_eq_some.mpr ⟨hen, rfl⟩)) hthread hquit rfl
    exact ⟨e, (reaches_effect hen rfl).trans hreach⟩
  | checked =>
    have hen : Enabled s .loadLoop := howner
    have heff : effect s .loadLoop = .ok { s with owner := .calling } := by simp [effect, hloop]
    obtain ⟨e, hreach⟩ := hfail_calling _ (h.step (step_eq_some.mpr ⟨hen, heff⟩)) hthread hquit rfl
    exact ⟨e, (reaches_effect hen heff).trans hreach⟩
  | _ => simp [howner, Owner.pastQuit] at hpast

/-! ### Every order -/

/-- **Destruction of an `EventLoopThread`**: exactly the stores of a `quit()` by somebody else while
`loop()` runs and the destructor has not called `quit()` let the destructor destroy a joinable thread or
call `quit()` on a loop that is gone. -/
theorem destroyed_safely_exact :
    (machine T F).ExactCondition (Machine.AtOk QuitsInOrder) (Machine.Holds fun _ => True)
      (.ok (State.init T F)) := by
  refine Machine.ofExcept_exactCondition sound_init kept_init (fun _ _ _ h hstep => h.step hstep)
    (fun _ _ _ hsound h hC hstep => h.step hsound hC hstep) (fun _ _ _ => trivial) ?_
  intro s a t h hC hstep
  have hsound := h.step hstep
  cases a with
  | loop a =>
    cases a with
    | storeQuit caller =>
      simp only [QuitsInOrder, Classical.not_imp] at hC
      obtain ⟨-, heff⟩ := step_eq_some.mp hstep
      obtain rfl := Except.ok.inj heff
      obtain ⟨e, hreach⟩ := hsound.reaches_failure hC.1 (EventLoop.Loop.quit_quit_ caller) hC.2
      exact ⟨_, hreach, Machine.holds_error⟩
    | _ => exact absurd trivial hC
  | _ => exact absurd trivial hC

/-- Another thread quits the loop, the thread ends, and the destructor destroys it unjoined. -/
theorem early_quit_leaves_joinable :
    ¬ ∀ as, (machine Nat Nat).Always (Machine.Holds fun _ => True) (.ok (State.init Nat Nat)) as := by
  intro h
  exact (h [.startLoop, .publish, .startLoopReturns, .loop .enter, .loop (.storeQuit (.other (some 0))),
    .loop .test, .retract, .destroyLoop, .testLoop, .destroyMembers]).last (t := .error .joinableDestroyed)
    rfl

end Siren.EventLoopThread
