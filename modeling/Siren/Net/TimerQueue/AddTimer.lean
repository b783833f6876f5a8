import Siren.Net.TimerQueue.Pass

/-!
# `addTimer` from other threads

A call of `addTimer` on another thread takes three steps: it allocates the timer, hands `addTimerInLoop` to
the loop, and reads the sequence of the timer for the `TimerId` it returns. The loop may take any steps of its
own in between. On the loop's thread a call runs `addTimerInLoop` at once and is one step.

* `sequence_read_exact`: the timer whose sequence is read was not deleted, unless a pass has ended since that
  ran it and it does not repeat.
-/

namespace Siren.TimerQueue

variable {C : Type*}

/-- `addTimer(cb, when, interval)` allocates the timer. `interval` is an `int64_t`, in seconds. -/
def addTimer (cb : C) (when : Timestamp) (interval : Int) : Label C := .newTimer cb when interval

inductive Fault where
  /-- `timer->sequence()` on a timer that `reset` has deleted. -/
  | deletedTimer (timer : Nat)

/-- A queue and the calls of `addTimer` on other threads. -/
structure Callers (C : Type*) where
  queue : TimerQueue C
  /-- The timers that calls have allocated and not yet handed over. -/
  allocating : List Nat
  /-- The `addTimerInLoop` among the pending functors of the loop, the oldest first. -/
  pending : List Nat
  /-- The timers that were handed over by calls that have not returned yet. -/
  reading : List Nat

namespace Callers

def new (C : Type*) : Callers C := ⟨TimerQueue.new C, [], [], []⟩

inductive Label (C : Type*) where
  /-- Another thread calls `addTimer`, which allocates the timer. -/
  | newTimer (cb : C) (when : Timestamp) (interval : Int)
  /-- It hands the timer over: `runInLoop` queues the functor. -/
  | queueInLoop (timer : Nat)
  /-- It reads `timer->sequence()` and returns. -/
  | sequence (timer : Nat)
  /-- The loop runs the oldest of the functors, which it does outside passes. -/
  | addTimerInLoop (clock : Timestamp)
  /-- A call on the loop's thread, from a callback or elsewhere. -/
  | addTimer (cb : C) (when : Timestamp) (interval : Int) (clock : Timestamp)
  | handleRead (now : Timestamp)
  | runNext
  | handleReadEnd (clock : Timestamp)

/-- `timer->sequence()` at the end of `addTimer`. -/
def readSequence (s : Callers C) (timer : Nat) : Except Fault (Callers C) :=
  match s.queue.heap timer with
  | some _ => .ok { s with reading := s.reading.erase timer }
  | none => .error (.deletedTimer timer)

/-- `addTimer` on the loop's thread. -/
def addTimerOnLoop (s : Callers C) (cb : C) (when : Timestamp) (interval : Int) (clock : Timestamp) :
    Option (Except Fault (Callers C)) := do
  let timer := s.queue.numCreated
  let queue ← s.queue.step (TimerQueue.addTimer cb when interval)
  let queue ← queue.step (.addTimerInLoop timer clock)
  return readSequence { s with queue } timer

def step (s : Callers C) : Label C → Option (Except Fault (Callers C))
  | .newTimer cb when interval => (s.queue.step (TimerQueue.addTimer cb when interval)).map fun queue =>
    .ok { s with queue, allocating := s.queue.numCreated :: s.allocating }
  | .queueInLoop timer =>
    if timer ∈ s.allocating then some (.ok { s with
      allocating := s.allocating.erase timer
      pending := s.pending ++ [timer]
      reading := timer :: s.reading })
    else none
  | .sequence timer => if timer ∈ s.reading then some (s.readSequence timer) else none
  | .addTimerInLoop clock =>
    match s.queue.pass, s.pending with
    | none, timer :: pending => (s.queue.step (.addTimerInLoop timer clock)).map fun queue =>
      .ok { s with queue, pending }
    | _, _ => none
  | .addTimer cb when interval clock => s.addTimerOnLoop cb when interval clock
  | .handleRead now => (s.queue.step (.handleRead now)).map fun queue => .ok { s with queue }
  | .runNext => (s.queue.step .runNext).map fun queue => .ok { s with queue }
  | .handleReadEnd clock => (s.queue.step (.handleReadEnd clock)).map fun queue => .ok { s with queue }

def runs (C : Type*) : Machine (Except Fault (Callers C)) (Label C) := .ofExcept step

/-- A pass does not end before the calls that made its one-shot timers have read their sequences. -/
def ReadsFirst (s : Callers C) : Label C → Prop
  | .handleReadEnd _ => ∀ timer ∈ s.queue.called, ∀ t, s.queue.heap timer = some t → t.repeats = false →
    timer ∉ s.reading
  | _ => True

/-- The timers not handed to `addTimerInLoop` yet are those of calls and of pending functors. -/
structure Inv (s : Callers C) : Prop where
  sound : Sound s.queue
  owned : (s.allocating ++ s.pending).Perm s.queue.allocated

/-- The timers that calls have still to read are there. -/
def Live (s : Callers C) : Prop := ∀ timer ∈ s.reading, ∃ t, s.queue.heap timer = some t

variable {s s' : Callers C} {r : Except Fault (Callers C)} {q : TimerQueue C}

theorem new_inv : (Callers.new C).Inv := ⟨new_sound, List.Perm.refl _⟩

theorem new_live : (Callers.new C).Live := fun _ hmem => by cases hmem

theorem exists_heap_newTimer {cb : C} {when : Timestamp} {interval : ℚ}
    (hq : s.queue.step (.newTimer cb when interval) = some q) {p : Nat}
    (hp : ∃ t, s.queue.heap p = some t) : ∃ t, q.heap p = some t := by
  obtain rfl := Option.some.inj hq
  obtain ⟨t, ht⟩ := hp
  by_cases heq : p = s.queue.numCreated
  · subst heq
    exact ⟨_, Function.update_self ..⟩
  · exact ⟨t, (Function.update_of_ne heq ..).trans ht⟩

/-- A call on the loop's thread reads a timer that is there. -/
theorem addTimerOnLoop_eq_some {cb : C} {when : Timestamp} {interval : Int} {clock : Timestamp}
    (h : s.addTimerOnLoop cb when interval clock = some r) : ∃ q q',
    s.queue.step (TimerQueue.addTimer cb when interval) = some q ∧
      q.step (.addTimerInLoop s.queue.numCreated clock) = some q' ∧ q'.heap = q.heap ∧
      q'.allocated = s.queue.allocated ∧
      r = .ok { s with queue := q', reading := s.reading.erase s.queue.numCreated } := by
  obtain ⟨q, hq⟩ : ∃ q, s.queue.step (TimerQueue.addTimer cb when interval) = some q := ⟨_, rfl⟩
  have hallocated : q.allocated = s.queue.numCreated :: s.queue.allocated := by
    obtain rfl := Option.some.inj hq
    rfl
  simp only [addTimerOnLoop, hq, Option.bind_eq_bind, Option.bind_some] at h
  obtain ⟨q', hq', h⟩ := Option.bind_eq_some_iff.mp h
  obtain ⟨t, timerfd, ht, -, heq⟩ := step_addTimerInLoop hq'
  have hheap : q'.heap = q.heap := by rw [heq]
  refine ⟨q, q', hq, hq', hheap, ?_, ?_⟩
  · rw [heq]
    show q.allocated.erase s.queue.numCreated = _
    rw [hallocated, List.erase_cons_head]
  · have ht' : q'.heap s.queue.numCreated = some t := hheap ▸ ht
    rw [← Option.some.inj h]
    simp only [readSequence, ht']

/-- A call on another thread always gets its timer. -/
theorem step_newTimer {cb : C} {when : Timestamp} {interval : Int}
    (h : s.step (.newTimer cb when interval) = some r) : ∃ q,
    s.queue.step (TimerQueue.addTimer cb when interval) = some q ∧
      q.allocated = s.queue.numCreated :: s.queue.allocated ∧
      r = .ok { s with queue := q, allocating := s.queue.numCreated :: s.allocating } :=
  ⟨_, rfl, rfl, (Option.some.inj h).symm⟩

/-! ### Steps -/

/-- A queue step that leaves the timers of the calls where they are. -/
theorem Inv.queue (h : s.Inv) (hsound : Sound q) (hall : q.allocated = s.queue.allocated) :
    Inv { s with queue := q } :=
  ⟨hsound, hall ▸ h.owned⟩

theorem Inv.step {a : Label C} (h : s.Inv) (hstep : s.step a = some (.ok s')) : s'.Inv := by
  cases a with
  | newTimer cb when interval =>
    obtain ⟨q, hq, hall, heq⟩ := step_newTimer hstep
    obtain rfl := Except.ok.inj heq
    exact ⟨h.sound.step hq, hall ▸ h.owned.cons _⟩
  | queueInLoop timer =>
    obtain ⟨hmem, heq⟩ := Machine.of_ite_eq_some hstep
    obtain rfl := Except.ok.inj heq
    refine ⟨h.sound, List.Perm.trans ?_ h.owned⟩
    show (s.allocating.erase timer ++ (s.pending ++ [timer])).Perm _
    rw [← List.append_assoc]
    refine (List.perm_append_singleton timer _).trans ?_
    exact (List.perm_cons_erase hmem).symm.append_right _
  | sequence timer =>
    obtain ⟨-, heq⟩ := Machine.of_ite_eq_some hstep
    unfold readSequence at heq
    split at heq
    · obtain rfl := Except.ok.inj heq
      exact ⟨h.sound, h.owned⟩
    · cases heq
  | addTimerInLoop clock =>
    simp only [Callers.step] at hstep
    split at hstep
    · rename_i timer pending hpass hpending
      obtain ⟨q, hq, heq⟩ := Option.map_eq_some_iff.mp hstep
      obtain rfl := Except.ok.inj heq
      refine ⟨h.sound.step hq, ?_⟩
      obtain ⟨t, timerfd, -, hmem, rfl⟩ := step_addTimerInLoop hq
      have howned := h.owned
      rw [hpending] at howned
      exact ((List.perm_middle.symm.trans howned).trans (List.perm_cons_erase hmem)).cons_inv
    · cases hstep
  | addTimer cb when interval clock =>
    obtain ⟨q, q', hq, hq', -, hall, heq⟩ := addTimerOnLoop_eq_some hstep
    obtain rfl := Except.ok.inj heq
    exact ⟨(h.sound.step hq).step hq', hall ▸ h.owned⟩
  | handleRead now =>
    obtain ⟨q, hq, heq⟩ := Option.map_eq_some_iff.mp hstep
    obtain rfl := Except.ok.inj heq
    obtain ⟨-, numCreated, -, rfl⟩ := step_handleRead hq
    exact h.queue (h.sound.step hq) rfl
  | runNext =>
    obtain ⟨q, hq, heq⟩ := Option.map_eq_some_iff.mp hstep
    obtain rfl := Except.ok.inj heq
    obtain ⟨now, called, timer, toCall, -, rfl⟩ := step_runNext hq
    exact h.queue (h.sound.step hq) rfl
  | handleReadEnd clock =>
    obtain ⟨q, hq, heq⟩ := Option.map_eq_some_iff.mp hstep
    obtain rfl := Except.ok.inj heq
    refine h.queue (h.sound.step hq) ?_
    obtain ⟨pass, heap, timers, timerfd, -, -, rfl, -⟩ := h.sound.handleReadEnd_spec hq
    rfl

/-- The end of a pass takes away the one-shot timers that it ran. -/
theorem Live.handleReadEnd (h : s.Inv) (hlive : s.Live) {clock : Timestamp}
    (hC : ReadsFirst s (.handleReadEnd clock)) (hq : s.queue.step (.handleReadEnd clock) = some q) :
    Live { s with queue := q } := by
  obtain ⟨pass, heap, timers, timerfd, hpass, hcalled, rfl, -, -, -, hother, hself, -⟩ :=
    h.sound.handleReadEnd_spec hq
  intro p hp
  obtain ⟨t, ht⟩ := hlive p hp
  by_cases hbatch : p ∈ s.queue.batch
  · have hrepeats : t.repeats = true := by
      by_contra hrep
      refine hC p ?_ t ht (by simpa using hrep) hp
      rw [← hcalled] at hbatch
      rwa [called, hpass]
    refine ⟨t.restart pass.now clock, (hself p hbatch t ht).trans ?_⟩
    rw [afterReset, if_pos hrepeats]
  · exact ⟨t, (hother p hbatch).trans ht⟩

theorem Live.step {a : Label C} (h : s.Inv) (hlive : s.Live) (hC : ReadsFirst s a)
    (hstep : s.step a = some r) : ∃ s', r = .ok s' ∧ s'.Live := by
  cases a with
  | newTimer cb when interval =>
    obtain ⟨q, hq, -, rfl⟩ := step_newTimer hstep
    exact ⟨_, rfl, fun p hp => exists_heap_newTimer hq (hlive p hp)⟩
  | queueInLoop timer =>
    obtain ⟨hmem, rfl⟩ := Machine.of_ite_eq_some hstep
    refine ⟨_, rfl, fun p hp => ?_⟩
    rcases List.mem_cons.mp hp with rfl | hp
    · have hall : p ∈ s.queue.allocated := h.owned.subset (List.mem_append_left _ hmem)
      exact h.sound.live p (mem_owned.mpr (Or.inr (Or.inr hall)))
    · exact hlive p hp
  | sequence timer =>
    obtain ⟨hmem, rfl⟩ := Machine.of_ite_eq_some hstep
    obtain ⟨t, ht⟩ := hlive timer hmem
    refine ⟨{ s with reading := s.reading.erase timer }, by simp only [readSequence, ht], ?_⟩
    exact fun p hp => hlive p (List.mem_of_mem_erase hp)
  | addTimerInLoop clock =>
    simp only [Callers.step] at hstep
    split at hstep
    · obtain ⟨q, hq, rfl⟩ := Option.map_eq_some_iff.mp hstep
      obtain ⟨t, timerfd, -, -, rfl⟩ := step_addTimerInLoop hq
      exact ⟨_, rfl, hlive⟩
    · cases hstep
  | addTimer cb when interval clock =>
    obtain ⟨q, q', hq, -, hheap, -, rfl⟩ := addTimerOnLoop_eq_some hstep
    refine ⟨_, rfl, fun p hp => ?_⟩
    show ∃ t, q'.heap p = some t
    rw [hheap]
    exact exists_heap_newTimer hq (hlive p (List.mem_of_mem_erase hp))
  | handleRead now =>
    obtain ⟨q, hq, rfl⟩ := Option.map_eq_some_iff.mp hstep
    obtain ⟨-, numCreated, -, rfl⟩ := step_handleRead hq
    exact ⟨_, rfl, hlive⟩
  | runNext =>
    obtain ⟨q, hq, rfl⟩ := Option.map_eq_some_iff.mp hstep
    obtain ⟨now, called, timer, toCall, -, rfl⟩ := step_runNext hq
    exact ⟨_, rfl, hlive⟩
  | handleReadEnd clock =>
    obtain ⟨q, hq, rfl⟩ := Option.map_eq_some_iff.mp hstep
    exact ⟨_, rfl, hlive.handleReadEnd h hC hq⟩

end Callers

/-- **`addTimer` reads only live timers, up to a pass that deletes them first**: in every run of calls from
any threads and of the loop, exactly the ends of passes that ran a one-shot timer whose caller has still to
read its sequence let `addTimer` read a timer that was deleted. -/
theorem sequence_read_exact (C : Type*) :
    (Callers.runs C).ExactCondition (Machine.AtOk Callers.ReadsFirst) (Machine.Holds fun _ => True)
      (.ok (Callers.new C)) := by
  refine Machine.ofExcept_exactCondition Callers.new_inv Callers.new_live (fun _ _ _ h hstep => h.step hstep)
    (fun _ _ _ h hlive hC hstep => hlive.step h hC hstep) (fun _ _ _ => trivial) ?_
  intro s a t h hC hstep
  cases a with
  | handleReadEnd clock =>
    obtain ⟨timer, hC⟩ := not_forall.mp hC
    obtain ⟨hcalled, hC⟩ := Classical.not_imp.mp hC
    obtain ⟨u, hC⟩ := not_forall.mp hC
    obtain ⟨hu, hC⟩ := Classical.not_imp.mp hC
    obtain ⟨hrepeats, hreading⟩ := Classical.not_imp.mp hC
    obtain ⟨q, hq, heq⟩ := Option.map_eq_some_iff.mp hstep
    obtain rfl := Except.ok.inj heq
    have hdeleted : q.heap timer = none := by
      obtain ⟨pass, heap, timers, timerfd, -, -, rfl, -, -, -, -, hself, -⟩ := h.sound.handleReadEnd_spec hq
      refine (hself timer (mem_batch.mpr (Or.inl hcalled)) u hu).trans ?_
      rw [afterReset, hrepeats, if_neg Bool.false_ne_true]
    refine ⟨.error (.deletedTimer timer), .of_step (a := .sequence timer) ?_, Machine.holds_error⟩
    rw [Machine.ofExcept_step_ok, Callers.step, if_pos (not_not.mp hreading), Callers.readSequence]
    simp only [hdeleted]
  | _ => exact absurd trivial hC

/-- A timer that is due at once is run and deleted before its caller reads the sequence. -/
theorem due_timer_deleted : ¬ ∀ as,
    (Callers.runs Nat).Always (Machine.Holds fun _ => True) (.ok (Callers.new Nat)) as := by
  intro h
  exact (h [.newTimer 7 5 0, .queueInLoop 0, .addTimerInLoop 9, .handleRead 10, .runNext, .handleReadEnd 11,
    .sequence 0]).last (t := .error (.deletedTimer 0)) rfl

end Siren.TimerQueue
