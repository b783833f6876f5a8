import Mathlib.Algebra.Order.Ring.Int
import Mathlib.Data.Rat.Defs
import Mathlib.Logic.Function.Basic
import Siren.Lib.KeyedSet
import Siren.Lib.Machine

/-!
# `TimerQueue`

`timers_` is a `std::set<Timer*, TimerCmp>`, and `TimerCmp` compares expirations only: two timers with
the same expiration are one element to the set, and `insert` drops the return value that says so.

A `Timer*` is the sequence number of the timer it points to. A pass of `handleRead` takes several
steps, so that callbacks may hand over timers between them: `handleRead` takes the expired timers out,
`runNext` runs the next callback, `handleReadEnd` is `reset`.

* `resetLoop_spec`: the loop of `reset` keeps what is in the set, and inserts all the repeating timers of
  the batch when their new expirations are fresh (`RestartsFresh`).
* `step_addTimerInLoop` and its siblings say what each step of a run does.
-/

namespace Siren

/-- A `std::chrono::system_clock::time_point`, in nanoseconds. -/
abbrev Timestamp := Int

/-- `static_cast<int64_t>` of a floating-point value. -/
def truncate (x : ℚ) : Int := x.num.tdiv x.den

/-- A `std::chrono::milliseconds` in nanoseconds. -/
def milliseconds (n : Int) : Int := n * 1000000

/-- A timer with a callback from `C`. -/
structure Timer (C : Type*) where
  callback : C
  expiration : Timestamp
  /-- In seconds. -/
  interval : ℚ
  /-- `repeat_` -/
  repeats : Bool
  sequence : Nat

/-- `Timer(cb, when, interval)` with the next sequence number. -/
def Timer.new {C : Type*} (cb : C) (when : Timestamp) (interval : ℚ) (sequence : Nat) : Timer C :=
  ⟨cb, when, interval, decide (0 < interval), sequence⟩

/-- `restart(now)`, when the system clock reads `clock`. -/
def Timer.restart {C : Type*} (t : Timer C) (now clock : Timestamp) : Timer C :=
  if t.repeats then { t with expiration := now + milliseconds (truncate (t.interval * 1000)) }
  else { t with expiration := clock }

section Restart

variable {C : Type*} (t : Timer C) (now clock : Timestamp)

@[simp] theorem Timer.restart_callback : (t.restart now clock).callback = t.callback := by
  unfold Timer.restart
  split <;> rfl

@[simp] theorem Timer.restart_repeats : (t.restart now clock).repeats = t.repeats := by
  unfold Timer.restart
  split <;> rfl

@[simp] theorem Timer.restart_sequence : (t.restart now clock).sequence = t.sequence := by
  unfold Timer.restart
  split <;> rfl

end Restart

/-- A pass of `handleRead`: its `now`, and its `expired` in two pieces. -/
structure Pass where
  now : Timestamp
  called : List Nat
  toCall : List Nat

structure Timespec where
  sec : Int
  nsec : Int
  deriving DecidableEq

structure TimerQueue (C : Type*) where
  /-- The timers that were allocated and not deleted. -/
  heap : Nat → Option (Timer C)
  /-- `Timer::s_numCreated_` -/
  numCreated : Nat
  /-- `timers_`, in the order of its iterators. -/
  timers : List Nat
  callingExpiredTimers : Bool
  /-- The last setting of `timerfd_`: when and to what. -/
  timerfd : Option (Timestamp × Timespec)
  /-- The timers that `addTimer` has allocated and not yet handed to `addTimerInLoop`. -/
  allocated : List Nat
  /-- The running pass of `handleRead`. -/
  pass : Option Pass
  /-- History: the timers handed to `addTimerInLoop`, as they were then. -/
  added : List (Timer C)
  /-- History: the timers whose callbacks were run. -/
  ran : List Nat

namespace TimerQueue

variable {C : Type*}

/-- A freshly constructed queue. -/
def new (C : Type*) : TimerQueue C where
  heap _ := none
  numCreated := 0
  timers := []
  callingExpiredTimers := false
  timerfd := none
  allocated := []
  pass := none
  added := []
  ran := []

/-! ### The functions of `TimerQueue.cpp` -/

/-- `timer->expiration()`, the key of `TimerCmp`. -/
def expiration (heap : Nat → Option (Timer C)) (timer : Nat) : Timestamp :=
  ((heap timer).map (·.expiration)).getD 0

/-- `howMuchTimeFromNow(when)`: `duration_cast` truncates towards zero. -/
def howMuchTimeFromNow (when clock : Timestamp) : Timespec :=
  let microseconds := (when - clock).tdiv 1000
  let minDelayMicroseconds := 100
  let microseconds := max microseconds minDelayMicroseconds
  ⟨(microseconds.tdiv 1000).tdiv 1000, microseconds.tmod (1000 * 1000) * 1000⟩

def resetTimerfd (q : TimerQueue C) (expiration clock : Timestamp) : TimerQueue C :=
  { q with timerfd := some (clock, howMuchTimeFromNow expiration clock) }

/-- `insert(timer)`: whether the earliest expiration changed; the result of the set is not looked at. -/
def insert (q : TimerQueue C) (timer : Nat) : TimerQueue C × Bool :=
  let when := expiration q.heap timer
  let earliestChanged := match q.timers with
    | [] => true
    | first :: _ => decide (when < expiration q.heap first)
  ({ q with timers := KeyedSet.insert (expiration q.heap) timer q.timers }, earliestChanged)

/-- `addTimerInLoop(timer)` -/
def addTimerInLoop (q : TimerQueue C) (timer : Nat) (clock : Timestamp) : TimerQueue C :=
  let (q, earliestChanged) := q.insert timer
  if earliestChanged then q.resetTimerfd (expiration q.heap timer) clock else q

/-- `getExpired(now)`: the timers before `upper_bound`; the sentry takes a sequence number. -/
def getExpired (q : TimerQueue C) (now : Timestamp) : TimerQueue C × List Nat :=
  if q.timers.isEmpty then (q, [])
  else
    ({ q with
        numCreated := q.numCreated + 1
        timers := q.timers.dropWhile (expiration q.heap · ≤ now) },
      q.timers.takeWhile (expiration q.heap · ≤ now))

/-- The body of the loop of `reset`, for the timer `t`. -/
def resetOne (q : TimerQueue C) (timer : Nat) (t : Timer C) (now clock : Timestamp) : TimerQueue C :=
  if t.repeats then
    let q := { q with heap := Function.update q.heap timer (some (t.restart now clock)) }
    (q.insert timer).1
  else { q with heap := Function.update q.heap timer none }

/-- The loop of `reset`. -/
def resetLoop (now clock : Timestamp) : List Nat → TimerQueue C → TimerQueue C
  | [], q => q
  | timer :: expired, q =>
    match q.heap timer with
    | none => resetLoop now clock expired q
    | some t => resetLoop now clock expired (q.resetOne timer t now clock)

/-- `reset(expired, now)` -/
def reset (q : TimerQueue C) (expired : List Nat) (now clock : Timestamp) : TimerQueue C :=
  let q := resetLoop now clock expired q
  match q.timers with
  | [] => q
  | first :: _ => q.resetTimerfd (expiration q.heap first) clock

/-! ### Runs of a queue -/

inductive Label (C : Type*) where
  /-- `addTimer` allocates a timer, on any thread. -/
  | newTimer (cb : C) (when : Timestamp) (interval : ℚ)
  /-- The loop runs the functor that `addTimer` passed on. -/
  | addTimerInLoop (timer : Nat) (clock : Timestamp)
  /-- `handleRead` begins: `now` is read and the expired timers are taken out. -/
  | handleRead (now : Timestamp)
  /-- The next expired timer is run. -/
  | runNext
  /-- `handleRead` ends with `reset`. -/
  | handleReadEnd (clock : Timestamp)

def step (q : TimerQueue C) : Label C → Option (TimerQueue C)
  | .newTimer cb when interval => some { q with
      heap := Function.update q.heap q.numCreated (some (Timer.new cb when interval q.numCreated))
      numCreated := q.numCreated + 1
      allocated := q.numCreated :: q.allocated }
  | .addTimerInLoop timer clock =>
    match q.heap timer with
    | some t =>
      if timer ∈ q.allocated then
        some (addTimerInLoop { q with
          allocated := q.allocated.erase timer, added := t :: q.added } timer clock)
      else none
    | none => none
  | .handleRead now =>
    match q.pass with
    | some _ => none
    | none =>
      let (q, expired) := q.getExpired now
      some { q with callingExpiredTimers := true, pass := some ⟨now, [], expired⟩ }
  | .runNext =>
    match q.pass with
    | some ⟨now, called, timer :: toCall⟩ =>
      some { q with pass := some ⟨now, called ++ [timer], toCall⟩, ran := timer :: q.ran }
    | _ => none
  | .handleReadEnd clock =>
    match q.pass with
    | some ⟨now, called, []⟩ =>
      some (reset { q with callingExpiredTimers := false, pass := none } called now clock)
    | _ => none

def runs (C : Type*) : Machine (TimerQueue C) (Label C) := ⟨step⟩

/-- The expired timers of the running pass that were run. -/
def called (q : TimerQueue C) : List Nat := (q.pass.map (·.called)).getD []

/-- The expired timers of the running pass that were not run yet. -/
def toCall (q : TimerQueue C) : List Nat := (q.pass.map (·.toCall)).getD []

/-- The expired batch of the running pass. -/
def batch (q : TimerQueue C) : List Nat := q.called ++ q.toCall

/-- The timers of a batch that `reset` inserts again. -/
def repeating (q : TimerQueue C) (expired : List Nat) : List Nat :=
  expired.filter fun timer => ((q.heap timer).map (·.repeats)).getD false

/-- The expiration that `reset` gives to a timer. -/
def restarted (q : TimerQueue C) (now clock : Timestamp) (timer : Nat) : Timestamp :=
  ((q.heap timer).map fun t => (t.restart now clock).expiration).getD 0

/-- The new expirations of the restarted timers are not in the set, and differ among each other. -/
def RestartsFresh (q : TimerQueue C) (expired : List Nat) (now clock : Timestamp) : Prop :=
  (q.timers.map (expiration q.heap) ++ (q.repeating expired).map (q.restarted now clock)).Nodup

/-! ### What the functions do -/

variable {q q' : TimerQueue C} {now clock : Timestamp}

/-- `addTimerInLoop` changes the set and the timerfd. -/
theorem addTimerInLoop_eq (q : TimerQueue C) (timer : Nat) (clock : Timestamp) :
    ∃ timerfd, q.addTimerInLoop timer clock =
      { q with timers := KeyedSet.insert (expiration q.heap) timer q.timers, timerfd } := by
  unfold addTimerInLoop
  split
  rename_i q₁ earliestChanged hinsert
  obtain ⟨rfl, -⟩ := Prod.mk.inj hinsert
  split
  · exact ⟨_, rfl⟩
  · exact ⟨_, rfl⟩

theorem reset_eq (q : TimerQueue C) (expired : List Nat) (now clock : Timestamp) :
    ∃ timerfd, q.reset expired now clock = { resetLoop now clock expired q with timerfd } := by
  simp only [reset]
  split
  · exact ⟨_, rfl⟩
  · exact ⟨_, rfl⟩

theorem getExpired_eq (q : TimerQueue C) (now : Timestamp) : ∃ numCreated, q.numCreated ≤ numCreated ∧
    q.getExpired now =
      ({ q with numCreated, timers := q.timers.dropWhile (expiration q.heap · ≤ now) },
        q.timers.takeWhile (expiration q.heap · ≤ now)) := by
  unfold getExpired
  split
  · rename_i hempty
    refine ⟨q.numCreated, le_rfl, ?_⟩
    rw [List.isEmpty_iff.mp hempty]
    cases q
    simp_all
  · exact ⟨q.numCreated + 1, Nat.le_succ _, rfl⟩

theorem expiration_congr {heap heap' : Nat → Option (Timer C)} {timer : Nat}
    (h : heap' timer = heap timer) : expiration heap' timer = expiration heap timer := by
  simp [expiration, h]

theorem mem_repeating {expired : List Nat} {timer : Nat} : timer ∈ q.repeating expired ↔
    timer ∈ expired ∧ ∃ t, q.heap timer = some t ∧ t.repeats = true := by
  cases h : q.heap timer <;> simp [repeating, h]

/-- What `reset` makes of an expired timer: a repeating one is restarted, a one-shot one deleted. -/
def afterReset (t : Timer C) (now clock : Timestamp) : Option (Timer C) :=
  if t.repeats then some (t.restart now clock) else none

theorem repeating_cons {expired : List Nat} {p : Nat} {t : Timer C} (hp : q.heap p = some t) :
    q.repeating (p :: expired) = if t.repeats then p :: q.repeating expired else q.repeating expired := by
  cases hrep : t.repeats <;> simp [repeating, hp, hrep]

theorem repeating_congr {expired : List Nat} (h : ∀ p ∈ expired, q'.heap p = q.heap p) :
    q'.repeating expired = q.repeating expired := by
  refine List.filter_congr fun p hp => ?_
  rw [h p hp]

theorem restarted_congr {timers : List Nat} (h : ∀ p ∈ timers, q'.heap p = q.heap p) :
    timers.map (q'.restarted now clock) = timers.map (q.restarted now clock) := by
  refine List.map_congr_left fun p hp => ?_
  rw [restarted, h p hp, restarted]

section resetOne

variable {p : Nat} {t : Timer C}

theorem resetOne_heap : (q.resetOne p t now clock).heap =
    Function.update q.heap p (afterReset t now clock) := by
  unfold resetOne afterReset
  split <;> rfl

theorem resetOne_heap_of_ne {r : Nat} (h : r ≠ p) : (q.resetOne p t now clock).heap r = q.heap r := by
  rw [resetOne_heap, Function.update_of_ne h]

theorem resetOne_timers : (q.resetOne p t now clock).timers =
    if t.repeats then KeyedSet.insert (expiration (q.resetOne p t now clock).heap) p q.timers
    else q.timers := by
  unfold resetOne
  split <;> rfl

theorem resetOne_eq : q.resetOne p t now clock = { q with
    heap := (q.resetOne p t now clock).heap, timers := (q.resetOne p t now clock).timers } := by
  unfold resetOne
  split <;> rfl

theorem resetOne_expiration (t : Timer C) (now clock : Timestamp) (hp : p ∉ q.timers) : ∀ r ∈ q.timers,
    expiration (q.resetOne p t now clock).heap r = expiration q.heap r :=
  fun _ hr => expiration_congr (resetOne_heap_of_ne (ne_of_mem_of_not_mem hr hp))

theorem resetOne_sorted (hsorted : KeyedSet.Sorted (expiration q.heap) q.timers) (hp : p ∉ q.timers) :
    KeyedSet.Sorted (expiration (q.resetOne p t now clock).heap) (q.resetOne p t now clock).timers := by
  have hkeys := hsorted.congr (resetOne_expiration t now clock hp)
  rw [resetOne_timers]
  split
  · exact hkeys.insert
  · exact hkeys

theorem subset_resetOne : q.timers ⊆ (q.resetOne p t now clock).timers := by
  rw [resetOne_timers]
  split
  · exact KeyedSet.subset_insert
  · exact List.Subset.refl _

theorem mem_of_mem_resetOne {r : Nat} (hr : r ∈ (q.resetOne p t now clock).timers) :
    r ∈ q.timers ∨ r = p ∧ t.repeats = true := by
  rw [resetOne_timers] at hr
  split at hr
  · rename_i hrep
    exact (KeyedSet.mem_of_mem_insert hr).symm.imp_right fun h => ⟨h, hrep⟩
  · exact Or.inl hr

/-- The set takes a repeating timer when its new expiration is not there; what is left of the batch is
then still fresh. -/
theorem resetOne_fresh {expired : List Nat} (hp : p ∉ q.timers) (hpe : p ∉ expired)
    (ht : q.heap p = some t) (hfresh : q.RestartsFresh (p :: expired) now clock) :
    (t.repeats = true → p ∈ (q.resetOne p t now clock).timers) ∧
      (q.resetOne p t now clock).RestartsFresh expired now clock := by
  have hkeys := resetOne_expiration t now clock hp
  have hrest : ∀ r ∈ expired, (q.resetOne p t now clock).heap r = q.heap r :=
    fun r hr => resetOne_heap_of_ne (ne_of_mem_of_not_mem hr hpe)
  have hnew : (q.repeating expired).map ((q.resetOne p t now clock).restarted now clock) =
      (q.repeating expired).map (q.restarted now clock) :=
    restarted_congr fun r hr => hrest r (List.mem_filter.mp hr).1
  rw [RestartsFresh, repeating_cons ht] at hfresh
  rw [RestartsFresh, repeating_congr hrest, hnew]
  cases hrep : t.repeats with
  | false =>
    rw [hrep, if_neg Bool.false_ne_true] at hfresh
    rw [resetOne_timers, hrep, if_neg Bool.false_ne_true, List.map_congr_left hkeys]
    exact ⟨fun h => absurd h Bool.false_ne_true, hfresh⟩
  | true =>
    have hkey : expiration (q.resetOne p t now clock).heap p = q.restarted now clock p := by
      simp [expiration, resetOne_heap, afterReset, hrep, restarted, ht]
    rw [hrep, if_pos rfl, List.map_cons, List.nodup_middle] at hfresh
    have hperm : (q.resetOne p t now clock).timers.Perm (p :: q.timers) := by
      rw [resetOne_timers, hrep, if_pos rfl]
      refine KeyedSet.insert_perm fun r hr heq => (List.nodup_cons.mp hfresh).1 ?_
      refine List.mem_append_left _ (List.mem_map.mpr ⟨r, hr, ?_⟩)
      rw [← hkeys r hr, heq, hkey]
    have hmap := hperm.map (expiration (q.resetOne p t now clock).heap)
    rw [List.map_cons, hkey, List.map_congr_left hkeys] at hmap
    exact ⟨fun _ => hperm.mem_iff.mpr List.mem_cons_self,
      (hmap.append_right _).nodup_iff.mpr hfresh⟩

end resetOne

/-- The loop of `reset` keeps what is in the set, inserts some of the repeating timers and, when their
new expirations are fresh, all of them. -/
theorem resetLoop_spec {expired : List Nat} (now clock : Timestamp)
    (hsorted : KeyedSet.Sorted (expiration q.heap) q.timers) (hnodup : expired.Nodup)
    (hapart : ∀ p ∈ expired, p ∉ q.timers)
    (hlive : ∀ p ∈ expired, ∃ t, q.heap p = some t) :
    ∃ heap timers, resetLoop now clock expired q = { q with heap, timers } ∧
      KeyedSet.Sorted (expiration heap) timers ∧ q.timers ⊆ timers ∧
      timers ⊆ q.timers ++ q.repeating expired ∧
      (∀ p, p ∉ expired → heap p = q.heap p) ∧
      (∀ p ∈ expired, ∀ t, q.heap p = some t → heap p = afterReset t now clock) ∧
      (q.RestartsFresh expired now clock → q.repeating expired ⊆ timers) := by
  induction expired generalizing q with
  | nil =>
    exact ⟨q.heap, q.timers, rfl, hsorted, List.Subset.refl _, by simp, by simp, by simp,
      by simp [repeating]⟩
  | cons p expired ih =>
    obtain ⟨hpe, hnodup⟩ := List.nodup_cons.mp hnodup
    obtain ⟨t, ht⟩ := hlive p List.mem_cons_self
    have hp : p ∉ q.timers := hapart p List.mem_cons_self
    have hrest : ∀ r ∈ expired, (q.resetOne p t now clock).heap r = q.heap r :=
      fun r hr => resetOne_heap_of_ne (ne_of_mem_of_not_mem hr hpe)
    have hapart' : ∀ r ∈ expired, r ∉ (q.resetOne p t now clock).timers := by
      intro r hr hmem
      rcases mem_of_mem_resetOne hmem with hmem | ⟨rfl, -⟩
      · exact hapart r (List.mem_cons_of_mem _ hr) hmem
      · exact hpe hr
    have hlive' : ∀ r ∈ expired, ∃ u, (q.resetOne p t now clock).heap r = some u := by
      intro r hr
      rw [hrest r hr]
      exact hlive r (List.mem_cons_of_mem _ hr)
    obtain ⟨heap, timers, heq, hs, hkeep, honly, hother, hself, hall⟩ :=
      ih (resetOne_sorted hsorted hp) hnodup hapart' hlive'
    rw [repeating_congr hrest] at honly hall
    refine ⟨heap, timers, ?_, hs, fun r hr => hkeep (subset_resetOne hr), ?_, ?_, ?_, ?_⟩
    · rw [resetLoop, ht]
      show resetLoop now clock expired (q.resetOne p t now clock) = _
      rw [heq, resetOne_eq]
    · intro r hr
      rw [repeating_cons ht]
      rcases List.mem_append.mp (honly hr) with hr | hr
      · rcases mem_of_mem_resetOne hr with hr | ⟨rfl, hrep⟩
        · exact List.mem_append_left _ hr
        · simp [hrep]
      · refine List.mem_append_right _ ?_
        split
        · exact List.mem_cons_of_mem _ hr
        · exact hr
    · intro r hr
      rw [List.mem_cons, not_or] at hr
      rw [hother r hr.2, resetOne_heap_of_ne hr.1]
    · intro r hr u hu
      rcases List.mem_cons.mp hr with rfl | hr
      · obtain rfl : t = u := Option.some.inj (ht.symm.trans hu)
        rw [hother r hpe, resetOne_heap, Function.update_self]
      · exact hself r hr u ((hrest r hr).trans hu)
    · intro hfresh
      obtain ⟨hmem, hfresh⟩ := resetOne_fresh hp hpe ht hfresh
      rw [repeating_cons ht]
      split
      · rename_i hrep
        exact List.cons_subset.mpr ⟨hkeep (hmem hrep), hall hfresh⟩
      · exact hall hfresh

/-! ### What each step does -/

theorem step_addTimerInLoop {timer : Nat} (h : q.step (.addTimerInLoop timer clock) = some q') :
    ∃ t timerfd, q.heap timer = some t ∧ timer ∈ q.allocated ∧ q' = { q with
      timers := KeyedSet.insert (expiration q.heap) timer q.timers
      timerfd
      allocated := q.allocated.erase timer
      added := t :: q.added } := by
  simp only [step] at h
  split at h
  · rename_i t ht
    rw [Option.ite_none_right_eq_some] at h
    obtain ⟨timerfd, heq⟩ := addTimerInLoop_eq { q with
      allocated := q.allocated.erase timer, added := t :: q.added } timer clock
    exact ⟨t, timerfd, ht, h.1, (Option.some.inj h.2).symm.trans heq⟩
  · cases h

theorem step_handleRead (h : q.step (.handleRead now) = some q') :
    q.pass = none ∧ ∃ numCreated, q.numCreated ≤ numCreated ∧ q' = { q with
      numCreated
      timers := q.timers.dropWhile (expiration q.heap · ≤ now)
      callingExpiredTimers := true
      pass := some ⟨now, [], q.timers.takeWhile (expiration q.heap · ≤ now)⟩ } := by
  simp only [step] at h
  split at h
  · cases h
  · rename_i hpass
    obtain ⟨numCreated, hle, heq⟩ := getExpired_eq q now
    rw [heq] at h
    exact ⟨hpass, numCreated, hle, (Option.some.inj h).symm⟩

theorem step_runNext (h : q.step .runNext = some q') :
    ∃ now called timer toCall, q.pass = some ⟨now, called, timer :: toCall⟩ ∧ q' = { q with
      pass := some ⟨now, called ++ [timer], toCall⟩
      ran := timer :: q.ran } := by
  simp only [step] at h
  split at h
  · rename_i now called timer toCall hpass
    exact ⟨now, called, timer, toCall, hpass, (Option.some.inj h).symm⟩
  · cases h

theorem step_handleReadEnd (h : q.step (.handleReadEnd clock) = some q') :
    ∃ now called timerfd, q.pass = some ⟨now, called, []⟩ ∧ q' =
      { resetLoop now clock called { q with callingExpiredTimers := false, pass := none } with timerfd } := by
  simp only [step] at h
  split at h
  · rename_i now called hpass
    obtain ⟨timerfd, heq⟩ :=
      reset_eq { q with callingExpiredTimers := false, pass := none } called now clock
    exact ⟨now, called, timerfd, hpass, (Option.some.inj h).symm.trans heq⟩
  · cases h

end TimerQueue

end Siren
