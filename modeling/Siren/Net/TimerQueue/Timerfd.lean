import Siren.Net.TimerQueue.Pass

/-!
# The timerfd

`Clocked` puts a queue beside the kernel's timer. The system clock and the clock of the timerfd advance
together, so that one reading serves both; `tick` lets time pass at any point, also in the middle of a pass.
Times are integers of any size: the differences that the source takes do not overflow.

* `howMuchTimeFromNow_valid`: no setting disarms the timer, and none is refused.
* `Clocked.Inv.step`: each step keeps the timer set to go off in time for the first timer of the set.
* `timerfd_armed`: so it is in every run.
-/

namespace Siren

/-! ### What the kernel does -/

/-- The values that `timerfd_settime` takes. -/
def Timespec.Valid (value : Timespec) : Prop := 0 ≤ value.sec ∧ 0 ≤ value.nsec ∧ value.nsec < 1000000000

instance (value : Timespec) : Decidable value.Valid := instDecidableAnd

/-- The zero value, which disarms the timer. -/
def Timespec.zero : Timespec := ⟨0, 0⟩

/-- In nanoseconds. -/
def Timespec.duration (value : Timespec) : Int := value.sec * 1000000000 + value.nsec

/-- `timerfd_settime(timerfd, 0, value)` at `clock`, on a timer that goes off at `expiry`. -/
def settime (expiry : Option Timestamp) (value : Timespec) (clock : Timestamp) : Option Timestamp :=
  if value.Valid then
    if value = .zero then none else some (clock + value.duration)
  else expiry

/-- `readTimerfd`: a timer that has gone off is read and is disarmed; from one that has not there is nothing
to read. -/
def readTimerfd (expiry : Option Timestamp) (clock : Timestamp) : Option Timestamp :=
  expiry.filter (clock < ·)

theorem settime_of_valid {value : Timespec} (hvalid : value.Valid) (hzero : value ≠ .zero)
    (expiry : Option Timestamp) (clock : Timestamp) :
    settime expiry value clock = some (clock + value.duration) := by
  rw [settime, if_pos hvalid, if_neg hzero]

namespace TimerQueue

/-- `duration_cast` to microseconds takes something off a span that is ahead, and the minimal delay is added
only to shorter ones. -/
theorem microseconds_le (d : Int) : max (d.tdiv 1000) 100 * 1000 ≤ max d 100000 := by
  by_cases hpos : 0 ≤ d
  · have hle : 1000 * d.tdiv 1000 ≤ d := Int.mul_tdiv_self_le hpos
    omega
  · have hle : d.tdiv 1000 ≤ (0 : Int).tdiv 1000 := Int.tdiv_le_tdiv (by omega) (by omega)
    rw [Int.zero_tdiv] at hle
    omega

/-- The microseconds to the expiration, at least the minimal delay, as whole seconds and the rest. -/
theorem howMuchTimeFromNow_eq (when clock : Timestamp) :
    ∃ n : Int, n = max ((when - clock).tdiv 1000) 100 ∧
      howMuchTimeFromNow when clock = ⟨n / 1000 / 1000, n % (1000 * 1000) * 1000⟩ := by
  obtain ⟨n, hn⟩ : ∃ n : Int, n = max ((when - clock).tdiv 1000) 100 := ⟨_, rfl⟩
  have hle : 100 ≤ n := hn ▸ le_max_right _ _
  have hthousand : n.tdiv 1000 = n / 1000 := Int.tdiv_eq_ediv_of_nonneg (by omega)
  have hsec : (n / 1000).tdiv 1000 = n / 1000 / 1000 := Int.tdiv_eq_ediv_of_nonneg (by omega)
  have hnsec : n.tmod (1000 * 1000) = n % (1000 * 1000) := Int.tmod_eq_emod_of_nonneg (by omega)
  refine ⟨n, hn, ?_⟩
  rw [← hsec, ← hthousand, ← hnsec, hn]
  rfl

theorem howMuchTimeFromNow_valid (when clock : Timestamp) :
    (howMuchTimeFromNow when clock).Valid ∧ howMuchTimeFromNow when clock ≠ .zero := by
  obtain ⟨n, hn, hvalue⟩ := howMuchTimeFromNow_eq when clock
  have hle : 100 ≤ n := hn ▸ le_max_right _ _
  simp only [hvalue, Timespec.Valid, Timespec.zero, ne_eq, Timespec.mk.injEq]
  omega

/-- The timer goes off no later than the expiration, but not before the minimal delay. -/
theorem howMuchTimeFromNow_le (when clock : Timestamp) :
    clock + (howMuchTimeFromNow when clock).duration ≤ max when (clock + 100000) := by
  obtain ⟨n, hn, hvalue⟩ := howMuchTimeFromNow_eq when clock
  have hge : 100 ≤ n := hn ▸ le_max_right _ _
  have hduration : (howMuchTimeFromNow when clock).duration = n * 1000 := by
    simp only [hvalue, Timespec.duration]
    omega
  have hle : n * 1000 ≤ max (when - clock) 100000 := hn ▸ microseconds_le (when - clock)
  calc clock + (howMuchTimeFromNow when clock).duration
      ≤ clock + max (when - clock) 100000 := by
        rw [hduration]
        exact Int.add_le_add_left hle clock
    _ = max when (clock + 100000) := by rw [← max_add_add_left, add_sub_cancel]

/-! ### A queue, its timerfd and the clock -/

structure Clocked (C : Type*) where
  queue : TimerQueue C
  clock : Timestamp
  /-- When the timerfd goes off or has gone off; `none` when it is disarmed. -/
  expiry : Option Timestamp
  /-- History: when `resetTimerfd` was called and what it passed to `timerfd_settime`, the last call first. -/
  settings : List (Timestamp × Timespec)

namespace Clocked

def new (C : Type*) (clock : Timestamp) : Clocked C := ⟨TimerQueue.new C, clock, none, []⟩

/-- The kernel is given what the queue passed to `timerfd_settime`. -/
def settled (s : Clocked C) (queue : TimerQueue C) : Clocked C :=
  match queue.timerfd with
  | none => { s with queue }
  | some (clock, value) => { s with
      queue, expiry := settime s.expiry value s.clock, settings := (clock, value) :: s.settings }

/-- A step of the queue: its `timerfd` is cleared first, and then tells whether the step made a setting. -/
def take (s : Clocked C) (a : TimerQueue.Label C) : Option (Clocked C) :=
  (TimerQueue.step { s.queue with timerfd := none } a).map s.settled

inductive Label (C : Type*) where
  /-- Time passes. -/
  | tick (d : Nat)
  | newTimer (cb : C) (when : Timestamp) (interval : ℚ)
  | addTimerInLoop (timer : Nat)
  | handleRead
  | runNext
  | handleReadEnd

def step (s : Clocked C) : Label C → Option (Clocked C)
  | .tick d => some { s with clock := s.clock + d }
  | .newTimer cb when interval => s.take (.newTimer cb when interval)
  | .addTimerInLoop timer => s.take (.addTimerInLoop timer s.clock)
  | .handleRead => take { s with expiry := readTimerfd s.expiry s.clock } (.handleRead s.clock)
  | .runNext => s.take .runNext
  | .handleReadEnd => s.take (.handleReadEnd s.clock)

def runs (C : Type*) : Machine (Clocked C) (Label C) := ⟨step⟩

end Clocked

/-- Outside a pass the timerfd is set, or readable, for the first timer of the set; and no setting was one
that disarms the timer or that the kernel refuses. -/
structure ArmedForEarliest (s : Clocked C) : Prop where
  valid : ∀ setting ∈ s.settings, setting.2.Valid ∧ setting.2 ≠ .zero
  armed : s.queue.pass = none → ∀ first rest, s.queue.timers = first :: rest →
    ∃ expiry reset value earlier, s.expiry = some expiry ∧ s.settings = (reset, value) :: earlier ∧
      expiry ≤ max (expiration s.queue.heap first) (reset + 100000)

structure Clocked.Inv (s : Clocked C) : Prop where
  sound : Sound s.queue
  armed : ArmedForEarliest s

/-! ### Which steps set the timer -/

variable {q q' : TimerQueue C} {timer : Nat} {now clock : Timestamp}

theorem Sound.cleared (h : Sound q) : Sound { q with timerfd := none } :=
  ⟨h.sorted, h.nodup, h.live, h.created⟩

/-- `addTimerInLoop` sets the timer when the new timer comes first; otherwise another one stays first. -/
theorem addTimerInLoop_timerfd (q : TimerQueue C) (timer : Nat) (clock : Timestamp) :
    ∃ timers timerfd, q.addTimerInLoop timer clock = { q with timers, timerfd } ∧
      ((timers = timer :: q.timers ∧
        timerfd = some (clock, howMuchTimeFromNow (expiration q.heap timer) clock)) ∨
      timerfd = q.timerfd ∧ ∃ first rest rest', q.timers = first :: rest ∧ timers = first :: rest') := by
  obtain ⟨timerfd, heq⟩ := addTimerInLoop_eq q timer clock
  have hset : (q.addTimerInLoop timer clock).timerfd = timerfd := by rw [heq]
  refine ⟨_, timerfd, heq, ?_⟩
  rw [← hset]
  cases htimers : q.timers with
  | nil => simp [addTimerInLoop, TimerQueue.insert, htimers, KeyedSet.insert, resetTimerfd]
  | cons first rest =>
    by_cases hlt : expiration q.heap timer < expiration q.heap first
    · left
      simp [addTimerInLoop, TimerQueue.insert, htimers, KeyedSet.insert, resetTimerfd, hlt]
    · right
      obtain ⟨rest', hrest⟩ := KeyedSet.insert_cons_of_not_lt (l := rest) hlt
      refine ⟨?_, first, rest, rest', rfl, hrest⟩
      simp [addTimerInLoop, TimerQueue.insert, htimers, hlt]

theorem resetLoop_timerfd {expired : List Nat} : (resetLoop now clock expired q).timerfd = q.timerfd := by
  induction expired generalizing q with
  | nil => rfl
  | cons p expired ih =>
    rw [resetLoop]
    split
    · exact ih
    · rw [ih, resetOne_eq]

/-- `reset` sets the timer for the first timer of the set, when there is one. -/
theorem reset_timerfd (q : TimerQueue C) (expired : List Nat) (now clock : Timestamp) :
    (q.reset expired now clock).timers = [] ∧ (q.reset expired now clock).timerfd = q.timerfd ∨
    ∃ first rest, (q.reset expired now clock).timers = first :: rest ∧ (q.reset expired now clock).timerfd =
      some (clock, howMuchTimeFromNow (expiration (q.reset expired now clock).heap first) clock) := by
  simp only [reset]
  split
  · rename_i hempty
    exact Or.inl ⟨hempty, resetLoop_timerfd⟩
  · rename_i first rest hcons
    exact Or.inr ⟨first, rest, hcons, rfl⟩

namespace Clocked

variable {s s' : Clocked C} {queue : TimerQueue C}

theorem settled_of_none (h : queue.timerfd = none) : s.settled queue = { s with queue } := by
  rw [settled, h]

theorem settled_of_some {value : Timespec} (h : queue.timerfd = some (clock, value)) :
    s.settled queue = { s with
      queue, expiry := settime s.expiry value s.clock, settings := (clock, value) :: s.settings } := by
  rw [settled, h]

/-- A setting for the first timer of the set. -/
theorem Inv.settle (h : s.Inv) (hsound : Sound queue) {first : Nat} {rest : List Nat}
    (htimers : queue.timers = first :: rest) (htimerfd : queue.timerfd =
      some (s.clock, howMuchTimeFromNow (expiration queue.heap first) s.clock)) :
    (s.settled queue).Inv := by
  obtain ⟨hvalid, hzero⟩ := howMuchTimeFromNow_valid (expiration queue.heap first) s.clock
  rw [settled_of_some htimerfd]
  refine ⟨hsound, ?_, ?_⟩
  · rintro setting (_ | ⟨_, hmem⟩)
    · exact ⟨hvalid, hzero⟩
    · exact h.armed.valid setting hmem
  · intro _ first' rest' hfirst
    obtain ⟨rfl, rfl⟩ := List.cons.inj (htimers.symm.trans hfirst)
    refine ⟨_, s.clock, _, s.settings, settime_of_valid hvalid hzero .., rfl, ?_⟩
    exact howMuchTimeFromNow_le ..

/-- A step that makes no setting, and leaves the first timer as it is or goes on inside a pass. -/
theorem Inv.keep (h : s.Inv) (hsound : Sound queue) (htimerfd : queue.timerfd = none)
    (harmed : queue.pass = none → ∀ first rest, queue.timers = first :: rest → s.queue.pass = none ∧
      (∃ rest', s.queue.timers = first :: rest') ∧ expiration queue.heap first = expiration s.queue.heap first) :
    (s.settled queue).Inv := by
  rw [settled_of_none htimerfd]
  refine ⟨hsound, h.armed.valid, fun hpass first rest hfirst => ?_⟩
  obtain ⟨hpass', ⟨rest', htimers⟩, hkey⟩ := harmed hpass first rest hfirst
  obtain ⟨expiry, reset, value, earlier, hexpiry, hsettings, hle⟩ := h.armed.armed hpass' first rest' htimers
  exact ⟨expiry, reset, value, earlier, hexpiry, hsettings, hkey ▸ hle⟩

theorem take_eq_some {a : TimerQueue.Label C} (h : s.take a = some s') : ∃ queue,
    TimerQueue.step { s.queue with timerfd := none } a = some queue ∧ s' = s.settled queue := by
  obtain ⟨queue, hstep, heq⟩ := Option.map_eq_some_iff.mp h
  exact ⟨queue, hstep, heq.symm⟩

theorem Inv.newTimer (h : s.Inv) {cb : C} {when : Timestamp} {interval : ℚ}
    (hstep : s.take (.newTimer cb when interval) = some s') : s'.Inv := by
  obtain ⟨queue, hqueue, rfl⟩ := take_eq_some hstep
  have hsound := h.sound.cleared.step hqueue
  obtain rfl := Option.some.inj hqueue
  refine h.keep hsound rfl fun hpass first rest htimers => ⟨hpass, ⟨rest, htimers⟩, ?_⟩
  have howned : first ∈ s.queue.owned := mem_owned.mpr (Or.inl (htimers ▸ List.mem_cons_self))
  exact expiration_congr (h.sound.heap_newTimer howned _)

theorem Inv.addTimerInLoop (h : s.Inv) {timer : Nat}
    (hstep : s.take (.addTimerInLoop timer s.clock) = some s') : s'.Inv := by
  obtain ⟨queue, hqueue, rfl⟩ := take_eq_some hstep
  have hsound := h.sound.cleared.step hqueue
  simp only [TimerQueue.step] at hqueue
  split at hqueue
  · rename_i t ht
    obtain ⟨hall, rfl⟩ := Machine.of_ite_eq_some hqueue
    obtain ⟨timers, timerfd, heq, hset⟩ := addTimerInLoop_timerfd { s.queue with
      timerfd := none, allocated := s.queue.allocated.erase timer, added := t :: s.queue.added } timer s.clock
    rw [heq] at hsound ⊢
    rcases hset with ⟨rfl, rfl⟩ | ⟨rfl, first, rest, rest', htimers, rfl⟩
    · exact h.settle hsound rfl rfl
    · refine h.keep hsound rfl fun hpass first' _ hfirst => ⟨hpass, ⟨rest, ?_⟩, rfl⟩
      obtain ⟨rfl, -⟩ := List.cons.inj hfirst
      exact htimers
  · cases hqueue

theorem Inv.handleRead (h : s.Inv)
    (hstep : take { s with expiry := readTimerfd s.expiry s.clock } (.handleRead s.clock) = some s') :
    s'.Inv := by
  obtain ⟨queue, hqueue, rfl⟩ := take_eq_some hstep
  have hsound := h.sound.cleared.step hqueue
  obtain ⟨-, numCreated, -, rfl⟩ := step_handleRead hqueue
  exact ⟨hsound, h.armed.valid, fun hpass => by cases hpass⟩

theorem Inv.runNext (h : s.Inv) (hstep : s.take .runNext = some s') : s'.Inv := by
  obtain ⟨queue, hqueue, rfl⟩ := take_eq_some hstep
  have hsound := h.sound.cleared.step hqueue
  obtain ⟨now, called, timer, toCall, -, rfl⟩ := step_runNext hqueue
  exact h.keep hsound rfl fun hpass => by cases hpass

theorem Inv.handleReadEnd (h : s.Inv) (hstep : s.take (.handleReadEnd s.clock) = some s') : s'.Inv := by
  obtain ⟨queue, hqueue, rfl⟩ := take_eq_some hstep
  have hsound := h.sound.cleared.step hqueue
  simp only [TimerQueue.step] at hqueue
  split at hqueue
  · rename_i now called hpass
    obtain rfl := Option.some.inj hqueue
    rcases reset_timerfd { s.queue with timerfd := none, callingExpiredTimers := false, pass := none }
      called now s.clock with ⟨hempty, htimerfd⟩ | ⟨first, rest, htimers, htimerfd⟩
    · refine h.keep hsound htimerfd fun _ first rest hcons => ?_
      cases hempty.symm.trans hcons
    · exact h.settle hsound htimers htimerfd
  · cases hqueue

theorem Inv.step {a : Label C} (h : s.Inv) (hstep : s.step a = some s') : s'.Inv := by
  cases a with
  | tick d =>
    obtain rfl := Option.some.inj hstep
    exact ⟨h.sound, h.armed.valid, h.armed.armed⟩
  | newTimer cb when interval => exact h.newTimer hstep
  | addTimerInLoop timer => exact h.addTimerInLoop hstep
  | handleRead => exact h.handleRead hstep
  | runNext => exact h.runNext hstep
  | handleReadEnd => exact h.handleReadEnd hstep

theorem new_inv (C : Type*) (clock : Timestamp) : (Clocked.new C clock).Inv := by
  refine ⟨new_sound, ?_, ?_⟩
  · intro setting hmem
    cases hmem
  · intro _ first rest htimers
    cases htimers

end Clocked

/-- **The timerfd is always set for the earliest timer**: in every run of a queue on its clocks, whatever
timers are added from callbacks and from other threads, at whatever distance in the past or in the future,
in every state outside a pass in which `timers_` is not empty the timerfd goes off, or has gone off, by the
first expiration or a hundred microseconds after it was last set; and every value it is set to is valid and
does not disarm it. -/
theorem timerfd_armed (clock : Timestamp) (as : List (Clocked.Label C)) :
    (Clocked.runs C).Always ArmedForEarliest (Clocked.new C clock) as :=
  (Machine.Always.of_step (Clocked.new_inv C clock) fun _ _ _ h hstep => h.step hstep).mono
    fun _ h => h.armed

end TimerQueue

end Siren
