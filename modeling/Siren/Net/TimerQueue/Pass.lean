import Siren.Net.TimerQueue.Basic

/-!
# One pass of `handleRead`

A pass takes the due timers out of `timers_`, runs them, and `reset` restarts the repeating ones while they
are in no set. Callbacks and other threads may add timers at any point in between: they come into `timers_`
only, and what is there and not due is not touched.

* `Sound` holds in every state of every run, whatever insertions are refused.
* `Sound.handleReadEnd_spec` says what the end of a pass does to the set and to the timers.
* `handleRead_runs_due`: a pass runs exactly the timers that were due when it began, in order.
-/

namespace Siren.TimerQueue

variable {C : Type*}

/-- Every timer that is not deleted: in the set, in the batch or not handed over yet. -/
def owned (q : TimerQueue C) : List Nat := q.timers ++ q.batch ++ q.allocated

/-- The set is in the order of the expirations its timers have, and the timers that are owned are there,
each in one place. -/
structure Sound (q : TimerQueue C) : Prop where
  sorted : KeyedSet.Sorted (expiration q.heap) q.timers
  nodup : q.owned.Nodup
  live : ∀ p ∈ q.owned, ∃ t, q.heap p = some t
  created : ∀ p ∈ q.owned, p < q.numCreated

/-- The timers in the set that are due at `now`, the earliest first. -/
def due (q : TimerQueue C) (now : Timestamp) : List Nat := q.timers.filter (expiration q.heap · ≤ now)

theorem new_sound : Sound (new C) where
  sorted := KeyedSet.sorted_nil
  nodup := List.nodup_nil
  live := by simp [owned, batch, called, toCall, new]
  created := by simp [owned, batch, called, toCall, new]

variable {q q' r r' : TimerQueue C} {clock now : Timestamp}

theorem mem_owned {p : Nat} : p ∈ q.owned ↔ p ∈ q.timers ∨ p ∈ q.batch ∨ p ∈ q.allocated := by
  simp [owned]

theorem mem_batch {p : Nat} : p ∈ q.batch ↔ p ∈ q.called ∨ p ∈ q.toCall := by
  simp [batch]

theorem batch_of_pass {called toCall : List Nat} (h : q.pass = some ⟨now, called, toCall⟩) :
    q.batch = called ++ toCall := by
  simp [batch, TimerQueue.called, TimerQueue.toCall, h]

theorem batch_of_none (h : q.pass = none) : q.batch = [] := by
  simp [batch, called, toCall, h]

/-- The three places are apart. -/
theorem Sound.apart (h : Sound q) :
    q.batch.Nodup ∧ (∀ p ∈ q.batch, p ∉ q.timers) ∧ (∀ p ∈ q.allocated, p ∉ q.timers ∧ p ∉ q.batch) := by
  obtain ⟨hnodup, -, hleft⟩ := List.nodup_append.mp h.nodup
  obtain ⟨-, hbatch, hright⟩ := List.nodup_append.mp hnodup
  refine ⟨hbatch, fun p hp hmem => hright p hmem p hp rfl, fun p hp => ⟨fun hmem => ?_, fun hmem => ?_⟩⟩
  · exact hleft p (List.mem_append_left _ hmem) p hp rfl
  · exact hleft p (List.mem_append_right _ hmem) p hp rfl

/-! ### Steps -/

/-- A new timer leaves those that are owned alone. -/
theorem Sound.heap_newTimer (h : Sound q) {p : Nat} (hp : p ∈ q.owned) (t : Timer C) :
    Function.update q.heap q.numCreated (some t) p = q.heap p :=
  Function.update_of_ne (h.created p hp).ne ..

theorem owned_newTimer {cb : C} {when : Timestamp} {interval : ℚ}
    (hstep : q.step (.newTimer cb when interval) = some q') (p : Nat) :
    p ∈ q'.owned ↔ p = q.numCreated ∨ p ∈ q.owned := by
  obtain rfl := Option.some.inj hstep
  show p ∈ q.timers ++ q.batch ++ q.numCreated :: q.allocated ↔ _
  simp only [owned, List.mem_append, List.mem_cons]
  tauto

theorem Sound.newTimer (h : Sound q) {cb : C} {when : Timestamp} {interval : ℚ}
    (hstep : q.step (.newTimer cb when interval) = some q') : Sound q' := by
  have howned := owned_newTimer hstep
  obtain rfl := Option.some.inj hstep
  refine ⟨?_, ?_, ?_, ?_⟩
  · refine h.sorted.congr fun p hp => expiration_congr (h.heap_newTimer ?_ _)
    exact mem_owned.mpr (Or.inl hp)
  · show (q.timers ++ q.batch ++ q.numCreated :: q.allocated).Nodup
    rw [List.nodup_middle, List.nodup_cons]
    exact ⟨fun hmem => (h.created _ hmem).ne rfl, h.nodup⟩
  · intro p hp
    rcases (howned p).mp hp with rfl | hp
    · exact ⟨_, Function.update_self ..⟩
    · simp only [h.heap_newTimer hp]
      exact h.live p hp
  · intro p hp
    show p < q.numCreated + 1
    rcases (howned p).mp hp with rfl | hp
    · exact Nat.lt_succ_self _
    · exact (h.created p hp).trans (Nat.lt_succ_self _)

theorem Sound.addTimerInLoop (h : Sound q) {timer : Nat}
    (hstep : q.step (.addTimerInLoop timer clock) = some q') : Sound q' := by
  obtain ⟨t, timerfd, ht, hall, rfl⟩ := step_addTimerInLoop hstep
  -- a refused timer is in no place any more
  have howned : ∃ l, (KeyedSet.insert (expiration q.heap) timer q.timers ++ q.batch ++
      q.allocated.erase timer).Perm l ∧ l.Sublist q.owned := by
    rcases KeyedSet.insert_perm_or_eq (x := timer) h.sorted with hperm | hsame
    · refine ⟨q.owned, ?_, List.Sublist.refl _⟩
      refine ((hperm.append_right _).append_right _).trans ?_
      refine List.perm_middle.symm.trans ?_
      exact (List.perm_cons_erase hall).symm.append_left _
    · rw [hsame]
      exact ⟨_, List.Perm.refl _, List.Sublist.append_left List.erase_sublist _⟩
  obtain ⟨l, hperm, hsub⟩ := howned
  have hmem : ∀ p, p ∈ KeyedSet.insert (expiration q.heap) timer q.timers ++ q.batch ++
      q.allocated.erase timer → p ∈ q.owned := fun p hp => hsub.subset (hperm.mem_iff.mp hp)
  refine ⟨h.sorted.insert, ?_, fun p hp => h.live p (hmem p hp), fun p hp => h.created p (hmem p hp)⟩
  exact hperm.nodup_iff.mpr (h.nodup.sublist hsub)

/-- The set is cut in two, and the first piece is the new batch. -/
theorem Sound.handleRead_spec (h : Sound q) (hstep : q.step (.handleRead now) = some q') :
    ∃ numCreated timers, q.pass = none ∧ q.numCreated ≤ numCreated ∧ q.timers = q.due now ++ timers ∧
      (∀ p ∈ timers, now < expiration q.heap p) ∧
      q' = { q with
        numCreated, timers, callingExpiredTimers := true, pass := some ⟨now, [], q.due now⟩ } := by
  obtain ⟨hpass, numCreated, hle, rfl⟩ := step_handleRead hstep
  refine ⟨numCreated, _, hpass, hle, ?_, fun p hp => h.sorted.lt_of_mem_dropWhile hp, ?_⟩
  · rw [due, ← h.sorted.takeWhile_le, List.takeWhile_append_dropWhile]
  · rw [due, ← h.sorted.takeWhile_le]

theorem Sound.handleRead (h : Sound q) (hstep : q.step (.handleRead now) = some q') : Sound q' := by
  obtain ⟨numCreated, timers, hpass, hle, hcut, -, rfl⟩ := h.handleRead_spec hstep
  have howned : (timers ++ q.due now ++ q.allocated).Perm q.owned := by
    rw [owned, batch_of_none hpass, List.append_nil, hcut]
    exact List.perm_append_comm.append_right _
  refine ⟨?_, howned.nodup_iff.mpr h.nodup, fun p hp => h.live p (howned.mem_iff.mp hp), ?_⟩
  · refine List.Pairwise.sublist ?_ h.sorted
    rw [hcut]
    exact List.sublist_append_right _ _
  · exact fun p hp => (h.created p (howned.mem_iff.mp hp)).trans_le hle

theorem Sound.runNext (h : Sound q) (hstep : q.step .runNext = some q') : Sound q' := by
  obtain ⟨now, called, timer, toCall, hpass, rfl⟩ := step_runNext hstep
  have howned : owned { q with
      pass := some ⟨now, called ++ [timer], toCall⟩, ran := timer :: q.ran } = q.owned := by
    rw [owned, owned, batch_of_pass rfl, batch_of_pass hpass]
    simp
  exact ⟨h.sorted, howned ▸ h.nodup, howned ▸ h.live, howned ▸ h.created⟩

/-- What the end of a pass does: it keeps what is in the set, and inserts the repeating timers of the batch
whose new expirations the set does not have. -/
theorem Sound.handleReadEnd_spec (h : Sound q) (hstep : q.step (.handleReadEnd clock) = some q') :
    ∃ pass heap timers timerfd, q.pass = some pass ∧ pass.called = q.batch ∧
      q' = { q with heap, timers, timerfd, callingExpiredTimers := false, pass := none } ∧
      KeyedSet.Sorted (expiration heap) timers ∧ q.timers ⊆ timers ∧
      timers ⊆ q.timers ++ q.repeating q.batch ∧ (∀ p, p ∉ q.batch → heap p = q.heap p) ∧
      (∀ p ∈ q.batch, ∀ t, q.heap p = some t → heap p = afterReset t pass.now clock) ∧
      (q.RestartsFresh q.batch pass.now clock → q.repeating q.batch ⊆ timers) := by
  obtain ⟨now, called, timerfd, hpass, rfl⟩ := step_handleReadEnd hstep
  have hbatch : q.batch = called := (batch_of_pass hpass).trans (List.append_nil _)
  obtain ⟨hnodup, hapart, -⟩ := h.apart
  rw [hbatch] at hnodup hapart ⊢
  obtain ⟨heap, timers, heq, hs, hkeep, honly, hother, hself, hall⟩ :=
    resetLoop_spec (q := { q with callingExpiredTimers := false, pass := none }) now clock
      h.sorted hnodup hapart fun p hp => h.live p (mem_owned.mpr (Or.inr (Or.inl (hbatch ▸ hp))))
  exact ⟨_, heap, timers, timerfd, hpass, rfl, by rw [heq], hs, hkeep, honly, hother, hself, hall⟩

/-- A timer of the batch that is in the set after the pass is a repeating one, restarted. -/
theorem Sound.restarted_of_mem (h : Sound q) {heap : Nat → Option (Timer C)} {timers : List Nat}
    (honly : timers ⊆ q.timers ++ q.repeating q.batch)
    (hself : ∀ p ∈ q.batch, ∀ t, q.heap p = some t → heap p = afterReset t now clock) {p : Nat}
    (hp : p ∈ timers) (hpb : p ∈ q.batch) :
    ∃ t, q.heap p = some t ∧ t.repeats = true ∧ heap p = some (t.restart now clock) := by
  obtain ⟨-, hbatch, -⟩ := h.apart
  have hrepeating := (List.mem_append.mp (honly hp)).resolve_left (hbatch p hpb)
  obtain ⟨-, t, ht, hrep⟩ := mem_repeating.mp hrepeating
  exact ⟨t, ht, hrep, (hself p hpb t ht).trans (by rw [afterReset, if_pos hrep])⟩

theorem mem_of_mem_restarted {timers : List Nat} (honly : timers ⊆ q.timers ++ q.repeating q.batch) {p : Nat}
    (hp : p ∈ timers) : p ∈ q.timers ∨ p ∈ q.batch :=
  (List.mem_append.mp (honly hp)).imp_right fun hp => (mem_repeating.mp hp).1

/-- What is owned after a pass was owned before; of the batch, what is in the set again. -/
theorem Sound.owned_of_end (h : Sound q) {timers : List Nat}
    (honly : timers ⊆ q.timers ++ q.repeating q.batch) {p : Nat} (hp : p ∈ timers ++ [] ++ q.allocated) :
    p ∈ q.owned ∧ (p ∈ q.batch → p ∈ timers) := by
  obtain ⟨-, -, halloc⟩ := h.apart
  rw [List.append_nil] at hp
  rcases List.mem_append.mp hp with hp | hp
  · exact ⟨mem_owned.mpr ((mem_of_mem_restarted honly hp).imp_right Or.inl), fun _ => hp⟩
  · exact ⟨mem_owned.mpr (Or.inr (Or.inr hp)), fun hpb => absurd hpb (halloc p hp).2⟩

theorem Sound.handleReadEnd (h : Sound q) (hstep : q.step (.handleReadEnd clock) = some q') : Sound q' := by
  obtain ⟨pass, heap, timers, timerfd, hpass, hcalled, rfl, hs, -, honly, hother, hself, -⟩ :=
    h.handleReadEnd_spec hstep
  obtain ⟨-, -, halloc⟩ := h.apart
  refine ⟨hs, ?_, ?_, fun p hp => h.created p (h.owned_of_end honly hp).1⟩
  · show (timers ++ [] ++ q.allocated).Nodup
    rw [List.append_nil]
    refine List.nodup_append.mpr ⟨hs.nodup, (List.nodup_append.mp h.nodup).2.1, ?_⟩
    rintro p hp r hr rfl
    exact (mem_of_mem_restarted honly hp).elim (halloc p hr).1 (halloc p hr).2
  · intro p hp
    obtain ⟨hmem, hback⟩ := h.owned_of_end honly hp
    by_cases hpb : p ∈ q.batch
    · obtain ⟨t, -, -, hnew⟩ := h.restarted_of_mem honly hself (hback hpb) hpb
      exact ⟨_, hnew⟩
    · obtain ⟨t, ht⟩ := h.live p hmem
      exact ⟨t, (hother p hpb).trans ht⟩

theorem Sound.step {a : Label C} (h : Sound q) (hstep : q.step a = some q') : Sound q' := by
  cases a with
  | newTimer cb when interval => exact h.newTimer hstep
  | addTimerInLoop timer clock => exact h.addTimerInLoop hstep
  | handleRead now => exact h.handleRead hstep
  | runNext => exact h.runNext hstep
  | handleReadEnd clock => exact h.handleReadEnd hstep

/-! ### The pass -/

/-- `r` is in the pass that began at `now` in `q`: of the timers that were due then some were run, in order,
and those that were not due are as they were. -/
structure Passing (q : TimerQueue C) (now : Timestamp) (r : TimerQueue C) : Prop where
  sound : Sound r
  batch : ∃ called toCall, r.pass = some ⟨now, called, toCall⟩ ∧ called ++ toCall = q.due now ∧
    r.ran = called.reverse ++ q.ran
  later : ∀ p ∈ q.timers, now < expiration q.heap p → p ∈ r.timers ∧ r.heap p = q.heap p

theorem Sound.passing (h : Sound q) (hstep : q.step (.handleRead now) = some r) : Passing q now r := by
  have hsound := h.handleRead hstep
  obtain ⟨numCreated, timers, -, -, hcut, -, rfl⟩ := h.handleRead_spec hstep
  refine ⟨hsound, ⟨[], q.due now, rfl, rfl, rfl⟩, fun p hp hlater => ⟨?_, rfl⟩⟩
  rw [hcut] at hp
  refine (List.mem_append.mp hp).resolve_left fun hdue => ?_
  have hle := (List.mem_filter.mp hdue).2
  exact hlater.not_ge (by simpa using hle)

/-- A step of the pass before its end. -/
theorem Passing.step {a : Label C} (h : Passing q now r) (hstep : r.step a = some r')
    (ha : ∀ clock, a ≠ .handleReadEnd clock) : Passing q now r' := by
  obtain ⟨called, toCall, hpass, hbatch, hran⟩ := h.batch
  have hsound := h.sound.step hstep
  cases a with
  | newTimer cb when interval =>
    obtain rfl := Option.some.inj hstep
    refine ⟨hsound, h.batch, fun p hp hlater => ?_⟩
    obtain ⟨hmem, hheap⟩ := h.later p hp hlater
    exact ⟨hmem, (h.sound.heap_newTimer (mem_owned.mpr (Or.inl hmem)) _).trans hheap⟩
  | addTimerInLoop timer clock =>
    obtain ⟨t, timerfd, -, -, rfl⟩ := step_addTimerInLoop hstep
    refine ⟨hsound, h.batch, fun p hp hlater => ?_⟩
    obtain ⟨hmem, hheap⟩ := h.later p hp hlater
    exact ⟨KeyedSet.subset_insert hmem, hheap⟩
  | handleRead now' =>
    obtain ⟨hnone, -⟩ := step_handleRead hstep
    cases hnone.symm.trans hpass
  | runNext =>
    obtain ⟨now', called', timer, toCall', hpass', rfl⟩ := step_runNext hstep
    obtain ⟨rfl, rfl, rfl⟩ := Pass.mk.inj (Option.some.inj (hpass.symm.trans hpass'))
    refine ⟨hsound, ⟨called ++ [timer], toCall', rfl, by simpa using hbatch, ?_⟩, h.later⟩
    simp [hran]
  | handleReadEnd clock => exact absurd rfl (ha clock)

/-- What holds after a pass at `now` that began in `q`. -/
structure Passed (q : TimerQueue C) (now : Timestamp) (q' : TimerQueue C) : Prop where
  sound : Sound q'
  ended : q'.pass = none
  /-- Exactly the due timers were run, the earliest first. -/
  ran : q'.ran = (q.due now).reverse ++ q.ran
  /-- The others are in the set as they were. -/
  later : ∀ p ∈ q.timers, now < expiration q.heap p → p ∈ q'.timers ∧ q'.heap p = q.heap p

theorem Passing.end (h : Passing q now r) (hstep : r.step (.handleReadEnd clock) = some q') :
    Passed q now q' := by
  obtain ⟨called, toCall, hpass, hbatch, hran⟩ := h.batch
  have hsound := h.sound.handleReadEnd hstep
  obtain ⟨pass, heap, timers, timerfd, hpass', hcalled, rfl, -, hkeep, -, hother, -, -⟩ :=
    h.sound.handleReadEnd_spec hstep
  have hall : r.batch = q.due now := (batch_of_pass hpass).trans hbatch
  obtain rfl : called = q.due now := by
    rw [← hall, ← hcalled, Option.some.inj (hpass'.symm.trans hpass)]
  refine ⟨hsound, rfl, hran, fun p hp hlater => ?_⟩
  obtain ⟨hmem, hheap⟩ := h.later p hp hlater
  have hout : p ∉ r.batch := by
    rw [hall]
    exact fun hdue => hlater.not_ge (by simpa using (List.mem_filter.mp hdue).2)
  exact ⟨hkeep hmem, (hother p hout).trans hheap⟩

theorem Passing.run {as : List (Label C)} (h : Passing q now r)
    (has : ∀ clock, .handleReadEnd clock ∉ as)
    (hrun : (runs C).run r (as ++ [.handleReadEnd clock]) = some q') : Passed q now q' := by
  induction as generalizing r with
  | nil =>
    obtain ⟨t, ht, htq⟩ := Option.bind_eq_some_iff.mp hrun
    obtain rfl := Option.some.inj htq
    exact h.end ht
  | cons a as ih =>
    obtain ⟨t, ht, hrun⟩ := Option.bind_eq_some_iff.mp hrun
    refine ih (h.step ht fun clock heq => has clock (heq ▸ List.mem_cons_self)) ?_ hrun
    exact fun clock hmem => has clock (List.mem_cons_of_mem _ hmem)

/-- A pass can always come to its end. -/
theorem Passing.finishes (h : Passing q now r) (clock : Timestamp) :
    ∃ n q', (runs C).run r (List.replicate n .runNext ++ [.handleReadEnd clock]) = some q' := by
  obtain ⟨called, toCall, hpass, hbatch, hran⟩ := h.batch
  clear h hbatch hran
  induction toCall generalizing r called with
  | nil =>
    have hstep : (runs C).step r (.handleReadEnd clock) =
        some (reset { r with callingExpiredTimers := false, pass := none } called now clock) := by
      simp only [runs, TimerQueue.step, hpass]
    refine ⟨0, reset { r with callingExpiredTimers := false, pass := none } called now clock, ?_⟩
    rw [List.replicate_zero, List.nil_append, Machine.run_cons, hstep]
    rfl
  | cons timer toCall ih =>
    have hstep : (runs C).step r .runNext = some { r with
        pass := some ⟨now, called ++ [timer], toCall⟩, ran := timer :: r.ran } := by
      simp only [runs, TimerQueue.step, hpass]
    obtain ⟨n, q', hrun⟩ := ih (called ++ [timer]) (r := { r with
      pass := some ⟨now, called ++ [timer], toCall⟩, ran := timer :: r.ran }) rfl
    refine ⟨n + 1, q', ?_⟩
    rw [List.replicate_succ, List.cons_append, Machine.run_cons, hstep]
    exact hrun

/-! ### Every pass -/

/-- The due timers, in increasing order of their expirations. -/
theorem Sound.due_sorted (h : Sound q) (now : Timestamp) : KeyedSet.Sorted (expiration q.heap) (q.due now) :=
  List.Pairwise.sublist List.filter_sublist h.sorted

/-- **A pass runs exactly the due timers**: every state of every run is sound, and from a sound queue outside
a pass, whatever timers are added while the pass at `now` runs, it runs the timers that were due at its
beginning, each once and in increasing order of their expirations, and no other; it leaves the timers that
were not due in the set as they were; the set is in the order of the current expirations all along; and from
every state the pass goes through it can come to its end. -/
theorem handleRead_runs_due (C : Type*) :
    (∀ as, (runs C).Always Sound (new C) as) ∧
    ∀ (q : TimerQueue C) (now : Timestamp), Sound q → ∀ as : List (Label C),
      (∀ clock, .handleReadEnd clock ∉ as) →
      KeyedSet.Sorted (expiration q.heap) (q.due now) ∧
      (runs C).Always (fun r => KeyedSet.Sorted (expiration r.heap) r.timers) q (.handleRead now :: as) ∧
      (∀ r clock, (runs C).run q (.handleRead now :: as) = some r →
        ∃ n q', (runs C).run r (List.replicate n .runNext ++ [.handleReadEnd clock]) = some q') ∧
      ∀ q' clock, (runs C).run q (.handleRead now :: as ++ [.handleReadEnd clock]) = some q' →
        q'.ran = (q.due now).reverse ++ q.ran ∧
        (∀ p ∈ q.timers, now < expiration q.heap p → p ∈ q'.timers ∧ q'.heap p = q.heap p) ∧
        KeyedSet.Sorted (expiration q'.heap) q'.timers := by
  have halways : ∀ {q : TimerQueue C} (as : List (Label C)), Sound q → (runs C).Always Sound q as :=
    fun as h => Machine.Always.of_step h fun _ _ _ h hstep => h.step hstep
  refine ⟨fun as => halways as new_sound, fun q now h as has => ⟨h.due_sorted now, ?_, ?_, ?_⟩⟩
  · exact (halways _ h).mono fun r hr => hr.sorted
  · intro r clock hrun
    obtain ⟨t, ht, hrun⟩ := Option.bind_eq_some_iff.mp hrun
    have hpassing : Passing q now r := by
      refine (Machine.Always.of_invariant (C := fun _ a => ∀ clock, a ≠ .handleReadEnd clock)
        (h.passing ht) (fun _ _ _ h ha hstep => h.step hstep ha) ?_).last hrun
      intro pre a u v hpre _ _ clock heq
      exact has clock (hpre.subset (heq ▸ List.mem_append_right _ (List.mem_singleton_self _)))
    exact hpassing.finishes clock
  · intro q' clock hrun
    obtain ⟨t, ht, hrun⟩ := Option.bind_eq_some_iff.mp hrun
    have hpassed := (h.passing ht).run has hrun
    exact ⟨hpassed.ran, hpassed.later, hpassed.sound.sorted⟩

/-- Two one-shot timers, due at 5 and at 9. -/
def twoTimers : TimerQueue Nat := { new Nat with
  heap := fun p => if p = 0 then some ⟨0, 5, 0, false, 0⟩ else if p = 1 then some ⟨1, 9, 0, false, 1⟩ else none
  numCreated := 2
  timers := [0, 1] }

/-- In a pass at 6 a callback adds a timer that is due at once: it is not run. -/
theorem late_timer_not_run : ∃ q', (runs Nat).run twoTimers
      (.handleRead 6 :: [.runNext, .newTimer 2 4 0, .addTimerInLoop 3 6] ++ [.handleReadEnd 7]) = some q' ∧
    q'.ran = [0] ∧ 1 ∈ q'.timers := by
  have hsound : Sound twoTimers := by
    refine ⟨?_, by decide, fun p hp => ?_, by decide⟩
    · exact List.pairwise_cons.mpr ⟨by decide, List.pairwise_singleton _ _⟩
    · have hp : p = 0 ∨ p = 1 := by simpa [owned, batch, called, toCall, twoTimers, new] using hp
      rcases hp with rfl | rfl
      · exact ⟨_, rfl⟩
      · exact ⟨_, rfl⟩
  have hdue : twoTimers.due 6 = [0] := by decide
  obtain ⟨q', hrun⟩ : ∃ q', (runs Nat).run twoTimers
      (.handleRead 6 :: [.runNext, .newTimer 2 4 0, .addTimerInLoop 3 6] ++ [.handleReadEnd 7]) = some q' :=
    ⟨_, rfl⟩
  obtain ⟨-, -, -, hend⟩ := (handleRead_runs_due Nat).2 twoTimers 6 hsound
    [.runNext, .newTimer 2 4 0, .addTimerInLoop 3 6] (by simp)
  obtain ⟨hran, hlater, -⟩ := hend q' 7 hrun
  refine ⟨q', hrun, ?_, (hlater 1 (by decide) (by decide)).1⟩
  rw [hran, hdue]
  rfl

end Siren.TimerQueue
