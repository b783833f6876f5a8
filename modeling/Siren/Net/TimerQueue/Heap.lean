import Siren.Net.TimerQueue.Kept

/-!
# The memory of the timers

`addTimer` allocates a `Timer`, and from then on a bare `Timer*` goes through the functor, the set and the
batch. `reset` deletes the one-shot timers of a batch, `~TimerQueue` those of the set. Nobody looks at the
result of `timers_.insert`, so the pointer to a timer that it refuses is gone.

* `Accesses` says of a step that every timer it reads or deletes is allocated when it does.
* `Ledger` holds in every state of every run: a timer is allocated exactly when it is owned or was refused,
  and it is in one place only.
* `timers_freed`: no run and no destructor after it uses a deleted timer, and what is left in the end is
  what was not handed over and what was refused.
-/

namespace Siren.TimerQueue

variable {C : Type*}

def Live (heap : Nat → Option (Timer C)) (timer : Nat) : Prop := (heap timer).isSome

/-- `delete timer`, `none` when it is not allocated. -/
def delete (heap : Nat → Option (Timer C)) (timer : Nat) : Option (Nat → Option (Timer C)) :=
  (heap timer).map fun _ => Function.update heap timer none

/-- The loop of `~TimerQueue`: the timers that are allocated after it. -/
def destroy (q : TimerQueue C) : Option (Nat → Option (Timer C)) := q.timers.foldlM delete q.heap

/-- The timers of the step for which `timers_.insert(timer).second` is false. -/
def refused (q : TimerQueue C) : Label C → List Nat
  | .addTimerInLoop timer _ => if timer ∈ (q.insert timer).1.timers then [] else [timer]
  | .handleReadEnd clock =>
    match q.pass with
    | some pass =>
      let q' := reset { q with callingExpiredTimers := false, pass := none } pass.called pass.now clock
      (q.repeating pass.called).filter (· ∉ q'.timers)
    | none => []
  | _ => []

variable {q q' : TimerQueue C} {now clock : Timestamp} {p : Nat}

/-- The timers of the batch that are refused at the end of a pass. -/
theorem refused_end (hstep : q.step (.handleReadEnd clock) = some q') :
    q.refused (.handleReadEnd clock) = (q.repeating q.batch).filter (· ∉ q'.timers) := by
  obtain ⟨now, called, -, hpass, -⟩ := step_handleReadEnd hstep
  have hbatch : q.batch = called := (batch_of_pass hpass).trans (List.append_nil _)
  simp only [step, hpass, Option.some.injEq] at hstep
  rw [hbatch, ← hstep]
  simp only [refused, hpass]

/-- Each timer that is allocated is owned, or is one of those the set refused, and not both. -/
structure Ledger (q : TimerQueue C) (lost : List Nat) : Prop where
  sound : Sound q
  places : (q.owned ++ lost).Nodup
  allocated : ∀ p, Live q.heap p ↔ p ∈ q.owned ∨ p ∈ lost
  created : ∀ p ∈ lost, p < q.numCreated

variable {lost gone : List Nat}

/-- A step that leaves the memory alone moves timers from one place to another. -/
theorem Ledger.of_perm (h : Ledger q lost) (hsound : Sound q') (hheap : q'.heap = q.heap)
    (hcreated : q.numCreated ≤ q'.numCreated) (hperm : (q'.owned ++ gone).Perm q.owned) :
    Ledger q' (lost ++ gone) where
  sound := hsound
  places := by
    have hswap : (q'.owned ++ (lost ++ gone)).Perm (q'.owned ++ gone ++ lost) := by
      rw [List.append_assoc]
      exact List.perm_append_comm.append_left _
    exact (hswap.trans (hperm.append_right _)).nodup_iff.mpr h.places
  allocated p := by
    have hmem : p ∈ q'.owned ∨ p ∈ gone ↔ p ∈ q.owned := by
      rw [← List.mem_append, hperm.mem_iff]
    rw [hheap, h.allocated, List.mem_append, ← hmem]
    tauto
  created p hp := by
    refine Nat.lt_of_lt_of_le ?_ hcreated
    rcases List.mem_append.mp hp with hp | hp
    · exact h.created p hp
    · exact h.sound.created p (hperm.subset (List.mem_append_right _ hp))

theorem Ledger.newTimer (h : Ledger q lost) {cb : C} {when : Timestamp} {interval : ℚ}
    (hstep : q.step (.newTimer cb when interval) = some q') : Ledger q' lost := by
  have hsound := h.sound.newTimer hstep
  have howned := owned_newTimer hstep
  obtain rfl := Option.some.inj hstep
  refine ⟨hsound, ?_, ?_, fun p hp => (h.created p hp).trans (Nat.lt_succ_self _)⟩
  · obtain ⟨-, hlost, hapart⟩ := List.nodup_append.mp h.places
    refine List.nodup_append.mpr ⟨hsound.nodup, hlost, ?_⟩
    rintro p hp r hr rfl
    rcases (howned p).mp hp with rfl | hp
    · exact (h.created _ hr).ne rfl
    · exact hapart p hp p hr rfl
  · intro p
    rw [howned]
    by_cases hp : p = q.numCreated
    · subst hp
      simp [Live]
    · simp only [Live, Function.update_of_ne hp, hp, false_or]
      exact h.allocated p

theorem Ledger.addTimerInLoop (h : Ledger q lost) {timer : Nat}
    (hstep : q.step (.addTimerInLoop timer clock) = some q') :
    Ledger q' (lost ++ q.refused (.addTimerInLoop timer clock)) := by
  have hsound := h.sound.addTimerInLoop hstep
  obtain ⟨t, timerfd, ht, hall, rfl⟩ := step_addTimerInLoop hstep
  refine h.of_perm hsound rfl le_rfl ?_
  show (KeyedSet.insert (expiration q.heap) timer q.timers ++ q.batch ++ q.allocated.erase timer ++
    if timer ∈ KeyedSet.insert (expiration q.heap) timer q.timers then [] else [timer]).Perm _
  have herase : (timer :: q.allocated.erase timer).Perm q.allocated := (List.perm_cons_erase hall).symm
  rcases KeyedSet.insert_perm_or_eq (x := timer) h.sound.sorted with hperm | hsame
  · rw [if_pos (hperm.mem_iff.mpr List.mem_cons_self), List.append_nil]
    refine ((hperm.append_right _).append_right _).trans ?_
    exact List.perm_middle.symm.trans (herase.append_left _)
  · -- a refused timer goes from the functor to the lost ones
    obtain ⟨-, -, hapart⟩ := h.sound.apart
    rw [hsame, if_neg (hapart timer hall).1, List.append_assoc]
    exact (List.perm_append_comm.trans herase).append_left _

theorem Ledger.handleRead (h : Ledger q lost) (hstep : q.step (.handleRead now) = some q') :
    Ledger q' (lost ++ []) := by
  have hsound := h.sound.handleRead hstep
  obtain ⟨numCreated, timers, hpass, hle, hcut, -, rfl⟩ := h.sound.handleRead_spec hstep
  refine h.of_perm hsound rfl hle ?_
  rw [List.append_nil, owned, owned, batch_of_pass rfl, batch_of_none hpass, hcut, List.append_nil]
  exact List.perm_append_comm.append_right _

theorem Ledger.runNext (h : Ledger q lost) (hstep : q.step .runNext = some q') :
    Ledger q' (lost ++ []) := by
  have hsound := h.sound.runNext hstep
  obtain ⟨now, called, timer, toCall, hpass, rfl⟩ := step_runNext hstep
  refine h.of_perm hsound rfl le_rfl ?_
  rw [owned, owned, batch_of_pass rfl, batch_of_pass hpass]
  simp

/-- The end of a pass deletes the one-shot timers of the batch; the repeating ones are in the set again or
refused. -/
theorem Ledger.handleReadEnd (h : Ledger q lost) (hstep : q.step (.handleReadEnd clock) = some q') :
    Ledger q' (lost ++ q.refused (.handleReadEnd clock)) := by
  have hsound := h.sound.handleReadEnd hstep
  rw [refused_end hstep]
  obtain ⟨pass, heap, timers, timerfd, hpass, hcalled, rfl, hs, hkeep, honly, hother, hself, -⟩ :=
    h.sound.handleReadEnd_spec hstep
  obtain ⟨hbatch, hset, halloc⟩ := h.sound.apart
  obtain ⟨-, hlost, hapart⟩ := List.nodup_append.mp h.places
  have howned : ∀ p, p ∈ owned { q with
      heap, timers, timerfd, callingExpiredTimers := false, pass := none } ↔ p ∈ timers ∨ p ∈ q.allocated := by
    simp [mem_owned, batch_of_none]
  have hback : ∀ p, p ∈ timers ∨ p ∈ q.allocated → p ∈ q.owned := by
    intro p hp
    rcases hp with hp | hp
    · exact mem_owned.mpr ((mem_of_mem_restarted honly hp).imp_right Or.inl)
    · exact mem_owned.mpr (Or.inr (Or.inr hp))
  have hrefused : ∀ p, p ∈ (q.repeating q.batch).filter (· ∉ timers) ↔
      (p ∈ q.batch ∧ ∃ t, q.heap p = some t ∧ t.repeats = true) ∧ p ∉ timers := by
    intro p
    rw [List.mem_filter, mem_repeating, decide_eq_true_iff]
  have hgone : ∀ p ∈ q.batch, p ∉ lost := fun p hp hmem =>
    hapart p (mem_owned.mpr (Or.inr (Or.inl hp))) p hmem rfl
  refine ⟨hsound, ?_, ?_, ?_⟩
  · refine List.nodup_append.mpr ⟨hsound.nodup, ?_, ?_⟩
    · refine List.nodup_append.mpr ⟨hlost, (hbatch.filter _).filter _, ?_⟩
      rintro p hp r hr rfl
      exact hgone p ((hrefused p).mp hr).1.1 hp
    · rintro p hp r hr rfl
      rw [howned] at hp
      rcases List.mem_append.mp hr with hr | hr
      · exact hapart p (hback p hp) p hr rfl
      · obtain ⟨⟨hpb, -⟩, hout⟩ := (hrefused p).mp hr
        exact hp.elim hout fun hp => (halloc p hp).2 hpb
  · intro p
    rw [howned, List.mem_append, hrefused]
    by_cases hpb : p ∈ q.batch
    · obtain ⟨t, ht⟩ := h.sound.live p (mem_owned.mpr (Or.inr (Or.inl hpb)))
      have hout : p ∉ q.allocated := fun hp => (halloc p hp).2 hpb
      simp only [Live, hself p hpb t ht, hpb, ht, hout, hgone p hpb, or_false, false_or, true_and,
        Option.some.injEq, exists_eq_left']
      cases hrep : t.repeats with
      | false =>
        have hmem : p ∉ timers := by
          intro hp
          obtain ⟨u, hu, hru, -⟩ := h.sound.restarted_of_mem honly hself hp hpb
          obtain rfl : t = u := Option.some.inj (ht.symm.trans hu)
          exact Bool.false_ne_true (hrep.symm.trans hru)
        simp [afterReset, hrep, hmem]
      | true =>
        simp [afterReset, hrep, em]
    · have hmem : p ∈ q.owned ↔ p ∈ timers ∨ p ∈ q.allocated := by
        refine ⟨fun hp => ?_, hback p⟩
        rcases mem_owned.mp hp with hp | hp | hp
        · exact Or.inl (hkeep hp)
        · exact absurd hp hpb
        · exact Or.inr hp
      simp only [Live, hother p hpb, hpb, false_and, or_false]
      rw [← hmem]
      exact h.allocated p
  · intro p hp
    rcases List.mem_append.mp hp with hp | hp
    · exact h.created p hp
    · exact h.sound.created p (mem_owned.mpr (Or.inr (Or.inl ((hrefused p).mp hp).1.1)))

theorem Ledger.step {a : Label C} (h : Ledger q lost) (hstep : q.step a = some q') :
    Ledger q' (lost ++ q.refused a) := by
  cases a with
  | newTimer cb when interval =>
    show Ledger q' (lost ++ [])
    rw [List.append_nil]
    exact h.newTimer hstep
  | addTimerInLoop timer clock => exact h.addTimerInLoop hstep
  | handleRead now => exact h.handleRead hstep
  | runNext => exact h.runNext hstep
  | handleReadEnd clock => exact h.handleReadEnd hstep

/-- Two one-shot timers with one expiration: the set refuses the second, and the destructor deletes the first. -/
example : (((runs Nat).run (new Nat) [.newTimer 0 5 0, .newTimer 1 5 0, .addTimerInLoop 0 0, .addTimerInLoop 1 0]).bind
    destroy).map (fun heap => ((heap 0).isSome, (heap 1).isSome)) = some (false, true) := by decide

end Siren.TimerQueue
