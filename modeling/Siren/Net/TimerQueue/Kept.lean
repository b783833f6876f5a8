import Siren.Net.TimerQueue.Pass

/-!
# No timer is lost

A timer handed to `addTimerInLoop` is in the set, in the batch of the running pass, or a one-shot timer
that was run exactly once. What can break this is an insertion that meets the expiration of a timer in
the set: the set refuses it, nobody looks at the result, and the timer is in neither place.

* `timers_kept_iff`: no timer is lost in any state of a run exactly when no insertion of the run meets
  the expiration of a timer in the set.
-/

namespace Siren.TimerQueue

variable {C : Type*}

/-- A timer handed over is still there with its callback, in the set or in the running batch, or it is
a one-shot timer that was run exactly once. -/
def Kept (q : TimerQueue C) (t : Timer C) : Prop :=
  (∃ u, q.heap t.sequence = some u ∧ u.callback = t.callback ∧ u.repeats = t.repeats ∧
      (t.sequence ∈ q.timers ∨ t.sequence ∈ q.batch)) ∨
    t.repeats = false ∧ q.ran.count t.sequence = 1

/-- No timer is lost: each one handed over is kept, and outside a pass the repeating ones are in
`timers_`. -/
structure NoneLost (q : TimerQueue C) : Prop where
  kept : ∀ t ∈ q.added, q.Kept t
  repeating : q.pass = none → ∀ t ∈ q.added, t.repeats = true → t.sequence ∈ q.timers

/-- No insertion of the step meets the expiration of a timer in the set: a new timer's expiration is not
there, and the new expirations of the restarted timers are neither there nor equal among each other. -/
def InsertsFresh (q : TimerQueue C) : Label C → Prop
  | .addTimerInLoop timer _ => ∀ other ∈ q.timers, expiration q.heap other ≠ expiration q.heap timer
  | .handleReadEnd clock => ∀ pass, q.pass = some pass →
      q.RestartsFresh pass.called pass.now clock
  | _ => True

/-- What holds as long as every insertion was fresh. -/
structure Inv (q : TimerQueue C) : Prop where
  sorted : KeyedSet.Sorted (expiration q.heap) q.timers
  nodup : q.owned.Nodup
  live : ∀ p ∈ q.owned, ∃ u, q.heap p = some u ∧ u.sequence = p
  created : ∀ p, p ∈ q.owned ∨ p ∈ q.ran ∨ (∃ t ∈ q.added, t.sequence = p) → p < q.numCreated
  handed : ∀ p, p ∈ q.timers ∨ p ∈ q.batch → ∃ t ∈ q.added, t.sequence = p
  unrun : ∀ p, p ∈ q.timers ∨ p ∈ q.toCall ∨ p ∈ q.allocated →
    ∀ u, q.heap p = some u → u.repeats = false → p ∉ q.ran
  ranOnce : ∀ p ∈ q.called, ∀ u, q.heap p = some u → u.repeats = false → q.ran.count p = 1
  kept : ∀ t ∈ q.added,
    (∃ u, q.heap t.sequence = some u ∧ u.callback = t.callback ∧ u.repeats = t.repeats ∧
      (t.sequence ∈ q.timers ∨ t.sequence ∈ q.batch)) ∨
    t.repeats = false ∧ q.ran.count t.sequence = 1 ∧ t.sequence ∉ q.owned

theorem new_inv : Inv (new C) where
  sorted := KeyedSet.sorted_nil
  nodup := List.nodup_nil
  live := by simp [owned, batch, called, toCall, new]
  created := by simp [owned, batch, called, toCall, new]
  handed := by simp [batch, called, toCall, new]
  unrun := by simp [toCall, new]
  ranOnce := by simp [called, new]
  kept := by simp [new]

variable {q q' : TimerQueue C} {clock now : Timestamp}

theorem Inv.sound (h : Inv q) : Sound q where
  sorted := h.sorted
  nodup := h.nodup
  live p hp := by
    obtain ⟨u, hu, -⟩ := h.live p hp
    exact ⟨u, hu⟩
  created p hp := h.created p (Or.inl hp)

theorem Inv.noneLost (h : Inv q) : NoneLost q where
  kept t ht := (h.kept t ht).imp_right fun hdone => ⟨hdone.1, hdone.2.1⟩
  repeating hpass t ht hrep := by
    rcases h.kept t ht with ⟨u, -, -, -, hmem | hmem⟩ | ⟨hone, -⟩
    · exact hmem
    · simp [batch, called, toCall, hpass] at hmem
    · rw [hrep] at hone
      cases hone

/-! ### Steps -/

theorem Inv.newTimer (h : Inv q) {cb : C} {when : Timestamp} {interval : ℚ}
    (hstep : q.step (.newTimer cb when interval) = some q') : Inv q' := by
  have hsound := h.sound.newTimer hstep
  have howned := owned_newTimer hstep
  obtain rfl := Option.some.inj hstep
  refine ⟨hsound.sorted, hsound.nodup, ?_, ?_, h.handed, ?_, ?_, ?_⟩
  · intro p hp
    rcases (howned p).mp hp with rfl | hp
    · exact ⟨_, Function.update_self .., rfl⟩
    · simp only [h.sound.heap_newTimer hp]
      exact h.live p hp
  · intro p hp
    show p < q.numCreated + 1
    rcases hp with hp | hp
    · rcases (howned p).mp hp with rfl | hp
      · exact Nat.lt_succ_self _
      · exact (h.created p (Or.inl hp)).trans (Nat.lt_succ_self _)
    · exact (h.created p (Or.inr hp)).trans (Nat.lt_succ_self _)
  · intro p hp u hu hone
    by_cases hpn : p = q.numCreated
    · exact fun hran => (h.created p (Or.inr (Or.inl hran))).ne hpn
    · have hp' : p ∈ q.timers ∨ p ∈ q.toCall ∨ p ∈ q.allocated := by
        rcases hp with hp | hp | hp
        · exact Or.inl hp
        · exact Or.inr (Or.inl hp)
        · exact Or.inr (Or.inr ((List.mem_cons.mp hp).resolve_left hpn))
      exact h.unrun p hp' u ((Function.update_of_ne hpn ..).symm.trans hu) hone
  · intro p hp u hu hone
    have hp' : p ∈ q.owned := mem_owned.mpr (Or.inr (Or.inl (mem_batch.mpr (Or.inl hp))))
    exact h.ranOnce p hp u ((h.sound.heap_newTimer hp' _).symm.trans hu) hone
  · intro t ht
    have hold : t.sequence ≠ q.numCreated := (h.created _ (Or.inr (Or.inr ⟨t, ht, rfl⟩))).ne
    simp only [Function.update_of_ne hold]
    refine (h.kept t ht).imp_right fun hdone => ⟨hdone.1, hdone.2.1, fun hmem => ?_⟩
    exact ((howned _).mp hmem).elim hold hdone.2.2

theorem Inv.handleRead (h : Inv q) (hstep : q.step (.handleRead now) = some q') : Inv q' := by
  have hsound := h.sound.handleRead hstep
  obtain ⟨hpass, numCreated, hle, rfl⟩ := step_handleRead hstep
  have hbatch : q.batch = [] := batch_of_none hpass
  -- the set is cut in two; the first piece is the new batch
  generalize hfst : q.timers.takeWhile (expiration q.heap · ≤ now) = expired at hsound ⊢
  generalize hsnd : q.timers.dropWhile (expiration q.heap · ≤ now) = timers at hsound ⊢
  have hcut : q.timers = expired ++ timers := by
    rw [← hfst, ← hsnd, List.takeWhile_append_dropWhile]
  have hmem : ∀ p, p ∈ q.timers ↔ p ∈ timers ∨ p ∈ expired := by
    intro p
    rw [hcut, List.mem_append, or_comm]
  have howned : (timers ++ expired ++ q.allocated).Perm q.owned := by
    rw [owned, hbatch, List.append_nil, hcut]
    exact List.perm_append_comm.append_right _
  refine ⟨hsound.sorted, hsound.nodup, ?_, ?_, ?_, ?_, by simp [called], ?_⟩
  · exact fun p hp => h.live p (howned.mem_iff.mp hp)
  · intro p hp
    refine (h.created p ?_).trans_le hle
    exact hp.imp_left howned.mem_iff.mp
  · intro p hp
    exact h.handed p (Or.inl ((hmem p).mpr hp))
  · intro p hp
    refine h.unrun p ?_
    rcases hp with hp | hp | hp
    · exact Or.inl ((hmem p).mpr (Or.inl hp))
    · exact Or.inl ((hmem p).mpr (Or.inr hp))
    · exact Or.inr (Or.inr hp)
  · intro t ht
    rcases h.kept t ht with ⟨u, hu, hcb, hrep, hin⟩ | ⟨hone, hran, hout⟩
    · refine Or.inl ⟨u, hu, hcb, hrep, ?_⟩
      rw [hbatch, List.mem_nil_iff, or_false] at hin
      exact (hmem _).mp hin
    · exact Or.inr ⟨hone, hran, fun hin => hout (howned.mem_iff.mp hin)⟩

theorem Inv.runNext (h : Inv q) (hstep : q.step .runNext = some q') : Inv q' := by
  have hsound := h.sound.runNext hstep
  obtain ⟨now, called, timer, toCall, hpass, rfl⟩ := step_runNext hstep
  have hcalled : q.called = called := by simp [TimerQueue.called, hpass]
  have htoCall : q.toCall = timer :: toCall := by simp [TimerQueue.toCall, hpass]
  have hbatch : called ++ [timer] ++ toCall = q.batch := by simp [batch, hcalled, htoCall]
  have hbatch' : batch { q with
      pass := some ⟨now, called ++ [timer], toCall⟩, ran := timer :: q.ran } = q.batch := hbatch
  have howned : owned { q with
      pass := some ⟨now, called ++ [timer], toCall⟩, ran := timer :: q.ran } = q.owned := by
    rw [owned, hbatch', owned]
  -- the timer that is run occurs once
  have hapart : timer ∉ q.timers ∧ timer ∉ called ∧ timer ∉ toCall ∧ timer ∉ q.allocated := by
    have hsplit : q.owned = q.timers ++ called ++ timer :: (toCall ++ q.allocated) := by
      simp [owned, batch, hcalled, htoCall]
    have hnodup := h.nodup
    rw [hsplit, List.nodup_middle, List.nodup_cons] at hnodup
    simpa [not_or, and_assoc] using hnodup.1
  have hmem : timer ∈ q.owned := by simp [owned, batch, htoCall]
  refine ⟨hsound.sorted, hsound.nodup, howned ▸ h.live, ?_, ?_, ?_, ?_, ?_⟩
  · intro p hp
    rw [howned] at hp
    rcases hp with hp | hp | hp
    · exact h.created p (Or.inl hp)
    · rcases List.mem_cons.mp hp with rfl | hp
      · exact h.created p (Or.inl hmem)
      · exact h.created p (Or.inr (Or.inl hp))
    · exact h.created p (Or.inr (Or.inr hp))
  · rw [hbatch']
    exact h.handed
  · intro p hp u hu hone hran
    have hne : p ≠ timer := by
      rintro rfl
      exact hp.elim hapart.1 fun hp => hp.elim hapart.2.2.1 hapart.2.2.2
    refine h.unrun p ?_ u hu hone ((List.mem_cons.mp hran).resolve_left hne)
    rw [htoCall]
    exact hp.imp_right (Or.imp_left (List.mem_cons_of_mem _))
  · intro p hp u hu hone
    show (timer :: q.ran).count p = 1
    rcases List.mem_append.mp (show p ∈ called ++ [timer] from hp) with hp | hp
    · rw [List.count_cons_of_ne (ne_of_mem_of_not_mem hp hapart.2.1).symm]
      exact h.ranOnce p (hcalled ▸ hp) u hu hone
    · obtain rfl := List.mem_singleton.mp hp
      have hunrun := h.unrun p (Or.inr (Or.inl (htoCall ▸ List.mem_cons_self))) u hu hone
      rw [List.count_cons_self, List.count_eq_zero_of_not_mem hunrun]
  · intro t ht
    rw [howned, hbatch']
    refine (h.kept t ht).imp_right fun hgone => ?_
    obtain ⟨hone, hran, hout⟩ := hgone
    exact ⟨hone, (List.count_cons_of_ne (ne_of_mem_of_not_mem hmem hout)).trans hran, hout⟩

theorem Inv.addTimerInLoop (h : Inv q) {timer : Nat} (hfresh : q.InsertsFresh (.addTimerInLoop timer clock))
    (hstep : q.step (.addTimerInLoop timer clock) = some q') : Inv q' := by
  have hsound := h.sound.addTimerInLoop hstep
  obtain ⟨t, timerfd, ht, hall, rfl⟩ := step_addTimerInLoop hstep
  have hset : (KeyedSet.insert (expiration q.heap) timer q.timers).Perm (timer :: q.timers) :=
    KeyedSet.insert_perm hfresh
  have howned : (KeyedSet.insert (expiration q.heap) timer q.timers ++ q.batch ++
      q.allocated.erase timer).Perm q.owned := by
    refine ((hset.append_right _).append_right _).trans ?_
    refine List.perm_middle.symm.trans ?_
    exact (List.perm_cons_erase hall).symm.append_left _
  have hseq : t.sequence = timer := by
    obtain ⟨u, hu, hseq⟩ := h.live timer (mem_owned.mpr (Or.inr (Or.inr hall)))
    rw [ht, Option.some.injEq] at hu
    rw [hu, hseq]
  have hin : ∀ p, p ∈ KeyedSet.insert (expiration q.heap) timer q.timers ↔ p = timer ∨ p ∈ q.timers :=
    fun p => hset.mem_iff.trans List.mem_cons
  refine ⟨hsound.sorted, hsound.nodup, fun p hp => h.live p (howned.mem_iff.mp hp), ?_, ?_, ?_, h.ranOnce, ?_⟩
  · intro p hp
    rcases hp with hp | hp | ⟨u, hu, rfl⟩
    · exact h.created p (Or.inl (howned.mem_iff.mp hp))
    · exact h.created p (Or.inr (Or.inl hp))
    · rcases List.mem_cons.mp hu with rfl | hu
      · rw [hseq]
        exact h.created _ (Or.inl (mem_owned.mpr (Or.inr (Or.inr hall))))
      · exact h.created _ (Or.inr (Or.inr ⟨u, hu, rfl⟩))
  · intro p hp
    have hold : p = timer ∨ p ∈ q.timers ∨ p ∈ q.batch := by
      rcases hp with hp | hp
      · exact ((hin p).mp hp).imp_right Or.inl
      · exact Or.inr (Or.inr hp)
    rcases hold with rfl | hp
    · exact ⟨t, List.mem_cons_self, hseq⟩
    · obtain ⟨u, hu, hp⟩ := h.handed p hp
      exact ⟨u, List.mem_cons_of_mem _ hu, hp⟩
  · intro p hp
    refine h.unrun p ?_
    rcases hp with hp | hp | hp
    · rcases (hin p).mp hp with rfl | hp
      · exact Or.inr (Or.inr hall)
      · exact Or.inl hp
    · exact Or.inr (Or.inl hp)
    · exact Or.inr (Or.inr (List.mem_of_mem_erase hp))
  · intro u hu
    rcases List.mem_cons.mp hu with rfl | hu
    · exact Or.inl ⟨u, hseq ▸ ht, rfl, rfl, Or.inl ((hin _).mpr (Or.inl hseq))⟩
    · rcases h.kept u hu with ⟨v, hv, hcb, hrep, hmem⟩ | ⟨hone, hran, hout⟩
      · exact Or.inl ⟨v, hv, hcb, hrep, hmem.imp_left fun hmem => (hin _).mpr (Or.inr hmem)⟩
      · exact Or.inr ⟨hone, hran, fun hmem => hout (howned.mem_iff.mp hmem)⟩

theorem Inv.handleReadEnd (h : Inv q) (hfresh : q.InsertsFresh (.handleReadEnd clock))
    (hstep : q.step (.handleReadEnd clock) = some q') : Inv q' := by
  have hsound := h.sound.handleReadEnd hstep
  obtain ⟨pass, heap, timers, timerfd, hpass, hcalled, rfl, hs, hkeep, honly, hother, hself, hall⟩ :=
    h.sound.handleReadEnd_spec hstep
  have hall := hall (hcalled ▸ hfresh pass hpass)
  have hback : ∀ p ∈ timers, p ∈ q.batch → ∃ t, q.heap p = some t ∧ t.repeats = true ∧
      heap p = some (t.restart pass.now clock) := fun p => h.sound.restarted_of_mem honly hself
  obtain ⟨-, -, halloc⟩ := h.sound.apart
  refine ⟨hs, hsound.nodup, ?_, ?_, ?_, ?_, by simp [called], ?_⟩
  · intro p hp
    obtain ⟨hmem, hin⟩ := h.sound.owned_of_end honly hp
    obtain ⟨u, hu, hseq⟩ := h.live p hmem
    by_cases hpb : p ∈ q.batch
    · -- only a repeating timer of the batch is owned after the pass
      obtain ⟨t, ht, -, hnew⟩ := hback p (hin hpb) hpb
      obtain rfl : t = u := Option.some.inj (ht.symm.trans hu)
      exact ⟨t.restart pass.now clock, hnew, (t.restart_sequence _ _).trans hseq⟩
    · exact ⟨u, (hother p hpb).trans hu, hseq⟩
  · intro p hp
    exact h.created p (hp.imp_left fun hp => (h.sound.owned_of_end honly hp).1)
  · intro p hp
    exact h.handed p (mem_of_mem_restarted honly (hp.resolve_right (by simp [batch, called, toCall])))
  · intro p hp u hu hone
    have hp' : p ∈ timers ∨ p ∈ q.allocated := hp.imp_right fun hp => hp.resolve_left (by simp [toCall])
    have hpb : p ∉ q.batch := by
      intro hpb
      have hmem := hp'.resolve_right fun hp => (halloc p hp).2 hpb
      obtain ⟨t, -, hrep, hnew⟩ := hback p hmem hpb
      obtain rfl := Option.some.inj (hnew.symm.trans hu)
      rw [Timer.restart_repeats] at hone
      exact absurd (hone.symm.trans hrep) Bool.false_ne_true
    refine h.unrun p ?_ u ((hother p hpb).symm.trans hu) hone
    rcases hp' with hp | hp
    · exact Or.inl ((mem_of_mem_restarted honly hp).resolve_right hpb)
    · exact Or.inr (Or.inr hp)
  · intro t ht
    rcases h.kept t ht with ⟨u, hu, hcb, hrep, hmem⟩ | ⟨hone, hran, hout⟩
    · by_cases hpb : t.sequence ∈ q.batch
      · cases hru : u.repeats with
        | true =>
          refine Or.inl ⟨u.restart pass.now clock, ?_, ?_, ?_, Or.inl ?_⟩
          · exact (hself _ hpb u hu).trans (by rw [afterReset, if_pos hru])
          · exact (u.restart_callback _ _).trans hcb
          · exact (u.restart_repeats _ _).trans hrep
          · exact hall (mem_repeating.mpr ⟨hpb, u, hu, hru⟩)
        | false =>
          have hcal : t.sequence ∈ q.called := by
            have : q.batch = q.called := by
              rw [← hcalled, TimerQueue.called, hpass]
              rfl
            exact this ▸ hpb
          refine Or.inr ⟨hrep ▸ hru, h.ranOnce _ hcal u hu hru, fun hmem => ?_⟩
          rcases mem_owned.mp hmem with hmem | hmem | hmem
          · obtain ⟨v, hv, hrv, -⟩ := hback _ hmem hpb
            obtain rfl : u = v := Option.some.inj (hu.symm.trans hv)
            exact absurd (hru.symm.trans hrv) Bool.false_ne_true
          · simp [batch, called, toCall] at hmem
          · exact (halloc _ hmem).2 hpb
      · exact Or.inl ⟨u, (hother _ hpb).trans hu, hcb, hrep, Or.inl (hkeep (hmem.resolve_right hpb))⟩
    · exact Or.inr ⟨hone, hran, fun hmem => hout (h.sound.owned_of_end honly hmem).1⟩

/-! ### A refused insertion loses its timer -/

theorem Inv.lost_of_refused (h : Inv q) {timer : Nat}
    (hmet : ¬ q.InsertsFresh (.addTimerInLoop timer clock))
    (hstep : q.step (.addTimerInLoop timer clock) = some q') : ¬ NoneLost q' := by
  obtain ⟨t, timerfd, ht, hall, rfl⟩ := step_addTimerInLoop hstep
  obtain ⟨other, hother⟩ := not_forall.mp hmet
  obtain ⟨hmem, heq⟩ := Classical.not_imp.mp hother
  have hself : KeyedSet.insert (expiration q.heap) timer q.timers = q.timers :=
    KeyedSet.insert_eq_self h.sorted hmem (not_not.mp heq)
  obtain ⟨v, hv, hseq⟩ := h.live timer (mem_owned.mpr (Or.inr (Or.inr hall)))
  obtain rfl : t = v := Option.some.inj (ht.symm.trans hv)
  obtain ⟨-, -, hapart⟩ := h.sound.apart
  intro hkept
  rcases hkept.kept t List.mem_cons_self with ⟨u, -, -, -, hin | hin⟩ | ⟨hone, hran⟩
  · rw [hself, hseq] at hin
    exact (hapart timer hall).1 hin
  · rw [hseq] at hin
    exact (hapart timer hall).2 hin
  · have hunrun := h.unrun timer (Or.inr (Or.inr hall)) t ht hone
    rw [hseq, List.count_eq_zero_of_not_mem hunrun] at hran
    cases hran

/-- When all restarted timers are in the set, their expirations differ, since those of a set do. -/
theorem Sound.fresh_of_end (h : Sound q) {pass : Pass} {heap : Nat → Option (Timer C)} {timers : List Nat}
    (hpass : q.pass = some pass) (hcalled : pass.called = q.batch)
    (hs : KeyedSet.Sorted (expiration heap) timers) (hkeep : q.timers ⊆ timers)
    (hother : ∀ p, p ∉ q.batch → heap p = q.heap p)
    (hself : ∀ p ∈ q.batch, ∀ t, q.heap p = some t → heap p = afterReset t pass.now clock)
    (hback : q.repeating q.batch ⊆ timers) : q.InsertsFresh (.handleReadEnd clock) := by
  obtain ⟨hnodup, hbatch, -⟩ := h.apart
  have hkeys : q.timers.map (expiration heap) = q.timers.map (expiration q.heap) :=
    List.map_congr_left fun p hp => expiration_congr (hother p fun hpb => hbatch p hpb hp)
  have hnew : (q.repeating q.batch).map (expiration heap) =
      (q.repeating q.batch).map (q.restarted pass.now clock) := by
    refine List.map_congr_left fun p hp => ?_
    obtain ⟨hpb, u, hu, hrep⟩ := mem_repeating.mp hp
    rw [expiration, hself p hpb u hu, restarted, hu, afterReset, if_pos hrep]
    rfl
  intro pass' hpass'
  obtain rfl : pass = pass' := Option.some.inj (hpass.symm.trans hpass')
  rw [hcalled, RestartsFresh, ← hkeys, ← hnew, ← List.map_append]
  refine List.Nodup.map_on ?_ ?_
  · intro p hp r hr heq
    exact hs.eq_of_key_eq ((List.append_subset.mpr ⟨hkeep, hback⟩) hp)
      ((List.append_subset.mpr ⟨hkeep, hback⟩) hr) heq
  · refine List.nodup_append.mpr ⟨h.sorted.nodup, hnodup.filter _, ?_⟩
    rintro p hp r hr rfl
    exact hbatch p (mem_repeating.mp hr).1 hp

theorem Inv.fresh_of_noneLost (h : Inv q) (hstep : q.step (.handleReadEnd clock) = some q')
    (hnone : NoneLost q') : q.InsertsFresh (.handleReadEnd clock) := by
  obtain ⟨pass, heap, timers, timerfd, hpass, hcalled, rfl, hs, hkeep, -, hother, hself, -⟩ :=
    h.sound.handleReadEnd_spec hstep
  refine h.sound.fresh_of_end hpass hcalled hs hkeep hother hself fun p hp => ?_
  obtain ⟨hpb, u, hu, hrep⟩ := mem_repeating.mp hp
  obtain ⟨t, ht, rfl⟩ := h.handed p (Or.inr hpb)
  refine hnone.repeating rfl t ht ?_
  rcases h.kept t ht with ⟨v, hv, -, hrv, -⟩ | ⟨-, -, hout⟩
  · obtain rfl : u = v := Option.some.inj (hu.symm.trans hv)
    rw [← hrv, hrep]
  · exact absurd (mem_owned.mpr (Or.inr (Or.inl hpb))) hout

/-! ### Every run -/

/-- **Kept timers**: in a run of any additions and passes, no timer is lost in any state reached if and
only if no insertion of the run meets the expiration of a timer in the set. -/
theorem timers_kept_iff (as : List (Label C)) :
    (runs C).Always NoneLost (new C) as ↔ (runs C).Meets InsertsFresh (new C) as := by
  refine Machine.always_iff_meets (I := Inv) (fun _ h => h.noneLost) ?_ ?_ new_inv
  · intro q a q' h hfresh hstep
    cases a with
    | newTimer cb when interval => exact h.newTimer hstep
    | addTimerInLoop timer clock => exact h.addTimerInLoop hfresh hstep
    | handleRead now => exact h.handleRead hstep
    | runNext => exact h.runNext hstep
    | handleReadEnd clock => exact h.handleReadEnd hfresh hstep
  · intro q a q' h hmet hstep
    cases a with
    | newTimer cb when interval => exact absurd trivial hmet
    | addTimerInLoop timer clock => exact h.lost_of_refused hmet hstep
    | handleRead now => exact absurd trivial hmet
    | runNext => exact absurd trivial hmet
    | handleReadEnd clock => exact fun hnone => hmet (h.fresh_of_noneLost hstep hnone)

/-- Two one-shot timers with one expiration: the second is refused, and no longer anywhere. -/
theorem equal_expiration_lost : ¬ ∀ as, (runs Nat).Always NoneLost (new Nat) as := by
  intro h
  have hlast := (h [.newTimer 0 5 0, .newTimer 1 5 0, .addTimerInLoop 0 0, .addTimerInLoop 1 0]).last rfl
  rcases hlast.kept ⟨1, 5, 0, false, 1⟩ List.mem_cons_self with ⟨u, -, -, -, hin | hin⟩ | ⟨-, hran⟩
  · exact absurd hin (by decide)
  · exact absurd hin (by decide)
  · exact absurd hran (by decide)

end Siren.TimerQueue
