import Mathlib.Data.List.Nodup
import Mathlib.Logic.Function.Basic
import Siren.Lib.Machine

/-!
# The functor mailbox of `EventLoop`

`queueInLoop` appends to `pendingFunctors_` from any thread, `doPendingFunctors` swaps the list out on
the loop thread and runs it. An append is a load of the list followed by a store of the extended list;
two appends interleave unless a mutex the code really acquires keeps them apart. Which mutex that is
depends on how the lock statement at the head of the block is parsed (`LockStatement.acquires`): the
statement of `doPendingFunctors` names its lock and holds `mutex_`, the one of `queueInLoop` declares a
local variable and holds nothing.

* `queueInLoop_delivered_iff`: with the statements as written, nothing is lost, duplicated or reordered
  exactly in the runs where every store finds the list it loaded (`StoreFresh`).
* `guarded_storeFresh`: with a statement that acquires `mutex_`, as in `doPendingFunctors`, every run is
  such a run.
-/

namespace Siren.EventLoop

/-! ### Lock statements -/

/-- The two shapes of a `std::unique_lock<std::mutex>` statement in `EventLoop.cpp`. -/
inductive LockStatement where
  /-- `std::unique_lock<std::mutex> name(arg);` -/
  | named (name arg : String)
  /-- `std::unique_lock<std::mutex>(ident);` -/
  | unnamed (ident : String)

/-- The mutex a lock statement acquires. A statement `T(x);` that can be read as a declaration is one:
it declares a default-constructed `unique_lock` called `x`, which owns no mutex. -/
def LockStatement.acquires : LockStatement → Option String
  | .named _ arg => some arg
  | .unnamed _ => none

/-- The lock statement of `EventLoop::doPendingFunctors`. -/
def doPendingFunctorsLock : LockStatement := .named "lock" "mutex_"

/-- The lock statement of `EventLoop::queueInLoop`. -/
def queueInLoopLock : LockStatement := .unnamed "mutex_"

/-- Whether a block that starts with this statement runs under the member `mutex_`. -/
def LockStatement.guards (lock : LockStatement) : Bool := lock.acquires == some "mutex_"

example : doPendingFunctorsLock.guards = true ∧ queueInLoopLock.guards = false := by decide

/-! ### The mailbox -/

/-- A caller of `queueInLoop`: the loop thread itself, from a functor or a callback, or another thread. -/
inductive Caller (T : Type*) where
  | loop
  | other (thread : T)
  deriving DecidableEq

/-- A functor passed to `queueInLoop`, with its caller and the number of that caller's earlier calls. -/
structure Entry (T F : Type*) where
  caller : Caller T
  call : Nat
  functor : F
  deriving DecidableEq

structure State (T F : Type*) where
  /-- `mutex_`: its holder. -/
  mutex : Option (Caller T)
  /-- `pendingFunctors_` -/
  pendingFunctors : List (Entry T F)
  /-- The local `functors` of `doPendingFunctors`, less those already run. -/
  functors : List (Entry T F)
  /-- The `push_back` a caller is in: the entry and the list it loaded. -/
  pushing : Caller T → Option (Entry T F × List (Entry T F))
  /-- How many calls of `queueInLoop` a caller has begun. -/
  calls : Caller T → Nat
  /-- History: the entries stored so far. -/
  queued : List (Entry T F)
  /-- History: the entries whose turn in the loop of `doPendingFunctors` has come. -/
  ran : List (Entry T F)

/-- A freshly constructed loop. -/
def State.init (T F : Type*) : State T F where
  mutex := none
  pendingFunctors := []
  functors := []
  pushing _ := none
  calls _ := 0
  queued := []
  ran := []

inductive Label (T F : Type*) where
  /-- A caller enters the block of `queueInLoop` and `push_back` loads the list. -/
  | load (caller : Caller T) (functor : F)
  /-- `push_back` stores the extended list and the block ends. -/
  | store (caller : Caller T)
  /-- `functors.swap(pendingFunctors_)` in `doPendingFunctors`. -/
  | swap
  /-- The next iteration of the loop over `functors`. -/
  | runNext

variable {T F : Type*} [DecidableEq T]

/-- The mailbox when the block of `queueInLoop` starts with `lock`. The loop thread swaps and runs only
between its own calls of `queueInLoop`; the swap needs `mutex_` free, since its own statement holds it. -/
def step (lock : LockStatement) (s : State T F) : Label T F → Option (State T F)
  | .load caller functor =>
    if (s.pushing caller).isSome ∨ (lock.guards ∧ s.mutex.isSome) then none
    else some { s with
      mutex := if lock.guards then some caller else s.mutex
      pushing := Function.update s.pushing caller
        (some (⟨caller, s.calls caller, functor⟩, s.pendingFunctors))
      calls := Function.update s.calls caller (s.calls caller + 1) }
  | .store caller =>
    match s.pushing caller with
    | none => none
    | some (entry, loaded) => some { s with
      mutex := if lock.guards then none else s.mutex
      pendingFunctors := loaded ++ [entry]
      pushing := Function.update s.pushing caller none
      queued := s.queued ++ [entry] }
  | .swap =>
    if s.functors ≠ [] ∨ (s.pushing .loop).isSome ∨ (doPendingFunctorsLock.guards ∧ s.mutex.isSome) then
      none
    else some { s with functors := s.pendingFunctors, pendingFunctors := [] }
  | .runNext =>
    if (s.pushing .loop).isSome then none
    else match s.functors with
    | [] => none
    | entry :: rest => some { s with functors := rest, ran := s.ran ++ [entry] }

def mailbox (T F : Type*) [DecidableEq T] (lock : LockStatement) : Machine (State T F) (Label T F) :=
  ⟨step lock⟩

/-! ### What the mailbox owes its callers -/

/-- Every entry handed over is pending, in the batch being run or has been run, and nothing twice; and
each caller's entries run in the order it queued them. -/
structure Delivered (s : State T F) : Prop where
  conserved : s.queued.Perm (s.ran ++ s.functors ++ s.pendingFunctors)
  inOrder : ∀ caller, s.ran.filter (·.caller = caller) <+: s.queued.filter (·.caller = caller)

/-- A store finds the list that the same `push_back` loaded. -/
def StoreFresh (s : State T F) : Label T F → Prop
  | .store caller => ∀ entry loaded, s.pushing caller = some (entry, loaded) → loaded = s.pendingFunctors
  | _ => True

/-- What holds as long as every store was fresh: the history is the batch so far, the batch and the
pending list in one piece, and a loaded list is still a part of one of them. -/
structure Inv (s : State T F) : Prop where
  history : s.queued = s.ran ++ s.functors ++ s.pendingFunctors
  nodup : s.queued.Nodup
  numbered : ∀ entry ∈ s.queued, entry.call < s.calls entry.caller
  owner : ∀ caller entry loaded, s.pushing caller = some (entry, loaded) →
    entry.caller = caller ∧ entry.call < s.calls caller ∧ entry ∉ s.queued
  loaded : ∀ caller entry loaded, s.pushing caller = some (entry, loaded) →
    loaded <+: s.pendingFunctors ∨ loaded ⊆ s.ran ++ s.functors

omit [DecidableEq T] in
theorem init_inv : Inv (State.init T F) where
  history := rfl
  nodup := List.nodup_nil
  numbered := by simp [State.init]
  owner := by simp [State.init]
  loaded := by simp [State.init]

theorem Inv.delivered {s : State T F} (h : Inv s) : Delivered s where
  conserved := h.history ▸ List.Perm.refl _
  inOrder caller := by
    rw [h.history, List.append_assoc, List.filter_append]
    exact List.prefix_append _ _

/-! ### What each step does -/

variable {lock : LockStatement} {s t : State T F}

theorem step_load {caller : Caller T} {functor : F} (h : step lock s (.load caller functor) = some t) :
    s.pushing caller = none ∧ (lock.guards → s.mutex = none) ∧
      t = { s with
        mutex := if lock.guards then some caller else s.mutex
        pushing := Function.update s.pushing caller
          (some (⟨caller, s.calls caller, functor⟩, s.pendingFunctors))
        calls := Function.update s.calls caller (s.calls caller + 1) } := by
  simp only [step] at h
  split at h
  · cases h
  · rename_i hfree
    obtain rfl := Option.some.inj h
    simp only [not_or, not_and, Bool.not_eq_true, Option.isSome_eq_false_iff, Option.isNone_iff_eq_none]
      at hfree
    exact ⟨hfree.1, hfree.2, rfl⟩

theorem step_store {caller : Caller T} (h : step lock s (.store caller) = some t) :
    ∃ entry loaded, s.pushing caller = some (entry, loaded) ∧
      t = { s with
        mutex := if lock.guards then none else s.mutex
        pendingFunctors := loaded ++ [entry]
        pushing := Function.update s.pushing caller none
        queued := s.queued ++ [entry] } := by
  simp only [step] at h
  split at h
  · cases h
  · rename_i entry loaded hpush
    exact ⟨entry, loaded, hpush, (Option.some.inj h).symm⟩

theorem step_swap (h : step lock s .swap = some t) :
    s.functors = [] ∧ s.pushing .loop = none ∧ s.mutex = none ∧
      t = { s with functors := s.pendingFunctors, pendingFunctors := [] } := by
  simp only [step] at h
  split at h
  · cases h
  · rename_i hfree
    obtain rfl := Option.some.inj h
    simp only [ne_eq, not_or, not_not, not_and, Bool.not_eq_true, Option.isSome_eq_false_iff,
      Option.isNone_iff_eq_none] at hfree
    exact ⟨hfree.1, hfree.2.1, hfree.2.2 (by decide), rfl⟩

theorem step_runNext (h : step lock s .runNext = some t) :
    ∃ entry rest, s.functors = entry :: rest ∧ s.pushing .loop = none ∧
      t = { s with functors := rest, ran := s.ran ++ [entry] } := by
  simp only [step] at h
  split at h
  · cases h
  · rename_i hloop
    split at h
    · cases h
    · rename_i entry rest hbatch
      exact ⟨entry, rest, hbatch, by simpa using hloop, (Option.some.inj h).symm⟩

/-- A caller that still is in a `push_back` after another one left its own was in it before. -/
theorem pushing_of_left {pushing : Caller T → Option (Entry T F × List (Entry T F))}
    {caller c : Caller T} {entry : Entry T F} {loaded : List (Entry T F)}
    (h : Function.update pushing caller none c = some (entry, loaded)) :
    c ≠ caller ∧ pushing c = some (entry, loaded) := by
  have hne : c ≠ caller := by
    rintro rfl
    simp at h
  exact ⟨hne, by rwa [Function.update_of_ne hne] at h⟩

/-! ### The invariant -/

theorem Inv.load {caller : Caller T} {functor : F} (h : Inv s)
    (hstep : step lock s (.load caller functor) = some t) : Inv t := by
  obtain ⟨-, -, rfl⟩ := step_load hstep
  have hgrow : ∀ c, s.calls c ≤ Function.update s.calls caller (s.calls caller + 1) c := by
    intro c
    by_cases hc : c = caller
    · subst hc; simp
    · simp [hc]
  have hfresh : ∀ entry ∈ s.queued, entry ≠ ⟨caller, s.calls caller, functor⟩ := by
    rintro entry hmem rfl
    exact lt_irrefl _ (h.numbered _ hmem)
  refine ⟨h.history, h.nodup, fun entry hmem => (h.numbered entry hmem).trans_le (hgrow _), ?_, ?_⟩
  · intro c entry loaded hpush
    by_cases hc : c = caller
    · subst hc
      simp only [Function.update_self, Option.some.injEq, Prod.mk.injEq] at hpush
      obtain ⟨rfl, rfl⟩ := hpush
      exact ⟨rfl, by simp, fun hmem => hfresh _ hmem rfl⟩
    · simp only [Function.update_of_ne hc] at hpush ⊢
      exact h.owner c entry loaded hpush
  · intro c entry loaded hpush
    by_cases hc : c = caller
    · subst hc
      simp only [Function.update_self, Option.some.injEq, Prod.mk.injEq] at hpush
      exact Or.inl (hpush.2 ▸ List.prefix_rfl)
    · simp only [Function.update_of_ne hc] at hpush
      exact h.loaded c entry loaded hpush

theorem Inv.store {caller : Caller T} (h : Inv s) (hfresh : StoreFresh s (.store caller))
    (hstep : step lock s (.store caller) = some t) : Inv t := by
  obtain ⟨entry, loaded, hpush, rfl⟩ := step_store hstep
  obtain rfl := hfresh entry loaded hpush
  obtain ⟨hcaller, hcall, hnew⟩ := h.owner caller entry _ hpush
  refine ⟨by simp [h.history], ?_, ?_, ?_, ?_⟩
  · simpa [List.nodup_append, h.nodup] using fun e he => ne_of_mem_of_not_mem he hnew
  · intro e he
    rcases List.mem_append.mp he with he | he
    · exact h.numbered e he
    · rw [List.mem_singleton] at he
      subst he
      rwa [hcaller]
  · intro c e l hc
    obtain ⟨hne, hc⟩ := pushing_of_left hc
    obtain ⟨hc1, hc2, hc3⟩ := h.owner c e l hc
    refine ⟨hc1, hc2, fun hmem => ?_⟩
    rcases List.mem_append.mp hmem with hmem | hmem
    · exact hc3 hmem
    · rw [List.mem_singleton] at hmem
      exact hne (hc1 ▸ hmem ▸ hcaller)
  · intro c e l hc
    obtain ⟨-, hc⟩ := pushing_of_left hc
    exact (h.loaded c e l hc).imp_left fun hpre => hpre.trans (List.prefix_append _ _)

theorem Inv.swap (h : Inv s) (hstep : step lock s .swap = some t) : Inv t := by
  obtain ⟨hempty, -, -, rfl⟩ := step_swap hstep
  refine ⟨by simp [h.history, hempty], h.nodup, h.numbered, h.owner, fun c e l hc => Or.inr ?_⟩
  rcases h.loaded c e l hc with hpre | hsub
  · exact fun x hx => List.mem_append_right _ (hpre.subset hx)
  · intro x hx
    have hmem := hsub hx
    rw [hempty, List.append_nil] at hmem
    exact List.mem_append_left _ hmem

theorem Inv.runNext (h : Inv s) (hstep : step lock s .runNext = some t) : Inv t := by
  obtain ⟨entry, rest, hbatch, -, rfl⟩ := step_runNext hstep
  refine ⟨by simp [h.history, hbatch], h.nodup, h.numbered, h.owner, fun c e l hc => ?_⟩
  refine (h.loaded c e l hc).imp_right fun hsub x hx => ?_
  simpa [hbatch] using hsub hx

theorem Inv.step (h : Inv s) {a : Label T F} (hfresh : StoreFresh s a)
    (hstep : step lock s a = some t) : Inv t := by
  cases a with
  | load caller functor => exact h.load hstep
  | store caller => exact h.store hfresh hstep
  | swap => exact h.swap hstep
  | runNext => exact h.runNext hstep

/-- Two lists with the same elements, one of which is an initial piece of the other or lies in a part of
a duplicate-free list that the other is disjoint from, are equal. -/
theorem eq_of_perm_of_prefix_or_subset {α : Type*} {l pending earlier : List α}
    (hperm : pending.Perm l) (hnodup : (earlier ++ pending).Nodup)
    (h : l <+: pending ∨ l ⊆ earlier) : l = pending := by
  rcases h with hpre | hsub
  · exact hpre.eq_of_length hperm.length_eq.symm
  · have hnil : l = [] := by
      refine List.eq_nil_iff_forall_not_mem.mpr fun x hx => ?_
      exact (List.disjoint_of_nodup_append hnodup) (hsub hx) (hperm.mem_iff.mpr hx)
    subst hnil
    exact (List.perm_nil.mp hperm).symm

/-- A stale store loses or duplicates an entry at once. -/
theorem Inv.not_delivered_of_stale (h : Inv s) {a : Label T F} (hstale : ¬ StoreFresh s a)
    (hstep : EventLoop.step lock s a = some t) : ¬ Delivered t := by
  cases a with
  | load caller functor => exact absurd trivial hstale
  | swap => exact absurd trivial hstale
  | runNext => exact absurd trivial hstale
  | store caller =>
    obtain ⟨entry, loaded, hpush, rfl⟩ := step_store hstep
    intro hdel
    refine hstale fun e l hl => ?_
    rw [hpush, Option.some.injEq, Prod.mk.injEq] at hl
    obtain ⟨rfl, rfl⟩ := hl
    have hperm : s.pendingFunctors.Perm loaded := by
      have hcons := hdel.conserved
      simp only [h.history] at hcons
      rw [← List.append_assoc, List.perm_append_right_iff, List.perm_append_left_iff] at hcons
      exact hcons
    exact eq_of_perm_of_prefix_or_subset hperm (h.history ▸ h.nodup) (h.loaded _ _ _ hpush)

/-! ### Every interleaving -/

/-- **The mailbox as written**: in a run of any number of threads with the loop, nothing is lost,
duplicated or reordered in any state reached if and only if every store of the run was fresh. -/
theorem queueInLoop_delivered_iff (as : List (Label T F)) :
    (mailbox T F queueInLoopLock).Always Delivered (State.init T F) as ↔
      (mailbox T F queueInLoopLock).Meets StoreFresh (State.init T F) as :=
  Machine.always_iff_meets (I := Inv) (fun _ h => h.delivered)
    (fun _ _ _ h hfresh hstep => h.step hfresh hstep)
    (fun _ _ _ h hstale hstep => h.not_delivered_of_stale hstale hstep) init_inv

/-- Two threads load the empty list and both store: the first functor is gone, neither pending nor in a
batch nor run. -/
theorem queueInLoop_loses_functor :
    ¬ ∀ as, (mailbox Nat Nat queueInLoopLock).Always Delivered (State.init Nat Nat) as := by
  intro h
  have hlast := (h [.load (.other 0) 10, .load (.other 1) 11, .store (.other 0), .store (.other 1)]).last
    rfl
  have hperm := hlast.conserved.length_eq
  exact absurd hperm (by decide)

/-! ### The statement of `doPendingFunctors` in its place -/

/-- With `mutex_` held, at most its holder is inside a `push_back`, and the list it loaded is current. -/
def Guarded (s : State T F) : Prop :=
  ∀ caller entry loaded, s.pushing caller = some (entry, loaded) →
    s.mutex = some caller ∧ loaded = s.pendingFunctors

theorem Guarded.step (hlock : lock.guards = true) (h : Guarded s) {a : Label T F}
    (hstep : EventLoop.step lock s a = some t) : Guarded t := by
  cases a with
  | load caller functor =>
    obtain ⟨-, hfree, rfl⟩ := step_load hstep
    intro c entry loaded hpush
    by_cases hc : c = caller
    · subst hc
      simp only [Function.update_self, Option.some.injEq, Prod.mk.injEq] at hpush
      exact ⟨by simp [hlock], hpush.2.symm⟩
    · simp only [Function.update_of_ne hc] at hpush
      have hheld := (h c entry loaded hpush).1
      rw [hfree hlock] at hheld
      cases hheld
  | store caller =>
    obtain ⟨entry, loaded, hpush, rfl⟩ := step_store hstep
    intro c e l hc
    obtain ⟨hne, hc⟩ := pushing_of_left hc
    have hheld := (h caller entry loaded hpush).1
    rw [(h c e l hc).1, Option.some.injEq] at hheld
    exact absurd hheld hne
  | swap =>
    obtain ⟨-, -, hfree, rfl⟩ := step_swap hstep
    intro c entry loaded hpush
    have hheld := (h c entry loaded hpush).1
    rw [hfree] at hheld
    cases hheld
  | runNext =>
    obtain ⟨entry, rest, -, -, rfl⟩ := step_runNext hstep
    exact h

/-- With a statement that acquires `mutex_`, every store of every run is fresh. -/
theorem guarded_storeFresh (hlock : lock.guards = true) (as : List (Label T F)) :
    (mailbox T F lock).Meets StoreFresh (State.init T F) as := by
  refine Machine.Meets.of_invariant (I := Guarded) (by simp [Guarded, State.init]) ?_
    fun _ _ _ h hstep => h.step hlock hstep
  intro s a t h _
  cases a with
  | store caller => exact fun entry loaded hpush => (h caller entry loaded hpush).2
  | _ => trivial

end Siren.EventLoop
