import Siren.Base.Types
import Siren.Lib.CondVar
import Siren.Lib.Machine

/-!
# `CountDownLatch`

The latch of `CountDownLatch.cpp`, used by any number of threads. Each section that holds `mutex_` is one step:
`countDown` has one, `wait` has one for each time that it comes to the test of its loop. `countDown` notifies
only at the value 0 exactly, and `notify_all` is not repeated: a thread that would block later would stay.

* `open_to_all`: in every interleaving a `wait` returned only after as many calls of `countDown` as the latch was
  made for, and from then on nobody is blocked and whoever is in `wait` returns with its next section.
-/

namespace Siren

/-- A latch among threads `ι`. -/
structure CountDownLatch (ι : Type*) where
  count : Int
  condition : CondVar ι
  /-- The threads in `wait` that stand for the lock, not notified. -/
  waiting : Finset ι
  /-- History: the number of calls of `countDown`. -/
  countDowns : Nat
  /-- History: the threads of the calls of `wait` that returned. -/
  returned : List ι

namespace CountDownLatch

variable {ι : Type*} [DecidableEq ι]

omit [DecidableEq ι] in
variable (ι) in
/-- `CountDownLatch(count)` -/
def new (count : Int) : CountDownLatch ι := ⟨count, .new ι, ∅, 0, []⟩

/-! ### The sections -/

variable (s : CountDownLatch ι)

/-- `wait` from the test of its loop: it waits, or returns. -/
def test (i : ι) : CountDownLatch ι :=
  if 0 < s.count then { s with condition := s.condition.wait i } else { s with returned := s.returned ++ [i] }

def countDown : CountDownLatch ι :=
  let s := { s with count := s.count - 1, countDowns := s.countDowns + 1 }
  if s.count = 0 then { s with condition := s.condition.notifyAll } else s

def getCount : Int := s.count

/-! ### Steps -/

inductive Label (ι : Type*) where
  | countDown (i : ι)
  /-- `wait` is called. -/
  | wait (i : ι)
  /-- `wait` has the lock, from its beginning or after it woke up by itself. -/
  | lock (i : ι)
  /-- `wait` has the lock after it was notified. -/
  | resume (i : ι)
  /-- The condition variable wakes up a thread by itself. -/
  | wake (i : ι)

/-- The thread is in `wait`. -/
def InWait (i : ι) : Prop := i ∈ s.waiting ∨ i ∈ s.condition.blocked ∨ i ∈ s.condition.notified

/-- `count_--` at the least `int` is undefined. -/
def Enabled : Label ι → Prop
  | .countDown i => ¬ s.InWait i ∧ -(2 ^ 31) < s.count
  | .wait i => ¬ s.InWait i
  | .lock i => i ∈ s.waiting
  | .resume i => i ∈ s.condition.notified
  | .wake i => i ∈ s.condition.blocked

instance (a : Label ι) : Decidable (s.Enabled a) := by
  cases a <;> unfold Enabled <;> unfold InWait <;> infer_instance

def effect : Label ι → CountDownLatch ι
  | .countDown _ => s.countDown
  | .wait i => { s with waiting := insert i s.waiting }
  | .lock i => test { s with waiting := s.waiting.erase i } i
  | .resume i => test { s with condition := s.condition.resume i } i
  | .wake i => { s with condition := s.condition.wake i, waiting := insert i s.waiting }

variable (ι) in
def runs : Machine (CountDownLatch ι) (Label ι) := .guarded Enabled effect

/-! ### What is kept -/

/-- A latch made for `n` calls: it counts them, and nobody is blocked or was let through against the count. -/
structure Counts (n : Int) : Prop where
  count : s.count = n - s.countDowns
  blocked : s.condition.blocked.Nonempty → 0 < s.count
  returned : s.returned ≠ [] → s.count ≤ 0

variable {s} {t : CountDownLatch ι} {a : Label ι} {n : Int} {i : ι}

omit [DecidableEq ι] in
theorem counts_new (n : Int) : (new ι n).Counts n where
  count := by
    show n = n - ((0 : Nat) : Int)
    omega
  blocked := fun hblocked => absurd hblocked Finset.not_nonempty_empty
  returned := fun hreturned => absurd rfl hreturned

theorem test_closed (h : 0 < s.count) : s.test i = { s with condition := s.condition.wait i } := if_pos h

theorem test_open (h : s.count ≤ 0) : s.test i = { s with returned := s.returned ++ [i] } :=
  if_neg (by omega)

theorem test_returned (h : s.count ≤ 0) : (s.test i).returned = s.returned ++ [i] := by
  rw [test_open h]

theorem Counts.test (h : s.Counts n) (i : ι) : (s.test i).Counts n := by
  rcases lt_or_ge 0 s.count with hclosed | hopen
  · rw [test_closed hclosed]
    exact ⟨h.count, fun _ => hclosed, h.returned⟩
  · rw [test_open hopen]
    exact ⟨h.count, h.blocked, fun _ => hopen⟩

/-- From 1 the count goes to 0, where all that are blocked are notified; from 0 on nobody is blocked. -/
theorem Counts.countDown (h : s.Counts n) : s.countDown.Counts n := by
  have hcount : s.count - 1 = n - ((s.countDowns + 1 : Nat) : Int) := by
    have := h.count
    omega
  have hreturned : s.returned ≠ [] → s.count - 1 ≤ 0 := by
    intro hne
    have := h.returned hne
    omega
  unfold CountDownLatch.countDown
  dsimp only
  split
  · exact ⟨hcount, fun hblocked => absurd hblocked Finset.not_nonempty_empty, hreturned⟩
  · rename_i hzero
    refine ⟨hcount, fun hblocked => ?_, hreturned⟩
    have hpos : 0 < s.count := h.blocked hblocked
    show 0 < s.count - 1
    omega

theorem Counts.step (h : s.Counts n) (hstep : (runs ι).step s a = some t) : t.Counts n := by
  obtain ⟨henabled, rfl⟩ := Machine.guarded_step_eq_some.mp hstep
  cases a with
  | countDown i => exact h.countDown
  | wait i => exact ⟨h.count, h.blocked, h.returned⟩
  | lock i => exact Counts.test (s := { s with waiting := s.waiting.erase i }) ⟨h.count, h.blocked, h.returned⟩ i
  | resume i =>
    exact Counts.test (s := { s with condition := s.condition.resume i }) ⟨h.count, h.blocked, h.returned⟩ i
  | wake i =>
    exact ⟨h.count, fun hblocked => h.blocked (hblocked.mono (Finset.erase_subset i _)), h.returned⟩

/-! ### The open latch -/

theorem Counts.blocked_of_open (h : s.Counts n) (hopen : s.count ≤ 0) : s.condition.blocked = ∅ := by
  by_contra hne
  have := h.blocked (Finset.nonempty_iff_ne_empty.mpr hne)
  omega

/-- Whoever is in `wait` returns with its next section. -/
theorem Counts.returns (h : s.Counts n) (hopen : s.count ≤ 0) (hi : s.InWait i) :
    ∃ a ∈ [Label.lock i, Label.resume i], ∃ t, (runs ι).step s a = some t ∧
      t.returned = s.returned ++ [i] := by
  rcases hi with hi | hi | hi
  · refine ⟨.lock i, List.mem_cons_self, _, Machine.guarded_step_eq_some.mpr ⟨hi, rfl⟩, ?_⟩
    exact test_returned (s := { s with waiting := s.waiting.erase i }) hopen
  · rw [h.blocked_of_open hopen] at hi
    exact absurd hi (Finset.notMem_empty i)
  · refine ⟨.resume i, List.mem_cons_of_mem _ List.mem_cons_self, _,
      Machine.guarded_step_eq_some.mpr ⟨hi, rfl⟩, ?_⟩
    exact test_returned (s := { s with condition := s.condition.resume i }) hopen

/-- **Nobody passes early, nobody is left behind**: in every state of every interleaving of a latch made for `n`
calls of `countDown`, `getCount` is what is left of them; if a `wait` has returned, there were at least `n`; and
once there were, nobody is blocked, and each thread in `wait` is one section away from its return. -/
theorem open_to_all (n : Int) (as : List (Label ι)) :
    (runs ι).Always (fun s => s.getCount = n - s.countDowns ∧
      (s.returned ≠ [] → n ≤ s.countDowns) ∧
      (n ≤ s.countDowns → s.condition.blocked = ∅ ∧
        ∀ i, s.InWait i → ∃ a ∈ [Label.lock i, Label.resume i], ∃ t, (runs ι).step s a = some t ∧
          t.returned = s.returned ++ [i])) (new ι n) as := by
  have hinv : (runs ι).Always (Counts · n) (new ι n) as :=
    .of_step (counts_new n) fun _ _ _ h hstep => h.step hstep
  refine hinv.mono fun s h => ⟨h.count, fun hreturned => ?_, fun hle => ?_⟩
  · have hopen := h.returned hreturned
    have hcount := h.count
    omega
  · have hopen : s.count ≤ 0 := by
      have hcount := h.count
      omega
    refine ⟨h.blocked_of_open hopen, fun i hi => ?_⟩
    exact h.returns hopen hi

/-- The second `countDown` lets through the thread that is blocked; one that calls `wait` later is not held. -/
example : ((runs Nat).run (new Nat 2)
    [.wait 0, .lock 0, .countDown 1, .countDown 2, .wait 1, .lock 1, .resume 0]).map
      (fun s => (s.count, s.returned, s.condition.blocked)) = some (0, [1, 0], ∅) := by
  decide

end CountDownLatch

end Siren
