import Siren.Lib.CondVar
import Siren.Lib.Machine

/-!
# `BlockingQueue`

The queue of `BlockingQueue.h`, used by any number of threads. Each section that holds `mutex_` is one step:
`put` and `drain` have one, `take` has one for each time that it comes to the test of its loop, with the lock
from its beginning or back from `wait`. In between `take` stands for the lock or is in `wait` on `notEmpty_`.

* `handed_over_once`: in every interleaving what takes and drains removed and then what is left in the queue is
  what was put, in that order; and while a consumer is blocked without a notification, the queue has no more
  elements than there are consumers that were notified and have not resumed;
* `HandsOver.emptied`: these consumers empty the queue when they resume.
-/

namespace Siren

/-- A queue of `α` among threads `ι`. -/
structure BlockingQueue (ι α : Type*) where
  queue : List α
  notEmpty : CondVar ι
  /-- The threads in `take` that stand for the lock, not notified. -/
  taking : Finset ι
  /-- History: the elements put. -/
  puts : List α
  /-- History: the elements removed, each with its thread. -/
  removed : List (ι × α)

namespace BlockingQueue

variable {ι α : Type*} [DecidableEq ι]

def new (ι α : Type*) : BlockingQueue ι α := ⟨[], .new ι, ∅, [], []⟩

/-! ### The sections -/

variable (s : BlockingQueue ι α)

/-- `put`, when `notify_one` chooses `choice`. -/
def put (x : α) (choice : Option ι) : BlockingQueue ι α :=
  { s with queue := s.queue ++ [x], notEmpty := s.notEmpty.notifyOne choice, puts := s.puts ++ [x] }

/-- `take` from the test of its loop: it waits, or takes the front. -/
def takeFront (i : ι) : BlockingQueue ι α :=
  match s.queue with
  | [] => { s with notEmpty := s.notEmpty.wait i }
  | x :: queue => { s with queue, removed := s.removed ++ [(i, x)] }

/-- `drain`: the deque moved from is empty. -/
def drain (i : ι) : BlockingQueue ι α :=
  { s with queue := [], removed := s.removed ++ s.queue.map (i, ·) }

/-! ### Steps -/

inductive Label (ι α : Type*) where
  | put (i : ι) (x : α) (choice : Option ι)
  /-- `take` is called. -/
  | take (i : ι)
  /-- `take` has the lock, from its beginning or after it woke up by itself. -/
  | lock (i : ι)
  /-- `take` has the lock after it was notified. -/
  | resume (i : ι)
  /-- `wait` wakes up by itself. -/
  | wake (i : ι)
  | drain (i : ι)

/-- The thread is in no call. -/
def Idle (i : ι) : Prop := i ∉ s.taking ∧ i ∉ s.notEmpty.blocked ∧ i ∉ s.notEmpty.notified

def Enabled : Label ι α → Prop
  | .put i _ choice => s.Idle i ∧ s.notEmpty.MayNotify choice
  | .take i => s.Idle i
  | .lock i => i ∈ s.taking
  | .resume i => i ∈ s.notEmpty.notified
  | .wake i => i ∈ s.notEmpty.blocked
  | .drain i => s.Idle i

instance (a : Label ι α) : Decidable (s.Enabled a) := by
  cases a <;> unfold Enabled <;> unfold Idle <;> infer_instance

def effect : Label ι α → BlockingQueue ι α
  | .put _ x choice => s.put x choice
  | .take i => { s with taking := insert i s.taking }
  | .lock i => takeFront { s with taking := s.taking.erase i } i
  | .resume i => takeFront { s with notEmpty := s.notEmpty.resume i } i
  | .wake i => { s with notEmpty := s.notEmpty.wake i, taking := insert i s.taking }
  | .drain i => s.drain i

variable (ι α) in
def runs : Machine (BlockingQueue ι α) (Label ι α) := .guarded Enabled effect

/-! ### What is kept -/

/-- The elements that were put are those removed and those in the queue, in order, and no consumer is left
blocked over an element that nobody comes for. -/
structure HandsOver : Prop where
  once : s.removed.map Prod.snd ++ s.queue = s.puts
  covers : s.notEmpty.Covers s.queue.length

variable {s} {t : BlockingQueue ι α} {a : Label ι α}

omit [DecidableEq ι] in
theorem handsOver_new : (new ι α).HandsOver := ⟨rfl, CondVar.covers_new 0⟩

theorem HandsOver.put (h : s.HandsOver) (x : α) {choice : Option ι} (hmay : s.notEmpty.MayNotify choice) :
    (s.put x choice).HandsOver where
  once := by
    show s.removed.map Prod.snd ++ (s.queue ++ [x]) = s.puts ++ [x]
    rw [← List.append_assoc, h.once]
  covers := by
    show (s.notEmpty.notifyOne choice).Covers (s.queue ++ [x]).length
    rw [List.length_append]
    exact h.covers.notifyOne hmay

/-- At its test `take` needs one of the elements to be free for it: the front, where there is one. -/
theorem takeFront_handsOver (honce : s.removed.map Prod.snd ++ s.queue = s.puts)
    (hcovers : s.notEmpty.Covers (s.queue.length - 1)) (i : ι) : (s.takeFront i).HandsOver := by
  unfold takeFront
  split
  · rename_i hqueue
    refine ⟨honce, ?_⟩
    show (s.notEmpty.wait i).Covers s.queue.length
    rw [hqueue]
    exact CondVar.covers_zero _
  · rename_i x queue hqueue
    rw [hqueue] at honce hcovers
    refine ⟨?_, hcovers⟩
    show (s.removed ++ [(i, x)]).map Prod.snd ++ queue = s.puts
    rw [List.map_append, List.append_assoc]
    exact honce

omit [DecidableEq ι] in
theorem HandsOver.drain (h : s.HandsOver) (i : ι) : (s.drain i).HandsOver where
  once := by
    have hsnd : (s.queue.map (i, ·)).map Prod.snd = s.queue := by
      rw [List.map_map]
      exact List.map_id s.queue
    show (s.removed ++ s.queue.map (i, ·)).map Prod.snd ++ [] = s.puts
    rw [List.append_nil, List.map_append, hsnd]
    exact h.once
  covers := CondVar.covers_zero _

theorem HandsOver.step (h : s.HandsOver) (hstep : (runs ι α).step s a = some t) : t.HandsOver := by
  obtain ⟨henabled, rfl⟩ := Machine.guarded_step_eq_some.mp hstep
  cases a with
  | put i x choice => exact h.put x henabled.2
  | take i => exact ⟨h.once, h.covers⟩
  | lock i =>
    exact takeFront_handsOver (s := { s with taking := s.taking.erase i }) h.once
      (h.covers.mono (Nat.sub_le _ 1)) i
  | resume i =>
    exact takeFront_handsOver (s := { s with notEmpty := s.notEmpty.resume i }) h.once (h.covers.resume henabled) i
  | wake i => exact ⟨h.once, h.covers.wake i⟩
  | drain i => exact h.drain i

/-! ### Elements before blocked consumers -/

/-- While a consumer is blocked, the front has a notified one that takes it as soon as it has the lock. -/
theorem HandsOver.front_taken (h : s.HandsOver) (hblocked : s.notEmpty.blocked.Nonempty) {x : α} {queue : List α}
    (hqueue : s.queue = x :: queue) :
    ∃ i t, (runs ι α).step s (.resume i) = some t ∧ t.queue = queue ∧ t.removed = s.removed ++ [(i, x)] ∧
      t.notEmpty.blocked = s.notEmpty.blocked := by
  have hcard : s.queue.length ≤ s.notEmpty.notified.card := h.covers hblocked
  rw [hqueue, List.length_cons] at hcard
  obtain ⟨i, hi⟩ := Finset.card_pos.mp (Nat.zero_lt_of_lt hcard)
  refine ⟨i, s.effect (.resume i), Machine.guarded_step_eq_some.mpr ⟨hi, rfl⟩, ?_⟩
  have heffect : s.effect (.resume i) =
      { s with notEmpty := s.notEmpty.resume i, queue, removed := s.removed ++ [(i, x)] } := by
    show takeFront { s with notEmpty := s.notEmpty.resume i } i = _
    unfold takeFront
    simp only [hqueue]
  rw [heffect]
  exact ⟨rfl, rfl, rfl⟩

/-- While a consumer is blocked, the notified ones are enough to empty the queue. -/
theorem HandsOver.emptied (h : s.HandsOver) (hblocked : s.notEmpty.blocked.Nonempty) :
    ∃ (consumers : List ι) (t : BlockingQueue ι α),
      (runs ι α).run s (consumers.map .resume) = some t ∧ t.queue = [] := by
  induction hqueue : s.queue generalizing s with
  | nil => exact ⟨[], s, rfl, hqueue⟩
  | cons x queue ih =>
    obtain ⟨i, t, hstep, hrest, -, hkept⟩ := h.front_taken hblocked hqueue
    obtain ⟨consumers, u, hrun, hempty⟩ := ih (h.step hstep) (hkept ▸ hblocked) hrest
    refine ⟨i :: consumers, u, ?_, hempty⟩
    rw [List.map_cons, Machine.run_cons, hstep]
    exact hrun

/-! ### Every interleaving -/

/-- **Each element once, in order, and none stranded**: in every state of every interleaving the elements
removed so far, in the order of their removal, and then the content of the queue are the elements put so far; and
if a consumer is blocked and not notified, the queue holds at most as many elements as there are consumers that
were notified and have not resumed. -/
theorem handed_over_once (as : List (Label ι α)) :
    (runs ι α).Always (fun s => s.removed.map Prod.snd ++ s.queue = s.puts ∧
      ∀ i ∈ s.notEmpty.blocked, s.queue.length ≤ s.notEmpty.notified.card) (new ι α) as := by
  have hinv : (runs ι α).Always HandsOver (new ι α) as :=
    .of_step handsOver_new fun _ _ _ h hstep => h.step hstep
  exact hinv.mono fun s h => ⟨h.once, fun i hi => h.covers ⟨i, hi⟩⟩

/-- A late consumer overtakes the one that was notified, which waits again. -/
example : ((runs Nat Nat).run (new Nat Nat)
    [.take 0, .lock 0, .put 2 7 (some 0), .take 1, .lock 1, .resume 0]).map
      (fun s => (s.removed, s.queue, s.notEmpty.blocked, s.notEmpty.notified)) =
    some ([(1, 7)], [], {0}, ∅) := by
  decide

end BlockingQueue

end Siren
