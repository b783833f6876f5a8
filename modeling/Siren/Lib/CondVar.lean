import Mathlib.Data.Finset.Card

/-!
# Condition variables

The threads in `wait` on one condition variable. A thread that waits is blocked until `notify_one` chooses it
or it wakes up by itself. A notified thread is on its way to the lock, and off the condition variable once it
has it (`resume`); of a thread that woke up by itself the condition variable knows nothing more. What
`notify_one` chooses is an argument.

`Covers c n` says that while a thread is blocked there are as many notified ones as there are things to be had,
`n`. It is kept where each new thing is announced by one `notify_one`, where a thread waits only when there is
none, and where a notified thread takes one when it finds any.
-/

/-- The threads in `wait`. -/
structure CondVar (ι : Type*) where
  /-- Those that nothing has woken. -/
  blocked : Finset ι
  /-- Those that were notified and do not have the lock yet. -/
  notified : Finset ι
  disjoint : Disjoint blocked notified

namespace CondVar

def new (ι : Type*) : CondVar ι := ⟨∅, ∅, Finset.disjoint_empty_left ∅⟩

/-- While a thread is blocked, there is a notified one for each of `n` things to be had. -/
def Covers {ι : Type*} (c : CondVar ι) (n : Nat) : Prop := c.blocked.Nonempty → n ≤ c.notified.card

section

variable {ι : Type*} {c : CondVar ι} {n m : Nat}

theorem covers_new (n : Nat) : (new ι).Covers n :=
  fun hblocked => absurd hblocked Finset.not_nonempty_empty

/-- When there is nothing to be had, any thread may be blocked. -/
theorem covers_zero (c : CondVar ι) : c.Covers 0 :=
  fun _ => Nat.zero_le _

theorem Covers.mono (h : c.Covers n) (hle : m ≤ n) : c.Covers m :=
  fun hblocked => hle.trans (h hblocked)

end

/-! ### Operations -/

variable {ι : Type*} [DecidableEq ι] (c : CondVar ι)

/-- A thread gives up the lock and blocks. -/
def wait (i : ι) : CondVar ι where
  blocked := insert i c.blocked
  notified := c.notified.erase i
  disjoint := by
    rw [Finset.disjoint_insert_left]
    exact ⟨Finset.notMem_erase i _, c.disjoint.mono_right (Finset.erase_subset i _)⟩

/-- A blocked thread is notified. -/
def notify (i : ι) : CondVar ι where
  blocked := c.blocked.erase i
  notified := insert i c.notified
  disjoint := by
    rw [Finset.disjoint_insert_right]
    exact ⟨Finset.notMem_erase i _, c.disjoint.mono_left (Finset.erase_subset i _)⟩

/-- `notify_one`, of the thread that it chooses. -/
def notifyOne : Option ι → CondVar ι
  | none => c
  | some i => c.notify i

/-- What `notify_one` may choose: a blocked thread, and nothing only when there is none. -/
def MayNotify : Option ι → Prop
  | none => c.blocked = ∅
  | some i => i ∈ c.blocked

instance (choice : Option ι) : Decidable (c.MayNotify choice) := by
  cases choice with
  | none => exact inferInstanceAs (Decidable (c.blocked = ∅))
  | some i => exact inferInstanceAs (Decidable (i ∈ c.blocked))

/-- `notify_all` -/
def notifyAll : CondVar ι where
  blocked := ∅
  notified := c.notified ∪ c.blocked
  disjoint := Finset.disjoint_empty_left _

/-- A blocked thread wakes up by itself. -/
def wake (i : ι) : CondVar ι where
  blocked := c.blocked.erase i
  notified := c.notified
  disjoint := c.disjoint.mono_left (Finset.erase_subset i _)

/-- A notified thread has the lock again. -/
def resume (i : ι) : CondVar ι where
  blocked := c.blocked
  notified := c.notified.erase i
  disjoint := c.disjoint.mono_right (Finset.erase_subset i _)

/-! ### What they do to the cover -/

variable {c} {n : Nat} {i : ι}

/-- One more thing is announced by one `notify_one`. -/
theorem Covers.notifyOne (h : c.Covers n) {choice : Option ι} (hmay : c.MayNotify choice) :
    (c.notifyOne choice).Covers (n + 1) := by
  intro hblocked
  cases choice with
  | none => exact absurd hblocked (Finset.not_nonempty_iff_eq_empty.mpr hmay)
  | some i =>
    have hnot : i ∉ c.notified := Finset.disjoint_left.mp c.disjoint hmay
    have hcard : (c.notify i).notified.card = c.notified.card + 1 := Finset.card_insert_of_notMem hnot
    show n + 1 ≤ (c.notify i).notified.card
    rw [hcard]
    exact Nat.succ_le_succ (h ⟨i, hmay⟩)

theorem Covers.wake (h : c.Covers n) (i : ι) : (c.wake i).Covers n :=
  fun hblocked => h (hblocked.mono (Finset.erase_subset i _))

/-- A notified thread takes one when it has the lock. -/
theorem Covers.resume (h : c.Covers n) (hi : i ∈ c.notified) : (c.resume i).Covers (n - 1) := by
  intro hblocked
  show n - 1 ≤ (c.notified.erase i).card
  rw [Finset.card_erase_of_mem hi]
  exact Nat.sub_le_sub_right (h hblocked) 1

end CondVar
