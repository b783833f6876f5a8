import Mathlib.Algebra.Order.BigOperators.Group.Finset

/-!
# Tokens

Finitely many places with a number of tokens at each, and how many there are in all.
-/

namespace Tokens

variable {ι : Type*} [Fintype ι] (f : ι → Nat)

def total : Nat := ∑ i, f i

/-- What the total becomes when one place changes. -/
theorem total_update [DecidableEq ι] (i : ι) (k : Nat) : total (Function.update f i k) + f i = total f + k := by
  have hbefore := Finset.add_sum_erase Finset.univ f (Finset.mem_univ i)
  have hafter := Finset.add_sum_erase Finset.univ (Function.update f i k) (Finset.mem_univ i)
  have hrest : ∑ j ∈ Finset.univ.erase i, Function.update f i k j = ∑ j ∈ Finset.univ.erase i, f j :=
    Finset.sum_congr rfl fun j hj => Function.update_of_ne (Finset.ne_of_mem_erase hj) ..
  rw [Function.update_self, hrest] at hafter
  unfold total
  omega

theorem le_total (i : ι) : f i ≤ total f :=
  Finset.single_le_sum (fun _ _ => Nat.zero_le _) (Finset.mem_univ i)

theorem total_eq_zero_iff : total f = 0 ↔ ∀ i, f i = 0 := by
  unfold total
  rw [Finset.sum_eq_zero_iff]
  exact ⟨fun h i => h i (Finset.mem_univ i), fun h i _ => h i⟩

theorem exists_of_total_pos (h : 0 < total f) : ∃ i, 0 < f i := by
  obtain ⟨i, -, hi⟩ := Finset.exists_ne_zero_of_sum_ne_zero h.ne'
  exact ⟨i, Nat.pos_of_ne_zero hi⟩

/-- No place holds more than one. -/
theorem total_le_card (h : ∀ i, f i ≤ 1) : total f ≤ Fintype.card ι := by
  have hones : ∑ i : ι, 1 = Fintype.card ι := by simp
  rw [← hones]
  exact Finset.sum_le_sum fun i _ => h i

end Tokens
