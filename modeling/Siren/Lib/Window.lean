import Mathlib.Data.List.Basic
import Mathlib.Tactic.TypeStar

/-!
# Windows of a list and stores into it

A list as a block of storage cells: `window l i j` are the cells with indices `i ≤ k < j`, `store l i d`
overwrites the cells from `i` on with `d`, `resize l n x` truncates or pads with `x`. The lemmas say how
windows compose and what a store or a resize does to a window.
-/

namespace Window

variable {α : Type*} {l d : List α} {i j k n : Nat}

/-- The cells with indices `i ≤ k < j`. -/
def window (l : List α) (i j : Nat) : List α := (l.take j).drop i

/-- Overwrite the cells from index `i` on with `d`. -/
def store (l : List α) (i : Nat) (d : List α) : List α := l.take i ++ d ++ l.drop (i + d.length)

/-- The first `n` cells, padded with `x`. -/
def resize (l : List α) (n : Nat) (x : α) : List α := l.take n ++ List.replicate (n - l.length) x

@[simp] theorem window_self (l : List α) (i : Nat) : window l i i = [] := by
  simp [window]

theorem length_window (hj : j ≤ l.length) : (window l i j).length = j - i := by
  simp [window, hj]

theorem window_append (hij : i ≤ j) (hjk : j ≤ k) : window l i j ++ window l j k = window l i k := by
  have hsplit : l.take j ++ (l.take k).drop j = l.take k := by
    have h := List.take_append_drop j (l.take k)
    rwa [List.take_take, Nat.min_eq_left hjk] at h
  by_cases hlen : j ≤ l.length
  · have hdrop : i ≤ (l.take j).length := by simp only [List.length_take]; omega
    calc window l i j ++ window l j k
        = (l.take j ++ (l.take k).drop j).drop i := (List.drop_append_of_le_length hdrop).symm
      _ = window l i k := by rw [hsplit, window]
  · have htake : l.take k = l.take j := by
      rw [List.take_of_length_le (by omega), List.take_of_length_le (by omega)]
    simp [window, htake, List.drop_eq_nil_of_le, Nat.le_of_lt (Nat.lt_of_not_le hlen)]

theorem drop_window (l : List α) (i j n : Nat) : (window l i j).drop n = window l (i + n) j := by
  simp [window, List.drop_drop]

theorem take_window (h : i + n ≤ j) : (window l i j).take n = window l i (i + n) := by
  rw [window, window, List.take_drop, List.take_take, Nat.min_eq_left h]

@[simp] theorem length_store (h : i + d.length ≤ l.length) : (store l i d).length = l.length := by
  simp only [store, List.length_append, List.length_take, List.length_drop]
  omega

/-- The stored cells hold what was stored. -/
theorem window_store_self (h : i ≤ l.length) : window (store l i d) i (i + d.length) = d := by
  have hlen : (l.take i).length = i := by simp [h]
  rw [window, store, List.take_append_of_le_length (by simp [hlen]), List.take_of_length_le (by simp [hlen])]
  rw [List.drop_append_of_le_length (by simp [hlen]), List.drop_of_length_le (by simp [hlen]),
    List.nil_append]

/-- A store leaves the cells before it alone. -/
theorem window_store_before (hj : j ≤ i) (hi : i ≤ l.length) : window (store l i d) k j = window l k j := by
  rw [window, window, store, List.append_assoc, List.take_append_of_le_length (by simp [hi, hj]),
    List.take_take, Nat.min_eq_left hj]

/-- A store leaves the cells after it alone. -/
theorem window_store_after (hk : i + d.length ≤ k) (hi : i ≤ l.length) :
    window (store l i d) k j = window l k j := by
  have hlen : (l.take i ++ d).length = i + d.length := by simp [hi]
  rw [window, window, List.drop_take, List.drop_take, store, List.drop_append, hlen]
  rw [List.drop_of_length_le (by omega), List.nil_append, List.drop_drop]
  congr 2
  omega

theorem length_resize (x : α) : (resize l n x).length = n := by
  simp only [resize, List.length_append, List.length_take, List.length_replicate]
  omega

/-- A resize leaves the cells it keeps alone. -/
theorem window_resize (x : α) (hj : j ≤ l.length) (hn : j ≤ n) :
    window (resize l n x) i j = window l i j := by
  rw [window, window, resize, List.take_append_of_le_length (by simp only [List.length_take]; omega), List.take_take,
    Nat.min_eq_left hn]

end Window
