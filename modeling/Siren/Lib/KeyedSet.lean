import Mathlib.Data.List.Nodup
import Mathlib.Order.Lattice

/-!
# Sets ordered and identified by a key

A `std::set` with a comparator that looks at a key only: a list in strictly increasing order of the
keys. Two elements with equal keys are the same element to the set, so an insertion that meets its key
is refused.

* `insert_perm`: an insertion that does not meet its key adds its element.
* `insert_eq_self`: one that does leaves the set alone.
* `Sorted.takeWhile_le`: the elements before an `upper_bound` are those within the bound.
-/

namespace KeyedSet

variable {α κ : Type*} [LinearOrder κ] (key : α → κ)

/-- The elements stand in strictly increasing order of their keys. -/
def Sorted (l : List α) : Prop := l.Pairwise fun x y => key x < key y

/-- `insert`: the element goes before the first larger key, unless its own key is met on the way. -/
def insert (x : α) : List α → List α
  | [] => [x]
  | y :: ys =>
    if key x < key y then x :: y :: ys
    else if key y < key x then y :: insert x ys
    else y :: ys

variable {key} {x : α} {l : List α}

@[simp] theorem sorted_nil : Sorted key ([] : List α) := List.Pairwise.nil

/-- Whether a list is sorted depends on the keys of its elements alone. -/
theorem Sorted.congr {key' : α → κ} (h : Sorted key l) (hkey : ∀ y ∈ l, key' y = key y) :
    Sorted key' l := by
  refine List.Pairwise.imp_of_mem ?_ h
  intro y z hy hz hlt
  rwa [hkey y hy, hkey z hz]

theorem Sorted.nodup (h : Sorted key l) : l.Nodup :=
  h.imp fun hlt heq => hlt.ne (congrArg key heq)

theorem Sorted.nodup_map (h : Sorted key l) : (l.map key).Nodup := by
  rw [List.Nodup, List.pairwise_map]
  exact h.imp fun hlt => hlt.ne

/-- In a sorted list the key tells the element. -/
theorem Sorted.eq_of_key_eq (h : Sorted key l) {y z : α} (hy : y ∈ l) (hz : z ∈ l)
    (hkey : key y = key z) : y = z :=
  List.inj_on_of_nodup_map h.nodup_map hy hz hkey

theorem insert_perm (hfresh : ∀ y ∈ l, key y ≠ key x) : (insert key x l).Perm (x :: l) := by
  induction l with
  | nil => exact List.Perm.refl _
  | cons y ys ih =>
    unfold insert
    split
    · exact List.Perm.refl _
    · rename_i hxy
      have hyx : key y < key x := lt_of_le_of_ne (not_lt.mp hxy) (hfresh y List.mem_cons_self)
      rw [if_pos hyx]
      have hys := ih fun z hz => hfresh z (List.mem_cons_of_mem _ hz)
      exact (hys.cons y).trans (List.Perm.swap x y ys)

/-- An element that does not come before the first one leaves it the first. -/
theorem insert_cons_of_not_lt {y : α} (h : ¬ key x < key y) :
    ∃ l', insert key x (y :: l) = y :: l' := by
  rw [insert, if_neg h]
  split
  · exact ⟨_, rfl⟩
  · exact ⟨_, rfl⟩

/-- An insertion never removes an element. -/
theorem subset_insert : l ⊆ insert key x l := by
  induction l with
  | nil => exact List.nil_subset _
  | cons y ys ih =>
    unfold insert
    split
    · exact List.subset_cons_self _ _
    · split
      · exact List.cons_subset_cons _ ih
      · exact List.Subset.refl _

theorem mem_of_mem_insert {y : α} (h : y ∈ insert key x l) : y = x ∨ y ∈ l := by
  induction l with
  | nil => exact Or.inl (List.mem_singleton.mp h)
  | cons z zs ih =>
    unfold insert at h
    split at h
    · exact List.mem_cons.mp h
    · split at h
      · rcases List.mem_cons.mp h with rfl | h
        · exact Or.inr List.mem_cons_self
        · exact (ih h).imp_right (List.mem_cons_of_mem _)
      · exact Or.inr h

theorem Sorted.insert (h : Sorted key l) : Sorted key (insert key x l) := by
  induction l with
  | nil => exact List.pairwise_singleton _ _
  | cons y ys ih =>
    obtain ⟨hhead, htail⟩ := List.pairwise_cons.mp h
    unfold KeyedSet.insert
    split
    · rename_i hxy
      refine List.pairwise_cons.mpr ⟨fun z hz => ?_, h⟩
      rcases List.mem_cons.mp hz with rfl | hz
      · exact hxy
      · exact hxy.trans (hhead z hz)
    · split
      · rename_i hyx
        refine List.pairwise_cons.mpr ⟨fun z hz => ?_, ih htail⟩
        rcases mem_of_mem_insert hz with rfl | hz
        · exact hyx
        · exact hhead z hz
      · exact h

/-- An insertion that meets its key is refused. -/
theorem insert_eq_self (h : Sorted key l) {y : α} (hy : y ∈ l) (hkey : key y = key x) :
    KeyedSet.insert key x l = l := by
  induction l with
  | nil => cases hy
  | cons z zs ih =>
    obtain ⟨hhead, htail⟩ := List.pairwise_cons.mp h
    unfold KeyedSet.insert
    rcases List.mem_cons.mp hy with rfl | hy
    · simp [hkey]
    · have hzx : key z < key x := hkey ▸ hhead y hy
      rw [if_neg hzx.le.not_gt, if_pos hzx, ih htail hy]

theorem insert_perm_or_eq (h : Sorted key l) :
    (KeyedSet.insert key x l).Perm (x :: l) ∨ KeyedSet.insert key x l = l := by
  by_cases hfresh : ∀ y ∈ l, key y ≠ key x
  · exact Or.inl (insert_perm hfresh)
  · obtain ⟨y, hy⟩ := not_forall.mp hfresh
    obtain ⟨hmem, hkey⟩ := Classical.not_imp.mp hy
    exact Or.inr (insert_eq_self h hmem (not_not.mp hkey))

/-- Up to a bound, `upper_bound` cuts off the elements whose keys are within it. -/
theorem Sorted.takeWhile_le (h : Sorted key l) (k : κ) :
    l.takeWhile (key · ≤ k) = l.filter (key · ≤ k) := by
  induction l with
  | nil => rfl
  | cons y ys ih =>
    obtain ⟨hhead, htail⟩ := List.pairwise_cons.mp h
    by_cases hy : key y ≤ k
    · rw [List.takeWhile_cons_of_pos (by simpa using hy), List.filter_cons_of_pos (by simpa using hy), ih htail]
    · rw [List.takeWhile_cons_of_neg (by simpa using hy), List.filter_cons_of_neg (by simpa using hy)]
      refine (List.filter_eq_nil_iff.mpr fun z hz hle => hy ?_).symm
      exact (hhead z hz).le.trans (by simpa using hle)

theorem Sorted.lt_of_mem_dropWhile (h : Sorted key l) {k : κ} {y : α} (hy : y ∈ l.dropWhile (key · ≤ k)) :
    k < key y := by
  induction l with
  | nil => cases hy
  | cons z zs ih =>
    obtain ⟨hhead, htail⟩ := List.pairwise_cons.mp h
    by_cases hz : key z ≤ k
    · rw [List.dropWhile_cons_of_pos (by simpa using hz)] at hy
      exact ih htail hy
    · rw [List.dropWhile_cons_of_neg (by simpa using hz)] at hy
      rcases List.mem_cons.mp hy with rfl | hy
      · exact not_le.mp hz
      · exact (not_le.mp hz).trans (hhead y hy)

end KeyedSet
