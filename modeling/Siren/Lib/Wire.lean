import Mathlib.Data.List.Infix
import Mathlib.Tactic.TypeStar

/-!
# Wires

One direction of a reliable stream: what is put in at one end is taken out at the other, in order, in pieces that
need not be those in which it was put in. `carried` is all that was put in so far; taking out leaves it as it is.

`getElem?_of_prefix_append`: a stream fed by a block and by itself is the block, over and over.
-/

/-- What is on its way, and the history of what was taken out. -/
structure Wire (α : Type*) where
  inFlight : List α
  taken : List α

namespace Wire

variable {α : Type*} (w : Wire α)

def empty (α : Type*) : Wire α := ⟨[], []⟩

def put (xs : List α) : Wire α := { w with inFlight := w.inFlight ++ xs }

/-- The first `n` elements are taken out. -/
def take (n : Nat) : Wire α := ⟨w.inFlight.drop n, w.taken ++ w.inFlight.take n⟩

/-- All that was put in. -/
def carried : List α := w.taken ++ w.inFlight

@[simp] theorem carried_empty : (empty α).carried = [] := rfl

@[simp] theorem carried_put (xs : List α) : (w.put xs).carried = w.carried ++ xs :=
  (List.append_assoc ..).symm

@[simp] theorem carried_take (n : Nat) : (w.take n).carried = w.carried := by
  show w.taken ++ w.inFlight.take n ++ w.inFlight.drop n = w.taken ++ w.inFlight
  rw [List.append_assoc, List.take_append_drop]

@[simp] theorem taken_put (xs : List α) : (w.put xs).taken = w.taken := rfl

theorem prefix_carried : w.taken <+: w.carried := List.prefix_append ..

/-- What was taken out is all of it when nothing is on its way. -/
theorem taken_eq_carried (h : w.inFlight = []) : w.taken = w.carried := by
  rw [carried, h, List.append_nil]

/-- A piece that was next is taken out. -/
theorem taken_take {xs : List α} (h : xs <+: w.inFlight) : (w.take xs.length).taken = w.taken ++ xs :=
  congrArg (w.taken ++ ·) (List.prefix_iff_eq_take.mp h).symm

end Wire

/-! ### What comes round -/

/-- A list that is a prefix of itself behind `m` repeats `m`. -/
theorem getElem?_of_prefix_append {α : Type*} {l m : List α} (h : l <+: m ++ l) (hm : m = [] → l = []) {i : Nat}
    (hi : i < l.length) : l[i]? = m[i % m.length]? := by
  induction i using Nat.strong_induction_on with
  | _ i ih =>
    have hpos : 0 < m.length := List.length_pos_of_ne_nil fun hnil => by
      rw [hm hnil] at hi
      exact absurd hi (Nat.not_lt_zero _)
    have hshift : l[i]? = (m ++ l)[i]? := by
      obtain ⟨rest, hrest⟩ := h
      rw [← hrest, List.getElem?_append_left hi]
    rcases Nat.lt_or_ge i m.length with hlt | hge
    · rw [hshift, List.getElem?_append_left hlt, Nat.mod_eq_of_lt hlt]
    · rw [hshift, List.getElem?_append_right hge, ih (i - m.length) (by omega) (by omega),
        Nat.mod_eq_sub_mod hge]
