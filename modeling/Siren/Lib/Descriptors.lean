import Mathlib.Data.List.Basic
import Mathlib.Logic.Function.Basic

/-!
# Tables of descriptors

The table of open files of a process. A file is opened under the lowest free number below the limit, and there is no
such number when the table is full. `close` of a number that is not open changes nothing.
-/

structure Descriptors (α : Type*) where
  slot : Nat → Option α
  /-- `RLIMIT_NOFILE` -/
  limit : Nat

namespace Descriptors

variable {α : Type*} (d : Descriptors α)

/-- The lowest free number. -/
def lowest : Option Nat := (List.range d.limit).find? fun n => (d.slot n).isNone

/-- No number below the limit is free. -/
def Full : Prop := ∀ n < d.limit, d.slot n ≠ none

def set (n : Nat) (file : Option α) : Descriptors α := { d with slot := Function.update d.slot n file }

/-- Opens a file; `none` is `EMFILE`. -/
def alloc (file : α) : Option (Nat × Descriptors α) := d.lowest.map fun n => (n, d.set n (some file))

/-- `close(fd)` -/
def close : Int → Descriptors α
  | .ofNat n => d.set n none
  | .negSucc _ => d

/-- What is open under a number. -/
def file : Int → Option α
  | .ofNat n => d.slot n
  | .negSucc _ => none

variable {d} {n m : Nat} {a : α}

@[simp] theorem limit_set (n : Nat) (file : Option α) : (d.set n file).limit = d.limit := rfl

@[simp] theorem limit_close (fd : Int) : (d.close fd).limit = d.limit := by cases fd <;> rfl

@[simp] theorem slot_set_self (n : Nat) (file : Option α) : (d.set n file).slot n = file := Function.update_self ..

theorem slot_set_of_ne (hm : m ≠ n) (file : Option α) : (d.set n file).slot m = d.slot m :=
  Function.update_of_ne hm ..

theorem lowest_eq_none : d.lowest = none ↔ d.Full := by
  simp [lowest, Full]

theorem of_lowest (h : d.lowest = some n) : n < d.limit ∧ d.slot n = none := by
  have hmem := List.mem_of_find?_eq_some h
  have hfree := List.find?_some h
  exact ⟨List.mem_range.mp hmem, by simpa using hfree⟩

theorem alloc_eq_none : d.alloc a = none ↔ d.Full := by
  rw [alloc, Option.map_eq_none_iff, lowest_eq_none]

theorem of_alloc {d' : Descriptors α} (h : d.alloc a = some (n, d')) :
    n < d.limit ∧ d.slot n = none ∧ d' = d.set n (some a) := by
  obtain ⟨m, hm, heq⟩ := Option.map_eq_some_iff.mp h
  obtain ⟨rfl, rfl⟩ := Prod.mk.inj heq
  exact ⟨(of_lowest hm).1, (of_lowest hm).2, rfl⟩

/-- A table that is not full opens any file. -/
theorem exists_alloc (h : ¬ d.Full) (a : α) : ∃ n, d.alloc a = some (n, d.set n (some a)) := by
  cases hlow : d.lowest with
  | none => exact absurd (lowest_eq_none.mp hlow) h
  | some n => exact ⟨n, by rw [alloc, hlow]; rfl⟩

/-- A number below the limit that was closed is free. -/
theorem not_full_set_none (hn : n < d.limit) : ¬ (d.set n none).Full := fun hfull =>
  hfull n hn (slot_set_self n none)

/-- Closing a file leaves a free number free. -/
theorem Full.of_set_none (h : (d.set n none).Full) : d.Full := fun m hm => by
  have hslot := h m hm
  by_cases hmn : m = n
  · subst hmn
    exact absurd (slot_set_self m none) hslot
  · rwa [slot_set_of_ne hmn] at hslot

/-- A file that was opened and closed again leaves the table as it was. -/
theorem set_set_none (h : d.slot n = none) : (d.set n (some a)).set n none = d := by
  have hslot : Function.update (Function.update d.slot n (some a)) n none = d.slot := by
    rw [Function.update_idem, ← h, Function.update_eq_self]
  rw [set, set, hslot]

end Descriptors
