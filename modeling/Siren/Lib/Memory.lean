import Mathlib.Logic.Function.Basic

/-!
# Reading memory

A memory maps addresses to their contents, `none` where nothing may be read. `load` reads a block of it;
`load_eq_some_iff` says what it reads, and `load_update_iff` when a store leaves what it reads unchanged.
-/

namespace Memory

variable {β : Type*}

/-- The contents of `len` addresses from `start` on, when all of them may be read. -/
def load (mem : Nat → Option β) : Nat → Nat → Option (List β)
  | _, 0 => some []
  | start, len + 1 => (mem start).bind fun b => (load mem (start + 1) len).map (b :: ·)

variable {mem : Nat → Option β} {start len addr : Nat} {bs : List β} {b : Option β}

theorem load_eq_some_iff :
    load mem start len = some bs ↔ bs.length = len ∧ ∀ i < len, mem (start + i) = bs[i]? := by
  induction len generalizing start bs with
  | zero => simp [load, eq_comm]
  | succ len ih =>
    rw [load, Option.bind_eq_some_iff]
    constructor
    · rintro ⟨a, ha, hrest⟩
      obtain ⟨as, has, rfl⟩ := Option.map_eq_some_iff.mp hrest
      obtain ⟨hlen, hall⟩ := ih.mp has
      refine ⟨by simp [hlen], fun i hi => ?_⟩
      cases i with
      | zero => simpa using ha
      | succ i =>
        rw [List.getElem?_cons_succ, ← hall i (by omega), Nat.add_assoc, Nat.add_comm 1 i]
    · rintro ⟨hlen, hall⟩
      cases bs with
      | nil => simp at hlen
      | cons a as =>
        refine ⟨a, by simpa using hall 0 (by omega), Option.map_eq_some_iff.mpr ⟨as, ?_, rfl⟩⟩
        refine ih.mpr ⟨by simpa using hlen, fun i hi => ?_⟩
        have hnext := hall (i + 1) (by omega)
        rwa [List.getElem?_cons_succ, Nat.add_comm i 1, ← Nat.add_assoc] at hnext

theorem length_load (h : load mem start len = some bs) : bs.length = len :=
  (load_eq_some_iff.mp h).1

/-- A store leaves a block as it was read exactly when it is outside of it or stores what was there. -/
theorem load_update_iff (h : load mem start len = some bs) :
    load (Function.update mem addr b) start len = some bs ↔
      (start ≤ addr → addr < start + len → b = mem addr) := by
  obtain ⟨hlen, hall⟩ := load_eq_some_iff.mp h
  rw [load_eq_some_iff]
  constructor
  · rintro ⟨-, hstored⟩ hle hlt
    have hsame := hstored (addr - start) (by omega)
    have hold := hall (addr - start) (by omega)
    rw [Nat.add_sub_cancel' hle] at hsame hold
    rw [Function.update_self] at hsame
    rw [hsame, hold]
  · intro hkeep
    refine ⟨hlen, fun i hi => ?_⟩
    by_cases haddr : start + i = addr
    · subst haddr
      rw [Function.update_self, hkeep (by omega) (by omega), hall i hi]
    · rw [Function.update_of_ne haddr, hall i hi]

end Memory
