import Mathlib.Algebra.Group.Int.Defs
import Mathlib.Algebra.Group.Nat.Defs
import Mathlib.Tactic.TypeStar

/-!
# C++ integers, bytes and kernel results

`size_t` and `ssize_t` values are `Nat` and `Int`; the conversions that can change a value are written
out where the source makes them: `toInt` for a `size_t` or `ssize_t` passed as an `int`, `toSize` for an
`int` used as a `size_t`.
-/

namespace Siren

universe u v

/-- `INT_MAX` -/
def intMax : Nat := 2 ^ 31 - 1

/-- A 64-bit value converted to `int`: its low 32 bits as a signed number. -/
def toInt (n : Int) : Int := Int.bmod n (2 ^ 32)

/-- An `int` converted to `size_t`: a negative value becomes one near `2 ^ 64`. -/
def toSize (n : Int) : Nat := (n % 2 ^ 64).toNat

theorem toInt_of_le {n : Nat} (h : n ≤ intMax) : toInt n = n := by
  unfold toInt intMax at *
  rw [Int.bmod_eq_of_le] <;> omega

theorem toInt_le (n : Nat) : toInt n ≤ n := by
  simp only [toInt, Int.bmod]
  split <;> omega

theorem toSize_ofNat {n : Nat} (h : n < 2 ^ 64) : toSize n = n := by
  unfold toSize
  omega

theorem toInt_le_intMax (n : Int) : toInt n ≤ intMax := by
  simp only [toInt, Int.bmod, intMax]
  split <;> omega

/-- A size passed as an `int` and compared as a `size_t`: what its low 32 bits make of it. -/
theorem toSize_toInt_of_low {n : Nat} (h : n % 2 ^ 32 < 2 ^ 31) : toSize (toInt n) = n % 2 ^ 32 := by
  unfold toSize toInt
  simp only [Int.bmod]
  split <;> omega

theorem toSize_toInt_of_high {n : Nat} (h : 2 ^ 31 ≤ n % 2 ^ 32) :
    toSize (toInt n) = 2 ^ 64 - 2 ^ 32 + n % 2 ^ 32 := by
  unfold toSize toInt
  simp only [Int.bmod]
  split <;> omega

abbrev Byte := UInt8

/-- `assert(p)`: stops the program with `a` when `p` is false. -/
def cassert {ε : Type u} (p : Prop) [Decidable p] (a : ε) : Except ε PUnit.{v + 1} :=
  if p then .ok ⟨⟩ else .error a

theorem cassert_of {ε : Type u} {p : Prop} [Decidable p] (h : p) (a : ε) :
    cassert.{u, v} p a = .ok ⟨⟩ :=
  if_pos h

theorem cassert_of_not {ε : Type u} {p : Prop} [Decidable p] (h : ¬ p) (a : ε) :
    cassert.{u, v} p a = .error a :=
  if_neg h

@[simp] theorem ok_bind {ε : Type u} {α β : Type v} (a : α) (f : α → Except ε β) :
    (Except.ok a >>= f) = f a := rfl

@[simp] theorem error_bind {ε : Type u} {α β : Type v} (e : ε) (f : α → Except ε β) :
    (Except.error e >>= f) = .error e := rfl

/-- An assertion before a computation that succeeds held. -/
theorem of_cassert_bind {ε : Type u} {α : Type v} {p : Prop} [Decidable p] {e : ε}
    {f : PUnit.{v + 1} → Except ε α} {a : α} (h : (cassert p e >>= f) = .ok a) : p ∧ f ⟨⟩ = .ok a := by
  by_cases hp : p
  · rw [cassert_of hp, ok_bind] at h
    exact ⟨hp, h⟩
  · rw [cassert_of_not hp, error_bind] at h
    cases h

/-- The first half of a computation that succeeds succeeded. -/
theorem of_bind_ok {ε : Type u} {α β : Type v} {x : Except ε α} {f : α → Except ε β} {b : β}
    (h : (x >>= f) = .ok b) : ∃ a, x = .ok a ∧ f a = .ok b := by
  cases x with
  | error e => cases h
  | ok a => exact ⟨a, rfl, h⟩

theorem of_map_ok {ε : Type u} {α β : Type v} {f : α → β} {x : Except ε α} {b : β} (h : x.map f = .ok b) :
    ∃ a, x = .ok a ∧ f a = b := by
  cases x with
  | error e => cases h
  | ok a => exact ⟨a, rfl, Except.ok.inj h⟩

theorem of_mapError_ok {ε ε' : Type u} {α : Type v} {g : ε → ε'} {x : Except ε α} {a : α}
    (h : x.mapError g = .ok a) : x = .ok a := by
  cases x with
  | error e => cases h
  | ok b => exact congrArg _ (Except.ok.inj h)

/-- The value of a computation known to succeed. -/
def okValue {ε : Type*} {α : Type*} : (x : Except ε α) → (∃ a, x = .ok a) → α
  | .ok a, _ => a
  | .error _, h => absurd h (by simp)

theorem okValue_eq {ε : Type*} {α : Type*} {x : Except ε α} {a : α} (hx : x = .ok a)
    (h : ∃ a, x = .ok a) : okValue x h = a := by
  subst hx
  rfl

/-- What `write(2)` returned: a count of bytes, or -1 with an `errno`. -/
inductive WriteResult where
  | wrote (n : Nat)
  | failed (errno : Nat)
  deriving DecidableEq

/-- What `readv(2)` returned: the bytes read, or -1. -/
inductive ReadResult where
  | read (bytes : List Byte)
  | failed
  deriving DecidableEq

/-- The returned count of bytes. -/
def ReadResult.count : ReadResult → Int
  | .read bytes => bytes.length
  | .failed => -1

/-! ### `errno` values on Linux -/

def EPERM : Nat := 1
def EINTR : Nat := 4
def EBADF : Nat := 9
def EAGAIN : Nat := 11
def EWOULDBLOCK : Nat := EAGAIN
def EACCES : Nat := 13
def EFAULT : Nat := 14
def EMFILE : Nat := 24
def EPIPE : Nat := 32
def ENOTSOCK : Nat := 88
def EAFNOSUPPORT : Nat := 97
def EADDRINUSE : Nat := 98
def EADDRNOTAVAIL : Nat := 99
def ENETUNREACH : Nat := 101
def ECONNRESET : Nat := 104
def EISCONN : Nat := 106
def ECONNREFUSED : Nat := 111
def EALREADY : Nat := 114
def EINPROGRESS : Nat := 115

end Siren
