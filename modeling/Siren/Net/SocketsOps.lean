import Mathlib.Data.List.Nodup
import Siren.Base.Types

/-!
# Addresses as text

`sockets::toIpPort` formats an address into a buffer of `size` characters, `InetAddress::toIpPort` does so
with 64. Text is what stands in a buffer before its NUL. `inet_ntop` is a parameter (`InetNtop`).

* `InetAddress.toIpPort_ok`: with `inet_ntop` yielding at most 39 characters, the text fits, and has at most
  47 characters.
-/

namespace Siren

/-- A C string: the characters before the NUL. -/
abbrev Text := List Char

/-- `snprintf(buf, size, ...)`: what is left of the formatted text in the buffer. -/
def snprintf (size : Nat) (text : Text) : Text := text.take (size - 1)

theorem snprintf_of_lt {size : Nat} {text : Text} (h : text.length < size) : snprintf size text = text :=
  List.take_of_length_le (by omega)

theorem length_snprintf_le (size : Nat) (text : Text) : (snprintf size text).length ≤ text.length :=
  List.length_take_le' _ _

/-- The conversion `%u`. -/
def formatUnsigned (n : Nat) : Text := Nat.toDigits 10 n

/-- The conversion `%d`. -/
def formatInt : Int → Text
  | .ofNat n => formatUnsigned n
  | .negSucc n => '-' :: formatUnsigned (n + 1)

theorem formatUnsigned_injective : Function.Injective formatUnsigned := by
  intro m n h
  have hdigits := congrArg (fun text => Nat.ofDigitChars 10 text 0) h
  simpa [formatUnsigned] using hdigits

theorem length_formatUnsigned_le {n k : Nat} (hk : 0 < k) (h : n < 10 ^ k) :
    (formatUnsigned n).length ≤ k :=
  (Nat.length_toDigits_le_iff (by decide) hk).mpr h

namespace Sockets

/-- A failed assertion of `toIp` or `toIpPort`. -/
inductive Failure where
  | bufferTooSmall
  deriving DecidableEq

/-- `sockaddr_in` and `sockaddr_in6`, with the port in network byte order. -/
inductive SockAddr where
  | inet (sin_addr : BitVec 32) (sin_port : BitVec 16)
  | inet6 (sin6_addr : BitVec 128) (sin6_port : BitVec 16)

/-- `inet_ntop(3)` for the two families. -/
structure InetNtop where
  inet : BitVec 32 → Text
  inet6 : BitVec 128 → Text

def INET_ADDRSTRLEN : Nat := 16
def INET6_ADDRSTRLEN : Nat := 46

/-- `be16toh` on a little-endian host. -/
def networkToHost16 (net16 : BitVec 16) : BitVec 16 := net16 <<< 8 ||| net16 >>> 8

variable (ntop : InetNtop)

/-- The text `inet_ntop` leaves in a zeroed buffer: all of it with its NUL, or nothing. -/
def written (size : Nat) (text : Text) : Text := if text.length < size then text else []

def toIp (size : Nat) : SockAddr → Except Failure Text
  | .inet addr _ => do
    cassert (INET_ADDRSTRLEN ≤ size) Failure.bufferTooSmall
    return written size (ntop.inet addr)
  | .inet6 addr _ => do
    cassert (INET6_ADDRSTRLEN ≤ size) Failure.bufferTooSmall
    return written size (ntop.inet6 addr)

def toIpPort (size : Nat) (addr : SockAddr) : Except Failure Text :=
  match addr with
  | .inet6 _ sin6_port => do
    let buf := '[' :: (← toIp ntop (size - 1) addr)
    let port := networkToHost16 sin6_port
    cassert (buf.length < size) Failure.bufferTooSmall
    return buf ++ snprintf (size - buf.length) (']' :: ':' :: formatUnsigned port.toNat)
  | .inet _ sin_port => do
    let buf ← toIp ntop size addr
    let port := networkToHost16 sin_port
    cassert (buf.length < size) Failure.bufferTooSmall
    return buf ++ snprintf (size - buf.length) (':' :: formatUnsigned port.toNat)

/-- The text of an address never has more than `n` characters. -/
def InetNtop.AtMost (n : Nat) : Prop :=
  (∀ addr, (ntop.inet addr).length ≤ n) ∧ ∀ addr, (ntop.inet6 addr).length ≤ n

variable {ntop}

theorem length_written_le (size : Nat) (text : Text) : (written size text).length ≤ text.length := by
  unfold written
  split <;> simp

theorem toIp_ok {size : Nat} {n : Nat} (h : ntop.AtMost n) (hsize : INET6_ADDRSTRLEN ≤ size)
    (addr : SockAddr) : ∃ text, toIp ntop size addr = .ok text ∧ text.length ≤ n := by
  cases addr with
  | inet addr port =>
    have hsize' : INET_ADDRSTRLEN ≤ size := Nat.le_trans (by decide) hsize
    exact ⟨written size (ntop.inet addr), by simp [toIp, cassert_of hsize', pure, Except.pure],
      Nat.le_trans (length_written_le _ _) (h.1 addr)⟩
  | inet6 addr port =>
    exact ⟨written size (ntop.inet6 addr), by simp [toIp, cassert_of hsize, pure, Except.pure],
      Nat.le_trans (length_written_le _ _) (h.2 addr)⟩

/-- A port is written with at most five digits. -/
theorem length_port_le (port : BitVec 16) : (formatUnsigned port.toNat).length ≤ 5 := by
  apply length_formatUnsigned_le (by decide)
  have hlt := port.isLt
  omega

end Sockets

namespace InetAddress

open Sockets

/-- `InetAddress::toIpPort` with its buffer of 64 characters. -/
def toIpPort (ntop : InetNtop) (addr : SockAddr) : Except Failure Text := Sockets.toIpPort ntop 64 addr

/-- The text of an address with its port fits in the buffer. -/
theorem toIpPort_ok {ntop : InetNtop} (h : ntop.AtMost 39) (addr : SockAddr) :
    ∃ text, toIpPort ntop addr = .ok text ∧ text.length ≤ 47 := by
  cases addr with
  | inet ip port =>
    have hsize : INET6_ADDRSTRLEN ≤ 64 := by decide
    obtain ⟨buf, hbuf, hlen⟩ := toIp_ok h hsize (.inet ip port)
    have hfit : buf.length < 64 := by omega
    let tail := snprintf (64 - buf.length) (':' :: formatUnsigned (networkToHost16 port).toNat)
    have htail : tail.length ≤ 6 :=
      Nat.le_trans (length_snprintf_le _ _) (Nat.succ_le_succ (length_port_le (networkToHost16 port)))
    refine ⟨buf ++ tail, ?_, by rw [List.length_append]; omega⟩
    simp [toIpPort, Sockets.toIpPort, hbuf, cassert_of hfit, pure, Except.pure, tail]
  | inet6 ip port =>
    have hsize : INET6_ADDRSTRLEN ≤ 63 := by decide
    obtain ⟨ip', hbuf, hlen⟩ := toIp_ok h hsize (.inet6 ip port)
    have hfit : ('[' :: ip').length < 64 := by rw [List.length_cons]; omega
    let tail := snprintf (64 - ('[' :: ip').length)
      (']' :: ':' :: formatUnsigned (networkToHost16 port).toNat)
    have htail : tail.length ≤ 7 :=
      Nat.le_trans (length_snprintf_le _ _)
        (Nat.succ_le_succ (Nat.succ_le_succ (length_port_le (networkToHost16 port))))
    refine ⟨'[' :: ip' ++ tail, ?_, by rw [List.length_append, List.length_cons]; omega⟩
    simp only [toIpPort, Sockets.toIpPort, hbuf, ok_bind, cassert_of hfit]
    rfl

end InetAddress

end Siren
