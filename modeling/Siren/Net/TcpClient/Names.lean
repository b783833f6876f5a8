import Siren.Net.InetAddress
import Siren.Net.TcpClient.Basic

/-!
# The names of a client's connections

`newConnection` prints the peer and `nextConnId_` into a buffer of 32 characters, half the size of the server's.
The number comes last, so it is cut off where the address takes the room.

* `numbered_nodup_iff`: numbers cut off at some length differ up to `n` exactly when `n` itself is not cut.
* `names_distinct_iff`: when the names of a client's connections differ, in every run; for IPv4 it takes a
  hundred million connections to run out of names.
-/

namespace Siren

/-! ### Numbers that are cut off -/

theorem formatUnsigned_ten_mul {n : Nat} (hn : 0 < n) : formatUnsigned (10 * n) = formatUnsigned n ++ ['0'] :=
  (Nat.toDigits_append_toDigits (by decide) hn (by decide : 0 < 10)).symm

theorem length_formatUnsigned_pos (n : Nat) : 0 < (formatUnsigned n).length := Nat.length_toDigits_pos

/-- A larger number has no fewer digits. -/
theorem length_formatUnsigned_mono {m n : Nat} (h : m ≤ n) :
    (formatUnsigned m).length ≤ (formatUnsigned n).length := by
  have hpos := length_formatUnsigned_pos n
  have hlt : n < 10 ^ (formatUnsigned n).length := (Nat.length_toDigits_le_iff (by decide) hpos).mp le_rfl
  exact length_formatUnsigned_le hpos (h.trans_lt hlt)

/-- Of the powers of ten with one more digit than there is room for, and with as many, the same is left. -/
theorem take_formatUnsigned_pow (room : Nat) :
    (formatUnsigned (10 * 10 ^ room)).take (room + 1) = (formatUnsigned (10 ^ room)).take (room + 1) := by
  have hpos : 0 < 10 ^ room := Nat.pow_pos (by decide)
  have hlength : room < (formatUnsigned (10 ^ room)).length := by
    by_contra hle
    rw [not_lt] at hle
    have hroom : 0 < room := (length_formatUnsigned_pos _).trans_le hle
    exact Nat.lt_irrefl _ ((Nat.length_toDigits_le_iff (by decide) hroom).mp hle)
  rw [formatUnsigned_ten_mul hpos, List.take_append_of_le_length hlength]

/-- Numbers from 1 on, with `room` for their digits: they differ as long as the last one is not cut off. -/
theorem numbered_nodup_iff (stem : Text) (room n : Nat) :
    ((List.range n).map fun i => stem ++ (formatUnsigned (i + 1)).take room).Nodup ↔
      n ≤ 1 ∨ (formatUnsigned n).length ≤ room := by
  constructor
  · intro hnodup
    by_contra hnot
    rw [not_or, not_le, not_le] at hnot
    obtain ⟨hmany, hcut⟩ := hnot
    have hsame : ∀ j k, j < n → k < n →
        (formatUnsigned (j + 1)).take room = (formatUnsigned (k + 1)).take room → j = k := by
      intro j k hj hk heq
      refine List.inj_on_of_nodup_map hnodup (List.mem_range.mpr hj) (List.mem_range.mpr hk) ?_
      exact congrArg (stem ++ ·) heq
    cases room with
    | zero =>
      have heq := hsame 0 1 (by omega) (by omega) rfl
      omega
    | succ room =>
      -- the power of ten that is the first to be cut off, and the one before it
      have hpow : 10 * 10 ^ room ≤ n := by
        by_contra hlt
        rw [not_le, ← Nat.pow_succ'] at hlt
        exact hcut.not_ge (length_formatUnsigned_le (Nat.succ_pos room) hlt)
      have hpos : 0 < 10 ^ room := Nat.pow_pos (by decide)
      have heq := hsame (10 * 10 ^ room - 1) (10 ^ room - 1) (by omega) (by omega) (by
        rw [Nat.sub_add_cancel (by omega), Nat.sub_add_cancel hpos]
        exact take_formatUnsigned_pow room)
      omega
  · rintro (hone | hfit)
    · have hcases : n = 0 ∨ n = 1 := by omega
      rcases hcases with rfl | rfl
      · exact List.nodup_nil
      · exact List.nodup_singleton _
    · refine List.Nodup.map_on ?_ List.nodup_range
      intro j hj k hk heq
      rw [List.mem_range] at hj hk
      have hj' := length_formatUnsigned_mono (show j + 1 ≤ n by omega)
      have hk' := length_formatUnsigned_mono (show k + 1 ≤ n by omega)
      rw [List.append_cancel_left_eq, List.take_of_length_le (by omega), List.take_of_length_le (by omega)] at heq
      have hnumber := formatUnsigned_injective heq
      omega

/-! ### Names -/

namespace TcpClient

open Connector (Assertion)

/-- `connName` in `newConnection`. -/
def connName (name_ ipPort : Text) (nextConnId_ : Int) : Text :=
  name_ ++ snprintf 32 (':' :: ipPort ++ '#' :: formatInt nextConnId_)

/-- `nextConnId_`, and as history the names of the connections made. -/
structure Naming where
  nextConnId_ : Int
  names : List Text

/-- A client that has made no connection. -/
def Naming.new : Naming := ⟨1, []⟩

/-- The names in `newConnection`, which the connector calls in its steps. -/
def namesAfter (name_ ipPort : Text) (s : TcpClient) (a : Label) (t : TcpClient) (naming : Naming) : Naming :=
  match a, passedOn s.connector.conn t.connector.conn with
  | .connector _, some _ =>
    ⟨toInt (naming.nextConnId_ + 1), naming.names ++ [connName name_ ipPort naming.nextConnId_]⟩
  | _, _ => naming

/-- A client called `name_` on its loop, where `ipPort` is the text of its peer. -/
def named (name_ ipPort : Text) : Machine (Except Assertion (TcpClient × Naming)) Label :=
  .ofExcept (Machine.recording step (namesAfter name_ ipPort))

variable {name_ ipPort : Text}

/-- The address and the number share 29 characters. -/
theorem connName_eq (name_ ipPort : Text) (n : Nat) : connName name_ ipPort n =
    name_ ++ (':' :: ipPort ++ ['#']).take 31 ++ (formatUnsigned n).take (29 - ipPort.length) := by
  have hsplit : ':' :: ipPort ++ '#' :: formatInt n = (':' :: ipPort ++ ['#']) ++ formatUnsigned n := by
    simp [formatInt]
  have hlength : (':' :: ipPort ++ ['#']).length = ipPort.length + 2 := by simp
  have hroom : 31 - (ipPort.length + 2) = 29 - ipPort.length := by omega
  rw [connName, snprintf, hsplit, List.take_append, hlength, hroom, List.append_assoc]

/-- The counter and the names it made so far, as long as the counter has not come to its end. -/
structure Numbered (name_ ipPort : Text) (naming : Naming) : Prop where
  counter : naming.names.length < intMax → naming.nextConnId_ = (naming.names.length + 1 : Nat)
  names : naming.names.length ≤ intMax →
    naming.names = (List.range naming.names.length).map fun i => connName name_ ipPort (i + 1 : Nat)

theorem new_numbered : Numbered name_ ipPort .new := ⟨fun _ => rfl, fun _ => rfl⟩

theorem Numbered.newConnection {naming : Naming} (h : Numbered name_ ipPort naming) :
    Numbered name_ ipPort
      ⟨toInt (naming.nextConnId_ + 1), naming.names ++ [connName name_ ipPort naming.nextConnId_]⟩ := by
  have hlength : (naming.names ++ [connName name_ ipPort naming.nextConnId_]).length = naming.names.length + 1 :=
    List.length_append
  refine ⟨fun hlt => ?_, fun hle => ?_⟩
  · rw [hlength] at hlt ⊢
    show toInt (naming.nextConnId_ + 1) = _
    have hcast : ((naming.names.length + 1 : Nat) : Int) + 1 = (naming.names.length + 1 + 1 : Nat) := by omega
    rw [h.counter (by omega), hcast]
    exact toInt_of_le (by omega)
  · rw [hlength] at hle ⊢
    rw [List.range_succ, List.map_append, ← h.names (by omega), h.counter (by omega)]
    rfl

theorem Numbered.step {u v : TcpClient × Naming} {a : Label} (h : Numbered name_ ipPort u.2)
    (hstep : Machine.recording TcpClient.step (namesAfter name_ ipPort) u a = some (.ok v)) :
    Numbered name_ ipPort v.2 := by
  obtain ⟨-, hafter⟩ := Machine.recording_eq_ok.mp hstep
  rw [hafter]
  unfold namesAfter
  split
  · exact h.newConnection
  · exact h

theorem Numbered.nodup_iff {naming : Naming} (h : Numbered name_ ipPort naming)
    (hle : naming.names.length ≤ intMax) : naming.names.Nodup ↔
      naming.names.length ≤ 1 ∨ ipPort.length + (formatUnsigned naming.names.length).length ≤ 29 := by
  have hpos := length_formatUnsigned_pos naming.names.length
  have hroom : ipPort.length + (formatUnsigned naming.names.length).length ≤ 29 ↔
      (formatUnsigned naming.names.length).length ≤ 29 - ipPort.length := by omega
  rw [hroom]
  generalize hn : naming.names.length = n at *
  rw [h.names (by omega), hn]
  simp only [connName_eq]
  exact numbered_nodup_iff _ _ _

/-! ### Every run -/

open Sockets in
/-- The text of an IPv4 address with its port. -/
theorem length_toIpPort_inet {inet6 : BitVec 128 → Text} {ip : BitVec 32} {port : BitVec 16}
    (h : InetAddress.toIpPort ⟨inetNtop, inet6⟩ (.inet ip port) = .ok ipPort) : ipPort.length ≤ 21 := by
  have hip : (inetNtop ip).length < 16 := length_inetNtop_lt ip
  have hport := length_port_le (networkToHost16 port)
  obtain rfl := Except.ok.inj ((toIpPort_inet (by decide) ip port).symm.trans h)
  rw [List.length_append, List.length_cons]
  omega

/-- **The names of a client's connections**: in every run of a client that has made no more than `INT_MAX`
connections, their names differ if and only if there is only one or the text of the peer leaves room for the digits
of the last number, in all 29 characters; for an IPv4 peer that is so for the first `10 ^ 8 - 1` connections. -/
theorem names_distinct_iff (name_ ipPort : Text) (as : List Label) :
    (named name_ ipPort).Always (Machine.HoldsIfOk fun s => s.2.names.length ≤ intMax →
      (s.2.names.Nodup ↔
        s.2.names.length ≤ 1 ∨ ipPort.length + (formatUnsigned s.2.names.length).length ≤ 29) ∧
      ∀ inet6 ip port, InetAddress.toIpPort ⟨Sockets.inetNtop, inet6⟩ (.inet ip port) = .ok ipPort →
        s.2.names.length < 10 ^ 8 → s.2.names.Nodup) (.ok (new, .new)) as := by
  have hinv : (named name_ ipPort).Always (Machine.HoldsIfOk fun s => Numbered name_ ipPort s.2)
      (.ok (new, .new)) as :=
    Machine.ofExcept_always_holdsIfOk new_numbered fun _ _ _ h hstep => h.step hstep
  refine hinv.mono fun r hr => ?_
  cases r with
  | error e => trivial
  | ok s =>
    intro hle
    refine ⟨hr.nodup_iff hle, fun inet6 ip port htext hlt => (hr.nodup_iff hle).mpr (.inr ?_)⟩
    have hlength := length_toIpPort_inet htext
    have hdigits : (formatUnsigned s.2.names.length).length ≤ 8 := length_formatUnsigned_le (by decide) hlt
    omega

/-- An IPv6 peer may leave no room for the number. -/
example : connName ['c'] "[2001:db8:85a3::8a2e:370:7334]:2007".toList 1 =
    connName ['c'] "[2001:db8:85a3::8a2e:370:7334]:2007".toList 2 := by decide

end TcpClient

end Siren
