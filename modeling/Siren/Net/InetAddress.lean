import Mathlib.Tactic.IntervalCases
import Siren.Net.SocketsOps

/-!
# Addresses from text

`InetAddress(ip, port)` reads with `inet_pton(3)` what `toIp` writes with `inet_ntop(3)`. For IPv4 both are here,
on `s_addr` as a little-endian host reads it: the first byte is the lowest. `inet_pton` takes the digits one by one
and allows no leading zero. For IPv6 they are parameters (`Ntop6`).

* `inetPton_eq_some`: `inet_pton` accepts exactly the texts that `inet_ntop` writes.
* `text_round_trip`: an address goes through its text and back, and a text through its address.
* `self_connect_iff`: different addresses have different texts, and `isSelfConnect` holds when both ends have the
  same.
-/

namespace Siren

namespace Sockets

/-! ### Byte order -/

/-- `htobe16` on a little-endian host. -/
def hostToNetwork16 (host16 : BitVec 16) : BitVec 16 := host16 <<< 8 ||| host16 >>> 8

/-- `htobe32` on a little-endian host. -/
def hostToNetwork32 (host32 : BitVec 32) : BitVec 32 :=
  host32 <<< 24 ||| (host32 &&& 0xff00) <<< 8 ||| (host32 >>> 8 &&& 0xff00) ||| host32 >>> 24

@[simp] theorem networkToHost16_hostToNetwork16 (port : BitVec 16) :
    networkToHost16 (hostToNetwork16 port) = port := by
  apply BitVec.eq_of_getLsbD_eq
  intro i hi
  have hover : port.getLsbD (8 + (8 + i)) = false := BitVec.getLsbD_of_ge port _ (by omega)
  simp only [networkToHost16, hostToNetwork16, BitVec.getLsbD_or, BitVec.getLsbD_shiftLeft,
    BitVec.getLsbD_ushiftRight]
  by_cases hlow : i < 8
  · simp [hlow, hover, show 8 + i < 16 by omega, show 8 + i - 8 = i by omega]
  · simp [hlow, hi, hover, show i - 8 < 8 by omega, show 8 + (i - 8) = i by omega, show ¬ 8 + i < 16 by omega]

@[simp] theorem hostToNetwork16_networkToHost16 (port : BitVec 16) :
    hostToNetwork16 (networkToHost16 port) = port := networkToHost16_hostToNetwork16 port

theorem networkToHost16_injective : Function.Injective networkToHost16 :=
  Function.LeftInverse.injective hostToNetwork16_networkToHost16

/-! ### Digits -/

theorem isDigit_digitChar {d : Nat} (h : d < 10) : (Nat.digitChar d).isDigit = true := by
  interval_cases d <;> rfl

theorem digitChar_toNat {d : Nat} (h : d < 10) : (Nat.digitChar d).toNat - '0'.toNat = d := by
  interval_cases d <;> rfl

theorem digitChar_of_isDigit {ch : Char} (h : ch.isDigit = true) :
    ch.toNat - '0'.toNat < 10 ∧ Nat.digitChar (ch.toNat - '0'.toNat) = ch := by
  simp only [Char.isDigit, Bool.and_eq_true, decide_eq_true_eq, ge_iff_le, UInt32.le_iff_toNat_le] at h
  obtain ⟨hlow, hhigh⟩ := h
  have hlow : 48 ≤ ch.toNat := hlow
  have hhigh : ch.toNat ≤ 57 := hhigh
  have hch : Char.ofNat ch.toNat = ch := Char.ofNat_toNat ch
  generalize ch.toNat = n at *
  subst hch
  refine ⟨?_, ?_⟩
  · show n - 48 < 10
    omega
  · interval_cases n <;> rfl

theorem formatUnsigned_of_lt {n : Nat} (h : n < 10) : formatUnsigned n = [n.digitChar] := Nat.toDigits_of_lt_base h

theorem formatUnsigned_of_le {n : Nat} (h : 10 ≤ n) :
    formatUnsigned n = formatUnsigned (n / 10) ++ [(n % 10).digitChar] := Nat.toDigits_of_base_le (by decide) h

/-- A number is written with digits only. -/
theorem notMem_formatUnsigned {ch : Char} (h : ch.isDigit = false) (n : Nat) : ch ∉ formatUnsigned n := by
  intro hmem
  have hdigit := Nat.isDigit_of_mem_toDigits (by decide) (by decide) hmem
  rw [h] at hdigit
  cases hdigit

/-! ### `inet_ntop` and `inet_pton` for IPv4 -/

/-- The octets of an address, in memory order. -/
def octet (addr : BitVec 32) (i : Nat) : Nat := addr.toNat / 256 ^ i % 256

/-- The text of four octets. -/
def dotted (a b c d : Nat) : Text :=
  formatUnsigned a ++ '.' :: (formatUnsigned b ++ '.' :: (formatUnsigned c ++ '.' :: formatUnsigned d))

/-- `inet_ntop(AF_INET, ...)` -/
def inetNtop (addr : BitVec 32) : Text := dotted (octet addr 0) (octet addr 1) (octet addr 2) (octet addr 3)

/-- The address of four octets. -/
def ofOctets (a b c d : Nat) : BitVec 32 := BitVec.ofNat 32 (a + 256 * b + 65536 * c + 16777216 * d)

/-- What `inet_pton` has read: the octets before the last dot, and the one it is in, once that has a digit. -/
structure Scan where
  before : List Nat
  octet : Option Nat

/-- The next character of the text; `none` where the text is refused. -/
def Scan.next (s : Scan) (ch : Char) : Option Scan :=
  if ch.isDigit then
    let digit := ch.toNat - '0'.toNat
    match s.octet with
    | none => if s.before.length = 4 then none else some { s with octet := some digit }
    | some value =>
      if value = 0 then none
      else if 255 < value * 10 + digit then none
      else some { s with octet := some (value * 10 + digit) }
  else if ch = '.' then
    match s.octet with
    | none => none
    | some value => if s.before.length + 1 = 4 then none else some ⟨s.before ++ [value], none⟩
  else none

/-- `inet_pton(AF_INET, ...)` -/
def inetPton (text : Text) : Option (BitVec 32) :=
  match text.foldlM Scan.next ⟨[], none⟩ with
  | some ⟨[a, b, c], some d⟩ => some (ofOctets a b c d)
  | _ => none

/-- The text that leads to a scan. -/
def Scan.read (s : Scan) : Text :=
  (s.before.flatMap fun value => formatUnsigned value ++ ['.']) ++ s.octet.elim [] formatUnsigned

/-- The octets of a scan fit into a byte. -/
def Scan.Fits (s : Scan) : Prop := (∀ value ∈ s.before, value < 256) ∧ ∀ value ∈ s.octet, value < 256

/-- What was read and the next character are read after it. -/
theorem Scan.next_read {s t : Scan} {ch : Char} (h : s.Fits) (hnext : s.next ch = some t) :
    t.read = s.read ++ [ch] ∧ t.Fits := by
  obtain ⟨before, octet⟩ := s
  unfold next at hnext
  split at hnext
  · rename_i hdigit
    obtain ⟨hlt, hchar⟩ := digitChar_of_isDigit hdigit
    generalize ch.toNat - '0'.toNat = digit at *
    cases octet with
    | none =>
      -- the first digit of an octet
      obtain ⟨-, heq⟩ := Option.ite_none_left_eq_some.mp hnext
      obtain rfl := Option.some.inj heq
      refine ⟨?_, h.1, ?_⟩
      · simp [read, formatUnsigned_of_lt hlt, hchar]
      · rintro value ⟨⟩
        omega
    | some value =>
      -- one more digit, of an octet other than 0
      obtain ⟨hpos, hnext⟩ := Option.ite_none_left_eq_some.mp hnext
      obtain ⟨hfits, heq⟩ := Option.ite_none_left_eq_some.mp hnext
      obtain rfl := Option.some.inj heq
      refine ⟨?_, h.1, ?_⟩
      · have hdiv : (value * 10 + digit) / 10 = value := by omega
        have hmod : (value * 10 + digit) % 10 = digit := by omega
        simp [read, formatUnsigned_of_le (n := value * 10 + digit) (by omega), hdiv, hmod, hchar]
      · rintro value' ⟨⟩
        omega
  · split at hnext
    · rename_i hdot
      cases octet with
      | none => cases hnext
      | some value =>
        obtain ⟨-, heq⟩ := Option.ite_none_left_eq_some.mp hnext
        obtain rfl := Option.some.inj heq
        refine ⟨?_, ?_, ?_⟩
        · simp [read, hdot]
        · intro value' hmem
          rcases List.mem_append.mp hmem with hmem | hmem
          · exact h.1 value' hmem
          · rw [List.mem_singleton.mp hmem]
            exact h.2 value rfl
        · rintro value' ⟨⟩
    · cases hnext

theorem Scan.foldlM_read {s t : Scan} {text : Text} (h : s.Fits) (hread : text.foldlM next s = some t) :
    t.read = s.read ++ text ∧ t.Fits := by
  induction text generalizing s with
  | nil =>
    obtain rfl := Option.some.inj hread
    exact ⟨(List.append_nil _).symm, h⟩
  | cons ch text ih =>
    rw [List.foldlM_cons] at hread
    obtain ⟨u, hnext, hread⟩ := Option.bind_eq_some_iff.mp hread
    obtain ⟨hu, hfits⟩ := next_read h hnext
    obtain ⟨ht, hfits'⟩ := ih hfits hread
    refine ⟨?_, hfits'⟩
    rw [ht, hu, List.append_assoc]
    rfl

theorem Scan.next_first {before : List Nat} {d : Nat} (hlength : before.length < 4) (h : d < 10) :
    next ⟨before, none⟩ d.digitChar = some ⟨before, some d⟩ := by
  simp only [next, isDigit_digitChar h, digitChar_toNat h, if_true]
  exact if_neg (by omega)

theorem Scan.next_digit {before : List Nat} {value d : Nat} (hpos : value ≠ 0) (h : d < 10)
    (hfits : value * 10 + d < 256) :
    next ⟨before, some value⟩ d.digitChar = some ⟨before, some (value * 10 + d)⟩ := by
  simp only [next, isDigit_digitChar h, digitChar_toNat h, if_true]
  rw [if_neg hpos, if_neg (by omega)]

/-- An octet is read digit by digit. -/
theorem Scan.foldlM_formatUnsigned {before : List Nat} (hlength : before.length < 4) {value : Nat}
    (h : value < 256) : (formatUnsigned value).foldlM next ⟨before, none⟩ = some ⟨before, some value⟩ := by
  induction value using Nat.strongRecOn with
  | _ value ih =>
    rcases Nat.lt_or_ge value 10 with hone | hmore
    · rw [formatUnsigned_of_lt hone, List.foldlM_cons, next_first hlength hone]
      rfl
    · have hmod : value % 10 < 10 := Nat.mod_lt _ (by decide)
      have hvalue : value / 10 * 10 + value % 10 = value := by omega
      rw [formatUnsigned_of_le hmore, List.foldlM_append, ih (value / 10) (by omega) (by omega),
        Option.bind_eq_bind, Option.bind_some, List.foldlM_cons, next_digit (by omega) hmod (by omega), hvalue]
      rfl

theorem Scan.next_dot {before : List Nat} {value : Nat} (hlength : before.length < 3) :
    next ⟨before, some value⟩ '.' = some ⟨before ++ [value], none⟩ := by
  show (if before.length + 1 = 4 then none else some (⟨before ++ [value], none⟩ : Scan)) = _
  rw [if_neg (by omega)]

theorem inetPton_dotted {a b c d : Nat} (ha : a < 256) (hb : b < 256) (hc : c < 256) (hd : d < 256) :
    inetPton (dotted a b c d) = some (ofOctets a b c d) := by
  have hread : (dotted a b c d).foldlM Scan.next ⟨[], none⟩ = some ⟨[a, b, c], some d⟩ := by
    unfold dotted
    rw [List.foldlM_append, Scan.foldlM_formatUnsigned (by decide) ha, Option.bind_eq_bind, Option.bind_some,
      List.foldlM_cons, Scan.next_dot (by decide), Option.bind_eq_bind, Option.bind_some,
      List.foldlM_append, Scan.foldlM_formatUnsigned (by simp) hb, Option.bind_eq_bind, Option.bind_some,
      List.foldlM_cons, Scan.next_dot (by simp), Option.bind_eq_bind, Option.bind_some,
      List.foldlM_append, Scan.foldlM_formatUnsigned (by simp) hc, Option.bind_eq_bind, Option.bind_some,
      List.foldlM_cons, Scan.next_dot (by simp), Option.bind_eq_bind, Option.bind_some,
      Scan.foldlM_formatUnsigned (by simp) hd]
    rfl
  rw [inetPton, hread]

theorem octet_lt (addr : BitVec 32) (i : Nat) : octet addr i < 256 := Nat.mod_lt _ (by decide)

theorem ofOctets_octet (addr : BitVec 32) :
    ofOctets (octet addr 0) (octet addr 1) (octet addr 2) (octet addr 3) = addr := by
  apply BitVec.eq_of_toNat_eq
  have hlt := addr.isLt
  simp only [ofOctets, octet, BitVec.toNat_ofNat]
  omega

theorem octet_ofOctets {a b c d : Nat} (ha : a < 256) (hb : b < 256) (hc : c < 256) (hd : d < 256) :
    inetNtop (ofOctets a b c d) = dotted a b c d := by
  have hnat : (ofOctets a b c d).toNat = a + 256 * b + 65536 * c + 16777216 * d := by
    rw [ofOctets, BitVec.toNat_ofNat]
    omega
  have h0 : octet (ofOctets a b c d) 0 = a := by rw [octet, hnat]; omega
  have h1 : octet (ofOctets a b c d) 1 = b := by rw [octet, hnat]; omega
  have h2 : octet (ofOctets a b c d) 2 = c := by rw [octet, hnat]; omega
  have h3 : octet (ofOctets a b c d) 3 = d := by rw [octet, hnat]; omega
  rw [inetNtop, h0, h1, h2, h3]

/-- `inet_pton` accepts the texts that `inet_ntop` writes, and no others. -/
theorem inetPton_eq_some {text : Text} {addr : BitVec 32} : inetPton text = some addr ↔ text = inetNtop addr := by
  constructor
  · intro h
    unfold inetPton at h
    split at h
    · rename_i a b c d hread
      obtain rfl := Option.some.inj h
      have hstart : Scan.Fits ⟨[], none⟩ := ⟨by simp, by simp⟩
      obtain ⟨htext, hbefore, hlast⟩ := Scan.foldlM_read hstart hread
      have hd : d < 256 := hlast d rfl
      rw [octet_ofOctets (hbefore a (by simp)) (hbefore b (by simp)) (hbefore c (by simp)) hd]
      have hread : Scan.read ⟨[a, b, c], some d⟩ = dotted a b c d := by simp [Scan.read, dotted]
      rw [← hread, htext]
      rfl
    · cases h
  · rintro rfl
    rw [inetNtop, inetPton_dotted (octet_lt addr 0) (octet_lt addr 1) (octet_lt addr 2) (octet_lt addr 3),
      ofOctets_octet]

theorem inetNtop_injective : Function.Injective inetNtop := by
  intro addr addr' h
  have haddr := inetPton_eq_some.mpr (rfl : inetNtop addr = inetNtop addr)
  rw [h] at haddr
  exact Option.some.inj (haddr.symm.trans (inetPton_eq_some.mpr rfl))

/-! ### Texts of addresses -/

/-- What `inet_ntop(3)` and `inet_pton(3)` do for `AF_INET6`: the text has colons and fits into `INET6_ADDRSTRLEN`
characters with its NUL, and the address is read back from it. -/
structure Ntop6 (inet6 : BitVec 128 → Text) (pton6 : Text → Option (BitVec 128)) : Prop where
  length : ∀ addr, (inet6 addr).length < INET6_ADDRSTRLEN
  colon : ∀ addr, ':' ∈ inet6 addr
  back : ∀ addr, pton6 (inet6 addr) = some addr

/-- `fromIpPort` into a zeroed `sockaddr_in`. -/
def fromIpPort (ip : Text) (port : BitVec 16) : SockAddr := .inet ((inetPton ip).getD 0) (hostToNetwork16 port)

/-- `fromIpPort` into a zeroed `sockaddr_in6`. -/
def fromIpPort6 (pton6 : Text → Option (BitVec 128)) (ip : Text) (port : BitVec 16) : SockAddr :=
  .inet6 ((pton6 ip).getD 0) (hostToNetwork16 port)

variable {inet6 : BitVec 128 → Text} {pton6 : Text → Option (BitVec 128)}

theorem Ntop6.injective (h : Ntop6 inet6 pton6) : Function.Injective inet6 := by
  intro addr addr' heq
  have hback := h.back addr
  rw [heq, h.back addr'] at hback
  exact (Option.some.inj hback).symm

theorem length_octet_le (addr : BitVec 32) (i : Nat) : (formatUnsigned (octet addr i)).length ≤ 3 :=
  length_formatUnsigned_le (by decide) (Nat.lt_trans (octet_lt addr i) (by decide))

theorem length_inetNtop_lt (addr : BitVec 32) : (inetNtop addr).length < INET_ADDRSTRLEN := by
  have h0 := length_octet_le addr 0
  have h1 := length_octet_le addr 1
  have h2 := length_octet_le addr 2
  have h3 := length_octet_le addr 3
  simp only [inetNtop, dotted, List.length_append, List.length_cons, INET_ADDRSTRLEN]
  omega

theorem colon_notMem_inetNtop (addr : BitVec 32) : ':' ∉ inetNtop addr := by
  have hdigits : ∀ n, ':' ∉ formatUnsigned n := notMem_formatUnsigned (by decide)
  simp [inetNtop, dotted, hdigits]

theorem toIp_inet {size : Nat} (hsize : INET_ADDRSTRLEN ≤ size) (addr : BitVec 32) (port : BitVec 16) :
    toIp ⟨inetNtop, inet6⟩ size (.inet addr port) = .ok (inetNtop addr) := by
  have hfit : (inetNtop addr).length < size := Nat.lt_of_lt_of_le (length_inetNtop_lt addr) hsize
  rw [toIp, cassert_of hsize, ok_bind, written, if_pos hfit]
  rfl

theorem toIp_inet6 (h : Ntop6 inet6 pton6) {size : Nat} (hsize : INET6_ADDRSTRLEN ≤ size) (addr : BitVec 128)
    (port : BitVec 16) : toIp ⟨inetNtop, inet6⟩ size (.inet6 addr port) = .ok (inet6 addr) := by
  have hfit : (inet6 addr).length < size := Nat.lt_of_lt_of_le (h.length addr) hsize
  rw [toIp, cassert_of hsize, ok_bind, written, if_pos hfit]
  rfl

theorem toIpPort_inet {size : Nat} (hsize : 22 ≤ size) (addr : BitVec 32) (port : BitVec 16) :
    toIpPort ⟨inetNtop, inet6⟩ size (.inet addr port) =
      .ok (inetNtop addr ++ ':' :: formatUnsigned (networkToHost16 port).toNat) := by
  have hlength : (inetNtop addr).length < 16 := length_inetNtop_lt addr
  have hport := length_port_le (networkToHost16 port)
  have hroom : (':' :: formatUnsigned (networkToHost16 port).toNat).length < size - (inetNtop addr).length := by
    rw [List.length_cons]
    omega
  have hfit : (inetNtop addr).length < size := by omega
  have hstr : INET_ADDRSTRLEN ≤ size := Nat.le_trans (by decide) hsize
  rw [toIpPort, toIp_inet hstr, ok_bind, cassert_of hfit, ok_bind, snprintf_of_lt hroom]
  rfl

theorem toIpPort_inet6 (h : Ntop6 inet6 pton6) {size : Nat} (hsize : 54 ≤ size) (addr : BitVec 128)
    (port : BitVec 16) : toIpPort ⟨inetNtop, inet6⟩ size (.inet6 addr port) =
      .ok ('[' :: inet6 addr ++ ']' :: ':' :: formatUnsigned (networkToHost16 port).toNat) := by
  have hlength : (inet6 addr).length < 46 := h.length addr
  have hport := length_port_le (networkToHost16 port)
  have hroom : (']' :: ':' :: formatUnsigned (networkToHost16 port).toNat).length <
      size - ('[' :: inet6 addr).length := by
    rw [List.length_cons, List.length_cons, List.length_cons]
    omega
  have hfit : ('[' :: inet6 addr).length < size := by
    rw [List.length_cons]
    omega
  have hstr : INET6_ADDRSTRLEN ≤ size - 1 := by
    show 46 ≤ size - 1
    omega
  rw [toIpPort, toIp_inet6 h hstr, ok_bind]
  dsimp only
  rw [cassert_of hfit, ok_bind, snprintf_of_lt hroom]
  rfl

/-! ### Self-connects -/

def AF_INET : Nat := 2
def AF_INET6 : Nat := 10

/-- A `sockaddr_in6` of `getsockname` or `getpeername`, in which an IPv4 address stands where `sin6_flowinfo` is. -/
structure SockAddrIn6 where
  sin6_family : Nat
  sin6_port : BitVec 16
  sin6_flowinfo : BitVec 32
  sin6_addr : BitVec 128

/-- What is left of a zeroed `sockaddr_in6` when `getsockname` or `getpeername` fails. -/
def SockAddrIn6.zero : SockAddrIn6 := ⟨0, 0, 0, 0⟩

def SockAddr.toIn6 (flowinfo : BitVec 32) : SockAddr → SockAddrIn6
  | .inet addr port => ⟨AF_INET, port, addr, 0⟩
  | .inet6 addr port => ⟨AF_INET6, port, flowinfo, addr⟩

/-- `isSelfConnect` of a socket with these ends. -/
def isSelfConnect (localaddr peeraddr : SockAddrIn6) : Bool :=
  if localaddr.sin6_family = AF_INET then
    localaddr.sin6_port == peeraddr.sin6_port && localaddr.sin6_flowinfo == peeraddr.sin6_flowinfo
  else if localaddr.sin6_family = AF_INET6 then
    localaddr.sin6_port == peeraddr.sin6_port && localaddr.sin6_addr == peeraddr.sin6_addr
  else false

/-- Ends of one family are the same when `isSelfConnect` says so. -/
theorem isSelfConnect_iff {localaddr peeraddr : SockAddr} {flowinfo flowinfo' : BitVec 32}
    (hfamily : (localaddr.toIn6 flowinfo).sin6_family = (peeraddr.toIn6 flowinfo').sin6_family) :
    isSelfConnect (localaddr.toIn6 flowinfo) (peeraddr.toIn6 flowinfo') = true ↔ localaddr = peeraddr := by
  cases localaddr with
  | inet addr port =>
    cases peeraddr with
    | inet addr' port' => simp [isSelfConnect, SockAddr.toIn6, and_comm]
    | inet6 addr' port' => cases hfamily
  | inet6 addr port =>
    cases peeraddr with
    | inet addr' port' => cases hfamily
    | inet6 addr' port' => simp [isSelfConnect, SockAddr.toIn6, AF_INET, AF_INET6, and_comm]

/-- Two texts with the same last separator. -/
theorem append_cons_inj {α : Type*} {x x' z z' : List α} {a : α} (hz : a ∉ z) (hz' : a ∉ z')
    (h : x ++ a :: z = x' ++ a :: z') : x = x' ∧ z = z' := by
  rcases List.append_eq_append_iff.mp h with ⟨more, rfl, hmore⟩ | ⟨more, rfl, hmore⟩
  · cases more with
    | nil => exact ⟨(List.append_nil x).symm, (List.cons.inj hmore).2⟩
    | cons b more =>
      obtain ⟨-, rfl⟩ := List.cons.inj hmore
      exact absurd (List.mem_append_right more List.mem_cons_self) hz
  · cases more with
    | nil => exact ⟨List.append_nil x', (List.cons.inj hmore).2.symm⟩
    | cons b more =>
      obtain ⟨-, rfl⟩ := List.cons.inj hmore
      exact absurd (List.mem_append_right more List.mem_cons_self) hz'

end Sockets

namespace InetAddress

open Sockets

def kInaddrAny : BitVec 32 := 0
def kInaddrLoopback : BitVec 32 := 0x7f000001

/-- `InetAddress(portArg, loopbackOnly, false)` -/
def ofPort (portArg : BitVec 16) (loopbackOnly : Bool) : SockAddr :=
  .inet (hostToNetwork32 (if loopbackOnly then kInaddrLoopback else kInaddrAny)) (hostToNetwork16 portArg)

/-- `InetAddress(ip, portArg, ipv6)` -/
def ofIp (pton6 : Text → Option (BitVec 128)) (ip : Text) (portArg : BitVec 16) (ipv6 : Bool) : SockAddr :=
  if ipv6 || ip.contains ':' then fromIpPort6 pton6 ip portArg else fromIpPort ip portArg

/-- `toIp()` with its buffer of 64 characters. -/
def toIp (ntop : InetNtop) (addr : SockAddr) : Except Failure Text := Sockets.toIp ntop 64 addr

def portNetEndian : SockAddr → BitVec 16
  | .inet _ port => port
  | .inet6 _ port => port

def port (addr : SockAddr) : BitVec 16 := networkToHost16 (portNetEndian addr)

variable {inet6 : BitVec 128 → Text} {pton6 : Text → Option (BitVec 128)}

theorem ofIp_of_notMem {ip : Text} (h : ':' ∉ ip) (portArg : BitVec 16) :
    ofIp pton6 ip portArg false = fromIpPort ip portArg := by
  simp [ofIp, h]

theorem ofIp_of_mem {ip : Text} (h : ':' ∈ ip) (portArg : BitVec 16) :
    ofIp pton6 ip portArg false = fromIpPort6 pton6 ip portArg := by
  simp [ofIp, h]

/-- An address is read back from its text and port. -/
theorem ofIp_toIp (h : Ntop6 inet6 pton6) (addr : SockAddr) :
    ∃ ip, toIp ⟨inetNtop, inet6⟩ addr = .ok ip ∧ ofIp pton6 ip (port addr) false = addr := by
  cases addr with
  | inet addr port =>
    refine ⟨inetNtop addr, toIp_inet (by decide) addr port, ?_⟩
    rw [ofIp_of_notMem (colon_notMem_inetNtop addr), fromIpPort, inetPton_eq_some.mpr rfl]
    exact congrArg (SockAddr.inet addr) (hostToNetwork16_networkToHost16 port)
  | inet6 addr port =>
    refine ⟨inet6 addr, toIp_inet6 h (by decide) addr port, ?_⟩
    rw [ofIp_of_mem (h.colon addr), fromIpPort6, h.back addr]
    exact congrArg (SockAddr.inet6 addr) (hostToNetwork16_networkToHost16 port)

/-- **Text and back**: each address is read back by `InetAddress(ip, port)` from its `toIp()` and `port()`, for
both families. And a text without a colon gives an address with that port and that text; or it is the text of no
address, and gives `0.0.0.0`. -/
theorem text_round_trip (h : Ntop6 inet6 pton6) :
    (∀ addr, ∃ ip, toIp ⟨inetNtop, inet6⟩ addr = .ok ip ∧ ofIp pton6 ip (port addr) false = addr) ∧
    ∀ ip portArg, ':' ∉ ip → port (ofIp pton6 ip portArg false) = portArg ∧
      (toIp ⟨inetNtop, inet6⟩ (ofIp pton6 ip portArg false) = .ok ip ∨
        (∀ addr, toIp ⟨inetNtop, inet6⟩ addr ≠ .ok ip) ∧
          ofIp pton6 ip portArg false = ofPort portArg false) := by
  refine ⟨ofIp_toIp h, fun ip portArg hcolon => ?_⟩
  rw [ofIp_of_notMem hcolon]
  refine ⟨networkToHost16_hostToNetwork16 portArg, ?_⟩
  cases hpton : inetPton ip with
  | some addr =>
    refine .inl ?_
    rw [fromIpPort, hpton, inetPton_eq_some.mp hpton]
    exact toIp_inet (by decide) addr _
  | none =>
    refine .inr ⟨fun addr htext => ?_, ?_⟩
    · obtain ⟨ip', htext', -⟩ := ofIp_toIp h addr
      cases addr with
      | inet addr port =>
        have hip : inetNtop addr = ip := Except.ok.inj ((toIp_inet (by decide) addr port).symm.trans htext)
        rw [← hip, inetPton_eq_some.mpr rfl] at hpton
        cases hpton
      | inet6 addr port =>
        have hip : inet6 addr = ip := Except.ok.inj ((toIp_inet6 h (by decide) addr port).symm.trans htext)
        exact hcolon (hip ▸ h.colon addr)
    · rw [fromIpPort, hpton]
      exact congrArg (SockAddr.inet · (hostToNetwork16 portArg)) (by decide)

/-- The addresses that a server listens on by default. -/
example : toIpPort ⟨inetNtop, fun _ => []⟩ (ofPort 2007 true) = .ok "127.0.0.1:2007".toList := by decide

/-- Different addresses have different texts with their ports. -/
theorem toIpPort_inj (h : Ntop6 inet6 pton6) {addr addr' : SockAddr}
    (heq : toIpPort ⟨inetNtop, inet6⟩ addr = toIpPort ⟨inetNtop, inet6⟩ addr') : addr = addr' := by
  have hdigits : ∀ port : BitVec 16, ':' ∉ formatUnsigned (networkToHost16 port).toNat :=
    fun port => notMem_formatUnsigned (by decide) _
  have hport : ∀ port port' : BitVec 16, formatUnsigned (networkToHost16 port).toNat =
      formatUnsigned (networkToHost16 port').toNat → port = port' := fun port port' htext =>
    networkToHost16_injective (BitVec.eq_of_toNat_eq (formatUnsigned_injective htext))
  -- an IPv4 text does not begin with a bracket
  have hbracket : ∀ (ip : BitVec 32) (tail tail' : Text), inetNtop ip ++ tail ≠ '[' :: tail' := by
    intro ip tail tail' htext
    have hnot : '[' ∉ inetNtop ip := by
      have hdigits : ∀ n, '[' ∉ formatUnsigned n := notMem_formatUnsigned (by decide)
      simp [inetNtop, dotted, hdigits]
    cases hip : inetNtop ip with
    | nil => simp [inetNtop, dotted] at hip
    | cons ch rest =>
      rw [hip] at htext hnot
      exact hnot ((List.cons.inj htext).1 ▸ List.mem_cons_self)
  unfold toIpPort at heq
  cases addr with
  | inet ip port =>
    rw [toIpPort_inet (by decide)] at heq
    cases addr' with
    | inet ip' port' =>
      rw [toIpPort_inet (by decide)] at heq
      obtain ⟨hip, htext⟩ := append_cons_inj (hdigits port) (hdigits port') (Except.ok.inj heq)
      rw [inetNtop_injective hip, hport port port' htext]
    | inet6 ip' port' =>
      rw [toIpPort_inet6 h (by decide)] at heq
      exact absurd (Except.ok.inj heq) (hbracket ip _ _)
  | inet6 ip port =>
    rw [toIpPort_inet6 h (by decide)] at heq
    cases addr' with
    | inet ip' port' =>
      rw [toIpPort_inet (by decide)] at heq
      exact absurd (Except.ok.inj heq).symm (hbracket ip' _ _)
    | inet6 ip' port' =>
      rw [toIpPort_inet6 h (by decide)] at heq
      have hnot : ∀ port : BitVec 16, ']' ∉ ':' :: formatUnsigned (networkToHost16 port).toNat := by
        intro port
        have hdigits : ']' ∉ formatUnsigned (networkToHost16 port).toNat := notMem_formatUnsigned (by decide) _
        simp [hdigits]
      obtain ⟨hip, htext⟩ := append_cons_inj (hnot port) (hnot port') (List.cons.inj (Except.ok.inj heq)).2
      rw [h.injective hip, hport port port' (List.cons.inj htext).2]

/-- **The text identifies the address**: the text with the port fits into the buffer, different addresses have
different texts, and `isSelfConnect` says of a socket whose ends are of one family whether both have the same. -/
theorem self_connect_iff (h : Ntop6 inet6 pton6) :
    (∀ addr, ∃ text, toIpPort ⟨inetNtop, inet6⟩ addr = .ok text ∧ text.length < 64) ∧
    (∀ addr addr', toIpPort ⟨inetNtop, inet6⟩ addr = toIpPort ⟨inetNtop, inet6⟩ addr' → addr = addr') ∧
    ∀ localaddr peeraddr flowinfo flowinfo',
      (SockAddr.toIn6 flowinfo localaddr).sin6_family = (SockAddr.toIn6 flowinfo' peeraddr).sin6_family →
      (isSelfConnect (localaddr.toIn6 flowinfo) (peeraddr.toIn6 flowinfo') = true ↔
        toIpPort ⟨inetNtop, inet6⟩ localaddr = toIpPort ⟨inetNtop, inet6⟩ peeraddr) := by
  refine ⟨fun addr => ?_, fun addr addr' => toIpPort_inj h, ?_⟩
  · cases addr with
    | inet ip port =>
      have hip : (inetNtop ip).length < 16 := length_inetNtop_lt ip
      have hport := length_port_le (networkToHost16 port)
      refine ⟨_, toIpPort_inet (by decide) ip port, ?_⟩
      rw [List.length_append, List.length_cons]
      omega
    | inet6 ip port =>
      have hip : (inet6 ip).length < 46 := h.length ip
      have hport := length_port_le (networkToHost16 port)
      refine ⟨_, toIpPort_inet6 h (by decide) ip port, ?_⟩
      rw [List.length_append, List.length_cons, List.length_cons, List.length_cons]
      omega
  · intro localaddr peeraddr flowinfo flowinfo' hfamily
    rw [isSelfConnect_iff hfamily]
    constructor
    · rintro rfl
      rfl
    · exact toIpPort_inj h

/-! ### IPv6 texts without a short form -/

/-- The last `k` hexadecimal digits of `n`, with a colon after every fourth: what `inet_ntop` writes of an IPv6
address in which no group begins with a zero. -/
def hexText : Nat → Nat → Text
  | 0, _ => []
  | k + 1, n => hexText k (n / 16) ++ (if k % 4 = 0 ∧ k ≠ 0 then [':'] else []) ++ [(n % 16).digitChar]

def hexValue (ch : Char) : Nat := if ch.isDigit then ch.toNat - '0'.toNat else ch.toNat - 'a'.toNat + 10

/-- The number of such a text. -/
def readHex (text : Text) : Nat := text.foldl (fun value ch => if ch = ':' then value else value * 16 + hexValue ch) 0

theorem hexValue_digitChar {d : Nat} (h : d < 16) : hexValue d.digitChar = d := by
  interval_cases d <;> rfl

theorem readHex_hexText (k n : Nat) : readHex (hexText k n) = n % 16 ^ k := by
  induction k generalizing n with
  | zero => simp [hexText, readHex, Nat.mod_one]
  | succ k ih =>
    have hdigit : (n % 16).digitChar ≠ ':' := Nat.digitChar_ne ':' (by decide)
    have hvalue := hexValue_digitChar (Nat.mod_lt n (by decide : 0 < 16))
    have hgroup : readHex (hexText k (n / 16) ++ if k % 4 = 0 ∧ k ≠ 0 then [':'] else []) = n / 16 % 16 ^ k := by
      rw [← ih]
      split
      · simp [readHex]
      · rw [List.append_nil]
    rw [hexText, readHex, List.foldl_append]
    show (if (n % 16).digitChar = ':' then _ else readHex _ * 16 + hexValue (n % 16).digitChar) = _
    rw [if_neg hdigit, hvalue, hgroup, Nat.pow_succ', Nat.mod_mul]
    omega

/-- A reading that is its own inverse. -/
theorem ntop6_hexText :
    Ntop6 (fun addr => hexText 32 addr.toNat) (fun text => some (BitVec.ofNat 128 (readHex text))) where
  length addr := by simp [hexText, INET6_ADDRSTRLEN]
  colon addr := by simp [hexText]
  back addr := by
    rw [readHex_hexText]
    refine congrArg some (BitVec.eq_of_toNat_eq ?_)
    have hlt := addr.isLt
    rw [BitVec.toNat_ofNat]
    omega

/-- `[2001:1db8:1111:2222:3333:4444:5555:6666]` and `127.0.0.1` on port 80. -/
theorem two_texts_round_trip :
    let addr := SockAddr.inet6 0x20011db8111122223333444455556666 (hostToNetwork16 80)
    (∃ ip, toIp ⟨inetNtop, fun addr => hexText 32 addr.toNat⟩ addr = .ok ip ∧
      ofIp (fun text => some (BitVec.ofNat 128 (readHex text))) ip (port addr) false = addr) ∧
    port (ofIp (fun text => some (BitVec.ofNat 128 (readHex text))) "127.0.0.1".toList 80 false) = 80 := by
  intro addr
  obtain ⟨hback, htext⟩ := text_round_trip ntop6_hexText
  exact ⟨hback addr, (htext "127.0.0.1".toList 80 (by decide)).1⟩

theorem two_ends_distinct :
    let localaddr := SockAddr.inet6 0x20011db8111122223333444455556666 (hostToNetwork16 80)
    let peeraddr := SockAddr.inet6 0x20011db8111122223333444455556666 (hostToNetwork16 81)
    toIpPort ⟨inetNtop, fun addr => hexText 32 addr.toNat⟩ localaddr ≠
      toIpPort ⟨inetNtop, fun addr => hexText 32 addr.toNat⟩ peeraddr := by
  intro localaddr peeraddr htext
  have hself := ((self_connect_iff ntop6_hexText).2.2 localaddr peeraddr 0 0 rfl).mpr htext
  revert hself
  decide

end InetAddress

end Siren
