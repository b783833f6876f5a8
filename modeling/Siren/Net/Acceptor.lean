import Siren.Base.Types
import Siren.Lib.Descriptors
import Siren.Lib.Machine

/-!
# `Acceptor`

`Acceptor::handleRead` with the table of descriptors of the process and the kernel's queue of connections. A process
that has no descriptor left cannot accept, and the poller would report the listening socket for ever; the acceptor
keeps `/dev/null` open under `idleFd_`, gives that descriptor up to accept the connection, closes it, and opens
`/dev/null` again. A step is one system call; between two of them other threads open and close descriptors of theirs.

* `Inv`: which descriptors are the acceptor's before each of its system calls.
* `acceptor_owns`: it closes no descriptor but its own and those it accepted, and every connection it accepted is
  handed over or closed, once.
* `reserve_kept_iff`: it has its descriptor in reserve after each `handleRead` of a run exactly when no `open` failed.
* `backlog_drains`: from wherever it has, its system calls alone empty the queue.
-/

namespace Siren

namespace Accepting

/-- What is open under a descriptor, with its owner. -/
inductive File (γ : Type*) where
  | acceptSocket
  /-- `/dev/null`, opened for `idleFd_`. -/
  | idle
  /-- A connection that was accepted and not handed over. -/
  | held (c : γ)
  /-- A connection that was passed to `newConnectionCallback_`. -/
  | handed (c : γ)
  | other

/-- The system calls of `handleRead`; `accept` is its first. -/
inductive Call where
  | accept
  /-- `sockets::close(connfd)` -/
  | closeConnection (connfd : Nat)
  /-- `::close(idleFd_)` -/
  | closeIdle
  /-- `idleFd_ = ::accept(...)` -/
  | acceptIdle
  /-- `::close(idleFd_)` again -/
  | closeAccepted
  /-- `idleFd_ = ::open("/dev/null", ...)` -/
  | openIdle

/-- The connection under a descriptor that is not handed over. -/
def File.connection {γ : Type*} : Option (File γ) → List γ
  | some (.held c) => [c]
  | _ => []

@[simp] theorem File.connection_file_neg_one {γ : Type*} (d : Descriptors (File γ)) :
    connection (d.file (-1)) = [] := rfl

end Accepting

structure Accepting (γ : Type*) where
  descriptors : Descriptors (Accepting.File γ)
  /-- The connections that wait in the kernel. -/
  backlog : List γ
  /-- Whether `newConnectionCallback_` is set. -/
  callback : Bool
  idleFd : Int
  /-- The next system call of `handleRead`. -/
  next : Accepting.Call
  /-- History: the connections that came, and those accepted, passed to the callback and closed. -/
  arrived : List γ
  accepted : List γ
  handedOver : List γ
  closed : List γ
  /-- History: what each `close` found under its descriptor. -/
  closes : List (Option (Accepting.File γ))

namespace Accepting

variable {γ : Type*}

/-- `Acceptor(...)` in a process with these descriptors, when the socket and `/dev/null` are opened. -/
def new (inUse : Nat → Bool) (limit : Nat) (callback : Bool) : Option (Accepting γ) := do
  let descriptors : Descriptors (File γ) := ⟨fun n => if inUse n then some .other else none, limit⟩
  let (_, descriptors) ← descriptors.alloc .acceptSocket
  let (idleFd, descriptors) ← descriptors.alloc .idle
  return ⟨descriptors, [], callback, idleFd, .accept, [], [], [], [], []⟩

variable (s : Accepting γ)

/-- `accept(2)` on the listening socket: the connection and its descriptor, or `errno`. It needs a descriptor before
it looks for a connection. -/
def acceptCall (file : γ → File γ) (refused : Option Nat) : Except Nat (γ × Nat × Accepting γ) :=
  match refused with
  | some errno => .error errno
  | none =>
    match s.descriptors.lowest, s.backlog with
    | none, _ => .error EMFILE
    | some _, [] => .error EAGAIN
    | some fd, c :: backlog =>
      let descriptors := s.descriptors.set fd (some (file c))
      .ok (c, fd, { s with descriptors, backlog, accepted := s.accepted ++ [c] })

/-- `close(2)` -/
def closeCall (fd : Int) : Accepting γ :=
  { s with
    descriptors := s.descriptors.close fd
    closed := s.closed ++ File.connection (s.descriptors.file fd)
    closes := s.closes ++ [s.descriptors.file fd] }

/-- The next system call of `handleRead` and what follows up to the one after. `refused` is an `errno` with which
the kernel fails it for reasons of its own, `logged` what the log calls after a failed `accept` leave in `errno`
when they change it. -/
def call (refused logged : Option Nat) : Accepting γ :=
  match s.next with
  | .accept =>
    if s.callback then
      match s.acceptCall .handed refused with
      | .ok (c, _, s) => { s with handedOver := s.handedOver ++ [c] }
      | .error errno => if logged.getD errno = EMFILE then { s with next := .closeIdle } else s
    else
      match s.acceptCall .held refused with
      | .ok (_, connfd, s) => { s with next := .closeConnection connfd }
      | .error errno => if logged.getD errno = EMFILE then { s with next := .closeIdle } else s
  | .closeConnection connfd => { s.closeCall connfd with next := .accept }
  | .closeIdle => { s.closeCall s.idleFd with next := .acceptIdle }
  | .acceptIdle =>
    match s.acceptCall .held refused with
    | .ok (_, fd, s) => { s with idleFd := fd, next := .closeAccepted }
    | .error _ => { s with idleFd := -1, next := .closeAccepted }
  | .closeAccepted => { s.closeCall s.idleFd with next := .openIdle }
  | .openIdle =>
    match if refused = none then s.descriptors.alloc .idle else none with
    | some (fd, descriptors) => { s with descriptors, idleFd := fd, next := .accept }
    | none => { s with idleFd := -1, next := .accept }

inductive Label (γ : Type*) where
  | call (refused logged : Option Nat)
  /-- A connection comes. -/
  | arrive (c : γ)
  /-- Another thread opens a file. -/
  | openOther
  /-- Another thread closes a descriptor of its own. -/
  | closeOther (fd : Nat)

/-- A descriptor of other parts of the program, accepted connections included. -/
def File.isForeign : File γ → Bool
  | .handed _ => true
  | .other => true
  | _ => false

def step (s : Accepting γ) : Label γ → Option (Accepting γ)
  | .call refused logged => some (s.call refused logged)
  | .arrive c => some { s with backlog := s.backlog ++ [c], arrived := s.arrived ++ [c] }
  | .openOther => (s.descriptors.alloc .other).map fun r => { s with descriptors := r.2 }
  | .closeOther fd =>
    if (s.descriptors.slot fd).any File.isForeign then some { s with descriptors := s.descriptors.set fd none }
    else none

def acceptors (γ : Type*) : Machine (Accepting γ) (Label γ) := ⟨step⟩

/-! ### The descriptors of the acceptor -/

/-- `/dev/null` is open under `idle` alone, and a connection that is not handed over under `held` alone; a negative
number stands for none. -/
structure Owned (d : Descriptors (File γ)) (idle held : Int) : Prop where
  idle : ∀ n, d.slot n = some .idle ↔ idle = n
  held : ∀ n, (∃ c, d.slot n = some (.held c)) ↔ held = n

namespace Owned

variable {d : Descriptors (File γ)} {idle held : Int} {n : Nat} {file : Option (File γ)}

/-- A slot that is neither changes to another that is neither. -/
theorem set (h : Owned d idle held) (hidle : d.slot n ≠ some .idle) (hheld : ∀ c, d.slot n ≠ some (.held c))
    (hidle' : file ≠ some .idle) (hheld' : ∀ c, file ≠ some (.held c)) : Owned (d.set n file) idle held where
  idle m := by
    by_cases hm : m = n
    · subst hm
      rw [Descriptors.slot_set_self, ← h.idle m]
      exact ⟨fun heq => absurd heq hidle', fun heq => absurd heq hidle⟩
    · rw [Descriptors.slot_set_of_ne hm]
      exact h.idle m
  held m := by
    by_cases hm : m = n
    · subst hm
      rw [Descriptors.slot_set_self, ← h.held m]
      exact ⟨fun ⟨c, hc⟩ => absurd hc (hheld' c), fun ⟨c, hc⟩ => absurd hc (hheld c)⟩
    · rw [Descriptors.slot_set_of_ne hm]
      exact h.held m

theorem set_idle (h : Owned d (-1) held) (hfree : d.slot n = none) : Owned (d.set n (some .idle)) n held where
  idle m := by
    by_cases hm : m = n
    · subst hm
      simp
    · rw [Descriptors.slot_set_of_ne hm, h.idle m]
      omega
  held m := by
    by_cases hm : m = n
    · subst hm
      rw [Descriptors.slot_set_self, ← h.held m, hfree]
      simp
    · rw [Descriptors.slot_set_of_ne hm]
      exact h.held m

theorem set_held (h : Owned d idle (-1)) (hfree : d.slot n = none) (c : γ) :
    Owned (d.set n (some (.held c))) idle n where
  idle m := by
    by_cases hm : m = n
    · subst hm
      rw [Descriptors.slot_set_self, ← h.idle m, hfree]
      simp
    · rw [Descriptors.slot_set_of_ne hm]
      exact h.idle m
  held m := by
    by_cases hm : m = n
    · subst hm
      simp
    · rw [Descriptors.slot_set_of_ne hm, h.held m]
      omega

theorem ne (h : Owned d n held) : held ≠ n := fun heq => by
  obtain ⟨c, hc⟩ := (h.held n).mpr heq
  cases hc.symm.trans ((h.idle n).mpr rfl)

theorem close_idle (h : Owned d idle held) : Owned (d.close idle) (-1) held := by
  cases idle with
  | negSucc n =>
    refine ⟨fun m => (h.idle m).trans ?_, h.held⟩
    omega
  | ofNat n =>
    refine ⟨fun m => ?_, fun m => ?_⟩
    · by_cases hm : m = n
      · subst hm
        rw [Descriptors.close, Descriptors.slot_set_self]
        exact ⟨fun heq => (by cases heq), fun heq => by omega⟩
      · rw [Descriptors.close, Descriptors.slot_set_of_ne hm, h.idle m]
        exact ⟨fun heq => absurd (Int.ofNat.inj heq).symm hm, fun heq => by omega⟩
    · by_cases hm : m = n
      · subst hm
        rw [Descriptors.close, Descriptors.slot_set_self]
        exact ⟨fun ⟨c, hc⟩ => (by cases hc), fun heq => absurd heq h.ne⟩
      · rw [Descriptors.close, Descriptors.slot_set_of_ne hm]
        exact h.held m

theorem close_held (h : Owned d idle held) : Owned (d.close held) idle (-1) := by
  cases held with
  | negSucc n =>
    refine ⟨h.idle, fun m => (h.held m).trans ?_⟩
    omega
  | ofNat n =>
    refine ⟨fun m => ?_, fun m => ?_⟩
    · by_cases hm : m = n
      · subst hm
        rw [Descriptors.close, Descriptors.slot_set_self]
        refine ⟨fun heq => (by cases heq), fun heq => ?_⟩
        subst heq
        exact absurd rfl h.ne
      · rw [Descriptors.close, Descriptors.slot_set_of_ne hm]
        exact h.idle m
    · by_cases hm : m = n
      · subst hm
        rw [Descriptors.close, Descriptors.slot_set_self]
        exact ⟨fun ⟨c, hc⟩ => (by cases hc), fun heq => by omega⟩
      · rw [Descriptors.close, Descriptors.slot_set_of_ne hm, h.held m]
        exact ⟨fun heq => absurd (Int.ofNat.inj heq).symm hm, fun heq => by omega⟩

theorem file_idle (h : Owned d idle held) : d.file idle = none ∨ d.file idle = some .idle := by
  cases idle with
  | negSucc n => exact .inl rfl
  | ofNat n => exact .inr ((h.idle n).mpr rfl)

theorem file_held (h : Owned d idle held) : d.file held = none ∨ ∃ c, d.file held = some (.held c) := by
  cases held with
  | negSucc n => exact .inl rfl
  | ofNat n => exact .inr ((h.held n).mpr rfl)

end Owned

/-! ### One system call -/

variable {s t : Accepting γ} {a : Label γ} {refused logged : Option Nat}

theorem acceptCall_ok {file : γ → File γ} {c : γ} {fd : Nat} (h : s.acceptCall file refused = .ok (c, fd, t)) :
    ∃ backlog, s.backlog = c :: backlog ∧ fd < s.descriptors.limit ∧ s.descriptors.slot fd = none ∧
      t = { s with
        descriptors := s.descriptors.set fd (some (file c)), backlog, accepted := s.accepted ++ [c] } := by
  unfold acceptCall at h
  split at h
  · cases h
  · split at h
    · cases h
    · cases h
    · rename_i fd' c' backlog hlowest hbacklog
      obtain ⟨rfl, heq⟩ := Prod.mk.inj (Except.ok.inj h)
      obtain ⟨rfl, rfl⟩ := Prod.mk.inj heq
      obtain ⟨hlt, hfree⟩ := Descriptors.of_lowest hlowest
      exact ⟨backlog, hbacklog, hlt, hfree, rfl⟩

/-- What a system call of `handleRead` does. -/
inductive Does (s : Accepting γ) : Accepting γ → Prop where
  | retry (hnext : s.next = .accept) : Does s s
  | full (hnext : s.next = .accept) : Does s { s with next := .closeIdle }
  | handOver {c : γ} {fd : Nat} {backlog : List γ} (hnext : s.next = .accept) (hbacklog : s.backlog = c :: backlog)
      (hlt : fd < s.descriptors.limit) (hfree : s.descriptors.slot fd = none) :
    Does s { s with
      descriptors := s.descriptors.set fd (some (.handed c)), backlog, accepted := s.accepted ++ [c],
      handedOver := s.handedOver ++ [c] }
  | hold {c : γ} {fd : Nat} {backlog : List γ} (hnext : s.next = .accept) (hbacklog : s.backlog = c :: backlog)
      (hlt : fd < s.descriptors.limit) (hfree : s.descriptors.slot fd = none) :
    Does s { s with
      descriptors := s.descriptors.set fd (some (.held c)), backlog, accepted := s.accepted ++ [c],
      next := .closeConnection fd }
  | closeConnection {connfd : Nat} (hnext : s.next = .closeConnection connfd) :
    Does s { s.closeCall connfd with next := .accept }
  | closeIdle (hnext : s.next = .closeIdle) : Does s { s.closeCall s.idleFd with next := .acceptIdle }
  | acceptIdle {c : γ} {fd : Nat} {backlog : List γ} (hnext : s.next = .acceptIdle)
      (hbacklog : s.backlog = c :: backlog) (hlt : fd < s.descriptors.limit)
      (hfree : s.descriptors.slot fd = none) :
    Does s { s with
      descriptors := s.descriptors.set fd (some (.held c)), backlog, accepted := s.accepted ++ [c],
      idleFd := fd, next := .closeAccepted }
  | acceptNone (hnext : s.next = .acceptIdle) : Does s { s with idleFd := -1, next := .closeAccepted }
  | closeAccepted (hnext : s.next = .closeAccepted) : Does s { s.closeCall s.idleFd with next := .openIdle }
  | openIdle {fd : Nat} (hnext : s.next = .openIdle) (hlt : fd < s.descriptors.limit)
      (hfree : s.descriptors.slot fd = none) :
    Does s { s with descriptors := s.descriptors.set fd (some .idle), idleFd := fd, next := .accept }
  | openFailed (hnext : s.next = .openIdle) :
    Does s { s with idleFd := -1, next := .accept }

theorem call_does (s : Accepting γ) (refused logged : Option Nat) : Does s (s.call refused logged) := by
  unfold call
  split
  · rename_i hnext
    split
    · split
      · rename_i c fd t haccept
        obtain ⟨backlog, hbacklog, hlt, hfree, rfl⟩ := acceptCall_ok haccept
        exact .handOver hnext hbacklog hlt hfree
      · split
        · exact .full hnext
        · exact .retry hnext
    · split
      · rename_i c fd t haccept
        obtain ⟨backlog, hbacklog, hlt, hfree, rfl⟩ := acceptCall_ok haccept
        exact .hold hnext hbacklog hlt hfree
      · split
        · exact .full hnext
        · exact .retry hnext
  · exact .closeConnection ‹_›
  · exact .closeIdle ‹_›
  · rename_i hnext
    split
    · rename_i c fd t haccept
      obtain ⟨backlog, hbacklog, hlt, hfree, rfl⟩ := acceptCall_ok haccept
      exact .acceptIdle hnext hbacklog hlt hfree
    · exact .acceptNone hnext
  · exact .closeAccepted ‹_›
  · rename_i hnext
    split
    · rename_i fd descriptors hopen
      split at hopen
      · obtain ⟨hlt, hfree, rfl⟩ := Descriptors.of_alloc hopen
        exact .openIdle hnext hlt hfree
      · cases hopen
    · exact .openFailed hnext

/-! ### The invariant -/

/-- The descriptor of `/dev/null`, if it is open. -/
def reserve (s : Accepting γ) : Int :=
  match s.next with
  | .accept => s.idleFd
  | .closeConnection _ => s.idleFd
  | .closeIdle => s.idleFd
  | _ => -1

/-- The descriptor of a connection that was accepted and not handed over, if there is one. -/
def inHand (s : Accepting γ) : Int :=
  match s.next with
  | .closeConnection connfd => connfd
  | .closeAccepted => s.idleFd
  | _ => -1

structure Inv (s : Accepting γ) : Prop where
  owned : Owned s.descriptors s.reserve s.inHand
  inside : ∀ n : Nat, s.idleFd = n → n < s.descriptors.limit
  closes : ∀ file ∈ s.closes, file = none ∨ file = some .idle ∨ ∃ c, file = some (.held c)
  arrived : s.arrived = s.accepted ++ s.backlog
  accepted : s.accepted.Perm (s.handedOver ++ s.closed ++ File.connection (s.descriptors.file s.inHand))

namespace Inv

/-- Before a known call. -/
theorem owned_at (h : Inv s) {next : Call} (hnext : s.next = next) :
    Owned s.descriptors (reserve { s with next }) (inHand { s with next }) := by
  subst hnext
  exact h.owned

/-- Before a call with no connection in hand. -/
theorem accepted_at (h : Inv s) {next : Call} (hnext : s.next = next) (hheld : inHand { s with next } = -1) :
    s.accepted.Perm (s.handedOver ++ s.closed) := by
  subst hnext
  have haccepted := h.accepted
  rwa [show s.inHand = -1 from hheld, File.connection_file_neg_one, List.append_nil] at haccepted

theorem closes_concat (h : Inv s) {file : Option (File γ)}
    (hfile : file = none ∨ file = some .idle ∨ ∃ c, file = some (.held c)) :
    ∀ f ∈ s.closes ++ [file], f = none ∨ f = some .idle ∨ ∃ c, f = some (.held c) := by
  intro f hf
  rcases List.mem_append.mp hf with hf | hf
  · exact h.closes f hf
  · exact List.mem_singleton.mp hf ▸ hfile

theorem does (h : Inv s) (hdoes : Does s t) : Inv t := by
  cases hdoes with
  | retry hnext => exact h
  | full hnext =>
    have howned : Owned s.descriptors s.idleFd (-1) := h.owned_at hnext
    refine ⟨howned, h.inside, h.closes, h.arrived, ?_⟩
    exact (h.accepted_at hnext rfl).trans (by simp [inHand])
  | @handOver c fd backlog hnext hbacklog hlt hfree =>
    have howned : Owned s.descriptors s.idleFd (-1) := h.owned_at hnext
    refine ⟨?_, h.inside, h.closes, by simp [h.arrived, hbacklog], ?_⟩
    · simp only [reserve, inHand, hnext]
      exact howned.set (by simp [hfree]) (by simp [hfree]) (by simp) (by simp)
    · have hperm := h.accepted_at hnext rfl
      simp only [inHand, hnext, File.connection_file_neg_one, List.append_nil]
      refine (hperm.append_right [c]).trans ?_
      rw [List.append_assoc, List.append_assoc]
      exact List.perm_append_comm.append_left _
  | @hold c fd backlog hnext hbacklog hlt hfree =>
    have howned : Owned s.descriptors s.idleFd (-1) := h.owned_at hnext
    refine ⟨?_, h.inside, h.closes, by simp [h.arrived, hbacklog], ?_⟩
    · simp only [reserve, inHand]
      exact howned.set_held hfree c
    · have hperm := h.accepted_at hnext rfl
      simp only [inHand, Descriptors.file, Descriptors.slot_set_self, File.connection]
      exact hperm.append_right [c]
  | @closeConnection connfd hnext =>
    have howned : Owned s.descriptors s.idleFd connfd := h.owned_at hnext
    refine ⟨?_, ?_, h.closes_concat ?_, h.arrived, ?_⟩
    · simp only [reserve, inHand]
      exact howned.close_held
    · simpa [closeCall] using h.inside
    · exact howned.file_held.imp_right .inr
    · have haccepted := h.accepted
      simp only [inHand, hnext] at haccepted
      simpa [closeCall, inHand] using haccepted
  | closeIdle hnext =>
    have howned : Owned s.descriptors s.idleFd (-1) := h.owned_at hnext
    refine ⟨?_, ?_, h.closes_concat ?_, h.arrived, ?_⟩
    · simp only [reserve, inHand]
      exact howned.close_idle
    · simpa [closeCall] using h.inside
    · exact howned.file_idle.imp_right .inl
    · have hnone : File.connection (s.descriptors.file s.idleFd) = [] := by
        rcases howned.file_idle with hfile | hfile <;> rw [hfile] <;> rfl
      simpa [closeCall, hnone, inHand] using h.accepted_at hnext rfl
  | @acceptIdle c fd backlog hnext hbacklog hlt hfree =>
    have howned : Owned s.descriptors (-1) (-1) := h.owned_at hnext
    refine ⟨?_, fun n hn => ?_, h.closes, by simp [h.arrived, hbacklog], ?_⟩
    · simp only [reserve, inHand]
      exact howned.set_held hfree c
    · exact Int.ofNat.inj hn ▸ hlt
    · have hperm := h.accepted_at hnext rfl
      simp only [inHand, Descriptors.file, Descriptors.slot_set_self, File.connection]
      exact hperm.append_right [c]
  | acceptNone hnext =>
    have howned : Owned s.descriptors (-1) (-1) := h.owned_at hnext
    refine ⟨?_, fun n hn => (by cases hn), h.closes, h.arrived, ?_⟩
    · simp only [reserve, inHand]
      exact howned
    · simpa [inHand] using h.accepted_at hnext rfl
  | closeAccepted hnext =>
    have howned : Owned s.descriptors (-1) s.idleFd := h.owned_at hnext
    refine ⟨?_, ?_, h.closes_concat ?_, h.arrived, ?_⟩
    · simp only [reserve, inHand]
      exact howned.close_held
    · simpa [closeCall] using h.inside
    · exact howned.file_held.imp_right .inr
    · have haccepted := h.accepted
      simp only [inHand, hnext] at haccepted
      simpa [closeCall, inHand] using haccepted
  | @openIdle fd hnext hlt hfree =>
    have howned : Owned s.descriptors (-1) (-1) := h.owned_at hnext
    refine ⟨?_, fun n hn => ?_, h.closes, h.arrived, ?_⟩
    · simp only [reserve, inHand]
      exact howned.set_idle hfree
    · exact Int.ofNat.inj hn ▸ hlt
    · simpa [inHand] using h.accepted_at hnext rfl
  | openFailed hnext =>
    have howned : Owned s.descriptors (-1) (-1) := h.owned_at hnext
    refine ⟨?_, fun n hn => (by cases hn), h.closes, h.arrived, ?_⟩
    · simp only [reserve, inHand]
      exact howned
    · simpa [inHand] using h.accepted_at hnext rfl

/-- A change of a slot that is not the acceptor's, to a file that is not. -/
theorem set (h : Inv s) {n : Nat} {file : Option (File γ)} (hold : ∀ f ∈ s.descriptors.slot n, f.isForeign = true)
    (hnew : ∀ f ∈ file, f.isForeign = true) : Inv { s with descriptors := s.descriptors.set n file } := by
  have hidle : ∀ f : Option (File γ), (∀ g ∈ f, g.isForeign = true) → f ≠ some .idle := by
    rintro _ hf rfl
    cases hf _ rfl
  have hheld : ∀ f : Option (File γ), (∀ g ∈ f, g.isForeign = true) → ∀ c, f ≠ some (.held c) := by
    rintro _ hf c rfl
    cases hf _ rfl
  refine ⟨h.owned.set (hidle _ hold) (hheld _ hold) (hidle _ hnew) (hheld _ hnew), h.inside, h.closes,
    h.arrived, ?_⟩
  have hsame : (s.descriptors.set n file).file s.inHand = s.descriptors.file s.inHand := by
    rcases hfd : s.inHand with m | m
    · refine Descriptors.slot_set_of_ne (fun hm => ?_) file
      obtain ⟨c, hc⟩ := (h.owned.held m).mpr hfd
      exact hheld _ hold c (hm ▸ hc)
    · rfl
  show s.accepted.Perm (s.handedOver ++ s.closed ++ File.connection ((s.descriptors.set n file).file s.inHand))
  rw [hsame]
  exact h.accepted

theorem step (h : Inv s) (hstep : s.step a = some t) : Inv t := by
  cases a with
  | call refused logged =>
    obtain rfl := Option.some.inj hstep
    exact h.does (call_does s refused logged)
  | arrive c =>
    obtain rfl := Option.some.inj hstep
    exact ⟨h.owned, h.inside, h.closes, by simp [h.arrived], h.accepted⟩
  | openOther =>
    obtain ⟨⟨n, d⟩, halloc, rfl⟩ := Option.map_eq_some_iff.mp hstep
    obtain ⟨-, hfree, rfl⟩ := Descriptors.of_alloc halloc
    exact h.set (by simp [hfree]) (by simp [File.isForeign])
  | closeOther fd =>
    obtain ⟨hforeign, hstep⟩ := Option.ite_none_right_eq_some.mp hstep
    obtain rfl := Option.some.inj hstep
    refine h.set (fun f hf => ?_) (by simp)
    rw [Option.mem_def.mp hf] at hforeign
    exact hforeign

end Inv

theorem new_inv {inUse : Nat → Bool} {limit : Nat} {callback : Bool}
    (hnew : new inUse limit callback = some s) :
    Inv s ∧ s.next = .accept ∧ 0 ≤ s.idleFd := by
  obtain ⟨⟨n, d⟩, hsocket, hnew⟩ := Option.bind_eq_some_iff.mp hnew
  obtain ⟨⟨m, e⟩, hidle, hnew⟩ := Option.bind_eq_some_iff.mp hnew
  obtain rfl := Option.some.inj hnew
  obtain ⟨-, hfree, rfl⟩ := Descriptors.of_alloc hsocket
  obtain ⟨hlt, hfree', rfl⟩ := Descriptors.of_alloc hidle
  have hnone : Owned (⟨fun n => if inUse n then some (.other : File γ) else none, limit⟩ : Descriptors (File γ))
      (-1) (-1) := by
    refine ⟨fun n => ?_, fun n => ?_⟩ <;> cases hn : inUse n <;> simp [hn]
  have howned := (hnone.set (by cases inUse n <;> simp) (by cases inUse n <;> simp) (by simp) (by simp)).set_idle hfree'
  refine ⟨⟨howned, fun k hk => ?_, by simp, rfl, ?_⟩, rfl, Int.natCast_nonneg m⟩
  · exact Int.ofNat.inj hk ▸ hlt
  · simp [inHand]

/-- **What the acceptor owns**: in every run, whatever fails and whatever other threads open and close between its
system calls, `handleRead` closes no descriptor but its own of `/dev/null` and those of connections that it accepted
and did not hand over. The connections that came are those it accepted, in order, and those that wait; and between
two calls of `handleRead` each one accepted was either handed over or closed, `/dev/null` is open under `idleFd_`
alone, and no connection is left open in the acceptor's hands. -/
theorem acceptor_owns {inUse : Nat → Bool} {limit : Nat} {callback : Bool} {s : Accepting γ}
    (hnew : new inUse limit callback = some s) (as : List (Label γ)) :
    (acceptors γ).Always (fun t =>
      (∀ file ∈ t.closes, file = none ∨ file = some .idle ∨ ∃ c, file = some (.held c)) ∧
        t.arrived = t.accepted ++ t.backlog ∧
          (t.next = .accept → t.accepted.Perm (t.handedOver ++ t.closed) ∧
            ∀ n, (t.descriptors.slot n = some .idle ↔ t.idleFd = n) ∧
              ∀ c, t.descriptors.slot n ≠ some (.held c)))
      s as := by
  have hinv : (acceptors γ).Always Inv s as :=
    Machine.Always.of_step (new_inv hnew).1 fun _ _ _ h hstep => Inv.step h hstep
  refine hinv.mono fun t h => ⟨h.closes, h.arrived, fun hnext => ?_⟩
  have howned : Owned t.descriptors t.idleFd (-1) := h.owned_at hnext
  refine ⟨h.accepted_at hnext rfl, fun n => ⟨howned.idle n, fun c hc => ?_⟩⟩
  have hn := (howned.held n).mp ⟨c, hc⟩
  omega

/-- A connection that comes to a process with two descriptors is accepted and closed. -/
theorem two_descriptors_owned : ∃ s t : Accepting Nat, new (fun _ => false) 2 true = some s ∧
    (acceptors Nat).run s (.arrive 7 :: List.replicate 5 (.call none none)) = some t ∧ t.closed = [7] ∧
      t.accepted.Perm (t.handedOver ++ t.closed) := by
  obtain ⟨s, hnew⟩ : ∃ s : Accepting Nat, new (fun _ => false) 2 true = some s := ⟨_, rfl⟩
  obtain ⟨t, hrun⟩ : ∃ t, ((new (fun _ => false) 2 true).bind fun s : Accepting Nat =>
      (acceptors Nat).run s (.arrive 7 :: List.replicate 5 (.call none none))) = some t := ⟨_, rfl⟩
  have hend : t.next = .accept ∧ t.closed = [7] := by
    obtain rfl := Option.some.inj hrun
    exact ⟨rfl, rfl⟩
  rw [hnew, Option.bind_some] at hrun
  exact ⟨s, t, hnew, hrun, hend.2, (((acceptor_owns hnew _).last hrun).2.2 hend.1).1⟩

/-! ### The descriptor in reserve -/

/-- An `open` of `/dev/null` finds a free descriptor and is not refused. -/
def OpenSucceeds (s : Accepting γ) : Label γ → Prop
  | .call refused _ => s.next = .openIdle → refused = none ∧ ¬ s.descriptors.Full
  | _ => True

/-- Where the descriptor in reserve is given up. -/
def Call.givenUp : Call → Prop
  | .acceptIdle => True
  | .closeAccepted => True
  | .openIdle => True
  | _ => False

/-- No other thread opens a descriptor while it is given up, and the `open` is not refused. -/
def Undisturbed (s : Accepting γ) : Label γ → Prop
  | .call refused _ => s.next = .openIdle → refused = none
  | .openOther => ¬ s.next.givenUp
  | _ => True

/-- The descriptor is there unless it is given up. -/
def Reserved (s : Accepting γ) : Prop := ¬ s.next.givenUp → 0 ≤ s.idleFd

theorem call_openIdle (hnext : s.next = .openIdle) (refused logged : Option Nat) :
    (s.call refused logged).next = .accept ∧
      (0 ≤ (s.call refused logged).idleFd ↔ refused = none ∧ ¬ s.descriptors.Full) := by
  unfold call
  rw [hnext]
  dsimp only
  split
  · rename_i fd descriptors hopen
    obtain ⟨hrefused, halloc⟩ := Option.ite_none_right_eq_some.mp hopen
    refine ⟨rfl, fun _ => ⟨hrefused, fun hfull => ?_⟩, fun _ => Int.natCast_nonneg fd⟩
    rw [Descriptors.alloc_eq_none.mpr hfull] at halloc
    cases halloc
  · rename_i hopen
    refine ⟨rfl, fun hneg => absurd hneg (by simp), fun hfree => ?_⟩
    obtain ⟨fd, halloc⟩ := Descriptors.exists_alloc hfree.2 (File.idle : File γ)
    rw [if_pos hfree.1, halloc] at hopen
    cases hopen

theorem Reserved.step (h : Reserved s) (ha : OpenSucceeds s a) (hstep : s.step a = some t) : Reserved t := by
  cases a with
  | arrive c =>
    obtain rfl := Option.some.inj hstep
    exact h
  | openOther =>
    obtain ⟨r, -, rfl⟩ := Option.map_eq_some_iff.mp hstep
    exact h
  | closeOther fd =>
    obtain ⟨-, hstep⟩ := Option.ite_none_right_eq_some.mp hstep
    obtain rfl := Option.some.inj hstep
    exact h
  | call refused logged =>
    obtain rfl := Option.some.inj hstep
    by_cases hopen : s.next = .openIdle
    · exact fun _ => (call_openIdle hopen refused logged).2.mpr (ha hopen)
    · have hdoes := call_does s refused logged
      generalize s.call refused logged = t at hdoes
      cases hdoes with
      | retry hnext => exact h
      | full hnext => exact fun _ => h (by simp [hnext, Call.givenUp])
      | handOver hnext => exact fun _ => h (by simp [hnext, Call.givenUp])
      | hold hnext => exact fun _ => h (by simp [hnext, Call.givenUp])
      | closeConnection hnext => exact fun _ => h (by simp [hnext, Call.givenUp])
      | closeIdle hnext => exact fun hgiven => absurd trivial hgiven
      | acceptIdle hnext => exact fun hgiven => absurd trivial hgiven
      | acceptNone hnext => exact fun hgiven => absurd trivial hgiven
      | closeAccepted hnext => exact fun hgiven => absurd trivial hgiven
      | openIdle hnext => exact absurd hnext hopen
      | openFailed hnext => exact absurd hnext hopen

/-- While the descriptor is given up there is a free one, or `idleFd_` is about to be closed. -/
def Free (s : Accepting γ) : Prop :=
  s.next.givenUp → ¬ s.descriptors.Full ∨ s.next = .closeAccepted ∧ 0 ≤ s.idleFd

/-- A descriptor inside the table is free once it is closed. -/
theorem Inv.not_full_close (h : Inv s) (hfd : 0 ≤ s.idleFd) : ¬ (s.descriptors.close s.idleFd).Full := by
  obtain ⟨n, hn⟩ := Int.eq_ofNat_of_zero_le hfd
  rw [hn]
  exact Descriptors.not_full_set_none (h.inside n hn)

theorem Free.step (h : Free s) (hinv : Inv s) (hreserved : Reserved s) (ha : Undisturbed s a)
    (hstep : s.step a = some t) : Free t := by
  cases a with
  | arrive c =>
    obtain rfl := Option.some.inj hstep
    exact h
  | openOther =>
    obtain ⟨r, -, rfl⟩ := Option.map_eq_some_iff.mp hstep
    exact fun hgiven => absurd hgiven ha
  | closeOther fd =>
    obtain ⟨-, hstep⟩ := Option.ite_none_right_eq_some.mp hstep
    obtain rfl := Option.some.inj hstep
    exact fun hgiven => (h hgiven).imp_left fun hfree hfull => hfree (Descriptors.Full.of_set_none hfull)
  | call refused logged =>
    obtain rfl := Option.some.inj hstep
    have hdoes := call_does s refused logged
    generalize s.call refused logged = t at hdoes
    cases hdoes with
    | retry hnext => exact h
    | full hnext => exact fun hgiven => absurd hgiven id
    | handOver hnext =>
      intro hgiven
      simp [hnext, Call.givenUp] at hgiven
    | hold hnext => exact fun hgiven => absurd hgiven id
    | closeConnection hnext => exact fun hgiven => absurd hgiven id
    | closeIdle hnext => exact fun _ => .inl (hinv.not_full_close (hreserved (by simp [hnext, Call.givenUp])))
    | @acceptIdle c fd backlog hnext => exact fun _ => .inr ⟨rfl, Int.natCast_nonneg fd⟩
    | acceptNone hnext =>
      refine fun _ => .inl ?_
      rcases h (by simp [hnext, Call.givenUp]) with hfree | ⟨hclose, -⟩
      · exact hfree
      · cases hnext.symm.trans hclose
    | closeAccepted hnext =>
      refine fun _ => .inl ?_
      by_cases hfd : 0 ≤ s.idleFd
      · exact hinv.not_full_close hfd
      · obtain ⟨n, hn⟩ := Int.eq_negSucc_of_lt_zero (Int.not_le.mp hfd)
        rcases h (by simp [hnext, Call.givenUp]) with hfree | ⟨-, hpos⟩
        · show ¬ (s.descriptors.close s.idleFd).Full
          rw [hn]
          exact hfree
        · exact absurd hpos hfd
    | openIdle hnext => exact fun hgiven => absurd hgiven id
    | openFailed hnext => exact fun hgiven => absurd hgiven id

/-- **The descriptor in reserve**: in a run, `idleFd_` is open whenever `handleRead` has returned exactly if each
`open` of `/dev/null` found a free descriptor and was not refused; and so it is if no other thread opens a descriptor
between the first `close(idleFd_)` and that `open`. -/
theorem reserve_kept_iff {inUse : Nat → Bool} {limit : Nat} {callback : Bool} {s : Accepting γ}
    (hnew : new inUse limit callback = some s) (as : List (Label γ)) :
    ((acceptors γ).Always (fun t => t.next = .accept → 0 ≤ t.idleFd) s as ↔
        (acceptors γ).Meets OpenSucceeds s as) ∧
      ((acceptors γ).Meets Undisturbed s as →
        (acceptors γ).Always (fun t => t.next = .accept → 0 ≤ t.idleFd) s as) := by
  obtain ⟨hinv, hnext, hfd⟩ := new_inv hnew
  have hreserved : Reserved s := fun _ => hfd
  have hiff : (acceptors γ).Always (fun t => t.next = .accept → 0 ≤ t.idleFd) s as ↔
      (acceptors γ).Meets OpenSucceeds s as := by
    refine Machine.always_iff_meets (fun t h haccept => h (by simp [haccept, Call.givenUp]))
      (fun t a u h ha hstep => h.step ha hstep) ?_ hreserved
    intro t a u h ha hstep
    cases a with
    | call refused logged =>
      obtain ⟨hopen, hfailed⟩ := Classical.not_imp.mp ha
      obtain rfl := Option.some.inj hstep
      obtain ⟨haccept, hpos⟩ := call_openIdle hopen refused logged
      exact fun hall => hfailed (hpos.mp (hall haccept))
    | arrive c => exact absurd trivial ha
    | openOther => exact absurd trivial ha
    | closeOther fd => exact absurd trivial ha
  refine ⟨hiff, fun hmeets => hiff.mpr ?_⟩
  have hopens : ∀ (t : Accepting γ) (a : Label γ), Free t → Undisturbed t a → OpenSucceeds t a := by
    intro t a hfree ha
    cases a with
    | call refused logged =>
      refine fun hopen => ⟨ha hopen, ?_⟩
      rcases hfree (by simp [hopen, Call.givenUp]) with hfree | ⟨hclose, -⟩
      · exact hfree
      · cases hopen.symm.trans hclose
    | arrive c => trivial
    | openOther => trivial
    | closeOther fd => trivial
  have hfree : Free s := fun hgiven => by simp [hnext, Call.givenUp] at hgiven
  refine Machine.Meets.imp_of_invariant (I := fun t => Inv t ∧ Reserved t ∧ Free t) ⟨hinv, hreserved, hfree⟩ ?_
    (fun t a h => hopens t a h.2.2) hmeets
  exact fun t a u h ha hstep =>
    ⟨h.1.step hstep, h.2.1.step (hopens t a h.2.2 ha) hstep, h.2.2.step h.1 h.2.1 ha hstep⟩

/-- The same process keeps its descriptor. -/
theorem two_descriptors_reserved : ∃ s : Accepting Nat, new (fun _ => false) 2 true = some s ∧
    (acceptors Nat).Always (fun t => t.next = .accept → 0 ≤ t.idleFd) s
      (.arrive 7 :: List.replicate 5 (.call none none)) := by
  obtain ⟨s, hnew⟩ : ∃ s : Accepting Nat, new (fun _ => false) 2 true = some s := ⟨_, rfl⟩
  refine ⟨s, hnew, (reserve_kept_iff hnew _).2 fun pre a t u hpre _ _ => ?_⟩
  have ha := hpre.subset (List.mem_append_right _ List.mem_cons_self)
  rcases List.mem_cons.mp ha with rfl | ha
  · trivial
  · obtain rfl := List.eq_of_mem_replicate ha
    exact fun _ => rfl

/-! ### Emptying the queue -/

/-- The next system call, when the kernel does not refuse it and `errno` is kept. -/
def undisturbed : Label γ := .call none none

theorem run_undisturbed (s : Accepting γ) (k : Nat) :
    (acceptors γ).run s (List.replicate (k + 1) undisturbed) =
      (acceptors γ).run (s.call none none) (List.replicate k undisturbed) := rfl

/-- With a descriptor free, a connection is accepted under it and closed, and `/dev/null` opened. -/
theorem acceptIdle_run (hnext : s.next = .acceptIdle) (hfree : ¬ s.descriptors.Full) {c : γ} {backlog : List γ}
    (hbacklog : s.backlog = c :: backlog) :
    ∃ t, (acceptors γ).run s (List.replicate 3 undisturbed) = some t ∧ t.next = .accept ∧ 0 ≤ t.idleFd ∧
      t.backlog = backlog ∧ t.accepted = s.accepted ++ [c] := by
  obtain ⟨fd, hlowest⟩ : ∃ fd, s.descriptors.lowest = some fd := by
    cases hlowest : s.descriptors.lowest with
    | none => exact absurd (Descriptors.lowest_eq_none.mp hlowest) hfree
    | some fd => exact ⟨fd, rfl⟩
  -- the number is free again for `/dev/null`
  have hback : (s.descriptors.set fd (some (.held c))).close fd = s.descriptors :=
    Descriptors.set_set_none (Descriptors.of_lowest hlowest).2
  have haccept : s.call none none = { s with
      descriptors := s.descriptors.set fd (some (.held c)), backlog, accepted := s.accepted ++ [c], idleFd := fd,
      next := .closeAccepted } := by
    simp [call, acceptCall, hnext, hlowest, hbacklog]
  have hclose : (s.call none none).call none none = { (s.call none none).closeCall fd with next := .openIdle } := by
    rw [haccept]
    rfl
  have hdescriptors : ((s.call none none).call none none).descriptors = s.descriptors := by
    rw [hclose, haccept]
    exact hback
  have hopen : ((s.call none none).call none none).next = .openIdle := by rw [hclose]
  obtain ⟨haccept', hfd⟩ := call_openIdle hopen none none
  obtain ⟨n, halloc⟩ := Descriptors.exists_alloc hfree (File.idle : File γ)
  have hlast : ((s.call none none).call none none).call none none =
      { (s.call none none).call none none with
        descriptors := s.descriptors.set n (some .idle), idleFd := n, next := .accept } := by
    rw [call, hopen]
    simp [hdescriptors, halloc]
  refine ⟨_, rfl, haccept', hfd.mpr ⟨rfl, hdescriptors ▸ hfree⟩, ?_, ?_⟩
  · show (((s.call none none).call none none).call none none).backlog = backlog
    rw [hlast, hclose, haccept]
    rfl
  · show (((s.call none none).call none none).call none none).accepted = s.accepted ++ [c]
    rw [hlast, hclose, haccept]
    rfl

/-- `handleRead` takes one connection off the queue, in at most five system calls. -/
theorem Inv.handleRead (h : Inv s) (hnext : s.next = .accept) (hfd : 0 ≤ s.idleFd) {c : γ} {backlog : List γ}
    (hbacklog : s.backlog = c :: backlog) :
    ∃ k ≤ 5, ∃ t, (acceptors γ).run s (List.replicate k undisturbed) = some t ∧ t.next = .accept ∧
      0 ≤ t.idleFd ∧ t.backlog = backlog ∧ t.accepted = s.accepted ++ [c] := by
  cases hlowest : s.descriptors.lowest with
  | some fd =>
    cases hcallback : s.callback with
    | true =>
      refine ⟨1, by omega, s.call none none, rfl, ?_⟩
      simp [call, acceptCall, hnext, hcallback, hlowest, hbacklog, hfd]
    | false =>
      refine ⟨2, by omega, (s.call none none).call none none, rfl, ?_⟩
      simp [call, acceptCall, closeCall, hnext, hcallback, hlowest, hbacklog, hfd]
  | none =>
    have hfull : s.call none none = { s with next := .closeIdle } := by
      cases hcallback : s.callback <;> simp [call, acceptCall, hnext, hcallback, hlowest]
    obtain ⟨t, hrun, ht⟩ := acceptIdle_run (s := { s.closeCall s.idleFd with next := .acceptIdle }) rfl
      (h.not_full_close hfd) hbacklog
    refine ⟨5, le_rfl, t, ?_, ht⟩
    rw [run_undisturbed, hfull]
    exact hrun

/-- **The queue is emptied**: in every state of every run in which `handleRead` has returned and `idleFd_` is open,
the acceptor's system calls alone accept the connections that wait, in order and each in at most five calls, however
few descriptors the process has left; and `idleFd_` is open again. So the poller does not report the socket for
ever. -/
theorem backlog_drains {inUse : Nat → Bool} {limit : Nat} {callback : Bool} {s : Accepting γ}
    (hnew : new inUse limit callback = some s) (as : List (Label γ)) :
    (acceptors γ).Always (fun t => t.next = .accept → 0 ≤ t.idleFd →
      ∃ k ≤ 5 * t.backlog.length, ∃ u, (acceptors γ).run t (List.replicate k undisturbed) = some u ∧
        u.next = .accept ∧ 0 ≤ u.idleFd ∧ u.backlog = [] ∧ u.accepted = t.accepted ++ t.backlog) s as := by
  have hinv : (acceptors γ).Always Inv s as :=
    Machine.Always.of_step (new_inv hnew).1 fun _ _ _ h hstep => Inv.step h hstep
  refine hinv.mono fun t h hnext hfd => ?_
  generalize hbacklog : t.backlog = backlog
  induction backlog generalizing t with
  | nil => exact ⟨0, Nat.zero_le _, t, rfl, hnext, hfd, hbacklog, (List.append_nil _).symm⟩
  | cons c backlog ih =>
    obtain ⟨k, hk, u, hrun, hunext, hufd, hubacklog, huaccepted⟩ := h.handleRead hnext hfd hbacklog
    have hu : Inv u := Machine.run_invariant (fun _ _ _ h hstep => Inv.step h hstep) h hrun
    obtain ⟨j, hj, v, hrun', hvnext, hvfd, hvbacklog, hvaccepted⟩ := ih u hu hunext hufd hubacklog
    refine ⟨k + j, by rw [List.length_cons]; omega, v, ?_, hvnext, hvfd, hvbacklog, ?_⟩
    · rw [List.replicate_add, Machine.run_append, hrun, Option.bind_some, hrun']
    · rw [hvaccepted, huaccepted, List.append_assoc]
      rfl

/-- The queue of the process with two descriptors. -/
theorem two_descriptors_drain : ∃ s t : Accepting Nat, new (fun _ => false) 2 true = some s ∧
    (acceptors Nat).run s [.arrive 7, .arrive 8] = some t ∧
      ∃ k ≤ 10, ∃ u, (acceptors Nat).run t (List.replicate k undisturbed) = some u ∧ u.accepted = [7, 8] := by
  obtain ⟨s, hnew⟩ : ∃ s : Accepting Nat, new (fun _ => false) 2 true = some s := ⟨_, rfl⟩
  have hstart : s.next = .accept ∧ 0 ≤ s.idleFd ∧ s.backlog = [] ∧ s.accepted = [] := by
    obtain rfl := Option.some.inj hnew
    exact ⟨rfl, by decide, rfl, rfl⟩
  obtain ⟨k, hk, u, hrun, -, -, -, haccepted⟩ :=
    (backlog_drains hnew [.arrive 7, .arrive 8]).last rfl hstart.1 hstart.2.1
  simp only [hstart.2.2] at hk haccepted
  exact ⟨s, _, hnew, rfl, k, hk, u, hrun, haccepted⟩

end Accepting

end Siren
