import Siren.Lib.Machine
import Siren.Lib.Memory
import Siren.Net.TcpConnection.Basic

/-!
# What a queued `sendInLoop` captures

On another thread than the loop's, `send` binds `sendInLoop` to its arguments and queues it. The overload
for a `Buffer` binds a copy of the bytes; the one for a pointer, and the one for a `std::string` that calls
it, bind the pointer. The bytes are read when the loop runs the functor, from memory that is the caller's
again since `send` returned.

* `capture_intact_iff`: every `sendInLoop`, run or still queued, reads its message as it was when `send`
  was called, exactly in the runs where no caller changes a byte of a queued message and no string of a
  size that does not fit an `int` is accepted.
-/

namespace Siren.TcpConnection

/-- What `std::bind` stored with a queued `sendInLoop`. -/
inductive Bound where
  /-- `sendInLoop(const void* data, size_t len)` -/
  | pointer (data len : Nat)
  /-- `sendInLoop(const std::string&)` of a string of its own. -/
  | string (message : List Byte)

/-- The bytes `sendInLoop` finds, `none` when it touches memory that was released. -/
def Bound.read (memory : Nat → Option Byte) : Bound → Option (List Byte)
  | .pointer data len => Memory.load memory data len
  | .string message => some message

structure Posted where
  bound : Bound
  /-- History: what the message held when `send` was called. -/
  message : List Byte

/-- A connection, the memory of its callers and the queued calls of `sendInLoop`. -/
structure Mailbox where
  conn : TcpConnection
  memory : Nat → Option Byte
  pendingFunctors : List Posted
  functors : List Posted
  /-- History: for each `sendInLoop` run, the message and what was read. -/
  reads : List (List Byte × Option (List Byte))

namespace Mailbox

/-- `send(const void* data, int len)` on another thread than the loop's. -/
def send (s : Mailbox) (data : Nat) (len : Int) (message : List Byte) : Mailbox :=
  if len ≤ 0 then s
  else if s.conn.state = .kConnected then
    { s with pendingFunctors := s.pendingFunctors ++ [⟨.pointer data len.toNat, message⟩] }
  else s

/-- `send(const std::string& message)` of a string stored at `data`. -/
def sendString (s : Mailbox) (data : Nat) (message : List Byte) : Mailbox :=
  s.send data (toInt message.length) message

/-- `send(Buffer* buf)` -/
def sendBuffer (s : Mailbox) (message : List Byte) : Mailbox :=
  if s.conn.state = .kConnected ∧ message.length > 0 then
    { s with pendingFunctors := s.pendingFunctors ++ [⟨.string message, message⟩] }
  else s

inductive Label where
  | send (data : Nat) (len : Int)
  | sendString (data size : Nat)
  | sendBuffer (message : List Byte)
  /-- A caller overwrites a byte of its memory, or releases it. -/
  | store (addr : Nat) (byte : Option Byte)
  /-- `doPendingFunctors` swaps the functors out. -/
  | swap
  | runNext (result : WriteResult)
  | handleWrite (result : WriteResult)

/-- A step. A message is readable memory while `send` is called. -/
def step (s : Mailbox) : Label → Option Mailbox
  | .send data len => (Memory.load s.memory data len.toNat).map fun message => s.send data len message
  | .sendString data size => (Memory.load s.memory data size).map fun message => s.sendString data message
  | .sendBuffer message => some (s.sendBuffer message)
  | .store addr byte => some { s with memory := Function.update s.memory addr byte }
  | .swap =>
    if s.functors = [] then some { s with functors := s.pendingFunctors, pendingFunctors := [] } else none
  | .runNext result =>
    match s.functors with
    | [] => none
    | posted :: functors =>
      let read := posted.bound.read s.memory
      some { s with
        conn := read.elim s.conn fun data => s.conn.sendInLoop data result
        functors
        reads := s.reads ++ [(posted.message, read)] }
  | .handleWrite result =>
    if s.functors = [] then some { s with conn := s.conn.handleWrite result } else none

def runs : Machine Mailbox Label := ⟨step⟩

/-- An established connection with nothing queued. -/
def init (fd : Int) (writeCompleteCallback : Bool) (highWaterMark : Option Nat)
    (memory : Nat → Option Byte) : Mailbox where
  conn := (new fd writeCompleteCallback highWaterMark).connectEstablished
  memory
  pendingFunctors := []
  functors := []
  reads := []

/-- Every `sendInLoop` read its message as `send` saw it, and those queued would read it so now. -/
structure Intact (s : Mailbox) : Prop where
  read : ∀ r ∈ s.reads, r.2 = some r.1
  queued : ∀ p ∈ s.functors ++ s.pendingFunctors, p.bound.read s.memory = some p.message

/-- No caller changes a byte of a queued message, and an accepted string has a size that fits an `int`. -/
def LeavesPosted (s : Mailbox) : Label → Prop
  | .store addr byte => ∀ p ∈ s.functors ++ s.pendingFunctors, ∀ data len, p.bound = .pointer data len →
      data ≤ addr → addr < data + len → byte = s.memory addr
  | .sendString _ size => s.conn.state = .kConnected → 0 < toInt size → toInt size = size
  | _ => True

variable {s t : Mailbox}

theorem mem_queue_concat {functors pendingFunctors : List Posted} {p q : Posted} :
    p ∈ functors ++ (pendingFunctors ++ [q]) ↔ p ∈ functors ++ pendingFunctors ∨ p = q := by
  simp [or_assoc]

/-- Queueing a call that would read its message. -/
theorem Intact.post (h : Intact s) {q : Posted} (hq : q.bound.read s.memory = some q.message) :
    Intact { s with pendingFunctors := s.pendingFunctors ++ [q] } where
  read := h.read
  queued p hp := by
    rcases mem_queue_concat.mp hp with hp | rfl
    · exact h.queued p hp
    · exact hq

theorem Intact.send (h : Intact s) {data : Nat} {len : Int} {message : List Byte}
    (hload : s.conn.state = .kConnected → 0 < len → Memory.load s.memory data len.toNat = some message) :
    Intact (s.send data len message) := by
  unfold Mailbox.send
  split
  · exact h
  · rename_i hpos
    split
    · rename_i hstate
      exact h.post (hload hstate (by omega))
    · exact h

theorem Intact.step {a : Label} (h : Intact s) (ha : LeavesPosted s a) (hstep : s.step a = some t) :
    Intact t := by
  cases a with
  | send data len =>
    obtain ⟨message, hload, rfl⟩ := Option.map_eq_some_iff.mp hstep
    exact h.send fun _ _ => hload
  | sendString data size =>
    obtain ⟨message, hload, rfl⟩ := Option.map_eq_some_iff.mp hstep
    refine h.send fun hstate hpos => ?_
    rw [Memory.length_load hload] at hpos ⊢
    rw [ha hstate hpos, Int.toNat_natCast]
    exact hload
  | sendBuffer message =>
    obtain rfl := Option.some.inj hstep
    unfold Mailbox.sendBuffer
    split
    · exact h.post rfl
    · exact h
  | store addr byte =>
    obtain rfl := Option.some.inj hstep
    refine ⟨h.read, fun p hp => ?_⟩
    have hread := h.queued p hp
    cases hbound : p.bound with
    | string message =>
      rw [hbound] at hread
      exact hread
    | pointer data len =>
      rw [hbound] at hread
      exact (Memory.load_update_iff hread).mpr (ha p hp data len hbound)
  | swap =>
    obtain ⟨hempty, ht⟩ := Option.ite_none_right_eq_some.mp hstep
    obtain rfl := Option.some.inj ht
    refine ⟨h.read, fun p hp => h.queued p ?_⟩
    simpa [hempty] using hp
  | runNext result =>
    simp only [Mailbox.step] at hstep
    split at hstep
    · cases hstep
    · rename_i posted functors hfunctors
      obtain rfl := Option.some.inj hstep
      refine ⟨fun r hr => ?_, fun p hp => h.queued p ?_⟩
      · rcases List.mem_append.mp hr with hr | hr
        · exact h.read r hr
        · obtain rfl := List.mem_singleton.mp hr
          exact h.queued posted (by simp [hfunctors])
      · rw [hfunctors]
        exact List.mem_cons_of_mem _ hp
  | handleWrite result =>
    obtain ⟨-, ht⟩ := Option.ite_none_right_eq_some.mp hstep
    obtain rfl := Option.some.inj ht
    exact ⟨h.read, h.queued⟩

/-- A store into a queued message changes what its `sendInLoop` reads, and a string cut short by its `int`
length is not read whole. -/
theorem Intact.not_intact {a : Label} (h : Intact s) (ha : ¬ LeavesPosted s a)
    (hstep : s.step a = some t) : ¬ Intact t := by
  intro ht
  cases a with
  | store addr byte =>
    obtain rfl := Option.some.inj hstep
    refine ha fun p hp data len hbound => ?_
    have hbefore := h.queued p hp
    have hafter := ht.queued p hp
    rw [hbound] at hbefore hafter
    exact (Memory.load_update_iff hbefore).mp hafter
  | sendString data size =>
    obtain ⟨message, hload, rfl⟩ := Option.map_eq_some_iff.mp hstep
    have hsize := Memory.length_load hload
    refine ha fun hstate hpos => ?_
    have hposted : s.sendString data message = { s with
        pendingFunctors := s.pendingFunctors ++ [⟨.pointer data (toInt size).toNat, message⟩] } := by
      simp [Mailbox.sendString, Mailbox.send, hsize, hstate, hpos]
    rw [hposted] at ht
    have hread := ht.queued ⟨.pointer data (toInt size).toNat, message⟩
      (mem_queue_concat.mpr (Or.inr rfl))
    simp only [Bound.read] at hread
    have hlen := Memory.length_load hread
    omega
  | _ => exact ha trivial

/-- **Captured messages**: in every state of a run of sends from other threads, of stores by their callers
and of the loop, each `sendInLoop` run or queued reads the bytes its message held when `send` was called,
if and only if no caller of the run changes a byte of a queued message and no string of a size that does
not fit an `int` is accepted. -/
theorem capture_intact_iff (fd : Int) (writeCompleteCallback : Bool) (highWaterMark : Option Nat)
    (memory : Nat → Option Byte) (as : List Label) :
    runs.Always Intact (init fd writeCompleteCallback highWaterMark memory) as ↔
      runs.Meets LeavesPosted (init fd writeCompleteCallback highWaterMark memory) as :=
  Machine.always_iff_meets (I := Intact) (fun _ h => h) (fun _ _ _ h ha hstep => h.step ha hstep)
    (fun _ _ _ h ha hstep => h.not_intact ha hstep) ⟨by simp [init], by simp [init]⟩

/-- A caller overwrites its message after `send` returned and before the loop runs the functor. -/
theorem overwritten_message_sent :
    ¬ ∀ as, runs.Always Intact (init 7 false none fun _ => some 1) as := by
  intro h
  have hlast := (h [.send 100 1, .store 100 (some 2), .swap, .runNext (.wrote 1)]).last rfl
  exact absurd (hlast.read ([1], some [2]) List.mem_cons_self) (by decide)

end Mailbox

end Siren.TcpConnection
