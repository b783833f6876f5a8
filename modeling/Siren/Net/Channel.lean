import Mathlib.Data.BitVec
import Siren.Base.Types

/-!
# Channels and their event masks

The members of `Channel` that decide what is registered with the poller: the file descriptor, the event
mask of interest `events_`, the mask `revents_` of the last poll and the poller's `index_`. The five
calls that change the interest differ in the mask they compute; each then runs `update()`, which is the
poller's.
-/

namespace Siren

/-- An event mask of `poll(2)` or `epoll(7)`. -/
abbrev Mask := BitVec 32

def POLLIN : Mask := 0x0001
def POLLPRI : Mask := 0x0002
def POLLOUT : Mask := 0x0004
def POLLERR : Mask := 0x0008
def POLLHUP : Mask := 0x0010
def POLLNVAL : Mask := 0x0020
def POLLRDHUP : Mask := 0x2000

/-- Whether a mask shares a bit with another. -/
def Mask.has (m bits : Mask) : Bool := m &&& bits != 0

namespace Mask

theorem has_eq_false {m bits : Mask} : m.has bits = false ↔ m &&& bits = 0#32 := by
  simp [has]

theorem has_or (m a b : Mask) : m.has (a ||| b) = (m.has a || m.has b) := by
  have hbits : m &&& (a ||| b) = 0#32 ↔ m &&& a = 0#32 ∧ m &&& b = 0#32 := by
    rw [BitVec.and_or_distrib_left, BitVec.or_eq_zero_iff]
  rw [Bool.eq_iff_iff, Bool.or_eq_true]
  simp only [has, bne_iff_ne, ne_eq]
  tauto

theorem has_or_self {m bits : Mask} (h : bits ≠ 0#32) : (m ||| bits).has bits = true := by
  have hbits : (m ||| bits) &&& bits = bits := by
    ext i hi
    simp only [BitVec.getElem_and, BitVec.getElem_or]
    cases bits[i] <;> simp
  simpa [has, hbits] using h

theorem has_and_not_self (m bits : Mask) : (m &&& ~~~bits).has bits = false := by
  rw [has_eq_false]
  ext i hi
  simp only [BitVec.getElem_and, BitVec.getElem_not]
  cases bits[i] <;> simp

theorem has_or_disjoint {m bits other : Mask} (h : other &&& bits = 0#32) :
    (m ||| other).has bits = m.has bits := by
  have hbits : (m ||| other) &&& bits = m &&& bits := by
    ext i hi
    have hi' := congrArg (fun x : Mask => x[i]) h
    simp only [BitVec.getElem_and, BitVec.getElem_or] at hi' ⊢
    cases hb : bits[i] <;> simp_all
  rw [has, hbits, has]

theorem has_and_not_disjoint {m bits other : Mask} (h : other &&& bits = 0#32) :
    (m &&& ~~~other).has bits = m.has bits := by
  have hbits : (m &&& ~~~other) &&& bits = m &&& bits := by
    ext i hi
    have hi' := congrArg (fun x : Mask => x[i]) h
    simp only [BitVec.getElem_and, BitVec.getElem_not] at hi' ⊢
    cases hb : bits[i] <;> simp_all
  rw [has, hbits, has]

end Mask

/-- `index_` as the poller sets it: never registered, in the epoll set, or taken out of it. -/
def kNew : Int := -1
def kAdded : Int := 1
def kDeleted : Int := 2

structure Channel where
  fd : Int
  events : Mask
  revents : Mask
  index : Int
  deriving DecidableEq

namespace Channel

def kNoneEvent : Mask := 0
def kReadEvent : Mask := POLLIN ||| POLLPRI
def kWriteEvent : Mask := POLLOUT

/-- `Channel(loop, fd)` -/
def new (fd : Int) : Channel := ⟨fd, 0, 0, kNew⟩

def isNoneEvent (c : Channel) : Bool := c.events == kNoneEvent

def isWriting (c : Channel) : Bool := Mask.has c.events kWriteEvent

def isReading (c : Channel) : Bool := Mask.has c.events kReadEvent

/-- The calls that change `events_`. -/
inductive InterestCall where
  | enableReading
  | disableReading
  | enableWriting
  | disableWriting
  | disableAll
  deriving DecidableEq

/-- The mask each of them leaves. -/
def InterestCall.mask : InterestCall → Mask → Mask
  | .enableReading, events => events ||| kReadEvent
  | .disableReading, events => events &&& ~~~kReadEvent
  | .enableWriting, events => events ||| kWriteEvent
  | .disableWriting, events => events &&& ~~~kWriteEvent
  | .disableAll, _ => kNoneEvent

/-! ### What the calls do to the interest in writing and in reading -/

/-- The interest in writing after a call. -/
def InterestCall.writing : InterestCall → Bool → Bool
  | .enableWriting, _ => true
  | .disableWriting, _ => false
  | .disableAll, _ => false
  | _, writing => writing

theorem InterestCall.has_write_mask (call : InterestCall) (events : Mask) :
    Mask.has (call.mask events) kWriteEvent = call.writing (Mask.has events kWriteEvent) := by
  cases call with
  | enableReading => exact Mask.has_or_disjoint (by decide)
  | disableReading => exact Mask.has_and_not_disjoint (by decide)
  | enableWriting => exact Mask.has_or_self (by decide)
  | disableWriting => exact Mask.has_and_not_self _ _
  | disableAll =>
    show Mask.has kNoneEvent kWriteEvent = false
    decide

/-- The interest in reading after a call. -/
def InterestCall.reading : InterestCall → Bool → Bool
  | .enableReading, _ => true
  | .disableReading, _ => false
  | .disableAll, _ => false
  | _, reading => reading

theorem InterestCall.has_read_mask (call : InterestCall) (events : Mask) :
    Mask.has (call.mask events) kReadEvent = call.reading (Mask.has events kReadEvent) := by
  cases call with
  | enableReading => exact Mask.has_or_self (by decide)
  | disableReading => exact Mask.has_and_not_self _ _
  | enableWriting => exact Mask.has_or_disjoint (by decide)
  | disableWriting => exact Mask.has_and_not_disjoint (by decide)
  | disableAll =>
    show Mask.has kNoneEvent kReadEvent = false
    decide

/-! ### Dispatch -/

/-- The callbacks of a channel. -/
inductive Handler where
  | close
  | error
  | read
  | write
  deriving DecidableEq

/-- `handleEventWithGuard`: the callbacks it makes for `revents_`, in order, when all four are set. -/
def handleEventWithGuard (revents : Mask) : List Handler :=
  (if revents.has POLLHUP && !revents.has POLLIN then [.close] else []) ++
  (if revents.has (POLLERR ||| POLLNVAL) then [.error] else []) ++
  (if revents.has (POLLIN ||| POLLPRI ||| POLLRDHUP) then [.read] else []) ++
  (if revents.has POLLOUT then [.write] else [])

end Channel

end Siren
