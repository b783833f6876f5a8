import Siren.Net.BufferQueue
import Siren.Net.EPollPoller

/-!
# `TcpConnection`

One connection on its loop. The channel comes with the poller it is registered in, and the loop's
mailbox is cut down to the functors of this connection, which the loop runs in the order they were
queued. A message is its bytes here; what a queued functor captures of the caller's memory is the
subject of `SendCapture`.

Results of system calls are arguments. `log` records what the connection did, in order: it is what the
properties of whole runs speak about, and no function reads it.
-/

namespace Siren

namespace TcpConnection

inductive StateE where
  | kDisconnected
  | kConnecting
  | kConnected
  | kDisconnecting
  deriving DecidableEq

/-- The functors and callbacks that a connection puts into the mailbox of its loop. -/
inductive Functor where
  | sendInLoop (message : List Byte)
  | shutdownInLoop
  | forceCloseInLoop
  | startReadInLoop
  | stopReadInLoop
  | writeCompleteCallback
  | highWaterMarkCallback (size : Nat)
  deriving DecidableEq

inductive Action where
  /-- `send` saw `kConnected`: its message, and what it passes on to `sendInLoop`. -/
  | accept (message passed : List Byte)
  /-- `sendInLoop` was called. -/
  | sendInLoop (message : List Byte)
  /-- `write` took these bytes. -/
  | write (bytes : List Byte)
  /-- `write` returned -1. -/
  | writeFailed (errno : Nat)
  /-- `writeCompleteCallback_` was queued. -/
  | writeComplete
  /-- `socket_->shutdownWrite()` -/
  | shutdownWrite
  /-- `connectionCallback_` on a connection that is not connected. -/
  | connectionDown
  | closeCallback
  /-- `messageCallback_`, with the bytes it finds in `inputBuffer_`. -/
  | messageCallback (bytes : List Byte)
  deriving DecidableEq

/-- The assertion of `handleClose`. -/
inductive Assertion where
  | handleClose
  deriving DecidableEq

/-- Where a member function is called. -/
inductive Thread where
  | loop
  | other
  deriving DecidableEq

end TcpConnection

structure TcpConnection where
  state : TcpConnection.StateE
  reading : Bool
  /-- `channel_`, with the poller that knows it. -/
  channel : MirroredRegistry Unit
  inputBuffer : ByteBuffer
  outputBuffer : ByteBuffer
  highWaterMark : Nat
  /-- Whether `writeCompleteCallback_` is set. -/
  writeCompleteCallback : Bool
  /-- Whether `highWaterMarkCallback_` is set. -/
  highWaterMarkCallback : Bool
  /-- The functors of this connection in `pendingFunctors_` of the loop. -/
  pendingFunctors : List TcpConnection.Functor
  /-- Those in the batch of `doPendingFunctors` that were not run yet. -/
  functors : List TcpConnection.Functor
  /-- The timers of `forceCloseWithDelay` that have not fired. -/
  delayedForceCloses : Nat
  /-- History: what the connection did. -/
  log : List TcpConnection.Action

namespace TcpConnection

open Channel (InterestCall)

/-- A connection after its constructor and the setters of its callbacks. -/
def new (fd : Int) (writeCompleteCallback : Bool) (highWaterMark : Option Nat) : TcpConnection where
  state := .kConnecting
  reading := true
  channel := .new ⟨fun _ => fd, fun _ _ _ => rfl⟩
  inputBuffer := .fresh Buffer.kInitialSize
  outputBuffer := .fresh Buffer.kInitialSize
  highWaterMark := highWaterMark.getD (64 * 1024 * 1024)
  writeCompleteCallback
  highWaterMarkCallback := highWaterMark.isSome
  pendingFunctors := []
  functors := []
  delayedForceCloses := 0
  log := []

variable (c : TcpConnection)

def setState (s : StateE) : TcpConnection := { c with state := s }

def record (a : Action) : TcpConnection := { c with log := c.log ++ [a] }

/-- `loop_->queueInLoop(f)` -/
def queueInLoop (f : Functor) : TcpConnection := { c with pendingFunctors := c.pendingFunctors ++ [f] }

/-- `channel_->enableReading()` and its siblings. -/
def setInterest (call : InterestCall) : TcpConnection := { c with channel := c.channel.setInterest call () }

def setOutputBuffer (b : ByteBuffer) : TcpConnection := { c with outputBuffer := b }

def isWriting : Bool := (c.channel.channel ()).isWriting

def isReading : Bool := (c.channel.channel ()).isReading

/-- `connectEstablished`, without the callback that reports UP. -/
def connectEstablished : TcpConnection := (c.setState .kConnected).setInterest .enableReading

/-! ### The write path -/

/-- The count that `write` returns for `len` bytes when the kernel would take `n`. -/
def writeCount (n len : Nat) : Nat := min n (min len 0x7ffff000)

/-- `errno` values after which `sendInLoop` gives the message up. -/
def isFault (errno : Nat) : Bool := errno == EPIPE || errno == ECONNRESET

/-- Queues `writeCompleteCallback_` when it is set. -/
def queueWriteComplete : TcpConnection :=
  if c.writeCompleteCallback then (c.record .writeComplete).queueInLoop .writeCompleteCallback else c

/-- What `sendInLoop` knows after its attempt to write at once. -/
structure DirectWrite where
  conn : TcpConnection
  nwrote : Nat
  remaining : Nat
  faultError : Bool

/-- The first half of `sendInLoop`: write at once when nothing is queued. -/
def writeDirectly (data : List Byte) (result : WriteResult) : DirectWrite :=
  if !c.isWriting && c.outputBuffer.readableBytes == 0 then
    match result with
    | .wrote n =>
      let nwrote := writeCount n data.length
      let remaining := data.length - nwrote
      let c := c.record (.write (data.take nwrote))
      ⟨if remaining = 0 then c.queueWriteComplete else c, nwrote, remaining, false⟩
    | .failed errno =>
      let faultError := errno != EWOULDBLOCK && isFault errno
      ⟨c.record (.writeFailed errno), 0, data.length, faultError⟩
  else ⟨c, 0, data.length, false⟩

/-- The second half of `sendInLoop`: buffer what was not written. -/
def appendRemaining (rest : List Byte) : TcpConnection :=
  let oldLen := c.outputBuffer.readableBytes
  let c :=
    if oldLen + rest.length ≥ c.highWaterMark ∧ oldLen < c.highWaterMark ∧ c.highWaterMarkCallback then
      c.queueInLoop (.highWaterMarkCallback (oldLen + rest.length))
    else c
  let c := c.setOutputBuffer (c.outputBuffer.append rest)
  if !c.isWriting then c.setInterest .enableWriting else c

/-- `sendInLoop(data, len)`, when `write` answers `result`. -/
def sendInLoop (data : List Byte) (result : WriteResult) : TcpConnection :=
  let c := c.record (.sendInLoop data)
  if c.state = .kDisconnected then c
  else
    let direct := c.writeDirectly data result
    if !direct.faultError && direct.remaining > 0 then
      direct.conn.appendRemaining (data.drop direct.nwrote)
    else direct.conn

def shutdownInLoop : TcpConnection := if !c.isWriting then c.record .shutdownWrite else c

def handleWrite (result : WriteResult) : TcpConnection :=
  if c.isWriting then
    match result with
    | .wrote n =>
      let n := writeCount n c.outputBuffer.readableBytes
      let c := c.record (.write (c.outputBuffer.content.take n))
      if n > 0 then
        let c := c.setOutputBuffer (c.outputBuffer.retrieve (toInt n))
        if c.outputBuffer.readableBytes == 0 then
          let c := (c.setInterest .disableWriting).queueWriteComplete
          if c.state = .kDisconnecting then c.shutdownInLoop else c
        else c
      else c
    | .failed errno => c.record (.writeFailed errno)
  else c

/-! ### Closing and reading -/

def handleClose : Except Assertion TcpConnection := do
  cassert (c.state = .kDisconnecting ∨ c.state = .kConnected) .handleClose
  let c := (c.setState .kDisconnected).setInterest .disableAll
  let c := c.record .connectionDown
  return c.record .closeCallback

/-- `handleRead`, when `readv` answers `result`. -/
def handleRead (result : ReadResult) : Except Assertion TcpConnection :=
  let n := result.count
  let c := { c with inputBuffer := c.inputBuffer.readFd result }
  if n > 0 then .ok (c.record (.messageCallback c.inputBuffer.content))
  else if n = 0 then c.handleClose
  else .ok c

def handleError : TcpConnection := c

def forceCloseInLoop : Except Assertion TcpConnection :=
  if c.state = .kConnected ∨ c.state = .kDisconnecting then c.handleClose else .ok c

def startReadInLoop : TcpConnection :=
  if !c.reading || !c.isReading then { c.setInterest .enableReading with reading := true } else c

/-- `stopReadInLoop`, which sets `reading_` to `true` as `startReadInLoop` does. -/
def stopReadInLoop : TcpConnection :=
  if c.reading || c.isReading then { c.setInterest .disableReading with reading := true } else c

/-! ### The calls of users -/

/-- A call of the public interface. -/
inductive Call where
  /-- `send(const void*, int)` of these bytes. -/
  | send (message : List Byte)
  /-- `send(const std::string&)` -/
  | sendString (message : List Byte)
  /-- `send(Buffer*)` of a buffer with these readable bytes. -/
  | sendBuffer (message : List Byte)
  | shutdown
  | forceClose
  | forceCloseWithDelay
  | startRead
  | stopRead

/-- What `send` does with a connection in `kConnected`: `sendInLoop` at once on the loop thread, and
through the mailbox on any other. -/
def passOn (thread : Thread) (message passed : List Byte) (result : WriteResult) : TcpConnection :=
  let c := c.record (.accept message passed)
  match thread with
  | .loop => c.sendInLoop passed result
  | .other => c.queueInLoop (.sendInLoop passed)

/-- `send(const void* message, int len)` -/
def send (thread : Thread) (message : List Byte) (len : Int) (result : WriteResult) : TcpConnection :=
  if len ≤ 0 then c
  else if c.state = .kConnected then c.passOn thread message (message.take len.toNat) result
  else c

/-- `send(const std::string& message)`: the size becomes an `int`. -/
def sendString (thread : Thread) (message : List Byte) (result : WriteResult) : TcpConnection :=
  c.send thread message (toInt message.length) result

/-- `send(Buffer* buf)` -/
def sendBuffer (thread : Thread) (message : List Byte) (result : WriteResult) : TcpConnection :=
  if c.state = .kConnected ∧ message.length > 0 then c.passOn thread message message result else c

def shutdown (thread : Thread) : TcpConnection :=
  if c.state = .kConnected then
    let c := c.setState .kDisconnecting
    match thread with
    | .loop => c.shutdownInLoop
    | .other => c.queueInLoop .shutdownInLoop
  else c

def forceClose : TcpConnection :=
  if c.state = .kConnected ∨ c.state = .kDisconnecting then
    (c.setState .kDisconnecting).queueInLoop .forceCloseInLoop
  else c

def forceCloseWithDelay : TcpConnection :=
  if c.state = .kConnected ∨ c.state = .kDisconnecting then
    { c.setState .kDisconnecting with delayedForceCloses := c.delayedForceCloses + 1 }
  else c

def startRead (thread : Thread) : TcpConnection :=
  match thread with
  | .loop => c.startReadInLoop
  | .other => c.queueInLoop .startReadInLoop

def stopRead (thread : Thread) : TcpConnection :=
  match thread with
  | .loop => c.stopReadInLoop
  | .other => c.queueInLoop .stopReadInLoop

/-- A call made on a thread, where `result` answers the `write` it may make. -/
def call (thread : Thread) (result : WriteResult) : Call → TcpConnection
  | .send message => c.send thread message message.length result
  | .sendString message => c.sendString thread message result
  | .sendBuffer message => c.sendBuffer thread message result
  | .shutdown => c.shutdown thread
  | .forceClose => c.forceClose
  | .forceCloseWithDelay => c.forceCloseWithDelay
  | .startRead => c.startRead thread
  | .stopRead => c.stopRead thread

/-! ### The loop's side -/

/-- `functors.swap(pendingFunctors_)` -/
def swapFunctors : TcpConnection := { c with functors := c.pendingFunctors, pendingFunctors := [] }

/-- Runs a functor. The callbacks change nothing by themselves. -/
def runFunctor (result : WriteResult) : Functor → Except Assertion TcpConnection
  | .sendInLoop message => .ok (c.sendInLoop message result)
  | .shutdownInLoop => .ok c.shutdownInLoop
  | .forceCloseInLoop => c.forceCloseInLoop
  | .startReadInLoop => .ok c.startReadInLoop
  | .stopReadInLoop => .ok c.stopReadInLoop
  | .writeCompleteCallback => .ok c
  | .highWaterMarkCallback _ => .ok c

/-! ### Simp lemmas -/

variable {c}

@[simp] theorem setState_state (s : StateE) : (c.setState s).state = s := rfl
@[simp] theorem setState_log (s : StateE) : (c.setState s).log = c.log := rfl
@[simp] theorem setState_outputBuffer (s : StateE) : (c.setState s).outputBuffer = c.outputBuffer := rfl
@[simp] theorem setState_isWriting (s : StateE) : (c.setState s).isWriting = c.isWriting := rfl

@[simp] theorem record_state (a : Action) : (c.record a).state = c.state := rfl
@[simp] theorem record_log (a : Action) : (c.record a).log = c.log ++ [a] := rfl
@[simp] theorem record_outputBuffer (a : Action) : (c.record a).outputBuffer = c.outputBuffer := rfl
@[simp] theorem record_isWriting (a : Action) : (c.record a).isWriting = c.isWriting := rfl

@[simp] theorem queueInLoop_state (f : Functor) : (c.queueInLoop f).state = c.state := rfl
@[simp] theorem queueInLoop_log (f : Functor) : (c.queueInLoop f).log = c.log := rfl
@[simp] theorem queueInLoop_outputBuffer (f : Functor) :
    (c.queueInLoop f).outputBuffer = c.outputBuffer := rfl
@[simp] theorem queueInLoop_isWriting (f : Functor) : (c.queueInLoop f).isWriting = c.isWriting := rfl

@[simp] theorem setOutputBuffer_state (b : ByteBuffer) : (c.setOutputBuffer b).state = c.state := rfl
@[simp] theorem setOutputBuffer_log (b : ByteBuffer) : (c.setOutputBuffer b).log = c.log := rfl
@[simp] theorem setOutputBuffer_outputBuffer (b : ByteBuffer) :
    (c.setOutputBuffer b).outputBuffer = b := rfl
@[simp] theorem setOutputBuffer_isWriting (b : ByteBuffer) :
    (c.setOutputBuffer b).isWriting = c.isWriting := rfl

@[simp] theorem setInterest_state (call : InterestCall) : (c.setInterest call).state = c.state := rfl
@[simp] theorem setInterest_log (call : InterestCall) : (c.setInterest call).log = c.log := rfl
@[simp] theorem setInterest_outputBuffer (call : InterestCall) :
    (c.setInterest call).outputBuffer = c.outputBuffer := rfl

theorem setInterest_channel (call : InterestCall) : (c.setInterest call).channel.channel () =
    Registry.afterInterest call (c.channel.channel ()) := by
  show (c.channel.setInterest call ()).channel () = _
  rw [MirroredRegistry.channel_setInterest, Function.update_self]

@[simp] theorem setInterest_isWriting (call : InterestCall) :
    (c.setInterest call).isWriting = call.writing c.isWriting := by
  rw [isWriting, setInterest_channel]
  exact call.has_write_mask _

@[simp] theorem setInterest_isReading (call : InterestCall) :
    (c.setInterest call).isReading = call.reading c.isReading := by
  rw [isReading, setInterest_channel]
  exact call.has_read_mask _

@[simp] theorem queueWriteComplete_isWriting : c.queueWriteComplete.isWriting = c.isWriting := by
  unfold queueWriteComplete
  split <;> rfl

@[simp] theorem new_isWriting (fd : Int) (writeCompleteCallback : Bool) (highWaterMark : Option Nat) :
    (new fd writeCompleteCallback highWaterMark).isWriting = false := by
  show Mask.has 0 Channel.kWriteEvent = false
  decide

@[simp] theorem new_outputBuffer (fd : Int) (writeCompleteCallback : Bool) (highWaterMark : Option Nat) :
    (new fd writeCompleteCallback highWaterMark).outputBuffer.content = [] :=
  ByteBuffer.content_fresh _

/-! ### What the write path leaves alone -/

/-- The functors that only run a callback. -/
def Functor.isCallback : Functor → Bool
  | .writeCompleteCallback => true
  | .highWaterMarkCallback _ => true
  | _ => false

/-- The actions of the write path itself, when `write` answers `result`. -/
def Action.ofWriting (result : WriteResult) : Action → Bool
  | .write _ => true
  | .writeFailed errno => result == .failed errno
  | .writeComplete => true
  | _ => false

/-- A list that got more elements of a kind at its end. -/
def Grew {α : Type*} (kind : α → Bool) (l l' : List α) : Prop :=
  ∃ more, l' = l ++ more ∧ ∀ x ∈ more, kind x = true

namespace Grew

variable {α : Type*} {kind : α → Bool} {l l' l'' : List α}

theorem refl (l : List α) : Grew kind l l := ⟨[], (List.append_nil l).symm, by simp⟩

theorem concat {x : α} (hx : kind x = true) : Grew kind l (l ++ [x]) := ⟨[x], rfl, by simpa using hx⟩

theorem trans (h : Grew kind l l') (h' : Grew kind l' l'') : Grew kind l l'' := by
  obtain ⟨more, rfl, hmore⟩ := h
  obtain ⟨more', rfl, hmore'⟩ := h'
  exact ⟨more ++ more', List.append_assoc .., fun x hx =>
    (List.mem_append.mp hx).elim (hmore x) (hmore' x)⟩

end Grew

/-- `d` comes from `c` by writing: the state and the batch are the same, only callbacks were queued and
only writes recorded. -/
structure Writes (result : WriteResult) (c d : TcpConnection) : Prop where
  state : d.state = c.state
  functors : d.functors = c.functors
  pending : Grew Functor.isCallback c.pendingFunctors d.pendingFunctors
  log : Grew (Action.ofWriting result) c.log d.log

namespace Writes

variable {d e : TcpConnection} {result : WriteResult}

theorem refl (c : TcpConnection) : Writes result c c := ⟨rfl, rfl, .refl _, .refl _⟩

theorem trans (h : Writes result c d) (h' : Writes result d e) : Writes result c e :=
  ⟨h'.state.trans h.state, h'.functors.trans h.functors, h.pending.trans h'.pending, h.log.trans h'.log⟩

theorem record {a : Action} (ha : a.ofWriting result = true) : Writes result c (c.record a) :=
  ⟨rfl, rfl, .refl _, .concat ha⟩

theorem queueInLoop {f : Functor} (hf : f.isCallback = true) : Writes result c (c.queueInLoop f) :=
  ⟨rfl, rfl, .concat hf, .refl _⟩

theorem setInterest (call : InterestCall) : Writes result c (c.setInterest call) :=
  ⟨rfl, rfl, .refl _, .refl _⟩

theorem setOutputBuffer (b : ByteBuffer) : Writes result c (c.setOutputBuffer b) :=
  ⟨rfl, rfl, .refl _, .refl _⟩

theorem queueWriteComplete : Writes result c c.queueWriteComplete := by
  unfold TcpConnection.queueWriteComplete
  split
  · exact (record rfl).trans (queueInLoop rfl)
  · exact refl c

theorem writeDirectly (data : List Byte) (result : WriteResult) :
    Writes result c (c.writeDirectly data result).conn := by
  unfold TcpConnection.writeDirectly
  split
  · cases result with
    | wrote n =>
      simp only
      split
      · exact (record rfl).trans queueWriteComplete
      · exact record rfl
    | failed errno => exact record (beq_self_eq_true _)
  · exact refl c

theorem appendRemaining (rest : List Byte) : Writes result c (c.appendRemaining rest) := by
  have hbuffer : ∀ d : TcpConnection, Writes result d
      (let d' := d.setOutputBuffer (d.outputBuffer.append rest)
       if !d'.isWriting then d'.setInterest .enableWriting else d') := by
    intro d
    simp only
    split
    · exact (setOutputBuffer _).trans (setInterest _)
    · exact setOutputBuffer _
  unfold TcpConnection.appendRemaining
  refine Writes.trans ?_ (hbuffer _)
  split
  · exact queueInLoop rfl
  · exact refl c

/-- `sendInLoop` is a write path run after its call was recorded. -/
theorem sendInLoop (data : List Byte) (result : WriteResult) :
    Writes result (c.record (.sendInLoop data)) (c.sendInLoop data result) := by
  unfold TcpConnection.sendInLoop
  simp only
  split
  · exact refl _
  · split
    · exact (writeDirectly data result).trans (appendRemaining _)
    · exact writeDirectly data result

end Writes

/-- `handleWrite` drains the buffer of a connection that shuts down. -/
def Drains (c : TcpConnection) (result : WriteResult) : Prop :=
  c.isWriting = true ∧ c.state = .kDisconnecting ∧ 0 < c.outputBuffer.readableBytes ∧
    ∃ n, result = .wrote n ∧ writeCount n c.outputBuffer.readableBytes = c.outputBuffer.readableBytes

theorem writeCount_le (n len : Nat) : writeCount n len ≤ len := by
  unfold writeCount
  omega

/-- The count that `write` returns passes through the `int` of `retrieve` unchanged. -/
theorem toSize_writeCount (n len : Nat) : toSize (toInt (writeCount n len)) = writeCount n len := by
  have hle : writeCount n len ≤ intMax := by
    unfold writeCount intMax
    omega
  rw [toInt_of_le hle, toSize_ofNat (hle.trans_lt (by decide))]

/-- `handleWrite` writes, and shuts the socket down when that drained the buffer of a connection in
`kDisconnecting`. -/
theorem handleWrite_spec (c : TcpConnection) (result : WriteResult) :
    (¬ c.Drains result ∧ Writes result c (c.handleWrite result)) ∨
      c.Drains result ∧
        ∃ d, Writes result c d ∧ d.isWriting = false ∧ c.handleWrite result = d.record .shutdownWrite := by
  unfold handleWrite
  split
  · rename_i hw
    cases result with
    | failed errno =>
      refine Or.inl ⟨?_, Writes.record (beq_self_eq_true _)⟩
      rintro ⟨-, -, -, n, hn, -⟩
      cases hn
    | wrote n =>
      have hle := writeCount_le n c.outputBuffer.readableBytes
      have hsize := toSize_writeCount n c.outputBuffer.readableBytes
      have hdrains : c.Drains (.wrote n) ↔ c.state = .kDisconnecting ∧
          0 < c.outputBuffer.readableBytes ∧
          writeCount n c.outputBuffer.readableBytes = c.outputBuffer.readableBytes := by
        simp [Drains, hw]
      rw [hdrains]
      simp only
      generalize writeCount n c.outputBuffer.readableBytes = k at hle hsize ⊢
      have hwrites : Writes (.wrote n) c ((c.record (.write (c.outputBuffer.content.take k))).setOutputBuffer
          (c.outputBuffer.retrieve (toInt k))) := (Writes.record rfl).trans (Writes.setOutputBuffer _)
      split
      · rename_i hpos
        have hleft : (c.outputBuffer.retrieve (toInt k)).readableBytes = c.outputBuffer.readableBytes - k := by
          simp [ByteBuffer.readableBytes_eq, hsize]
        split
        · rename_i hempty
          simp only [record_outputBuffer, setOutputBuffer_outputBuffer, hleft, beq_iff_eq] at hempty
          have hdone := (hwrites.trans (Writes.setInterest .disableWriting)).trans Writes.queueWriteComplete
          split
          · rename_i hstate
            refine Or.inr ⟨⟨hdone.state.symm.trans hstate, by omega, by omega⟩, _, hdone, ?_, ?_⟩
            · rw [queueWriteComplete_isWriting, setInterest_isWriting]
              rfl
            · rw [shutdownInLoop, if_pos]
              · rfl
              · rw [queueWriteComplete_isWriting, setInterest_isWriting]
                rfl
          · rename_i hstate
            refine Or.inl ⟨fun h => hstate ?_, hdone⟩
            exact hdone.state.trans h.1
        · rename_i hmore
          simp only [record_outputBuffer, setOutputBuffer_outputBuffer, hleft, beq_iff_eq] at hmore
          exact Or.inl ⟨fun h => hmore (by omega), hwrites⟩
      · exact Or.inl ⟨fun h => by omega, Writes.record rfl⟩
  · rename_i hw
    exact Or.inl ⟨fun h => hw h.1, Writes.refl c⟩

theorem handleWrite_state (c : TcpConnection) (result : WriteResult) :
    (c.handleWrite result).state = c.state := by
  rcases handleWrite_spec c result with ⟨-, hwrites⟩ | ⟨-, d, hwrites, -, heq⟩
  · exact hwrites.state
  · rw [heq]
    exact hwrites.state

end TcpConnection

end Siren
