import Siren.Net.TcpConnection.Pair

/-!
# Rules over the member functions

What the member functions do to the output of a connection is done by two of them: bytes come into `outputBuffer_`
in `sendInLoop` and leave it there and in `handleWrite`, and these two queue the callbacks that tell users of it. All
others are made of a few parts that leave the output alone. A relation that holds over these parts holds over those
functions (`QuietRule`), and if it holds over the two it holds over all (`OutputRule`).
-/

namespace Siren.TcpConnection

open Channel (Handler InterestCall)

/-- The actions of the write path, with the call of `sendInLoop` that brings the message. -/
def Action.ofOutput : Action → Bool
  | .sendInLoop _ => true
  | .write _ => true
  | .writeFailed _ => true
  | .writeComplete => true
  | _ => false

/-! ### Away from the output -/

/-- A preorder that holds over the parts of the member functions that leave the output alone. -/
structure QuietRule (R : TcpConnection → TcpConnection → Prop) : Prop where
  refl : ∀ c, R c c
  trans : ∀ {c d e}, R c d → R d e → R c e
  record : ∀ c {a : Action}, a.ofOutput = false → R c (c.record a)
  queueInLoop : ∀ c {f : Functor}, f.isCallback = false → R c (c.queueInLoop f)
  setDisconnecting : ∀ c : TcpConnection, c.state ≠ .kDisconnected → R c (c.setState .kDisconnecting)
  close : ∀ c : TcpConnection, R c ((c.setState .kDisconnected).setInterest .disableAll)
  setReading : ∀ (c : TcpConnection) {call : InterestCall} (reading : Bool),
    call = .enableReading ∨ call = .disableReading → R c { c.setInterest call with reading }
  delay : ∀ (c : TcpConnection) delayedForceCloses, R c { c with delayedForceCloses }
  input : ∀ (c : TcpConnection) inputBuffer, R c { c with inputBuffer }

namespace QuietRule

variable {R : TcpConnection → TcpConnection → Prop} {c d : TcpConnection}

theorem shutdownInLoop (h : QuietRule R) (c : TcpConnection) : R c c.shutdownInLoop := by
  unfold TcpConnection.shutdownInLoop
  split
  · exact h.record c rfl
  · exact h.refl c

theorem startReadInLoop (h : QuietRule R) (c : TcpConnection) : R c c.startReadInLoop := by
  unfold TcpConnection.startReadInLoop
  split
  · exact h.setReading c true (Or.inl rfl)
  · exact h.refl c

theorem stopReadInLoop (h : QuietRule R) (c : TcpConnection) : R c c.stopReadInLoop := by
  unfold TcpConnection.stopReadInLoop
  split
  · exact h.setReading c true (Or.inr rfl)
  · exact h.refl c

theorem handleClose (h : QuietRule R) (hok : c.handleClose = .ok d) : R c d := by
  obtain ⟨-, hok⟩ := of_cassert_bind hok
  obtain rfl := Except.ok.inj hok
  have hdown := h.trans (h.close c) (h.record _ (a := .connectionDown) rfl)
  exact h.trans hdown (h.record _ rfl)

theorem handleRead (h : QuietRule R) {read : ReadResult} (hok : c.handleRead read = .ok d) : R c d := by
  have hinput : R c { c with inputBuffer := c.inputBuffer.readFd read } := h.input c _
  rcases handleRead_cases c read with ⟨bytes, rfl, -, heq⟩ | ⟨rfl, heq⟩ | ⟨rfl, heq⟩
  · obtain rfl := Except.ok.inj (heq.symm.trans hok)
    exact h.trans hinput (h.record _ rfl)
  · exact h.trans hinput (h.handleClose (heq.symm.trans hok))
  · obtain rfl := Except.ok.inj (heq.symm.trans hok)
    exact hinput

theorem forceCloseInLoop (h : QuietRule R) (hok : c.forceCloseInLoop = .ok d) : R c d := by
  unfold TcpConnection.forceCloseInLoop at hok
  split at hok
  · exact h.handleClose hok
  · exact Except.ok.inj hok ▸ h.refl c

theorem shutdown (h : QuietRule R) (c : TcpConnection) (thread : Thread) : R c (c.shutdown thread) := by
  unfold TcpConnection.shutdown
  split
  · rename_i hopen
    refine h.trans (h.setDisconnecting c (by simp [hopen])) ?_
    cases thread with
    | loop => exact h.shutdownInLoop _
    | other => exact h.queueInLoop _ rfl
  · exact h.refl c

theorem forceClose (h : QuietRule R) (c : TcpConnection) : R c c.forceClose := by
  unfold TcpConnection.forceClose
  split
  · rename_i hopen
    have hstate := h.setDisconnecting c (by rcases hopen with hopen | hopen <;> simp [hopen])
    exact h.trans hstate (h.queueInLoop _ rfl)
  · exact h.refl c

theorem forceCloseWithDelay (h : QuietRule R) (c : TcpConnection) : R c c.forceCloseWithDelay := by
  unfold TcpConnection.forceCloseWithDelay
  split
  · rename_i hopen
    have hstate := h.setDisconnecting c (by rcases hopen with hopen | hopen <;> simp [hopen])
    exact h.trans hstate (h.delay _ _)
  · exact h.refl c

theorem startRead (h : QuietRule R) (c : TcpConnection) (thread : Thread) : R c (c.startRead thread) := by
  cases thread with
  | loop => exact h.startReadInLoop c
  | other => exact h.queueInLoop c rfl

theorem stopRead (h : QuietRule R) (c : TcpConnection) (thread : Thread) : R c (c.stopRead thread) := by
  cases thread with
  | loop => exact h.stopReadInLoop c
  | other => exact h.queueInLoop c rfl

end QuietRule

/-! ### With the output -/

/-- One that holds over the two functions with the output as well. -/
structure OutputRule (R : TcpConnection → TcpConnection → Prop) : Prop extends QuietRule R where
  sendInLoop : ∀ (c : TcpConnection) data result, R c (c.sendInLoop data result)
  handleWrite : ∀ (c : TcpConnection) result, R c (c.handleWrite result)

namespace OutputRule

variable {R : TcpConnection → TcpConnection → Prop} {c d : TcpConnection}

theorem passOn (h : OutputRule R) (c : TcpConnection) (thread : Thread) (message passed : List Byte)
    (result : WriteResult) : R c (c.passOn thread message passed result) := by
  have haccept : R c (c.record (.accept message passed)) := h.record c rfl
  cases thread with
  | loop => exact h.trans haccept (h.sendInLoop _ passed result)
  | other => exact h.trans haccept (h.queueInLoop _ rfl)

theorem send (h : OutputRule R) (c : TcpConnection) (thread : Thread) (message : List Byte) (len : Int)
    (result : WriteResult) : R c (c.send thread message len result) := by
  unfold TcpConnection.send
  split
  · exact h.refl c
  · split
    · exact h.passOn ..
    · exact h.refl c

theorem call (h : OutputRule R) (c : TcpConnection) (thread : Thread) (result : WriteResult) (call : Call) :
    R c (c.call thread result call) := by
  cases call with
  | send message => exact h.send ..
  | sendString message =>
    show R c (c.send thread message (toInt message.length) result)
    exact h.send ..
  | sendBuffer message =>
    show R c (c.sendBuffer thread message result)
    unfold sendBuffer
    split
    · exact h.passOn ..
    · exact h.refl c
  | shutdown => exact h.shutdown c thread
  | forceClose => exact h.forceClose c
  | forceCloseWithDelay => exact h.forceCloseWithDelay c
  | startRead => exact h.startRead c thread
  | stopRead => exact h.stopRead c thread

theorem runFunctor (h : OutputRule R) {f : Functor} {result : WriteResult} (hok : c.runFunctor result f = .ok d) :
    R c d := by
  cases f with
  | sendInLoop message => exact Except.ok.inj hok ▸ h.sendInLoop c message result
  | shutdownInLoop => exact Except.ok.inj hok ▸ h.shutdownInLoop c
  | forceCloseInLoop => exact h.forceCloseInLoop hok
  | startReadInLoop => exact Except.ok.inj hok ▸ h.startReadInLoop c
  | stopReadInLoop => exact Except.ok.inj hok ▸ h.stopReadInLoop c
  | writeCompleteCallback => exact Except.ok.inj hok ▸ h.refl c
  | highWaterMarkCallback size => exact Except.ok.inj hok ▸ h.refl c

theorem runHandler (h : OutputRule R) {read : ReadResult} {write : WriteResult} {handler : Handler}
    (hok : Dispatch.runHandler c read write handler = .ok d) : R c d := by
  cases handler with
  | close => exact h.handleClose hok
  | error => exact Except.ok.inj hok ▸ h.refl c
  | read => exact h.handleRead hok
  | write => exact Except.ok.inj hok ▸ h.handleWrite c write

end OutputRule

end Siren.TcpConnection
