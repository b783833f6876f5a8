import Siren.Net.TcpConnection.WritePath

/-!
# Closing once

An established connection on its loop, until `connectDestroyed` starts. A poll may report the descriptor
while it is in the epoll set; the callbacks of one dispatch run one after the other, and between any two
steps the calls of users may come in, from callbacks or other threads.

`handleClose` asserts that the connection is still open. What can run it a second time, or read after it,
is a dispatch that goes on from the close callback to the read callback, and a descriptor that is in the
epoll set again after `disableAll`.

* `closed_once_iff`: no assertion fails, DOWN and the close callback come at most once and no message
  after them, exactly in the runs in which a closed connection is given neither a close event nor a read
  that does not fail (`QuietWhenClosed`); and the runs that keep to `Calm` are among these.
-/

namespace Siren.TcpConnection

open Channel (Handler handleEventWithGuard)

/-- A connection on its loop. -/
structure Dispatch where
  conn : TcpConnection
  /-- What is left of `handleEventWithGuard`. -/
  handlers : List Handler

inductive EventLabel where
  /-- A call of a user, on any thread. -/
  | request (thread : Thread) (call : Call) (result : WriteResult)
  /-- A timer of `forceCloseWithDelay` fires; the connection is still there. -/
  | delayedForceClose
  /-- The poller reports the descriptor. -/
  | poll (revents : Mask)
  /-- The next callback of the dispatch. -/
  | handle (read : ReadResult) (write : WriteResult)
  /-- `doPendingFunctors` swaps the functors out. -/
  | swap
  | runFunctor (result : WriteResult)

namespace Dispatch

/-- The next callback of the channel. -/
def runHandler (c : TcpConnection) (read : ReadResult) (write : WriteResult) :
    Handler → Except Assertion TcpConnection
  | .close => c.handleClose
  | .error => .ok c.handleError
  | .read => c.handleRead read
  | .write => .ok (c.handleWrite write)

/-- A step. A poll follows a finished dispatch and a finished batch of functors. -/
def step (s : Dispatch) : EventLabel → Option (Except Assertion Dispatch)
  | .request thread call result => some (.ok { s with conn := s.conn.call thread result call })
  | .delayedForceClose =>
    if 0 < s.conn.delayedForceCloses then
      let conn := { s.conn with delayedForceCloses := s.conn.delayedForceCloses - 1 }
      some (.ok { s with conn := conn.forceClose })
    else none
  | .poll revents =>
    if s.handlers = [] ∧ s.conn.functors = [] then
      (s.conn.channel.poll [((s.conn.channel.channel ()).fd, revents)]).map fun (channel, _) =>
        .ok ⟨{ s.conn with channel }, handleEventWithGuard (channel.channel ()).revents⟩
    else none
  | .handle read write =>
    match s.handlers with
    | [] => none
    | handler :: handlers => some ((runHandler s.conn read write handler).map fun conn => ⟨conn, handlers⟩)
  | .swap =>
    if s.handlers = [] ∧ s.conn.functors = [] then some (.ok { s with conn := s.conn.swapFunctors })
    else none
  | .runFunctor result =>
    if s.handlers = [] then
      match s.conn.functors with
      | [] => none
      | f :: functors =>
        some ((runFunctor { s.conn with functors } result f).map fun conn => { s with conn })
    else none

end Dispatch

/-- An established connection's loop, until an assertion fails. -/
def events : Machine (Except Assertion Dispatch) EventLabel := .ofExcept Dispatch.step

/-! ### What is owed -/

/-- DOWN is reported and the close callback invoked at most once, and no message comes after DOWN. -/
structure ClosedOnce (log : List Action) : Prop where
  downs : log.count .connectionDown ≤ 1
  closes : log.count .closeCallback ≤ 1
  silent : ∀ pre bytes, pre ++ [.messageCallback bytes] <+: log → .connectionDown ∉ pre

/-- A closed connection is given no close event, and its reads fail. -/
def QuietWhenClosed (s : Dispatch) : EventLabel → Prop
  | .handle read _ => s.conn.state = .kDisconnected →
      s.handlers.head? ≠ some .close ∧ (s.handlers.head? = some .read → read = .failed)
  | _ => True

/-- The channel is in the epoll set. -/
def isAdded (c : TcpConnection) : Prop := (c.channel.channel ()).index = kAdded

/-- What keeps closed connections quiet: no `POLLHUP` without `POLLIN` comes with `POLLPRI` or
`POLLRDHUP`; whatever closes the connection finds its channel in the epoll set; and `startRead` and
`stopRead` take effect only before the close. -/
def Calm (s : Dispatch) : EventLabel → Prop
  | .request thread call _ =>
    thread = .loop → call = .startRead ∨ call = .stopRead → s.conn.state ≠ .kDisconnected
  | .poll revents =>
    revents.has POLLHUP = true → revents.has POLLIN = false → revents.has (POLLPRI ||| POLLRDHUP) = false
  | .handle read _ => s.handlers.head? = some .close ∨ s.handlers.head? = some .read ∧ read = .read [] →
      isAdded s.conn
  | .runFunctor _ =>
    (s.conn.functors.head? = some .forceCloseInLoop → s.conn.state ≠ .kDisconnected → isAdded s.conn) ∧
      (s.conn.functors.head? = some .startReadInLoop ∨ s.conn.functors.head? = some .stopReadInLoop →
        s.conn.state ≠ .kDisconnected)
  | _ => True

/-! ### Steps that do not close -/

/-- The actions of closing and of reading a message. -/
def Action.ofClosing : Action → Bool
  | .connectionDown => true
  | .closeCallback => true
  | .messageCallback _ => true
  | _ => false

/-- A preorder that holds over the parts of which the member functions are made, up to a close, a message and what
is read. -/
structure MemberRule (R : TcpConnection → TcpConnection → Prop) : Prop where
  refl : ∀ c, R c c
  trans : ∀ {c d e}, R c d → R d e → R c e
  record : ∀ c {a : Action}, a.ofClosing = false → R c (c.record a)
  queueInLoop : ∀ c f, R c (c.queueInLoop f)
  setOutputBuffer : ∀ c b, R c (c.setOutputBuffer b)
  enableWriting : ∀ c : TcpConnection, R c (c.setInterest .enableWriting)
  disableWriting : ∀ c : TcpConnection, R c (c.setInterest .disableWriting)
  setState : ∀ c : TcpConnection, c.state = .kConnected ∨ c.state = .kDisconnecting →
    R c (c.setState .kDisconnecting)
  delay : ∀ (c : TcpConnection) n, R c { c with delayedForceCloses := n }

namespace MemberRule

variable {R : TcpConnection → TcpConnection → Prop} {c d : TcpConnection}

theorem queueWriteComplete (h : MemberRule R) (c : TcpConnection) : R c c.queueWriteComplete := by
  unfold TcpConnection.queueWriteComplete
  split
  · exact h.trans (h.record c rfl) (h.queueInLoop _ _)
  · exact h.refl c

theorem writeDirectly (h : MemberRule R) (data : List Byte) (result : WriteResult) :
    R c (c.writeDirectly data result).conn := by
  unfold TcpConnection.writeDirectly
  split
  · cases result with
    | failed errno => exact h.record c rfl
    | wrote n =>
      simp only
      split
      · exact h.trans (h.record c rfl) (h.queueWriteComplete _)
      · exact h.record c rfl
  · exact h.refl c

theorem appendRemaining (h : MemberRule R) (rest : List Byte) : R c (c.appendRemaining rest) := by
  have hbuffer : ∀ d : TcpConnection, R d
      (let d' := d.setOutputBuffer (d.outputBuffer.append rest)
       if !d'.isWriting then d'.setInterest .enableWriting else d') := by
    intro d
    simp only
    split
    · exact h.trans (h.setOutputBuffer d _) (h.enableWriting _)
    · exact h.setOutputBuffer d _
  unfold TcpConnection.appendRemaining
  refine h.trans ?_ (hbuffer _)
  split
  · exact h.queueInLoop c _
  · exact h.refl c

theorem sendInLoop (h : MemberRule R) (c : TcpConnection) (data : List Byte) (result : WriteResult) :
    R c (c.sendInLoop data result) := by
  refine h.trans (h.record c rfl) (?_ : R (c.record (.sendInLoop data)) _)
  unfold TcpConnection.sendInLoop
  simp only
  split
  · exact h.refl _
  · split
    · exact h.trans (h.writeDirectly data result) (h.appendRemaining _)
    · exact h.writeDirectly data result

theorem shutdownInLoop (h : MemberRule R) (c : TcpConnection) : R c c.shutdownInLoop := by
  unfold TcpConnection.shutdownInLoop
  split
  · exact h.record c rfl
  · exact h.refl c

theorem handleWrite (h : MemberRule R) (c : TcpConnection) (result : WriteResult) :
    R c (c.handleWrite result) := by
  unfold TcpConnection.handleWrite
  split
  · cases result with
    | failed errno => exact h.record c rfl
    | wrote n =>
      simp only
      generalize writeCount n c.outputBuffer.readableBytes = k
      have hretrieve : R c ((c.record (.write (c.outputBuffer.content.take k))).setOutputBuffer
          (c.outputBuffer.retrieve (toInt k))) := h.trans (h.record c rfl) (h.setOutputBuffer _ _)
      split
      · split
        · have hdone := h.trans (h.trans hretrieve (h.disableWriting _)) (h.queueWriteComplete _)
          split
          · exact h.trans hdone (h.shutdownInLoop _)
          · exact hdone
        · exact hretrieve
      · exact h.record c rfl
  · exact h.refl c

theorem passOn (h : MemberRule R) (thread : Thread) (message passed : List Byte) (result : WriteResult) :
    R c (c.passOn thread message passed result) := by
  have haccept : R c (c.record (.accept message passed)) := h.record c rfl
  cases thread with
  | loop => exact h.trans haccept (h.sendInLoop _ passed result)
  | other => exact h.trans haccept (h.queueInLoop _ _)

theorem send (h : MemberRule R) (thread : Thread) (message : List Byte) (len : Int) (result : WriteResult) :
    R c (c.send thread message len result) := by
  unfold TcpConnection.send
  split
  · exact h.refl c
  · split
    · exact h.passOn ..
    · exact h.refl c

theorem forceClose (h : MemberRule R) (c : TcpConnection) : R c c.forceClose := by
  unfold TcpConnection.forceClose
  split
  · rename_i hopen
    exact h.trans (h.setState c hopen) (h.queueInLoop _ _)
  · exact h.refl c

/-- A call, where `R` holds over `startReadInLoop` and `stopReadInLoop` if it runs them. -/
theorem call (h : MemberRule R) (thread : Thread) (result : WriteResult) (call : Call)
    (hstart : thread = .loop → call = .startRead → R c c.startReadInLoop)
    (hstop : thread = .loop → call = .stopRead → R c c.stopReadInLoop) : R c (c.call thread result call) := by
  cases call with
  | send message => exact h.send ..
  | sendString message =>
    show R c (c.send thread message (toInt message.length) result)
    exact h.send ..
  | sendBuffer message =>
    show R c (c.sendBuffer thread message result)
    unfold sendBuffer
    split
    · exact h.passOn ..
    · exact h.refl c
  | shutdown =>
    show R c (c.shutdown thread)
    unfold shutdown
    split
    · rename_i hopen
      refine h.trans (h.setState c (Or.inl hopen)) ?_
      cases thread with
      | loop => exact h.shutdownInLoop _
      | other => exact h.queueInLoop _ _
    · exact h.refl c
  | forceClose => exact h.forceClose c
  | forceCloseWithDelay =>
    show R c c.forceCloseWithDelay
    unfold forceCloseWithDelay
    split
    · rename_i hopen
      exact h.trans (h.setState c hopen) (h.delay _ _)
    · exact h.refl c
  | startRead =>
    cases thread with
    | loop => exact hstart rfl rfl
    | other => exact h.queueInLoop c _
  | stopRead =>
    cases thread with
    | loop => exact hstop rfl rfl
    | other => exact h.queueInLoop c _

/-- A functor that does not close, in the same way. -/
theorem runFunctor (h : MemberRule R) {f : Functor} {result : WriteResult} (hf : f ≠ .forceCloseInLoop)
    (hstart : f = .startReadInLoop → R c c.startReadInLoop)
    (hstop : f = .stopReadInLoop → R c c.stopReadInLoop) (hok : c.runFunctor result f = .ok d) : R c d := by
  cases f with
  | sendInLoop message =>
    obtain rfl := Except.ok.inj hok
    exact h.sendInLoop c message result
  | shutdownInLoop =>
    obtain rfl := Except.ok.inj hok
    exact h.shutdownInLoop c
  | forceCloseInLoop => exact absurd rfl hf
  | startReadInLoop =>
    obtain rfl := Except.ok.inj hok
    exact hstart rfl
  | stopReadInLoop =>
    obtain rfl := Except.ok.inj hok
    exact hstop rfl
  | writeCompleteCallback => exact Except.ok.inj hok ▸ h.refl c
  | highWaterMarkCallback size => exact Except.ok.inj hok ▸ h.refl c

end MemberRule

/-- `d` comes from `c` without closing and without a message. -/
structure Keeps (c d : TcpConnection) : Prop where
  closed : d.state = .kDisconnected ↔ c.state = .kDisconnected
  connecting : d.state = .kConnecting → c.state = .kConnecting
  log : Grew (fun a => !a.ofClosing) c.log d.log

namespace Keeps

variable {c d e : TcpConnection}

theorem refl (c : TcpConnection) : Keeps c c := ⟨Iff.rfl, id, .refl _⟩

theorem trans (h : Keeps c d) (h' : Keeps d e) : Keeps c e :=
  ⟨h'.closed.trans h.closed, fun he => h.connecting (h'.connecting he), h.log.trans h'.log⟩

/-- What keeps the state and records nothing of closing. -/
theorem of_state (hstate : d.state = c.state) (hlog : Grew (fun a => !a.ofClosing) c.log d.log) :
    Keeps c d :=
  ⟨by rw [hstate], by rw [hstate]; exact id, hlog⟩

/-- Actions of closing are not among the newer ones. -/
theorem not_mem (h : Keeps c d) {a : Action} (ha : a.ofClosing = true) :
    ∃ more, d.log = c.log ++ more ∧ a ∉ more := by
  obtain ⟨more, hmore, hkind⟩ := h.log
  refine ⟨more, hmore, fun hmem => ?_⟩
  have hno := hkind a hmem
  simp [ha] at hno

theorem count_eq (h : Keeps c d) {a : Action} (ha : a.ofClosing = true) : d.log.count a = c.log.count a := by
  obtain ⟨more, hmore, hout⟩ := h.not_mem ha
  rw [hmore, List.count_append, List.count_eq_zero_of_not_mem hout, add_zero]

/-- `setState(kDisconnecting)` on an open connection. -/
theorem setState (h : c.state = .kConnected ∨ c.state = .kDisconnecting) :
    Keeps c (c.setState .kDisconnecting) where
  closed := by rcases h with h | h <;> simp [h]
  connecting he := by cases he
  log := .refl _

theorem rule : MemberRule Keeps where
  refl := refl
  trans := trans
  record _ _ ha := of_state rfl (.concat (by simp [ha]))
  queueInLoop _ _ := of_state rfl (.refl _)
  setOutputBuffer _ _ := of_state rfl (.refl _)
  enableWriting _ := of_state rfl (.refl _)
  disableWriting _ := of_state rfl (.refl _)
  setState _ := setState
  delay _ _ := of_state rfl (.refl _)

theorem startReadInLoop (c : TcpConnection) : Keeps c c.startReadInLoop := by
  unfold TcpConnection.startReadInLoop
  split
  · exact of_state rfl (.refl _)
  · exact refl c

theorem stopReadInLoop (c : TcpConnection) : Keeps c c.stopReadInLoop := by
  unfold TcpConnection.stopReadInLoop
  split
  · exact of_state rfl (.refl _)
  · exact refl c

theorem call (thread : Thread) (result : WriteResult) (call : Call) : Keeps c (c.call thread result call) :=
  rule.call thread result call (fun _ _ => startReadInLoop c) (fun _ _ => stopReadInLoop c)

/-- Only `forceCloseInLoop` closes. -/
theorem runFunctor {f : Functor} {result : WriteResult} (hf : f ≠ .forceCloseInLoop)
    (hok : c.runFunctor result f = .ok d) : Keeps c d :=
  rule.runFunctor hf (fun _ => startReadInLoop c) (fun _ => stopReadInLoop c) hok

end Keeps

/-! ### Steps that close -/

variable {c d : TcpConnection}

theorem handleClose_of_closed (h : c.state = .kDisconnected) : c.handleClose = .error .handleClose := by
  have hnot : ¬ (c.state = .kDisconnecting ∨ c.state = .kConnected) := by simp [h]
  rw [handleClose, cassert_of_not hnot]
  rfl

/-- What `handleClose` does to an open connection. -/
theorem handleClose_of_open (h : c.state = .kDisconnecting ∨ c.state = .kConnected) :
    ∃ d, c.handleClose = .ok d ∧ d.state = .kDisconnected ∧
      d.log = c.log ++ [.connectionDown] ++ [.closeCallback] ∧
      d.channel.channel () = Registry.afterInterest .disableAll (c.channel.channel ()) := by
  refine ⟨(((c.setState .kDisconnected).setInterest .disableAll).record .connectionDown).record
    .closeCallback, ?_, rfl, rfl, setInterest_channel _⟩
  rw [handleClose, cassert_of h]
  rfl

/-- A read is a message, a close or nothing. -/
theorem handleRead_cases (c : TcpConnection) (read : ReadResult) :
    (∃ bytes, read = .read bytes ∧ bytes ≠ [] ∧
      c.handleRead read = .ok (record { c with inputBuffer := c.inputBuffer.readFd read }
        (.messageCallback (c.inputBuffer.readFd read).content))) ∨
    (read = .read [] ∧
      c.handleRead read = handleClose { c with inputBuffer := c.inputBuffer.readFd read }) ∨
    (read = .failed ∧ c.handleRead read = .ok { c with inputBuffer := c.inputBuffer.readFd read }) := by
  cases read with
  | failed => exact Or.inr (Or.inr ⟨rfl, rfl⟩)
  | read bytes =>
    cases bytes with
    | nil => exact Or.inr (Or.inl ⟨rfl, rfl⟩)
    | cons b bytes =>
      refine Or.inl ⟨b :: bytes, rfl, by simp, ?_⟩
      rw [handleRead, if_pos (by simp [ReadResult.count])]

/-! ### The invariant of quiet runs -/

/-- The log tells whether the connection was closed. -/
structure ClosedLog (c : TcpConnection) : Prop where
  established : c.state ≠ .kConnecting
  downs : c.log.count .connectionDown = if c.state = .kDisconnected then 1 else 0
  closes : c.log.count .closeCallback = if c.state = .kDisconnected then 1 else 0
  silent : ∀ pre bytes, pre ++ [.messageCallback bytes] <+: c.log → .connectionDown ∉ pre

theorem ClosedLog.closedOnce (h : ClosedLog c) : ClosedOnce c.log where
  downs := by
    rw [h.downs]
    split <;> omega
  closes := by
    rw [h.closes]
    split <;> omega
  silent := h.silent

/-- An action that is not among the newer ones was followed by the same ones before. -/
theorem prefix_of_not_mem {α : Type*} {pre l more : List α} {a : α} (h : pre ++ [a] <+: l ++ more)
    (ha : a ∉ more) : pre ++ [a] <+: l := by
  induction more using List.reverseRecOn with
  | nil => simpa using h
  | append_singleton more b ih =>
    rw [List.mem_append, List.mem_singleton, not_or] at ha
    rw [← List.append_assoc] at h
    rcases List.prefix_concat_iff.mp h with heq | h
    · exact absurd (List.singleton_inj.mp (List.append_inj' heq rfl).2) ha.2
    · exact ih h ha.1

theorem ClosedLog.keeps (h : ClosedLog c) (hk : Keeps c d) : ClosedLog d := by
  refine ⟨fun he => h.established (hk.connecting he), ?_, ?_, ?_⟩
  · rw [hk.count_eq rfl, h.downs]
    simp only [hk.closed]
  · rw [hk.count_eq rfl, h.closes]
    simp only [hk.closed]
  · intro pre bytes hpre
    obtain ⟨more, hmore, hout⟩ := hk.not_mem (a := .messageCallback bytes) rfl
    rw [hmore] at hpre
    exact h.silent pre bytes (prefix_of_not_mem hpre hout)

theorem ClosedLog.open (h : ClosedLog c) (hopen : c.state ≠ .kDisconnected) :
    c.state = .kDisconnecting ∨ c.state = .kConnected := by
  have hestablished := h.established
  cases hstate : c.state <;> simp_all

theorem ClosedLog.not_mem_down (h : ClosedLog c) (hopen : c.state ≠ .kDisconnected) :
    .connectionDown ∉ c.log := by
  have hdowns := h.downs
  rw [if_neg hopen] at hdowns
  exact List.count_eq_zero.mp hdowns

/-- `handleClose` of an open connection. -/
theorem ClosedLog.handleClose (h : ClosedLog c) (hopen : c.state ≠ .kDisconnected)
    (hclose : c.handleClose = .ok d) : ClosedLog d := by
  obtain ⟨e, heq, hstate, hlog, -⟩ := handleClose_of_open (h.open hopen)
  obtain rfl := Except.ok.inj (heq.symm.trans hclose)
  have hdowns := h.downs
  have hcloses := h.closes
  rw [if_neg hopen] at hdowns hcloses
  refine ⟨by simp [hstate], ?_, ?_, ?_⟩
  · simp [hlog, hstate, hdowns]
  · simp [hlog, hstate, hcloses]
  · intro pre bytes hpre
    rw [hlog, List.append_assoc] at hpre
    exact h.silent pre bytes (prefix_of_not_mem hpre (by simp))

/-- A message on an open connection. -/
theorem ClosedLog.message (h : ClosedLog c) (hopen : c.state ≠ .kDisconnected) (bytes : List Byte) :
    ClosedLog (c.record (.messageCallback bytes)) := by
  have hdowns : (c.log ++ [Action.messageCallback bytes]).count Action.connectionDown =
      c.log.count Action.connectionDown := by simp
  have hcloses : (c.log ++ [Action.messageCallback bytes]).count Action.closeCallback =
      c.log.count Action.closeCallback := by simp
  refine ⟨h.established, hdowns.trans h.downs, hcloses.trans h.closes, ?_⟩
  · intro pre bytes' hpre
    rcases List.prefix_concat_iff.mp hpre with heq | hpre
    · rw [(List.append_inj' heq rfl).1]
      exact h.not_mem_down hopen
    · exact h.silent pre bytes' hpre

/-- The callbacks of a dispatch, on a connection that is open or kept quiet. -/
theorem ClosedLog.runHandler (h : ClosedLog c) (read : ReadResult) (write : WriteResult)
    (handler : Handler)
    (hquiet : c.state = .kDisconnected → handler ≠ .close ∧ (handler = .read → read = .failed)) :
    ∃ d, Dispatch.runHandler c read write handler = .ok d ∧ ClosedLog d := by
  cases handler with
  | error => exact ⟨c, rfl, h⟩
  | write => exact ⟨_, rfl, h.keeps (Keeps.rule.handleWrite c write)⟩
  | close =>
    have hopen : c.state ≠ .kDisconnected := fun hclosed => (hquiet hclosed).1 rfl
    obtain ⟨d, hd, -⟩ := handleClose_of_open (h.open hopen)
    exact ⟨d, hd, h.handleClose hopen hd⟩
  | read =>
    have hread : ClosedLog { c with inputBuffer := c.inputBuffer.readFd read } :=
      h.keeps (Keeps.of_state rfl (.refl _))
    rcases handleRead_cases c read with ⟨bytes, rfl, -, heq⟩ | ⟨rfl, heq⟩ | ⟨rfl, heq⟩
    · have hopen : c.state ≠ .kDisconnected := fun hclosed => by cases (hquiet hclosed).2 rfl
      exact ⟨_, heq, hread.message hopen _⟩
    · have hopen : c.state ≠ .kDisconnected := fun hclosed => by cases (hquiet hclosed).2 rfl
      obtain ⟨d, hd, -⟩ := handleClose_of_open (hread.open hopen)
      exact ⟨d, heq.trans hd, hread.handleClose hopen hd⟩
    · exact ⟨_, heq, hread⟩

theorem ClosedLog.runFunctor (h : ClosedLog c) (f : Functor) (result : WriteResult) :
    ∃ d, c.runFunctor result f = .ok d ∧ ClosedLog d := by
  cases f with
  | sendInLoop message => exact ⟨_, rfl, h.keeps (Keeps.rule.sendInLoop c message result)⟩
  | shutdownInLoop => exact ⟨_, rfl, h.keeps (Keeps.rule.shutdownInLoop c)⟩
  | startReadInLoop => exact ⟨_, rfl, h.keeps (Keeps.startReadInLoop c)⟩
  | stopReadInLoop => exact ⟨_, rfl, h.keeps (Keeps.stopReadInLoop c)⟩
  | writeCompleteCallback => exact ⟨c, rfl, h⟩
  | highWaterMarkCallback size => exact ⟨c, rfl, h⟩
  | forceCloseInLoop =>
    show ∃ d, c.forceCloseInLoop = .ok d ∧ ClosedLog d
    unfold forceCloseInLoop
    split
    · rename_i hopen
      obtain ⟨d, hd, -⟩ := handleClose_of_open hopen.symm
      exact ⟨d, hd, h.handleClose (by rcases hopen with h | h <;> simp [h]) hd⟩
    · exact ⟨c, rfl, h⟩

/-- A step that keeps a closed connection quiet. -/
theorem ClosedLog.step {s : Dispatch} {a : EventLabel} {r : Except Assertion Dispatch}
    (h : ClosedLog s.conn) (ha : QuietWhenClosed s a) (hstep : s.step a = some r) :
    ∃ t, r = .ok t ∧ ClosedLog t.conn := by
  cases a with
  | request thread call result =>
    exact ⟨_, (Option.some.inj hstep).symm, h.keeps (Keeps.call thread result call)⟩
  | delayedForceClose =>
    rw [Dispatch.step, Option.ite_none_right_eq_some] at hstep
    refine ⟨_, (Option.some.inj hstep.2).symm, ?_⟩
    have hless : ClosedLog { s.conn with delayedForceCloses := s.conn.delayedForceCloses - 1 } :=
      h.keeps (Keeps.of_state rfl (.refl _))
    exact hless.keeps (Keeps.rule.forceClose _)
  | poll revents =>
    rw [Dispatch.step, Option.ite_none_right_eq_some] at hstep
    obtain ⟨⟨channel, active⟩, -, heq⟩ := Option.map_eq_some_iff.mp hstep.2
    exact ⟨_, heq.symm, h.keeps (Keeps.of_state rfl (.refl _))⟩
  | handle read write =>
    simp only [Dispatch.step] at hstep
    split at hstep
    · cases hstep
    · rename_i handler handlers hhandlers
      obtain ⟨d, hd, hclosed⟩ := h.runHandler read write handler (by
        intro hdis
        simpa [hhandlers] using ha hdis)
      rw [hd] at hstep
      exact ⟨_, (Option.some.inj hstep).symm, hclosed⟩
  | swap =>
    rw [Dispatch.step, Option.ite_none_right_eq_some] at hstep
    exact ⟨_, (Option.some.inj hstep.2).symm, h.keeps (Keeps.of_state rfl (.refl _))⟩
  | runFunctor result =>
    rw [Dispatch.step, Option.ite_none_right_eq_some] at hstep
    obtain ⟨-, hstep⟩ := hstep
    split at hstep
    · cases hstep
    · rename_i f functors hfunctors
      have hpop : ClosedLog { s.conn with functors } := h.keeps (Keeps.of_state rfl (.refl _))
      obtain ⟨d, hd, hclosed⟩ := hpop.runFunctor f result
      rw [hd] at hstep
      exact ⟨_, (Option.some.inj hstep).symm, hclosed⟩

/-- A close event or a read on a closed connection: the assertion fails, or a message comes after DOWN. -/
theorem ClosedLog.not_closedOnce {s : Dispatch} {a : EventLabel} {r : Except Assertion Dispatch}
    (h : ClosedLog s.conn) (ha : ¬ QuietWhenClosed s a) (hstep : s.step a = some r) :
    ¬ Machine.Holds (fun t => ClosedOnce t.conn.log) r := by
  cases a with
  | handle read write =>
    obtain ⟨hclosed, hloud⟩ := Classical.not_imp.mp ha
    simp only [Dispatch.step] at hstep
    split at hstep
    · cases hstep
    · rename_i handler handlers hhandlers
      obtain rfl := Option.some.inj hstep
      have hmessage : .connectionDown ∈ s.conn.log := by
        have hdowns := h.downs
        rw [if_pos hclosed] at hdowns
        exact List.count_pos_iff.mp (by omega)
      rw [hhandlers] at hloud
      cases handler with
      | error => simp at hloud
      | write => simp at hloud
      | close =>
        show ¬ Machine.Holds _ (s.conn.handleClose.map fun conn => (⟨conn, handlers⟩ : Dispatch))
        rw [handleClose_of_closed hclosed]
        exact Machine.holds_error
      | read =>
        show ¬ Machine.Holds _ ((s.conn.handleRead read).map fun conn => (⟨conn, handlers⟩ : Dispatch))
        rcases handleRead_cases s.conn read with ⟨bytes, -, -, heq⟩ | ⟨-, heq⟩ | ⟨rfl, -⟩
        · rw [heq]
          exact fun hholds => hholds.silent s.conn.log _ List.prefix_rfl hmessage
        · have hfail : TcpConnection.handleClose { s.conn with inputBuffer := s.conn.inputBuffer.readFd read } = _ :=
            handleClose_of_closed hclosed
          rw [heq, hfail]
          exact Machine.holds_error
        · simp at hloud
  | _ => exact absurd trivial ha

/-! ### Calm runs are quiet -/

/-- The callbacks that may close the connection or read a message. -/
def mayClose : Handler → Bool
  | .close => true
  | .read => true
  | _ => false

/-- A closed connection whose channel is out of the epoll set and not writing. -/
structure Shut (c : TcpConnection) : Prop where
  closed : c.state = .kDisconnected
  removed : ¬ isAdded c
  idle : c.isWriting = false

theorem Shut.congr (h : Shut c) (hstate : d.state = c.state) (hchannel : d.channel = c.channel) : Shut d where
  closed := hstate.trans h.closed
  removed := by
    rw [isAdded, hchannel]
    exact h.removed
  idle := by
    rw [isWriting, hchannel]
    exact h.idle

/-- `disableAll` takes a channel out of the epoll set that is in it. -/
theorem shut_of_handleClose (hopen : c.state = .kDisconnecting ∨ c.state = .kConnected) (hadded : isAdded c)
    (hclose : c.handleClose = .ok d) : Shut d := by
  obtain ⟨e, heq, hstate, -, hchannel⟩ := handleClose_of_open hopen
  obtain rfl := Except.ok.inj (heq.symm.trans hclose)
  rw [isAdded] at hadded
  refine ⟨hstate, ?_, ?_⟩
  · rw [isAdded, hchannel]
    simp [Registry.afterInterest, Registry.indexAfter, hadded, Channel.InterestCall.mask, kDeleted, kAdded]
  · rw [isWriting, hchannel]
    exact Channel.InterestCall.has_write_mask .disableAll (c.channel.channel ()).events

theorem Shut.sendInLoop (h : Shut c) (data : List Byte) (result : WriteResult) :
    Shut (c.sendInLoop data result) := by
  have hsame : c.sendInLoop data result = c.record (.sendInLoop data) := by
    simp [TcpConnection.sendInLoop, h.closed]
  rw [hsame]
  exact h.congr rfl rfl

theorem Shut.call (h : Shut c) {thread : Thread} {call : Call} {result : WriteResult}
    (hcalm : thread = .loop → call = .startRead ∨ call = .stopRead → c.state ≠ .kDisconnected) :
    Shut (c.call thread result call) := by
  have hclosed := h.closed
  cases call with
  | send message => simpa [TcpConnection.call, send, hclosed] using h
  | sendString message => simpa [TcpConnection.call, sendString, send, hclosed] using h
  | sendBuffer message => simpa [TcpConnection.call, sendBuffer, hclosed] using h
  | shutdown => simpa [TcpConnection.call, shutdown, hclosed] using h
  | forceClose => simpa [TcpConnection.call, forceClose, hclosed] using h
  | forceCloseWithDelay => simpa [TcpConnection.call, forceCloseWithDelay, hclosed] using h
  | startRead =>
    cases thread with
    | loop => exact absurd hclosed (hcalm rfl (Or.inl rfl))
    | other => exact h.congr rfl rfl
  | stopRead =>
    cases thread with
    | loop => exact absurd hclosed (hcalm rfl (Or.inr rfl))
    | other => exact h.congr rfl rfl

/-- What holds in calm runs: a closed connection is shut and nothing that may close it is left, and a
dispatch never holds both the close and the read callback. -/
structure CalmInv (s : Dispatch) : Prop where
  log : ClosedLog s.conn
  shut : s.conn.state = .kDisconnected → Shut s.conn ∧ ∀ handler ∈ s.handlers, mayClose handler = false
  single : (s.handlers.filter mayClose).length ≤ 1

theorem CalmInv.quiet {s : Dispatch} (h : CalmInv s) (a : EventLabel) : QuietWhenClosed s a := by
  cases a with
  | handle read write =>
    intro hclosed
    have hnone := (h.shut hclosed).2
    cases hhandlers : s.handlers with
    | nil => simp
    | cons handler handlers =>
      have hhead := hnone handler (hhandlers ▸ List.mem_cons_self)
      cases handler with
      | close => cases hhead
      | read => cases hhead
      | error => simp
      | write => simp
  | _ => trivial

/-- Without `POLLPRI` and `POLLRDHUP`, `POLLHUP` calls one of the close and the read callback. -/
theorem single_handleEventWithGuard {revents : Mask}
    (hcalm : revents.has POLLHUP = true → revents.has POLLIN = false →
      revents.has (POLLPRI ||| POLLRDHUP) = false) :
    ((handleEventWithGuard revents).filter mayClose).length ≤ 1 := by
  have hread : revents.has (POLLIN ||| POLLPRI ||| POLLRDHUP) =
      (revents.has POLLIN || revents.has (POLLPRI ||| POLLRDHUP)) := by
    rw [Mask.has_or, Mask.has_or, Mask.has_or, Bool.or_assoc]
  rw [handleEventWithGuard, hread]
  revert hcalm
  cases revents.has POLLHUP <;> cases revents.has POLLIN <;> cases revents.has (POLLPRI ||| POLLRDHUP) <;>
    cases revents.has (POLLERR ||| POLLNVAL) <;> cases revents.has POLLOUT <;> decide

/-- A callback of a dispatch on a closed connection that is shut. -/
theorem Shut.runHandler (h : Shut c) {read : ReadResult} {write : WriteResult} {handler : Handler}
    (hhandler : mayClose handler = false)
    (hrun : Dispatch.runHandler c read write handler = .ok d) : Shut d := by
  cases handler with
  | close => cases hhandler
  | read => cases hhandler
  | error =>
    obtain rfl := Except.ok.inj hrun
    exact h
  | write =>
    obtain rfl := Except.ok.inj hrun
    simpa [handleWrite, h.idle] using h

/-- A callback that closes the connection, when that finds its channel in the epoll set. -/
theorem ClosedLog.shut_of_runHandler (h : ClosedLog c) {read : ReadResult} {write : WriteResult}
    {handler : Handler} (hopen : c.state ≠ .kDisconnected)
    (hcalm : handler = .close ∨ handler = .read ∧ read = .read [] → isAdded c)
    (hrun : Dispatch.runHandler c read write handler = .ok d) (hclosed : d.state = .kDisconnected) :
    mayClose handler = true ∧ Shut d := by
  cases handler with
  | error =>
    obtain rfl := Except.ok.inj hrun
    exact absurd hclosed hopen
  | write =>
    obtain rfl := Except.ok.inj hrun
    exact absurd ((Keeps.rule.handleWrite c write).closed.mp hclosed) hopen
  | close => exact ⟨rfl, shut_of_handleClose (h.open hopen) (hcalm (Or.inl rfl)) hrun⟩
  | read =>
    rcases handleRead_cases c read with ⟨bytes, -, -, heq⟩ | ⟨rfl, heq⟩ | ⟨-, heq⟩
    · obtain rfl := Except.ok.inj (heq.symm.trans hrun)
      exact absurd hclosed hopen
    · have hadded : isAdded c := hcalm (Or.inr ⟨rfl, rfl⟩)
      exact ⟨rfl, shut_of_handleClose (c := { c with inputBuffer := c.inputBuffer.readFd (.read []) })
        (h.open hopen) hadded (heq.symm.trans hrun)⟩
    · obtain rfl := Except.ok.inj (heq.symm.trans hrun)
      exact absurd hclosed hopen

/-- Running a functor leaves a closed connection shut. -/
theorem ClosedLog.shut_of_runFunctor (h : ClosedLog c) {f : Functor} {result : WriteResult}
    (hshut : c.state = .kDisconnected → Shut c)
    (hclose : f = .forceCloseInLoop → c.state ≠ .kDisconnected → isAdded c)
    (hread : f = .startReadInLoop ∨ f = .stopReadInLoop → c.state ≠ .kDisconnected)
    (hrun : c.runFunctor result f = .ok d) (hclosed : d.state = .kDisconnected) : Shut d := by
  by_cases hopen : c.state = .kDisconnected
  · have hc := hshut hopen
    cases f with
    | sendInLoop message =>
      obtain rfl := Except.ok.inj hrun
      exact hc.sendInLoop message result
    | shutdownInLoop =>
      obtain rfl := Except.ok.inj hrun
      simpa [TcpConnection.shutdownInLoop, hc.idle] using hc.congr (d := c.record .shutdownWrite) rfl rfl
    | forceCloseInLoop =>
      have hsame : c.forceCloseInLoop = .ok c := by simp [forceCloseInLoop, hopen]
      obtain rfl := Except.ok.inj (hsame.symm.trans hrun)
      exact hc
    | startReadInLoop => exact absurd hopen (hread (Or.inl rfl))
    | stopReadInLoop => exact absurd hopen (hread (Or.inr rfl))
    | writeCompleteCallback =>
      obtain rfl := Except.ok.inj hrun
      exact hc
    | highWaterMarkCallback size =>
      obtain rfl := Except.ok.inj hrun
      exact hc
  · have hforce : f = .forceCloseInLoop := by
      by_contra hf
      exact hopen ((Keeps.runFunctor hf hrun).closed.mp hclosed)
    subst hforce
    have hclosing : c.forceCloseInLoop = c.handleClose := if_pos (h.open hopen).symm
    exact shut_of_handleClose (h.open hopen) (hclose rfl hopen) (hclosing.symm.trans hrun)

/-- A callback of a dispatch in a calm run. -/
theorem CalmInv.handle {s : Dispatch} {handler : Handler} {handlers : List Handler} (h : CalmInv s)
    (hhandlers : s.handlers = handler :: handlers) {read : ReadResult} {write : WriteResult}
    (hcalm : handler = .close ∨ handler = .read ∧ read = .read [] → isAdded s.conn)
    (hd : Dispatch.runHandler s.conn read write handler = .ok d) (hlog : ClosedLog d) :
    CalmInv ⟨d, handlers⟩ := by
  have hsingle := h.single
  rw [hhandlers, List.filter_cons] at hsingle
  refine ⟨hlog, fun hclosed => ?_, ?_⟩
  · by_cases hopen : s.conn.state = .kDisconnected
    · obtain ⟨hshut, hnone⟩ := h.shut hopen
      rw [hhandlers] at hnone
      exact ⟨hshut.runHandler (hnone handler List.mem_cons_self) hd,
        fun x hx => hnone x (List.mem_cons_of_mem _ hx)⟩
    · -- the connection is closed by this callback, the one that may
      obtain ⟨hmay, hshut⟩ := h.log.shut_of_runHandler hopen hcalm hd hclosed
      rw [if_pos hmay, List.length_cons] at hsingle
      have hnil : handlers.filter mayClose = [] := List.length_eq_zero_iff.mp (by omega)
      exact ⟨hshut, fun x hx => by simpa using List.filter_eq_nil_iff.mp hnil x hx⟩
  · show (handlers.filter mayClose).length ≤ 1
    split at hsingle
    · rw [List.length_cons] at hsingle
      omega
    · exact hsingle

/-- A functor in a calm run. -/
theorem CalmInv.runFunctor {s : Dispatch} {f : Functor} {functors : List Functor} (h : CalmInv s)
    (hhandlers : s.handlers = []) {result : WriteResult}
    (hforce : f = .forceCloseInLoop → s.conn.state ≠ .kDisconnected → isAdded s.conn)
    (hread : f = .startReadInLoop ∨ f = .stopReadInLoop → s.conn.state ≠ .kDisconnected)
    (hd : TcpConnection.runFunctor { s.conn with functors } result f = .ok d) (hlog : ClosedLog d) :
    CalmInv { s with conn := d } := by
  have hpop : ClosedLog { s.conn with functors } := h.log.keeps (Keeps.of_state rfl (.refl _))
  refine ⟨hlog, fun hclosed => ⟨?_, by simp [hhandlers]⟩, h.single⟩
  exact hpop.shut_of_runFunctor (fun hbefore => (h.shut hbefore).1.congr rfl rfl) hforce hread hd hclosed

theorem CalmInv.step {s t : Dispatch} {a : EventLabel} (h : CalmInv s) (ha : Calm s a)
    (hstep : s.step a = some (.ok t)) : CalmInv t := by
  have hlog : ClosedLog t.conn := by
    obtain ⟨t', ht', hlog⟩ := h.log.step (h.quiet a) hstep
    obtain rfl := Except.ok.inj ht'
    exact hlog
  cases a with
  | request thread call result =>
    obtain rfl := Except.ok.inj (Option.some.inj hstep)
    refine ⟨hlog, fun hclosed => ?_, h.single⟩
    obtain ⟨hshut, hnone⟩ := h.shut ((Keeps.call thread result call).closed.mp hclosed)
    exact ⟨hshut.call ha, hnone⟩
  | delayedForceClose =>
    rw [Dispatch.step, Option.ite_none_right_eq_some] at hstep
    obtain rfl := Except.ok.inj (Option.some.inj hstep.2)
    refine ⟨hlog, fun hclosed => ?_, h.single⟩
    have hbefore : s.conn.state = .kDisconnected := (Keeps.rule.forceClose
      { s.conn with delayedForceCloses := s.conn.delayedForceCloses - 1 }).closed.mp hclosed
    obtain ⟨hshut, hnone⟩ := h.shut hbefore
    refine ⟨?_, hnone⟩
    have hless : Shut { s.conn with delayedForceCloses := s.conn.delayedForceCloses - 1 } :=
      hshut.congr rfl rfl
    simpa [forceClose, hbefore] using hless
  | poll revents =>
    rw [Dispatch.step, Option.ite_none_right_eq_some] at hstep
    obtain ⟨⟨channel, active⟩, hpoll, heq⟩ := Option.map_eq_some_iff.mp hstep.2
    obtain rfl := Except.ok.inj heq
    obtain ⟨⟨⟩, -, hadded, hchannel⟩ := MirroredRegistry.poll_singleton hpoll
    refine ⟨hlog, fun hclosed => absurd hadded (h.shut hclosed).1.removed, ?_⟩
    have hrevents : (channel.channel ()).revents = revents := by rw [hchannel, Function.update_self]
    rw [hrevents]
    exact single_handleEventWithGuard ha
  | handle read write =>
    simp only [Dispatch.step] at hstep
    split at hstep
    · cases hstep
    · rename_i handler handlers hhandlers
      obtain ⟨d, hd, rfl⟩ := of_map_ok (Option.some.inj hstep)
      refine h.handle hhandlers (fun hcloses => ha ?_) hd hlog
      rw [hhandlers]
      simpa using hcloses
  | swap =>
    rw [Dispatch.step, Option.ite_none_right_eq_some] at hstep
    obtain rfl := Except.ok.inj (Option.some.inj hstep.2)
    refine ⟨hlog, fun hclosed => ?_, h.single⟩
    obtain ⟨hshut, hnone⟩ := h.shut hclosed
    exact ⟨hshut.congr rfl rfl, hnone⟩
  | runFunctor result =>
    rw [Dispatch.step, Option.ite_none_right_eq_some] at hstep
    obtain ⟨hhandlers, hstep⟩ := hstep
    split at hstep
    · cases hstep
    · rename_i f functors hfunctors
      obtain ⟨d, hd, rfl⟩ := of_map_ok (Option.some.inj hstep)
      obtain ⟨hforce, hread⟩ := ha
      rw [hfunctors] at hforce hread
      refine h.runFunctor hhandlers ?_ ?_ hd hlog
      · rintro rfl hopen
        exact hforce rfl hopen
      · rintro (rfl | rfl)
        · exact hread (Or.inl rfl)
        · exact hread (Or.inr rfl)

/-! ### Every run -/

/-- A connection after `connectEstablished`, between two dispatches. -/
def established (fd : Int) (writeCompleteCallback : Bool) (highWaterMark : Option Nat) : Dispatch :=
  ⟨(new fd writeCompleteCallback highWaterMark).connectEstablished, []⟩

theorem established_closedLog (fd : Int) (writeCompleteCallback : Bool) (highWaterMark : Option Nat) :
    ClosedLog (established fd writeCompleteCallback highWaterMark).conn := by
  refine ⟨?_, ?_, ?_, ?_⟩ <;> simp [established, connectEstablished, new]

/-- **Closing once**: from an established connection until `connectDestroyed`, in every state of a run no
assertion has failed, DOWN and the close callback came at most once and no message after DOWN, if and only
if the run keeps the closed connection quiet. Every calm run does. -/
theorem closed_once_iff (fd : Int) (writeCompleteCallback : Bool) (highWaterMark : Option Nat)
    (as : List EventLabel) :
    (events.Always (Machine.Holds fun s => ClosedOnce s.conn.log)
        (.ok (established fd writeCompleteCallback highWaterMark)) as ↔
      events.Meets (Machine.AtOk QuietWhenClosed)
        (.ok (established fd writeCompleteCallback highWaterMark)) as) ∧
    (events.Meets (Machine.AtOk Calm) (.ok (established fd writeCompleteCallback highWaterMark)) as →
      events.Always (Machine.Holds fun s => ClosedOnce s.conn.log)
        (.ok (established fd writeCompleteCallback highWaterMark)) as) := by
  have hlog := established_closedLog fd writeCompleteCallback highWaterMark
  have hiff : events.Always (Machine.Holds fun s => ClosedOnce s.conn.log)
      (.ok (established fd writeCompleteCallback highWaterMark)) as ↔
      events.Meets (Machine.AtOk QuietWhenClosed)
        (.ok (established fd writeCompleteCallback highWaterMark)) as :=
    Machine.ofExcept_always_holds_iff (I := fun s => ClosedLog s.conn) (fun _ h => h.closedOnce)
      (fun _ _ _ h ha hstep => h.step ha hstep) (fun _ _ _ h ha hstep => h.not_closedOnce ha hstep) hlog
  refine ⟨hiff, fun hcalm => hiff.mpr ?_⟩
  refine Machine.ofExcept_meets_imp (I := CalmInv) ⟨hlog, ?_, ?_⟩
    (fun _ _ _ h ha hstep => h.step ha hstep) (fun _ a h _ => h.quiet a) hcalm
  · intro hclosed
    cases hclosed
  · simp [established]

/-- `stopRead` empties the mask, so the `disableAll` of the close adds the descriptor again, and a
`POLLHUP` closes the connection a second time. -/
theorem stopped_connection_closed_twice :
    ¬ ∀ as, events.Always (Machine.Holds fun s => ClosedOnce s.conn.log)
      (.ok (established 7 false none)) as := by
  intro h
  have hlast := (h [.request .loop .stopRead (.wrote 0), .request .loop .forceClose (.wrote 0), .swap,
    .runFunctor (.wrote 0), .poll POLLHUP, .handle .failed (.wrote 0)]).last (t := .error .handleClose) rfl
  exact absurd hlast Machine.holds_error

end Siren.TcpConnection
