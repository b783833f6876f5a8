import Siren.Net.TcpConnection.Pair
import Siren.Net.TcpConnection.Shutdown

/-!
# The end of the stream

`readv` answers 0 when the other end was shut down and nothing is left on the wire. Of an end that sends on its loop
thread only, no message ever waits in the mailbox, so that all accepted messages were passed to `sendInLoop` when
`SHUT_WR` is issued, and `shutdownInLoop` and `handleWrite` issue it only when the output buffer is empty.

* `Tidy`: what such an end keeps over every step; `Finished` is what `SHUT_WR` on an open connection leaves for good.
* `end_of_stream_after_all`: the other end reads the end of the stream only after all bytes of all accepted messages.
-/

namespace Siren.TcpConnection

open Channel (Handler InterestCall)

/-! ### Ends that send on their loop thread -/

/-- A `send`. -/
def Call.isSend : Call → Bool
  | .send _ => true
  | .sendString _ => true
  | .sendBuffer _ => true
  | _ => false

/-- Sends come from the loop thread, and an `int` holds the size of each string. -/
def EventLabel.SendsOnLoop : EventLabel → Prop
  | .request thread call _ =>
    (call.isSend = true → thread = .loop) ∧ ∀ message, call = .sendString message → message.length ≤ intMax
  | _ => True

/-- `SHUT_WR` was issued before the connection was closed. -/
def ShutOpen (log : List Action) : Prop := ∃ pre, pre ++ [.shutdownWrite] <+: log ∧ .connectionDown ∉ pre

section log

variable {log more : List Action} {a : Action}

@[simp] theorem accepted_concat (log : List Action) (a : Action) :
    accepted (log ++ [a]) = accepted log ++ a.accepts.map Prod.fst := by
  simp [accepted]

theorem ShutOpen.of_append (h : ShutOpen (log ++ more)) (hmore : .shutdownWrite ∉ more) : ShutOpen log := by
  obtain ⟨pre, hpre, hopen⟩ := h
  exact ⟨pre, prefix_of_not_mem hpre hmore, hopen⟩

theorem ShutOpen.of_concat (h : ShutOpen (log ++ [a])) :
    ShutOpen log ∨ a = .shutdownWrite ∧ .connectionDown ∉ log := by
  obtain ⟨pre, hpre, hopen⟩ := h
  rcases List.prefix_concat_iff.mp hpre with heq | hpre
  · obtain ⟨rfl, hact⟩ := List.append_inj' heq rfl
    exact .inr ⟨(List.singleton_inj.mp hact).symm, hopen⟩
  · exact .inl ⟨pre, hpre, hopen⟩

end log

/-! ### The mailbox -/

/-- The connection was not closed without a report, its mailbox holds no message, and all that it accepted was passed
to `sendInLoop`. -/
structure Mail (c : TcpConnection) : Prop where
  down : c.state = .kDisconnected → .connectionDown ∈ c.log
  messages : ∀ f ∈ c.functors ++ c.pendingFunctors, f.message = []
  closing : .shutdownInLoop ∈ c.functors ++ c.pendingFunctors → c.state ≠ .kConnected
  whole : (accepted c.log).flatten = sentBytes c.log

namespace Mail

variable {c d : TcpConnection} {result : WriteResult}

/-- What functors may come, and how the state may change with them. -/
theorem of_mailbox (h : Mail c) (hlog : d.log = c.log) (hstate : d.state = c.state ∨ d.state = .kDisconnecting)
    (hmailbox : ∀ f ∈ d.functors ++ d.pendingFunctors, f ∈ c.functors ++ c.pendingFunctors ∨
      f.message = [] ∧ (f = .shutdownInLoop → d.state = .kDisconnecting)) : Mail d where
  down hclosed := by
    rw [hlog]
    rcases hstate with hstate | hstate
    · exact h.down (hstate ▸ hclosed)
    · cases hstate.symm.trans hclosed
  messages f hf := (hmailbox f hf).elim (h.messages f) And.left
  closing hf := by
    rcases hmailbox _ hf with hold | ⟨-, hnew⟩
    · rcases hstate with hstate | hstate
      · rw [hstate]
        exact h.closing hold
      · simp [hstate]
    · simp [hnew rfl]
  whole := by rw [hlog, h.whole]

theorem setState (h : Mail c) : Mail (c.setState .kDisconnecting) :=
  h.of_mailbox rfl (.inr rfl) fun _ hf => .inl hf

theorem queueInLoop (h : Mail c) {f : Functor} (hf : f.message = [])
    (hshut : f = .shutdownInLoop → c.state = .kDisconnecting) : Mail (c.queueInLoop f) := by
  refine h.of_mailbox rfl (.inl rfl) fun g hg => ?_
  rw [TcpConnection.queueInLoop, ← List.append_assoc, List.mem_append, List.mem_singleton] at hg
  rcases hg with hg | rfl
  · exact .inl hg
  · exact .inr ⟨hf, hshut⟩

theorem pop (h : Mail c) {f : Functor} {functors : List Functor} (hfunctors : c.functors = f :: functors) :
    Mail { c with functors } := by
  refine h.of_mailbox rfl (.inl rfl) fun g hg => .inl ?_
  rw [hfunctors, List.cons_append]
  exact List.mem_cons_of_mem _ hg

theorem swapFunctors (h : Mail c) (hempty : c.functors = []) : Mail c.swapFunctors := by
  refine h.of_mailbox rfl (.inl rfl) fun g hg => .inl ?_
  simpa [TcpConnection.swapFunctors, hempty] using hg

/-- Actions that neither accept nor send. -/
theorem record (h : Mail c) {a : Action} (ha : a.accepts = []) (hs : a.sent = []) : Mail (c.record a) where
  down hclosed := List.mem_append_left _ (h.down hclosed)
  messages := h.messages
  closing := h.closing
  whole := by simpa [ha, hs] using h.whole

/-- A message is accepted whole and passed on at once. -/
theorem accept (h : Mail c) (message : List Byte) :
    Mail ((c.record (.accept message message)).record (.sendInLoop message)) where
  down hclosed := List.mem_append_left _ (List.mem_append_left _ (h.down hclosed))
  messages := h.messages
  closing := h.closing
  whole := by
    simp only [record_log, accepted_concat, sentBytes_concat, List.flatten_append, h.whole]
    simp [Action.accepts, Action.sent]

theorem writes (h : Mail c) (hw : Writes result c d) : Mail d where
  down hclosed := by
    obtain ⟨more, hmore, -⟩ := hw.log
    rw [hmore]
    exact List.mem_append_left _ (h.down (hw.state ▸ hclosed))
  messages f hf := by
    obtain ⟨more, hmore, hcallback⟩ := hw.pending
    rw [hw.functors, hmore, ← List.append_assoc, List.mem_append] at hf
    rcases hf with hf | hf
    · exact h.messages f hf
    · have hkind := hcallback f hf
      cases f <;> first | rfl | cases hkind
  closing hf := by
    obtain ⟨more, hmore, hcallback⟩ := hw.pending
    rw [hw.functors, hmore, ← List.append_assoc, List.mem_append] at hf
    rw [hw.state]
    rcases hf with hf | hf
    · exact h.closing hf
    · cases hcallback _ hf
  whole := by
    rw [accepted, hw.log.accepts, sentBytes_eq_flatten, hw.log.sentMessages, ← sentBytes_eq_flatten]
    exact h.whole

theorem handleClose (h : Mail c) (hok : c.handleClose = .ok d) : Mail d := by
  obtain ⟨-, hok⟩ := of_cassert_bind hok
  obtain rfl := Except.ok.inj hok
  refine ⟨fun _ => ?_, h.messages, fun _ => by simp, ?_⟩
  · exact List.mem_append_left _ (List.mem_append_right _ List.mem_cons_self)
  · show (accepted (c.log ++ [.connectionDown] ++ [.closeCallback])).flatten =
      sentBytes (c.log ++ [.connectionDown] ++ [.closeCallback])
    simp only [accepted_concat, sentBytes_concat, List.flatten_append, h.whole]
    simp [Action.accepts, Action.sent]

end Mail

/-! ### After `SHUT_WR` -/

/-- A connection that was shut down while it was open: nothing more will be sent, and all was written. -/
structure Finished (c : TcpConnection) : Prop where
  state : c.state ≠ .kConnected
  idle : c.isWriting = false
  written : broken c.log = false → writtenBytes c.log = sentBytes c.log

/-- An end that sends on its loop thread. -/
structure Tidy (c : TcpConnection) : Prop where
  sends : Sends c
  mail : Mail c
  shut : ShutOpen c.log → Finished c

/-- An open connection that is not writing has written all. -/
theorem Sends.flushed {c : TcpConnection} (h : Sends c) (hopen : c.state ≠ .kDisconnected)
    (hidle : c.isWriting = false) (hunbroken : broken c.log = false) : writtenBytes c.log = sentBytes c.log := by
  have hstream := h.stream hopen
  have hempty : c.outputBuffer.content = [] := by
    by_contra hne
    exact Bool.false_ne_true (hidle.symm.trans (hstream.armed.mpr hne))
  have hwhole := hstream.whole hunbroken
  rwa [hempty, List.append_nil, List.append_nil] at hwhole

namespace Tidy

variable {c d : TcpConnection} {result : WriteResult}

/-- A step that records nothing. -/
theorem silent (h : Tidy c) (hsends : Sends d) (hmail : Mail d) (hlog : d.log = c.log)
    (hwriting : d.isWriting = c.isWriting) (hstate : c.state ≠ .kConnected → d.state ≠ .kConnected) : Tidy d where
  sends := hsends
  mail := hmail
  shut hshut := by
    have hold := h.shut (hlog ▸ hshut)
    exact ⟨hstate hold.state, hwriting.trans hold.idle, by rw [hlog]; exact hold.written⟩

/-- A step on a connection that was not shut down while it was open, and that does not do it. -/
theorem unshut {more : List Action} (hsends : Sends d) (hmail : Mail d) (hnot : ¬ ShutOpen c.log)
    (hlog : d.log = c.log ++ more) (hmore : .shutdownWrite ∉ more) : Tidy d where
  sends := hsends
  mail := hmail
  shut hshut := absurd (ShutOpen.of_append (hlog ▸ hshut) hmore) hnot

theorem setState (h : Tidy c) (hopen : c.state ≠ .kDisconnected) : Tidy (c.setState .kDisconnecting) :=
  h.silent (h.sends.setState hopen) h.mail.setState rfl rfl fun _ => by simp

theorem queueInLoop (h : Tidy c) {f : Functor} (hf : f.message = [])
    (hshut : f = .shutdownInLoop → c.state = .kDisconnecting) : Tidy (c.queueInLoop f) :=
  h.silent (h.sends.congr rfl rfl rfl rfl) (h.mail.queueInLoop hf hshut) rfl rfl id

/-- `SHUT_WR` finds the output buffer of an open connection empty. -/
theorem shutdownInLoop (h : Tidy c) (hstate : c.state ≠ .kConnected) : Tidy c.shutdownInLoop := by
  rcases shutdownInLoop_cases c with ⟨-, heq⟩ | ⟨hidle, heq⟩
  · rwa [heq]
  · rw [heq]
    refine ⟨h.sends.record rfl rfl (by decide), h.mail.record rfl rfl, fun hshut => ?_⟩
    refine ⟨hstate, hidle, fun hunbroken => ?_⟩
    have hunbroken : broken c.log = false := by simpa [Action.isBreak] using hunbroken
    rw [record_log, writtenBytes_concat, sentBytes_concat]
    simp only [Action.written, Action.sent, List.append_nil]
    rcases hshut.of_concat with hold | ⟨-, hopen⟩
    · exact (h.shut hold).written hunbroken
    · exact h.sends.flushed (fun hclosed => hopen (h.mail.down hclosed)) hidle hunbroken

/-- A message is accepted only before the connection is shut down. -/
theorem passOn (h : Tidy c) (hconn : c.state = .kConnected) (message : List Byte) (hans : Answers c result) :
    Tidy (c.passOn .loop message message result) := by
  have hwrites := Writes.sendInLoop (c := c.record (.accept message message)) message result
  obtain ⟨more, hmore, hkind⟩ := hwrites.log
  have hlog : (c.passOn .loop message message result).log =
      c.log ++ ([.accept message message, .sendInLoop message] ++ more) := by
    show (sendInLoop _ message result).log = _
    rw [hmore, record_log, record_log]
    simp
  refine unshut (h.sends.passOn .loop message message hans) ((h.mail.accept message).writes hwrites)
    (fun hshut => (h.shut hshut).state hconn) hlog ?_
  simp only [List.mem_append, List.mem_cons, List.not_mem_nil, or_false]
  rintro (hmem | hmem)
  · simp at hmem
  · cases hkind _ hmem

theorem send (h : Tidy c) (message : List Byte) {len : Int} (hlen : len = message.length) (hans : Answers c result) :
    Tidy (c.send .loop message len result) := by
  subst hlen
  unfold TcpConnection.send
  split
  · exact h
  · split
    · rename_i hconn
      rw [Int.toNat_natCast, List.take_length]
      exact h.passOn hconn message hans
    · exact h

theorem forceClose (h : Tidy c) : Tidy c.forceClose := by
  unfold TcpConnection.forceClose
  split
  · rename_i hopen
    have hstate : Tidy (c.setState .kDisconnecting) := h.setState (by rcases hopen with h | h <;> simp [h])
    exact hstate.queueInLoop rfl fun heq => by cases heq
  · exact h

theorem startReadInLoop (h : Tidy c) : Tidy c.startReadInLoop := by
  have hsends := h.sends.startReadInLoop
  revert hsends
  unfold TcpConnection.startReadInLoop
  split
  · intro hsends
    exact h.silent hsends (h.mail.of_mailbox rfl (.inl rfl) fun _ hf => .inl hf) rfl
      (setInterest_isWriting .enableReading) id
  · exact fun _ => h

theorem stopReadInLoop (h : Tidy c) : Tidy c.stopReadInLoop := by
  have hsends := h.sends.stopReadInLoop
  revert hsends
  unfold TcpConnection.stopReadInLoop
  split
  · intro hsends
    exact h.silent hsends (h.mail.of_mailbox rfl (.inl rfl) fun _ hf => .inl hf) rfl
      (setInterest_isWriting .disableReading) id
  · exact fun _ => h

theorem call (h : Tidy c) {thread : Thread} {call : Call} (hans : Answers c result)
    (hloop : call.isSend = true → thread = .loop)
    (hint : ∀ message, call = .sendString message → message.length ≤ intMax) :
    Tidy (c.call thread result call) := by
  cases call with
  | send message =>
    obtain rfl := hloop rfl
    exact h.send message rfl hans
  | sendString message =>
    obtain rfl := hloop rfl
    show Tidy (c.send .loop message (toInt message.length) result)
    exact h.send message (toInt_of_le (hint message rfl)) hans
  | sendBuffer message =>
    obtain rfl := hloop rfl
    show Tidy (c.sendBuffer .loop message result)
    unfold sendBuffer
    split
    · rename_i hconn
      exact h.passOn hconn.1 message hans
    · exact h
  | shutdown =>
    show Tidy (c.shutdown thread)
    unfold shutdown
    split
    · rename_i hopen
      have hstate : Tidy (c.setState .kDisconnecting) := h.setState (by simp [hopen])
      cases thread with
      | loop => exact hstate.shutdownInLoop (by simp)
      | other => exact hstate.queueInLoop rfl fun _ => rfl
    · exact h
  | forceClose => exact h.forceClose
  | forceCloseWithDelay =>
    show Tidy c.forceCloseWithDelay
    unfold forceCloseWithDelay
    split
    · rename_i hopen
      have hstate : Tidy (c.setState .kDisconnecting) := h.setState (by rcases hopen with h | h <;> simp [h])
      exact hstate.silent (hstate.sends.congr rfl rfl rfl rfl)
        (hstate.mail.of_mailbox rfl (.inl rfl) fun _ hf => .inl hf) rfl rfl id
    · exact h
  | startRead =>
    cases thread with
    | loop => exact h.startReadInLoop
    | other => exact h.queueInLoop rfl fun heq => by cases heq
  | stopRead =>
    cases thread with
    | loop => exact h.stopReadInLoop
    | other => exact h.queueInLoop rfl fun heq => by cases heq

/-- `handleWrite` shuts down when it has drained the buffer. -/
theorem handleWrite (h : Tidy c) (hans : Answers c result) : Tidy (c.handleWrite result) := by
  by_cases hwriting : c.isWriting = true
  · have hnot : ¬ ShutOpen c.log := fun hshut => Bool.false_ne_true ((h.shut hshut).idle.symm.trans hwriting)
    have hsends := h.sends.handleWrite hans
    rcases handleWrite_spec c result with ⟨-, hwrites⟩ | ⟨⟨-, hstate, -⟩, d, hwrites, hidle, heq⟩
    · obtain ⟨more, hmore, hkind⟩ := hwrites.log
      exact unshut hsends (h.mail.writes hwrites) hnot hmore fun hmem => by cases hkind _ hmem
    · rw [heq] at hsends ⊢
      refine ⟨hsends, (h.mail.writes hwrites).record rfl rfl, fun _ => ⟨?_, hidle, fun hunbroken => ?_⟩⟩
      · simp [hwrites.state, hstate]
      · exact hsends.flushed (by simp [hwrites.state, hstate]) hidle hunbroken
  · have hsame : c.handleWrite result = c := by simp [TcpConnection.handleWrite, hwriting]
    rwa [hsame]

theorem handleClose (h : Tidy c) (hok : c.handleClose = .ok d) : Tidy d := by
  have hsends := h.sends.handleClose hok
  have hmail := h.mail.handleClose hok
  obtain ⟨-, hok⟩ := of_cassert_bind hok
  obtain rfl := Except.ok.inj hok
  refine ⟨hsends, hmail, fun hshut => ⟨by simp, setInterest_isWriting .disableAll, ?_⟩⟩
  have hold : ShutOpen c.log := by
    rcases hshut.of_concat with hshut | ⟨hact, -⟩
    · rcases hshut.of_concat with hshut | ⟨hact, -⟩
      · exact hshut
      · cases hact
    · cases hact
  show broken (c.log ++ [.connectionDown] ++ [.closeCallback]) = false →
    writtenBytes (c.log ++ [.connectionDown] ++ [.closeCallback]) =
      sentBytes (c.log ++ [.connectionDown] ++ [.closeCallback])
  simp only [broken_concat, writtenBytes_concat, sentBytes_concat, Action.isBreak, Action.written, Action.sent,
    Bool.or_false, List.append_nil]
  exact (h.shut hold).written

theorem handleRead (h : Tidy c) {read : ReadResult} (hok : c.handleRead read = .ok d) : Tidy d := by
  have hinput : Tidy { c with inputBuffer := c.inputBuffer.readFd read } :=
    h.silent (h.sends.congr rfl rfl rfl rfl) (h.mail.of_mailbox rfl (.inl rfl) fun _ hf => .inl hf) rfl rfl id
  rcases handleRead_cases c read with ⟨bytes, rfl, -, heq⟩ | ⟨rfl, heq⟩ | ⟨rfl, heq⟩
  · have hsends := h.sends.handleRead hok
    obtain rfl := Except.ok.inj (heq.symm.trans hok)
    refine ⟨hsends, hinput.mail.record rfl rfl, fun hshut => ?_⟩
    rcases hshut.of_concat with hshut | ⟨hact, -⟩
    · have hold := h.shut hshut
      refine ⟨hold.state, hold.idle, ?_⟩
      simpa [Action.isBreak, Action.written, Action.sent] using hold.written
    · cases hact
  · exact hinput.handleClose (heq.symm.trans hok)
  · obtain rfl := Except.ok.inj (heq.symm.trans hok)
    exact hinput

/-- Of the functors none is a message. -/
theorem runFunctor (h : Tidy c) {f : Functor} {functors : List Functor} (hfunctors : c.functors = f :: functors)
    (hok : TcpConnection.runFunctor { c with functors } result f = .ok d) : Tidy d := by
  have hpop : Tidy { c with functors } :=
    h.silent (h.sends.congr rfl rfl rfl rfl) (h.mail.pop hfunctors) rfl rfl id
  have hf : f ∈ c.functors ++ c.pendingFunctors := by simp [hfunctors]
  cases f with
  | sendInLoop message => cases h.mail.messages _ hf
  | shutdownInLoop =>
    obtain rfl := Except.ok.inj hok
    exact hpop.shutdownInLoop (h.mail.closing hf)
  | forceCloseInLoop =>
    simp only [TcpConnection.runFunctor, forceCloseInLoop] at hok
    split at hok
    · exact hpop.handleClose hok
    · obtain rfl := Except.ok.inj hok
      exact hpop
  | startReadInLoop =>
    obtain rfl := Except.ok.inj hok
    exact hpop.startReadInLoop
  | stopReadInLoop =>
    obtain rfl := Except.ok.inj hok
    exact hpop.stopReadInLoop
  | writeCompleteCallback =>
    obtain rfl := Except.ok.inj hok
    exact hpop
  | highWaterMarkCallback size =>
    obtain rfl := Except.ok.inj hok
    exact hpop

end Tidy

/-! ### Every run -/

theorem Tidy.step {s t : Dispatch} {a : EventLabel} (h : Tidy s.conn) (ha : a.SendsOnLoop) (hans : s.Answers a)
    (hstep : s.step a = some (.ok t)) : Tidy t.conn := by
  generalize hr : Except.ok t = r at hstep
  cases Dispatch.step_takes hstep with
  | request thread call result =>
    obtain rfl := Except.ok.inj hr
    exact h.call hans ha.1 ha.2
  | delayedForceClose hdelayed =>
    obtain rfl := Except.ok.inj hr
    have hless : Tidy { s.conn with delayedForceCloses := s.conn.delayedForceCloses - 1 } :=
      h.silent (h.sends.congr rfl rfl rfl rfl) (h.mail.of_mailbox rfl (.inl rfl) fun _ hf => .inl hf) rfl rfl id
    exact hless.forceClose
  | poll revents channel handlers hindex hevents =>
    obtain rfl := Except.ok.inj hr
    have hwriting : isWriting { s.conn with channel } = s.conn.isWriting :=
      congrArg (Mask.has · Channel.kWriteEvent) hevents
    exact h.silent (h.sends.congr rfl rfl rfl hwriting)
      (h.mail.of_mailbox rfl (.inl rfl) fun _ hf => .inl hf) rfl hwriting id
  | handle read write handler handlers hhandlers =>
    obtain ⟨d, hd, rfl⟩ := of_map_ok hr.symm
    cases handler with
    | close => exact h.handleClose hd
    | error => exact Except.ok.inj hd ▸ h
    | read => exact h.handleRead hd
    | write => exact Except.ok.inj hd ▸ h.handleWrite hans
  | swap hfunctors =>
    obtain rfl := Except.ok.inj hr
    exact h.silent (h.sends.congr rfl rfl rfl rfl) (h.mail.swapFunctors hfunctors) rfl rfl id
  | runFunctor result f functors hfunctors =>
    obtain ⟨d, hd, rfl⟩ := of_map_ok hr.symm
    exact h.runFunctor hfunctors hd

theorem established_tidy (fd : Int) (writeCompleteCallback : Bool) (highWaterMark : Option Nat) :
    Tidy (new fd writeCompleteCallback highWaterMark).connectEstablished where
  sends := .of_stream (connectEstablished_stream ..) (by simp [connectEstablished])
  mail := ⟨fun hclosed => (by cases hclosed), by simp [connectEstablished, new, setState, setInterest],
    fun _ hconn => (by simp_all [connectEstablished, new, setState, setInterest]), rfl⟩
  shut := by
    rintro ⟨pre, hpre, -⟩
    simp [connectEstablished, new] at hpre

/-- The sending end of a pair stays tidy. -/
theorem Pair.step_tidy {p q : Pair} {sender : Side} {a : PairLabel} (h : Tidy (p.conn sender))
    (ha : ∀ b, a = .event sender b → b.SendsOnLoop) (hstep : p.step a = some (.ok q)) :
    Tidy (q.conn sender) := by
  rcases Pair.step_eq_ok hstep with ⟨side, b, t, rfl, hans, hend, rfl⟩ | ⟨side, bytes, inputBuffer, -, rfl⟩
  · by_cases hside : sender = side
    · subst hside
      rw [Pair.conn_after_self]
      exact h.step (ha b rfl) hans.1 hend
    · rwa [Pair.conn_after_of_ne hside]
  · by_cases hside : sender = side
    · subst hside
      rw [Pair.conn_takeOut_self]
      exact h.silent (h.sends.congr rfl rfl rfl rfl) (h.mail.of_mailbox rfl (.inl rfl) fun _ hf => .inl hf)
        rfl rfl id
    · rwa [Pair.conn_takeOut_of_ne hside]

/-- **The end of the stream comes after all**: take any run of two connections in which one end makes its sends on
its loop thread, with strings whose size an `int` holds. Whenever `readv` may report the end of the stream to the
other end, and the sender was shut down before it was closed and had no `EPIPE` or `ECONNRESET`, the other end has
received the accepted messages, every byte of them, in the order of the sends. -/
theorem end_of_stream_after_all (fd : Side → Int) (writeCompleteCallback : Side → Bool)
    (highWaterMark : Side → Option Nat) (sender : Side) (as : List PairLabel)
    (hloop : ∀ a, .event sender a ∈ as → a.SendsOnLoop) :
    pairs.Always (Machine.HoldsIfOk fun p => p.MayRead sender.other (.read []) →
        ShutOpen (p.conn sender).log → broken (p.conn sender).log = false →
        p.received sender.other = (accepted (p.conn sender).log).flatten)
      (.ok (.established fd writeCompleteCallback highWaterMark)) as := by
  have hmeets : pairs.Meets (fun _ a => ∀ b, a = .event sender b → b.SendsOnLoop)
      (.ok (.established fd writeCompleteCallback highWaterMark)) as :=
    .of_forall_mem fun a ha b hb => hloop b (hb ▸ ha)
  have hinv : pairs.Always (Machine.HoldsIfOk fun p => p.Inv ∧ Tidy (p.conn sender))
      (.ok (.established fd writeCompleteCallback highWaterMark)) as := by
    refine .of_invariant ⟨Pair.established_inv .., established_tidy ..⟩ ?_ hmeets
    intro r a u hr ha hstep
    cases r with
    | error e => cases hstep
    | ok p =>
      cases u with
      | error e => trivial
      | ok q => exact ⟨Pair.Inv.step hr.1 hstep, Pair.step_tidy hr.2 ha hstep⟩
  refine hinv.mono fun r hr => ?_
  cases r with
  | error e => trivial
  | ok p =>
    obtain ⟨hinv, htidy⟩ := hr
    intro hread hshut hunbroken
    rw [htidy.mail.whole, ← (htidy.shut hshut).written hunbroken, ← hinv.carried sender, Pair.received,
      hinv.input sender.other]
    exact Wire.taken_eq_carried _ (hread.2 rfl).1

/-- Two bytes are sent, the end is shut down, and they are read. -/
def twoBytes : List PairLabel :=
  [.event .near (.request .loop (.send [7, 8]) (.wrote 2)), .event .near (.request .loop .shutdown (.wrote 0)),
    .event .far (.poll POLLIN), .event .far (.handle (.read [7, 8]) (.wrote 0))]

theorem two_bytes_before_the_end : ∃ p : Pair,
    pairs.run (.ok (.established (fun _ => 5) (fun _ => false) fun _ => none)) twoBytes = some (.ok p) ∧
      p.received .far = [7, 8] := by
  have hloop : ∀ a, .event .near a ∈ twoBytes → a.SendsOnLoop := by
    intro a ha
    simp only [twoBytes, List.mem_cons, PairLabel.event.injEq, List.not_mem_nil, or_false] at ha
    rcases ha with ⟨-, rfl⟩ | ⟨-, rfl⟩ | ⟨hside, -⟩ | ⟨hside, -⟩
    · exact ⟨fun _ => rfl, fun _ h => (nomatch h)⟩
    · exact ⟨fun h => (nomatch h), fun _ h => (nomatch h)⟩
    · cases hside
    · cases hside
  obtain ⟨p, hrun⟩ : ∃ p, pairs.run (.ok (.established (fun _ => 5) (fun _ => false) fun _ => none)) twoBytes =
      some (.ok p) := ⟨_, rfl⟩
  have hlog : (pairs.run (.ok (.established (fun _ => 5) (fun _ => false) fun _ => none)) twoBytes).map
      (·.toOption.map fun p : Pair => (p.conn .near).log) =
        some (some [.accept [7, 8] [7, 8], .sendInLoop [7, 8], .write [7, 8], .shutdownWrite]) := rfl
  have hwire : (pairs.run (.ok (.established (fun _ => 5) (fun _ => false) fun _ => none)) twoBytes).map
      (·.toOption.map fun p : Pair => (p.wire .far).inFlight) = some (some []) := rfl
  rw [hrun] at hlog hwire
  have hlog : (p.conn .near).log = _ := Option.some.inj (Option.some.inj hlog)
  have hwire : (p.wire .far).inFlight = [] := Option.some.inj (Option.some.inj hwire)
  have hread : p.MayRead .far (.read []) := by
    refine ⟨List.nil_prefix, fun _ => ⟨hwire, ?_⟩⟩
    show .shutdownWrite ∈ (p.conn .near).log
    simp [hlog]
  have hshut : ShutOpen (p.conn .near).log :=
    ⟨[.accept [7, 8] [7, 8], .sendInLoop [7, 8], .write [7, 8]], by simp [hlog], by simp⟩
  have hunbroken : broken (p.conn .near).log = false := by
    rw [hlog]
    rfl
  have hall := end_of_stream_after_all (fun _ => 5) (fun _ => false) (fun _ => none) .near twoBytes hloop
    twoBytes _ List.prefix_rfl hrun hread hshut hunbroken
  refine ⟨p, hrun, hall.trans ?_⟩
  rw [hlog]
  rfl

end Siren.TcpConnection
