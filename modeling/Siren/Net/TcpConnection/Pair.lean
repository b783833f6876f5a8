import Siren.Lib.Wire
import Siren.Net.TcpConnection.Close

/-!
# Two ends of a connection

Two established connections, each on its own loop (`events`), with a wire in each direction: what `write` takes at
one end is put into the wire to the other, and `readv` takes from it. At both ends users call, the poller reports and
functors run in any order; the message callback takes any number of bytes out of `inputBuffer_`.

* `Sends`: what the write path of a connection keeps over every step, closed or not.
* `Extends`: what a step adds to the log and to `inputBuffer_`.
* `delivered_in_order`: in every run, what an end has taken out of its `inputBuffer_`, and then what is in it, is a
  prefix of the messages passed to `sendInLoop` at the other end, in that order.
-/

namespace Siren.TcpConnection

open Channel (Handler InterestCall)

/-! ### What a connection sends -/

/-- The write path of a connection at any time: in order while it is not closed, and silent after. -/
structure Sends (c : TcpConnection) : Prop where
  pre : writtenBytes c.log <+: sentBytes c.log
  stream : c.state ≠ .kDisconnected → Stream [] c
  quiet : c.state = .kDisconnected → c.isWriting = false

namespace Sends

variable {c d : TcpConnection} {result : WriteResult}

theorem of_stream (h : Stream [] c) (hopen : c.state ≠ .kDisconnected) : Sends c :=
  ⟨h.pre, fun _ => h, fun hclosed => absurd hclosed hopen⟩

theorem congr (h : Sends c) (hstate : d.state = c.state) (hlog : d.log = c.log)
    (hbuffer : d.outputBuffer = c.outputBuffer) (hwriting : d.isWriting = c.isWriting) : Sends d where
  pre := by
    rw [hlog]
    exact h.pre
  stream hopen := (h.stream (hstate ▸ hopen)).congr hlog (congrArg ByteBuffer.content hbuffer) hwriting
  quiet hclosed := by
    rw [hwriting]
    exact h.quiet (hstate ▸ hclosed)

/-- An action that neither sends, writes nor completes. -/
theorem record (h : Sends c) {a : Action} (hs : a.sent = []) (hw : a.written = []) (ha : a ≠ .writeComplete) :
    Sends (c.record a) where
  pre := by simpa [hs, hw] using h.pre
  stream hopen := (h.stream hopen).record hs hw ha
  quiet := h.quiet

/-- `setState` on an open connection. -/
theorem setState (h : Sends c) (hopen : c.state ≠ .kDisconnected) : Sends (c.setState .kDisconnecting) :=
  of_stream ((h.stream hopen).congr rfl rfl rfl) (by simp)

theorem shutdownInLoop (h : Sends c) : Sends c.shutdownInLoop := by
  unfold TcpConnection.shutdownInLoop
  split
  · exact h.record rfl rfl (by decide)
  · exact h

/-- A closed connection gives its messages up. -/
theorem sendInLoop (h : Sends c) (data : List Byte) (hans : Answers c result) :
    Sends (c.sendInLoop data result) := by
  by_cases hclosed : c.state = .kDisconnected
  · have hgiven : c.sendInLoop data result = c.record (.sendInLoop data) := if_pos hclosed
    rw [hgiven]
    refine ⟨?_, fun hopen => absurd hclosed hopen, h.quiet⟩
    rw [record_log, writtenBytes_concat, sentBytes_concat]
    simpa [Action.written] using h.pre.trans (List.prefix_append _ _)
  · refine of_stream ((h.stream hclosed).sendInLoop hclosed hans) ?_
    rw [(Writes.sendInLoop data result).state]
    exact hclosed

theorem handleWrite (h : Sends c) (hans : Answers c result) : Sends (c.handleWrite result) := by
  by_cases hclosed : c.state = .kDisconnected
  · have hsame : c.handleWrite result = c := by
      unfold TcpConnection.handleWrite
      simp [h.quiet hclosed]
    rwa [hsame]
  · refine of_stream ((h.stream hclosed).handleWrite hans) ?_
    rw [handleWrite_state]
    exact hclosed

theorem passOn (h : Sends c) (thread : Thread) (message passed : List Byte) (hans : Answers c result) :
    Sends (c.passOn thread message passed result) := by
  have haccept : Sends (c.record (.accept message passed)) := h.record rfl rfl (by simp)
  cases thread with
  | loop =>
    refine haccept.sendInLoop passed ?_
    simpa [Answers, Action.isBreak] using hans
  | other => exact haccept.congr rfl rfl rfl rfl

theorem send (h : Sends c) (thread : Thread) (message : List Byte) (len : Int) (hans : Answers c result) :
    Sends (c.send thread message len result) := by
  unfold TcpConnection.send
  split
  · exact h
  · split
    · exact h.passOn thread message _ hans
    · exact h

/-- The state in which `forceClose` leaves the connection. -/
theorem closing (h : Sends c) (hopen : c.state = .kConnected ∨ c.state = .kDisconnecting) :
    Sends (c.setState .kDisconnecting) := by
  refine h.setState ?_
  rcases hopen with hopen | hopen <;> simp [hopen]

theorem forceClose (h : Sends c) : Sends c.forceClose := by
  unfold TcpConnection.forceClose
  split
  · rename_i hopen
    exact (h.closing hopen).congr rfl rfl rfl rfl
  · exact h

theorem startReadInLoop (h : Sends c) : Sends c.startReadInLoop := by
  unfold TcpConnection.startReadInLoop
  split
  · exact h.congr rfl rfl rfl (setInterest_isWriting .enableReading)
  · exact h

theorem stopReadInLoop (h : Sends c) : Sends c.stopReadInLoop := by
  unfold TcpConnection.stopReadInLoop
  split
  · exact h.congr rfl rfl rfl (setInterest_isWriting .disableReading)
  · exact h

theorem call (h : Sends c) (thread : Thread) (call : Call) (hans : Answers c result) :
    Sends (c.call thread result call) := by
  cases call with
  | send message => exact h.send thread message _ hans
  | sendString message =>
    show Sends (c.send thread message (toInt message.length) result)
    exact h.send thread message _ hans
  | sendBuffer message =>
    show Sends (c.sendBuffer thread message result)
    unfold sendBuffer
    split
    · exact h.passOn thread message message hans
    · exact h
  | shutdown =>
    show Sends (c.shutdown thread)
    unfold shutdown
    split
    · rename_i hopen
      have hstate : Sends (c.setState .kDisconnecting) := h.setState (by simp [hopen])
      cases thread with
      | loop => exact hstate.shutdownInLoop
      | other => exact hstate.congr rfl rfl rfl rfl
    · exact h
  | forceClose => exact h.forceClose
  | forceCloseWithDelay =>
    show Sends c.forceCloseWithDelay
    unfold forceCloseWithDelay
    split
    · rename_i hopen
      exact (h.closing hopen).congr rfl rfl rfl rfl
    · exact h
  | startRead =>
    cases thread with
    | loop => exact h.startReadInLoop
    | other => exact h.congr rfl rfl rfl rfl
  | stopRead =>
    cases thread with
    | loop => exact h.stopReadInLoop
    | other => exact h.congr rfl rfl rfl rfl

/-- A close leaves the log's bytes and takes the interest away. -/
theorem handleClose (h : Sends c) (hok : c.handleClose = .ok d) : Sends d := by
  obtain ⟨-, hok⟩ := of_cassert_bind hok
  obtain rfl := Except.ok.inj hok
  have hclosed : Sends ((c.setState .kDisconnected).setInterest .disableAll) :=
    ⟨h.pre, fun hopen => absurd rfl hopen, fun _ => setInterest_isWriting .disableAll⟩
  exact (hclosed.record (a := .connectionDown) rfl rfl (by decide)).record rfl rfl (by decide)

theorem handleRead (h : Sends c) {read : ReadResult} (hok : c.handleRead read = .ok d) : Sends d := by
  have hinput : Sends { c with inputBuffer := c.inputBuffer.readFd read } := h.congr rfl rfl rfl rfl
  rcases handleRead_cases c read with ⟨bytes, rfl, -, heq⟩ | ⟨rfl, heq⟩ | ⟨rfl, heq⟩
  · obtain rfl := Except.ok.inj (heq.symm.trans hok)
    exact hinput.record rfl rfl (by simp)
  · exact hinput.handleClose (heq.symm.trans hok)
  · obtain rfl := Except.ok.inj (heq.symm.trans hok)
    exact hinput

theorem runFunctor (h : Sends c) {f : Functor} (hans : Answers c result) (hok : c.runFunctor result f = .ok d) :
    Sends d := by
  cases f with
  | sendInLoop message =>
    obtain rfl := Except.ok.inj hok
    exact h.sendInLoop message hans
  | shutdownInLoop =>
    obtain rfl := Except.ok.inj hok
    exact h.shutdownInLoop
  | forceCloseInLoop =>
    simp only [TcpConnection.runFunctor, forceCloseInLoop] at hok
    split at hok
    · exact h.handleClose hok
    · obtain rfl := Except.ok.inj hok
      exact h
  | startReadInLoop =>
    obtain rfl := Except.ok.inj hok
    exact h.startReadInLoop
  | stopReadInLoop =>
    obtain rfl := Except.ok.inj hok
    exact h.stopReadInLoop
  | writeCompleteCallback =>
    obtain rfl := Except.ok.inj hok
    exact h
  | highWaterMarkCallback size =>
    obtain rfl := Except.ok.inj hok
    exact h

end Sends

/-! ### What a step adds -/

/-- The bytes that `readv` delivered. -/
def bytesOf : ReadResult → List Byte
  | .read bytes => bytes
  | .failed => []

/-- `d` comes from `c` by a step that put these bytes behind those in `inputBuffer_`. -/
structure Extends (bytes : List Byte) (c d : TcpConnection) : Prop where
  log : c.log <+: d.log
  input : d.inputBuffer.content = c.inputBuffer.content ++ bytes

namespace Extends

variable {c d e : TcpConnection} {bytes : List Byte}

theorem refl (c : TcpConnection) : Extends [] c c := ⟨List.prefix_rfl, (List.append_nil _).symm⟩

theorem trans (h : Extends [] c d) (h' : Extends bytes d e) : Extends bytes c e where
  log := h.log.trans h'.log
  input := by rw [h'.input, h.input, List.append_nil]

theorem of_input (hlog : c.log <+: d.log) (hinput : d.inputBuffer = c.inputBuffer) : Extends [] c d :=
  ⟨hlog, by rw [hinput, List.append_nil]⟩

theorem rule : MemberRule (Extends []) where
  refl := refl
  trans := trans
  record _ _ _ := of_input (List.prefix_append ..) rfl
  queueInLoop _ _ := of_input List.prefix_rfl rfl
  setOutputBuffer _ _ := of_input List.prefix_rfl rfl
  enableWriting _ := of_input List.prefix_rfl rfl
  disableWriting _ := of_input List.prefix_rfl rfl
  setState _ _ := of_input List.prefix_rfl rfl
  delay _ _ := of_input List.prefix_rfl rfl

theorem startReadInLoop (c : TcpConnection) : Extends [] c c.startReadInLoop := by
  unfold TcpConnection.startReadInLoop
  split
  · exact of_input List.prefix_rfl rfl
  · exact refl c

theorem stopReadInLoop (c : TcpConnection) : Extends [] c c.stopReadInLoop := by
  unfold TcpConnection.stopReadInLoop
  split
  · exact of_input List.prefix_rfl rfl
  · exact refl c

theorem handleClose (hok : c.handleClose = .ok d) : Extends [] c d := by
  obtain ⟨-, hok⟩ := of_cassert_bind hok
  obtain rfl := Except.ok.inj hok
  refine of_input ?_ rfl
  show c.log <+: c.log ++ [.connectionDown] ++ [.closeCallback]
  rw [List.append_assoc]
  exact List.prefix_append ..

theorem handleRead {read : ReadResult} (hok : c.handleRead read = .ok d) : Extends (bytesOf read) c d := by
  rcases handleRead_cases c read with ⟨bytes, rfl, -, heq⟩ | ⟨rfl, heq⟩ | ⟨rfl, heq⟩
  · obtain rfl := Except.ok.inj (heq.symm.trans hok)
    exact ⟨List.prefix_append .., ByteBuffer.content_readFd c.inputBuffer bytes⟩
  · have hread : Extends [] c { c with inputBuffer := c.inputBuffer.readFd (.read []) } :=
      ⟨List.prefix_rfl, ByteBuffer.content_readFd c.inputBuffer []⟩
    exact hread.trans (handleClose (heq.symm.trans hok))
  · obtain rfl := Except.ok.inj (heq.symm.trans hok)
    exact ⟨List.prefix_rfl, (List.append_nil _).symm⟩

theorem runFunctor {f : Functor} {result : WriteResult} (hok : c.runFunctor result f = .ok d) :
    Extends [] c d := by
  by_cases hf : f = .forceCloseInLoop
  · subst hf
    simp only [TcpConnection.runFunctor, forceCloseInLoop] at hok
    split at hok
    · exact handleClose hok
    · exact Except.ok.inj hok ▸ refl c
  · exact rule.runFunctor hf (fun _ => startReadInLoop c) (fun _ => stopReadInLoop c) hok

end Extends

/-! ### The steps of one end -/

namespace Dispatch

/-- What a step does, label by label. -/
inductive Takes (s : Dispatch) : EventLabel → Except Assertion Dispatch → Prop where
  | request (thread : Thread) (call : Call) (result : WriteResult) :
    Takes s (.request thread call result) (.ok { s with conn := s.conn.call thread result call })
  | delayedForceClose (hdelayed : 0 < s.conn.delayedForceCloses) :
    Takes s .delayedForceClose
      (.ok { s with conn := forceClose { s.conn with delayedForceCloses := s.conn.delayedForceCloses - 1 } })
  | poll (revents : Mask) (channel : MirroredRegistry Unit) (handlers : List Handler)
      (hindex : (channel.channel ()).index = (s.conn.channel.channel ()).index)
      (hevents : (channel.channel ()).events = (s.conn.channel.channel ()).events) :
    Takes s (.poll revents) (.ok ⟨{ s.conn with channel }, handlers⟩)
  | handle (read : ReadResult) (write : WriteResult) (handler : Handler) (handlers : List Handler)
      (hhandlers : s.handlers = handler :: handlers) :
    Takes s (.handle read write) ((runHandler s.conn read write handler).map fun conn => ⟨conn, handlers⟩)
  | swap (hfunctors : s.conn.functors = []) : Takes s .swap (.ok { s with conn := s.conn.swapFunctors })
  | runFunctor (result : WriteResult) (f : Functor) (functors : List Functor)
      (hfunctors : s.conn.functors = f :: functors) :
    Takes s (.runFunctor result)
      ((TcpConnection.runFunctor { s.conn with functors } result f).map fun conn => { s with conn })

variable {s t : Dispatch} {a : EventLabel}

theorem step_takes {r : Except Assertion Dispatch} (hstep : s.step a = some r) : Takes s a r := by
  cases a with
  | request thread call result =>
    obtain rfl := Option.some.inj hstep
    exact .request thread call result
  | delayedForceClose =>
    obtain ⟨hdelayed, hstep⟩ := Option.ite_none_right_eq_some.mp hstep
    obtain rfl := Option.some.inj hstep
    exact .delayedForceClose hdelayed
  | poll revents =>
    obtain ⟨-, hstep⟩ := Option.ite_none_right_eq_some.mp hstep
    obtain ⟨⟨channel, active⟩, hpoll, rfl⟩ := Option.map_eq_some_iff.mp hstep
    obtain ⟨⟨⟩, -, -, hchannel⟩ := MirroredRegistry.poll_singleton hpoll
    refine .poll revents channel _ ?_ ?_ <;> rw [hchannel, Function.update_self]
  | handle read write =>
    simp only [step] at hstep
    split at hstep
    · cases hstep
    · rename_i handler handlers hhandlers
      obtain rfl := Option.some.inj hstep
      exact .handle read write handler handlers hhandlers
  | swap =>
    obtain ⟨hidle, hstep⟩ := Option.ite_none_right_eq_some.mp hstep
    obtain rfl := Option.some.inj hstep
    exact .swap hidle.2
  | runFunctor result =>
    obtain ⟨-, hstep⟩ := Option.ite_none_right_eq_some.mp hstep
    split at hstep
    · cases hstep
    · rename_i f functors hfunctors
      obtain rfl := Option.some.inj hstep
      exact .runFunctor result f functors hfunctors

/-- The answer of `readv` that a step uses. -/
def reads (s : Dispatch) : EventLabel → Option ReadResult
  | .handle read _ => if s.handlers.head? = some .read then some read else none
  | _ => none

/-- The bytes that a step reads. -/
def readBytes (s : Dispatch) (a : EventLabel) : List Byte := ((s.reads a).map bytesOf).getD []

/-- After `EPIPE` or `ECONNRESET` a `write` that the step may make fails with one of them. -/
def Answers (s : Dispatch) : EventLabel → Prop
  | .request _ _ result => TcpConnection.Answers s.conn result
  | .handle _ write => TcpConnection.Answers s.conn write
  | .runFunctor result => TcpConnection.Answers s.conn result
  | _ => True

instance (s : Dispatch) : (a : EventLabel) → Decidable (s.Answers a)
  | .request .. | .handle .. | .runFunctor _ | .delayedForceClose | .poll _ | .swap => by
    unfold Answers
    first | infer_instance | (unfold TcpConnection.Answers; infer_instance)

theorem extends_runHandler {c d : TcpConnection} {read : ReadResult} {write : WriteResult} {handler : Handler}
    (hok : runHandler c read write handler = .ok d) :
    Extends (if handler = .read then bytesOf read else []) c d := by
  cases handler with
  | close => exact .handleClose hok
  | error => exact Except.ok.inj hok ▸ .refl c
  | read => exact .handleRead hok
  | write => exact Except.ok.inj hok ▸ Extends.rule.handleWrite c write

theorem step_extends (hstep : s.step a = some (.ok t)) : Extends (s.readBytes a) s.conn t.conn := by
  generalize hr : Except.ok t = r at hstep
  cases step_takes hstep with
  | request thread call result =>
    obtain rfl := Except.ok.inj hr
    exact Extends.rule.call thread result call (fun _ _ => .startReadInLoop _) (fun _ _ => .stopReadInLoop _)
  | delayedForceClose hdelayed =>
    obtain rfl := Except.ok.inj hr
    have hless : Extends [] s.conn { s.conn with delayedForceCloses := s.conn.delayedForceCloses - 1 } :=
      .of_input List.prefix_rfl rfl
    exact hless.trans (Extends.rule.forceClose _)
  | poll revents channel handlers hindex hevents =>
    obtain rfl := Except.ok.inj hr
    exact .of_input List.prefix_rfl rfl
  | handle read write handler handlers hhandlers =>
    obtain ⟨d, hd, rfl⟩ := of_map_ok hr.symm
    have hextends := extends_runHandler hd
    have hbytes : s.readBytes (.handle read write) = if handler = .read then bytesOf read else [] := by
      simp only [readBytes, reads, hhandlers, List.head?_cons, Option.some.injEq]
      split <;> rfl
    rwa [hbytes]
  | swap hfunctors =>
    obtain rfl := Except.ok.inj hr
    exact .of_input List.prefix_rfl rfl
  | runFunctor result f functors hfunctors =>
    obtain ⟨d, hd, rfl⟩ := of_map_ok hr.symm
    have hpop : Extends [] s.conn { s.conn with functors } := .of_input List.prefix_rfl rfl
    exact hpop.trans (.runFunctor hd)

theorem step_sends (h : Sends s.conn) (hans : s.Answers a) (hstep : s.step a = some (.ok t)) :
    Sends t.conn := by
  generalize hr : Except.ok t = r at hstep
  cases step_takes hstep with
  | request thread call result =>
    obtain rfl := Except.ok.inj hr
    exact h.call thread call hans
  | delayedForceClose hdelayed =>
    obtain rfl := Except.ok.inj hr
    have hless : Sends { s.conn with delayedForceCloses := s.conn.delayedForceCloses - 1 } :=
      h.congr rfl rfl rfl rfl
    exact hless.forceClose
  | poll revents channel handlers hindex hevents =>
    obtain rfl := Except.ok.inj hr
    exact h.congr rfl rfl rfl (congrArg (Mask.has · Channel.kWriteEvent) hevents)
  | handle read write handler handlers hhandlers =>
    obtain ⟨d, hd, rfl⟩ := of_map_ok hr.symm
    cases handler with
    | close => exact h.handleClose hd
    | error => exact Except.ok.inj hd ▸ h
    | read => exact h.handleRead hd
    | write => exact Except.ok.inj hd ▸ h.handleWrite hans
  | swap hfunctors =>
    obtain rfl := Except.ok.inj hr
    exact h.congr rfl rfl rfl rfl
  | runFunctor result f functors hfunctors =>
    obtain ⟨d, hd, rfl⟩ := of_map_ok hr.symm
    have hpop : Sends { s.conn with functors } := h.congr rfl rfl rfl rfl
    exact hpop.runFunctor hans hd

end Dispatch

/-! ### Both ends -/

/-- The two ends. -/
inductive Side where
  | near
  | far
  deriving DecidableEq

def Side.other : Side → Side
  | .near => .far
  | .far => .near

theorem Side.other_ne (side : Side) : side.other ≠ side := by cases side <;> decide

theorem Side.other_other (side : Side) : side.other.other = side := by cases side <;> rfl

theorem Side.eq_other {side side' : Side} (h : side' ≠ side) : side' = side.other := by
  cases side <;> cases side' <;> first | rfl | exact absurd rfl h

structure Pair where
  dispatch : Side → Dispatch
  /-- The wire that ends at each side. -/
  wire : Side → Wire Byte
  /-- History: the bytes that were taken out of each `inputBuffer_`. -/
  consumed : Side → List Byte

inductive PairLabel where
  /-- A step of one end. -/
  | event (side : Side) (a : EventLabel)
  /-- User code on the loop of one end calls `retrieve(len)` of its `inputBuffer_`. -/
  | retrieve (side : Side) (len : Int)
  | retrieveAll (side : Side)

namespace Pair

variable (p : Pair)

def conn (side : Side) : TcpConnection := (p.dispatch side).conn

/-- What `readv` may answer: bytes that come next, the end of the stream once the other end was shut down and all
is read, or an error. -/
def MayRead (side : Side) : ReadResult → Prop
  | .failed => True
  | .read bytes => bytes <+: (p.wire side).inFlight ∧
      (bytes = [] → (p.wire side).inFlight = [] ∧ .shutdownWrite ∈ (p.conn side.other).log)

instance (side : Side) : (read : ReadResult) → Decidable (p.MayRead side read)
  | .failed => isTrue trivial
  | .read bytes => inferInstanceAs (Decidable (bytes <+: (p.wire side).inFlight ∧
      (bytes = [] → (p.wire side).inFlight = [] ∧ .shutdownWrite ∈ (p.conn side.other).log)))

/-- What the kernel may answer to a step. -/
def Answers (side : Side) (a : EventLabel) : Prop :=
  (p.dispatch side).Answers a ∧ ∀ read ∈ (p.dispatch side).reads a, p.MayRead side read

instance (side : Side) (a : EventLabel) : Decidable (p.Answers side a) := by
  unfold Answers
  infer_instance

/-- The pair after a step of one end to `t`. -/
def after (side : Side) (a : EventLabel) (t : Dispatch) : Pair where
  dispatch := Function.update p.dispatch side t
  wire := fun s =>
    if s = side then (p.wire s).take ((p.dispatch side).readBytes a).length
    else (p.wire s).put (writtenBytes (t.conn.log.drop (p.conn side).log.length))
  consumed := p.consumed

/-- These bytes were taken out of `inputBuffer_`, and this is left. -/
def takeOut (side : Side) (bytes : List Byte) (inputBuffer : ByteBuffer) : Pair :=
  let s := p.dispatch side
  { p with
    dispatch := Function.update p.dispatch side { s with conn := { s.conn with inputBuffer } }
    consumed := Function.update p.consumed side (p.consumed side ++ bytes) }

def retrieve (side : Side) (len : Int) : Pair :=
  let buf := (p.conn side).inputBuffer
  p.takeOut side (buf.content.take (toSize len)) (buf.retrieve len)

def retrieveAll (side : Side) : Pair :=
  let buf := (p.conn side).inputBuffer
  p.takeOut side buf.content buf.retrieveAll

def step : PairLabel → Option (Except Assertion Pair)
  | .event side a =>
    if p.Answers side a then ((p.dispatch side).step a).map (·.map (p.after side a)) else none
  | .retrieve side len => some (.ok (p.retrieve side len))
  | .retrieveAll side => some (.ok (p.retrieveAll side))

/-- What an end has received: the bytes taken out of `inputBuffer_` and those in it. -/
def received (side : Side) : List Byte := p.consumed side ++ (p.conn side).inputBuffer.content

/-! ### What is kept -/

/-- Two connections that were established with each other. -/
def established (fd : Side → Int) (writeCompleteCallback : Side → Bool) (highWaterMark : Side → Option Nat) :
    Pair where
  dispatch side := ⟨(new (fd side) (writeCompleteCallback side) (highWaterMark side)).connectEstablished, []⟩
  wire _ := .empty Byte
  consumed _ := []

/-- Each wire carries what the end before it wrote, and each `inputBuffer_` holds what was taken from the wire and
not consumed. -/
structure Inv : Prop where
  sends : ∀ side, Sends (p.conn side)
  carried : ∀ side, (p.wire side.other).carried = writtenBytes (p.conn side).log
  input : ∀ side, p.consumed side ++ (p.conn side).inputBuffer.content = (p.wire side).taken

variable {p} {q : Pair}

theorem conn_after_self (side : Side) (a : EventLabel) (t : Dispatch) : (p.after side a t).conn side = t.conn :=
  congrArg Dispatch.conn (Function.update_self ..)

theorem conn_after_of_ne {side s : Side} (hs : s ≠ side) (a : EventLabel) (t : Dispatch) :
    (p.after side a t).conn s = p.conn s :=
  congrArg Dispatch.conn (Function.update_of_ne hs ..)

theorem conn_takeOut_self (side : Side) (bytes : List Byte) (inputBuffer : ByteBuffer) :
    (p.takeOut side bytes inputBuffer).conn side = { p.conn side with inputBuffer } := by
  show (Function.update p.dispatch side _ side).conn = _
  rw [Function.update_self]
  rfl

theorem conn_takeOut_of_ne {side s : Side} (hs : s ≠ side) (bytes : List Byte) (inputBuffer : ByteBuffer) :
    (p.takeOut side bytes inputBuffer).conn s = p.conn s :=
  congrArg Dispatch.conn (Function.update_of_ne hs ..)

theorem established_inv (fd : Side → Int) (writeCompleteCallback : Side → Bool)
    (highWaterMark : Side → Option Nat) : (established fd writeCompleteCallback highWaterMark).Inv where
  sends side := .of_stream (connectEstablished_stream _ _ _) (by simp [conn, established, connectEstablished])
  carried _ := rfl
  input _ := by
    show [] ++ (ByteBuffer.fresh _).content = []
    rw [ByteBuffer.content_fresh]
    rfl

/-- The log of a step's end grew. -/
theorem writtenBytes_drop {c d : TcpConnection} (h : c.log <+: d.log) :
    writtenBytes c.log ++ writtenBytes (d.log.drop c.log.length) = writtenBytes d.log := by
  obtain ⟨more, hmore⟩ := h
  rw [← hmore, List.drop_left, writtenBytes, writtenBytes, writtenBytes, List.flatMap_append]

theorem Inv.after (h : p.Inv) {side : Side} {a : EventLabel} {t : Dispatch} (hans : p.Answers side a)
    (hstep : (p.dispatch side).step a = some (.ok t)) : (p.after side a t).Inv := by
  have hextends := Dispatch.step_extends hstep
  have hsends := Dispatch.step_sends (h.sends side) hans.1 hstep
  have hread : (p.dispatch side).readBytes a <+: (p.wire side).inFlight := by
    unfold Dispatch.readBytes
    cases hreads : (p.dispatch side).reads a with
    | none => exact List.nil_prefix
    | some read =>
      have hmay := hans.2 read hreads
      cases read with
      | failed => exact List.nil_prefix
      | read bytes => exact hmay.1
  refine ⟨fun s => ?_, fun s => ?_, fun s => ?_⟩
  · by_cases hs : s = side
    · rwa [hs, conn_after_self]
    · rw [conn_after_of_ne hs]
      exact h.sends s
  · by_cases hs : s = side
    · subst hs
      have hput : (p.after s a t).wire s.other =
          (p.wire s.other).put (writtenBytes (t.conn.log.drop (p.conn s).log.length)) :=
        if_neg s.other_ne
      rw [hput, conn_after_self, Wire.carried_put, h.carried s]
      exact writtenBytes_drop hextends.log
    · obtain rfl : side = s.other := Side.eq_other (Ne.symm hs)
      have htake : (p.after s.other a t).wire s.other = (p.wire s.other).take _ := if_pos rfl
      rw [htake, conn_after_of_ne hs, Wire.carried_take, h.carried s]
  · by_cases hs : s = side
    · subst hs
      have htake : (p.after s a t).wire s = (p.wire s).take _ := if_pos rfl
      rw [htake, conn_after_self, Wire.taken_take _ hread, ← h.input s]
      show p.consumed s ++ t.conn.inputBuffer.content = _
      rw [hextends.input, List.append_assoc]
      rfl
    · have hput : (p.after side a t).wire s = (p.wire s).put _ := if_neg hs
      rw [hput, conn_after_of_ne hs, Wire.taken_put]
      exact h.input s

theorem Inv.takeOut (h : p.Inv) (side : Side) {bytes : List Byte} {inputBuffer : ByteBuffer}
    (hbytes : bytes ++ inputBuffer.content = (p.conn side).inputBuffer.content) :
    (p.takeOut side bytes inputBuffer).Inv := by
  refine ⟨fun s => ?_, fun s => ?_, fun s => ?_⟩
  · by_cases hs : s = side
    · rw [hs, conn_takeOut_self]
      exact (h.sends side).congr rfl rfl rfl rfl
    · rw [conn_takeOut_of_ne hs]
      exact h.sends s
  · have hlog : ((p.takeOut side bytes inputBuffer).conn s).log = (p.conn s).log := by
      by_cases hs : s = side
      · rw [hs, conn_takeOut_self]
      · rw [conn_takeOut_of_ne hs]
    rw [hlog]
    exact h.carried s
  · by_cases hs : s = side
    · subst hs
      have hconsumed : (p.takeOut s bytes inputBuffer).consumed s = p.consumed s ++ bytes :=
        Function.update_self ..
      rw [hconsumed, conn_takeOut_self, List.append_assoc, hbytes]
      exact h.input s
    · have hconsumed : (p.takeOut side bytes inputBuffer).consumed s = p.consumed s :=
        Function.update_of_ne hs ..
      rw [hconsumed, conn_takeOut_of_ne hs]
      exact h.input s

theorem step_event_ok {side : Side} {a : EventLabel} (hstep : p.step (.event side a) = some (.ok q)) :
    p.Answers side a ∧ ∃ t, (p.dispatch side).step a = some (.ok t) ∧ q = p.after side a t := by
  obtain ⟨hans, hstep⟩ := Option.ite_none_right_eq_some.mp hstep
  obtain ⟨r, hr, hq⟩ := Option.map_eq_some_iff.mp hstep
  obtain ⟨t, rfl, rfl⟩ := of_map_ok hq
  exact ⟨hans, t, hr, rfl⟩

/-- A step is one of an end, or takes bytes out of an `inputBuffer_`. -/
theorem step_eq_ok {a : PairLabel} (hstep : p.step a = some (.ok q)) :
    (∃ side b t, a = .event side b ∧ p.Answers side b ∧ (p.dispatch side).step b = some (.ok t) ∧
      q = p.after side b t) ∨
    ∃ side bytes inputBuffer, bytes ++ inputBuffer.content = (p.conn side).inputBuffer.content ∧
      q = p.takeOut side bytes inputBuffer := by
  cases a with
  | event side b =>
    obtain ⟨hans, t, hend, rfl⟩ := step_event_ok hstep
    exact .inl ⟨side, b, t, rfl, hans, hend, rfl⟩
  | retrieve side len =>
    refine .inr ⟨side, _, _, ?_, (Except.ok.inj (Option.some.inj hstep)).symm⟩
    rw [ByteBuffer.content_retrieve, List.take_append_drop]
  | retrieveAll side =>
    refine .inr ⟨side, _, _, ?_, (Except.ok.inj (Option.some.inj hstep)).symm⟩
    rw [ByteBuffer.content_retrieveAll, List.append_nil]

theorem Inv.step {a : PairLabel} (h : p.Inv) (hstep : p.step a = some (.ok q)) : q.Inv := by
  rcases step_eq_ok hstep with ⟨side, b, t, -, hans, hend, rfl⟩ | ⟨side, bytes, inputBuffer, hbytes, rfl⟩
  · exact h.after hans hend
  · exact h.takeOut side hbytes

/-- What an end received is a prefix of what the other end sent. -/
theorem Inv.received_prefix_written (h : p.Inv) (side : Side) :
    p.received side <+: writtenBytes (p.conn side.other).log := by
  have hcarried := h.carried side.other
  rw [side.other_other] at hcarried
  rw [received, h.input side, ← hcarried]
  exact Wire.prefix_carried _

theorem Inv.received_prefix_sent (h : p.Inv) (side : Side) : p.received side <+: sentBytes (p.conn side.other).log :=
  (h.received_prefix_written side).trans (h.sends side.other).pre

end Pair

/-! ### Every run -/

/-- Two connections with each other, until an assertion fails. -/
def pairs : Machine (Except Assertion Pair) PairLabel := .ofExcept Pair.step

/-- **Delivered in order**: in every run of two connections, whatever is called, reported, written and read at
either end, closes and errors included: what an end took out of its `inputBuffer_`, followed by what is in it, is a
prefix of what the other end wrote, and this one of the messages passed to `sendInLoop` there, in order. Nothing
is lost in the middle, doubled or changed. -/
theorem delivered_in_order (fd : Side → Int) (writeCompleteCallback : Side → Bool)
    (highWaterMark : Side → Option Nat) (as : List PairLabel) :
    pairs.Always (Machine.HoldsIfOk fun p => ∀ side,
        p.received side <+: writtenBytes (p.conn side.other).log ∧
          writtenBytes (p.conn side.other).log <+: sentBytes (p.conn side.other).log)
      (.ok (.established fd writeCompleteCallback highWaterMark)) as := by
  have hinv : pairs.Always (Machine.HoldsIfOk Pair.Inv)
      (.ok (.established fd writeCompleteCallback highWaterMark)) as :=
    Machine.ofExcept_always_holdsIfOk (Pair.established_inv fd writeCompleteCallback highWaterMark)
      fun _ _ _ h hstep => h.step hstep
  refine hinv.mono fun r h => ?_
  cases r with
  | error e => trivial
  | ok p =>
    intro side
    exact ⟨Pair.Inv.received_prefix_written h side, (Pair.Inv.sends h side.other).pre⟩

end Siren.TcpConnection
