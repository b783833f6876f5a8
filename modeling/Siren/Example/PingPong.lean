import Siren.Net.TcpConnection.Pair
import Siren.Net.TcpConnection.Shutdown

/-!
# The ping-pong example

A `Session` of `client.cc` and `server.cc` on a pair of connections (`Pair`). The client sends one block of bytes
when the connection is up. From then on both ends send back what they read: the server as a string, the client as
a buffer, counting. `Session::stop()` shuts the client's connection down, and the loops run as they do for any
connection: reports of the poller, errors and closes in any order.

* `Inv`: nothing but the block goes around.
* `received_repeats`: in every run, what either end has received is the block, over and over.
* `session_counts`: the counters of the session, which are exact until it is stopped.
-/

namespace Siren.PingPong

open Channel (Handler InterestCall)
open TcpConnection

/-! ### The two programs -/

/-- `message_` of a client whose `blockSize` is this `int`. -/
def block (blockSize : BitVec 32) : List Byte :=
  (List.range blockSize.toInt.toNat).map fun i => UInt8.ofNat (i % 128)

/-- The counters of a `Session`. No connection lasts until an `int64_t` overflows. -/
structure Session where
  bytesRead : Int
  bytesWritten : Int
  messagesRead : Int

/-- What `Session::onMessage` counts. -/
def Session.onMessage (s : Session) (readableBytes : Nat) : Session where
  messagesRead := s.messagesRead + 1
  bytesRead := s.bytesRead + readableBytes
  bytesWritten := s.bytesWritten + readableBytes

/-- The client is the near end, the server the far one. -/
structure State where
  pair : Pair
  session : Session

/-- `conn->send(buf)` in `Session::onMessage`: `send(Buffer*)` empties the buffer when it passes the bytes on. -/
def sessionCalls (conn : TcpConnection) (result : WriteResult) : List PairLabel :=
  .event .near (.request .loop (.sendBuffer conn.inputBuffer.content) result) ::
    if conn.state = .kConnected ∧ conn.inputBuffer.content.length > 0 then [.retrieveAll .near] else []

/-- `onMessage` of the server: `retrieveAllAsString`, which passes the size to `retrieve` as an `int`, and `send`. -/
def serverCalls (conn : TcpConnection) (result : WriteResult) : List PairLabel :=
  [.retrieve .far (toInt conn.inputBuffer.readableBytes),
    .event .far (.request .loop (.sendString conn.inputBuffer.content) result)]

inductive Label where
  /-- A step of the loop at one end; `result` answers the `write` that the message callback may make. -/
  | event (side : Side) (a : EventLabel) (result : WriteResult)
  /-- `Session::stop()` -/
  | stop (thread : Thread) (result : WriteResult)

/-- The steps that a loop makes by itself. -/
def ofLoop : EventLabel → Bool
  | .request .. => false
  | .delayedForceClose => false
  | _ => true

/-- `handleRead` invokes `messageCallback_`. -/
def callsBack (s : Dispatch) (a : EventLabel) : Bool := !(s.readBytes a).isEmpty

namespace State

/-- The message callback of an end. -/
def onMessage (s : State) (result : WriteResult) : Side → Option (Except Assertion State)
  | .near =>
    let conn := s.pair.conn .near
    (pairs.run (.ok s.pair) (sessionCalls conn result)).map
      (·.map fun pair => ⟨pair, s.session.onMessage conn.inputBuffer.readableBytes⟩)
  | .far =>
    (pairs.run (.ok s.pair) (serverCalls (s.pair.conn .far) result)).map (·.map fun pair => ⟨pair, s.session⟩)

def step (s : State) : Label → Option (Except Assertion State)
  | .event side a result =>
    if ofLoop a = true then
      (s.pair.step (.event side a)).bind fun
        | .error e => some (.error e)
        | .ok pair =>
          if callsBack (s.pair.dispatch side) a then onMessage ⟨pair, s.session⟩ result side
          else some (.ok ⟨pair, s.session⟩)
    else none
  | .stop thread result =>
    (s.pair.step (.event .near (.request thread .shutdown result))).map (·.map fun pair => ⟨pair, s.session⟩)

end State

def pingPong : Machine (Except Assertion State) Label := .ofExcept State.step

/-- Both connections are up, and `Session::onConnection` has sent the block. -/
def start (fd : Side → Int) (writeCompleteCallback : Side → Bool) (highWaterMark : Side → Option Nat)
    (blockSize : BitVec 32) (result : WriteResult) : Option (Except Assertion State) :=
  let pair := Pair.established fd writeCompleteCallback highWaterMark
  (pair.step (.event .near (.request .loop (.sendString (block blockSize)) result))).map
    (·.map fun pair => ⟨pair, ⟨0, 0, 0⟩⟩)

/-! ### What one end does -/

/-- What may wait in the mailbox: callbacks, and the end of a `shutdown`. -/
def IsPlain (f : Functor) : Prop := f = .shutdownInLoop ∨ f.isCallback = true

/-- The descriptor is in the epoll set, for reading at least. -/
def Listening (c : TcpConnection) : Prop := isAdded c ∧ c.isReading = true

theorem Listening.of_channel {c d : TcpConnection} (h : Listening c)
    (hindex : (d.channel.channel ()).index = (c.channel.channel ()).index)
    (hevents : (d.channel.channel ()).events = (c.channel.channel ()).events) : Listening d := by
  refine ⟨hindex.trans h.1, ?_⟩
  rw [isReading, Channel.isReading, hevents]
  exact h.2

/-- A change of the interest in writing. -/
theorem Listening.setInterest {c : TcpConnection} (h : Listening c) {call : InterestCall}
    (hcall : call.reading true = true) : Listening (c.setInterest call) := by
  have hreading : (c.setInterest call).isReading = true := by rw [setInterest_isReading, h.2, hcall]
  refine ⟨?_, hreading⟩
  have hevents : call.mask (c.channel.channel ()).events ≠ Channel.kNoneEvent := fun hnone => by
    rw [isReading, setInterest_channel] at hreading
    simp only [Channel.isReading, Registry.afterInterest, hnone] at hreading
    exact absurd hreading (by decide)
  rw [isAdded, setInterest_channel]
  simp [Registry.afterInterest, Registry.indexAfter, hevents]

theorem Listening.rule : MemberRule fun c d => Listening c → Listening d where
  refl _ := id
  trans h h' := h' ∘ h
  record _ _ _ h := h.of_channel rfl rfl
  queueInLoop _ _ h := h.of_channel rfl rfl
  setOutputBuffer _ _ h := h.of_channel rfl rfl
  enableWriting _ h := h.setInterest rfl
  disableWriting _ h := h.setInterest rfl
  setState _ _ h := h.of_channel rfl rfl
  delay _ _ h := h.of_channel rfl rfl

/-- `d` comes from `c` by steps that sent these bytes on the loop thread, shut down or closed. -/
structure Sent (bytes : List Byte) (c d : TcpConnection) : Prop where
  sent : sentBytes d.log = sentBytes c.log ++ bytes
  connected : d.state = .kConnected → c.state = .kConnected
  notClosed : d.state ≠ .kDisconnected → c.state ≠ .kDisconnected
  listening : d.state ≠ .kDisconnected → Listening c → Listening d
  mailbox : ∀ f ∈ d.functors ++ d.pendingFunctors, f ∈ c.functors ++ c.pendingFunctors ∨ IsPlain f

def Plain (c : TcpConnection) : Prop := ∀ f ∈ c.functors ++ c.pendingFunctors, IsPlain f

namespace Sent

variable {c d e : TcpConnection} {bytes more : List Byte} {result : WriteResult}

theorem plain (h : Sent bytes c d) (hc : Plain c) : Plain d := fun f hf =>
  (h.mailbox f hf).elim (hc f) id

theorem of_state (hsent : sentBytes d.log = sentBytes c.log) (hstate : d.state = c.state)
    (hlistening : Listening c → Listening d)
    (hmailbox : ∀ f ∈ d.functors ++ d.pendingFunctors, f ∈ c.functors ++ c.pendingFunctors ∨ IsPlain f) :
    Sent [] c d where
  sent := by rw [hsent, List.append_nil]
  connected := by rw [hstate]; exact id
  notClosed := by rw [hstate]; exact id
  listening _ := hlistening
  mailbox := hmailbox

theorem refl (c : TcpConnection) : Sent [] c c := of_state rfl rfl id fun _ hf => .inl hf

theorem writes (hw : Writes result c d) (hlistening : Listening c → Listening d) : Sent [] c d := by
  refine of_state ?_ hw.state hlistening fun f hf => ?_
  · rw [sentBytes_eq_flatten, hw.log.sentMessages, ← sentBytes_eq_flatten]
  · obtain ⟨new, hnew, hcallback⟩ := hw.pending
    rw [hw.functors, hnew, ← List.append_assoc, List.mem_append] at hf
    exact hf.imp id fun hf => .inr (hcallback f hf)

theorem trans (h : Sent bytes c d) (h' : Sent more d e) : Sent (bytes ++ more) c e where
  sent := by rw [h'.sent, h.sent, List.append_assoc]
  connected hopen := h.connected (h'.connected hopen)
  notClosed hopen := h.notClosed (h'.notClosed hopen)
  listening hopen hc := h'.listening hopen (h.listening (h'.notClosed hopen) hc)
  mailbox f hf := (h'.mailbox f hf).elim (h.mailbox f) .inr

theorem record {a : Action} (ha : a.sent = []) : Sent [] c (c.record a) :=
  of_state (by simp [ha]) rfl (·.of_channel rfl rfl) fun _ hf => .inl hf

theorem sendInLoop (data : List Byte) (result : WriteResult) : Sent data c (c.sendInLoop data result) := by
  have hsent := writes (Writes.sendInLoop (c := c) data result) fun h => Listening.rule.sendInLoop c data result h
  exact ⟨by simpa [Action.sent] using hsent.sent, hsent.connected, hsent.notClosed, hsent.listening, hsent.mailbox⟩

theorem passOn (message passed : List Byte) (result : WriteResult) :
    Sent passed c (c.passOn .loop message passed result) :=
  (record (a := .accept message passed) rfl).trans (sendInLoop passed result)

theorem shutdownInLoop (c : TcpConnection) : Sent [] c c.shutdownInLoop := by
  rcases shutdownInLoop_cases c with ⟨-, heq⟩ | ⟨-, heq⟩
  · rw [heq]
    exact refl c
  · rw [heq]
    exact record rfl

theorem shutdown (c : TcpConnection) (thread : Thread) : Sent [] c (c.shutdown thread) := by
  unfold TcpConnection.shutdown
  split
  · rename_i hopen
    have hstate : Sent [] c (c.setState .kDisconnecting) := by
      refine ⟨(List.append_nil _).symm, fun h => ?_, fun _ => ?_, fun _ h => h.of_channel rfl rfl,
        fun _ hf => .inl hf⟩
      · cases h
      · simp [hopen]
    cases thread with
    | loop => exact hstate.trans (shutdownInLoop _)
    | other =>
      show Sent [] c ((c.setState .kDisconnecting).queueInLoop .shutdownInLoop)
      refine hstate.trans (of_state rfl rfl (·.of_channel rfl rfl) fun f hf => ?_)
      rw [TcpConnection.queueInLoop, ← List.append_assoc, List.mem_append, List.mem_singleton] at hf
      exact hf.imp id .inl
  · exact refl c

theorem handleWrite (c : TcpConnection) (result : WriteResult) : Sent [] c (c.handleWrite result) := by
  have hlistening := Listening.rule.handleWrite c result
  rcases handleWrite_spec c result with ⟨-, hwrites⟩ | ⟨-, d, hwrites, -, heq⟩
  · exact writes hwrites hlistening
  · rw [heq] at hlistening ⊢
    have hwritten : Sent [] c d := writes hwrites fun h => (hlistening h).of_channel rfl rfl
    exact hwritten.trans (record rfl)

theorem handleClose (hok : c.handleClose = .ok d) : Sent [] c d := by
  obtain ⟨-, hok⟩ := of_cassert_bind hok
  obtain rfl := Except.ok.inj hok
  refine ⟨?_, fun h => (by cases h), fun hopen => absurd rfl hopen, fun hopen => absurd rfl hopen,
    fun _ hf => .inl hf⟩
  show sentBytes (c.log ++ [.connectionDown] ++ [.closeCallback]) = _
  rw [sentBytes_concat, sentBytes_concat]
  exact List.append_nil _

theorem handleRead {read : ReadResult} (hok : c.handleRead read = .ok d) : Sent [] c d := by
  have hinput : Sent [] c { c with inputBuffer := c.inputBuffer.readFd read } :=
    of_state rfl rfl (·.of_channel rfl rfl) fun _ hf => .inl hf
  rcases handleRead_cases c read with ⟨bytes, rfl, -, heq⟩ | ⟨rfl, heq⟩ | ⟨rfl, heq⟩
  · obtain rfl := Except.ok.inj (heq.symm.trans hok)
    exact hinput.trans (record rfl)
  · exact hinput.trans (handleClose (heq.symm.trans hok))
  · obtain rfl := Except.ok.inj (heq.symm.trans hok)
    exact hinput

/-- A step of a loop whose mailbox is plain. -/
theorem step {s t : Dispatch} {a : EventLabel} (hplain : Plain s.conn) (ha : ofLoop a = true)
    (hstep : s.step a = some (.ok t)) : Sent [] s.conn t.conn := by
  generalize hr : Except.ok t = r at hstep
  cases Dispatch.step_takes hstep with
  | request => cases ha
  | delayedForceClose => cases ha
  | poll revents channel handlers hindex hevents =>
    obtain rfl := Except.ok.inj hr
    exact of_state rfl rfl (·.of_channel hindex hevents) fun _ hf => .inl hf
  | handle read write handler handlers hhandlers =>
    obtain ⟨d, hd, rfl⟩ := of_map_ok hr.symm
    cases handler with
    | close => exact handleClose hd
    | error => exact Except.ok.inj hd ▸ refl s.conn
    | read => exact handleRead hd
    | write => exact Except.ok.inj hd ▸ handleWrite s.conn write
  | swap hfunctors =>
    obtain rfl := Except.ok.inj hr
    exact of_state rfl rfl (·.of_channel rfl rfl) fun f hf => .inl (by simpa [swapFunctors, hfunctors] using hf)
  | runFunctor result f functors hfunctors =>
    obtain ⟨d, hd, rfl⟩ := of_map_ok hr.symm
    have hpop : Sent [] s.conn { s.conn with functors } := by
      refine of_state rfl rfl (·.of_channel rfl rfl) fun g hg => .inl ?_
      rw [hfunctors, List.cons_append]
      exact List.mem_cons_of_mem _ hg
    rcases hplain f (by simp [hfunctors]) with rfl | hcallback
    · obtain rfl := Except.ok.inj hd
      exact hpop.trans (shutdownInLoop _)
    · cases f with
      | writeCompleteCallback => exact Except.ok.inj hd ▸ hpop
      | highWaterMarkCallback size => exact Except.ok.inj hd ▸ hpop
      | _ => cases hcallback

/-- A `send` of an open connection passes its bytes on. -/
theorem sendString (hopen : c.state = .kConnected) {message : List Byte} (hint : message.length ≤ intMax)
    (result : WriteResult) : Sent message c (c.sendString .loop message result) := by
  unfold TcpConnection.sendString TcpConnection.send
  rw [toInt_of_le hint]
  by_cases hne : message = []
  · subst hne
    exact refl c
  · have hpos := List.length_pos_of_ne_nil hne
    rw [if_neg (by omega), if_pos hopen, Int.toNat_natCast, List.take_length]
    exact passOn message message result

theorem sendString_of_not (hclosed : c.state ≠ .kConnected) (message : List Byte) (result : WriteResult) :
    Sent [] c (c.sendString .loop message result) := by
  unfold TcpConnection.sendString TcpConnection.send
  rw [if_neg hclosed, ite_self]
  exact refl c

theorem sendBuffer (hopen : c.state = .kConnected) {message : List Byte} (hne : message ≠ [])
    (result : WriteResult) : Sent message c (c.sendBuffer .loop message result) := by
  unfold TcpConnection.sendBuffer
  rw [if_pos ⟨hopen, List.length_pos_of_ne_nil hne⟩]
  exact passOn message message result

theorem sendBuffer_of_not (hclosed : c.state ≠ .kConnected) (message : List Byte) (result : WriteResult) :
    Sent [] c (c.sendBuffer .loop message result) := by
  unfold TcpConnection.sendBuffer
  rw [if_neg fun h => hclosed h.1]
  exact refl c

end Sent

/-! ### What goes around -/

/-- One end of a pair sent these bytes and took those out of its `inputBuffer_`. -/
structure Moves (side : Side) (sent taken : List Byte) (p q : Pair) : Prop where
  inv : q.Inv
  self : Sent sent (p.conn side) (q.conn side)
  other : q.conn side.other = p.conn side.other
  consumedSelf : q.consumed side = p.consumed side ++ taken
  consumedOther : q.consumed side.other = p.consumed side.other

namespace Moves

variable {p q r : Pair} {side : Side} {sent taken sent' taken' : List Byte}

theorem trans (h : Moves side sent taken p q) (h' : Moves side sent' taken' q r) :
    Moves side (sent ++ sent') (taken ++ taken') p r where
  inv := h'.inv
  self := h.self.trans h'.self
  other := h'.other.trans h.other
  consumedSelf := by rw [h'.consumedSelf, h.consumedSelf, List.append_assoc]
  consumedOther := h'.consumedOther.trans h.consumedOther

theorem event (hinv : p.Inv) {a : EventLabel} {t : Dispatch} (hans : p.Answers side a)
    (hstep : (p.dispatch side).step a = some (.ok t)) (hsent : Sent sent (p.conn side) t.conn) :
    Moves side sent [] p (p.after side a t) where
  inv := hinv.after hans hstep
  self := by rwa [Pair.conn_after_self]
  other := Pair.conn_after_of_ne side.other_ne a t
  consumedSelf := (List.append_nil _).symm
  consumedOther := rfl

theorem takeOut (hinv : p.Inv) {inputBuffer : ByteBuffer}
    (hbytes : taken ++ inputBuffer.content = (p.conn side).inputBuffer.content) :
    Moves side [] taken p (p.takeOut side taken inputBuffer) where
  inv := hinv.takeOut side hbytes
  self := by
    rw [Pair.conn_takeOut_self]
    exact .of_state rfl rfl id fun _ hf => .inl hf
  other := Pair.conn_takeOut_of_ne side.other_ne taken inputBuffer
  consumedSelf := Function.update_self ..
  consumedOther := Function.update_of_ne side.other_ne ..

/-- A call on the loop thread. -/
theorem request (hinv : p.Inv) {call : Call} {result : WriteResult}
    (hsent : Sent sent (p.conn side) ((p.conn side).call .loop result call))
    (hstep : p.step (.event side (.request .loop call result)) = some (.ok q)) :
    Moves side sent [] p q ∧ (q.conn side).inputBuffer.content = (p.conn side).inputBuffer.content := by
  obtain ⟨hans, t, hend, rfl⟩ := Pair.step_event_ok hstep
  have hinput := (Dispatch.step_extends hend).input
  obtain rfl := Except.ok.inj (Option.some.inj hend)
  refine ⟨event hinv hans hend hsent, ?_⟩
  rw [Pair.conn_after_self, hinput]
  exact List.append_nil _

/-- `Session::onMessage` sends back what is in the buffer of an open connection, and leaves it in that of any
other. -/
theorem of_sessionCalls (hinv : p.Inv) {result : WriteResult} (hne : (p.conn .near).inputBuffer.content ≠ [])
    (hrun : pairs.run (.ok p) (sessionCalls (p.conn .near) result) = some (.ok q)) :
    (p.conn .near).state = .kConnected ∧ (q.conn .near).inputBuffer.content = [] ∧
        Moves .near (p.conn .near).inputBuffer.content (p.conn .near).inputBuffer.content p q ∨
      (p.conn .near).state ≠ .kConnected ∧
        (q.conn .near).inputBuffer.content = (p.conn .near).inputBuffer.content ∧ Moves .near [] [] p q := by
  obtain ⟨p', hsend, hrun⟩ := Machine.ofExcept_run_cons_ok hrun
  by_cases hopen : (p.conn .near).state = .kConnected
  · obtain ⟨hmoves, hinput⟩ := request hinv (Sent.sendBuffer hopen hne result) hsend
    rw [if_pos ⟨hopen, List.length_pos_of_ne_nil hne⟩] at hrun
    obtain ⟨q', hretrieve, hrun⟩ := Machine.ofExcept_run_cons_ok hrun
    obtain rfl : q' = q := Except.ok.inj (Option.some.inj hrun)
    obtain rfl := Except.ok.inj (Option.some.inj hretrieve)
    have htaken : Moves .near [] (p'.conn .near).inputBuffer.content p' (p'.retrieveAll .near) :=
      takeOut hmoves.inv (by rw [ByteBuffer.content_retrieveAll, List.append_nil])
    refine .inl ⟨hopen, ?_, ?_⟩
    · show ((p'.takeOut .near _ _).conn .near).inputBuffer.content = []
      rw [Pair.conn_takeOut_self]
      exact ByteBuffer.content_retrieveAll _
    · have hall := hmoves.trans htaken
      rwa [List.append_nil, List.nil_append, hinput] at hall
  · obtain ⟨hmoves, hinput⟩ := request hinv (Sent.sendBuffer_of_not hopen _ result) hsend
    rw [if_neg fun h => hopen h.1] at hrun
    obtain rfl : p' = q := Except.ok.inj (Option.some.inj hrun)
    exact .inr ⟨hopen, hinput, hmoves⟩

/-- `onMessage` of the server takes everything that an `int` counts, and sends it back if the connection is open. -/
theorem of_serverCalls (hinv : p.Inv) {result : WriteResult}
    (hint : (p.conn .far).inputBuffer.content.length ≤ intMax)
    (hrun : pairs.run (.ok p) (serverCalls (p.conn .far) result) = some (.ok q)) :
    (q.conn .far).inputBuffer.content = [] ∧
      Moves .far (if (p.conn .far).state = .kConnected then (p.conn .far).inputBuffer.content else [])
        (p.conn .far).inputBuffer.content p q := by
  obtain ⟨p', hretrieve, hrun⟩ := Machine.ofExcept_run_cons_ok hrun
  obtain ⟨q', hsend, hrun⟩ := Machine.ofExcept_run_cons_ok hrun
  obtain rfl : q' = q := Except.ok.inj (Option.some.inj hrun)
  have hsize : toSize (toInt (p.conn .far).inputBuffer.readableBytes) = (p.conn .far).inputBuffer.content.length := by
    rw [ByteBuffer.readableBytes_eq, toInt_of_le hint, toSize_ofNat (by unfold intMax at hint; omega)]
  obtain ⟨htaken, hempty, hstate⟩ : Moves .far [] (p.conn .far).inputBuffer.content p p' ∧
      (p'.conn .far).inputBuffer.content = [] ∧ (p'.conn .far).state = (p.conn .far).state := by
    obtain rfl := Except.ok.inj (Option.some.inj hretrieve)
    have hempty : ((p.conn .far).inputBuffer.retrieve (toInt (p.conn .far).inputBuffer.readableBytes)).content =
        [] := by
      rw [ByteBuffer.content_retrieve, hsize, List.drop_length]
    rw [Pair.retrieve, Pair.conn_takeOut_self, hsize, List.take_length]
    exact ⟨takeOut hinv (by rw [hempty, List.append_nil]), hempty, rfl⟩
  rw [← hstate]
  split
  · rename_i hopen
    have hsent : Sent _ _ ((p'.conn .far).call .loop result (.sendString (p.conn .far).inputBuffer.content)) :=
      Sent.sendString hopen hint result
    obtain ⟨hmoves, hinput⟩ := request htaken.inv hsent hsend
    exact ⟨hinput.trans hempty, by simpa using htaken.trans hmoves⟩
  · rename_i hclosed
    have hsent : Sent _ _ ((p'.conn .far).call .loop result (.sendString (p.conn .far).inputBuffer.content)) :=
      Sent.sendString_of_not hclosed (p.conn .far).inputBuffer.content result
    obtain ⟨hmoves, hinput⟩ := request htaken.inv hsent hsend
    exact ⟨hinput.trans hempty, by simpa using htaken.trans hmoves⟩

end Moves

/-- Nothing but the block goes around: the client has sent it and what it took out of its buffer, and the server
what it took out of its own, unless it was closed. -/
structure Flow (message : List Byte) (p : Pair) : Prop where
  inv : p.Inv
  plain : ∀ side, Plain (p.conn side)
  listening : ∀ side, (p.conn side).state ≠ .kDisconnected → Listening (p.conn side)
  near : sentBytes (p.conn .near).log = message ++ p.consumed .near
  far : sentBytes (p.conn .far).log <+: p.consumed .far
  farOpen : (p.conn .far).state = .kConnected → sentBytes (p.conn .far).log = p.consumed .far

namespace Flow

variable {p q : Pair} {message : List Byte} {side : Side} {sent taken : List Byte}

theorem prefix_received (p : Pair) (side : Side) : p.consumed side <+: p.received side := List.prefix_append ..

/-- What the client received, the server took out and sent. -/
theorem prefix_consumed_far (h : Flow message p) : p.received .near <+: p.consumed .far :=
  (h.inv.received_prefix_sent .near).trans h.far

/-- What the server received is the block and what the client took out. -/
theorem prefix_block_append (h : Flow message p) : p.received .far <+: message ++ p.consumed .near := by
  rw [← h.near]
  exact h.inv.received_prefix_sent .far

/-- Each end's stream is a prefix of itself behind the block. -/
theorem repeats (h : Flow message p) : ∀ side, p.received side <+: message ++ p.received side
  | .near =>
    calc p.received .near
      _ <+: p.consumed .far := h.prefix_consumed_far
      _ <+: p.received .far := prefix_received p .far
      _ <+: message ++ p.consumed .near := h.prefix_block_append
      _ <+: message ++ p.received .near := List.prefix_append_right_inj _ |>.mpr (prefix_received p .near)
  | .far =>
    calc p.received .far
      _ <+: message ++ p.consumed .near := h.prefix_block_append
      _ <+: message ++ p.consumed .far := List.prefix_append_right_inj _ |>.mpr
          ((prefix_received p .near).trans h.prefix_consumed_far)
      _ <+: message ++ p.received .far := List.prefix_append_right_inj _ |>.mpr (prefix_received p .far)

/-- The server's buffer never holds more than the block. -/
theorem length_content_far (h : Flow message p) : (p.conn .far).inputBuffer.content.length ≤ message.length := by
  have hfar := h.prefix_block_append.length_le
  have hnear := ((prefix_received p .near).trans h.prefix_consumed_far).length_le
  rw [Pair.received, List.length_append, List.length_append] at hfar
  omega

theorem moves (h : Flow message p) (hm : Moves side sent taken p q)
    (hnear : side = .near → sent = taken)
    (hfar : side = .far → sent = if (p.conn .far).state = .kConnected then taken else []) : Flow message q := by
  have hall : ∀ P : Side → Prop, P side → P side.other → ∀ s, P s := fun P hself hother s => by
    by_cases hs : s = side
    · exact hs ▸ hself
    · exact Side.eq_other hs ▸ hother
  refine ⟨hm.inv, hall _ (hm.self.plain (h.plain side)) (by rw [hm.other]; exact h.plain _),
    hall _ (fun hopen => ?_) (by rw [hm.other]; exact h.listening _), ?_, ?_, ?_⟩
  · exact hm.self.listening hopen (h.listening side (hm.self.notClosed hopen))
  · cases side with
    | near => rw [hm.self.sent, hm.consumedSelf, h.near, hnear rfl, List.append_assoc]
    | far =>
      have hconn : q.conn .near = p.conn .near := hm.other
      have hconsumed : q.consumed .near = p.consumed .near := hm.consumedOther
      rw [hconn, hconsumed, h.near]
  · cases side with
    | near =>
      have hconn : q.conn .far = p.conn .far := hm.other
      have hconsumed : q.consumed .far = p.consumed .far := hm.consumedOther
      rw [hconn, hconsumed]
      exact h.far
    | far =>
      rw [hm.self.sent, hm.consumedSelf, hfar rfl]
      split
      · rename_i hopen
        rw [h.farOpen hopen]
      · rw [List.append_nil]
        exact h.far.trans (List.prefix_append ..)
  · cases side with
    | near =>
      have hconn : q.conn .far = p.conn .far := hm.other
      have hconsumed : q.consumed .far = p.consumed .far := hm.consumedOther
      rw [hconn, hconsumed]
      exact h.farOpen
    | far =>
      intro hopen
      have hbefore := hm.self.connected hopen
      rw [hm.self.sent, hm.consumedSelf, hfar rfl, if_pos hbefore, h.farOpen hbefore]

end Flow

/-- What the counters of the session say of what the client has received. -/
structure Counts (p : Pair) (session : Session) : Prop where
  written : session.bytesWritten = session.bytesRead
  least : (p.received .near).length ≤ session.bytesRead
  exact : (p.conn .near).state = .kConnected → session.bytesRead = (p.received .near).length
  messages : 0 ≤ session.messagesRead ∧ session.messagesRead ≤ session.bytesRead

/-- The invariant of the program. -/
structure Inv (message : List Byte) (s : State) : Prop where
  flow : Flow message s.pair
  emptied : ∀ side, (s.pair.conn side).state = .kConnected → (s.pair.conn side).inputBuffer.content = []
  silent : message = [] → ∀ side, s.pair.received side = []
  counts : Counts s.pair s.session

variable {p q : Pair} {message : List Byte} {side : Side} {sent taken : List Byte} {s t : State}

/-- An end of which nothing was read. -/
theorem Counts.of_received {session : Session} (h : Counts p session) (hreceived : q.received .near = p.received .near)
    (hconnected : (q.conn .near).state = .kConnected → (p.conn .near).state = .kConnected) : Counts q session where
  written := h.written
  least := hreceived ▸ h.least
  exact hopen := hreceived ▸ h.exact (hconnected hopen)
  messages := h.messages

/-- A step that reads nothing. -/
theorem Inv.moves (h : Inv message s) (hflow : Flow message q) (hm : Moves side sent [] s.pair q)
    (hinput : (q.conn side).inputBuffer.content = (s.pair.conn side).inputBuffer.content) :
    Inv message ⟨q, s.session⟩ := by
  have hcontent : ∀ s', (q.conn s').inputBuffer.content = (s.pair.conn s').inputBuffer.content := fun s' => by
    by_cases hs : s' = side
    · rw [hs, hinput]
    · rw [Side.eq_other hs, hm.other]
  have hconsumed : ∀ s', q.consumed s' = s.pair.consumed s' := fun s' => by
    by_cases hs : s' = side
    · rw [hs, hm.consumedSelf, List.append_nil]
    · rw [Side.eq_other hs, hm.consumedOther]
  have hconnected : ∀ s', (q.conn s').state = .kConnected → (s.pair.conn s').state = .kConnected := by
    intro s' hopen
    by_cases hs : s' = side
    · subst hs
      exact hm.self.connected hopen
    · rw [Side.eq_other hs, hm.other] at hopen
      rwa [Side.eq_other hs]
  have hreceived : ∀ s', q.received s' = s.pair.received s' := fun s' => by
    rw [Pair.received, Pair.received, hconsumed, hcontent]
  exact ⟨hflow, fun s' hopen => (hcontent s').trans (h.emptied s' (hconnected s' hopen)),
    fun hnil s' => (hreceived s').trans (h.silent hnil s'),
    h.counts.of_received (hreceived .near) (hconnected .near)⟩

theorem Inv.consumed_eq_nil (h : Inv message s) (hnil : message = []) (side : Side) : s.pair.consumed side = [] :=
  (List.append_eq_nil_iff.mp (h.silent hnil side)).1

/-- The message callback of the client, after a read. -/
theorem Inv.near_onMessage (h : Inv message s) (hflow : Flow message p) (hm : Moves .near [] [] s.pair p)
    {bytes : List Byte} (hbytes : bytes ≠ [])
    (hinput : (p.conn .near).inputBuffer.content = (s.pair.conn .near).inputBuffer.content ++ bytes)
    {result : WriteResult} (hrun : State.onMessage ⟨p, s.session⟩ result .near = some (.ok t)) : Inv message t := by
  obtain ⟨r, hr, hrun⟩ := Option.map_eq_some_iff.mp hrun
  obtain ⟨q, rfl, rfl⟩ := of_map_ok hrun
  have hne : (p.conn .near).inputBuffer.content ≠ [] := by simp [hinput, hbytes]
  have hblock : message ≠ [] := fun hnil => by
    have hprefix := hflow.prefix_consumed_far
    rw [show p.consumed .far = [] from hm.consumedOther.trans (h.consumed_eq_nil hnil .far),
      List.prefix_nil] at hprefix
    exact hne (List.append_eq_nil_iff.mp hprefix).2
  have hreceived : (p.received .near).length = (s.pair.received .near).length + bytes.length := by
    rw [Pair.received, hm.consumedSelf, hinput, Pair.received]
    simp only [List.length_append, List.length_nil]
    omega
  have hread : ((p.conn .near).inputBuffer.readableBytes : Int) =
      (s.pair.conn .near).inputBuffer.content.length + bytes.length := by
    rw [ByteBuffer.readableBytes_eq, hinput, List.length_append, Nat.cast_add]
  have hpos : 0 < bytes.length := List.length_pos_of_ne_nil hbytes
  have hmessages := h.counts.messages
  have hleast := h.counts.least
  have hwritten := h.counts.written
  rcases Moves.of_sessionCalls hflow.inv hne hr with ⟨hopen, hempty, hback⟩ | ⟨hclosed, hsame, hback⟩
  · have hfar : q.conn .far = s.pair.conn .far := hback.other.trans hm.other
    have hgot : (q.received .near).length = (p.received .near).length := by
      rw [Pair.received, hback.consumedSelf, hempty, List.append_nil, Pair.received]
    have hbefore := hm.self.connected hopen
    have hexact := h.counts.exact hbefore
    have hnil := h.emptied .near hbefore
    rw [hnil, List.length_nil] at hread
    refine ⟨hflow.moves hback (fun _ => rfl) (fun h => by cases h), fun side hside => ?_, ?_, ?_⟩
    · cases side with
      | near => exact hempty
      | far =>
        rw [hfar] at hside ⊢
        exact h.emptied .far hside
    · exact fun hnil => absurd hnil hblock
    · refine ⟨?_, ?_, fun _ => ?_, ?_, ?_⟩ <;> simp only [Session.onMessage] <;> omega
  · have hfar : q.conn .far = s.pair.conn .far := hback.other.trans hm.other
    have hgot : (q.received .near).length = (p.received .near).length := by
      rw [Pair.received, hback.consumedSelf, List.append_nil, hsame, Pair.received]
    refine ⟨hflow.moves hback (fun _ => rfl) (fun h => by cases h), fun side hside => ?_, ?_, ?_⟩
    · cases side with
      | near => exact absurd (hback.self.connected hside) hclosed
      | far =>
        rw [hfar] at hside ⊢
        exact h.emptied .far hside
    · exact fun hnil => absurd hnil hblock
    · refine ⟨?_, ?_, fun hside => absurd (hback.self.connected hside) hclosed, ?_, ?_⟩ <;>
        simp only [Session.onMessage] <;> omega

/-- The message callback of the server, after a read. -/
theorem Inv.far_onMessage (h : Inv message s) (hmax : message.length ≤ intMax) (hflow : Flow message p)
    (hm : Moves .far [] [] s.pair p) {bytes : List Byte} (hbytes : bytes ≠ [])
    (hinput : (p.conn .far).inputBuffer.content = (s.pair.conn .far).inputBuffer.content ++ bytes)
    {result : WriteResult} (hrun : State.onMessage ⟨p, s.session⟩ result .far = some (.ok t)) : Inv message t := by
  obtain ⟨r, hr, hrun⟩ := Option.map_eq_some_iff.mp hrun
  obtain ⟨q, rfl, rfl⟩ := of_map_ok hrun
  obtain ⟨hempty, hback⟩ := Moves.of_serverCalls hflow.inv (hflow.length_content_far.trans hmax) hr
  have hnear : q.conn .near = s.pair.conn .near := hback.other.trans hm.other
  have hconsumed : q.consumed .near = s.pair.consumed .near := hback.consumedOther.trans hm.consumedOther
  have hblock : message ≠ [] := fun hnil => by
    have hprefix := hflow.prefix_block_append
    rw [show p.consumed .near = [] from hm.consumedOther.trans (h.consumed_eq_nil hnil .near), hnil,
      List.append_nil, List.prefix_nil] at hprefix
    have hempty := (List.append_eq_nil_iff.mp hprefix).2
    rw [hinput] at hempty
    exact hbytes (List.append_eq_nil_iff.mp hempty).2
  refine ⟨hflow.moves hback (fun h => by cases h) (fun _ => rfl), fun side hside => ?_,
    fun hnil => absurd hnil hblock, ?_⟩
  · cases side with
    | near =>
      rw [hnear] at hside ⊢
      exact h.emptied .near hside
    | far => exact hempty
  · refine h.counts.of_received ?_ (by rw [hnear]; exact id)
    rw [Pair.received, Pair.received, hconsumed, hnear]

theorem Inv.step {a : Label} (h : Inv message s) (hmax : message.length ≤ intMax)
    (hstep : s.step a = some (.ok t)) : Inv message t := by
  cases a with
  | event side a result =>
    obtain ⟨ha, hstep⟩ := Option.ite_none_right_eq_some.mp hstep
    obtain ⟨r, hr, hstep⟩ := Option.bind_eq_some_iff.mp hstep
    cases r with
    | error e => cases hstep
    | ok p =>
      obtain ⟨hans, d, hend, rfl⟩ := Pair.step_event_ok hr
      have hmoves := Moves.event h.flow.inv hans hend (Sent.step (h.flow.plain side) ha hend)
      have hflow := h.flow.moves hmoves (fun _ => rfl) fun _ => by simp
      have hinput : ((s.pair.after side a d).conn side).inputBuffer.content =
          (s.pair.conn side).inputBuffer.content ++ (s.pair.dispatch side).readBytes a := by
        rw [Pair.conn_after_self]
        exact (Dispatch.step_extends hend).input
      by_cases hcalls : callsBack (s.pair.dispatch side) a = true
      · have hstep := (if_pos hcalls).symm.trans hstep
        have hbytes : (s.pair.dispatch side).readBytes a ≠ [] := by simpa [callsBack] using hcalls
        cases side with
        | near => exact h.near_onMessage hflow hmoves hbytes hinput hstep
        | far => exact h.far_onMessage hmax hflow hmoves hbytes hinput hstep
      · have hstep := (if_neg hcalls).symm.trans hstep
        have hbytes : (s.pair.dispatch side).readBytes a = [] := by simpa [callsBack] using hcalls
        obtain rfl := Except.ok.inj (Option.some.inj hstep)
        exact h.moves hflow hmoves (by rw [hinput, hbytes, List.append_nil])
  | stop thread result =>
    obtain ⟨r, hr, hstep⟩ := Option.map_eq_some_iff.mp hstep
    obtain ⟨q, rfl, rfl⟩ := of_map_ok hstep
    obtain ⟨hans, d, hend, rfl⟩ := Pair.step_event_ok hr
    have hinput := (Dispatch.step_extends hend).input
    obtain rfl := Except.ok.inj (Option.some.inj hend)
    have hmoves := Moves.event h.flow.inv hans hend (Sent.shutdown (s.pair.conn .near) thread)
    refine h.moves (h.flow.moves hmoves (fun _ => rfl) fun h => by cases h) hmoves ?_
    rw [Pair.conn_after_self, hinput]
    exact List.append_nil _

/-! ### Every run -/

theorem length_block_le (blockSize : BitVec 32) : (block blockSize).length ≤ intMax := by
  have hlt := blockSize.two_mul_toInt_lt
  rw [block, List.length_map, List.length_range]
  unfold intMax
  omega

theorem listening_connectEstablished (fd : Int) (writeCompleteCallback : Bool) (highWaterMark : Option Nat) :
    Listening (new fd writeCompleteCallback highWaterMark).connectEstablished := by
  refine ⟨?_, ?_⟩
  · rw [isAdded, connectEstablished, setInterest_channel]
    rfl
  · rw [connectEstablished, setInterest_isReading]
    rfl

/-- The programs start, with all of the block on its way. -/
theorem start_inv (fd : Side → Int) (writeCompleteCallback : Side → Bool) (highWaterMark : Side → Option Nat)
    (blockSize : BitVec 32) (result : WriteResult) :
    ∃ s, start fd writeCompleteCallback highWaterMark blockSize result = some (.ok s) ∧
      Inv (block blockSize) s := by
  have hinv := Pair.established_inv fd writeCompleteCallback highWaterMark
  have hstart : ∀ side, (Pair.established fd writeCompleteCallback highWaterMark).conn side =
      (new (fd side) (writeCompleteCallback side) (highWaterMark side)).connectEstablished := fun _ => rfl
  have hlog : ∀ side, sentBytes ((Pair.established fd writeCompleteCallback highWaterMark).conn side).log = [] :=
    fun _ => rfl
  have hinput : ∀ side, ((Pair.established fd writeCompleteCallback highWaterMark).conn side).inputBuffer.content =
      [] := fun side => ByteBuffer.content_fresh _
  have hconsumed : ∀ side, (Pair.established fd writeCompleteCallback highWaterMark).consumed side = [] :=
    fun _ => rfl
  have hplain : ∀ side, Plain ((Pair.established fd writeCompleteCallback highWaterMark).conn side) :=
    fun side f hf => by cases hf
  have hlistening : ∀ side, Listening ((Pair.established fd writeCompleteCallback highWaterMark).conn side) :=
    fun side => listening_connectEstablished ..
  have hopen : ((Pair.established fd writeCompleteCallback highWaterMark).conn .near).state = .kConnected := rfl
  generalize hp : Pair.established fd writeCompleteCallback highWaterMark = p at *
  have hans : p.Answers .near (.request .loop (.sendString (block blockSize)) result) := by
    refine ⟨fun hbroken => ?_, fun read hread => by cases hread⟩
    subst hp
    exact absurd hbroken Bool.false_ne_true
  obtain ⟨q, hstep⟩ : ∃ q, p.step (.event .near (.request .loop (.sendString (block blockSize)) result)) =
      some (.ok q) := ⟨_, if_pos hans⟩
  have hsent : Sent _ _ ((p.conn .near).call .loop result (.sendString (block blockSize))) :=
    Sent.sendString hopen (length_block_le blockSize) result
  obtain ⟨hm, hsame⟩ := Moves.request hinv hsent hstep
  have hfar : q.conn .far = p.conn .far := hm.other
  have hcontent : ∀ side, (q.conn side).inputBuffer.content = []
    | .near => hsame.trans (hinput .near)
    | .far => hfar ▸ hinput .far
  have hnone : ∀ side, q.consumed side = []
    | .near => hm.consumedSelf.trans ((List.append_nil _).trans (hconsumed .near))
    | .far => hm.consumedOther.trans (hconsumed .far)
  have hreceived : ∀ side, q.received side = [] := fun side => by rw [Pair.received, hnone, hcontent]; rfl
  refine ⟨⟨q, ⟨0, 0, 0⟩⟩, ?_, ?_, fun side _ => hcontent side, fun _ => hreceived, ?_⟩
  · rw [start, hp, hstep]
    rfl
  · refine ⟨hm.inv, ?_, ?_, ?_, ?_, fun _ => ?_⟩
    · rintro (_ | _)
      · exact hm.self.plain (hplain .near)
      · exact hfar ▸ hplain .far
    · rintro (_ | _) hside
      · exact hm.self.listening hside (hlistening .near)
      · exact hfar ▸ hlistening .far
    · rw [hm.self.sent, hlog, hnone, List.nil_append, List.append_nil]
    · rw [hfar, hlog]
      exact List.nil_prefix
    · rw [hfar, hlog, hnone]
  · refine ⟨rfl, ?_, fun _ => ?_, ?_⟩ <;> simp [hreceived]

/-- What the invariant gives holds of every run of the two programs. -/
theorem always_of_inv (fd : Side → Int) (writeCompleteCallback : Side → Bool) (highWaterMark : Side → Option Nat)
    (blockSize : BitVec 32) (result : WriteResult) (as : List Label) {property : State → Prop}
    (hproperty : ∀ s, Inv (block blockSize) s → property s) :
    ∃ s, start fd writeCompleteCallback highWaterMark blockSize result = some (.ok s) ∧
      pingPong.Always (Machine.HoldsIfOk property) (.ok s) as := by
  obtain ⟨s, hstart, hs⟩ := start_inv fd writeCompleteCallback highWaterMark blockSize result
  have hinv : pingPong.Always (Machine.HoldsIfOk (Inv (block blockSize))) (.ok s) as :=
    Machine.ofExcept_always_holdsIfOk hs fun _ _ _ h hstep => h.step (length_block_le blockSize) hstep
  refine ⟨s, hstart, hinv.mono fun r hr => ?_⟩
  cases r with
  | error e => trivial
  | ok t => exact hproperty t hr

/-- **The block goes round**: in every run of the two programs, whatever the poller reports, the kernel reads and
writes, and whenever the session is stopped, what the client and the server have received is the client's block
over and over, from its first byte on. -/
theorem received_repeats (fd : Side → Int) (writeCompleteCallback : Side → Bool)
    (highWaterMark : Side → Option Nat) (blockSize : BitVec 32) (result : WriteResult) (as : List Label) :
    ∃ s, start fd writeCompleteCallback highWaterMark blockSize result = some (.ok s) ∧
      pingPong.Always (Machine.HoldsIfOk fun s => ∀ side i, i < (s.pair.received side).length →
        (s.pair.received side)[i]? = (block blockSize)[i % (block blockSize).length]?) (.ok s) as := by
  refine always_of_inv _ _ _ _ _ as fun t ht => ?_
  intro side i hi
  exact getElem?_of_prefix_append (ht.flow.repeats side) (fun hnil => ht.silent hnil side) hi

/-- **What the session counts**: `bytesWritten_` is `bytesRead_` throughout. As long as the session is not stopped
and its connection not closed, `bytesRead_` is the number of bytes received; later it is never less, since bytes
that are not sent back stay in the buffer and are counted with the next message again. Every message has a byte. -/
theorem session_counts (fd : Side → Int) (writeCompleteCallback : Side → Bool) (highWaterMark : Side → Option Nat)
    (blockSize : BitVec 32) (result : WriteResult) (as : List Label) :
    ∃ s, start fd writeCompleteCallback highWaterMark blockSize result = some (.ok s) ∧
      pingPong.Always (Machine.HoldsIfOk fun s =>
        s.session.bytesWritten = s.session.bytesRead ∧ (s.pair.received .near).length ≤ s.session.bytesRead ∧
          ((s.pair.conn .near).state = .kConnected → s.session.bytesRead = (s.pair.received .near).length) ∧
            s.session.messagesRead ≤ s.session.bytesRead) (.ok s) as := by
  refine always_of_inv _ _ _ _ _ as fun t ht => ?_
  obtain ⟨hwritten, hleast, hexact, hmessages⟩ := ht.counts
  exact ⟨hwritten, hleast, hexact, hmessages.2⟩

/-- What an open, unbroken end sent is what the other end received, what is on the wire and what is buffered. -/
theorem Flow.sent_eq (h : Flow message p) (hopen : (p.conn side).state = .kConnected)
    (hunbroken : broken (p.conn side).log = false) :
    sentBytes (p.conn side).log = p.received side.other ++
      ((p.wire side.other).inFlight ++ (p.conn side).outputBuffer.content) := by
  have hstream := (h.inv.sends side).stream (by rw [hopen]; decide)
  have hwhole := hstream.whole hunbroken
  rw [List.append_nil] at hwhole
  rw [← hwhole, ← h.inv.carried side, Pair.received, h.inv.input side.other, Wire.carried, List.append_assoc]

/-- **Nothing is lost on the way**: while both connections are open and unbroken, what the client received, and behind
it the bytes on the wire to it, in the server's output buffer, on the wire to the server and in the client's output
buffer, are the block and what the client received: as many bytes are on the way as the block has. Both ends are in
the epoll set for reading, and one that has bytes in its output buffer for writing, so that each of these bytes is on
a wire whose reader, or in a buffer whose writer, the kernel will report. -/
theorem block_conserved (fd : Side → Int) (writeCompleteCallback : Side → Bool)
    (highWaterMark : Side → Option Nat) (blockSize : BitVec 32) (result : WriteResult) (as : List Label) :
    ∃ s, start fd writeCompleteCallback highWaterMark blockSize result = some (.ok s) ∧
      pingPong.Always (Machine.HoldsIfOk fun s =>
        (∀ side, (s.pair.conn side).state = .kConnected ∧ broken (s.pair.conn side).log = false) →
          s.pair.received .near ++ ((s.pair.wire .near).inFlight ++ (s.pair.conn .far).outputBuffer.content ++
              ((s.pair.wire .far).inFlight ++ (s.pair.conn .near).outputBuffer.content)) =
            block blockSize ++ s.pair.received .near ∧
          ∀ side, isAdded (s.pair.conn side) ∧ (s.pair.conn side).isReading = true ∧
            ((s.pair.conn side).outputBuffer.content ≠ [] → (s.pair.conn side).isWriting = true)) (.ok s) as := by
  refine always_of_inv _ _ _ _ _ as fun t ht => ?_
  intro hopen
  have hflow : Flow (block blockSize) t.pair := ht.flow
  have hreceived : ∀ side, t.pair.received side = t.pair.consumed side := fun side => by
    rw [Pair.received, ht.emptied side (hopen side).1, List.append_nil]
  refine ⟨?_, fun side => ?_⟩
  · have hfar := hflow.sent_eq (hopen .far).1 (hopen .far).2
    have hnear := hflow.sent_eq (hopen .near).1 (hopen .near).2
    rw [hflow.farOpen (hopen .far).1, ← hreceived .far] at hfar
    rw [hflow.near, ← hreceived .near] at hnear
    rw [hnear, Side.other, hfar, Side.other]
    simp only [List.append_assoc]
  · have hlistening := hflow.listening side (by rw [(hopen side).1]; decide)
    have hstream := (hflow.inv.sends side).stream (by rw [(hopen side).1]; decide)
    exact ⟨hlistening.1, hlistening.2, hstream.armed.mpr⟩

end Siren.PingPong
