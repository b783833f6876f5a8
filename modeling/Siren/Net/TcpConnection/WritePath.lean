import Siren.Lib.Machine
import Siren.Net.TcpConnection.Basic

/-!
# The write path keeps the byte stream

Whatever `write` answers, the bytes it took are a prefix of the messages in the order `sendInLoop` was
called. As long as no `EPIPE` or `ECONNRESET` occurred nothing is missing: what was written and what is
in `outputBuffer_` are the messages, the channel wants to write exactly while the buffer holds bytes, and
`writeCompleteCallback_` is queued only when everything has been written.

* `Stream` is the coupled invariant over log, buffer and channel.
* `Stream.sendInLoop`, `Stream.handleWrite`: the two functions keep it.
* `writePath_stream`: it holds along every run.
* `sendString_whole_iff`: the string overload of `send` accepts what its size as an `int` says, so all of a
  string that is no longer than `INT_MAX`.
-/

namespace Siren.TcpConnection

open Channel (InterestCall)

/-! ### Reading the log -/

def Action.sent : Action → List Byte
  | .sendInLoop message => message
  | _ => []

def Action.written : Action → List Byte
  | .write bytes => bytes
  | _ => []

def Action.isBreak : Action → Bool
  | .writeFailed errno => isFault errno
  | _ => false

/-- The messages passed to `sendInLoop`, one after the other. -/
def sentBytes (log : List Action) : List Byte := log.flatMap Action.sent

/-- The bytes that `write` took. -/
def writtenBytes (log : List Action) : List Byte := log.flatMap Action.written

/-- `EPIPE` or `ECONNRESET` occurred. -/
def broken (log : List Action) : Bool := log.any Action.isBreak

/-- Each time `writeCompleteCallback_` was queued, everything sent so far had been written. -/
def CompletesWhenWritten (log : List Action) : Prop :=
  ∀ pre, pre ++ [.writeComplete] <+: log → writtenBytes pre = sentBytes pre

section log

variable (log : List Action) (a : Action)

@[simp] theorem sentBytes_nil : sentBytes [] = [] := rfl

@[simp] theorem writtenBytes_nil : writtenBytes [] = [] := rfl

@[simp] theorem broken_nil : broken [] = false := rfl

@[simp] theorem sentBytes_concat : sentBytes (log ++ [a]) = sentBytes log ++ a.sent := by
  simp [sentBytes]

@[simp] theorem writtenBytes_concat : writtenBytes (log ++ [a]) = writtenBytes log ++ a.written := by
  simp [writtenBytes]

@[simp] theorem broken_concat : broken (log ++ [a]) = (broken log || a.isBreak) := by
  simp [broken]

theorem completesWhenWritten_nil : CompletesWhenWritten [] := by
  intro pre hpre
  simp at hpre

variable {log a}

theorem CompletesWhenWritten.concat (h : CompletesWhenWritten log)
    (ha : a = .writeComplete → writtenBytes log = sentBytes log) :
    CompletesWhenWritten (log ++ [a]) := by
  intro pre hpre
  rcases List.prefix_concat_iff.mp hpre with heq | hpre
  · obtain ⟨rfl, hact⟩ := List.append_inj' heq rfl
    exact ha (List.singleton_inj.mp hact).symm
  · exact h pre hpre

end log

/-! ### The invariant -/

/-- Log, buffer and channel agree, where `rest` is what `sendInLoop` still has in its hands. -/
structure Stream (rest : List Byte) (c : TcpConnection) : Prop where
  pre : writtenBytes c.log <+: sentBytes c.log
  whole : broken c.log = false → writtenBytes c.log ++ c.outputBuffer.content ++ rest = sentBytes c.log
  armed : c.isWriting = true ↔ c.outputBuffer.content ≠ []
  completes : CompletesWhenWritten c.log

variable {c : TcpConnection} {data rest : List Byte} {result : WriteResult}

theorem connectEstablished_stream (fd : Int) (writeCompleteCallback : Bool) (highWaterMark : Option Nat) :
    Stream [] (new fd writeCompleteCallback highWaterMark).connectEstablished where
  pre := List.prefix_rfl
  whole _ := rfl
  armed := by simp [connectEstablished, InterestCall.writing]
  completes := completesWhenWritten_nil

/-- Nothing in the invariant depends on the state or the functors. -/
theorem Stream.congr {d : TcpConnection} (h : Stream rest c) (hlog : d.log = c.log)
    (hbuf : d.outputBuffer.content = c.outputBuffer.content) (hw : d.isWriting = c.isWriting) :
    Stream rest d := by
  refine ⟨?_, ?_, ?_, ?_⟩
  · rw [hlog]
    exact h.pre
  · rw [hlog, hbuf]
    exact h.whole
  · rw [hw, hbuf]
    exact h.armed
  · rw [hlog]
    exact h.completes

/-- Recording an action that neither sends, writes nor completes. -/
theorem Stream.record (h : Stream rest c) {a : Action} (hs : a.sent = []) (hw : a.written = [])
    (ha : a ≠ .writeComplete) : Stream rest (c.record a) where
  pre := by simpa [hs, hw] using h.pre
  whole hb := by
    rw [record_log, broken_concat, Bool.or_eq_false_iff] at hb
    simpa [hs, hw] using h.whole hb.1
  armed := h.armed
  completes := h.completes.concat fun he => absurd he ha

theorem Stream.of_record {a : Action} (h : Stream rest (c.record a)) (hs : a.sent = [])
    (hw : a.written = []) (hb : a.isBreak = false) : Stream rest c where
  pre := by simpa [hs, hw] using h.pre
  whole hok := by simpa [hs, hw] using h.whole (by simpa [hb] using hok)
  armed := h.armed
  completes pre hpre := h.completes pre (hpre.trans (List.prefix_append _ _))

/-- A call of `sendInLoop` brings its message. -/
theorem Stream.record_send (h : Stream [] c) (data : List Byte) :
    Stream data (c.record (.sendInLoop data)) where
  pre := by simpa [Action.sent, Action.written] using h.pre.trans (List.prefix_append _ _)
  whole hb := by
    rw [record_log, broken_concat, Bool.or_eq_false_iff] at hb
    have hall := h.whole hb.1
    rw [List.append_nil] at hall
    simp [Action.sent, Action.written, ← hall]
  armed := h.armed
  completes := h.completes.concat fun he => by cases he

/-- After `EPIPE` or `ECONNRESET` what `sendInLoop` holds can be dropped. -/
theorem Stream.drop (h : Stream rest c) (hb : broken c.log = true) (rest' : List Byte) : Stream rest' c :=
  ⟨h.pre, fun hok => absurd (hb.symm.trans hok) (by decide), h.armed, h.completes⟩

/-- The completion callback is queued on a connection that has written everything. -/
theorem Stream.queueWriteComplete (h : Stream [] c) (hb : broken c.log = false)
    (hempty : c.outputBuffer.content = []) : Stream [] c.queueWriteComplete := by
  unfold TcpConnection.queueWriteComplete
  split
  · have hall := h.whole hb
    rw [hempty, List.append_nil, List.append_nil] at hall
    have hrec : Stream [] (c.record .writeComplete) := by
      refine ⟨?_, ?_, h.armed, h.completes.concat fun _ => hall⟩
      · simpa [Action.sent, Action.written] using h.pre
      · intro _
        simpa [Action.sent, Action.written] using h.whole hb
    exact hrec.congr rfl rfl rfl
  · exact h

theorem Stream.shutdownInLoop (h : Stream rest c) : Stream rest c.shutdownInLoop := by
  unfold TcpConnection.shutdownInLoop
  split
  · exact h.record rfl rfl (by decide)
  · exact h

/-! ### `sendInLoop` -/

/-- Whether the answer of `write` is `EPIPE` or `ECONNRESET`. -/
def breaks : WriteResult → Bool
  | .wrote _ => false
  | .failed errno => isFault errno

/-- After `EPIPE` or `ECONNRESET` every `write` fails with one of them. -/
def Answers (c : TcpConnection) (result : WriteResult) : Prop :=
  broken c.log = true → breaks result = true

theorem Answers.of_wrote {n : Nat} (h : Answers c (.wrote n)) : broken c.log = false := by
  rw [← Bool.not_eq_true]
  exact fun hb => Bool.false_ne_true (h hb)

theorem faultError_eq (errno : Nat) : (errno != EWOULDBLOCK && isFault errno) = isFault errno := by
  by_cases h : errno = EWOULDBLOCK
  · subst h
    decide
  · simp [h]

/-- The attempt to write at once hands on what is left of the message, or breaks. -/
theorem Stream.writeDirectly (h : Stream data c) (hans : Answers c result) :
    let direct := c.writeDirectly data result
    if direct.faultError then Stream [] direct.conn
    else Stream (data.drop direct.nwrote) direct.conn ∧
      direct.remaining = (data.drop direct.nwrote).length := by
  unfold TcpConnection.writeDirectly
  by_cases hfree : (!c.isWriting && c.outputBuffer.readableBytes == 0) = true
  · rw [if_pos hfree]
    simp only [Bool.and_eq_true, Bool.not_eq_true', beq_iff_eq, ByteBuffer.readableBytes_eq,
      List.length_eq_zero_iff] at hfree
    obtain ⟨hidle, hempty⟩ := hfree
    cases result with
    | failed errno =>
      simp only [faultError_eq, List.drop_zero]
      have hrec : Stream data (c.record (.writeFailed errno)) := h.record rfl rfl (by simp)
      split
      · rename_i hfault
        exact hrec.drop (by simp [Action.isBreak, hfault]) []
      · exact ⟨hrec, trivial⟩
    | wrote n =>
      have hb := hans.of_wrote
      have hall := h.whole hb
      rw [hempty, List.append_nil] at hall
      have hrec : Stream (data.drop (writeCount n data.length))
          (c.record (.write (data.take (writeCount n data.length)))) := by
        refine ⟨?_, ?_, h.armed, h.completes.concat fun he => by cases he⟩
        · rw [record_log, writtenBytes_concat, sentBytes_concat, ← hall]
          simpa [Action.sent, Action.written] using List.take_prefix _ data
        · intro _
          simp [Action.sent, Action.written, hempty, ← hall]
      simp only [Bool.false_eq_true, if_false, List.length_drop, and_true]
      split
      · rename_i hdone
        rw [List.drop_eq_nil_of_le (by omega)] at hrec ⊢
        exact hrec.queueWriteComplete (by simpa [Action.isBreak] using hb) hempty
      · exact hrec
  · rw [if_neg hfree]
    exact ⟨h, rfl⟩

/-- What is left of the message goes to the back of the buffer, and the channel wants to write. -/
theorem Stream.appendRemaining (h : Stream rest c) (hrest : rest ≠ []) :
    Stream [] (c.appendRemaining rest) := by
  unfold TcpConnection.appendRemaining
  have hmark : ∀ d : TcpConnection, Stream rest d → Stream []
      (let d' := d.setOutputBuffer (d.outputBuffer.append rest)
       if !d'.isWriting then d'.setInterest .enableWriting else d') := by
    intro d hd
    have harmed : ∀ e : TcpConnection, e.log = d.log →
        e.outputBuffer.content = d.outputBuffer.content ++ rest → e.isWriting = true →
        Stream [] e := by
      intro e hlog hbuf hw
      refine ⟨?_, ?_, ?_, ?_⟩
      · rw [hlog]
        exact hd.pre
      · rw [hlog, hbuf, List.append_nil, ← List.append_assoc]
        exact hd.whole
      · simp [hw, hbuf, hrest]
      · rw [hlog]
        exact hd.completes
    simp only
    split
    · exact harmed _ rfl (by simp) (by simp [InterestCall.writing])
    · rename_i hw
      exact harmed _ rfl (by simp) (by simpa using hw)
  refine hmark _ ?_
  split
  · exact h.congr rfl rfl rfl
  · exact h

theorem Stream.sendInLoop (h : Stream [] c) (hconn : c.state ≠ .kDisconnected) (hans : Answers c result) :
    Stream [] (c.sendInLoop data result) := by
  unfold TcpConnection.sendInLoop
  simp only [record_state, hconn, if_false]
  have hanswers : Answers (c.record (.sendInLoop data)) result := by
    simpa [Answers, Action.isBreak] using hans
  have hdirect := (h.record_send data).writeDirectly hanswers
  generalize (c.record (.sendInLoop data)).writeDirectly data result = direct at hdirect
  cases hfault : direct.faultError with
  | true => simpa [hfault] using hdirect
  | false =>
    simp only [hfault, Bool.false_eq_true, if_false] at hdirect
    obtain ⟨hstream, hremaining⟩ := hdirect
    simp only [Bool.not_false, Bool.true_and, decide_eq_true_eq]
    split
    · rename_i hpos
      refine hstream.appendRemaining fun hnil => ?_
      rw [hremaining, hnil] at hpos
      exact absurd hpos (by simp)
    · rename_i hzero
      have hnil : data.drop direct.nwrote = [] := List.length_eq_zero_iff.mp (by omega)
      rwa [hnil] at hstream

/-! ### `handleWrite` -/

theorem Stream.handleWrite (h : Stream [] c) (hans : Answers c result) :
    Stream [] (c.handleWrite result) := by
  unfold TcpConnection.handleWrite
  split
  · rename_i hw
    cases result with
    | failed errno => exact h.record rfl rfl (by simp)
    | wrote n =>
      have hb := hans.of_wrote
      have hall := h.whole hb
      rw [List.append_nil] at hall
      simp only
      have hsize := toSize_writeCount n c.outputBuffer.readableBytes
      generalize writeCount n c.outputBuffer.readableBytes = k at hsize ⊢
      -- any connection that has written `k` bytes more and dropped them from the buffer
      have hmoved : ∀ d : TcpConnection, d.log = c.log ++ [.write (c.outputBuffer.content.take k)] →
          d.outputBuffer.content = c.outputBuffer.content.drop k →
          (d.isWriting = true ↔ d.outputBuffer.content ≠ []) → Stream [] d := by
        intro d hlog hbuf harmed
        refine ⟨?_, ?_, harmed, ?_⟩
        · rw [hlog, writtenBytes_concat, sentBytes_concat, ← hall]
          simpa [Action.sent, Action.written] using List.take_prefix k c.outputBuffer.content
        · intro _
          rw [hlog, writtenBytes_concat, sentBytes_concat, ← hall, hbuf]
          simp [Action.sent, Action.written]
        · rw [hlog]
          exact h.completes.concat fun he => by cases he
      split
      · split
        · rename_i hempty
          simp only [beq_iff_eq, ByteBuffer.readableBytes_eq, List.length_eq_zero_iff] at hempty
          have hdone := hmoved (((c.record (.write (c.outputBuffer.content.take k))).setOutputBuffer
              (c.outputBuffer.retrieve (toInt k))).setInterest .disableWriting) rfl
            (by simp [hsize]) (by simpa [InterestCall.writing] using hempty)
          have hcomplete := hdone.queueWriteComplete (by simpa [Action.isBreak] using hb) hempty
          split
          · exact hcomplete.shutdownInLoop
          · exact hcomplete
        · rename_i hmore
          simp only [beq_iff_eq, ByteBuffer.readableBytes_eq, List.length_eq_zero_iff] at hmore
          refine hmoved _ rfl (by simp [hsize]) ⟨fun _ => hmore, fun _ => ?_⟩
          rw [setOutputBuffer_isWriting, record_isWriting]
          exact hw
      · rename_i hzero
        obtain rfl : k = 0 := by omega
        exact hmoved _ rfl (by simp) h.armed
  · exact h

/-! ### Every run of the write path -/

/-- What happens to the write path of a connection that is not `kDisconnected`. -/
inductive WriteLabel where
  | sendInLoop (data : List Byte) (result : WriteResult)
  | handleWrite (result : WriteResult)
  /-- The state changes among the other three. -/
  | setState (s : StateE)

def WriteLabel.step (c : TcpConnection) : WriteLabel → Option TcpConnection
  | .sendInLoop data result =>
    if broken c.log = true ∧ breaks result = false then none else some (c.sendInLoop data result)
  | .handleWrite result =>
    if broken c.log = true ∧ breaks result = false then none else some (c.handleWrite result)
  | .setState s => if s = .kDisconnected then none else some (c.setState s)

/-- The write path, with a socket whose every `write` fails after `EPIPE` or `ECONNRESET`. -/
def writePath : Machine TcpConnection WriteLabel := ⟨WriteLabel.step⟩

/-- The state of a connection whose write path is in order. -/
structure Flowing (c : TcpConnection) : Prop where
  live : c.state ≠ .kDisconnected
  stream : Stream [] c

theorem Flowing.step {a : WriteLabel} {d : TcpConnection} (h : Flowing c) (hstep : a.step c = some d) :
    Flowing d := by
  have hanswers : ∀ result, ¬ (broken c.log = true ∧ breaks result = false) → Answers c result :=
    fun result hno hb => Bool.of_not_eq_false fun hok => hno ⟨hb, hok⟩
  cases a with
  | sendInLoop data result =>
    rw [WriteLabel.step, Option.ite_none_left_eq_some] at hstep
    obtain ⟨hno, heq⟩ := hstep
    obtain rfl := Option.some.inj heq
    refine ⟨?_, h.stream.sendInLoop h.live (hanswers result hno)⟩
    rw [(Writes.sendInLoop data result).state]
    exact h.live
  | handleWrite result =>
    rw [WriteLabel.step, Option.ite_none_left_eq_some] at hstep
    obtain ⟨hno, heq⟩ := hstep
    obtain rfl := Option.some.inj heq
    refine ⟨?_, h.stream.handleWrite (hanswers result hno)⟩
    rw [handleWrite_state]
    exact h.live
  | setState s =>
    rw [WriteLabel.step, Option.ite_none_left_eq_some] at hstep
    obtain ⟨hs, heq⟩ := hstep
    obtain rfl := Option.some.inj heq
    exact ⟨hs, h.stream.congr rfl rfl rfl⟩

/-- **The byte stream**: in every state of every run of `sendInLoop` and `handleWrite` on a connection
that is not `kDisconnected`, the bytes written are a prefix of the messages; as long as no `EPIPE` or
`ECONNRESET` occurred, the bytes written and those in `outputBuffer_` are the messages, and the channel is
writing exactly while the buffer holds bytes; and `writeCompleteCallback_` was queued only when all bytes
sent so far had been written. -/
theorem writePath_stream (fd : Int) (writeCompleteCallback : Bool) (highWaterMark : Option Nat)
    (as : List WriteLabel) :
    writePath.Always
      (fun c =>
        writtenBytes c.log <+: sentBytes c.log ∧
        (broken c.log = false →
          writtenBytes c.log ++ c.outputBuffer.content = sentBytes c.log ∧
          (c.isWriting = true ↔ c.outputBuffer.content ≠ [])) ∧
        CompletesWhenWritten c.log)
      (new fd writeCompleteCallback highWaterMark).connectEstablished as := by
  have hinit : Flowing (new fd writeCompleteCallback highWaterMark).connectEstablished :=
    ⟨by simp [connectEstablished], connectEstablished_stream fd writeCompleteCallback highWaterMark⟩
  refine (Machine.Always.of_step hinit fun c a d h hstep => h.step hstep).mono fun c h => ?_
  refine ⟨h.stream.pre, fun hb => ⟨?_, h.stream.armed⟩, h.stream.completes⟩
  simpa using h.stream.whole hb

/-! ### Messages of any size -/

/-- The bytes that `write` took since `c`, followed by those in `outputBuffer_`. -/
def taken (c d : TcpConnection) : List Byte :=
  writtenBytes (d.log.drop c.log.length) ++ d.outputBuffer.content

/-- On the way from `c` to `d` these bytes went behind those in `outputBuffer_`, or out over an empty one. -/
def Accepts (bytes : List Byte) (c d : TcpConnection) : Prop :=
  ∃ more, d.log = c.log ++ more ∧
    writtenBytes more ++ d.outputBuffer.content = c.outputBuffer.content ++ bytes

namespace Accepts

variable {d e : TcpConnection} {bytes bytes' : List Byte}

theorem taken_eq (h : Accepts bytes c d) : taken c d = c.outputBuffer.content ++ bytes := by
  obtain ⟨more, hlog, hall⟩ := h
  rw [taken, hlog, List.drop_left, hall]

theorem refl (c : TcpConnection) : Accepts [] c c := ⟨[], (List.append_nil _).symm, (List.append_nil _).symm⟩

theorem trans (h : Accepts bytes c d) (h' : Accepts bytes' d e) : Accepts (bytes ++ bytes') c e := by
  obtain ⟨more, hlog, hall⟩ := h
  obtain ⟨more', hlog', hall'⟩ := h'
  refine ⟨more ++ more', by rw [hlog', hlog, List.append_assoc], ?_⟩
  calc writtenBytes (more ++ more') ++ e.outputBuffer.content
      = writtenBytes more ++ (writtenBytes more' ++ e.outputBuffer.content) := by
        rw [writtenBytes, List.flatMap_append, List.append_assoc]
        rfl
    _ = c.outputBuffer.content ++ (bytes ++ bytes') := by
        rw [hall', ← List.append_assoc, hall, List.append_assoc]

/-- A step that writes nothing and keeps the buffer. -/
theorem silent (more : List Action) (hlog : d.log = c.log ++ more) (hwritten : writtenBytes more = [])
    (hbuffer : d.outputBuffer = c.outputBuffer) : Accepts [] c d :=
  ⟨more, hlog, by rw [hwritten, hbuffer, List.nil_append, List.append_nil]⟩

theorem queueWriteComplete (c : TcpConnection) : Accepts [] c c.queueWriteComplete := by
  unfold TcpConnection.queueWriteComplete
  split
  · exact silent [.writeComplete] rfl rfl rfl
  · exact refl c

/-- A `write` from an empty buffer. -/
theorem write (hempty : c.outputBuffer.content = []) (bytes : List Byte) :
    Accepts bytes c (c.record (.write bytes)) :=
  ⟨[.write bytes], rfl, by simp [writtenBytes, Action.written, hempty]⟩

/-- An attempt to write at once that does not break takes a first piece of the message. -/
theorem writeDirectly (data : List Byte) (hok : breaks result = false) :
    let direct := c.writeDirectly data result
    Accepts (data.take direct.nwrote) c direct.conn ∧ direct.faultError = false ∧
      direct.remaining = (data.drop direct.nwrote).length := by
  unfold TcpConnection.writeDirectly
  split
  · rename_i hfree
    simp only [Bool.and_eq_true, beq_iff_eq, ByteBuffer.readableBytes_eq, List.length_eq_zero_iff] at hfree
    cases result with
    | failed errno =>
      have hfault : isFault errno = false := hok
      exact ⟨silent [.writeFailed errno] rfl rfl rfl, (faultError_eq errno).trans hfault, rfl⟩
    | wrote n =>
      have hwrite := write hfree.2 (data.take (writeCount n data.length))
      refine ⟨?_, rfl, List.length_drop.symm⟩
      dsimp only
      split
      · simpa using hwrite.trans (queueWriteComplete _)
      · exact hwrite
  · exact ⟨refl c, rfl, rfl⟩

theorem appendRemaining (rest : List Byte) : Accepts rest c (c.appendRemaining rest) := by
  have hbuffer : ∀ d : TcpConnection, Accepts rest d
      (let d' := d.setOutputBuffer (d.outputBuffer.append rest)
       if !d'.isWriting then d'.setInterest .enableWriting else d') := by
    intro d
    simp only
    split
    · exact ⟨[], (List.append_nil _).symm, ByteBuffer.content_append ..⟩
    · exact ⟨[], (List.append_nil _).symm, ByteBuffer.content_append ..⟩
  unfold TcpConnection.appendRemaining
  dsimp only
  split
  · exact (silent [] (List.append_nil _).symm rfl rfl).trans (hbuffer _)
  · exact hbuffer c

theorem sendInLoop (hconn : c.state ≠ .kDisconnected) (data : List Byte) (hok : breaks result = false) :
    Accepts data c (c.sendInLoop data result) := by
  unfold TcpConnection.sendInLoop
  simp only [record_state, hconn, if_false]
  have hrecord : Accepts [] c (c.record (.sendInLoop data)) := silent [.sendInLoop data] rfl rfl rfl
  obtain ⟨hdirect, hfault, hremaining⟩ := writeDirectly (c := c.record (.sendInLoop data)) data hok
  generalize (c.record (.sendInLoop data)).writeDirectly data result = direct at hdirect hfault hremaining
  have hsent : Accepts (data.take direct.nwrote) c direct.conn := hrecord.trans hdirect
  simp only [hfault, Bool.not_false, Bool.true_and, decide_eq_true_eq]
  split
  · have hall := hsent.trans (appendRemaining (data.drop direct.nwrote))
    rwa [List.take_append_drop] at hall
  · rename_i hnone
    have hall : data.take direct.nwrote = data :=
      List.take_of_length_le (by rw [List.length_drop] at hremaining; omega)
    rwa [hall] at hsent

/-- `send` on the loop thread of a connected connection. -/
theorem passOn (hconn : c.state = .kConnected) (message passed : List Byte) (hok : breaks result = false) :
    Accepts passed c (c.passOn .loop message passed result) := by
  have haccept : Accepts [] c (c.record (.accept message passed)) :=
    silent [.accept message passed] rfl rfl rfl
  have hopen : (c.record (.accept message passed)).state ≠ .kDisconnected := by simp [hconn]
  exact haccept.trans (sendInLoop hopen passed hok)

/-- `send(const void*, int)` takes as many bytes as its `len` says. -/
theorem send (hconn : c.state = .kConnected) (message : List Byte) (len : Int) (hok : breaks result = false) :
    Accepts (message.take len.toNat) c (c.send .loop message len result) := by
  unfold TcpConnection.send
  split
  · rename_i hlen
    rw [Int.toNat_eq_zero.mpr hlen, List.take_zero]
    exact refl c
  · exact passOn hconn message _ hok

theorem sendBuffer (hconn : c.state = .kConnected) (message : List Byte) (hok : breaks result = false) :
    Accepts message c (c.sendBuffer .loop message result) := by
  unfold TcpConnection.sendBuffer
  split
  · exact passOn hconn message message hok
  · rename_i hempty
    have hnil : message = [] := by simpa [hconn] using hempty
    rw [hnil]
    exact refl c

/-- Of a string goes what the `int` of its size says. -/
theorem sendString_iff (hconn : c.state = .kConnected) (message : List Byte) (hok : breaks result = false) :
    taken c (c.sendString .loop message result) = c.outputBuffer.content ++ message ↔
      message.length ≤ (toInt message.length).toNat := by
  have hsent : taken c (c.sendString .loop message result) =
      c.outputBuffer.content ++ message.take (toInt message.length).toNat :=
    (send hconn message (toInt message.length) hok).taken_eq
  rw [hsent, List.append_cancel_left_eq, List.take_eq_self_iff]

end Accepts

/-- **A string of any size**: on the loop thread of a connected connection and without `EPIPE` or
`ECONNRESET`, `send(const std::string&)` adds exactly the bytes of the string to what was written and
buffered, and the same bytes as `send(Buffer*)` with that content, if and only if an `int` holds the size. -/
theorem sendString_whole_iff (hconn : c.state = .kConnected) (hok : breaks result = false)
    (message : List Byte) :
    taken c (c.sendString .loop message result) = c.outputBuffer.content ++ message ∧
        taken c (c.sendString .loop message result) = taken c (c.sendBuffer .loop message result) ↔
      message.length ≤ intMax := by
  rw [(Accepts.sendBuffer hconn message hok).taken_eq, and_self, Accepts.sendString_iff hconn message hok]
  have hmax := toInt_le_intMax message.length
  constructor
  · intro hle
    omega
  · intro hle
    rw [toInt_of_le hle, Int.toNat_natCast]

theorem three_bytes_accepted :
    let c := (new 5 false none).connectEstablished
    taken c (c.sendString .loop [1, 2, 3] (.wrote 2)) = [1, 2, 3] := by
  intro c
  have hok : breaks (.wrote 2) = false := rfl
  exact ((sendString_whole_iff (c := c) rfl hok [1, 2, 3]).mpr (by decide)).1

/-- Of 2 GiB nothing is sent: as an `int` the size is negative. -/
theorem two_gigabytes_dropped :
    ¬ ∀ (c : TcpConnection) (message : List Byte) (result : WriteResult), c.state = .kConnected →
      breaks result = false →
      taken c (c.sendString .loop message result) = c.outputBuffer.content ++ message ∧
        taken c (c.sendString .loop message result) =
          taken c (c.sendBuffer .loop message result) := by
  intro hall
  obtain ⟨len, hlen⟩ : ∃ len, len = 2 ^ 31 := ⟨_, rfl⟩
  obtain ⟨hwhole, -⟩ := hall (new 5 false none).connectEstablished (List.replicate len 0) (.wrote 0) rfl rfl
  rw [Accepts.sendString_iff rfl _ rfl, List.length_replicate, hlen] at hwhole
  exact absurd hwhole (by decide)

end Siren.TcpConnection
