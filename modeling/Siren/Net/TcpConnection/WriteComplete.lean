import Siren.Net.TcpConnection.Rules

/-!
# Write completion

`sendInLoop` queues `writeCompleteCallback_` when its own `write` took the whole message, `handleWrite` when its
`write` emptied `outputBuffer_`. Both are the same moment: the `write` took the last of the bytes sent.

* `CompletesAtOnce`: the callback is queued right after such a `write`, and nowhere else.
* `Announces`: it is queued as often as the log says.
* `completes_once`: in every run there was or will be one callback for each of these moments.
-/

namespace Siren.TcpConnection

open Channel (Handler InterestCall)

/-! ### The log -/

/-- The last action is a `write`, and it took the last of the bytes sent. -/
def Finishes (pre : List Action) : Prop := (∃ bytes, [.write bytes] <:+ pre) ∧ writtenBytes pre = sentBytes pre

/-- With the callback set, it was queued right after each `write` that took the last of the bytes sent, and at no
other time; without, at no time. -/
def CompletesAtOnce (callback : Bool) (log : List Action) : Prop :=
  ∀ pre, pre ++ [.writeComplete] <+: log ↔ callback = true ∧ pre <+: log ∧ Finishes pre

theorem finishes_concat_write {log : List Action} {bytes : List Byte} :
    Finishes (log ++ [.write bytes]) ↔ writtenBytes log ++ bytes = sentBytes log := by
  have hlast : ∃ bytes', [Action.write bytes'] <:+ log ++ [.write bytes] := ⟨bytes, List.suffix_append ..⟩
  have hbytes : writtenBytes (log ++ [.write bytes]) = sentBytes (log ++ [.write bytes]) ↔
      writtenBytes log ++ bytes = sentBytes log := by
    simp [Action.sent, Action.written]
  exact (and_iff_right hlast).trans hbytes

theorem not_finishes_concat {log : List Action} {a : Action} (ha : ∀ bytes, a ≠ .write bytes) :
    ¬ Finishes (log ++ [a]) := by
  rintro ⟨⟨bytes, pre, hpre⟩, -⟩
  exact ha bytes (List.singleton_inj.mp (List.append_inj' hpre rfl).2).symm

namespace CompletesAtOnce

variable {callback : Bool} {log : List Action} {a : Action} {bytes : List Byte}

theorem nil (callback : Bool) : CompletesAtOnce callback [] := by
  intro pre
  constructor
  · intro hpre
    simp at hpre
  · rintro ⟨-, hpre, ⟨bytes, hlast⟩, -⟩
    obtain rfl := List.prefix_nil.mp hpre
    simp at hlast

/-- Any action after which nothing is to be queued. -/
theorem concat (h : CompletesAtOnce callback log) (ha : a ≠ .writeComplete)
    (hfinishes : callback = true → ¬ Finishes (log ++ [a])) : CompletesAtOnce callback (log ++ [a]) := by
  intro pre
  constructor
  · intro hpre
    rcases List.prefix_concat_iff.mp hpre with heq | hpre
    · exact absurd (List.singleton_inj.mp (List.append_inj' heq rfl).2).symm ha
    · obtain ⟨hcallback, hbefore, hpre⟩ := (h pre).mp hpre
      exact ⟨hcallback, hbefore.trans (List.prefix_append ..), hpre⟩
  · rintro ⟨hcallback, hbefore, hpre⟩
    rcases List.prefix_concat_iff.mp hbefore with rfl | hbefore
    · exact absurd hpre (hfinishes hcallback)
    · exact ((h pre).mpr ⟨hcallback, hbefore, hpre⟩).trans (List.prefix_append ..)

/-- What is neither a `write` nor the completion. -/
theorem concat_other (h : CompletesAtOnce callback log) (ha : a ≠ .writeComplete)
    (hwrite : ∀ bytes, a ≠ .write bytes) : CompletesAtOnce callback (log ++ [a]) :=
  h.concat ha fun _ => not_finishes_concat hwrite

/-- A `write` that leaves something. -/
theorem write (h : CompletesAtOnce callback log) (hmore : writtenBytes log ++ bytes ≠ sentBytes log) :
    CompletesAtOnce callback (log ++ [.write bytes]) :=
  h.concat (by simp) fun _ hfinishes => hmore (finishes_concat_write.mp hfinishes)

/-- One that leaves nothing. -/
theorem finish (h : CompletesAtOnce callback log) (hall : writtenBytes log ++ bytes = sentBytes log) :
    CompletesAtOnce callback (log ++ [.write bytes] ++ if callback then [.writeComplete] else []) := by
  cases callback with
  | false =>
    rw [if_neg Bool.false_ne_true, List.append_nil]
    exact h.concat (by simp) fun hset => absurd hset Bool.false_ne_true
  | true =>
    rw [if_pos rfl]
    intro pre
    constructor
    · intro hpre
      rcases List.prefix_concat_iff.mp hpre with heq | hpre
      · obtain rfl := (List.append_inj' heq rfl).1
        exact ⟨rfl, List.prefix_append .., finishes_concat_write.mpr hall⟩
      · rcases List.prefix_concat_iff.mp hpre with heq | hpre
        · simpa using (List.append_inj' heq rfl).2
        · obtain ⟨-, hbefore, hpre⟩ := (h pre).mp hpre
          rw [List.append_assoc]
          exact ⟨rfl, hbefore.trans (List.prefix_append ..), hpre⟩
    · rintro ⟨-, hbefore, hpre⟩
      rcases List.prefix_concat_iff.mp hbefore with rfl | hbefore
      · exact absurd hpre (not_finishes_concat (by simp))
      · rcases List.prefix_concat_iff.mp hbefore with rfl | hbefore
        · exact List.prefix_rfl
        · rw [List.append_assoc]
          exact ((h pre).mpr ⟨rfl, hbefore, hpre⟩).trans (List.prefix_append ..)

end CompletesAtOnce

theorem unbroken_before {log log' : List Action} (h : log <+: log') (hb : broken log' = false) :
    broken log = false := by
  obtain ⟨more, rfl⟩ := h
  rw [broken, List.any_append, Bool.or_eq_false_iff] at hb
  exact hb.1

/-! ### Member functions -/

variable {c d e : TcpConnection} {result : WriteResult}

@[simp] theorem record_writeCompleteCallback (a : Action) :
    (c.record a).writeCompleteCallback = c.writeCompleteCallback := rfl

@[simp] theorem setOutputBuffer_writeCompleteCallback (b : ByteBuffer) :
    (c.setOutputBuffer b).writeCompleteCallback = c.writeCompleteCallback := rfl

@[simp] theorem setInterest_writeCompleteCallback (call : InterestCall) :
    (c.setInterest call).writeCompleteCallback = c.writeCompleteCallback := rfl

theorem queueWriteComplete_log (c : TcpConnection) :
    c.queueWriteComplete.log = c.log ++ if c.writeCompleteCallback then [.writeComplete] else [] := by
  unfold queueWriteComplete
  split
  · rfl
  · exact (List.append_nil _).symm

theorem appendRemaining_log (c : TcpConnection) (rest : List Byte) : (c.appendRemaining rest).log = c.log := by
  unfold appendRemaining
  dsimp only
  split <;> split <;> rfl

theorem CompletesAtOnce.shutdownInLoop {callback : Bool} (h : CompletesAtOnce callback c.log) :
    CompletesAtOnce callback c.shutdownInLoop.log := by
  unfold TcpConnection.shutdownInLoop
  split
  · exact h.concat_other (by simp) (by simp)
  · exact h

/-- The direct `write` completes when it takes the message, as nothing is in the buffer. -/
theorem writeDirectly_completes {data : List Byte} (h : Stream data c) (hb : broken c.log = false)
    (hcompletes : CompletesAtOnce c.writeCompleteCallback c.log) :
    CompletesAtOnce c.writeCompleteCallback (c.writeDirectly data result).conn.log := by
  unfold writeDirectly
  split
  · rename_i hfree
    simp only [Bool.and_eq_true, Bool.not_eq_true', beq_iff_eq, ByteBuffer.readableBytes_eq,
      List.length_eq_zero_iff] at hfree
    have hall := h.whole hb
    rw [hfree.2, List.append_nil] at hall
    cases result with
    | failed errno => exact hcompletes.concat_other (by simp) (by simp)
    | wrote n =>
      simp only
      generalize writeCount n data.length = k
      split
      · rename_i hdone
        have htaken : data.take k = data := List.take_of_length_le (by omega)
        rw [queueWriteComplete_log, htaken]
        exact hcompletes.finish hall
      · rename_i hmore
        refine hcompletes.write fun hsame => hmore ?_
        have htaken : data.take k = data := List.append_cancel_left (hsame.trans hall.symm)
        have hlength := congrArg List.length htaken
        rw [List.length_take] at hlength
        omega
  · exact hcompletes

theorem sendInLoop_completes (h : Sends c) (hb : broken c.log = false)
    (hcompletes : CompletesAtOnce c.writeCompleteCallback c.log) (data : List Byte) :
    CompletesAtOnce c.writeCompleteCallback (c.sendInLoop data result).log := by
  have hcall : CompletesAtOnce c.writeCompleteCallback (c.record (.sendInLoop data)).log :=
    hcompletes.concat_other (by simp) (by simp)
  unfold sendInLoop
  dsimp only
  split
  · exact hcall
  · rename_i hopen
    have hb' : broken (c.record (.sendInLoop data)).log = false := by simp [hb, Action.isBreak]
    have hdirect : CompletesAtOnce c.writeCompleteCallback
        ((c.record (.sendInLoop data)).writeDirectly data result).conn.log :=
      writeDirectly_completes ((h.stream hopen).record_send data) hb' hcall
    split
    · rw [appendRemaining_log]
      exact hdirect
    · exact hdirect

/-- A `write` out of the buffer completes when it takes all that is in it. -/
theorem handleWrite_completes (h : Sends c) (hb : broken c.log = false)
    (hcompletes : CompletesAtOnce c.writeCompleteCallback c.log) :
    CompletesAtOnce c.writeCompleteCallback (c.handleWrite result).log := by
  unfold handleWrite
  split
  · rename_i hwriting
    have hopen : c.state ≠ .kDisconnected := fun hclosed =>
      absurd (hwriting.symm.trans (h.quiet hclosed)) (by decide)
    have hstream := h.stream hopen
    have hall := hstream.whole hb
    rw [List.append_nil] at hall
    have hbytes : c.outputBuffer.content ≠ [] := hstream.armed.mp hwriting
    cases result with
    | failed errno => exact hcompletes.concat_other (by simp) (by simp)
    | wrote n =>
      dsimp only
      have hsize := toSize_writeCount n c.outputBuffer.readableBytes
      generalize writeCount n c.outputBuffer.readableBytes = k at hsize ⊢
      -- a `write` that leaves bytes in the buffer leaves bytes unwritten
      have hpart : c.outputBuffer.content.drop k ≠ [] →
          CompletesAtOnce c.writeCompleteCallback (c.log ++ [.write (c.outputBuffer.content.take k)]) := by
        intro hleft
        refine hcompletes.write fun hsame => hleft ?_
        have htaken := List.append_cancel_left (hsame.trans hall.symm)
        have hsplit := List.take_append_drop k c.outputBuffer.content
        rw [htaken] at hsplit
        exact List.append_right_eq_self.mp hsplit
      -- and one that empties it takes all there was
      have hwhole : c.outputBuffer.content.drop k = [] → ∀ b : ByteBuffer,
          CompletesAtOnce c.writeCompleteCallback (((c.record (.write (c.outputBuffer.content.take k))).setOutputBuffer
            b).setInterest .disableWriting).queueWriteComplete.log := by
        intro hempty b
        have htaken : c.outputBuffer.content.take k = c.outputBuffer.content :=
          List.take_of_length_le (List.drop_eq_nil_iff.mp hempty)
        rw [queueWriteComplete_log, setInterest_log, setOutputBuffer_log, record_log, setInterest_writeCompleteCallback,
          setOutputBuffer_writeCompleteCallback, record_writeCompleteCallback, htaken]
        exact hcompletes.finish hall
      split
      · split
        · rename_i hempty
          have hdrop : c.outputBuffer.content.drop k = [] := by
            simpa only [beq_iff_eq, ByteBuffer.readableBytes_eq, List.length_eq_zero_iff, setOutputBuffer_outputBuffer,
              ByteBuffer.content_retrieve, hsize, record_outputBuffer] using hempty
          split
          · exact (hwhole hdrop _).shutdownInLoop
          · exact hwhole hdrop _
        · rename_i hmore
          refine hpart fun hdrop => hmore ?_
          simp [ByteBuffer.readableBytes_eq, hsize, hdrop]
      · rename_i hzero
        obtain rfl : k = 0 := by omega
        exact hpart hbytes
  · exact hcompletes

/-! ### Every function -/

/-- As long as the connection is not broken its write path is in order and completes when it should. -/
def Completing (c : TcpConnection) : Prop :=
  broken c.log = false → Sends c ∧ CompletesAtOnce c.writeCompleteCallback c.log

/-- The callback is queued as often as the log says, on the way from `c` to `d`. -/
structure Announces (c d : TcpConnection) : Prop where
  callback : d.writeCompleteCallback = c.writeCompleteCallback
  functors : d.functors = c.functors
  log : c.log <+: d.log
  queued : d.log.count .writeComplete + c.pendingFunctors.count .writeCompleteCallback =
    c.log.count .writeComplete + d.pendingFunctors.count .writeCompleteCallback

namespace Announces

theorem refl (c : TcpConnection) : Announces c c := ⟨rfl, rfl, List.prefix_rfl, rfl⟩

theorem trans (h : Announces c d) (h' : Announces d e) : Announces c e where
  callback := h'.callback.trans h.callback
  functors := h'.functors.trans h.functors
  log := h.log.trans h'.log
  queued := by
    have hfirst := h.queued
    have hsecond := h'.queued
    omega

/-- Where neither the log nor the mailbox changes. -/
theorem of_eq (hcallback : d.writeCompleteCallback = c.writeCompleteCallback) (hfunctors : d.functors = c.functors)
    (hlog : d.log = c.log) (hpending : d.pendingFunctors = c.pendingFunctors) : Announces c d :=
  ⟨hcallback, hfunctors, hlog ▸ List.prefix_rfl, by rw [hlog, hpending]⟩

theorem setInterest (c : TcpConnection) (call : InterestCall) : Announces c (c.setInterest call) :=
  of_eq rfl rfl rfl rfl

theorem setOutputBuffer (c : TcpConnection) (b : ByteBuffer) : Announces c (c.setOutputBuffer b) :=
  of_eq rfl rfl rfl rfl

theorem record (c : TcpConnection) {a : Action} (ha : a ≠ .writeComplete) : Announces c (c.record a) where
  callback := rfl
  functors := rfl
  log := List.prefix_append ..
  queued := by
    rw [record_log, List.count_append, List.count_singleton, if_neg (by simpa using ha)]
    rfl

theorem queueInLoop (c : TcpConnection) {f : Functor} (hf : f ≠ .writeCompleteCallback) :
    Announces c (c.queueInLoop f) where
  callback := rfl
  functors := rfl
  log := List.prefix_rfl
  queued := by
    show _ = c.log.count .writeComplete + (c.pendingFunctors ++ [f]).count .writeCompleteCallback
    rw [List.count_append, List.count_singleton, if_neg (by simpa using hf)]
    rfl

/-- The one place where it is queued. -/
theorem queueWriteComplete (c : TcpConnection) : Announces c c.queueWriteComplete := by
  unfold TcpConnection.queueWriteComplete
  split
  · refine ⟨rfl, rfl, List.prefix_append .., ?_⟩
    show (c.log ++ [Action.writeComplete]).count .writeComplete + _ =
      _ + (c.pendingFunctors ++ [Functor.writeCompleteCallback]).count .writeCompleteCallback
    rw [List.count_append, List.count_append, List.count_singleton_self, List.count_singleton_self]
    omega
  · exact refl c

theorem quietRule : QuietRule Announces where
  refl := refl
  trans := trans
  record c a ha := record c fun heq => by simp [heq, Action.ofOutput] at ha
  queueInLoop c f hf := queueInLoop c fun heq => by simp [heq, Functor.isCallback] at hf
  setDisconnecting _ _ := of_eq rfl rfl rfl rfl
  close _ := of_eq rfl rfl rfl rfl
  setReading _ _ _ _ := of_eq rfl rfl rfl rfl
  delay _ _ := of_eq rfl rfl rfl rfl
  input _ _ := of_eq rfl rfl rfl rfl

theorem writeDirectly (c : TcpConnection) (data : List Byte) (result : WriteResult) :
    Announces c (c.writeDirectly data result).conn := by
  unfold TcpConnection.writeDirectly
  split
  · cases result with
    | failed errno => exact record c (by simp)
    | wrote n =>
      dsimp only
      split
      · exact (record c (by simp)).trans (queueWriteComplete _)
      · exact record c (by simp)
  · exact refl c

theorem appendRemaining (c : TcpConnection) (rest : List Byte) : Announces c (c.appendRemaining rest) := by
  have happend : ∀ d : TcpConnection, Announces d
      (let d' := d.setOutputBuffer (d.outputBuffer.append rest)
       if !d'.isWriting then d'.setInterest .enableWriting else d') := by
    intro d
    dsimp only
    split
    · exact (setOutputBuffer d _).trans (setInterest _ _)
    · exact setOutputBuffer d _
  unfold TcpConnection.appendRemaining
  dsimp only
  split
  · exact (queueInLoop c (by simp)).trans (happend _)
  · exact happend c

theorem sendInLoop (c : TcpConnection) (data : List Byte) (result : WriteResult) :
    Announces c (c.sendInLoop data result) := by
  have hcall : Announces c (c.record (.sendInLoop data)) := record c (by simp)
  unfold TcpConnection.sendInLoop
  dsimp only
  split
  · exact hcall
  · have hdirect := hcall.trans (writeDirectly (c.record (.sendInLoop data)) data result)
    split
    · exact hdirect.trans (appendRemaining _ _)
    · exact hdirect

theorem handleWrite (c : TcpConnection) (result : WriteResult) : Announces c (c.handleWrite result) := by
  unfold TcpConnection.handleWrite
  split
  · cases result with
    | failed errno => exact record c (by simp)
    | wrote n =>
      dsimp only
      generalize writeCount n c.outputBuffer.readableBytes = k
      have hwrite : Announces c (c.record (.write (c.outputBuffer.content.take k))) := record c (by simp)
      split
      · have hretrieve := hwrite.trans (setOutputBuffer _ (c.outputBuffer.retrieve (toInt k)))
        split
        · have hdone := (hretrieve.trans (setInterest _ .disableWriting)).trans (queueWriteComplete _)
          split
          · exact hdone.trans (quietRule.shutdownInLoop _)
          · exact hdone
        · exact hretrieve
      · exact hwrite
  · exact refl c

end Announces

/-- Every function keeps the account, and with it a write path that completes. -/
theorem announces_completing_rule : OutputRule fun c d => Announces c d ∧ (Completing c → Completing d) := by
  have hquiet : ∀ {c d : TcpConnection}, Announces c d → (Sends c → Sends d) →
      (CompletesAtOnce c.writeCompleteCallback c.log → CompletesAtOnce c.writeCompleteCallback d.log) →
      Announces c d ∧ (Completing c → Completing d) := by
    intro c d hannounces hsends hcompletes
    refine ⟨hannounces, fun h hb => ?_⟩
    obtain ⟨hin, hat⟩ := h (unbroken_before hannounces.log hb)
    rw [hannounces.callback]
    exact ⟨hsends hin, hcompletes hat⟩
  have hanswers : ∀ {c : TcpConnection} (result : WriteResult), broken c.log = false → Answers c result :=
    fun result hb hbroken => absurd (hb.symm.trans hbroken) (by decide)
  constructor
  · constructor
    · exact fun c => ⟨.refl c, id⟩
    · exact fun h h' => ⟨h.1.trans h'.1, h'.2 ∘ h.2⟩
    · intro c a ha
      have hwrite : ∀ bytes, a ≠ .write bytes := by
        rintro bytes rfl
        cases ha
      have hcomplete : a ≠ .writeComplete := by
        rintro rfl
        cases ha
      refine hquiet (.record c hcomplete) (fun h => h.record ?_ ?_ hcomplete) fun h => h.concat_other hcomplete hwrite
      · cases a <;> first | rfl | cases ha
      · cases a <;> first | rfl | cases ha
    · intro c f hf
      exact hquiet (Announces.quietRule.queueInLoop c hf) (fun h => h.congr rfl rfl rfl rfl) id
    · intro c hopen
      exact hquiet (Announces.quietRule.setDisconnecting c hopen) (fun h => h.setState hopen) id
    · intro c
      refine hquiet (Announces.quietRule.close c) (fun h => ?_) id
      exact ⟨h.pre, fun hopen => absurd rfl hopen, fun _ => setInterest_isWriting .disableAll⟩
    · intro c call reading hcall
      refine hquiet (Announces.quietRule.setReading c reading hcall) (fun h => h.congr rfl rfl rfl ?_) id
      refine (setInterest_isWriting call).trans ?_
      rcases hcall with rfl | rfl <;> rfl
    · intro c delayedForceCloses
      exact hquiet (Announces.quietRule.delay c delayedForceCloses) (fun h => h.congr rfl rfl rfl rfl) id
    · intro c inputBuffer
      exact hquiet (Announces.quietRule.input c inputBuffer) (fun h => h.congr rfl rfl rfl rfl) id
  · intro c data result
    have hannounces := Announces.sendInLoop c data result
    refine ⟨hannounces, fun h hb => ?_⟩
    have hb' := unbroken_before hannounces.log hb
    obtain ⟨hin, hat⟩ := h hb'
    rw [hannounces.callback]
    exact ⟨hin.sendInLoop data (hanswers result hb'), sendInLoop_completes hin hb' hat data⟩
  · intro c result
    have hannounces := Announces.handleWrite c result
    refine ⟨hannounces, fun h hb => ?_⟩
    have hb' := unbroken_before hannounces.log hb
    obtain ⟨hin, hat⟩ := h hb'
    rw [hannounces.callback]
    exact ⟨hin.handleWrite (hanswers result hb'), handleWrite_completes hin hb' hat⟩

/-! ### Every run -/

/-- The callbacks among functors. -/
def completions (functors : List Functor) : Nat := functors.count .writeCompleteCallback

/-- What a step adds to the callbacks that were called. -/
def Dispatch.completed (s : Dispatch) : EventLabel → Nat
  | .runFunctor _ => completions (s.conn.functors.take 1)
  | _ => 0

/-- A connection on its loop, with the number of times that `writeCompleteCallback_` was called. -/
def completing : Machine (Except Assertion (Dispatch × Nat)) EventLabel :=
  .ofExcept (Machine.recording Dispatch.step fun s a _ called => called + s.completed a)

namespace Completing

structure Inv (callback : Bool) (s : Dispatch × Nat) : Prop where
  callback : s.1.conn.writeCompleteCallback = callback
  called : s.2 + completions s.1.conn.functors + completions s.1.conn.pendingFunctors =
    s.1.conn.log.count .writeComplete
  completing : Completing s.1.conn

theorem established_inv (fd : Int) (callback : Bool) (highWaterMark : Option Nat) :
    Inv callback (established fd callback highWaterMark, 0) where
  callback := rfl
  called := rfl
  completing _ :=
    ⟨.of_stream (connectEstablished_stream fd callback highWaterMark) (by simp [established, connectEstablished]),
      .nil callback⟩

variable {callback : Bool} {s t : Dispatch} {called : Nat} {a : EventLabel}

/-- A step that runs one member function and calls nothing. -/
theorem Inv.of_rule (h : Inv callback (s, called))
    (hrule : Announces s.conn t.conn ∧ (Completing s.conn → Completing t.conn)) : Inv callback (t, called) where
  callback := hrule.1.callback.trans h.callback
  called := by
    have hqueued := hrule.1.queued
    have hcalled := h.called
    show _ + completions t.conn.functors + _ = _
    rw [hrule.1.functors]
    simp only [completions] at hcalled ⊢
    omega
  completing := hrule.2 h.completing

theorem Inv.step (h : Inv callback (s, called)) (hstep : s.step a = some (.ok t)) :
    Inv callback (t, called + s.completed a) := by
  generalize hr : Except.ok t = r at hstep
  cases Dispatch.step_takes hstep with
  | request thread call result =>
    obtain rfl := Except.ok.inj hr
    exact h.of_rule (announces_completing_rule.call s.conn thread result call)
  | delayedForceClose hdelayed =>
    obtain rfl := Except.ok.inj hr
    have hdelay := announces_completing_rule.delay s.conn (s.conn.delayedForceCloses - 1)
    exact h.of_rule (announces_completing_rule.trans hdelay (announces_completing_rule.forceClose _))
  | poll revents channel handlers hindex hevents =>
    obtain rfl := Except.ok.inj hr
    refine h.of_rule ⟨.of_eq rfl rfl rfl rfl, fun hc hb => ⟨(hc hb).1.congr rfl rfl rfl ?_, (hc hb).2⟩⟩
    exact congrArg (fun events : Mask => events.has Channel.kWriteEvent) hevents
  | handle read write handler handlers hhandlers =>
    obtain ⟨d, hok, rfl⟩ := of_map_ok hr.symm
    exact h.of_rule (announces_completing_rule.runHandler hok)
  | swap hfunctors =>
    obtain rfl := Except.ok.inj hr
    refine ⟨h.callback, ?_, fun hb => ⟨(h.completing hb).1.congr rfl rfl rfl rfl, (h.completing hb).2⟩⟩
    have hcalled : called + completions s.conn.functors + completions s.conn.pendingFunctors =
        s.conn.log.count .writeComplete := h.called
    rw [hfunctors] at hcalled
    exact hcalled
  | runFunctor result f functors hfunctors =>
    obtain ⟨d, hok, rfl⟩ := of_map_ok hr.symm
    obtain ⟨hannounces, hcompleting⟩ := announces_completing_rule.runFunctor hok
    refine ⟨hannounces.callback.trans h.callback, ?_, hcompleting fun hb => ?_⟩
    · have hcalled := h.called
      have hqueued := hannounces.queued
      have hrest : d.functors = functors := hannounces.functors
      have hrun : s.completed (.runFunctor result) = completions [f] := by
        rw [Dispatch.completed, hfunctors]
        rfl
      have hbatch : completions s.conn.functors = completions functors + completions [f] := by
        rw [hfunctors, completions, completions, completions, ← List.singleton_append, List.count_append]
        omega
      show called + s.completed (.runFunctor result) + completions d.functors + _ = d.log.count .writeComplete
      rw [hrun, hrest]
      rw [hbatch] at hcalled
      simp only [completions] at hcalled hqueued ⊢
      omega
    · exact ⟨(h.completing hb).1.congr rfl rfl rfl rfl, (h.completing hb).2⟩

end Completing

/-- **One callback for each completion**: in every run of an established connection the calls of
`writeCompleteCallback_` that were made, that are left in the batch and that are still queued are as many as the log
says; and as long as no `EPIPE` or `ECONNRESET` occurred the log says so right after each `write` that took the last
of the bytes sent, when the callback is set, and nowhere else. -/
theorem completes_once (fd : Int) (callback : Bool) (highWaterMark : Option Nat) (as : List EventLabel) :
    completing.Always (Machine.HoldsIfOk fun s =>
      s.2 + completions s.1.conn.functors + completions s.1.conn.pendingFunctors =
        s.1.conn.log.count .writeComplete ∧
      (broken s.1.conn.log = false → CompletesAtOnce callback s.1.conn.log))
      (.ok (established fd callback highWaterMark, 0)) as := by
  have hinv : completing.Always (Machine.HoldsIfOk (Completing.Inv callback))
      (.ok (established fd callback highWaterMark, 0)) as := by
    refine Machine.ofExcept_always_holdsIfOk (Completing.established_inv fd callback highWaterMark) ?_
    rintro ⟨s, called⟩ a ⟨t, called'⟩ hs hstep
    obtain ⟨hstep, hcalled⟩ := Machine.recording_eq_ok.mp hstep
    obtain rfl : called' = called + s.completed a := hcalled
    exact hs.step hstep
  refine hinv.mono fun r hr => ?_
  cases r with
  | error e => trivial
  | ok s =>
    refine ⟨hr.called, fun hb => ?_⟩
    rw [← hr.callback]
    exact (hr.completing hb).2

end Siren.TcpConnection
