import Siren.Net.TcpConnection.Rules

/-!
# The high-water mark

`sendInLoop` queues `highWaterMarkCallback_` when what it appends takes `outputBuffer_` from below the mark to it
or over it. The callback runs some functors later, with the size that the buffer had then; `handleWrite` only takes
bytes out, and no other function touches the buffer.

* `Crosses`: what a member function does to the buffer and to the callbacks queued.
* `marks_are_crossings`: in every run the callbacks run and still queued are the upward crossings of the mark, one
  each, in order and with the sizes reached.
-/

namespace Siren.TcpConnection

open Channel (Handler InterestCall)

/-! ### Crossings -/

/-- The sizes at which a buffer came from below the mark to it or over it, where it had `size` before these. -/
def crossings (mark : Nat) : Nat → List Nat → List Nat
  | _, [] => []
  | size, next :: sizes => (if size < mark ∧ mark ≤ next then [next] else []) ++ crossings mark next sizes

theorem crossings_concat (mark size : Nat) (sizes : List Nat) (next : Nat) :
    crossings mark size (sizes ++ [next]) =
      crossings mark size sizes ++ if sizes.getLastD size < mark ∧ mark ≤ next then [next] else [] := by
  induction sizes generalizing size with
  | nil => simp [crossings]
  | cons first sizes ih =>
    rw [List.cons_append, crossings, ih, crossings, List.append_assoc, List.getLastD_cons]

/-- The size a functor reports, if it runs `highWaterMarkCallback_`. -/
def Functor.mark? : Functor → Option Nat
  | .highWaterMarkCallback size => some size
  | _ => none

/-- The sizes that queued functors will report. -/
def marks (functors : List Functor) : List Nat := functors.filterMap Functor.mark?

theorem marks_append (functors more : List Functor) : marks (functors ++ more) = marks functors ++ marks more :=
  List.filterMap_append

theorem marks_cons (f : Functor) (functors : List Functor) :
    marks (f :: functors) = f.mark?.toList ++ marks functors := by
  cases f <;> rfl

/-- `outputBuffer_.readableBytes()` -/
def outputSize (c : TcpConnection) : Nat := c.outputBuffer.content.length

/-- What is queued where the buffer comes to `next` bytes. -/
def crossing (c : TcpConnection) (next : Nat) : List Nat :=
  if c.highWaterMarkCallback = true ∧ c.outputSize < c.highWaterMark ∧ c.highWaterMark ≤ next then [next] else []

/-! ### Member functions -/

/-- The mark and the batch are the same, and the callbacks queued are those of the crossing, if there was one. -/
structure Crosses (c d : TcpConnection) : Prop where
  highWaterMark : d.highWaterMark = c.highWaterMark
  callback : d.highWaterMarkCallback = c.highWaterMarkCallback
  functors : d.functors = c.functors
  queued : marks d.pendingFunctors = marks c.pendingFunctors ++ c.crossing d.outputSize

/-- No callback was queued and the buffer is as large as it was. -/
structure Level (c d : TcpConnection) : Prop where
  highWaterMark : d.highWaterMark = c.highWaterMark
  callback : d.highWaterMarkCallback = c.highWaterMarkCallback
  functors : d.functors = c.functors
  queued : marks d.pendingFunctors = marks c.pendingFunctors
  size : d.outputSize = c.outputSize

variable {c d e : TcpConnection} {result : WriteResult}

/-- A buffer that does not grow crosses nothing. -/
theorem crossing_of_le {next : Nat} (h : next ≤ c.outputSize) : c.crossing next = [] := by
  refine if_neg ?_
  rintro ⟨-, hbelow, hover⟩
  omega

namespace Level

theorem refl (c : TcpConnection) : Level c c := ⟨rfl, rfl, rfl, rfl, rfl⟩

theorem trans (h : Level c d) (h' : Level d e) : Level c e :=
  ⟨h'.highWaterMark.trans h.highWaterMark, h'.callback.trans h.callback, h'.functors.trans h.functors,
    h'.queued.trans h.queued, h'.size.trans h.size⟩

theorem crosses (h : Level c d) : Crosses c d where
  highWaterMark := h.highWaterMark
  callback := h.callback
  functors := h.functors
  queued := by rw [h.queued, crossing_of_le h.size.le, List.append_nil]

theorem trans_crosses (h : Level c d) (h' : Crosses d e) : Crosses c e where
  highWaterMark := h'.highWaterMark.trans h.highWaterMark
  callback := h'.callback.trans h.callback
  functors := h'.functors.trans h.functors
  queued := by rw [h'.queued, h.queued, crossing, crossing, h.callback, h.size, h.highWaterMark]

theorem record (c : TcpConnection) (a : Action) : Level c (c.record a) := ⟨rfl, rfl, rfl, rfl, rfl⟩

theorem setState (c : TcpConnection) (s : StateE) : Level c (c.setState s) := ⟨rfl, rfl, rfl, rfl, rfl⟩

theorem setInterest (c : TcpConnection) (call : InterestCall) : Level c (c.setInterest call) :=
  ⟨rfl, rfl, rfl, rfl, rfl⟩

/-- Any functor but the callback itself. -/
theorem queueInLoop (c : TcpConnection) {f : Functor} (hf : f.mark? = none) : Level c (c.queueInLoop f) where
  highWaterMark := rfl
  callback := rfl
  functors := rfl
  queued := by
    show marks (c.pendingFunctors ++ [f]) = _
    rw [marks_append, marks_cons, hf]
    exact List.append_nil _
  size := rfl

theorem queueWriteComplete (c : TcpConnection) : Level c c.queueWriteComplete := by
  unfold TcpConnection.queueWriteComplete
  split
  · exact (record c _).trans (queueInLoop _ rfl)
  · exact refl c

theorem rule : QuietRule Level where
  refl := refl
  trans := trans
  record c _ _ := record c _
  queueInLoop c f hf := queueInLoop c (by cases f <;> first | rfl | cases hf)
  setDisconnecting c _ := setState c _
  close c := (setState c _).trans (setInterest _ _)
  setReading _ _ _ _ := ⟨rfl, rfl, rfl, rfl, rfl⟩
  delay _ _ := ⟨rfl, rfl, rfl, rfl, rfl⟩
  input _ _ := ⟨rfl, rfl, rfl, rfl, rfl⟩

/-- What `write` takes at once was never in the buffer. -/
theorem writeDirectly (c : TcpConnection) (data : List Byte) (result : WriteResult) :
    Level c (c.writeDirectly data result).conn := by
  unfold TcpConnection.writeDirectly
  split
  · cases result with
    | failed errno => exact record c _
    | wrote n =>
      dsimp only
      split
      · exact (record c _).trans (queueWriteComplete _)
      · exact record c _
  · exact refl c

end Level

namespace Crosses

theorem trans_level (h : Crosses c d) (h' : Level d e) : Crosses c e where
  highWaterMark := h'.highWaterMark.trans h.highWaterMark
  callback := h'.callback.trans h.callback
  functors := h'.functors.trans h.functors
  queued := by rw [h'.queued, h.queued, h'.size]

/-- A buffer from which bytes were taken. -/
theorem of_retrieve {b : ByteBuffer} (h : b.content.length ≤ c.outputSize) : Crosses c (c.setOutputBuffer b) where
  highWaterMark := rfl
  callback := rfl
  functors := rfl
  queued := by
    show _ = _ ++ c.crossing b.content.length
    rw [crossing_of_le h, List.append_nil]
    rfl

/-- The one place where the buffer grows: the callback is queued before the bytes are appended. -/
theorem appendRemaining (c : TcpConnection) (rest : List Byte) : Crosses c (c.appendRemaining rest) := by
  have happend : ∀ d : TcpConnection, d.outputBuffer = c.outputBuffer → d.highWaterMark = c.highWaterMark →
      d.highWaterMarkCallback = c.highWaterMarkCallback → d.functors = c.functors →
      marks d.pendingFunctors = marks c.pendingFunctors ++ c.crossing (c.outputSize + rest.length) →
      Crosses c (let d' := d.setOutputBuffer (d.outputBuffer.append rest)
        if !d'.isWriting then d'.setInterest .enableWriting else d') := by
    intro d hbuffer hmark hcallback hfunctors hqueued
    have hsize : (d.setOutputBuffer (d.outputBuffer.append rest)).outputSize = c.outputSize + rest.length := by
      show (d.outputBuffer.append rest).content.length = _
      rw [hbuffer, ByteBuffer.content_append, List.length_append]
      rfl
    have hcrosses : Crosses c (d.setOutputBuffer (d.outputBuffer.append rest)) :=
      ⟨hmark, hcallback, hfunctors, by rw [hsize]; exact hqueued⟩
    dsimp only
    split
    · exact hcrosses.trans_level (.setInterest _ _)
    · exact hcrosses
  unfold TcpConnection.appendRemaining
  rw [ByteBuffer.readableBytes_eq]
  refine happend _ ?_ ?_ ?_ ?_ ?_
  · split <;> rfl
  · split <;> rfl
  · split <;> rfl
  · split <;> rfl
  · split
    · rename_i hcross
      have hcrossing : c.crossing (c.outputSize + rest.length) = [c.outputSize + rest.length] :=
        if_pos ⟨hcross.2.2, hcross.2.1, hcross.1⟩
      rw [hcrossing]
      exact marks_append ..
    · rename_i hlevel
      have hcrossing : c.crossing (c.outputSize + rest.length) = [] :=
        if_neg fun hcross => hlevel ⟨hcross.2.2, hcross.2.1, hcross.1⟩
      rw [hcrossing, List.append_nil]

theorem sendInLoop (c : TcpConnection) (data : List Byte) (result : WriteResult) :
    Crosses c (c.sendInLoop data result) := by
  have hrecord := Level.record c (.sendInLoop data)
  unfold TcpConnection.sendInLoop
  dsimp only
  split
  · exact hrecord.crosses
  · have hdirect := hrecord.trans (Level.writeDirectly (c.record (.sendInLoop data)) data result)
    split
    · exact hdirect.trans_crosses (appendRemaining _ _)
    · exact hdirect.crosses

theorem handleWrite (c : TcpConnection) (result : WriteResult) : Crosses c (c.handleWrite result) := by
  unfold TcpConnection.handleWrite
  split
  · cases result with
    | failed errno => exact (Level.record c _).crosses
    | wrote n =>
      dsimp only
      generalize writeCount n c.outputBuffer.readableBytes = k
      have hrecord := Level.record c (.write (c.outputBuffer.content.take k))
      have hretrieve : Crosses c ((c.record (.write (c.outputBuffer.content.take k))).setOutputBuffer
          (c.outputBuffer.retrieve (toInt k))) := by
        refine hrecord.trans_crosses (of_retrieve ?_)
        rw [ByteBuffer.content_retrieve, List.length_drop]
        exact Nat.sub_le _ _
      split
      · split
        · have hdone := (hretrieve.trans_level (.setInterest _ .disableWriting)).trans_level (.queueWriteComplete _)
          split
          · exact hdone.trans_level (Level.rule.shutdownInLoop _)
          · exact hdone
        · exact hretrieve
      · exact hrecord.crosses
  · exact (Level.refl c).crosses

theorem passOn (c : TcpConnection) (thread : Thread) (message passed : List Byte) (result : WriteResult) :
    Crosses c (c.passOn thread message passed result) := by
  have haccept := Level.record c (.accept message passed)
  cases thread with
  | loop => exact haccept.trans_crosses (sendInLoop _ passed result)
  | other => exact (haccept.trans (.queueInLoop _ rfl)).crosses

theorem send (c : TcpConnection) (thread : Thread) (message : List Byte) (len : Int) (result : WriteResult) :
    Crosses c (c.send thread message len result) := by
  unfold TcpConnection.send
  split
  · exact (Level.refl c).crosses
  · split
    · exact passOn ..
    · exact (Level.refl c).crosses

theorem sendBuffer (c : TcpConnection) (thread : Thread) (message : List Byte) (result : WriteResult) :
    Crosses c (c.sendBuffer thread message result) := by
  unfold TcpConnection.sendBuffer
  split
  · exact passOn ..
  · exact (Level.refl c).crosses

end Crosses

theorem Crosses.call (c : TcpConnection) (thread : Thread) (result : WriteResult) (call : Call) :
    Crosses c (c.call thread result call) := by
  cases call with
  | send message => exact send c thread message _ result
  | sendString message =>
    show Crosses c (c.send thread message (toInt message.length) result)
    exact send c thread message _ result
  | sendBuffer message => exact sendBuffer c thread message result
  | shutdown => exact (Level.rule.shutdown c thread).crosses
  | forceClose => exact (Level.rule.forceClose c).crosses
  | forceCloseWithDelay => exact (Level.rule.forceCloseWithDelay c).crosses
  | startRead => exact (Level.rule.startRead c thread).crosses
  | stopRead => exact (Level.rule.stopRead c thread).crosses

theorem Crosses.runFunctor {f : Functor} (hok : c.runFunctor result f = .ok d) : Crosses c d := by
  cases f with
  | sendInLoop message =>
    obtain rfl := Except.ok.inj hok
    exact sendInLoop c message result
  | shutdownInLoop => exact Except.ok.inj hok ▸ (Level.rule.shutdownInLoop c).crosses
  | forceCloseInLoop => exact (Level.rule.forceCloseInLoop hok).crosses
  | startReadInLoop => exact Except.ok.inj hok ▸ (Level.rule.startReadInLoop c).crosses
  | stopReadInLoop => exact Except.ok.inj hok ▸ (Level.rule.stopReadInLoop c).crosses
  | writeCompleteCallback => exact Except.ok.inj hok ▸ (Level.refl c).crosses
  | highWaterMarkCallback size => exact Except.ok.inj hok ▸ (Level.refl c).crosses

theorem Crosses.runHandler {read : ReadResult} {write : WriteResult} {handler : Handler}
    (hok : Dispatch.runHandler c read write handler = .ok d) : Crosses c d := by
  cases handler with
  | close => exact (Level.rule.handleClose hok).crosses
  | error =>
    obtain rfl := Except.ok.inj hok
    exact (Level.refl c).crosses
  | read => exact (Level.rule.handleRead hok).crosses
  | write =>
    obtain rfl := Except.ok.inj hok
    exact handleWrite c write

/-! ### Every run -/

/-- History: the sizes of `outputBuffer_` after each step, and those that `highWaterMarkCallback_` was called with. -/
structure Watermarks where
  sizes : List Nat
  reported : List Nat

/-- What a step reports: the callback that it runs. -/
def Dispatch.reports (s : Dispatch) : EventLabel → List Nat
  | .runFunctor _ => marks (s.conn.functors.take 1)
  | _ => []

def Watermarks.after (s : Dispatch) (a : EventLabel) (t : Dispatch) (h : Watermarks) : Watermarks :=
  ⟨h.sizes ++ [t.conn.outputSize], h.reported ++ s.reports a⟩

/-- A connection on its loop with this history. -/
def watermarked : Machine (Except Assertion (Dispatch × Watermarks)) EventLabel :=
  .ofExcept (Machine.recording Dispatch.step Watermarks.after)

namespace Watermarks

/-- The callbacks run and queued are the crossings of the mark. -/
structure Inv (mark : Option Nat) (s : Dispatch × Watermarks) : Prop where
  callback : s.1.conn.highWaterMarkCallback = mark.isSome
  highWaterMark : ∀ m ∈ mark, s.1.conn.highWaterMark = m
  last : s.2.sizes.getLastD 0 = s.1.conn.outputSize
  marks : s.2.reported ++ marks s.1.conn.functors ++ marks s.1.conn.pendingFunctors =
    mark.elim [] fun m => crossings m 0 s.2.sizes

theorem established_inv (fd : Int) (writeCompleteCallback : Bool) (mark : Option Nat) :
    Inv mark (established fd writeCompleteCallback mark, ⟨[], []⟩) where
  callback := rfl
  highWaterMark := by
    rintro m rfl
    rfl
  last := rfl
  marks := by cases mark <;> rfl

variable {mark : Option Nat} {s t : Dispatch} {h : Watermarks} {a : EventLabel}

/-- A step after which the mark is the same, and what was reported and is in the batch and queued has grown by the
crossing. -/
theorem Inv.grow (hinv : Inv mark (s, h)) (hmark : t.conn.highWaterMark = s.conn.highWaterMark)
    (hcallback : t.conn.highWaterMarkCallback = s.conn.highWaterMarkCallback)
    (hmarks : h.reported ++ s.reports a ++ TcpConnection.marks t.conn.functors ++
        TcpConnection.marks t.conn.pendingFunctors =
      h.reported ++ TcpConnection.marks s.conn.functors ++ TcpConnection.marks s.conn.pendingFunctors ++
        s.conn.crossing t.conn.outputSize) : Inv mark (t, h.after s a t) where
  callback := hcallback.trans hinv.callback
  highWaterMark m hm := hmark.trans (hinv.highWaterMark m hm)
  last := by
    show (h.sizes ++ [t.conn.outputSize]).getLastD 0 = _
    rw [List.getLastD_concat]
  marks := by
    refine hmarks.trans ?_
    rw [hinv.marks]
    cases mark with
    | none =>
      have hunset : s.conn.crossing t.conn.outputSize = [] :=
        if_neg fun hcross => absurd (hcross.1.symm.trans hinv.callback) (by simp)
      exact hunset
    | some m =>
      have hcrossing : s.conn.crossing t.conn.outputSize =
          if h.sizes.getLastD 0 < m ∧ m ≤ t.conn.outputSize then [t.conn.outputSize] else [] := by
        rw [crossing, hinv.last, hinv.highWaterMark m rfl, hinv.callback]
        simp
      show crossings m 0 h.sizes ++ _ = crossings m 0 (h.sizes ++ [t.conn.outputSize])
      rw [crossings_concat, hcrossing]

/-- A step that runs one member function and reports nothing. -/
theorem Inv.crosses (hinv : Inv mark (s, h)) (hcrosses : Crosses s.conn t.conn) (hreports : s.reports a = []) :
    Inv mark (t, h.after s a t) := by
  refine hinv.grow hcrosses.highWaterMark hcrosses.callback ?_
  rw [hreports, hcrosses.functors, hcrosses.queued, List.append_nil, List.append_assoc _ _ (s.conn.crossing _)]

theorem Inv.step (hinv : Inv mark (s, h)) (hstep : s.step a = some (.ok t)) : Inv mark (t, h.after s a t) := by
  generalize hr : Except.ok t = r at hstep
  cases Dispatch.step_takes hstep with
  | request thread call result =>
    obtain rfl := Except.ok.inj hr
    exact hinv.crosses (Crosses.call s.conn thread result call) rfl
  | delayedForceClose hdelayed =>
    obtain rfl := Except.ok.inj hr
    have hdelay : Level s.conn { s.conn with delayedForceCloses := s.conn.delayedForceCloses - 1 } :=
      ⟨rfl, rfl, rfl, rfl, rfl⟩
    exact hinv.crosses (hdelay.trans (Level.rule.forceClose _)).crosses rfl
  | poll revents channel handlers hindex hevents =>
    obtain rfl := Except.ok.inj hr
    have hpolled : Level s.conn { s.conn with channel } := ⟨rfl, rfl, rfl, rfl, rfl⟩
    exact hinv.crosses hpolled.crosses rfl
  | handle read write handler handlers hhandlers =>
    obtain ⟨d, hok, rfl⟩ := of_map_ok hr.symm
    exact hinv.crosses (Crosses.runHandler hok) rfl
  | swap hfunctors =>
    obtain rfl := Except.ok.inj hr
    refine hinv.grow rfl rfl ?_
    have hlevel : s.conn.crossing s.conn.outputSize = [] := crossing_of_le le_rfl
    show h.reported ++ [] ++ TcpConnection.marks s.conn.pendingFunctors ++ [] =
      _ ++ s.conn.crossing s.conn.outputSize
    rw [hlevel, hfunctors, List.append_nil, List.append_nil, List.append_nil]
    exact congrArg (· ++ _) (List.append_nil _).symm
  | runFunctor result f functors hfunctors =>
    obtain ⟨d, hok, rfl⟩ := of_map_ok hr.symm
    have hcrosses := Crosses.runFunctor (c := { s.conn with functors }) hok
    refine hinv.grow hcrosses.highWaterMark hcrosses.callback ?_
    have hreports : s.reports (.runFunctor result) = f.mark?.toList := by
      rw [Dispatch.reports, hfunctors]
      exact (marks_cons f []).trans (List.append_nil _)
    have hrest : d.functors = functors := hcrosses.functors
    have hqueued : TcpConnection.marks d.pendingFunctors =
        TcpConnection.marks s.conn.pendingFunctors ++ s.conn.crossing d.outputSize := hcrosses.queued
    rw [hreports, hfunctors, marks_cons]
    show _ ++ TcpConnection.marks d.functors ++ TcpConnection.marks d.pendingFunctors = _
    rw [hrest, hqueued]
    simp only [List.append_assoc]

end Watermarks

/-- **One callback for each crossing**: in every run of an established connection, whatever is sent, written, queued
or closed, the sizes that `highWaterMarkCallback_` was called with, then those in the batch, then those still queued,
are the sizes at which `outputBuffer_` came from below the mark to it or over it, in order; without the callback there
are none. -/
theorem marks_are_crossings (fd : Int) (writeCompleteCallback : Bool) (mark : Option Nat) (as : List EventLabel) :
    watermarked.Always (Machine.HoldsIfOk fun s =>
      s.2.reported ++ marks s.1.conn.functors ++ marks s.1.conn.pendingFunctors =
        mark.elim [] fun m => crossings m 0 s.2.sizes)
      (.ok (established fd writeCompleteCallback mark, ⟨[], []⟩)) as := by
  have hinv : watermarked.Always (Machine.HoldsIfOk (Watermarks.Inv mark))
      (.ok (established fd writeCompleteCallback mark, ⟨[], []⟩)) as := by
    refine Machine.ofExcept_always_holdsIfOk (Watermarks.established_inv fd writeCompleteCallback mark) ?_
    rintro ⟨s, h⟩ a ⟨t, h'⟩ hs hstep
    obtain ⟨hstep, hafter⟩ := Machine.recording_eq_ok.mp hstep
    obtain rfl : h' = h.after s a t := hafter
    exact hs.step hstep
  refine hinv.mono fun r hr => ?_
  cases r with
  | error e => trivial
  | ok s => exact hr.marks

end Siren.TcpConnection
