import Siren.Net.TcpConnection.WritePath

/-!
# Graceful shutdown

`send` accepts a message while the connection is `kConnected`, but on another thread than the loop's it
only queues `sendInLoop`; `shutdown` on the loop thread shuts the socket down at once when the channel is
not writing, and so does `handleWrite` when it drains the buffer of a connection in `kDisconnecting`. A
message that still waits in the mailbox is then written too late.

* `Queued`: whatever happens, the messages passed on are those `sendInLoop` was called with and those in
  the mailbox. Its argument is what is on the way from one to the other.
* `shutdown_graceful_iff`: `SHUT_WR` comes after all accepted bytes, and no write after it, exactly in the
  runs where each step that shuts the socket down finds no `sendInLoop` in the mailbox and no accepted
  string that its `int` length cut short.
-/

namespace Siren.TcpConnection

/-! ### Messages in the log and in the mailbox -/

def Action.accepts : Action → List (List Byte × List Byte)
  | .accept message passed => [(message, passed)]
  | _ => []

def Action.message : Action → List (List Byte)
  | .sendInLoop message => [message]
  | _ => []

def Action.isWrite : Action → Bool
  | .write _ => true
  | .writeFailed _ => true
  | _ => false

def Functor.message : Functor → List (List Byte)
  | .sendInLoop message => [message]
  | _ => []

/-- The sends that saw `kConnected`: the message, and what was passed on to `sendInLoop`. -/
def accepts (log : List Action) : List (List Byte × List Byte) := log.flatMap Action.accepts

/-- The messages of the sends that saw `kConnected`. -/
def accepted (log : List Action) : List (List Byte) := (accepts log).map Prod.fst

/-- What they passed on. -/
def passedOn (log : List Action) : List (List Byte) := (accepts log).map Prod.snd

/-- The messages `sendInLoop` was called with. -/
def sentMessages (log : List Action) : List (List Byte) := log.flatMap Action.message

/-- The messages that wait in the mailbox for `sendInLoop`. -/
def queuedMessages (c : TcpConnection) : List (List Byte) :=
  (c.functors ++ c.pendingFunctors).flatMap Functor.message

/-- `SHUT_WR` was issued only when every byte of every accepted message had been written, and no write
was attempted after it. -/
structure Graceful (log : List Action) : Prop where
  flushed : ∀ pre, pre ++ [.shutdownWrite] <+: log →
    (accepted pre).Perm (sentMessages pre) ∧ writtenBytes pre = (sentMessages pre).flatten
  silent : ∀ pre a, pre ++ [a] <+: log → a.isWrite = true → .shutdownWrite ∉ pre

section log

variable {log log' : List Action} {a : Action} {result : WriteResult}

@[simp] theorem accepts_concat (log : List Action) (a : Action) :
    accepts (log ++ [a]) = accepts log ++ a.accepts := by
  simp [accepts]

@[simp] theorem sentMessages_concat (log : List Action) (a : Action) :
    sentMessages (log ++ [a]) = sentMessages log ++ a.message := by
  simp [sentMessages]

theorem sentBytes_eq_flatten (log : List Action) : sentBytes log = (sentMessages log).flatten := by
  induction log with
  | nil => rfl
  | cons a log ih =>
    rw [sentBytes] at ih
    rw [sentBytes, sentMessages, List.flatMap_cons, List.flatMap_cons, List.flatten_append, ih]
    cases a <;> simp [Action.sent, Action.message, sentMessages]

/-- Writing changes neither what was accepted nor what was sent, and breaks only by its own result. -/
theorem Grew.accepts (h : Grew (Action.ofWriting result) log log') :
    TcpConnection.accepts log' = TcpConnection.accepts log := by
  obtain ⟨more, rfl, hmore⟩ := h
  have hnone : more.flatMap Action.accepts = [] := by
    refine List.flatMap_eq_nil_iff.mpr fun a ha => ?_
    have hkind := hmore a ha
    cases a <;> first | rfl | cases hkind
  rw [TcpConnection.accepts, List.flatMap_append, hnone, List.append_nil, TcpConnection.accepts]

theorem Grew.sentMessages (h : Grew (Action.ofWriting result) log log') :
    TcpConnection.sentMessages log' = TcpConnection.sentMessages log := by
  obtain ⟨more, rfl, hmore⟩ := h
  have hnone : more.flatMap Action.message = [] := by
    refine List.flatMap_eq_nil_iff.mpr fun a ha => ?_
    have hkind := hmore a ha
    cases a <;> first | rfl | cases hkind
  rw [TcpConnection.sentMessages, List.flatMap_append, hnone, List.append_nil, TcpConnection.sentMessages]

theorem Grew.broken (h : Grew (Action.ofWriting result) log log') (hresult : breaks result = false) :
    TcpConnection.broken log' = TcpConnection.broken log := by
  obtain ⟨more, rfl, hmore⟩ := h
  have hnone : more.any Action.isBreak = false := by
    refine List.any_eq_false.mpr fun a ha hbreak => ?_
    have hkind := hmore a ha
    cases a with
    | writeFailed errno =>
      obtain rfl : result = .failed errno := by simpa [Action.ofWriting] using hkind
      exact absurd (hbreak.symm.trans hresult) (by decide)
    | _ => cases hbreak
  rw [TcpConnection.broken, List.any_append, hnone, Bool.or_false, TcpConnection.broken]

theorem Grew.mem_shutdownWrite (h : Grew (Action.ofWriting result) log log') :
    .shutdownWrite ∈ log' ↔ .shutdownWrite ∈ log := by
  obtain ⟨more, rfl, hmore⟩ := h
  refine List.mem_append.trans ⟨fun hmem => hmem.resolve_right fun hmem => ?_, Or.inl⟩
  cases hmore _ hmem

/-- A log without `SHUT_WR` has nothing to answer for. -/
theorem graceful_of_not_mem (h : .shutdownWrite ∉ log) : Graceful log where
  flushed _ hpre := absurd (hpre.subset (List.mem_append_right _ List.mem_cons_self)) h
  silent _ _ hpre _ hmem := h (hpre.subset (List.mem_append_left _ hmem))

/-- `SHUT_WR` on a connection that has written all it accepted. -/
theorem Graceful.concat_shutdownWrite (h : Graceful log)
    (hflushed : (accepted log).Perm (sentMessages log) ∧ writtenBytes log = (sentMessages log).flatten) :
    Graceful (log ++ [.shutdownWrite]) where
  flushed pre hpre := by
    rcases List.prefix_concat_iff.mp hpre with heq | hpre
    · rw [(List.append_inj' heq rfl).1]
      exact hflushed
    · exact h.flushed pre hpre
  silent pre a hpre ha := by
    rcases List.prefix_concat_iff.mp hpre with heq | hpre
    · obtain ⟨-, hact⟩ := List.append_inj' heq rfl
      obtain rfl := List.singleton_inj.mp hact
      cases ha
    · exact h.silent pre a hpre ha

end log

/-! ### Messages on their way -/

/-- The functors of sending and shutting down. -/
def Functor.ofSending : Functor → Bool
  | .sendInLoop _ => true
  | .shutdownInLoop => true
  | f => f.isCallback

/-- The messages passed on are those sent, those of `onTheWay` and those in the mailbox. -/
structure Queued (onTheWay : List (List Byte)) (c : TcpConnection) : Prop where
  passed : (passedOn c.log).Perm (sentMessages c.log ++ onTheWay ++ queuedMessages c)
  nonempty : ∀ m ∈ queuedMessages c, m ≠ []
  cut : ∀ e ∈ accepts c.log, e.2 <+: e.1
  sending : ∀ f ∈ c.functors ++ c.pendingFunctors, f.ofSending = true
  closing : .shutdownInLoop ∈ c.functors ++ c.pendingFunctors → c.state = .kDisconnecting

variable {c d : TcpConnection} {onTheWay : List (List Byte)} {message passed : List Byte}
  {result : WriteResult}

@[simp] theorem record_queuedMessages (a : Action) : (c.record a).queuedMessages = c.queuedMessages := rfl

theorem queuedMessages_grew {c d : TcpConnection} (hf : d.functors = c.functors)
    (hp : Grew Functor.isCallback c.pendingFunctors d.pendingFunctors) :
    queuedMessages d = queuedMessages c := by
  obtain ⟨more, hmore, hcb⟩ := hp
  have hnone : more.flatMap Functor.message = [] := by
    refine List.flatMap_eq_nil_iff.mpr fun f hf => ?_
    have hkind := hcb f hf
    cases f <;> first | rfl | cases hkind
  rw [queuedMessages, hf, hmore, ← List.append_assoc, List.flatMap_append, hnone, List.append_nil,
    queuedMessages]

theorem Queued.writes (h : Queued onTheWay c) (hw : Writes result c d) : Queued onTheWay d := by
  have hqueued := queuedMessages_grew hw.functors hw.pending
  obtain ⟨more, hmore, hcb⟩ := hw.pending
  have hmem : ∀ f, f ∈ d.functors ++ d.pendingFunctors →
      f ∈ c.functors ++ c.pendingFunctors ∨ f.isCallback = true := by
    intro f hf
    rw [hw.functors, hmore, ← List.append_assoc] at hf
    exact (List.mem_append.mp hf).imp_right (hcb f)
  refine ⟨?_, ?_, ?_, ?_, ?_⟩
  · rw [passedOn, hw.log.accepts, hw.log.sentMessages, hqueued]
    exact h.passed
  · rw [hqueued]
    exact h.nonempty
  · rw [hw.log.accepts]
    exact h.cut
  · intro f hf
    rcases hmem f hf with hf | hf
    · exact h.sending f hf
    · cases f <;> first | rfl | cases hf
  · intro hf
    rw [hw.state]
    exact h.closing ((hmem _ hf).resolve_right (by decide))

/-- `send` sees `kConnected`. -/
theorem Queued.accept (h : Queued [] c) (hcut : passed <+: message) :
    Queued [passed] (c.record (.accept message passed)) := by
  refine ⟨?_, h.nonempty, ?_, h.sending, h.closing⟩
  · have hpassed := h.passed.append_right [passed]
    rw [List.append_nil] at hpassed
    simp only [passedOn, record_log, accepts_concat, sentMessages_concat, Action.accepts, Action.message,
      List.map_append, List.map_cons, List.map_nil, List.append_nil]
    refine hpassed.trans ?_
    rw [List.append_assoc, List.append_assoc]
    exact List.perm_append_comm.append_left _
  · intro e he
    rw [record_log, accepts_concat, List.mem_append] at he
    rcases he with he | he
    · exact h.cut e he
    · obtain rfl := List.mem_singleton.mp he
      exact hcut

/-- A message enters the mailbox. -/
theorem Queued.queueInLoop (h : Queued [passed] c) (hne : passed ≠ []) :
    Queued [] (c.queueInLoop (.sendInLoop passed)) := by
  have hqueued : queuedMessages (c.queueInLoop (.sendInLoop passed)) = queuedMessages c ++ [passed] := by
    simp [queuedMessages, TcpConnection.queueInLoop, Functor.message]
  refine ⟨?_, ?_, h.cut, ?_, ?_⟩
  · rw [hqueued, List.append_nil]
    refine h.passed.trans ?_
    rw [List.append_assoc]
    exact List.perm_append_comm.append_left _
  · intro m hm
    rw [hqueued, List.mem_append, List.mem_singleton] at hm
    rcases hm with hm | rfl
    · exact h.nonempty m hm
    · exact hne
  · intro f hf
    rw [TcpConnection.queueInLoop, ← List.append_assoc, List.mem_append, List.mem_singleton] at hf
    rcases hf with hf | rfl
    · exact h.sending f hf
    · rfl
  · intro hf
    refine h.closing ?_
    rw [TcpConnection.queueInLoop, ← List.append_assoc, List.mem_append, List.mem_singleton] at hf
    exact hf.resolve_right (by simp)

/-- `sendInLoop` is called. -/
theorem Queued.sendInLoop (h : Queued [passed] c) (result : WriteResult) :
    Queued [] (c.sendInLoop passed result) := by
  have hrec : Queued [] (c.record (.sendInLoop passed)) := by
    refine ⟨?_, h.nonempty, ?_, h.sending, h.closing⟩
    · simpa [passedOn, Action.accepts, Action.message] using h.passed
    · simpa [Action.accepts] using h.cut
  exact hrec.writes (Writes.sendInLoop passed result)

/-- Actions that are neither an `accept` nor a call of `sendInLoop`. -/
theorem Queued.record (h : Queued onTheWay c) {a : Action} (ha : a.accepts = []) (hm : a.message = []) :
    Queued onTheWay (c.record a) := by
  refine ⟨?_, h.nonempty, ?_, h.sending, h.closing⟩
  · simpa [passedOn, ha, hm] using h.passed
  · simpa [ha] using h.cut

/-- `setState(kDisconnecting)` -/
theorem Queued.setState (h : Queued onTheWay c) : Queued onTheWay (c.setState .kDisconnecting) :=
  ⟨h.passed, h.nonempty, h.cut, h.sending, fun _ => rfl⟩

theorem Queued.queueShutdown (h : Queued onTheWay c) (hstate : c.state = .kDisconnecting) :
    Queued onTheWay (c.queueInLoop .shutdownInLoop) := by
  have hqueued : queuedMessages (c.queueInLoop .shutdownInLoop) = queuedMessages c := by
    simp [queuedMessages, TcpConnection.queueInLoop, Functor.message]
  refine ⟨?_, hqueued ▸ h.nonempty, h.cut, ?_, fun _ => hstate⟩
  · rw [hqueued]
    exact h.passed
  · intro f hf
    rw [TcpConnection.queueInLoop, ← List.append_assoc, List.mem_append, List.mem_singleton] at hf
    rcases hf with hf | rfl
    · exact h.sending f hf
    · rfl

theorem Queued.swapFunctors (h : Queued onTheWay c) (hempty : c.functors = []) :
    Queued onTheWay c.swapFunctors := by
  have hall : c.swapFunctors.functors ++ c.swapFunctors.pendingFunctors =
      c.functors ++ c.pendingFunctors := by
    simp [TcpConnection.swapFunctors, hempty]
  have hqueued : queuedMessages c.swapFunctors = queuedMessages c := by
    rw [queuedMessages, hall, queuedMessages]
  refine ⟨hqueued ▸ h.passed, hqueued ▸ h.nonempty, h.cut, hall ▸ h.sending, ?_⟩
  rw [hall]
  exact h.closing

/-- The next functor leaves the mailbox. -/
theorem Queued.pop (h : Queued [] c) {f : Functor} {fs : List Functor} (hfs : c.functors = f :: fs) :
    Queued f.message { c with functors := fs } := by
  have hqueued : queuedMessages c = f.message ++ queuedMessages { c with functors := fs } := by
    simp [queuedMessages, hfs]
  have hmem : ∀ g ∈ fs ++ c.pendingFunctors, g ∈ c.functors ++ c.pendingFunctors := by
    intro g hg
    rw [hfs, List.cons_append]
    exact List.mem_cons_of_mem _ hg
  refine ⟨?_, ?_, h.cut, fun g hg => h.sending g (hmem g hg), fun hg => h.closing (hmem _ hg)⟩
  · have hpassed := h.passed
    rwa [hqueued, List.append_nil, ← List.append_assoc] at hpassed
  · intro m hm
    exact h.nonempty m (hqueued ▸ List.mem_append_right _ hm)

/-! ### Runs -/

/-- What happens while a connection sends and shuts down. -/
inductive SendLabel where
  /-- One of the `send`s or `shutdown`, on any thread. -/
  | request (thread : Thread) (call : Call) (result : WriteResult)
  | handleWrite (result : WriteResult)
  /-- `doPendingFunctors` swaps the functors out. -/
  | swap
  | runFunctor (result : WriteResult)

/-- The `send`s and `shutdown`. -/
def Call.ofSending : Call → Bool
  | .send _ => true
  | .sendString _ => true
  | .sendBuffer _ => true
  | .shutdown => true
  | _ => false

/-- A step, with a socket on which no write breaks. Events are handled between two batches of functors. -/
def SendLabel.step (c : TcpConnection) : SendLabel → Option (Except Assertion TcpConnection)
  | .request thread call result =>
    if call.ofSending = true ∧ breaks result = false then some (.ok (c.call thread result call)) else none
  | .handleWrite result =>
    if c.functors = [] ∧ breaks result = false then some (.ok (c.handleWrite result)) else none
  | .swap => if c.functors = [] then some (.ok c.swapFunctors) else none
  | .runFunctor result =>
    match c.functors with
    | [] => none
    | f :: fs =>
      if breaks result = false then some (TcpConnection.runFunctor { c with functors := fs } result f) else none

def sending : Machine (Except Assertion TcpConnection) SendLabel := .ofExcept SendLabel.step

/-- The step shuts the socket down. -/
def ShutsDown (c : TcpConnection) : SendLabel → Prop
  | .request thread call _ =>
    thread = .loop ∧ call = .shutdown ∧ c.state = .kConnected ∧ c.isWriting = false
  | .handleWrite result => c.Drains result
  | .swap => False
  | .runFunctor _ => c.functors.head? = some .shutdownInLoop ∧ c.isWriting = false

/-- No accepted message waits in the mailbox, and none was cut short. -/
def AllPassed (c : TcpConnection) : Prop :=
  queuedMessages c = [] ∧ ∀ e ∈ accepts c.log, e.1 = e.2

/-- A step that shuts the socket down finds no `sendInLoop` in the mailbox and no message cut short. -/
def ShutsDownFlushed (c : TcpConnection) (a : SendLabel) : Prop := ShutsDown c a → AllPassed c

/-- What holds in every run: nothing is lost between `send` and the socket. -/
structure Carries (c : TcpConnection) : Prop where
  live : c.state = .kConnected ∨ c.state = .kDisconnecting
  unbroken : broken c.log = false
  stream : Stream [] c
  queued : Queued [] c

/-- What a step leads to, as far as shutting down is concerned: `d` is a connection before the last
`SHUT_WR` of the step, when there is one. -/
def Leads (c : TcpConnection) (a : SendLabel) (d' : TcpConnection) : Prop :=
  (¬ ShutsDown c a ∧ Carries d' ∧ (.shutdownWrite ∈ d'.log → .shutdownWrite ∈ c.log)) ∨
    ShutsDown c a ∧ ∃ d, Carries d ∧ d' = d.record .shutdownWrite ∧ d.state = .kDisconnecting ∧
      d.isWriting = false ∧ queuedMessages d = queuedMessages c ∧ accepts d.log = accepts c.log ∧
      (.shutdownWrite ∈ d.log → .shutdownWrite ∈ c.log)

theorem Carries.sendInLoop {p : List Byte} (hlive : c.state = .kConnected ∨ c.state = .kDisconnecting)
    (hb : broken c.log = false) (hs : Stream [] c) (hq : Queued [p] c) (hresult : breaks result = false) :
    Carries (c.sendInLoop p result) := by
  have hw := Writes.sendInLoop (c := c) p result
  refine ⟨?_, ?_, hs.sendInLoop ?_ ?_, hq.sendInLoop result⟩
  · rw [hw.state]
    exact hlive
  · rw [hw.log.broken hresult]
    simpa [Action.isBreak] using hb
  · rcases hlive with h | h <;> simp [h]
  · exact fun h => absurd (h.symm.trans hb) (by decide)

theorem Carries.record (h : Carries c) {a : Action} (hb : a.isBreak = false) (hs : a.sent = [])
    (hw : a.written = []) (hc : a ≠ .writeComplete) (ha : a.accepts = []) (hm : a.message = []) :
    Carries (c.record a) :=
  ⟨h.live, by simpa [hb] using h.unbroken, h.stream.record hs hw hc, h.queued.record ha hm⟩

theorem Carries.setState (h : Carries c) : Carries (c.setState .kDisconnecting) :=
  ⟨Or.inr rfl, h.unbroken, h.stream.congr rfl rfl rfl, h.queued.setState⟩

theorem Carries.passOn (h : Carries c) {thread : Thread} (hne : passed ≠ []) (hcut : passed <+: message)
    (hresult : breaks result = false) : Carries (c.passOn thread message passed result) := by
  have hs : Stream [] (c.record (.accept message passed)) := h.stream.record rfl rfl (by simp)
  have hb : broken (c.record (.accept message passed)).log = false := by
    simpa [Action.isBreak] using h.unbroken
  cases thread with
  | loop => exact Carries.sendInLoop h.live hb hs (h.queued.accept hcut) hresult
  | other =>
    exact ⟨h.live, hb, hs.congr rfl rfl rfl, (h.queued.accept hcut).queueInLoop hne⟩

theorem Carries.send (h : Carries c) {thread : Thread} {len : Int}
    (hresult : breaks result = false) (hlen : len ≤ message.length) :
    Carries (c.send thread message len result) := by
  unfold TcpConnection.send
  split
  · exact h
  · rename_i hpos
    split
    · refine h.passOn ?_ (List.take_prefix _ _) hresult
      intro hnil
      have hzero := congrArg List.length hnil
      simp only [List.length_take, List.length_nil] at hzero
      omega
    · exact h

theorem sendInLoop_unshut (h : .shutdownWrite ∈ (c.sendInLoop passed result).log) :
    .shutdownWrite ∈ c.log := by
  have hrec := (Writes.sendInLoop passed result).log.mem_shutdownWrite.mp h
  simpa using hrec

theorem passOn_unshut {thread : Thread} (h : .shutdownWrite ∈ (c.passOn thread message passed result).log) :
    .shutdownWrite ∈ c.log := by
  cases thread with
  | loop => simpa using sendInLoop_unshut (c := c.record (.accept message passed)) h
  | other => simpa [passOn] using h

theorem send_unshut {thread : Thread} {len : Int}
    (h : .shutdownWrite ∈ (c.send thread message len result).log) : .shutdownWrite ∈ c.log := by
  unfold TcpConnection.send at h
  split at h
  · exact h
  · split at h
    · exact passOn_unshut h
    · exact h

theorem shutdownInLoop_cases (c : TcpConnection) :
    c.isWriting = true ∧ c.shutdownInLoop = c ∨
      c.isWriting = false ∧ c.shutdownInLoop = c.record .shutdownWrite := by
  cases hw : c.isWriting <;> simp [TcpConnection.shutdownInLoop, hw]

theorem Carries.leads_shutdown (h : Carries c) (thread : Thread) (result : WriteResult) :
    Leads c (.request thread .shutdown result) (c.shutdown thread) := by
  unfold TcpConnection.shutdown
  by_cases hstate : c.state = .kConnected
  · rw [if_pos hstate]
    cases thread with
    | other =>
      refine Or.inl ⟨fun hs => (by cases hs.1), ?_, id⟩
      exact ⟨Or.inr rfl, h.unbroken, h.stream.congr rfl rfl rfl, h.queued.setState.queueShutdown rfl⟩
    | loop =>
      show Leads c _ (c.setState .kDisconnecting).shutdownInLoop
      rcases shutdownInLoop_cases (c.setState .kDisconnecting) with ⟨hw, heq⟩ | ⟨hw, heq⟩
      · rw [heq]
        exact Or.inl ⟨fun hs => absurd (hw.symm.trans hs.2.2.2) (by decide), h.setState, id⟩
      · exact Or.inr ⟨⟨rfl, rfl, hstate, hw⟩, _, h.setState, heq, rfl, hw, rfl, rfl, id⟩
  · rw [if_neg hstate]
    exact Or.inl ⟨fun hs => hstate hs.2.2.1, h, id⟩

theorem Carries.leads_call (h : Carries c) {thread : Thread} {call : Call} (hcall : call.ofSending = true)
    (hresult : breaks result = false) :
    Leads c (.request thread call result) (c.call thread result call) := by
  cases call with
  | send message => exact Or.inl ⟨fun hs => (by cases hs.2.1), h.send hresult le_rfl, send_unshut⟩
  | sendString message =>
    show Leads c _ (c.send thread message (toInt message.length) result)
    exact Or.inl ⟨fun hs => (by cases hs.2.1), h.send hresult (toInt_le _), send_unshut⟩
  | sendBuffer message =>
    show Leads c _ (c.sendBuffer thread message result)
    refine Or.inl ⟨fun hs => (by cases hs.2.1), ?_⟩
    unfold sendBuffer
    split
    · rename_i hpos
      exact ⟨h.passOn (List.ne_nil_of_length_pos hpos.2) List.prefix_rfl hresult, passOn_unshut⟩
    · exact ⟨h, id⟩
  | shutdown => exact h.leads_shutdown thread result
  | forceClose => cases hcall
  | forceCloseWithDelay => cases hcall
  | startRead => cases hcall
  | stopRead => cases hcall

theorem Carries.writes (h : Carries c) (hw : Writes result c d) (hs : Stream [] d)
    (hresult : breaks result = false) : Carries d where
  live := by
    rw [hw.state]
    exact h.live
  unbroken := by
    rw [hw.log.broken hresult]
    exact h.unbroken
  stream := hs
  queued := h.queued.writes hw

/-- A functor carries on. -/
theorem Carries.leads_functor {f : Functor} {fs : List Functor} (h : Carries c) (hfs : c.functors = f :: fs)
    (hresult : breaks result = false) (heq : TcpConnection.runFunctor { c with functors := fs } result f = .ok d) :
    Leads c (.runFunctor result) d := by
  have hpop := h.queued.pop hfs
  have hs : Stream [] { c with functors := fs } := h.stream.congr rfl rfl rfl
  have hsend := h.queued.sending f (hfs ▸ List.mem_append_left _ List.mem_cons_self)
  cases f with
  | sendInLoop p =>
    obtain rfl := Except.ok.inj heq
    refine Or.inl ⟨fun hsd => ?_, Carries.sendInLoop h.live h.unbroken hs hpop hresult, fun hmem =>
      sendInLoop_unshut (c := { c with functors := fs }) hmem⟩
    simp [ShutsDown, hfs] at hsd
  | shutdownInLoop =>
    obtain rfl := Except.ok.inj heq
    have hcarries : Carries { c with functors := fs } := ⟨h.live, h.unbroken, hs, hpop⟩
    have hstate : c.state = .kDisconnecting :=
      h.queued.closing (hfs ▸ List.mem_append_left _ List.mem_cons_self)
    have hqueued : queuedMessages { c with functors := fs } = queuedMessages c := by
      simp [queuedMessages, hfs, Functor.message]
    rcases shutdownInLoop_cases { c with functors := fs } with ⟨hw, heq⟩ | ⟨hw, heq⟩
    · refine Or.inl ⟨fun hsd => absurd (hw.symm.trans hsd.2) (by decide), ?_⟩
      rw [heq]
      exact ⟨hcarries, id⟩
    · exact Or.inr ⟨⟨by simp [hfs], hw⟩, _, hcarries, heq, hstate, hw, hqueued, rfl, id⟩
  | writeCompleteCallback =>
    obtain rfl := Except.ok.inj heq
    refine Or.inl ⟨fun hsd => ?_, ⟨h.live, h.unbroken, hs, hpop⟩, id⟩
    simp [ShutsDown, hfs] at hsd
  | highWaterMarkCallback size =>
    obtain rfl := Except.ok.inj heq
    refine Or.inl ⟨fun hsd => ?_, ⟨h.live, h.unbroken, hs, hpop⟩, id⟩
    simp [ShutsDown, hfs] at hsd
  | forceCloseInLoop => cases hsend
  | startReadInLoop => cases hsend
  | stopReadInLoop => cases hsend

/-- Every step carries on, and shuts the socket down exactly when `ShutsDown` says so. -/
theorem Carries.leads {a : SendLabel} (h : Carries c) (hstep : a.step c = some (.ok d)) : Leads c a d := by
  cases a with
  | request thread call result =>
    rw [SendLabel.step, Option.ite_none_right_eq_some] at hstep
    obtain ⟨⟨hcall, hresult⟩, heq⟩ := hstep
    obtain rfl := Except.ok.inj (Option.some.inj heq)
    exact h.leads_call hcall hresult
  | handleWrite result =>
    rw [SendLabel.step, Option.ite_none_right_eq_some] at hstep
    obtain ⟨⟨-, hresult⟩, heq⟩ := hstep
    obtain rfl := Except.ok.inj (Option.some.inj heq)
    have hanswers : Answers c result := fun hb => absurd (hb.symm.trans h.unbroken) (by decide)
    have hstream := h.stream.handleWrite hanswers
    rcases handleWrite_spec c result with ⟨hno, hw⟩ | ⟨hdrains, e, hw, hidle, heq⟩
    · exact Or.inl ⟨hno, h.writes hw hstream hresult, hw.log.mem_shutdownWrite.mp⟩
    · rw [heq] at hstream
      have hcarries := h.writes hw (hstream.of_record rfl rfl rfl) hresult
      exact Or.inr ⟨hdrains, e, hcarries, heq, hw.state.trans hdrains.2.1, hidle,
        queuedMessages_grew hw.functors hw.pending, hw.log.accepts, hw.log.mem_shutdownWrite.mp⟩
  | swap =>
    rw [SendLabel.step, Option.ite_none_right_eq_some] at hstep
    obtain ⟨hempty, heq⟩ := hstep
    obtain rfl := Except.ok.inj (Option.some.inj heq)
    exact Or.inl ⟨id, ⟨h.live, h.unbroken, h.stream.congr rfl rfl rfl, h.queued.swapFunctors hempty⟩, id⟩
  | runFunctor result =>
    simp only [SendLabel.step] at hstep
    split at hstep
    · cases hstep
    · rename_i f fs hfs
      rw [Option.ite_none_right_eq_some] at hstep
      obtain ⟨hresult, heq⟩ := hstep
      exact h.leads_functor hfs hresult (Option.some.inj heq)

theorem Carries.step_ok {a : SendLabel} {r : Except Assertion TcpConnection} (h : Carries c)
    (hstep : a.step c = some r) : ∃ d, r = .ok d := by
  cases a with
  | request thread call result =>
    rw [SendLabel.step, Option.ite_none_right_eq_some] at hstep
    exact ⟨_, (Option.some.inj hstep.2).symm⟩
  | handleWrite result =>
    rw [SendLabel.step, Option.ite_none_right_eq_some] at hstep
    exact ⟨_, (Option.some.inj hstep.2).symm⟩
  | swap =>
    rw [SendLabel.step, Option.ite_none_right_eq_some] at hstep
    exact ⟨_, (Option.some.inj hstep.2).symm⟩
  | runFunctor result =>
    simp only [SendLabel.step] at hstep
    split at hstep
    · cases hstep
    · rename_i f fs hfs
      rw [Option.ite_none_right_eq_some] at hstep
      have hsend := h.queued.sending f (hfs ▸ List.mem_append_left _ List.mem_cons_self)
      cases f with
      | forceCloseInLoop => cases hsend
      | _ => exact ⟨_, (Option.some.inj hstep.2).symm⟩

/-! ### After `SHUT_WR` -/

/-- A connection that shuts down with nothing left to write. -/
structure Flushed (c : TcpConnection) : Prop where
  state : c.state = .kDisconnecting
  idle : c.isWriting = false
  passed : AllPassed c

/-- It has written all it accepted. -/
theorem Flushed.written (h : Flushed c) (hc : Carries c) :
    (accepted c.log).Perm (sentMessages c.log) ∧ writtenBytes c.log = (sentMessages c.log).flatten := by
  constructor
  · have hpassed := hc.queued.passed
    rw [h.passed.1, List.append_nil, List.append_nil] at hpassed
    rwa [accepted, List.map_congr_left h.passed.2]
  · have hempty : c.outputBuffer.content = [] := by
      by_contra hne
      exact absurd (h.idle.symm.trans (hc.stream.armed.mpr hne)) (by decide)
    have hwhole := hc.stream.whole hc.unbroken
    rw [hempty, List.append_nil, List.append_nil] at hwhole
    rw [hwhole, sentBytes_eq_flatten]

/-- It stays as it is: at most the socket is shut down once more. -/
theorem Flushed.step {a : SendLabel} (h : Flushed c) (hc : Carries c) (hstep : a.step c = some (.ok d)) :
    Flushed d ∧ (d.log = c.log ∨ d.log = c.log ++ [.shutdownWrite]) := by
  have hstate : c.state ≠ .kConnected := by simp [h.state]
  cases a with
  | request thread call result =>
    rw [SendLabel.step, Option.ite_none_right_eq_some] at hstep
    obtain ⟨⟨hcall, -⟩, heq⟩ := hstep
    obtain rfl := Except.ok.inj (Option.some.inj heq)
    have hsame : c.call thread result call = c := by
      cases call with
      | send message => simp [TcpConnection.call, send, hstate]
      | sendString message => simp [TcpConnection.call, sendString, send, hstate]
      | sendBuffer message => simp [TcpConnection.call, sendBuffer, hstate]
      | shutdown => simp [TcpConnection.call, shutdown, hstate]
      | _ => cases hcall
    rw [hsame]
    exact ⟨h, Or.inl rfl⟩
  | handleWrite result =>
    rw [SendLabel.step, Option.ite_none_right_eq_some] at hstep
    obtain rfl := Except.ok.inj (Option.some.inj hstep.2)
    have hsame : c.handleWrite result = c := by simp [handleWrite, h.idle]
    rw [hsame]
    exact ⟨h, Or.inl rfl⟩
  | swap =>
    rw [SendLabel.step, Option.ite_none_right_eq_some] at hstep
    obtain ⟨hempty, heq⟩ := hstep
    obtain rfl := Except.ok.inj (Option.some.inj heq)
    refine ⟨⟨h.state, h.idle, ?_, h.passed.2⟩, Or.inl rfl⟩
    have hnone := h.passed.1
    rw [queuedMessages, hempty] at hnone
    simpa [queuedMessages, swapFunctors] using hnone
  | runFunctor result =>
    simp only [SendLabel.step] at hstep
    split at hstep
    · cases hstep
    · rename_i f fs hfs
      rw [Option.ite_none_right_eq_some] at hstep
      have heq := Option.some.inj hstep.2
      have hsend := hc.queued.sending f (hfs ▸ List.mem_append_left _ List.mem_cons_self)
      have hnone : f.message ++ queuedMessages { c with functors := fs } = [] := by
        rw [← h.passed.1]
        simp [queuedMessages, hfs]
      obtain ⟨hmessage, hrest⟩ := List.append_eq_nil_iff.mp hnone
      have hflushed : Flushed { c with functors := fs } := ⟨h.state, h.idle, hrest, h.passed.2⟩
      cases f with
      | sendInLoop p => cases hmessage
      | shutdownInLoop =>
        obtain rfl := Except.ok.inj heq
        rcases shutdownInLoop_cases { c with functors := fs } with ⟨-, heq⟩ | ⟨-, heq⟩
        · rw [heq]
          exact ⟨hflushed, Or.inl rfl⟩
        · rw [heq]
          refine ⟨⟨h.state, h.idle, hrest, ?_⟩, Or.inr rfl⟩
          simpa [Action.accepts] using h.passed.2
      | writeCompleteCallback =>
        obtain rfl := Except.ok.inj heq
        exact ⟨hflushed, Or.inl rfl⟩
      | highWaterMarkCallback size =>
        obtain rfl := Except.ok.inj heq
        exact ⟨hflushed, Or.inl rfl⟩
      | forceCloseInLoop => cases hsend
      | startReadInLoop => cases hsend
      | stopReadInLoop => cases hsend

/-! ### Every run -/

/-- The invariant of the runs that shut down flushed. -/
structure ShutFlushed (c : TcpConnection) : Prop where
  carries : Carries c
  flushed : .shutdownWrite ∈ c.log → Flushed c
  graceful : Graceful c.log

theorem ShutFlushed.step {a : SendLabel} (h : ShutFlushed c) (ha : ShutsDownFlushed c a)
    (hstep : a.step c = some (.ok d)) : ShutFlushed d := by
  by_cases hshut : .shutdownWrite ∈ c.log
  · obtain ⟨hflushed, hlog⟩ := (h.flushed hshut).step h.carries hstep
    have hcarries : Carries d := by
      rcases h.carries.leads hstep with ⟨-, hd, -⟩ | ⟨-, e, he, rfl, -⟩
      · exact hd
      · exact he.record rfl rfl rfl (by decide) rfl rfl
    refine ⟨hcarries, fun _ => hflushed, ?_⟩
    rcases hlog with hlog | hlog
    · rw [hlog]
      exact h.graceful
    · rw [hlog]
      exact h.graceful.concat_shutdownWrite ((h.flushed hshut).written h.carries)
  · rcases h.carries.leads hstep with ⟨-, hd, hunshut⟩ | ⟨hs, e, he, rfl, hstate, hidle, hqueued, hacc, hunshut⟩
    · have hnone : .shutdownWrite ∉ d.log := fun hmem => hshut (hunshut hmem)
      exact ⟨hd, fun hmem => absurd hmem hnone, graceful_of_not_mem hnone⟩
    · -- the first `SHUT_WR` of the run
      obtain ⟨hempty, hwhole⟩ := ha hs
      have hflushed : Flushed e := ⟨hstate, hidle, hqueued.trans hempty, by rwa [hacc]⟩
      have hnone : .shutdownWrite ∉ e.log := fun hmem => hshut (hunshut hmem)
      refine ⟨he.record rfl rfl rfl (by decide) rfl rfl, fun _ => ⟨hstate, hidle, hflushed.passed.1, ?_⟩,
        (graceful_of_not_mem hnone).concat_shutdownWrite (hflushed.written he)⟩
      simpa [Action.accepts] using hflushed.passed.2

/-- Two lists related element by element that have one total length are equal. -/
theorem eq_of_prefix_of_total (es : List (List Byte × List Byte)) (hcut : ∀ e ∈ es, e.2 <+: e.1)
    (htotal : (es.map Prod.fst).flatten.length ≤ (es.map Prod.snd).flatten.length) :
    ∀ e ∈ es, e.1 = e.2 := by
  have hle : ∀ es : List (List Byte × List Byte), (∀ e ∈ es, e.2 <+: e.1) →
      (es.map Prod.snd).flatten.length ≤ (es.map Prod.fst).flatten.length := by
    intro es hcut
    induction es with
    | nil => exact le_rfl
    | cons e es ih =>
      have hhead := (hcut e List.mem_cons_self).length_le
      have htail := ih fun e' he' => hcut e' (List.mem_cons_of_mem _ he')
      simp only [List.map_cons, List.flatten_cons, List.length_append]
      omega
  induction es with
  | nil => simp
  | cons e es ih =>
    have hhead := (hcut e List.mem_cons_self).length_le
    have htail := hle es fun e' he' => hcut e' (List.mem_cons_of_mem _ he')
    simp only [List.map_cons, List.flatten_cons, List.length_append] at htotal
    intro e' he'
    rcases List.mem_cons.mp he' with rfl | he'
    · exact ((hcut e' List.mem_cons_self).eq_of_length (by omega)).symm
    · exact ih (fun x hx => hcut x (List.mem_cons_of_mem _ hx)) (by omega) e' he'

/-- Shutting down with a message in the mailbox, or one cut short, loses its bytes. -/
theorem Carries.not_graceful {a : SendLabel} (h : Carries c) (ha : ¬ ShutsDownFlushed c a)
    (hstep : a.step c = some (.ok d)) : ¬ Graceful d.log := by
  obtain ⟨hs, hnot⟩ := Classical.not_imp.mp ha
  rcases h.leads hstep with ⟨hno, -⟩ | ⟨-, e, he, rfl, -, -, hqueued, hacc, -⟩
  · exact absurd hs hno
  · intro hgraceful
    have hperm := (hgraceful.flushed e.log List.prefix_rfl).1
    have hpassed := he.queued.passed
    rw [List.append_nil] at hpassed
    -- the totals: what was passed on is what was sent and what waits
    have htotal := hperm.flatten.length_eq
    have hsum := hpassed.flatten.length_eq
    rw [List.flatten_append, List.length_append] at hsum
    have hwhole : ∀ e' ∈ accepts e.log, e'.1 = e'.2 :=
      eq_of_prefix_of_total _ he.queued.cut (by
        rw [accepted] at htotal
        rw [passedOn] at hsum
        omega)
    have hsame : accepted e.log = passedOn e.log := List.map_congr_left hwhole
    rw [← hsame] at hsum
    have hzero : (queuedMessages e).flatten = [] := List.length_eq_zero_iff.mp (by omega)
    refine hnot ⟨?_, hacc ▸ hwhole⟩
    rw [← hqueued]
    refine List.eq_nil_iff_forall_not_mem.mpr fun m hm => ?_
    exact he.queued.nonempty m hm (List.flatten_eq_nil_iff.mp hzero m hm)

theorem connectEstablished_shutFlushed (fd : Int) (writeCompleteCallback : Bool)
    (highWaterMark : Option Nat) :
    ShutFlushed (new fd writeCompleteCallback highWaterMark).connectEstablished where
  carries := by
    refine ⟨Or.inl rfl, rfl, connectEstablished_stream fd writeCompleteCallback highWaterMark, ?_⟩
    refine ⟨List.Perm.refl _, ?_, ?_, ?_, ?_⟩ <;>
      simp [queuedMessages, connectEstablished, new, setState, setInterest, accepts]
  flushed hmem := by simp [connectEstablished, new] at hmem
  graceful := graceful_of_not_mem (by simp [connectEstablished, new])

/-- **Graceful shutdown**: in every state of a run of sends, shutdowns and write events without write
errors, each `SHUT_WR` came after every byte of every accepted message and no write after it, if and only
if each step of the run that shuts the socket down finds no `sendInLoop` in the mailbox and no accepted
message cut short. -/
theorem shutdown_graceful_iff (fd : Int) (writeCompleteCallback : Bool) (highWaterMark : Option Nat)
    (as : List SendLabel) :
    sending.Always (Machine.HoldsIfOk fun c => Graceful c.log)
        (.ok (new fd writeCompleteCallback highWaterMark).connectEstablished) as ↔
      sending.Meets (Machine.AtOk ShutsDownFlushed)
        (.ok (new fd writeCompleteCallback highWaterMark).connectEstablished) as := by
  refine Machine.ofExcept_always_iff_meets (I := ShutFlushed) (fun _ h => h.graceful)
    (fun _ _ _ h ha hstep => h.step ha hstep) (fun _ _ _ h ha hstep => h.carries.not_graceful ha hstep) ?_
    (connectEstablished_shutFlushed fd writeCompleteCallback highWaterMark)
  intro c a e h _ hstep
  obtain ⟨d, hd⟩ := h.carries.step_ok hstep
  cases hd

/-- A message sent on another thread, then `shutdown` on the loop thread: `SHUT_WR` overtakes it. -/
theorem shutdown_overtakes_send :
    ¬ ∀ as, sending.Always (Machine.HoldsIfOk fun c => Graceful c.log)
      (.ok (new 7 false none).connectEstablished) as := by
  intro h
  have hlast := (h [.request .other (.send [1]) (.wrote 0), .request .loop .shutdown (.wrote 0)]).last rfl
  have hflushed := (hlast.flushed [.accept [1] [1]] (by decide)).1
  exact absurd hflushed.length_eq (by decide)

end Siren.TcpConnection
