import Siren.Net.TcpConnection.Removal

/-!
# `isReading`

`reading_` and the interest of the channel in reading are two copies of one fact. Only `startReadInLoop` and
`stopReadInLoop` change either of them on an open connection (`SameReading`, `step_reads`), and both set `reading_`
to `true`: `stopReadInLoop` does not clear it.

* `isReading_truthful_iff`: between `connectEstablished` and the close `reading_` tells the truth exactly in the
  states in which `stopReadInLoop` is not the last of the two to have run, and so all along a run exactly when no
  `stopReadInLoop` runs on the open connection.
-/

namespace Siren.TcpConnection

open Channel (Handler)

variable {c d e : TcpConnection}

/-! ### What leaves both copies alone -/

/-- Both copies are as they were. -/
structure SameReading (c d : TcpConnection) : Prop where
  reading : d.reading = c.reading
  isReading : d.isReading = c.isReading

namespace SameReading

theorem refl (c : TcpConnection) : SameReading c c := ⟨rfl, rfl⟩

theorem trans (h : SameReading c d) (h' : SameReading d e) : SameReading c e :=
  ⟨h'.reading.trans h.reading, h'.isReading.trans h.isReading⟩

theorem of_channel (hreading : d.reading = c.reading) (hchannel : d.channel = c.channel) : SameReading c d where
  reading := hreading
  isReading := by
    unfold TcpConnection.isReading
    rw [hchannel]

theorem rule : MemberRule SameReading where
  refl := refl
  trans := trans
  record _ _ _ := of_channel rfl rfl
  queueInLoop _ _ := of_channel rfl rfl
  setOutputBuffer _ _ := of_channel rfl rfl
  enableWriting _ := ⟨rfl, setInterest_isReading .enableWriting⟩
  disableWriting _ := ⟨rfl, setInterest_isReading .disableWriting⟩
  setState _ _ := of_channel rfl rfl
  delay _ _ := of_channel rfl rfl

/-- A call that runs neither of the two: they are queued on another thread. -/
theorem call (thread : Thread) (result : WriteResult) {call : Call}
    (hcall : thread = .loop → call ≠ .startRead ∧ call ≠ .stopRead) :
    SameReading c (c.call thread result call) :=
  rule.call thread result call (fun hloop hstart => absurd hstart (hcall hloop).1)
    (fun hloop hstop => absurd hstop (hcall hloop).2)

end SameReading

/-! ### `startReadInLoop` and `stopReadInLoop` -/

theorem startReadInLoop_reading (c : TcpConnection) : c.startReadInLoop.reading = true := by
  unfold startReadInLoop
  split
  · rfl
  · rename_i hboth
    simp only [Bool.or_eq_true, Bool.not_eq_true', not_or, Bool.not_eq_false] at hboth
    exact hboth.1

theorem startReadInLoop_isReading (c : TcpConnection) : c.startReadInLoop.isReading = true := by
  unfold startReadInLoop
  split
  · exact setInterest_isReading .enableReading
  · rename_i hboth
    simp only [Bool.or_eq_true, Bool.not_eq_true', not_or, Bool.not_eq_false] at hboth
    exact hboth.2

/-- `stopReadInLoop` sets what it should clear. -/
theorem stopReadInLoop_reading (c : TcpConnection) : c.stopReadInLoop.reading = (c.reading || c.isReading) := by
  unfold stopReadInLoop
  split
  · rename_i hone
    exact hone.symm
  · rename_i hnone
    simp only [Bool.or_eq_true, not_or, Bool.not_eq_true] at hnone
    rw [hnone.1, hnone.2]
    rfl

theorem stopReadInLoop_isReading (c : TcpConnection) : c.stopReadInLoop.isReading = false := by
  unfold stopReadInLoop
  split
  · exact setInterest_isReading .disableReading
  · rename_i hnone
    simp only [Bool.or_eq_true, not_or, Bool.not_eq_true] at hnone
    exact hnone.2

/-! ### What is read after a step -/

/-- The two functions that change what is read. -/
inductive ReadCall where
  | startReadInLoop
  | stopReadInLoop
  deriving DecidableEq

/-- What each of them is for. -/
def ReadCall.reading : ReadCall → Bool
  | .startReadInLoop => true
  | .stopReadInLoop => false

/-- The one that a call on the loop thread runs. -/
def Call.readCall : Call → Option ReadCall
  | .startRead => some .startReadInLoop
  | .stopRead => some .stopReadInLoop
  | _ => none

/-- The one that a functor runs. -/
def LoopFunctor.readCall : LoopFunctor → Option ReadCall
  | .member .startReadInLoop => some .startReadInLoop
  | .member .stopReadInLoop => some .stopReadInLoop
  | _ => none

/-- Between `connectEstablished` and the close. -/
def IsOpen (c : TcpConnection) : Prop := c.state = .kConnected ∨ c.state = .kDisconnecting

theorem Stays.isOpen (h : Stays c d) (hd : d.IsOpen) : c.IsOpen := by
  rcases h with h | ⟨hc, -⟩
  · unfold IsOpen at hd
    rwa [h] at hd
  · exact hc

/-- `d` comes from `c` by a step that ran `ran`: nothing clears `reading_`, and the interest in reading of an open
connection is what `ran` left, or what it was. -/
structure Reads (c d : TcpConnection) (ran : Option ReadCall) : Prop where
  reading : c.reading = true → d.reading = true
  begun : c.state ≠ .kConnecting → d.state ≠ .kConnecting
  isReading : d.IsOpen → c.state = .kConnecting ∧ d.isReading = true ∨
    c.IsOpen ∧ d.isReading = ran.elim c.isReading ReadCall.reading

namespace Reads

theorem of_same (hstays : Stays c d) (h : SameReading c d) : Reads c d none where
  reading hc := h.reading.trans hc
  begun hc hd := hc (hstays.connecting.mp hd)
  isReading hd := .inr ⟨hstays.isOpen hd, h.isReading⟩

theorem refl (c : TcpConnection) : Reads c c none := of_same (.inl rfl) (.refl c)

/-- A close. -/
theorem closed {ran : Option ReadCall} (hreading : d.reading = c.reading) (hstate : d.state = .kDisconnected) :
    Reads c d ran where
  reading hc := hreading.trans hc
  begun _ hd := by cases hstate.symm.trans hd
  isReading hd := by
    unfold IsOpen at hd
    simp [hstate] at hd

theorem startReadInLoop (c : TcpConnection) : Reads c c.startReadInLoop (some .startReadInLoop) where
  reading _ := startReadInLoop_reading c
  begun hc hd := hc ((startReadInLoop_state c).symm.trans hd)
  isReading hd := .inr ⟨Stays.isOpen (.inl (startReadInLoop_state c)) hd, startReadInLoop_isReading c⟩

theorem stopReadInLoop (c : TcpConnection) : Reads c c.stopReadInLoop (some .stopReadInLoop) where
  reading hc := by rw [stopReadInLoop_reading, hc, Bool.true_or]
  begun hc hd := hc ((stopReadInLoop_state c).symm.trans hd)
  isReading hd := .inr ⟨Stays.isOpen (.inl (stopReadInLoop_state c)) hd, stopReadInLoop_isReading c⟩

theorem loopCall (call : Call) (result : WriteResult) : Reads c (c.call .loop result call) call.readCall := by
  by_cases hstart : call = .startRead
  · subst hstart
    exact startReadInLoop c
  · by_cases hstop : call = .stopRead
    · subst hstop
      exact stopReadInLoop c
    · have hnone : call.readCall = none := by
        cases call <;> first | rfl | exact absurd rfl hstart | exact absurd rfl hstop
      rw [hnone]
      exact of_same (.call .loop result call) (.call .loop result fun _ => ⟨hstart, hstop⟩)

theorem otherCall (call : Call) (result : WriteResult) : Reads c (c.call .other result call) none :=
  of_same (.call .other result call) (.call .other result fun h => by cases h)

theorem runFunctor {f : Functor} {result : WriteResult} (hf : f ≠ .forceCloseInLoop)
    (hok : c.runFunctor result f = .ok d) : Reads c d (LoopFunctor.member f).readCall := by
  by_cases hstart : f = .startReadInLoop
  · subst hstart
    obtain rfl := Except.ok.inj hok
    exact startReadInLoop c
  · by_cases hstop : f = .stopReadInLoop
    · subst hstop
      obtain rfl := Except.ok.inj hok
      exact stopReadInLoop c
    · have hnone : (LoopFunctor.member f).readCall = none := by
        cases f <;> first | rfl | exact absurd rfl hstart | exact absurd rfl hstop
      rw [hnone]
      exact of_same (.inl (runFunctor_ok hf hok).1)
        (SameReading.rule.runFunctor hf (fun h => absurd h hstart) (fun h => absurd h hstop) hok)

end Reads

namespace Shared

variable {s t : Shared} {a : Label}

/-- The one of the two that a step runs. -/
def readCall (s : Shared) : Label → Option ReadCall
  | .request call _ => call.readCall
  | .runFunctor _ => if s.owners = 0 then none else s.functors.head?.bind LoopFunctor.readCall
  | _ => none

theorem reads_handleClose {ran : Option ReadCall} (hok : s.handleClose = .ok t) : Reads s.conn t.conn ran := by
  obtain ⟨-, rfl⟩ := handleClose_ok hok
  exact .closed rfl rfl

theorem reads_runHandler {read : ReadResult} {write : WriteResult} {handler : Handler}
    (hok : s.runHandler read write handler = .ok t) : Reads s.conn t.conn none := by
  cases handler with
  | close => exact reads_handleClose hok
  | error =>
    obtain rfl := Except.ok.inj hok
    exact .of_same (.inl rfl) (.of_channel rfl rfl)
  | write =>
    obtain rfl := Except.ok.inj hok
    have hsame := SameReading.rule.handleWrite s.conn write
    exact .of_same (.inl (handleWrite_state s.conn write)) ⟨hsame.reading, hsame.isReading⟩
  | read =>
    rcases handleRead_ok hok with ⟨c, hstate, hchannel, hreading, rfl⟩ | ⟨-, inputBuffer, hok⟩
    · exact .of_same (.inl hstate) (.of_channel hreading hchannel)
    · obtain ⟨-, rfl⟩ := handleClose_ok hok
      exact .closed rfl rfl

/-- `channel_->remove()` leaves the mask as it is, empty. -/
theorem reads_channelRemove (hok : s.channelRemove = .ok t) : Reads s.conn t.conn none := by
  obtain ⟨channel, hchannel, rfl⟩ := channelRemove_ok hok
  obtain ⟨-, -, hself⟩ := MirroredRegistry.remove_spec hchannel
  refine .of_same (.inl rfl) ⟨rfl, ?_⟩
  show (channel.channel ()).isReading = (s.conn.channel.channel ()).isReading
  rw [hself]
  rfl

theorem reads_connectDestroyed (hok : s.connectDestroyed = .ok t) : Reads s.conn t.conn none := by
  rcases connectDestroyed_ok hok with ⟨-, rfl⟩ | ⟨-, hok⟩
  · exact .closed rfl rfl
  · exact reads_channelRemove hok

theorem reads_run {result : WriteResult} {f : LoopFunctor} (hok : s.run result f = .ok t) :
    Reads s.conn t.conn f.readCall := by
  cases f with
  | connectEstablished =>
    obtain ⟨hstate, hok⟩ := of_cassert_bind hok
    obtain rfl := Except.ok.inj hok
    refine ⟨id, fun hc => absurd hstate hc, fun _ => .inl ⟨hstate, ?_⟩⟩
    exact setInterest_isReading (c := s.conn.setState .kConnected) .enableReading
  | connectDestroyed => exact reads_connectDestroyed hok
  | member f =>
    rcases run_member_ok hok with ⟨rfl, hclose | ⟨-, rfl⟩⟩ | ⟨hf, c, hrun, rfl⟩
    · exact reads_handleClose hclose
    · exact .refl _
    · have hreads := Reads.runFunctor (d := c) hf hrun
      exact ⟨hreads.reading, hreads.begun, hreads.isReading⟩

theorem reads_destroyClient (hheld : s.held = true) : Reads s.conn s.destroyClient.conn none := by
  rw [destroyClient_of_held hheld]
  split
  · have hreads : Reads s.conn s.conn.forceClose none := .otherCall .forceClose (.wrote 0)
    exact ⟨hreads.reading, hreads.begun, hreads.isReading⟩
  · exact .refl _

/-- Only the two change what is read, until the connection is closed. -/
theorem step_reads (hstep : s.step a = some (.ok t)) : Reads s.conn t.conn (s.readCall a) := by
  generalize hr : Except.ok t = r at hstep
  cases step_takes hstep with
  | beginCall call hcopies =>
    obtain rfl := Except.ok.inj hr
    have hreads := Reads.otherCall (c := s.conn) call (.wrote 0)
    exact ⟨hreads.reading, hreads.begun, hreads.isReading⟩
  | request call result hreachable =>
    obtain rfl := Except.ok.inj hr
    have hreads := Reads.loopCall (c := s.conn) call result
    exact ⟨hreads.reading, hreads.begun, hreads.isReading⟩
  | delayedForceClose hdelayed howners =>
    obtain rfl := Except.ok.inj hr
    have hreads := Reads.otherCall (c := { s.conn with delayedForceCloses := s.conn.delayedForceCloses - 1 })
      .forceClose (.wrote 0)
    exact ⟨hreads.reading, hreads.begun, hreads.isReading⟩
  | poll revents channel activeChannels hidle hpoll =>
    obtain rfl := Except.ok.inj hr
    obtain ⟨⟨⟩, -, -, hchannel⟩ := MirroredRegistry.poll_singleton hpoll
    refine .of_same (.inl rfl) ⟨rfl, ?_⟩
    show (channel.channel ()).isReading = (s.conn.channel.channel ()).isReading
    rw [hchannel, Function.update_self]
    rfl
  | handle read write handler handlers hguard hframes hhandlers =>
    exact reads_runHandler (s := { s with handlers }) hr.symm
  | closeCallback frames hframes =>
    obtain ⟨-, ⟨held, rfl⟩ | rfl⟩ := closeCallback_ok hr.symm
    · exact .refl _
    · exact .refl _
  | channelRemove frames hframes => exact reads_channelRemove (s := { s with frames }) hr.symm
  | runFunctor result f functors hframes hfunctors howners =>
    have hcall : s.readCall (.runFunctor result) = f.readCall := by
      rw [readCall, if_neg howners, hfunctors]
      rfl
    rw [hcall]
    exact reads_run (s := { s with functors, ran := s.ran ++ [f] }) hr.symm
  | removeConnectionInLoop hremovals =>
    obtain ⟨-, -, rfl⟩ := removeConnectionInLoop_ok hr.symm
    exact .refl _
  | destroyHolder halive =>
    rcases destroyHolder_ok hr.symm with ⟨-, rfl⟩ | ⟨hheld, -, rfl⟩ | ⟨-, -, hok⟩ | ⟨-, -, rfl⟩
    · exact .refl _
    · exact reads_destroyClient hheld
    · exact reads_connectDestroyed (s := { s with alive := false, held := false }) hok
    · exact .refl _
  | channelGone => cases hr
  | destroyed => cases hr
  | _ =>
    obtain rfl := Except.ok.inj hr
    exact .of_same (.inl rfl) (.of_channel rfl rfl)

/-- One of the two runs without a failure, and closes nothing. -/
theorem step_of_readCall {r : Except Failure Shared} {ran : ReadCall} (hran : s.readCall a = some ran)
    (hstep : s.step a = some r) : ∃ t, r = .ok t ∧ t.conn.state = s.conn.state := by
  cases step_takes hstep with
  | request call result hreachable =>
    refine ⟨_, rfl, ?_⟩
    have hcall : call = .startRead ∨ call = .stopRead := by
      cases call with
      | startRead => exact .inl rfl
      | stopRead => exact .inr rfl
      | _ => cases hran
    rcases hcall with rfl | rfl
    · exact startReadInLoop_state s.conn
    · exact stopReadInLoop_state s.conn
  | destroyed result f functors hfunctors howners => simp [readCall, howners] at hran
  | runFunctor result f functors hframes hfunctors howners =>
    have hf : f.readCall = some ran := by
      rw [readCall, if_neg howners, hfunctors] at hran
      exact hran
    have hmember : f = .member .startReadInLoop ∨ f = .member .stopReadInLoop := by
      unfold LoopFunctor.readCall at hf
      split at hf
      · exact .inl rfl
      · exact .inr rfl
      · cases hf
    rcases hmember with rfl | rfl
    · exact ⟨_, rfl, startReadInLoop_state s.conn⟩
    · exact ⟨_, rfl, stopReadInLoop_state s.conn⟩
  | _ => cases hran

/-- Before `connectEstablished` neither of them runs. -/
theorem Fresh.readCall_eq_none {r : Except Failure Shared} (h : s.Fresh) (hstep : s.step a = some r) :
    s.readCall a = none := by
  cases step_takes hstep with
  | request call result hreachable => exact absurd h.connecting hreachable.2
  | destroyed result f functors hfunctors howners => exact if_pos howners
  | runFunctor result f functors hframes hfunctors howners =>
    have hmem : f ∈ s.queue := by simp [queue, hfunctors]
    rw [readCall, if_neg howners, hfunctors]
    rcases h.only f hmem with rfl | rfl
    · rfl
    · rfl
  | _ => rfl

/-! ### Every run -/

/-- A connection with its history: the last of the two to have run. -/
structure Watched where
  shared : Shared
  last : Option ReadCall

def Watched.step (w : Watched) (a : Label) : Option (Except Failure Watched) :=
  (w.shared.step a).map (·.map fun s => ⟨s, (w.shared.readCall a).or w.last⟩)

def watched : Machine (Except Failure Watched) Label := .ofExcept Watched.step

namespace Watched

/-- Between `connectEstablished` and the close `reading_` and the interest of the channel agree, and are `true`
unless the connection was told last to stop. -/
def Truthful (w : Watched) : Prop :=
  w.shared.conn.IsOpen → w.shared.conn.reading = w.shared.conn.isReading ∧
    (w.shared.conn.isReading = true ↔ w.last ≠ some .stopReadInLoop)

/-- `stopReadInLoop` does not run on an open connection. -/
def KeepsReading (w : Watched) (a : Label) : Prop :=
  w.shared.conn.IsOpen → w.shared.readCall a ≠ some .stopReadInLoop

/-- What is known in every state: `reading_` is set, and the interest of an open connection is what the last of the
two left, or `connectEstablished`. -/
structure Inv (w : Watched) : Prop where
  reading : w.shared.conn.reading = true
  begun : w.shared.Fresh ∧ w.last = none ∨ w.shared.conn.state ≠ .kConnecting
  isReading : w.shared.conn.IsOpen → w.shared.conn.isReading = w.last.elim true ReadCall.reading

variable {w v : Watched}

theorem step_ok (hstep : w.step a = some (.ok v)) :
    w.shared.step a = some (.ok v.shared) ∧ v.last = (w.shared.readCall a).or w.last := by
  obtain ⟨r, hr, hv⟩ := Option.map_eq_some_iff.mp hstep
  obtain ⟨s, rfl, rfl⟩ := of_map_ok hv
  exact ⟨hr, rfl⟩

/-- `reading_` tells the truth exactly when it should be set. -/
theorem Inv.truthful_iff (h : w.Inv) :
    w.Truthful ↔ (w.shared.conn.IsOpen → w.last ≠ some .stopReadInLoop) := by
  refine forall_congr' fun hopen => ?_
  rw [h.reading, h.isReading hopen]
  cases w.last with
  | none => simp
  | some call => cases call <;> simp [ReadCall.reading]

theorem Inv.step (h : w.Inv) (hstep : w.step a = some (.ok v)) : v.Inv := by
  obtain ⟨hshared, hlast⟩ := step_ok hstep
  have hreads := step_reads hshared
  refine ⟨hreads.reading h.reading, ?_, fun hopen => ?_⟩
  · rcases h.begun with ⟨hfresh, hnone⟩ | hbegun
    · rcases hfresh.step hshared with hfresh' | ⟨hestablished, -⟩
      · refine .inl ⟨hfresh', ?_⟩
        rw [hlast, hfresh.readCall_eq_none hshared, hnone]
        rfl
      · exact .inr hestablished.established
    · exact .inr (hreads.begun hbegun)
  · rcases hreads.isReading hopen with ⟨hconnecting, htrue⟩ | ⟨hbefore, hran⟩
    · rcases h.begun with ⟨hfresh, hnone⟩ | hbegun
      · rw [htrue, hlast, hfresh.readCall_eq_none hshared, hnone]
        rfl
      · exact absurd hconnecting hbegun
    · rw [hran, hlast, h.isReading hbefore]
      cases w.shared.readCall a <;> rfl

/-- An open connection was open before, or was established by the step. -/
theorem Inv.last_ne (h : w.Inv) (hstep : w.step a = some (.ok v)) (hkeeps : w.KeepsReading a)
    (hlast : w.shared.conn.IsOpen → w.last ≠ some .stopReadInLoop) (hopen : v.shared.conn.IsOpen) :
    v.last ≠ some .stopReadInLoop := by
  obtain ⟨hshared, hv⟩ := step_ok hstep
  rw [hv]
  rcases (step_reads hshared).isReading hopen with ⟨hconnecting, -⟩ | ⟨hbefore, -⟩
  · rcases h.begun with ⟨hfresh, hnone⟩ | hbegun
    · rw [hfresh.readCall_eq_none hshared, hnone]
      simp
    · exact absurd hconnecting hbegun
  · have hran := hkeeps hbefore
    have hold := hlast hbefore
    cases hcall : w.shared.readCall a with
    | none => exact hold
    | some call =>
      rw [hcall] at hran
      exact hran

/-- After a `stopReadInLoop` on the open connection `reading_` is wrong. -/
theorem Inv.breaks (h : w.Inv) {r : Except Failure Watched} (hnot : ¬ w.KeepsReading a)
    (hstep : w.step a = some r) : ∃ v, r = .ok v ∧ ¬ v.Truthful := by
  obtain ⟨hopen, hran⟩ := Classical.not_imp.mp hnot
  have hran := not_not.mp hran
  obtain ⟨r', hr', rfl⟩ := Option.map_eq_some_iff.mp hstep
  obtain ⟨t, rfl, hstate⟩ := step_of_readCall hran hr'
  refine ⟨_, rfl, fun htruthful => ?_⟩
  have hopen' : t.conn.IsOpen := by
    unfold IsOpen
    rw [hstate]
    exact hopen
  refine ((h.step hstep).truthful_iff.mp htruthful) hopen' ?_
  show (w.shared.readCall a).or w.last = _
  rw [hran]
  rfl

end Watched

/-- **Whether `isReading()` tells the truth**: in every state of every run, `reading_` equals the interest of the
channel in reading and both are as the last of `startRead` and `stopRead` wants them, from `connectEstablished` to
the close, exactly when that was not `stopRead`; and this holds all along a run exactly when no `stopReadInLoop`
runs on the open connection. -/
theorem isReading_truthful_iff (holder : Holder) (fd : Int) (writeCompleteCallback : Bool)
    (highWaterMark : Option Nat) (as : List Label) :
    watched.Always (Machine.HoldsIfOk fun w =>
        w.Truthful ↔ (w.shared.conn.IsOpen → w.last ≠ some .stopReadInLoop))
      (.ok ⟨init holder (.new fd writeCompleteCallback highWaterMark), none⟩) as ∧
    (watched.Always (Machine.HoldsIfOk Watched.Truthful)
        (.ok ⟨init holder (.new fd writeCompleteCallback highWaterMark), none⟩) as ↔
      watched.Meets (Machine.AtOk Watched.KeepsReading)
        (.ok ⟨init holder (.new fd writeCompleteCallback highWaterMark), none⟩) as) := by
  have hinit : Watched.Inv ⟨init holder (.new fd writeCompleteCallback highWaterMark), none⟩ := by
    have hreads : (TcpConnection.new fd writeCompleteCallback highWaterMark).connectEstablished.isReading = true :=
      setInterest_isReading .enableReading
    cases holder with
    | poolServer =>
      refine ⟨rfl, .inl ⟨fresh_init fd writeCompleteCallback highWaterMark, rfl⟩, fun hopen => ?_⟩
      rcases hopen with hstate | hstate
      · cases hstate
      · cases hstate
    | client => exact ⟨rfl, .inr (fun hstate => by cases hstate), fun _ => hreads⟩
    | server => exact ⟨rfl, .inr (fun hstate => by cases hstate), fun _ => hreads⟩
  constructor
  · refine (Machine.ofExcept_always_holdsIfOk hinit fun w a v h hstep => h.step hstep).mono fun r hr => ?_
    cases r with
    | error e => trivial
    | ok w => exact Watched.Inv.truthful_iff hr
  · refine Machine.ofExcept_always_iff_meets
      (I := fun w => w.Inv ∧ (w.shared.conn.IsOpen → w.last ≠ some .stopReadInLoop)) ?_ ?_ ?_ ?_ ?_
    · exact fun w h => h.1.truthful_iff.mpr h.2
    · exact fun w a v h hkeeps hstep => ⟨h.1.step hstep, h.1.last_ne hstep hkeeps h.2⟩
    · intro w a v h hnot hstep
      obtain ⟨u, hu, huntrue⟩ := h.1.breaks hnot hstep
      obtain rfl := Except.ok.inj hu
      exact huntrue
    · intro w a e h hnot hstep
      obtain ⟨u, hu, -⟩ := h.1.breaks hnot hstep
      cases hu
    · exact ⟨hinit, fun _ => by simp⟩

/-- `stopRead` in the callback of a new connection. -/
theorem stopped_connection_says_reading :
    ¬ ∀ as, watched.Always (Machine.HoldsIfOk Watched.Truthful)
      (.ok ⟨init .server (.new 5 false none), none⟩) as := by
  intro h
  have hlast := (h [.request .stopRead (.wrote 0)]).last (t := .ok _) rfl
  exact absurd (hlast (.inl rfl)).1 (by decide)

end Shared

end Siren.TcpConnection
