import Siren.Net.TcpConnection.Owners

/-!
# The connection a functor runs on

The functors of `shutdown`, `forceClose` and of the callbacks hold a `shared_ptr`, so the connection is there
when they run. Those of `send`, `startRead` and `stopRead` hold `this`: a user who lets go after the call may
be the last owner, and the functor then runs on a destroyed connection.

`targets_live`: no functor runs on a destroyed connection, in every run in which the last owner goes only
when no functor without a `shared_ptr` is queued.
-/

namespace Siren.TcpConnection.Shared

open Channel (Handler)

variable {s t : Shared} {a : Label}

/-! ### Steps that keep an owner -/

theorem Unowned.of_setConn {c : TcpConnection} (h : (s.setConn c).Unowned) : s.Unowned where
  held := h.held
  functors f hf := by
    refine h.functors f ?_
    simp only [setConn, queue, List.mem_append] at hf ⊢
    rcases hf with hf | hf | hf
    · exact .inl hf
    · exact .inr (.inl hf)
    · exact .inr (.inr (.inl hf))
  removals := h.removals
  removalsRan := h.removalsRan
  copies := h.copies
  calls := h.calls
  guard := h.guard
  frames := h.frames

/-- A functor that begins to run stays in the batch. -/
theorem Unowned.of_pop {f : LoopFunctor} {functors : List LoopFunctor} (hfunctors : s.functors = f :: functors)
    (h : Unowned { s with functors, ran := s.ran ++ [f] }) : s.Unowned where
  held := h.held
  functors g hg := by
    refine h.functors g ?_
    simpa [queue, hfunctors, or_assoc] using hg
  removals := h.removals
  removalsRan := h.removalsRan
  copies := h.copies
  calls := h.calls
  guard := h.guard
  frames := h.frames

/-- `handleClose` owns the connection, by `guardThis`. -/
theorem not_unowned_closing : ¬ s.closing.Unowned := fun h => by cases h.frames

theorem Unowned.not_handleClose (h : t.Unowned) (hok : s.handleClose = .ok t) : False := by
  obtain ⟨-, rfl⟩ := handleClose_ok hok
  exact not_unowned_closing h

theorem Unowned.of_channelRemove (h : t.Unowned) (hok : s.channelRemove = .ok t) : s.Unowned := by
  obtain ⟨channel, -, rfl⟩ := channelRemove_ok hok
  exact ⟨h.held, h.functors, h.removals, h.removalsRan, h.copies, h.calls, h.guard, h.frames⟩

theorem Unowned.of_connectDestroyed (h : t.Unowned) (hok : s.connectDestroyed = .ok t) : s.Unowned := by
  rcases connectDestroyed_ok hok with ⟨-, rfl⟩ | ⟨-, hok⟩
  · cases h.frames
  · exact h.of_channelRemove hok

/-- A functor that runs takes no owner away. -/
theorem Unowned.of_run {result : WriteResult} {f : LoopFunctor} (h : t.Unowned)
    (hok : s.run result f = .ok t) : s.Unowned := by
  cases f with
  | connectEstablished =>
    obtain ⟨-, hok⟩ := of_cassert_bind hok
    obtain rfl := Except.ok.inj hok
    cases h.frames
  | connectDestroyed => exact h.of_connectDestroyed hok
  | member f =>
    rcases run_member_ok hok with ⟨-, hclose | ⟨-, rfl⟩⟩ | ⟨-, c, -, rfl⟩
    · exact (h.not_handleClose hclose).elim
    · exact h
    · exact h.of_setConn

/-- Nor does a callback of the channel, whose dispatch owns the connection. -/
theorem Unowned.of_runHandler {read : ReadResult} {write : WriteResult} {handler : Handler} (h : t.Unowned)
    (hok : s.runHandler read write handler = .ok t) : s.Unowned := by
  cases handler with
  | close => exact (h.not_handleClose hok).elim
  | error =>
    obtain rfl := Except.ok.inj hok
    exact h.of_setConn
  | write =>
    obtain rfl := Except.ok.inj hok
    exact h.of_setConn
  | read =>
    rcases handleRead_ok hok with ⟨c, -, -, -, rfl⟩ | ⟨-, inputBuffer, hok⟩
    · exact h.of_setConn
    · exact (h.not_handleClose hok).elim

theorem not_unowned_queueInLoop {f : LoopFunctor} (hf : f.owns = true) : ¬ (s.queueInLoop f).Unowned := by
  intro h
  have hnot := h.functors f (by simp [queueInLoop, queue])
  simp [hf] at hnot

/-- `removeConnection` passes the connection on. -/
theorem not_unowned_removeConnectionInLoop (hok : s.removeConnectionInLoop = .ok t) : ¬ t.Unowned := by
  obtain ⟨-, -, rfl⟩ := removeConnectionInLoop_ok hok
  exact not_unowned_queueInLoop rfl

theorem not_unowned_closeCallback (hok : s.closeCallback = .ok t) : ¬ t.Unowned := by
  obtain ⟨-, ⟨held, rfl⟩ | rfl⟩ := closeCallback_ok hok
  · exact not_unowned_queueInLoop rfl
  · exact fun h => by cases h.removals

/-! ### What is queued when the last owner goes -/

/-- Every functor to come holds a `shared_ptr`. -/
def NoRaw (s : Shared) : Prop := ∀ f ∈ s.queue, f.owns = true

/-- The owners that a step lets go of, but for those that it passes on. -/
def released (s : Shared) : Label → Nat
  | .drop => 1
  | .endCall f => if f.owns then 0 else 1
  | .endDispatch => 1
  | .endEstablished => 1
  | .channelRemove => 1
  | .endBatch => s.ran.countP LoopFunctor.owns
  | .endRemoval => s.removalsRan
  | .destroyHolder =>
    match s.holder with
    -- an open connection is handed to `forceCloseInLoop`
    | .client => if s.conn.state = .kConnected ∨ s.conn.state = .kDisconnecting then 0 else s.held.toNat
    -- `connectDestroyed` holds the connection where it calls back
    | .server => if s.conn.state = .kConnected then 0 else s.held.toNat
    | .poolServer => 0
  | _ => 0

/-- The last owner goes when no functor without a `shared_ptr` is queued, and is not a thread on its way to
queue one. -/
def LeavesNoRaw (s : Shared) (a : Label) : Prop :=
  s.owners ≠ 0 → s.owners = s.released a → s.NoRaw ∧ ∀ f, a = .endCall f → f.owns = true

/-- A destroyed connection has no functors, and the connection's own mailbox is empty between steps. -/
structure Settled (s : Shared) : Prop where
  queue : s.owners = 0 → s.queue = []
  own : s.conn.pendingFunctors = []

theorem connectDestroyed_queue (hok : s.connectDestroyed = .ok t) : t.queue = s.queue := by
  rcases connectDestroyed_ok hok with ⟨-, rfl⟩ | ⟨-, hok⟩
  · rfl
  · obtain ⟨channel, -, rfl⟩ := channelRemove_ok hok
    rfl

/-- `~TcpClient` queues nothing but `forceCloseInLoop`. -/
theorem mem_queue_destroyClient (hown : s.conn.pendingFunctors = []) (hheld : s.held = true) {f : LoopFunctor}
    (hf : f ∈ s.destroyClient.queue) : f ∈ s.queue ∨ f = .member .forceCloseInLoop := by
  rw [destroyClient_of_held hheld] at hf
  split at hf
  · unfold TcpConnection.forceClose at hf
    split at hf
    · simpa [setConn, TcpConnection.queueInLoop, TcpConnection.setState, hown, queue, or_assoc] using hf
    · exact .inl (by simpa [setConn, hown, queue] using hf)
  · exact .inl hf

/-- `~TcpClient` passes an open connection on. -/
theorem not_unowned_destroyClient (hopen : s.conn.state = .kConnected ∨ s.conn.state = .kDisconnecting)
    (hheld : s.held = true) (hunique : s.unique) : ¬ s.destroyClient.Unowned := by
  intro h
  rw [destroyClient_of_held hheld, if_pos hunique] at h
  have hmem : .member .forceCloseInLoop ∈ (setConn { s with alive := false, closeCallback_ := .detached }
      s.conn.forceClose).queue := by
    simp [setConn, queue, TcpConnection.forceClose, hopen, TcpConnection.queueInLoop]
  cases h.functors _ (List.mem_append_right _ hmem)

/-- The owners of a connection that nothing holds but its holder. -/
theorem owners_of_held (h : Unowned { s with held := false }) : s.owners = s.held.toNat := by
  have hzero : ({ s with held := false } : Shared).owners = 0 := owners_eq_zero.mpr h
  simp only [owners, queue, Bool.toNat_false] at hzero ⊢
  omega

/-- When the last owner goes, the step has let go of all. -/
theorem owners_eq_released (hstep : s.step a = some (.ok t)) (howners : s.owners ≠ 0) (ht : t.Unowned) :
    s.owners = s.released a := by
  have hsame : s.Unowned → s.owners = s.released a := fun h => absurd (owners_eq_zero.mpr h) howners
  have hzero := owners_eq_zero.mpr ht
  generalize hr : Except.ok t = r at hstep
  cases step_takes hstep with
  | drop hcopies =>
    obtain rfl := Except.ok.inj hr
    simp only [owners, queue, released] at hzero ⊢
    omega
  | endCall f hf =>
    obtain rfl := Except.ok.inj hr
    cases hraw : f.owns with
    | true => exact absurd ht (not_unowned_queueInLoop (f := .member f) hraw)
    | false =>
      have hlen := List.length_pos_of_mem hf
      simp only [owners, queue, queueInLoop, released, hraw, List.countP_append,
        List.length_erase_of_mem hf] at hzero ⊢
      simp only [Bool.false_eq_true, if_false]
      omega
  | endDispatch hguard =>
    obtain rfl := Except.ok.inj hr
    simp only [owners, queue, released, hguard, Bool.toNat_true, Bool.toNat_false] at hzero ⊢
    omega
  | endEstablished frames hframes =>
    obtain rfl := Except.ok.inj hr
    simp only [owners, queue, released, hframes, List.length_cons] at hzero ⊢
    omega
  | channelRemove frames hframes =>
    have hzero := owners_eq_zero.mpr (ht.of_channelRemove hr.symm)
    simp only [owners, queue, released, hframes, List.length_cons] at hzero ⊢
    omega
  | endBatch =>
    obtain rfl := Except.ok.inj hr
    simp only [owners, queue, released, List.countP_append, List.countP_nil] at hzero ⊢
    omega
  | endRemoval =>
    obtain rfl := Except.ok.inj hr
    simp only [owners, queue, released] at hzero ⊢
    omega
  | destroyHolder halive =>
    rcases destroyHolder_ok hr.symm with
      ⟨hheld, rfl⟩ | ⟨hheld, hholder, rfl⟩ | ⟨hheld, hholder, hok⟩ | ⟨-, -, rfl⟩
    · exact hsame ⟨hheld, ht.functors, ht.removals, ht.removalsRan, ht.copies, ht.calls, ht.guard, ht.frames⟩
    · by_cases hunique : s.unique
      · by_cases hopen : s.conn.state = .kConnected ∨ s.conn.state = .kDisconnecting
        · exact absurd ht (not_unowned_destroyClient hopen hheld hunique)
        · simp only [released, hholder, if_neg hopen, hheld]
          exact hunique
      · rw [destroyClient_of_held hheld, if_neg hunique] at ht
        have hone := owners_of_held (s := s)
          ⟨rfl, ht.functors, ht.removals, ht.removalsRan, ht.copies, ht.calls, ht.guard, ht.frames⟩
        rw [hheld] at hone
        exact absurd hone hunique
    · have hbare := ht.of_connectDestroyed hok
      rcases connectDestroyed_ok hok with ⟨-, rfl⟩ | ⟨hstate, -⟩
      · cases ht.frames
      · have hnot : s.conn.state ≠ .kConnected := hstate
        simp only [released, hholder, if_neg hnot]
        exact owners_of_held
          ⟨rfl, hbare.functors, hbare.removals, hbare.removalsRan, hbare.copies, hbare.calls, hbare.guard,
            hbare.frames⟩
    · exact absurd ht (not_unowned_queueInLoop rfl)
  | copy hreachable =>
    obtain rfl := Except.ok.inj hr
    cases ht.copies
  | beginCall call hcopies =>
    obtain rfl := Except.ok.inj hr
    have hnone : s.copies = 0 := ht.copies
    omega
  | request call result hreachable =>
    obtain rfl := Except.ok.inj hr
    exact hsame ht.of_setConn
  | expired hdelayed hdestroyed => exact absurd hdestroyed howners
  | delayedForceClose hdelayed hlive =>
    obtain rfl := Except.ok.inj hr
    exact hsame ht.of_setConn
  | poll revents channel activeChannels hidle hpoll =>
    obtain rfl := Except.ok.inj hr
    exact hsame ⟨ht.held, ht.functors, ht.removals, ht.removalsRan, ht.copies, ht.calls, ht.guard, ht.frames⟩
  | dispatch hactive hlive =>
    obtain rfl := Except.ok.inj hr
    cases ht.guard
  | handle read write handler handlers hguard hframes hhandlers =>
    have hnot := (ht.of_runHandler hr.symm).guard
    exact absurd (hguard.symm.trans hnot) (by decide)
  | closeCallback frames hframes => exact absurd ht (not_unowned_closeCallback hr.symm)
  | swap hidle =>
    obtain rfl := Except.ok.inj hr
    obtain ⟨-, -, -, hfunctors, -⟩ := hidle
    refine hsame ⟨ht.held, fun f hf => ht.functors f ?_, ht.removals, ht.removalsRan, ht.copies, ht.calls,
      ht.guard, ht.frames⟩
    simpa [queue, hfunctors] using hf
  | runFunctor result f functors hframes hfunctors hlive => exact hsame ((ht.of_run hr.symm).of_pop hfunctors)
  | removeConnectionInLoop hremovals => exact absurd ht (not_unowned_removeConnectionInLoop hr.symm)
  | channelGone => cases hr
  | destroyed => cases hr

/-- The functors of a connection without an owner were there before the step, but for the one that a call
queues at its end. -/
theorem mem_queue_of_step (hown : s.conn.pendingFunctors = []) (hstep : s.step a = some (.ok t))
    (ht : t.Unowned) {f : LoopFunctor} (hf : f ∈ t.queue) :
    f ∈ s.queue ∨ ∃ g, a = .endCall g ∧ g ∈ s.calls ∧ f = .member g := by
  generalize hr : Except.ok t = r at hstep
  cases step_takes hstep with
  | endCall g hg =>
    obtain rfl := Except.ok.inj hr
    simp only [queueInLoop, queue, List.mem_append, List.mem_singleton] at hf ⊢
    rcases hf with hf | hf | hf
    · exact .inl (.inl hf)
    · exact .inl (.inr hf)
    · exact .inr ⟨g, rfl, hg, hf⟩
  | request call result hreachable =>
    obtain rfl := Except.ok.inj hr
    exact absurd (owners_eq_zero.mpr ht.of_setConn) hreachable.1
  | delayedForceClose hdelayed howners =>
    obtain rfl := Except.ok.inj hr
    exact absurd (owners_eq_zero.mpr ht.of_setConn) howners
  | dispatch hactive howners =>
    obtain rfl := Except.ok.inj hr
    cases ht.guard
  | handle read write handler handlers hguard hframes hhandlers =>
    have hnot := (ht.of_runHandler hr.symm).guard
    exact absurd (hguard.symm.trans hnot) (by decide)
  | closeCallback frames hframes => exact absurd ht (not_unowned_closeCallback hr.symm)
  | channelRemove frames hframes =>
    obtain ⟨channel, -, rfl⟩ := channelRemove_ok hr.symm
    exact .inl hf
  | swap hidle =>
    obtain rfl := Except.ok.inj hr
    obtain ⟨-, -, -, hfunctors, -⟩ := hidle
    simpa [queue, hfunctors] using hf
  | runFunctor result g functors hframes hfunctors howners =>
    exact absurd (owners_eq_zero.mpr ((ht.of_run hr.symm).of_pop hfunctors)) howners
  | removeConnectionInLoop hremovals => exact absurd ht (not_unowned_removeConnectionInLoop hr.symm)
  | destroyHolder halive =>
    rcases destroyHolder_ok hr.symm with ⟨-, rfl⟩ | ⟨hheld, -, rfl⟩ | ⟨-, -, hok⟩ | ⟨-, -, rfl⟩
    · exact .inl hf
    · rcases mem_queue_destroyClient hown hheld hf with hf' | rfl
      · exact .inl hf'
      · have hnot := ht.functors _ (List.mem_append_right _ hf)
        cases hnot
    · rw [connectDestroyed_queue hok] at hf
      exact .inl hf
    · exact absurd ht (not_unowned_queueInLoop rfl)
  | channelGone => cases hr
  | destroyed => cases hr
  | _ =>
    obtain rfl := Except.ok.inj hr
    exact .inl hf

/-! ### The connection's own mailbox -/

theorem own_connectDestroyed (hok : s.connectDestroyed = .ok t) :
    t.conn.pendingFunctors = s.conn.pendingFunctors := by
  rcases connectDestroyed_ok hok with ⟨-, rfl⟩ | ⟨-, hok⟩
  · rfl
  · obtain ⟨channel, -, rfl⟩ := channelRemove_ok hok
    rfl

theorem own_handleClose (hok : s.handleClose = .ok t) : t.conn.pendingFunctors = s.conn.pendingFunctors := by
  obtain ⟨-, rfl⟩ := handleClose_ok hok
  rfl

theorem own_run {result : WriteResult} {f : LoopFunctor} (hown : s.conn.pendingFunctors = [])
    (hok : s.run result f = .ok t) : t.conn.pendingFunctors = [] := by
  cases f with
  | connectEstablished =>
    obtain ⟨-, hok⟩ := of_cassert_bind hok
    obtain rfl := Except.ok.inj hok
    exact hown
  | connectDestroyed => exact (own_connectDestroyed hok).trans hown
  | member f =>
    rcases run_member_ok hok with ⟨-, hclose | ⟨-, rfl⟩⟩ | ⟨-, c, -, rfl⟩
    · exact (own_handleClose hclose).trans hown
    · exact hown
    · rfl

theorem own_runHandler {read : ReadResult} {write : WriteResult} {handler : Handler}
    (hown : s.conn.pendingFunctors = []) (hok : s.runHandler read write handler = .ok t) :
    t.conn.pendingFunctors = [] := by
  cases handler with
  | close => exact (own_handleClose hok).trans hown
  | error =>
    obtain rfl := Except.ok.inj hok
    rfl
  | write =>
    obtain rfl := Except.ok.inj hok
    rfl
  | read =>
    rcases handleRead_ok hok with ⟨c, -, -, -, rfl⟩ | ⟨-, inputBuffer, hok⟩
    · rfl
    · exact (own_handleClose hok).trans hown

theorem own_destroyClient (hown : s.conn.pendingFunctors = []) (hheld : s.held = true) :
    s.destroyClient.conn.pendingFunctors = [] := by
  rw [destroyClient_of_held hheld]
  split
  · rfl
  · exact hown

/-- Between two steps the mailbox of the connection itself is empty: what it queues is the loop's. -/
theorem own_step (hown : s.conn.pendingFunctors = []) (hstep : s.step a = some (.ok t)) :
    t.conn.pendingFunctors = [] := by
  generalize hr : Except.ok t = r at hstep
  cases step_takes hstep with
  | handle read write handler handlers hguard hframes hhandlers =>
    exact own_runHandler (s := { s with handlers }) hown hr.symm
  | runFunctor result f functors hframes hfunctors howners =>
    exact own_run (s := { s with functors, ran := s.ran ++ [f] }) hown hr.symm
  | closeCallback frames hframes =>
    obtain ⟨-, ⟨held, rfl⟩ | rfl⟩ := closeCallback_ok hr.symm
    · exact hown
    · exact hown
  | channelRemove frames hframes =>
    obtain ⟨channel, -, rfl⟩ := channelRemove_ok hr.symm
    exact hown
  | removeConnectionInLoop hremovals =>
    obtain ⟨-, -, rfl⟩ := removeConnectionInLoop_ok hr.symm
    exact hown
  | destroyHolder halive =>
    rcases destroyHolder_ok hr.symm with ⟨-, rfl⟩ | ⟨hheld, -, rfl⟩ | ⟨-, -, hok⟩ | ⟨-, -, rfl⟩
    · exact hown
    · exact own_destroyClient hown hheld
    · exact (own_connectDestroyed hok).trans hown
    · exact hown
  | channelGone => cases hr
  | destroyed => cases hr
  | _ =>
    obtain rfl := Except.ok.inj hr
    first | exact hown | rfl

/-! ### Every interleaving -/

theorem init_settled (holder : Holder) {conn : TcpConnection} (hconn : conn.pendingFunctors = []) :
    (init holder conn).Settled where
  queue h := by
    have hheld := (owners_eq_zero.mp h).held
    cases holder <;> cases hheld
  own := by cases holder <;> exact hconn

theorem Settled.step (h : s.Settled) (hC : s.LeavesNoRaw a) (hstep : s.step a = some (.ok t)) : t.Settled where
  queue ht := by
    refine List.eq_nil_iff_forall_not_mem.mpr fun f hf => ?_
    have hraw := (owners_eq_zero.mp ht).functors f (List.mem_append_right _ hf)
    have hfrom := mem_queue_of_step h.own hstep (owners_eq_zero.mp ht) hf
    by_cases howners : s.owners = 0
    · rcases hfrom with hf' | ⟨g, -, hg, -⟩
      · simp [h.queue howners] at hf'
      · simp [(owners_eq_zero.mp howners).calls] at hg
    · obtain ⟨hno, hcall⟩ := hC howners (owners_eq_released hstep howners (owners_eq_zero.mp ht))
      rcases hfrom with hf' | ⟨g, rfl, -, rfl⟩
      · exact Bool.noConfusion ((hno f hf').symm.trans hraw)
      · exact Bool.noConfusion ((hcall g rfl).symm.trans hraw)
  own := own_step h.own hstep

/-- Only the loop's own look at its next functor fails with a destroyed connection. -/
theorem mapError_conn_ne {α β : Type} {x : Except Assertion α} {f : α → Except Failure β}
    (hf : ∀ a, f a ≠ .error .destroyed) : (x.mapError Failure.conn >>= f) ≠ .error .destroyed := by
  cases x with
  | error e => exact fun h => by cases h
  | ok a => exact hf a

theorem handleClose_ne : s.handleClose ≠ .error .destroyed :=
  mapError_conn_ne fun _ h => by cases h

theorem channelRemove_ne : s.channelRemove ≠ .error .destroyed := by
  unfold Shared.channelRemove
  split <;> simp

theorem connectDestroyed_ne : s.connectDestroyed ≠ .error .destroyed := by
  unfold Shared.connectDestroyed
  split
  · simp
  · exact channelRemove_ne

theorem runHandler_ne {read : ReadResult} {write : WriteResult} {handler : Handler} :
    s.runHandler read write handler ≠ .error .destroyed := by
  cases handler with
  | close => exact handleClose_ne
  | error => exact fun h => by cases h
  | write => exact fun h => by cases h
  | read =>
    show s.handleRead read ≠ _
    unfold handleRead
    split
    · exact handleClose_ne
    · exact mapError_conn_ne fun _ h => by cases h

theorem run_ne {result : WriteResult} {f : LoopFunctor} : s.run result f ≠ .error .destroyed := by
  cases f with
  | connectEstablished =>
    show s.connectEstablished ≠ _
    unfold Shared.connectEstablished cassert
    split <;> exact fun h => by cases h
  | connectDestroyed => exact connectDestroyed_ne
  | member f =>
    cases f with
    | forceCloseInLoop =>
      show s.forceCloseInLoop ≠ _
      unfold Shared.forceCloseInLoop
      split
      · exact handleClose_ne
      · simp
    | _ => exact mapError_conn_ne fun _ h => by cases h

theorem removeConnectionInLoop_ne : s.removeConnectionInLoop ≠ .error .destroyed := by
  unfold Shared.removeConnectionInLoop cassert
  split
  · split <;> exact fun h => by cases h
  · exact fun h => by cases h

theorem closeCallback_ne : s.closeCallback ≠ .error .destroyed := by
  unfold Shared.closeCallback
  split
  · unfold removeConnection
    split
    · exact removeConnectionInLoop_ne
    · exact removeConnectionInLoop_ne
    · unfold cassert
      split <;> exact fun h => by cases h
  · simp

theorem destroyHolder_ne : s.destroyHolder ≠ .error .destroyed := by
  have hserver : s.destroyServer ≠ .error .destroyed := by
    cases hheld : s.held with
    | false => simp [destroyServer, hheld]
    | true =>
      rw [destroyServer_of_held hheld]
      split
      · exact connectDestroyed_ne
      · simp
  unfold Shared.destroyHolder
  split
  · simp
  · exact hserver
  · exact hserver

/-- A step of a settled connection runs no functor on a destroyed one. -/
theorem Settled.step_ne (h : s.Settled) : s.step a ≠ some (.error .destroyed) := by
  intro hstep
  generalize hr : Except.error Failure.destroyed = r at hstep
  cases step_takes hstep with
  | handle read write handler handlers hguard hframes hhandlers => exact runHandler_ne hr.symm
  | runFunctor result f functors hframes hfunctors howners => exact run_ne hr.symm
  | closeCallback frames hframes => exact closeCallback_ne hr.symm
  | channelRemove frames hframes => exact channelRemove_ne hr.symm
  | removeConnectionInLoop hremovals => exact removeConnectionInLoop_ne hr.symm
  | destroyHolder halive => exact destroyHolder_ne hr.symm
  | destroyed result f functors hfunctors howners =>
    have hqueue := h.queue howners
    simp [Shared.queue, hfunctors] at hqueue
  | _ => cases hr

/-- **Functors run on live connections**, in every interleaving of the loop, the holder and the users in
which the last owner goes only when no functor without a `shared_ptr` is queued. -/
theorem targets_live (holder : Holder) (fd : Int) (writeCompleteCallback : Bool) (highWaterMark : Option Nat)
    {as : List Label}
    (hmeets : runs.Meets (Machine.AtOk LeavesNoRaw)
      (.ok (init holder (.new fd writeCompleteCallback highWaterMark))) as) :
    runs.Always (· ≠ .error .destroyed)
      (.ok (init holder (.new fd writeCompleteCallback highWaterMark))) as := by
  suffices halways : runs.Always (fun r => (∃ s, r = .ok s ∧ s.Settled) ∨ ∃ e, r = .error e ∧ e ≠ .destroyed)
      (.ok (init holder (.new fd writeCompleteCallback highWaterMark))) as by
    refine halways.mono ?_
    rintro r (⟨s, rfl, -⟩ | ⟨e, rfl, he⟩)
    · simp
    · simpa using he
  refine Machine.Always.of_invariant (C := Machine.AtOk LeavesNoRaw)
    (.inl ⟨_, rfl, init_settled holder rfl⟩) ?_ hmeets
  rintro r a r' (⟨s, rfl, hs⟩ | ⟨e, rfl, -⟩) hC hstep
  · cases r' with
    | ok t => exact .inl ⟨t, rfl, hs.step hC hstep⟩
    | error e =>
      refine .inr ⟨e, rfl, ?_⟩
      rintro rfl
      exact hs.step_ne hstep
  · cases hstep

theorem LeavesNoRaw.of_ne (h : s.owners ≠ s.released a) : s.LeavesNoRaw a := fun _ heq => absurd heq h

/-- `targets_live` for a client whose connection closes while a thread sends and keeps its copy. -/
theorem targets_live_kept_copy :
    runs.Always (· ≠ .error .destroyed) (.ok (init .client (.new 5 false none)))
      [.copy, .endEstablished, .beginCall (.sendString [1]), .poll POLLIN, .dispatch,
        .handle (.read []) (.wrote 0), .closeCallback, .endDispatch, .endCall (.sendInLoop [1]), .swap,
        .runFunctor (.wrote 0), .runFunctor (.wrote 0), .drop, .endBatch] := by
  refine targets_live .client 5 false none ?_
  refine .cons rfl (.of_ne (by decide)) (.cons rfl (.of_ne (by decide)) (.cons rfl
    (.of_ne (by decide)) (.cons rfl (.of_ne (by decide)) (.cons rfl (.of_ne (by decide))
    (.cons rfl (.of_ne (by decide)) (.cons rfl (.of_ne (by decide)) (.cons rfl
    (.of_ne (by decide)) (.cons rfl (.of_ne (by decide)) (.cons rfl (.of_ne (by decide))
    (.cons rfl (.of_ne (by decide)) (.cons rfl (.of_ne (by decide)) (.cons rfl
    (.of_ne (by decide)) (.cons rfl (fun _ _ => ⟨?_, ?_⟩) Machine.meets_nil)))))))))))))
  · intro f hf
    cases hf
  · intro f hf
    cases hf

/-- A thread sends, the connection closes, and the thread drops its copy before the functor runs. -/
theorem dropped_send_targets_destroyed :
    ¬ ∀ as, runs.Always (· ≠ .error .destroyed) (.ok (init .client (.new 5 false none))) as := by
  intro h
  have hlast := (h [.copy, .endEstablished, .beginCall (.sendString [1]), .poll POLLIN, .dispatch,
    .handle (.read []) (.wrote 0), .closeCallback, .endDispatch, .swap, .runFunctor (.wrote 0),
    .endCall (.sendInLoop [1]), .drop, .endBatch, .swap, .runFunctor (.wrote 0)]).last
    (t := .error .destroyed) rfl
  exact hlast rfl

end Siren.TcpConnection.Shared
