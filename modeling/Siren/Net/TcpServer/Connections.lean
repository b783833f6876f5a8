import Siren.Net.TcpServer.Basic

/-!
# The connection map of `TcpServer`

`Tracked` says where each accepted connection is: it has exactly one token, which is its entry in
`connections_`, its `connectDestroyed` in a queue, or the run of it. `Open` says what holds besides until
`~TcpServer`: a connection leaves the map only after its close, by one `removeConnectionInLoop`.

`connections_exact`: for up to `2^31 - 1` accepted connections the names are distinct, no entry is
overwritten, every removal erases one entry, and the map holds the connections accepted and not removed.
-/

namespace Siren.TcpServer

open TcpConnection (StateE)

/-! ### Where a connection is -/

def Functor.conn : Functor → Conn
  | .connectEstablished conn | .connectDestroyed conn | .removeConnectionInLoop conn => conn

/-- The loop a functor is queued in. -/
def Functor.target : Functor → LoopId
  | .connectEstablished conn | .connectDestroyed conn => conn.loop
  | .removeConnectionInLoop _ => .base

/-- The connection is in `connections_` under its own name. -/
def InMap (s : State) (c : Conn) : Prop := s.server.connections_.lookup c.name = some c

instance (s : State) (c : Conn) : Decidable (InMap s c) := by
  unfold InMap
  infer_instance

/-- Its entry in the map, its `connectDestroyed` to run, and the runs of it. -/
def tokens (s : State) (c : Conn) : Nat :=
  (if InMap s c then 1 else 0) + (s.queues c.loop).count (.connectDestroyed c) + s.destroyed.count c

/-- Closes of the connection on their way from `handleClose` to `removeConnectionInLoop`. -/
def leaving (s : State) (c : Conn) : Nat :=
  (if s.closing c.loop = some c then 1 else 0) + (s.queues .base).count (.removeConnectionInLoop c)

structure Tracked (s : State) : Prop where
  ids : s.accepted.map (·.id) = List.range s.accepted.length
  mapped : ∀ name c, s.server.connections_.lookup name = some c → c ∈ s.accepted ∧ c.name = name
  queued : ∀ l, ∀ f ∈ s.queues l, f.conn ∈ s.accepted ∧ f.target = l
  closing : ∀ l c, s.closing l = some c → c ∈ s.accepted ∧ c.loop = l
  ran : ∀ c ∈ s.destroyed, c ∈ s.accepted
  token : ∀ c ∈ s.accepted, tokens s c = 1

structure Open (s : State) : Prop where
  unclosed : ∀ c ∈ s.accepted, s.states c.id ≠ .kDisconnected → InMap s c ∧ leaving s c = 0
  leavingOnce : ∀ c ∈ s.accepted, leaving s c ≤ 1
  leavingMapped : ∀ c ∈ s.accepted, 0 < leaving s c → InMap s c
  removed : ∀ c, c ∈ s.removed ↔ c ∈ s.accepted ∧ ¬ InMap s c
  removedOnce : s.removed.Nodup
  kept : s.overwritten = []

variable {s t : State} {c : Conn}

theorem tracked_init (ipPort nameArg : Text) (loops : Nat) :
    Tracked (.init (fresh ipPort nameArg loops)) := by
  constructor <;> simp [State.init, fresh]

theorem open_init (ipPort nameArg : Text) (loops : Nat) : Open (.init (fresh ipPort nameArg loops)) := by
  constructor <;> simp [State.init]

theorem Tracked.id_lt (h : Tracked s) (hc : c ∈ s.accepted) : c.id < s.accepted.length := by
  rw [← List.mem_range, ← h.ids]
  exact List.mem_map_of_mem hc

theorem Tracked.inMap_accepted (h : Tracked s) (hc : InMap s c) : c ∈ s.accepted := (h.mapped _ _ hc).1

/-! ### What the operations do to a connection -/

@[simp] theorem count_queueInLoop (l l' : LoopId) (f g : Functor) :
    ((s.queueInLoop l f).queues l').count g =
      (s.queues l').count g + if l' = l ∧ f = g then 1 else 0 := by
  by_cases hl : l' = l
  · subst hl
    by_cases hf : f = g <;> simp [State.queueInLoop, hf]
  · simp [State.queueInLoop, hl]

theorem Tracked.queueInLoop_queued (h : Tracked s) {l : LoopId} {f : Functor} (hconn : f.conn ∈ s.accepted)
    (htarget : f.target = l) :
    ∀ l', ∀ g ∈ (s.queueInLoop l f).queues l', g.conn ∈ s.accepted ∧ g.target = l' := by
  intro l' g hg
  by_cases hl : l' = l
  · subst hl
    simp only [State.queueInLoop, Function.update_self, List.mem_append, List.mem_singleton] at hg
    rcases hg with hg | rfl
    · exact h.queued l' g hg
    · exact ⟨hconn, htarget⟩
  · simp only [State.queueInLoop, Function.update_of_ne hl] at hg
    exact h.queued l' g hg

/-- Taking one connection out of the map leaves the others where they are. -/
theorem inMap_erase (hc : InMap s c) (d : Conn) :
    (s.server.connections_.erase c.name).lookup d.name = some d ↔ InMap s d ∧ d ≠ c := by
  by_cases hname : d.name = c.name
  · rw [hname, AList.lookup_erase]
    have hd : InMap s d ↔ d = c := by
      rw [InMap, hname, hc, Option.some.injEq]
      exact eq_comm
    simp [hd]
  · rw [AList.lookup_erase_ne hname]
    have hne : d ≠ c := fun h => hname (congrArg Conn.name h)
    simp [InMap, hne]

/-- The queues after a loop took its next functor. -/
theorem count_pop {l : LoopId} {f : Functor} {rest : List Functor} (hq : s.queues l = f :: rest)
    (l' : LoopId) (g : Functor) :
    (s.queues l').count g =
      (Function.update s.queues l rest l').count g + if l' = l ∧ f = g then 1 else 0 := by
  by_cases hl : l' = l
  · subst hl
    by_cases hf : f = g <;> simp [hq, hf]
  · simp [hl]

theorem Tracked.pop_queued (h : Tracked s) {l : LoopId} {f : Functor} {rest : List Functor}
    (hq : s.queues l = f :: rest) :
    ∀ l', ∀ g ∈ Function.update s.queues l rest l', g.conn ∈ s.accepted ∧ g.target = l' := by
  intro l' g hg
  by_cases hl : l' = l
  · subst hl
    rw [Function.update_self] at hg
    exact h.queued l' g (hq ▸ List.mem_cons_of_mem _ hg)
  · rw [Function.update_of_ne hl] at hg
    exact h.queued l' g hg

theorem tokens_takeOut (hc : InMap s c) (d : Conn) :
    (if (s.server.connections_.erase c.name).lookup d.name = some d then 1 else 0) +
        (if d = c then 1 else 0) = if InMap s d then 1 else 0 := by
  simp only [inMap_erase hc]
  by_cases hd : d = c
  · simp [hd, hc]
  · simp [hd]

theorem Tracked.mapped_takeOut (h : Tracked s) {c d : Conn} {name : Text}
    (hd : (s.server.connections_.erase c.name).lookup name = some d) :
    d ∈ s.accepted ∧ d.name = name := by
  by_cases hname : name = c.name
  · subst hname
    simp at hd
  · exact h.mapped name d (by simpa [AList.lookup_erase_ne hname] using hd)

/-- A connection goes from the map into the queue of its loop. -/
theorem Tracked.sendOut (h : Tracked s) (hc : InMap s c) (removed : List Conn) :
    Tracked (State.queueInLoop
      { s with
        server := { s.server with connections_ := s.server.connections_.erase c.name }
        removed := removed }
      c.loop (.connectDestroyed c)) := by
  refine ⟨h.ids, fun _ _ hd => h.mapped_takeOut hd, ?_, h.closing, h.ran, fun d hd => ?_⟩
  · exact h.queueInLoop_queued (f := .connectDestroyed c) (h.inMap_accepted hc) rfl
  · have htoken := h.token d hd
    have htake := tokens_takeOut hc d
    have hif : (if d.loop = c.loop ∧ Functor.connectDestroyed c = .connectDestroyed d then 1 else 0)
        = if d = c then 1 else 0 := by
      by_cases hdc : d = c
      · simp [hdc]
      · simp [hdc, Ne.symm hdc]
    rw [tokens, count_queueInLoop, hif]
    show (if (s.server.connections_.erase c.name).lookup d.name = some d then 1 else 0) +
      ((s.queues d.loop).count (.connectDestroyed d) + if d = c then 1 else 0) + s.destroyed.count d = 1
    simp only [tokens] at htoken
    omega

/-- A connection goes from the map into its run of `connectDestroyed`. -/
theorem Tracked.runOut (h : Tracked s) (hc : InMap s c) (states : Nat → StateE) :
    Tracked { s with
      server := { s.server with connections_ := s.server.connections_.erase c.name }
      states := states, destroyed := s.destroyed ++ [c] } := by
  have hacc := h.inMap_accepted hc
  refine ⟨h.ids, fun _ _ hd => h.mapped_takeOut hd, h.queued, h.closing, fun d hd => ?_, fun d hd => ?_⟩
  · rcases List.mem_append.mp hd with hd | hd
    · exact h.ran d hd
    · rwa [List.mem_singleton.mp hd]
  · have htoken := h.token d hd
    have htake := tokens_takeOut hc d
    have hif : [c].count d = if d = c then 1 else 0 := by
      by_cases hdc : d = c
      · simp [hdc]
      · simp [hdc, Ne.symm hdc]
    show (if (s.server.connections_.erase c.name).lookup d.name = some d then 1 else 0) +
      (s.queues d.loop).count (.connectDestroyed d) + (s.destroyed ++ [c]).count d = 1
    rw [List.count_append, hif]
    simp only [tokens] at htoken
    omega

/-- A loop takes a functor that is no `connectDestroyed`. -/
theorem Tracked.pop (h : Tracked s) {l : LoopId} {f : Functor} {rest : List Functor}
    (hq : s.queues l = f :: rest) (hf : ∀ d, f ≠ .connectDestroyed d) :
    Tracked { s with queues := Function.update s.queues l rest } := by
  refine ⟨h.ids, h.mapped, h.pop_queued hq, h.closing, h.ran, fun d hd => ?_⟩
  have htoken := h.token d hd
  simp only [tokens, count_pop hq d.loop, hf d, and_false, if_false, Nat.add_zero] at htoken
  exact htoken

/-- A loop takes a `connectDestroyed` and runs it. -/
theorem Tracked.popDestroyed (h : Tracked s) {l : LoopId} {rest : List Functor}
    (hq : s.queues l = .connectDestroyed c :: rest) (states : Nat → StateE) :
    Tracked { s with
      queues := Function.update s.queues l rest, states := states, destroyed := s.destroyed ++ [c] } := by
  obtain ⟨hacc, hloop⟩ := h.queued l _ (hq ▸ List.mem_cons_self)
  refine ⟨h.ids, h.mapped, h.pop_queued hq, h.closing, fun d hd => ?_, fun d hd => ?_⟩
  · rcases List.mem_append.mp hd with hd | hd
    · exact h.ran d hd
    · rwa [List.mem_singleton.mp hd]
  · have htoken := h.token d hd
    have hif : (if d.loop = l ∧ Functor.connectDestroyed c = .connectDestroyed d then 1 else 0)
        = [c].count d := by
      by_cases hdc : d = c
      · simp [hdc, show c.loop = l from hloop]
      · simp [Ne.symm hdc]
    simp only [tokens, count_pop hq d.loop, hif] at htoken
    show (if InMap s d then 1 else 0) + (Function.update s.queues l rest d.loop).count (.connectDestroyed d) +
      (s.destroyed ++ [c]).count d = 1
    rw [List.count_append]
    omega

theorem Tracked.queue (h : Tracked s) {f : Functor} (hconn : f.conn ∈ s.accepted)
    (hf : ∀ d, f ≠ .connectDestroyed d) : Tracked (s.queueInLoop f.target f) := by
  refine ⟨h.ids, h.mapped, h.queueInLoop_queued hconn rfl, h.closing, h.ran, fun d hd => ?_⟩
  rw [tokens, count_queueInLoop]
  simp only [hf d, and_false, if_false, Nat.add_zero]
  exact h.token d hd

/-! ### A new connection -/

/-- `newConnection` finds no entry under the name it makes. -/
def NameFresh (s : State) : Prop := s.nextConn.name ∉ s.server.connections_

instance (s : State) : Decidable (NameFresh s) := by
  unfold NameFresh
  infer_instance

@[simp] theorem getNextLoop_connections_ (server : TcpServer) :
    server.getNextLoop.2.connections_ = server.connections_ := by
  unfold getNextLoop
  split <;> rfl

@[simp] theorem getNextLoop_nextConnId_ (server : TcpServer) :
    server.getNextLoop.2.nextConnId_ = server.nextConnId_ := by
  unfold getNextLoop
  split <;> rfl

@[simp] theorem getNextLoop_connName (server : TcpServer) :
    server.getNextLoop.2.connName = server.connName := by
  unfold getNextLoop
  split <;> rfl

theorem Tracked.nextConn_notMem (h : Tracked s) : s.nextConn ∉ s.accepted := by
  intro hmem
  exact lt_irrefl _ (h.id_lt hmem)

theorem inMap_enterConnection (hfresh : NameFresh s) (d : Conn) :
    InMap s.enterConnection d ↔ InMap s d ∨ d = s.nextConn := by
  have hmap : s.enterConnection.server.connections_ =
      s.server.connections_.insert s.nextConn.name s.nextConn := by
    simp [State.enterConnection]
  rw [InMap, hmap]
  by_cases hname : d.name = s.nextConn.name
  · have hd : ¬ InMap s d := by
      rw [InMap, hname, AList.lookup_eq_none.mpr hfresh]
      simp
    rw [hname, AList.lookup_insert, Option.some.injEq]
    simp only [hd, false_or]
    exact eq_comm
  · have hne : d ≠ s.nextConn := fun h => hname (congrArg Conn.name h)
    rw [AList.lookup_insert_ne hname]
    simp [InMap, hne]

theorem Tracked.enterConnection (h : Tracked s) (hfresh : NameFresh s) : Tracked s.enterConnection := by
  refine ⟨?_, fun name d hd => ?_, fun l f hf => ?_, fun l d hd => ?_, fun d hd => ?_, fun d hd => ?_⟩
  · show (s.accepted ++ [s.nextConn]).map (·.id) = List.range (s.accepted ++ [s.nextConn]).length
    rw [List.map_append, h.ids, List.length_append]
    exact List.range_succ.symm
  · have hmap : s.enterConnection.server.connections_ =
        s.server.connections_.insert s.nextConn.name s.nextConn := by
      simp [State.enterConnection]
    rw [hmap] at hd
    by_cases hname : name = s.nextConn.name
    · rw [hname, AList.lookup_insert, Option.some.injEq] at hd
      exact ⟨hd ▸ List.mem_append_right _ (List.mem_singleton_self _), by rw [← hd, hname]⟩
    · rw [AList.lookup_insert_ne hname] at hd
      obtain ⟨hacc, hdname⟩ := h.mapped name d hd
      exact ⟨List.mem_append_left _ hacc, hdname⟩
  · obtain ⟨hacc, htarget⟩ := h.queued l f hf
    exact ⟨List.mem_append_left _ hacc, htarget⟩
  · obtain ⟨hacc, hloop⟩ := h.closing l d hd
    exact ⟨List.mem_append_left _ hacc, hloop⟩
  · exact List.mem_append_left _ (h.ran d hd)
  · show (if InMap s.enterConnection d then 1 else 0) + (s.queues d.loop).count (.connectDestroyed d) +
      s.destroyed.count d = 1
    rcases List.mem_append.mp hd with hd | hd
    · have hne : d ≠ s.nextConn := fun heq => h.nextConn_notMem (heq ▸ hd)
      have htoken := h.token d hd
      simp only [tokens] at htoken
      simpa only [inMap_enterConnection hfresh, hne, or_false] using htoken
    · obtain rfl := List.mem_singleton.mp hd
      have hqueue : (s.queues s.nextConn.loop).count (.connectDestroyed s.nextConn) = 0 :=
        List.count_eq_zero.mpr fun hmem => h.nextConn_notMem (h.queued _ _ hmem).1
      have hran : s.destroyed.count s.nextConn = 0 :=
        List.count_eq_zero.mpr fun hmem => h.nextConn_notMem (h.ran _ hmem)
      simp [inMap_enterConnection hfresh, hqueue, hran]

/-! ### Until the destructor begins -/

theorem Tracked.leaving_nextConn (h : Tracked s) : leaving s s.nextConn = 0 := by
  have hclosing : s.closing s.nextConn.loop ≠ some s.nextConn :=
    fun heq => h.nextConn_notMem (h.closing _ _ heq).1
  have hqueue : (s.queues .base).count (.removeConnectionInLoop s.nextConn) = 0 :=
    List.count_eq_zero.mpr fun hmem => h.nextConn_notMem (h.queued _ _ hmem).1
  simp [leaving, hclosing, hqueue]

theorem Open.enterConnection (h : Tracked s) (ho : Open s) (hfresh : NameFresh s) :
    Open s.enterConnection := by
  have hold : ∀ d ∈ s.accepted, d ≠ s.nextConn := fun d hd heq => h.nextConn_notMem (heq ▸ hd)
  have hcases : ∀ d ∈ s.enterConnection.accepted, d ∈ s.accepted ∨ d = s.nextConn := by
    intro d hd
    exact (List.mem_append.mp hd).imp_right List.mem_singleton.mp
  refine ⟨fun d hd hstate => ?_, fun d hd => ?_, fun d hd hpos => ?_, fun d => ?_, ho.removedOnce, ?_⟩
  · rw [inMap_enterConnection hfresh]
    rcases hcases d hd with hd | rfl
    · have hid : d.id ≠ s.nextConn.id := (h.id_lt hd).ne
      have hstate' : s.states d.id ≠ .kDisconnected := by
        simpa [State.enterConnection, Function.update_of_ne hid] using hstate
      obtain ⟨hmap, hleaving⟩ := ho.unclosed d hd hstate'
      exact ⟨.inl hmap, hleaving⟩
    · exact ⟨.inr rfl, h.leaving_nextConn⟩
  · rcases hcases d hd with hd | rfl
    · exact ho.leavingOnce d hd
    · exact h.leaving_nextConn.le.trans (Nat.zero_le 1)
  · rw [inMap_enterConnection hfresh]
    rcases hcases d hd with hd | rfl
    · exact .inl (ho.leavingMapped d hd hpos)
    · exact .inr rfl
  · show d ∈ s.removed ↔ d ∈ s.accepted ++ [s.nextConn] ∧ _
    rw [inMap_enterConnection hfresh, ho.removed, List.mem_append, List.mem_singleton, not_or]
    constructor
    · rintro ⟨hd, hmap⟩
      exact ⟨.inl hd, hmap, hold d hd⟩
    · rintro ⟨hd, hmap, hne⟩
      exact ⟨hd.resolve_right hne, hmap⟩
  · show s.overwritten ++ (s.server.getNextLoop.2.connections_.lookup s.nextConn.name).toList = []
    rw [getNextLoop_connections_, AList.lookup_eq_none.mpr hfresh, ho.kept]
    rfl

/-- A connection that is not closed changes its state. -/
theorem Open.setState (ho : Open s) (hc : s.states c.id ≠ .kDisconnected) (state : StateE) :
    Open (s.setState c state) := by
  refine ⟨fun d hd hstate => ho.unclosed d hd ?_, ho.leavingOnce, ho.leavingMapped, ho.removed,
    ho.removedOnce, ho.kept⟩
  by_cases hid : d.id = c.id
  · rwa [hid]
  · simpa [State.setState, Function.update_of_ne hid] using hstate

/-- Functors and closes move on, and none of them leaves the way of a close. -/
theorem Open.move (ho : Open s) {closing : LoopId → Option Conn} {queues : LoopId → List Functor}
    {destroyed : List Conn}
    (hleaving : ∀ d, leaving { s with closing := closing, queues := queues, destroyed := destroyed } d =
      leaving s d) :
    Open { s with closing := closing, queues := queues, destroyed := destroyed } := by
  refine ⟨fun d hd hstate => ?_, fun d hd => ?_, fun d hd hpos => ?_, ho.removed, ho.removedOnce, ho.kept⟩
  · rw [hleaving]
    exact ho.unclosed d hd hstate
  · rw [hleaving]
    exact ho.leavingOnce d hd
  · exact ho.leavingMapped d hd (hleaving d ▸ hpos)

theorem Open.queueInLoop (ho : Open s) {l : LoopId} {f : Functor}
    (hf : ∀ d, f ≠ .removeConnectionInLoop d) : Open (s.queueInLoop l f) := by
  refine ho.move fun d => ?_
  have hcount := count_queueInLoop (s := s) l .base f (.removeConnectionInLoop d)
  simp only [hf d, and_false, if_false, Nat.add_zero] at hcount
  exact congrArg _ hcount

theorem Open.pop (ho : Open s) {l : LoopId} {f : Functor} {rest : List Functor} {destroyed : List Conn}
    (hq : s.queues l = f :: rest) (hf : ∀ d, f ≠ .removeConnectionInLoop d) :
    Open { s with queues := Function.update s.queues l rest, destroyed := destroyed } := by
  refine ho.move fun d => ?_
  simp only [leaving, count_pop hq .base (.removeConnectionInLoop d), hf d, and_false, if_false,
    Nat.add_zero]

theorem Open.handleClose (ho : Open s) (hc : c ∈ s.accepted)
    (hstate : s.states c.id ≠ .kDisconnected) (hfree : s.closing c.loop = none) :
    Open (s.handleClose c) := by
  obtain ⟨hmap, hnone⟩ := ho.unclosed c hc hstate
  have hleaving : ∀ d, leaving (s.handleClose c) d = leaving s d + if d = c then 1 else 0 := by
    intro d
    by_cases hd : d = c
    · subst hd
      simp [leaving, State.handleClose, State.setState, hfree, Nat.add_comm]
    · have hclosing : (s.handleClose c).closing d.loop = some d ↔ s.closing d.loop = some d := by
        by_cases hloop : d.loop = c.loop
        · simp [State.handleClose, hloop, hfree, Ne.symm hd]
        · simp [State.handleClose, State.setState, Function.update_of_ne hloop]
      simp only [leaving, hclosing, hd, if_false, Nat.add_zero]
      rfl
  refine ⟨fun d hd hdstate => ?_, fun d hd => ?_, fun d hd hpos => ?_, ho.removed, ho.removedOnce, ho.kept⟩
  · have hid : d.id ≠ c.id := by
      intro hid
      simp [State.handleClose, State.setState, hid] at hdstate
    have hne : d ≠ c := fun heq => hid (congrArg Conn.id heq)
    rw [hleaving, if_neg hne]
    refine ho.unclosed d hd ?_
    simpa [State.handleClose, State.setState, Function.update_of_ne hid] using hdstate
  · rw [hleaving]
    split
    · rename_i heq
      rw [heq, hnone]
    · exact ho.leavingOnce d hd
  · by_cases heq : d = c
    · exact heq ▸ hmap
    · rw [hleaving, if_neg heq] at hpos
      exact ho.leavingMapped d hd hpos

/-- `removeConnectionInLoop` ends the one close of a connection. -/
theorem Open.remove (h : Tracked s) (ho : Open s) (hc : InMap s c) {closing : LoopId → Option Conn}
    {queues : LoopId → List Functor}
    (hleft : ∀ d, leaving { s with closing := closing, queues := queues } d + (if d = c then 1 else 0) =
      leaving s d) :
    Open (State.queueInLoop
      { s with
        closing := closing, queues := queues
        server := { s.server with connections_ := s.server.connections_.erase c.name }
        removed := s.removed ++ [c] }
      c.loop (.connectDestroyed c)) := by
  have hacc := h.inMap_accepted hc
  suffices hopen : Open { s with
      closing := closing, queues := queues
      server := { s.server with connections_ := s.server.connections_.erase c.name }
      removed := s.removed ++ [c] } from hopen.queueInLoop (by simp)
  refine ⟨fun d hd hstate => ?_, fun d hd => ?_, fun d hd hpos => ?_, fun d => ?_, ?_, ho.kept⟩
  · obtain ⟨hmap, hnone⟩ := ho.unclosed d hd hstate
    have hle := hleft d
    rw [hnone] at hle
    have hne : d ≠ c := by
      intro heq
      simp [heq] at hle
    exact ⟨(inMap_erase hc d).mpr ⟨hmap, hne⟩, (Nat.add_eq_zero_iff.mp hle).1⟩
  · exact (Nat.le_add_right _ _).trans ((hleft d).le.trans (ho.leavingOnce d hd))
  · have hpos' : 0 < leaving s d := (Nat.lt_of_lt_of_le hpos (Nat.le_add_right _ _)).trans_eq (hleft d)
    have honce := ho.leavingOnce d hd
    have hne : d ≠ c := by
      intro heq
      have hle := hleft d
      have hpos' : 0 < leaving { s with closing := closing, queues := queues } d := hpos
      rw [if_pos heq] at hle
      omega
    exact (inMap_erase hc d).mpr ⟨ho.leavingMapped d hd hpos', hne⟩
  · show d ∈ s.removed ++ [c] ↔ d ∈ s.accepted ∧ ¬ (s.server.connections_.erase c.name).lookup d.name = some d
    rw [inMap_erase hc, List.mem_append, List.mem_singleton, ho.removed]
    by_cases heq : d = c
    · simp [heq, hacc]
    · simp [heq]
  · refine List.nodup_append.mpr ⟨ho.removedOnce, List.nodup_singleton c, ?_⟩
    rintro d hd e he rfl
    rw [List.mem_singleton.mp he] at hd
    exact ((ho.removed c).mp hd).2 hc

/-! ### One step of a living server -/

/-- Nothing is lost, unless an assertion of a connection stopped the program. -/
def Steady : Except Failure State → Prop
  | .ok t => Tracked t ∧ Open t ∧ t.lifetime = .alive
  | .error e => e = .notConnecting

theorem Steady.connectEstablished (h : Tracked s) (ho : Open s) (halive : s.lifetime = .alive) :
    Steady (s.connectEstablished c) := by
  by_cases hstate : s.states c.id = .kConnecting
  · rw [State.connectEstablished, cassert_of hstate, ok_bind]
    exact ⟨⟨h.ids, h.mapped, h.queued, h.closing, h.ran, h.token⟩, ho.setState (by simp [hstate]) _, halive⟩
  · rw [State.connectEstablished, cassert_of_not hstate]
    rfl

/-- The removal of a connection in the map, once the closing or the functor that brought it is taken off. -/
theorem Steady.remove (h : Tracked s) (ho : Open s) (halive : s.lifetime = .alive) (hc : InMap s c)
    {closing : LoopId → Option Conn} {queues : LoopId → List Functor}
    (htracked : Tracked { s with closing := closing, queues := queues })
    (hleft : ∀ d, leaving { s with closing := closing, queues := queues } d + (if d = c then 1 else 0) =
      leaving s d) :
    Steady (State.removeConnectionInLoop { s with closing := closing, queues := queues } c) := by
  have hmem : c.name ∈ s.server.connections_ := by
    rw [← AList.lookup_isSome, show s.server.connections_.lookup c.name = some c from hc]
    rfl
  have hlife : s.lifetime ≠ .destroyed := by simp [halive]
  simp only [State.removeConnectionInLoop, cassert_of hlife, ok_bind, hmem, if_true, cassert_of]
  exact ⟨htracked.sendOut hc _, ho.remove h hc hleft, halive⟩

/-- The close of a connection comes to `closeCallback_`. -/
theorem leaving_closeCallback {l : LoopId} (hc : s.closing l = some c) (hloop : c.loop = l) (d : Conn) :
    leaving { s with closing := Function.update s.closing l none } d + (if d = c then 1 else 0) =
      leaving s d := by
  by_cases hd : d = c
  · subst hd
    simp [leaving, hloop, hc, Nat.add_comm]
  · by_cases hdl : d.loop = l
    · simp [leaving, hdl, hc, hd, Ne.symm hd]
    · simp [leaving, hdl, hd]

theorem leaving_queueInLoop (s : State) (c d : Conn) :
    leaving (s.queueInLoop .base (.removeConnectionInLoop c)) d =
      leaving s d + if d = c then 1 else 0 := by
  have hif : (if LoopId.base = LoopId.base ∧ Functor.removeConnectionInLoop c = .removeConnectionInLoop d
      then 1 else 0) = if d = c then 1 else 0 := by
    by_cases hd : d = c
    · simp [hd]
    · simp [hd, Ne.symm hd]
  rw [leaving, count_queueInLoop, hif, leaving, Nat.add_assoc]
  rfl

theorem leaving_pop {rest : List Functor} (hq : s.queues .base = .removeConnectionInLoop c :: rest)
    (d : Conn) :
    leaving { s with queues := Function.update s.queues .base rest } d + (if d = c then 1 else 0) =
      leaving s d := by
  have hif : (if LoopId.base = LoopId.base ∧ Functor.removeConnectionInLoop c = .removeConnectionInLoop d
      then 1 else 0) = if d = c then 1 else 0 := by
    by_cases hd : d = c
    · simp [hd]
    · simp [hd, Ne.symm hd]
  rw [leaving, leaving, count_pop hq .base (.removeConnectionInLoop d), hif, Nat.add_assoc]

theorem Tracked.handleClose (h : Tracked s) (hc : c ∈ s.accepted) : Tracked (s.handleClose c) := by
  refine ⟨h.ids, h.mapped, h.queued, fun l d hd => ?_, h.ran, h.token⟩
  by_cases hl : l = c.loop
  · subst hl
    simp only [State.handleClose, Function.update_self, Option.some.injEq] at hd
    exact hd ▸ ⟨hc, rfl⟩
  · exact h.closing l d (by simpa [State.handleClose, State.setState, Function.update_of_ne hl] using hd)

theorem Tracked.closed (h : Tracked s) (l : LoopId) :
    Tracked { s with closing := Function.update s.closing l none } := by
  refine ⟨h.ids, h.mapped, h.queued, fun l' d hd => ?_, h.ran, h.token⟩
  by_cases hl : l' = l
  · simp [hl] at hd
  · exact h.closing l' d (by simpa [Function.update_of_ne hl] using hd)

theorem Steady.closeCallback (h : Tracked s) (ho : Open s) (halive : s.lifetime = .alive) {l : LoopId}
    (hl : s.closing l ≠ none) : Steady (s.closeCallback l) := by
  obtain ⟨c, hc⟩ := Option.ne_none_iff_exists'.mp hl
  obtain ⟨hacc, hloop⟩ := h.closing l c hc
  have hleft := leaving_closeCallback hc hloop
  have hpos : 0 < leaving s c := by
    have hle := hleft c
    rw [if_pos rfl] at hle
    omega
  have hlife : s.lifetime ≠ .destroyed := by simp [halive]
  simp only [State.closeCallback, hc, State.removeConnection, cassert_of hlife, ok_bind]
  by_cases hbase : l = .base
  · rw [if_pos hbase]
    exact Steady.remove h ho halive (ho.leavingMapped c hacc hpos) (h.closed l) hleft
  · rw [if_neg hbase]
    refine ⟨(h.closed l).queue (f := .removeConnectionInLoop c) hacc (by simp), ?_, halive⟩
    exact ho.move fun d => (leaving_queueInLoop _ c d).trans (hleft d)

theorem Steady.runNext (h : Tracked s) (ho : Open s) (halive : s.lifetime = .alive) {l : LoopId}
    (hl : s.queues l ≠ []) : Steady (s.runNext l) := by
  obtain ⟨f, rest, hq⟩ := List.exists_cons_of_ne_nil hl
  obtain ⟨hacc, htarget⟩ := h.queued l f (hq ▸ List.mem_cons_self)
  simp only [State.runNext, hq]
  cases f with
  | connectEstablished c =>
    exact Steady.connectEstablished (h.pop hq (by simp)) (ho.pop hq (by simp)) halive
  | connectDestroyed c =>
    have htoken := h.token c hacc
    have hcount : 0 < (s.queues c.loop).count (.connectDestroyed c) := by
      rw [show c.loop = l from htarget, List.count_pos_iff, hq]
      exact List.mem_cons_self
    -- its token is in the queue, so it left the map, and it does that closed only
    have hstate : s.states c.id = .kDisconnected := by
      by_contra hstate
      have hmap := (ho.unclosed c hacc hstate).1
      simp only [tokens, hmap, if_true] at htoken
      omega
    have hrun : State.connectDestroyed { s with queues := Function.update s.queues l rest } c =
        .ok { s with queues := Function.update s.queues l rest, destroyed := s.destroyed ++ [c] } := by
      simp [State.connectDestroyed, hstate, cassert_of, pure, Except.pure]
    show Steady (State.connectDestroyed { s with queues := Function.update s.queues l rest } c)
    rw [hrun]
    exact ⟨h.popDestroyed hq s.states, ho.pop hq (by simp), halive⟩
  | removeConnectionInLoop c =>
    obtain rfl : LoopId.base = l := htarget
    have hleft := leaving_pop hq
    have hpos : 0 < leaving s c := by
      have hle := hleft c
      rw [if_pos rfl] at hle
      omega
    exact Steady.remove h ho halive (ho.leavingMapped c hacc hpos) (h.pop hq (by simp)) hleft

theorem Steady.newConnection (h : Tracked s) (ho : Open s) (halive : s.lifetime = .alive)
    (hfresh : NameFresh s) : Steady s.newConnection := by
  have h' := h.enterConnection hfresh
  have ho' := ho.enterConnection h hfresh
  have hacc : s.nextConn ∈ s.enterConnection.accepted :=
    List.mem_append_right _ (List.mem_singleton_self _)
  unfold State.newConnection State.runInLoop
  split
  · exact Steady.connectEstablished h' ho' halive
  · exact ⟨h'.queue (f := .connectEstablished s.nextConn) hacc (by simp), ho'.queueInLoop (by simp), halive⟩

/-- A step of a living server keeps every connection where it can be found. -/
theorem steady_of_step {a : Label} {r : Except Failure State} (h : Tracked s) (ho : Open s)
    (halive : s.lifetime = .alive) (hfresh : a = .newConnection → NameFresh s) (ha : a ≠ .beginDestroy)
    (hstep : step s a = some r) : Steady r := by
  obtain ⟨hen, rfl⟩ := step_eq_some.mp hstep
  cases a with
  | newConnection => exact Steady.newConnection h ho halive (hfresh rfl)
  | disconnect c =>
    exact ⟨⟨h.ids, h.mapped, h.queued, h.closing, h.ran, h.token⟩, ho.setState (by simp [hen.2]) _, halive⟩
  | handleClose c =>
    obtain ⟨hacc, hstate, hfree⟩ := hen
    refine ⟨h.handleClose hacc, ho.handleClose hacc ?_ hfree.1, halive⟩
    rcases hstate with hstate | hstate <;> simp [hstate]
  | closeCallback l => exact Steady.closeCallback h ho halive hen.1
  | runNext l => exact Steady.runNext h ho halive hen.1
  | beginDestroy => exact absurd rfl ha
  | destroyNext name => simp [Enabled, halive] at hen
  | endDestroy => simp [Enabled, halive] at hen

/-! ### One step from the destructor on -/

/-- Every connection has its one token, and before the destructor the map is as it should be. -/
def Safe : Except Failure State → Prop
  | .ok t => Tracked t ∧ (t.lifetime = .alive → Open t)
  | .error e => e ≠ .notErased

theorem connectEstablished_cases (s : State) (c : Conn) :
    s.connectEstablished c = .error .notConnecting ∨
      ∃ states, s.connectEstablished c = .ok { s with states := states } := by
  by_cases hstate : s.states c.id = .kConnecting
  · exact .inr ⟨_, by rw [State.connectEstablished, cassert_of hstate, ok_bind]; rfl⟩
  · exact .inl (by rw [State.connectEstablished, cassert_of_not hstate]; rfl)

theorem connectDestroyed_cases (s : State) (c : Conn) :
    s.connectDestroyed c = .error .channelInUse ∨
      ∃ states, s.connectDestroyed c = .ok { s with states := states, destroyed := s.destroyed ++ [c] } := by
  unfold State.connectDestroyed
  dsimp only
  split
  · simp only [State.setState, Function.update_self, cassert_of, ok_bind]
    exact .inr ⟨_, rfl⟩
  · by_cases hstate : s.states c.id = .kDisconnected
    · rw [cassert_of hstate, ok_bind]
      exact .inr ⟨s.states, rfl⟩
    · rw [cassert_of_not hstate]
      exact .inl rfl

theorem Safe.connectDestroyed (hrun : ∀ states, Tracked { s with
      states := states, destroyed := s.destroyed ++ [c] }) (hdying : s.lifetime ≠ .alive) :
    Safe (s.connectDestroyed c) := by
  obtain herror | ⟨states, hok⟩ := connectDestroyed_cases s c
  · rw [herror]
    simp [Safe]
  · rw [hok]
    exact ⟨hrun states, fun halive => absurd halive hdying⟩

theorem Safe.runNext (h : Tracked s) (hdying : s.lifetime ≠ .alive) {l : LoopId}
    (hl : s.queues l ≠ []) (hbase : l = .base → s.lifetime ≠ .destroying) : Safe (s.runNext l) := by
  obtain ⟨f, rest, hq⟩ := List.exists_cons_of_ne_nil hl
  obtain ⟨hacc, htarget⟩ := h.queued l f (hq ▸ List.mem_cons_self)
  simp only [State.runNext, hq]
  cases f with
  | connectEstablished c =>
    have hpop := h.pop hq (by simp)
    show Safe (State.connectEstablished _ c)
    obtain herror | ⟨states, hok⟩ :=
      connectEstablished_cases { s with queues := Function.update s.queues l rest } c
    · rw [herror]
      simp [Safe]
    · rw [hok]
      exact ⟨⟨hpop.ids, hpop.mapped, hpop.queued, hpop.closing, hpop.ran, hpop.token⟩,
        fun halive => absurd halive hdying⟩
  | connectDestroyed c => exact Safe.connectDestroyed (fun states => h.popDestroyed hq states) hdying
  | removeConnectionInLoop c =>
    obtain rfl : LoopId.base = l := htarget
    have hgone : s.lifetime = .destroyed := by
      have hne := hbase rfl
      cases hlife : s.lifetime <;> simp_all
    have hgone' : ¬ s.lifetime ≠ .destroyed := not_not.mpr hgone
    simp only [State.runFunctor, State.removeConnectionInLoop, cassert_of_not hgone']
    simp [Safe]

theorem Safe.closeCallback (h : Tracked s) (hdying : s.lifetime ≠ .alive) {l : LoopId}
    (hl : s.closing l ≠ none) (hbase : l = .base → s.lifetime ≠ .destroying) :
    Safe (s.closeCallback l) := by
  obtain ⟨c, hc⟩ := Option.ne_none_iff_exists'.mp hl
  simp only [State.closeCallback, hc, State.removeConnection]
  by_cases hlife : s.lifetime ≠ .destroyed
  · rw [cassert_of hlife, ok_bind, if_neg]
    · exact ⟨(h.closed l).queue (f := .removeConnectionInLoop c) (h.closing l c hc).1 (by simp),
        fun halive => absurd halive hdying⟩
    · intro hl
      have hne := hbase hl
      cases hlife' : s.lifetime <;> simp_all
  · rw [cassert_of_not hlife]
    simp [Safe]

theorem Safe.destroyNext (h : Tracked s) (hdying : s.lifetime ≠ .alive) {name : Text}
    (hname : name ∈ s.server.connections_) : Safe (s.destroyNext name) := by
  obtain ⟨c, hc⟩ := Option.isSome_iff_exists.mp (AList.lookup_isSome.mpr hname)
  obtain ⟨-, rfl⟩ := h.mapped name c hc
  simp only [State.destroyNext, hc, State.runInLoop]
  split
  · exact Safe.connectDestroyed (fun states => h.runOut hc states) hdying
  · exact ⟨h.sendOut hc s.removed, fun halive => absurd halive hdying⟩

/-- A step after the destructor began fails no assertion of the server. -/
theorem safe_of_step {a : Label} {r : Except Failure State} (h : Tracked s) (ho : s.lifetime = .alive → Open s)
    (hfresh : a = .newConnection → NameFresh s) (hstep : step s a = some r) : Safe r := by
  by_cases hsteady : s.lifetime = .alive ∧ a ≠ .beginDestroy
  · have hr := steady_of_step h (ho hsteady.1) hsteady.1 hfresh hsteady.2 hstep
    cases r with
    | ok t => exact ⟨hr.1, fun _ => hr.2.1⟩
    | error e =>
      rw [show e = .notConnecting from hr]
      simp [Safe]
  · obtain ⟨hen, rfl⟩ := step_eq_some.mp hstep
    have hsame : ∀ {states : Nat → StateE} {life : Lifetime}, life ≠ .alive →
        Safe (.ok { s with states := states, lifetime := life }) := fun hlife =>
      ⟨⟨h.ids, h.mapped, h.queued, h.closing, h.ran, h.token⟩, fun halive => absurd halive hlife⟩
    cases a with
    | beginDestroy => exact hsame (by simp)
    | newConnection => exact absurd ⟨hen.1, by simp⟩ hsteady
    | endDestroy => exact hsame (by simp)
    | disconnect c => exact hsame fun halive => hsteady ⟨halive, by simp⟩
    | handleClose c =>
      exact ⟨h.handleClose hen.1, fun halive => absurd ⟨halive, by simp⟩ hsteady⟩
    | closeCallback l =>
      exact Safe.closeCallback h (fun halive => hsteady ⟨halive, by simp⟩) hen.1 hen.2
    | runNext l =>
      exact Safe.runNext h (fun halive => hsteady ⟨halive, by simp⟩) hen.1 hen.2.2
    | destroyNext name =>
      exact Safe.destroyNext h (fun halive => hsteady ⟨halive, by simp⟩) hen.2

/-! ### Names -/

/-- The name of a connection with the number `n`. -/
def nameOf (name ipPort : Text) (n : Nat) : Text :=
  name ++ snprintf 64 ('-' :: ipPort ++ '#' :: formatInt n)

/-- No name of an `int` number is cut short, and different numbers make different names. -/
theorem nameOf_injOn {name ipPort : Text} (hlen : ipPort.length ≤ 47) {m n : Nat} (hm : m ≤ intMax)
    (hn : n ≤ intMax) (h : nameOf name ipPort m = nameOf name ipPort n) : m = n := by
  have hfit : ∀ k : Nat, k ≤ intMax → ('-' :: ipPort ++ '#' :: formatInt k).length < 64 := by
    intro k hk
    have hdigits : (formatInt k).length ≤ 10 := by
      apply length_formatUnsigned_le (by decide)
      unfold intMax at hk
      omega
    simp only [List.length_append, List.length_cons]
    omega
  unfold nameOf at h
  rw [List.append_cancel_left_eq, snprintf_of_lt (hfit m hm), snprintf_of_lt (hfit n hn),
    List.append_cancel_left_eq, List.cons.injEq] at h
  exact formatUnsigned_injective h.2

/-- The counter and the names it made so far, as long as the counter has not come to its end. -/
structure Numbered (name ipPort : Text) (s : State) : Prop where
  name_ : s.server.name_ = name
  ipPort_ : s.server.ipPort_ = ipPort
  counter : s.accepted.length < intMax → s.server.nextConnId_ = (s.accepted.length + 1 : Nat)
  names : s.accepted.length ≤ intMax →
    s.accepted.map (·.name) = (List.range s.accepted.length).map fun i => nameOf name ipPort (i + 1)

variable {name ipPort : Text}

theorem Numbered.connName (h : Numbered name ipPort s) (hlt : s.accepted.length < intMax) :
    s.nextConn.name = nameOf name ipPort (s.accepted.length + 1) := by
  rw [show s.nextConn.name = s.server.getNextLoop.2.connName from rfl, getNextLoop_connName]
  simp only [TcpServer.connName, connBuf, h.name_, h.ipPort_, h.counter hlt, nameOf]

theorem Numbered.nameFresh (h : Numbered name ipPort s) (htracked : Tracked s) (hlen : ipPort.length ≤ 47)
    (hlt : s.accepted.length < intMax) : NameFresh s := by
  intro hmem
  obtain ⟨c, hc⟩ := Option.isSome_iff_exists.mp (AList.lookup_isSome.mpr hmem)
  obtain ⟨hacc, hname⟩ := htracked.mapped _ c hc
  have hmap : c.name ∈ s.accepted.map (·.name) := List.mem_map_of_mem hacc
  rw [h.names hlt.le, List.mem_map] at hmap
  obtain ⟨i, hi, hci⟩ := hmap
  have hi' : i < s.accepted.length := List.mem_range.mp hi
  rw [hname, h.connName hlt] at hci
  have heq := nameOf_injOn hlen (m := i + 1) (by omega) (by omega) hci
  omega

theorem Numbered.distinct (h : Numbered name ipPort s) (hlen : ipPort.length ≤ 47)
    (hle : s.accepted.length ≤ intMax) : (s.accepted.map (·.name)).Nodup := by
  rw [h.names hle]
  refine List.Nodup.map_on ?_ List.nodup_range
  intro i hi j hj heq
  rw [List.mem_range] at hi hj
  have hij := nameOf_injOn hlen (m := i + 1) (n := j + 1) (by omega) (by omega) heq
  omega

theorem Numbered.enterConnection (h : Numbered name ipPort s) : Numbered name ipPort s.enterConnection := by
  have hlen : s.enterConnection.accepted.length = s.accepted.length + 1 := List.length_append
  have hname : s.server.getNextLoop.2.name_ = s.server.name_ := by
    unfold getNextLoop
    split <;> rfl
  have hipPort : s.server.getNextLoop.2.ipPort_ = s.server.ipPort_ := by
    unfold getNextLoop
    split <;> rfl
  refine ⟨hname.trans h.name_, hipPort.trans h.ipPort_, fun hlt => ?_, fun hle => ?_⟩
  · rw [hlen] at hlt ⊢
    show toInt (s.server.getNextLoop.2.nextConnId_ + 1) = _
    have hcast : ((s.accepted.length + 1 : Nat) : Int) + 1 = (s.accepted.length + 1 + 1 : Nat) := by omega
    rw [getNextLoop_nextConnId_, h.counter (by omega), hcast]
    exact toInt_of_le (by omega)
  · rw [hlen] at hle ⊢
    show (s.accepted ++ [s.nextConn]).map (·.name) = _
    rw [List.map_append, h.names (by omega), List.range_succ, List.map_append, List.map_singleton,
      h.connName (by omega)]
    rfl

/-- Whatever a step but `newConnection` does, it leaves names and counter alone. -/
def SameNumbers (s t : State) : Prop :=
  t.accepted = s.accepted ∧ t.server.name_ = s.server.name_ ∧ t.server.ipPort_ = s.server.ipPort_ ∧
    t.server.nextConnId_ = s.server.nextConnId_

theorem SameNumbers.numbered (hsame : SameNumbers s t) (h : Numbered name ipPort s) :
    Numbered name ipPort t := by
  obtain ⟨hacc, hname, hipPort, hcounter⟩ := hsame
  refine ⟨hname.trans h.name_, hipPort.trans h.ipPort_, ?_, ?_⟩
  · rw [hacc, hcounter]
    exact h.counter
  · rw [hacc]
    exact h.names

/-- Nothing was accepted from `s` to `t`, and of the server only the map may differ. -/
def SameServer (s t : State) : Prop :=
  t.accepted = s.accepted ∧ t.server = { s.server with connections_ := t.server.connections_ }

theorem SameServer.numbers (h : SameServer s t) : SameNumbers s t := by
  obtain ⟨hacc, hserver⟩ := h
  refine ⟨hacc, ?_, ?_, ?_⟩ <;> rw [hserver]

theorem sameServer_runFunctor {f : Functor} (h : s.runFunctor f = .ok t) : SameServer s t := by
  cases f with
  | connectEstablished c =>
    obtain ⟨-, h⟩ := of_cassert_bind h
    obtain rfl := Except.ok.inj h
    exact ⟨rfl, rfl⟩
  | connectDestroyed c =>
    obtain ⟨-, h⟩ := of_cassert_bind h
    obtain rfl := Except.ok.inj h
    split <;> exact ⟨rfl, rfl⟩
  | removeConnectionInLoop c =>
    obtain ⟨-, h⟩ := of_cassert_bind h
    obtain ⟨-, h⟩ := of_cassert_bind h
    obtain rfl := Except.ok.inj h
    exact ⟨rfl, rfl⟩

theorem sameServer_of_step {a : Label} (ha : a ≠ .newConnection) (hstep : step s a = some (.ok t)) :
    SameServer s t := by
  obtain ⟨-, heff⟩ := step_eq_some.mp hstep
  cases a with
  | newConnection => exact absurd rfl ha
  | closeCallback l =>
    simp only [effect, State.closeCallback] at heff
    split at heff
    · obtain rfl := Except.ok.inj heff
      exact ⟨rfl, rfl⟩
    · rename_i c hc
      obtain ⟨-, heff⟩ := of_cassert_bind heff
      split at heff
      · have hsame := sameServer_runFunctor (f := .removeConnectionInLoop c) heff
        exact hsame
      · obtain rfl := Except.ok.inj heff
        exact ⟨rfl, rfl⟩
  | runNext l =>
    simp only [effect, State.runNext] at heff
    split at heff
    · obtain rfl := Except.ok.inj heff
      exact ⟨rfl, rfl⟩
    · have hsame := sameServer_runFunctor heff
      exact hsame
  | destroyNext name =>
    simp only [effect, State.destroyNext] at heff
    split at heff
    · obtain rfl := Except.ok.inj heff
      exact ⟨rfl, rfl⟩
    · simp only [State.runInLoop] at heff
      split at heff
      · have hsame := sameServer_runFunctor heff
        exact hsame
      · obtain rfl := Except.ok.inj heff
        exact ⟨rfl, rfl⟩
  | _ =>
    obtain rfl := Except.ok.inj heff
    exact ⟨rfl, rfl⟩

theorem sameNumbers_of_step {a : Label} (ha : a ≠ .newConnection) (hstep : step s a = some (.ok t)) :
    SameNumbers s t :=
  (sameServer_of_step ha hstep).numbers

theorem numbered_newConnection (h : Numbered name ipPort s) (hnew : s.newConnection = .ok t) :
    Numbered name ipPort t ∧ t.accepted.length = s.accepted.length + 1 := by
  have hlen : s.enterConnection.accepted.length = s.accepted.length + 1 := List.length_append
  have hsame : SameNumbers s.enterConnection t := by
    simp only [State.newConnection, State.runInLoop] at hnew
    split at hnew
    · exact (sameServer_runFunctor hnew).numbers
    · obtain rfl := Except.ok.inj hnew
      exact ⟨rfl, rfl, rfl, rfl⟩
  exact ⟨hsame.numbered h.enterConnection, by rw [hsame.1, hlen]⟩

/-! ### Every run -/

/-- The map holds the connections accepted and not removed, each under its own name and no other. -/
structure Exact (s : State) : Prop where
  distinct : (s.accepted.map (·.name)).Nodup
  kept : s.overwritten = []
  entries : ∀ name c, s.server.connections_.lookup name = some c ↔
    c ∈ s.accepted ∧ c ∉ s.removed ∧ c.name = name
  removedOnce : s.removed.Nodup

/-- No removal failed to erase its one entry, and until its destructor the server's map is exact. -/
def ConnectionsExact : Except Failure State → Prop
  | .ok s => s.lifetime = .alive → Exact s
  | .error e => e ≠ .notErased

theorem exact_of_invariants (h : Tracked s) (ho : Open s) (hnumbered : Numbered name ipPort s)
    (hlen : ipPort.length ≤ 47) (hle : s.accepted.length ≤ intMax) : Exact s := by
  refine ⟨hnumbered.distinct hlen hle, ho.kept, fun n c => ?_, ho.removedOnce⟩
  constructor
  · intro hc
    obtain ⟨hacc, rfl⟩ := h.mapped n c hc
    exact ⟨hacc, fun hremoved => ((ho.removed c).mp hremoved).2 hc, rfl⟩
  · rintro ⟨hacc, hremoved, rfl⟩
    by_contra hmap
    exact hremoved ((ho.removed c).mpr ⟨hacc, hmap⟩)

/-- What holds in a run that accepts at most `2^31 - 1` connections. -/
structure Inv (name ipPort : Text) (s : State) : Prop where
  tracked : Tracked s
  opened : s.lifetime = .alive → Open s
  numbered : Numbered name ipPort s

theorem Inv.step {a : Label} {r : Except Failure State} (h : Inv name ipPort s) (hlen : ipPort.length ≤ 47)
    (hlt : a = .newConnection → s.accepted.length < intMax) (hstep : step s a = some r) :
    (∃ t, r = .ok t ∧ Inv name ipPort t ∧
        t.accepted.length = s.accepted.length + [a].count .newConnection) ∨
      ∃ e, r = .error e ∧ e ≠ .notErased := by
  have hsafe := safe_of_step h.tracked h.opened
    (fun ha => h.numbered.nameFresh h.tracked hlen (hlt ha)) hstep
  cases r with
  | error e => exact .inr ⟨e, rfl, hsafe⟩
  | ok t =>
    refine .inl ⟨t, rfl, ?_⟩
    by_cases ha : a = .newConnection
    · subst ha
      obtain ⟨-, heff⟩ := step_eq_some.mp hstep
      obtain ⟨hnumbered, hcount⟩ := numbered_newConnection h.numbered heff
      exact ⟨⟨hsafe.1, hsafe.2, hnumbered⟩, hcount⟩
    · have hsame := sameNumbers_of_step ha hstep
      refine ⟨⟨hsafe.1, hsafe.2, hsame.numbered h.numbered⟩, ?_⟩
      rw [hsame.1, List.count_singleton]
      simp [ha]

theorem Inv.always (hlen : ipPort.length ≤ 47) (as : List Label) (h : Inv name ipPort s)
    (hcount : s.accepted.length + as.count .newConnection ≤ intMax) :
    runs.Always ConnectionsExact (.ok s) as := by
  induction as generalizing s with
  | nil =>
    exact Machine.always_nil.mpr fun halive =>
      exact_of_invariants h.tracked (h.opened halive) h.numbered hlen hcount
  | cons a as ih =>
    have hle : s.accepted.length ≤ intMax := (Nat.le_add_right _ _).trans hcount
    refine Machine.always_cons.mpr ⟨fun halive =>
      exact_of_invariants h.tracked (h.opened halive) h.numbered hlen hle, fun r hr => ?_⟩
    have hlt : a = .newConnection → s.accepted.length < intMax := by
      rintro rfl
      rw [List.count_cons_self] at hcount
      omega
    rw [← List.singleton_append, List.count_append] at hcount
    obtain ⟨t, rfl, hinv, hacc⟩ | ⟨e, rfl, he⟩ := h.step hlen hlt hr
    · exact ih hinv (by rw [hacc]; omega)
    · exact Machine.ofExcept_always_error he

/-- **The connection map is exact**, in every run of a server on any number of loops that accepts at most
`2^31 - 1` connections, when `inet_ntop` yields at most 39 characters. -/
theorem connections_exact {ntop : Sockets.InetNtop} (hntop : ntop.AtMost 39)
    (listenAddr : Sockets.SockAddr) (nameArg : Text) (loops : Nat) {as : List Label}
    (hcount : as.count .newConnection ≤ intMax) :
    ∃ server, TcpServer.new ntop listenAddr nameArg loops = .ok server ∧
      runs.Always ConnectionsExact (.ok (.init server)) as := by
  obtain ⟨ipPort, hipPort, hlen⟩ := InetAddress.toIpPort_ok hntop listenAddr
  refine ⟨fresh ipPort nameArg loops, by simp [TcpServer.new, hipPort, pure, Except.pure], ?_⟩
  have hinv : Inv nameArg ipPort (.init (fresh ipPort nameArg loops)) :=
    ⟨tracked_init _ _ _, fun _ => open_init _ _ _, rfl, rfl, fun _ => rfl, fun _ => rfl⟩
  exact hinv.always hlen as (by simpa [State.init] using hcount)

/-- `connections_exact` for a server on one io loop that listens at 127.0.0.1, accepts and closes. -/
theorem connections_exact_loopback :
    ∃ server, TcpServer.new ⟨fun _ => "127.0.0.1".toList, fun _ => "::1".toList⟩
        (.inet 0x0100007f#32 0x5000#16) "echo".toList 1 = .ok server ∧
      runs.Always ConnectionsExact (.ok (.init server)) [.newConnection, .runNext (.io 0), .newConnection] :=
  connections_exact ⟨fun _ => by simp, fun _ => by simp⟩ _ _ _ (by decide)

end Siren.TcpServer
