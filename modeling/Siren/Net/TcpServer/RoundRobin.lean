import Mathlib.Data.Int.CardIntervalMod
import Siren.Net.TcpServer.Connections

/-!
# Round robin

`newConnection` takes the loop of a connection from `getNextLoop`, on the base loop only; nothing else moves
`next_`. So connection `i` goes to the loop that `getLoopForHash(i)` would give, whatever happens to the
connections in between.

`connections_spread`: in every run the loops of the accepted connections go through `getAllLoops` in order, again
and again, and no two loops differ by more than one connection.
-/

namespace Siren.TcpServer

/-- `EventLoopThreadPool::getLoopForHash` -/
def getLoopForHash (server : TcpServer) (hashCode : Nat) : LoopId :=
  if server.loops = 0 then .base else .io (hashCode % server.loops)

/-- `EventLoopThreadPool::getAllLoops` of a started pool. -/
def getAllLoops (server : TcpServer) : List LoopId :=
  if server.loops = 0 then [.base] else (List.range server.loops).map .io

variable {server : TcpServer} {s t : State} {a : Label}

/-! ### The loops of the pool -/

theorem getAllLoops_of_zero (h : server.loops = 0) : server.getAllLoops = [.base] := if_pos h

theorem getAllLoops_of_pos (h : 0 < server.loops) : server.getAllLoops = (List.range server.loops).map .io :=
  if_neg h.ne'

theorem getLoopForHash_of_zero (h : server.loops = 0) (hashCode : Nat) :
    server.getLoopForHash hashCode = .base := if_pos h

theorem getLoopForHash_of_pos (h : 0 < server.loops) (hashCode : Nat) :
    server.getLoopForHash hashCode = .io (hashCode % server.loops) := if_neg h.ne'

/-- `getLoopForHash` is the loop of `getAllLoops` at the remainder. -/
theorem getAllLoops_getElem? (server : TcpServer) (i : Nat) :
    server.getAllLoops[i % server.getAllLoops.length]? = some (server.getLoopForHash i) := by
  rcases Nat.eq_zero_or_pos server.loops with hzero | hpos
  · rw [getAllLoops_of_zero hzero, getLoopForHash_of_zero hzero, List.length_singleton, Nat.mod_one]
    rfl
  · rw [getAllLoops_of_pos hpos, getLoopForHash_of_pos hpos, List.length_map, List.length_range,
      List.getElem?_map, List.getElem?_range (Nat.mod_lt i hpos)]
    rfl

/-- Of the first `n` connections each loop has `n / loops`, and the first `n % loops` loops have one more. -/
theorem count_io {loops : Nat} (hpos : 0 < loops) (n : Nat) {j : Nat} (hj : j < loops) :
    ((List.range n).map fun i => LoopId.io (i % loops)).count (.io j) =
      n / loops + if j < n % loops then 1 else 0 := by
  have hcount : ((List.range n).map fun i => LoopId.io (i % loops)).count (.io j) =
      n.count (· ≡ j [MOD loops]) := by
    rw [List.count, List.countP_map, Nat.count]
    refine List.countP_congr fun i _ => ?_
    simp [Nat.ModEq, Nat.mod_eq_of_lt hj]
  rw [hcount, Nat.count_modEq_card n hpos j, Nat.mod_eq_of_lt hj]

/-- No loop has two connections more than another. -/
theorem count_le (server : TcpServer) (n : Nat) {l l' : LoopId} (hl : l ∈ server.getAllLoops)
    (hl' : l' ∈ server.getAllLoops) :
    ((List.range n).map server.getLoopForHash).count l ≤ ((List.range n).map server.getLoopForHash).count l' + 1 := by
  rcases Nat.eq_zero_or_pos server.loops with hzero | hpos
  · rw [getAllLoops_of_zero hzero] at hl hl'
    rw [List.mem_singleton.mp hl, List.mem_singleton.mp hl']
    exact Nat.le_succ _
  · rw [getAllLoops_of_pos hpos] at hl hl'
    obtain ⟨j, hj, rfl⟩ := List.mem_map.mp hl
    obtain ⟨j', hj', rfl⟩ := List.mem_map.mp hl'
    rw [show server.getLoopForHash = fun i => LoopId.io (i % server.loops) from
      funext (getLoopForHash_of_pos hpos)]
    rw [count_io hpos n (List.mem_range.mp hj), count_io hpos n (List.mem_range.mp hj')]
    split <;> split <;> omega

/-! ### The turn of a connection -/

/-- The accepted connections went to the loops in turn, and `next_` is whose turn it is. -/
structure Spread (s : State) : Prop where
  loops : s.accepted.map (·.loop) = (List.range s.accepted.length).map s.server.getLoopForHash
  next : 0 < s.server.loops → s.server.next_ = s.accepted.length % s.server.loops

theorem spread_init (ipPort nameArg : Text) (loops : Nat) : Spread (.init (fresh ipPort nameArg loops)) where
  loops := rfl
  next _ := (Nat.zero_mod loops).symm

theorem getNextLoop_loops (server : TcpServer) : server.getNextLoop.2.loops = server.loops := by
  unfold getNextLoop
  split <;> rfl

theorem getNextLoop_loop (h : 0 < server.loops → server.next_ < server.loops) :
    server.getNextLoop.1 = server.getLoopForHash server.next_ := by
  rcases Nat.eq_zero_or_pos server.loops with hzero | hpos
  · rw [getNextLoop, if_pos hzero, getLoopForHash_of_zero hzero]
  · rw [getNextLoop, if_neg hpos.ne', getLoopForHash_of_pos hpos, Nat.mod_eq_of_lt (h hpos)]

theorem getNextLoop_next_ (hpos : 0 < server.loops) :
    server.getNextLoop.2.next_ = if server.loops ≤ server.next_ + 1 then 0 else server.next_ + 1 := by
  rw [getNextLoop, if_neg hpos.ne']

/-- The remainder of the next number. -/
theorem succ_mod_eq {n loops : Nat} (hpos : 0 < loops) :
    (if loops ≤ n % loops + 1 then 0 else n % loops + 1) = (n + 1) % loops := by
  have hlt : n % loops < loops := Nat.mod_lt n hpos
  rw [← Nat.mod_add_mod]
  split
  · have hlast : n % loops + 1 = loops := by omega
    rw [hlast, Nat.mod_self]
  · exact (Nat.mod_eq_of_lt (by omega)).symm

theorem Spread.enterConnection (h : Spread s) : Spread s.enterConnection := by
  have hloops : s.enterConnection.server.loops = s.server.loops := getNextLoop_loops s.server
  have hfor : s.enterConnection.server.getLoopForHash = s.server.getLoopForHash := by
    funext i
    rw [getLoopForHash, getLoopForHash, hloops]
  have hlength : s.enterConnection.accepted.length = s.accepted.length + 1 := List.length_append
  have hturn : s.nextConn.loop = s.server.getLoopForHash s.accepted.length := by
    have hlt : 0 < s.server.loops → s.server.next_ < s.server.loops := by
      intro hpos
      rw [h.next hpos]
      exact Nat.mod_lt _ hpos
    show s.server.getNextLoop.1 = _
    rw [getNextLoop_loop hlt]
    rcases Nat.eq_zero_or_pos s.server.loops with hzero | hpos
    · rw [getLoopForHash_of_zero hzero, getLoopForHash_of_zero hzero]
    · rw [getLoopForHash_of_pos hpos, getLoopForHash_of_pos hpos, h.next hpos, Nat.mod_mod]
  refine ⟨?_, fun hpos => ?_⟩
  · rw [hfor, hlength, List.range_succ, List.map_append, List.map_singleton, ← h.loops, ← hturn]
    exact List.map_append
  · rw [hloops] at hpos
    rw [hloops, hlength, ← succ_mod_eq hpos, ← h.next hpos]
    exact getNextLoop_next_ hpos

theorem Spread.of_same (h : Spread s) (hsame : SameServer s t) : Spread t := by
  obtain ⟨hacc, hserver⟩ := hsame
  have hloops : t.server.loops = s.server.loops := by rw [hserver]
  have hnext : t.server.next_ = s.server.next_ := by rw [hserver]
  have hfor : t.server.getLoopForHash = s.server.getLoopForHash := by
    funext i
    rw [getLoopForHash, getLoopForHash, hloops]
  refine ⟨?_, ?_⟩
  · rw [hacc, hfor]
    exact h.loops
  · rw [hacc, hloops, hnext]
    exact h.next

theorem Spread.step (h : Spread s) (hstep : step s a = some (.ok t)) : Spread t := by
  by_cases ha : a = .newConnection
  · subst ha
    obtain ⟨-, hnew⟩ := step_eq_some.mp hstep
    simp only [effect, State.newConnection, State.runInLoop] at hnew
    split at hnew
    · exact h.enterConnection.of_same (sameServer_runFunctor hnew)
    · obtain rfl := Except.ok.inj hnew
      exact h.enterConnection.of_same ⟨rfl, rfl⟩
  · exact h.of_same (sameServer_of_step ha hstep)

/-- **Connections are spread evenly**: in every run of a server, whatever closes, is removed or destroyed in
between, connection `i` is on loop `i` of `getAllLoops`, counted round and round; so no loop was given two
connections more than another, and `next_` stays an index of `loops_`. -/
theorem connections_spread (ipPort nameArg : Text) (loops : Nat) (as : List Label) :
    runs.Always (Machine.HoldsIfOk fun s =>
      (∀ i conn, s.accepted[i]? = some conn →
        s.server.getAllLoops[i % s.server.getAllLoops.length]? = some conn.loop) ∧
      (∀ l ∈ s.server.getAllLoops, ∀ l' ∈ s.server.getAllLoops,
        (s.accepted.map (·.loop)).count l ≤ (s.accepted.map (·.loop)).count l' + 1) ∧
      (0 < s.server.loops → s.server.next_ < s.server.loops))
      (.ok (.init (fresh ipPort nameArg loops))) as := by
  have hinv : runs.Always (Machine.HoldsIfOk Spread) (.ok (.init (fresh ipPort nameArg loops))) as :=
    Machine.ofExcept_always_holdsIfOk (spread_init ipPort nameArg loops) fun _ _ _ h hstep => h.step hstep
  refine hinv.mono fun r hr => ?_
  cases r with
  | error e => trivial
  | ok s =>
    refine ⟨fun i conn hconn => ?_, fun l hl l' hl' => ?_, fun hpos => ?_⟩
    · have hlt : i < s.accepted.length := (List.getElem?_eq_some_iff.mp hconn).1
      have hloop : (s.accepted.map (·.loop))[i]? = some conn.loop := by rw [List.getElem?_map, hconn]; rfl
      rw [hr.loops, List.getElem?_map, List.getElem?_range hlt] at hloop
      rw [getAllLoops_getElem?]
      exact hloop
    · rw [hr.loops]
      exact count_le s.server _ hl hl'
    · rw [hr.next hpos]
      exact Nat.mod_lt _ hpos

end Siren.TcpServer
