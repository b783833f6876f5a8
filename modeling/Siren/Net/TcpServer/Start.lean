import Siren.Net.EventLoop.Dispatch
import Siren.Net.TcpServer.Basic

/-!
# `TcpServer::start`

`started_` has no initialiser: its first value is any `int`. Each call of `start` adds one to it, which wraps,
and the calls that read 0 go on to start the pool and to have the acceptor listen. The calls come from any
threads, and their steps interleave in any way.

* `zeros`: how many of so many calls read 0.
* `started_once_iff`: the server is started once when exactly one call does.
-/

namespace Siren

/-! ### The pool -/

structure EventLoopThreadPool where
  started_ : Bool
  numThreads_ : Nat
  /-- `loops_.size()` -/
  loops : Nat

/-- `EventLoopThreadPool(baseLoop, nameArg)`, after `setThreadNum`. -/
def EventLoopThreadPool.new (numThreads : Nat) : EventLoopThreadPool := ⟨false, numThreads, 0⟩

namespace TcpServer

/-- The assertions that `start` comes to. -/
inductive StartFailure where
  /-- `assert(!started_)` of the pool. -/
  | poolStarted
  /-- `assert(!acceptor_->listening())` -/
  | listening

/-- `EventLoopThreadPool::start`. Off the thread of the base loop `assertInLoopThread` only logs. -/
def startPool (pool : EventLoopThreadPool) : Except StartFailure EventLoopThreadPool := do
  cassert (pool.started_ = false) .poolStarted
  return { pool with started_ := true, loops := pool.loops + pool.numThreads_ }

/-- A server and its calls of `start`. -/
structure Starting where
  started_ : BitVec 32
  threadPool_ : EventLoopThreadPool
  acceptor_ : Acceptor
  /-- The calls that have not come to `fetch_add` yet. -/
  calls : Nat
  /-- Those that read 0, by what they do next. -/
  toStartPool : Nat
  toAssert : Nat
  toListen : Nat
  /-- The `Acceptor::listen` among the functors of the base loop. -/
  functors : Nat
  /-- History: how often the pool was started. -/
  poolStarts : Nat
  /-- History: how often `Acceptor::listen` was run or queued by `runInLoop`. -/
  listens : Nat

namespace Starting

/-- A constructed server whose `started_` happens to be `v`, and `n` calls to come. -/
def init (v : BitVec 32) (numThreads : Nat) (fd : Int) (n : Nat) : Starting where
  started_ := v
  threadPool_ := .new numThreads
  acceptor_ := .new fd
  calls := n
  toStartPool := 0
  toAssert := 0
  toListen := 0
  functors := 0
  poolStarts := 0
  listens := 0

inductive Label where
  /-- `started_.fetch_add(1) == 0` -/
  | fetchAdd
  | startPool
  | assertNotListening
  /-- `runInLoop(listen)`, on the thread of the base loop or on another one. -/
  | runInLoop (inLoopThread : Bool)
  /-- The base loop runs a functor. -/
  | runFunctor

def step (s : Starting) : Label → Option (Except StartFailure Starting)
  | .fetchAdd =>
    if 0 < s.calls then some (.ok { s with
      started_ := s.started_ + 1
      calls := s.calls - 1
      toStartPool := if s.started_ = 0 then s.toStartPool + 1 else s.toStartPool })
    else none
  | .startPool =>
    if 0 < s.toStartPool then some do
      let pool ← TcpServer.startPool s.threadPool_
      return { s with
        threadPool_ := pool
        toStartPool := s.toStartPool - 1
        toAssert := s.toAssert + 1
        poolStarts := s.poolStarts + 1 }
    else none
  | .assertNotListening =>
    if 0 < s.toAssert then some do
      cassert (s.acceptor_.listening_ = false) .listening
      return { s with toAssert := s.toAssert - 1, toListen := s.toListen + 1 }
    else none
  | .runInLoop inLoopThread =>
    if 0 < s.toListen then
      let s := { s with toListen := s.toListen - 1, listens := s.listens + 1 }
      some (.ok (if inLoopThread then { s with acceptor_ := s.acceptor_.listen }
        else { s with functors := s.functors + 1 }))
    else none
  | .runFunctor =>
    if 0 < s.functors then
      some (.ok { s with functors := s.functors - 1, acceptor_ := s.acceptor_.listen })
    else none

def runs : Machine (Except StartFailure Starting) Label := .ofExcept step

/-- No call has a step left, or an assertion has failed. -/
def Ended : Except StartFailure Starting → Prop
  | .ok s => s.calls = 0 ∧ s.toStartPool = 0 ∧ s.toAssert = 0 ∧ s.toListen = 0
  | .error _ => True

/-- The pool was started once, and `listen` was run or queued once. -/
def StartedOnce : Except StartFailure Starting → Prop := Machine.Holds fun s => s.poolStarts = 1 ∧ s.listens = 1

/-! ### The calls that read 0 -/

/-- The calls that add to `v` before one reads 0. -/
def callsToZero (v : BitVec 32) : Nat := (-v).toNat

/-- Of the first `n` calls, those that read 0. -/
def zeros (v : BitVec 32) (n : Nat) : Nat := (n + (2 ^ 32 - 1 - callsToZero v)) / 2 ^ 32

theorem callsToZero_lt (v : BitVec 32) : callsToZero v < 2 ^ 32 := (-v).isLt

@[simp] theorem zeros_zero (v : BitVec 32) : zeros v 0 = 0 := by
  have hlt := callsToZero_lt v
  unfold zeros
  omega

theorem read_zero_iff (v : BitVec 32) (n : Nat) : v + BitVec.ofNat 32 n = 0 ↔ n % 2 ^ 32 = callsToZero v := by
  unfold callsToZero
  bv_omega

theorem zeros_succ (v : BitVec 32) (n : Nat) :
    zeros v (n + 1) = if v + BitVec.ofNat 32 n = 0 then zeros v n + 1 else zeros v n := by
  have hlt := callsToZero_lt v
  have hread := read_zero_iff v n
  unfold zeros
  split
  · rename_i hzero
    have hmod := hread.mp hzero
    omega
  · rename_i hzero
    have hmod : n % 2 ^ 32 ≠ callsToZero v := fun h => hzero (hread.mpr h)
    omega

theorem zeros_mono (v : BitVec 32) {m n : Nat} (h : m ≤ n) : zeros v m ≤ zeros v n := by
  unfold zeros
  omega

theorem zeros_eq_one (v : BitVec 32) (n : Nat) :
    zeros v n = 1 ↔ callsToZero v < n ∧ n ≤ callsToZero v + 2 ^ 32 := by
  have hlt := callsToZero_lt v
  unfold zeros
  omega

/-! ### Steps -/

/-- Of `n` calls in all, those that have read 0 are on their way through the pool to `listen`. -/
structure Inv (v : BitVec 32) (n : Nat) (s : Starting) : Prop where
  calls : s.calls ≤ n
  started : s.started_ = v + BitVec.ofNat 32 (n - s.calls)
  toStartPool : s.poolStarts + s.toStartPool = zeros v (n - s.calls)
  poolStarts : s.poolStarts = s.toAssert + s.toListen + s.listens
  pool : s.threadPool_.started_ = true → 0 < s.poolStarts
  functors : s.functors ≤ s.listens
  listening : s.acceptor_.listening_ = true → 0 < s.listens

/-- An assertion fails only after two calls have read 0. -/
def Sound (v : BitVec 32) (n : Nat) : Except StartFailure Starting → Prop
  | .ok s => s.Inv v n
  | .error _ => 1 < zeros v n

variable {v : BitVec 32} {n : Nat} {s : Starting} {r : Except StartFailure Starting} {a : Label}

theorem init_inv (v : BitVec 32) (numThreads : Nat) (fd : Int) (n : Nat) : (init v numThreads fd n).Inv v n where
  calls := le_rfl
  started := by simp [init]
  toStartPool := by simp [init]
  poolStarts := rfl
  pool := nofun
  functors := le_rfl
  listening := nofun

theorem Inv.poolStarts_le (h : s.Inv v n) : s.poolStarts + s.toStartPool ≤ zeros v n :=
  h.toStartPool.trans_le (zeros_mono v (Nat.sub_le _ _))

theorem Inv.step (h : s.Inv v n) (hstep : s.step a = some r) : Sound v n r := by
  have hle := h.poolStarts_le
  obtain ⟨hcalls, hstarted, hzeros, hstarts, hpool, hfunctors, hlistening⟩ := h
  cases a with
  | fetchAdd =>
    obtain ⟨hpos, rfl⟩ := Machine.of_ite_eq_some hstep
    have hnext : n - (s.calls - 1) = n - s.calls + 1 := by omega
    refine ⟨(Nat.sub_le _ _).trans hcalls, ?_, ?_, hstarts, hpool, hfunctors, hlistening⟩
    · show s.started_ + 1 = v + BitVec.ofNat 32 (n - (s.calls - 1))
      rw [hnext, hstarted, BitVec.ofNat_add, BitVec.add_assoc]
      rfl
    · show s.poolStarts + (if s.started_ = 0 then s.toStartPool + 1 else s.toStartPool) =
        zeros v (n - (s.calls - 1))
      rw [hnext, zeros_succ, ← hstarted]
      split
      · omega
      · exact hzeros
  | startPool =>
    obtain ⟨hpos, hr⟩ := Machine.of_ite_eq_some hstep
    by_cases hnot : s.threadPool_.started_ = false
    · simp only [TcpServer.startPool, cassert_of hnot, ok_bind] at hr
      subst hr
      refine ⟨hcalls, hstarted, ?_, ?_, fun _ => Nat.succ_pos _, hfunctors, hlistening⟩
      · show s.poolStarts + 1 + (s.toStartPool - 1) = zeros v (n - s.calls)
        omega
      · show s.poolStarts + 1 = s.toAssert + 1 + s.toListen + s.listens
        omega
    · simp only [TcpServer.startPool, cassert_of_not hnot, error_bind] at hr
      subst hr
      have hpos' := hpool (by simpa using hnot)
      show 1 < zeros v n
      omega
  | assertNotListening =>
    obtain ⟨hpos, hr⟩ := Machine.of_ite_eq_some hstep
    by_cases hnot : s.acceptor_.listening_ = false
    · simp only [cassert_of hnot, ok_bind] at hr
      subst hr
      refine ⟨hcalls, hstarted, hzeros, ?_, hpool, hfunctors, hlistening⟩
      show s.poolStarts = s.toAssert - 1 + (s.toListen + 1) + s.listens
      omega
    · simp only [cassert_of_not hnot, error_bind] at hr
      subst hr
      have hpos' := hlistening (by simpa using hnot)
      show 1 < zeros v n
      omega
  | runInLoop inLoopThread =>
    obtain ⟨hpos, rfl⟩ := Machine.of_ite_eq_some hstep
    have hrest : s.poolStarts = s.toAssert + (s.toListen - 1) + (s.listens + 1) := by omega
    cases inLoopThread with
    | true =>
      exact ⟨hcalls, hstarted, hzeros, hrest, hpool, hfunctors.trans (Nat.le_succ _), fun _ => Nat.succ_pos _⟩
    | false =>
      exact ⟨hcalls, hstarted, hzeros, hrest, hpool, Nat.succ_le_succ hfunctors, fun _ => Nat.succ_pos _⟩
  | runFunctor =>
    obtain ⟨hpos, rfl⟩ := Machine.of_ite_eq_some hstep
    exact ⟨hcalls, hstarted, hzeros, hstarts, hpool, (Nat.sub_le _ _).trans hfunctors,
      fun _ => hpos.trans_le hfunctors⟩

theorem Sound.run {t : Except StartFailure Starting} {as : List Label} (h : Sound v n r)
    (hrun : runs.run r as = some t) : Sound v n t := by
  refine Machine.run_invariant (fun r a t h hstep => ?_) h hrun
  cases r with
  | error e => cases hstep
  | ok s => exact Inv.step h hstep

/-- At the end as many calls have started the pool and had the acceptor listen as read 0. -/
theorem Inv.ended (h : s.Inv v n) (hend : Ended (.ok s)) : s.poolStarts = zeros v n ∧ s.listens = zeros v n := by
  obtain ⟨hcalls, hpool, hassert, hlisten⟩ := hend
  have hzeros := h.toStartPool
  have hstarts := h.poolStarts
  rw [hcalls, Nat.sub_zero] at hzeros
  omega

/-- **`start` starts the server once** when exactly one call reads 0: `n` calls, in any order of their steps,
start the pool once and run or queue `listen` once, and fail no assertion, exactly when there are more of them
than it takes to bring `started_` to 0, and not another round of the counter more. -/
theorem started_once_iff {numThreads : Nat} {fd : Int} {as : List Label}
    (hrun : runs.run (.ok (init v numThreads fd n)) as = some r) (hend : Ended r) :
    StartedOnce r ↔ callsToZero v < n ∧ n ≤ callsToZero v + 2 ^ 32 := by
  have hsound : Sound v n r := Sound.run (r := .ok _) (init_inv v numThreads fd n) hrun
  rw [← zeros_eq_one]
  cases r with
  | error e =>
    have hlt : 1 < zeros v n := hsound
    exact ⟨fun h => h.elim, fun h => absurd h hlt.ne'⟩
  | ok s =>
    obtain ⟨hstarts, hlistens⟩ := Inv.ended hsound hend
    constructor
    · exact fun h => hstarts ▸ h.1
    · exact fun h => ⟨hstarts.trans h, hlistens.trans h⟩

/-- Two calls at the same time, on a counter that is 0. -/
theorem two_calls_start_once : ∃ s, runs.run (.ok (init 0 4 3 2))
      [.fetchAdd, .startPool, .fetchAdd, .assertNotListening, .runInLoop false, .runFunctor] = some (.ok s) ∧
    StartedOnce (.ok s) := by
  obtain ⟨s, hrun, hend⟩ : ∃ s, runs.run (.ok (init 0 4 3 2)) [.fetchAdd, .startPool, .fetchAdd,
      .assertNotListening, .runInLoop false, .runFunctor] = some (.ok s) ∧ Ended (.ok s) :=
    ⟨_, rfl, rfl, rfl, rfl, rfl⟩
  exact ⟨s, hrun, (started_once_iff hrun hend).mpr (by decide)⟩

/-- A counter that happens to be 1: the one call of `start` does nothing. -/
theorem one_call_never_starts : ∃ s, runs.run (.ok (init 1 4 3 1)) [.fetchAdd] = some (.ok s) ∧
    Ended (.ok s) ∧ ¬ StartedOnce (.ok s) :=
  ⟨_, rfl, ⟨rfl, rfl, rfl, rfl⟩, fun h => absurd h.1 (by decide)⟩

end Starting

end TcpServer

end Siren
