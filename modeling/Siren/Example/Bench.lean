import Siren.Lib.Tokens
import Siren.Net.EPollPoller.Events

/-!
# The benchmark of the event loop

`bench.cc` makes a ring of socket pairs, with a channel of the loop on one end of each. A round (`runOnce`) puts a
byte into some of the pairs and enters `loop()`; `readCallback` takes a byte out of its pair, puts one into the next
while there are writes left, and quits the loop when all bytes fired have been read.

Of the loop there is its poller here: no timer is set, and nobody wakes it up. The sockets block and there is one
thread, so that a `recv` that finds nothing and a `send` that finds no room wait for ever (`Blocked`). The counters
stay within the number of the writes and of the active pipes, and their `int`s do not overflow if that one does not.

* `InRound`: the bytes in the ring are those fired and not read, and the loop is told to quit when there are none.
* `rounds_complete`: in every order of events nothing blocks, and a round ends with an empty ring after exactly
  `numActive + numWrites` reads.
* `rounds_end`: and each round does end.
-/

namespace Siren.Bench

open EPollPoller (Assertion)
open Tokens (total)

/-- The arguments. `main` takes any, but divides by the second and wants a pipe to write to. -/
structure Options where
  numPipes : Nat
  numActive : Nat
  numWrites : Int
  numPipes_pos : 0 < numPipes
  numActive_pos : 0 < numActive

/-- `widx` of `readCallback`. -/
def Options.next (o : Options) (idx : Fin o.numPipes) : Fin o.numPipes :=
  if h : idx + 1 < o.numPipes then ⟨idx + 1, h⟩ else ⟨idx + 1 - o.numPipes, by omega⟩

/-- The active pipes are `numPipes / numActive` apart. -/
def Options.first (o : Options) (i : Fin o.numActive) : Fin o.numPipes :=
  ⟨i * (o.numPipes / o.numActive), by
    rcases Nat.eq_zero_or_pos (o.numPipes / o.numActive) with hzero | hpos
    · rw [hzero, Nat.mul_zero]
      exact o.numPipes_pos
    · exact (Nat.mul_lt_mul_of_pos_right i.isLt hpos).trans_le (Nat.mul_div_le ..)⟩

/-- Where the thread waits for ever. -/
inductive Blocked (n : Nat) where
  | recv (idx : Fin n)
  | send (idx : Fin n)

inductive Phase where
  /-- In `main`, outside `runOnce`. -/
  | main
  /-- `while (!quit_)` was passed. -/
  | polling
  | events
  deriving DecidableEq

structure State (o : Options) where
  /-- `g_channels`, with the poller of the loop. -/
  channels : MirroredRegistry (Fin o.numPipes)
  /-- How many bytes are in each pair. -/
  pipes : Fin o.numPipes → Nat
  g_reads : Int
  g_writes : Int
  g_fired : Int
  quit_ : Bool
  phase : Phase
  /-- Those of `activeChannels_` whose turn is to come. -/
  activeChannels_ : List (Fin o.numPipes)
  /-- History: the rounds begun. -/
  rounds : Nat

namespace State

variable {o : Options}

/-- `main` before its first round, with these descriptors. -/
def init (fd : Fin o.numPipes ↪ Int) : State o := ⟨.new fd, fun _ => 0, 0, 0, 0, false, .main, [], 0⟩

variable (capacity : Nat) (s : State o)

/-- `::send(g_pipes[2 * idx + 1], "m", 1, 0)`, where a pair holds so many bytes. -/
def send (idx : Fin o.numPipes) : Except (Blocked o.numPipes) (State o) := do
  cassert (s.pipes idx < capacity) (.send idx)
  return { s with pipes := Function.update s.pipes idx (s.pipes idx + 1) }

/-- `::recv(fd, &ch, sizeof(ch), 0)` -/
def recv (idx : Fin o.numPipes) : Except (Blocked o.numPipes) (State o) := do
  cassert (0 < s.pipes idx) (.recv idx)
  return { s with pipes := Function.update s.pipes idx (s.pipes idx - 1) }

/-- `quit()`, on the thread of the loop. -/
def quit : State o := { s with quit_ := true }

/-- The second half of `readCallback`: pass the byte on. -/
def passOn (idx : Fin o.numPipes) : Except (Blocked o.numPipes) (State o) :=
  if s.g_writes > 0 then do
    let s ← s.send capacity (o.next idx)
    return { s with g_writes := s.g_writes - 1, g_fired := s.g_fired + 1 }
  else return s

def readCallback (idx : Fin o.numPipes) : Except (Blocked o.numPipes) (State o) := do
  let s ← s.recv idx
  let s ← passOn capacity { s with g_reads := s.g_reads + 1 } idx
  return if s.g_fired = s.g_reads then s.quit else s

/-- `channel.enableReading()` of all channels. -/
def enableReading : MirroredRegistry (Fin o.numPipes) :=
  (List.finRange o.numPipes).foldl (fun r p => r.setInterest .enableReading p) s.channels

/-- `runOnce` up to the first `poll` of `loop()`. -/
def runOnce : Except (Blocked o.numPipes) (State o) := do
  let channels := s.enableReading
  let s ← (List.finRange o.numActive).foldlM (fun s i => s.send capacity (o.first i)) { s with channels }
  return { s with
    g_fired := o.numActive
    g_reads := 0
    g_writes := o.numWrites
    quit_ := false
    phase := .polling
    rounds := s.rounds + 1 }

/-- The sockets that `epoll_wait` may report: those with something to read, and none only when there are none. -/
def MayReport (ready : List (Fin o.numPipes)) : Prop :=
  (∀ p ∈ ready, 0 < s.pipes p) ∧ (ready = [] → ∀ p, s.pipes p = 0)

instance (ready : List (Fin o.numPipes)) : Decidable (s.MayReport ready) :=
  inferInstanceAs (Decidable ((∀ p ∈ ready, 0 < s.pipes p) ∧ (ready = [] → ∀ p, s.pipes p = 0)))

/-- `handleEvent` of the next channel, which has a read callback and no other. -/
def handleEvent : Option (Except (Blocked o.numPipes) (State o)) :=
  match s.activeChannels_ with
  | [] => none
  | p :: activeChannels_ =>
    let s := { s with activeChannels_ }
    some (if .read ∈ Channel.handleEventWithGuard (s.channels.channel p).revents then s.readCallback capacity p
      else .ok s)

inductive Label (n : Nat) where
  | runOnce
  | poll (ready : List (Fin n))
  | handleEvent
  /-- The iteration is over: there are no functors, and `while (!quit_)` follows. -/
  | endIteration

def step : Label o.numPipes → Option (Except (Blocked o.numPipes) (State o))
  | .runOnce => if s.phase = .main then some (s.runOnce capacity) else none
  | .poll ready =>
    if s.phase = .polling ∧ s.MayReport ready then
      (s.channels.poll (ready.map fun p => ((s.channels.channel p).fd, POLLIN))).map
        fun (channels, activeChannels_) => .ok { s with channels, activeChannels_, phase := .events }
    else none
  | .handleEvent => if s.phase = .events then s.handleEvent capacity else none
  | .endIteration =>
    if s.phase = .events ∧ s.activeChannels_ = [] then
      some (.ok { s with phase := if s.quit_ then .main else .polling })
    else none

/-- The end of `main`: `disableAll()` and `remove()` of all channels. -/
def finish : Except Assertion (MirroredRegistry (Fin o.numPipes)) :=
  (List.finRange o.numPipes).foldlM (fun r p => (r.setInterest .disableAll p).remove p) s.channels

end State

/-- Any number of rounds, with pairs of this capacity. -/
def rounds (o : Options) (capacity : Nat) : Machine (Except (Blocked o.numPipes) (State o)) (State.Label o.numPipes) :=
  .ofExcept (State.step capacity)

/-! ### Bytes in the ring -/

namespace State

variable {o : Options} {capacity : Nat} {s t : State o}

def inFlight (s : State o) : Nat := total s.pipes

theorem pipes_le_inFlight (s : State o) (p : Fin o.numPipes) : s.pipes p ≤ s.inFlight := Tokens.le_total s.pipes p

/-- A `send` with room puts one byte into the ring. -/
theorem send_spec (idx : Fin o.numPipes) (hroom : s.inFlight < capacity) :
    ∃ pipes, s.send capacity idx = .ok { s with pipes } ∧ total pipes = s.inFlight + 1 ∧
      ∀ p, s.pipes p ≤ pipes p := by
  have hcapacity : s.pipes idx < capacity := (s.pipes_le_inFlight idx).trans_lt hroom
  refine ⟨Function.update s.pipes idx (s.pipes idx + 1), ?_, ?_, fun p => ?_⟩
  · rw [send, cassert_of hcapacity]
    rfl
  · have hsum := Tokens.total_update s.pipes idx (s.pipes idx + 1)
    unfold inFlight
    omega
  · by_cases hp : p = idx
    · subst hp
      rw [Function.update_self]
      exact Nat.le_succ _
    · rw [Function.update_of_ne hp]

/-- A `recv` that finds a byte takes it out of the ring. -/
theorem recv_spec {idx : Fin o.numPipes} (hbyte : 0 < s.pipes idx) :
    ∃ pipes, s.recv idx = .ok { s with pipes } ∧ total pipes + 1 = s.inFlight ∧
      ∀ p, p ≠ idx → pipes p = s.pipes p := by
  refine ⟨Function.update s.pipes idx (s.pipes idx - 1), ?_, ?_, fun p hp => Function.update_of_ne hp ..⟩
  · rw [recv, cassert_of hbyte]
    rfl
  · have hsum := Tokens.total_update s.pipes idx (s.pipes idx - 1)
    unfold inFlight
    omega

/-- The sends of `runOnce`. -/
theorem foldlM_send_spec (l : List (Fin o.numActive)) (hroom : s.inFlight + l.length ≤ capacity) :
    ∃ pipes, l.foldlM (fun s i => s.send capacity (o.first i)) s = .ok { s with pipes } ∧
      total pipes = s.inFlight + l.length := by
  induction l generalizing s with
  | nil => exact ⟨s.pipes, rfl, rfl⟩
  | cons i l ih =>
    rw [List.length_cons] at hroom
    obtain ⟨pipes, hsend, hsum, -⟩ := send_spec (o.first i) (show s.inFlight < capacity by omega)
    have hone : inFlight { s with pipes } = s.inFlight + 1 := hsum
    obtain ⟨pipes', hrest, hsum'⟩ := ih (s := { s with pipes }) (by omega)
    refine ⟨pipes', ?_, ?_⟩
    · rw [List.foldlM_cons, hsend, ok_bind, hrest]
    · rw [hsum', hone, List.length_cons]
      omega

/-! ### One callback -/

/-- A `readCallback` of the channel `idx` that came through. -/
structure Passed (idx : Fin o.numPipes) (s t : State o) : Prop where
  channels : t.channels = s.channels
  phase : t.phase = s.phase
  activeChannels_ : t.activeChannels_ = s.activeChannels_
  rounds : t.rounds = s.rounds
  reads : t.g_reads = s.g_reads + 1
  fired : t.g_fired + t.g_writes = s.g_fired + s.g_writes
  /-- It has passed the byte on, or taken it out of the ring. -/
  written : 0 < s.g_writes ∧ t.g_writes = s.g_writes - 1 ∧ t.inFlight = s.inFlight ∨
    s.g_writes ≤ 0 ∧ t.g_writes = s.g_writes ∧ t.inFlight + 1 = s.inFlight
  others : ∀ p, p ≠ idx → s.pipes p ≤ t.pipes p
  quit : t.quit_ = true ↔ s.quit_ = true ∨ t.g_fired = t.g_reads

theorem quitIf_spec (s : State o) (fired : Prop) [Decidable fired] :
    (if fired then s.quit else s) = { s with quit_ := s.quit_ || decide fired } := by
  split
  · rename_i h
    simp [quit, h]
  · rename_i h
    simp [h]

/-- The channel of a pair with a byte, in a ring with room for all that is in it. -/
theorem readCallback_spec {idx : Fin o.numPipes} (hbyte : 0 < s.pipes idx) (hroom : s.inFlight ≤ capacity) :
    ∃ t, s.readCallback capacity idx = .ok t ∧ Passed idx s t := by
  obtain ⟨pipes, hrecv, hsum, hothers⟩ := recv_spec hbyte
  rw [readCallback, hrecv, ok_bind]
  unfold passOn
  dsimp only
  split
  · rename_i hwrites
    have hless : inFlight { s with pipes, g_reads := s.g_reads + 1 } < capacity := by
      show total pipes < capacity
      omega
    obtain ⟨pipes', hsend, hsum', hmore⟩ := send_spec (o.next idx) hless
    rw [hsend]
    refine ⟨_, rfl, ?_⟩
    rw [quitIf_spec]
    refine ⟨rfl, rfl, rfl, rfl, rfl, ?_, ?_, ?_, ?_⟩
    · show s.g_fired + 1 + (s.g_writes - 1) = _
      omega
    · refine Or.inl ⟨hwrites, rfl, ?_⟩
      show total pipes' = _
      rw [hsum']
      exact hsum
    · intro p hp
      rw [← hothers p hp]
      exact hmore p
    · simp
  · rename_i hwrites
    refine ⟨_, rfl, ?_⟩
    rw [quitIf_spec]
    refine ⟨rfl, rfl, rfl, rfl, rfl, rfl, ?_, ?_, ?_⟩
    · exact Or.inr ⟨Int.not_lt.mp hwrites, rfl, hsum⟩
    · exact fun p hp => (hothers p hp).ge
    · simp

/-! ### The channels -/

/-- What `enableReading` of some channels leaves. -/
theorem foldl_enableReading (l : List (Fin o.numPipes)) (r : MirroredRegistry (Fin o.numPipes))
    (hevents : ∀ p, (r.channel p).events = Channel.kNoneEvent ∨ (r.channel p).events = Channel.kReadEvent) :
    let r' := l.foldl (fun r p => r.setInterest .enableReading p) r
    r'.eventsSize = r.eventsSize ∧
      (∀ p ∈ l, (r'.channel p).index = kAdded ∧ (r'.channel p).events = Channel.kReadEvent) ∧
      ∀ p, p ∉ l → r'.channel p = r.channel p := by
  induction l generalizing r with
  | nil => exact ⟨rfl, fun p hp => absurd hp List.not_mem_nil, fun _ _ => rfl⟩
  | cons p l ih =>
    have hself : (r.setInterest .enableReading p).channel p =
        { r.channel p with events := Channel.kReadEvent, index := kAdded } := by
      rw [r.channel_setInterest, Function.update_self, Registry.afterInterest]
      have hmask : Channel.InterestCall.enableReading.mask (r.channel p).events = Channel.kReadEvent := by
        rcases hevents p with h | h <;> rw [h] <;> decide
      rw [hmask, Registry.indexAfter, if_neg (fun h => absurd h.2 (by decide))]
    have hother : ∀ q, q ≠ p → (r.setInterest .enableReading p).channel q = r.channel q := fun q hq => by
      rw [r.channel_setInterest, Function.update_of_ne hq]
    obtain ⟨hsize, hin, hout⟩ := ih (r.setInterest .enableReading p) fun q => by
      by_cases hq : q = p
      · subst hq
        rw [hself]
        exact Or.inr rfl
      · rw [hother q hq]
        exact hevents q
    refine ⟨hsize.trans (r.eventsSize_setInterest ..), fun q hq => ?_, fun q hq => ?_⟩
    · by_cases hmem : q ∈ l
      · exact hin q hmem
      · obtain rfl := (List.mem_cons.mp hq).resolve_right hmem
        rw [List.foldl_cons, hout q hmem, hself]
        exact ⟨rfl, rfl⟩
    · rw [List.mem_cons, not_or] at hq
      rw [List.foldl_cons, hout q hq.2, hother q hq.1]

/-- A channel that is disabled can be removed. -/
theorem foldlM_remove (l : List (Fin o.numPipes)) (r : MirroredRegistry (Fin o.numPipes)) :
    ∃ r', l.foldlM (fun r p => (r.setInterest .disableAll p).remove p) r = .ok r' ∧
      (∀ p ∈ l, (r'.channel p).index = kNew) ∧ ∀ p, p ∉ l → r'.channel p = r.channel p := by
  induction l generalizing r with
  | nil => exact ⟨r, rfl, fun p hp => absurd hp List.not_mem_nil, fun _ _ => rfl⟩
  | cons p l ih =>
    have hself := congrFun (r.channel_setInterest .disableAll p) p
    rw [Function.update_self] at hself
    obtain ⟨t, hremove⟩ := (r.setInterest .disableAll p).remove_ok (p := p) (by rw [hself]; rfl)
      (MirroredRegistry.hasChannel_iff.mp (r.hasChannel_setInterest .disableAll p))
    have hchannel := MirroredRegistry.channel_remove hremove
    obtain ⟨r', hrest, hin, hout⟩ := ih t
    refine ⟨r', ?_, fun q hq => ?_, fun q hq => ?_⟩
    · rw [List.foldlM_cons, hremove, ok_bind, hrest]
    · by_cases hmem : q ∈ l
      · exact hin q hmem
      · obtain rfl := (List.mem_cons.mp hq).resolve_right hmem
        rw [hout q hmem, hchannel, Function.update_self]
    · rw [List.mem_cons, not_or] at hq
      rw [hout q hq.2, hchannel, Function.update_of_ne hq.1, r.channel_setInterest, Function.update_of_ne hq.1]

/-- At the end of `main` no assertion fails, and the destructors find the channels unregistered. -/
theorem finish_ok (s : State o) : ∃ r, s.finish = .ok r ∧ ∀ p, r.hasChannel p = false := by
  obtain ⟨r, hok, hin, -⟩ := foldlM_remove (List.finRange o.numPipes) s.channels
  exact ⟨r, hok, fun p => MirroredRegistry.hasChannel_of_new (hin p (List.mem_finRange p))⟩

end State

/-! ### The invariant -/

/-- How many bytes a round reads. -/
def Options.reads (o : Options) : Nat := o.numActive + o.numWrites.toNat

namespace State

variable {o : Options} {capacity : Nat} {s t : State o}

/-- From the first `runOnce` on. -/
structure InRound (s : State o) : Prop where
  inFlight : (s.inFlight : Int) = s.g_fired - s.g_reads
  fired : s.g_fired + s.g_writes = o.numActive + o.numWrites
  writes : min o.numWrites 0 ≤ s.g_writes ∧ s.g_writes ≤ o.numWrites
  room : s.inFlight ≤ o.numActive
  /-- The loop is told to quit by the callback that leaves the ring empty. -/
  quit : s.quit_ = true ↔ s.inFlight = 0
  spent : s.quit_ = true → s.g_writes ≤ 0
  polling : s.phase = .polling → s.quit_ = false
  main : s.phase = .main → s.quit_ = true
  listening : ∀ p, (s.channels.channel p).index = kAdded ∧ (s.channels.channel p).events = Channel.kReadEvent

structure Inv (s : State o) : Prop where
  events : ∀ p, (s.channels.channel p).events = Channel.kNoneEvent ∨
    (s.channels.channel p).events = Channel.kReadEvent
  eventsSize : 0 < s.channels.eventsSize
  idle : s.phase ≠ .events → s.activeChannels_ = []
  /-- A channel that waits for its turn has something to read: nobody else reads it. -/
  active : ∀ p ∈ s.activeChannels_, 0 < s.pipes p ∧ (s.channels.channel p).revents = POLLIN
  nodup : s.activeChannels_.Nodup
  fresh : s.rounds = 0 → s.phase = .main ∧ s.inFlight = 0
  inRound : 0 < s.rounds → s.InRound

theorem init_inv (fd : Fin o.numPipes ↪ Int) : Inv (init fd) where
  events _ := Or.inl rfl
  eventsSize := show 0 < EPollPoller.kInitEventListSize by decide
  idle _ := rfl
  active p hp := absurd hp List.not_mem_nil
  nodup := List.nodup_nil
  fresh _ := ⟨rfl, (Tokens.total_eq_zero_iff _).mpr fun _ => rfl⟩
  inRound h := absurd h (Nat.lt_irrefl 0)

/-- The reads of the round that are to come. -/
def remaining (s : State o) : Nat := ((o.reads : Int) - s.g_reads).toNat

/-- They are those of the bytes in the ring and of the writes left. -/
theorem InRound.remaining_eq (h : s.InRound) : (s.remaining : Int) = s.inFlight + max s.g_writes 0 := by
  have hinFlight := h.inFlight
  have hfired := h.fired
  have hwrites := h.writes
  unfold remaining Options.reads
  omega

/-- How many steps the round may still take: for each read the event, and a poll and the end of an iteration. -/
def potential (s : State o) : Nat :=
  match s.phase with
  | .main => 0
  | .polling => 3 * s.remaining
  | .events => if s.activeChannels_ = [] then 3 * s.remaining + 1 else 3 * s.remaining - 1

/-- How many steps a number of rounds may take. -/
def budget (o : Options) (rounds : Nat) : Nat := (3 * o.reads + 1) * rounds

/-- What a step keeps, and what it costs. -/
structure Goes (s t : State o) : Prop where
  inv : t.Inv
  paid : t.potential + budget o s.rounds + 1 ≤ s.potential + budget o t.rounds

/-- `runOnce` finds an empty ring and puts its bytes into it. -/
theorem Inv.runOnce (h : s.Inv) (hroom : o.numActive ≤ capacity) (hmain : s.phase = .main) :
    ∃ t, s.runOnce capacity = .ok t ∧ s.Goes t := by
  have hempty : s.inFlight = 0 := by
    rcases Nat.eq_zero_or_pos s.rounds with hzero | hpos
    · exact (h.fresh hzero).2
    · exact (h.inRound hpos).quit.mp ((h.inRound hpos).main hmain)
  have hfit : inFlight { s with channels := s.enableReading } + (List.finRange o.numActive).length ≤ capacity := by
    show s.inFlight + _ ≤ _
    rw [hempty, List.length_finRange, Nat.zero_add]
    exact hroom
  obtain ⟨pipes, hsends, hsum⟩ := foldlM_send_spec (List.finRange o.numActive) hfit
  have hfired : total pipes = o.numActive := by
    rw [hsum, List.length_finRange]
    show s.inFlight + _ = _
    omega
  obtain ⟨hsize, hin, -⟩ := foldl_enableReading (List.finRange o.numPipes) s.channels h.events
  have hlistening := fun p => hin p (List.mem_finRange p)
  have hidle : s.activeChannels_ = [] := h.idle (by rw [hmain]; decide)
  have hpos := o.numActive_pos
  rw [State.runOnce, hsends]
  refine ⟨_, rfl, ?_, ?_⟩
  · exact {
      events := fun p => Or.inr (hlistening p).2
      eventsSize := hsize.symm ▸ h.eventsSize
      idle := fun _ => hidle
      active := fun p hp => absurd (hidle ▸ hp) List.not_mem_nil
      nodup := hidle ▸ List.nodup_nil
      fresh := fun hzero => absurd hzero (Nat.succ_ne_zero _)
      inRound := fun _ => {
        inFlight := by
          show (total pipes : Int) = o.numActive - 0
          rw [hfired, Int.sub_zero]
        fired := rfl
        writes := ⟨min_le_left .., le_rfl⟩
        room := hfired.le
        quit := by
          show false = true ↔ total pipes = 0
          rw [hfired]
          exact iff_of_false Bool.false_ne_true hpos.ne'
        spent := fun hquit => absurd hquit Bool.false_ne_true
        polling := fun _ => rfl
        main := fun hphase => by cases hphase
        listening := hlistening } }
  · have hbudget : budget o (s.rounds + 1) = budget o s.rounds + (3 * o.reads + 1) := Nat.mul_succ ..
    have hmore : potential { s with
        channels := s.enableReading, pipes, g_fired := o.numActive, g_reads := 0, g_writes := o.numWrites,
        quit_ := false, phase := .polling, rounds := s.rounds + 1 } = 3 * o.reads := by
      show 3 * ((o.reads : Int) - 0).toNat = _
      omega
    show potential { s with
      channels := s.enableReading, pipes, g_fired := o.numActive, g_reads := 0, g_writes := o.numWrites,
      quit_ := false, phase := .polling, rounds := s.rounds + 1 } + _ + 1 ≤ _ + budget o (s.rounds + 1)
    omega

theorem Inv.started (h : s.Inv) (hphase : s.phase ≠ .main) : s.InRound :=
  h.inRound (Nat.pos_of_ne_zero fun hzero => hphase (h.fresh hzero).1)

/-- `poll` makes active what it reports, and reports something. -/
theorem Inv.poll (h : s.Inv) (hpolling : s.phase = .polling) {ready : List (Fin o.numPipes)}
    (hready : s.MayReport ready) {channels : MirroredRegistry (Fin o.numPipes)}
    {activeChannels_ : List (Fin o.numPipes)}
    (hpoll : s.channels.poll (ready.map fun p => ((s.channels.channel p).fd, POLLIN)) =
      some (channels, activeChannels_)) : s.Goes { s with channels, activeChannels_, phase := .events } := by
  have hround := h.started (by rw [hpolling]; decide)
  have hwithin : s.channels.registry.EventsWithin := fun p => by
    show Mask.Within (s.channels.channel p).events _
    rw [(hround.listening p).2]
    decide
  have hdelivered := MirroredRegistry.delivered hwithin hpoll
  have hactive : activeChannels_ = ready := by
    refine (List.map_injective_iff.mpr s.channels.mirrors.distinct) (hdelivered.active.trans ?_)
    rw [List.map_map]
    rfl
  subst hactive
  have hreported : ∀ p ∈ activeChannels_, channels.channel p = { s.channels.channel p with revents := POLLIN } :=
    fun p hp => (hdelivered.reported p POLLIN (List.mem_map.mpr ⟨p, hp, rfl⟩)).2
  have hsame : ∀ p, (channels.channel p).index = (s.channels.channel p).index ∧
      (channels.channel p).events = (s.channels.channel p).events := by
    intro p
    by_cases hp : p ∈ activeChannels_
    · rw [hreported p hp]
      exact ⟨rfl, rfl⟩
    · have hother : channels.channel p = s.channels.channel p := hdelivered.others p hp
      rw [hother]
      exact ⟨rfl, rfl⟩
  have hquit : s.inFlight ≠ 0 := fun hzero =>
    absurd ((hround.polling hpolling).symm.trans (hround.quit.mpr hzero)) Bool.false_ne_true
  have hne : activeChannels_ ≠ [] := fun hnil => by
    obtain ⟨p, hp⟩ := Tokens.exists_of_total_pos _ (Nat.pos_of_ne_zero hquit)
    exact absurd (hready.2 hnil p) hp.ne'
  have hremaining := hround.remaining_eq
  refine ⟨?_, ?_⟩
  · exact {
      events := fun p => (hsame p).2 ▸ h.events p
      eventsSize := h.eventsSize.trans_le (MirroredRegistry.eventsSize_poll hpoll)
      idle := fun hphase => absurd rfl hphase
      active := fun p hp => ⟨hready.1 p hp, by rw [hreported p hp]⟩
      nodup := hdelivered.nodup
      fresh := fun hzero => absurd ((h.fresh hzero).1.symm.trans hpolling) (by decide)
      inRound := fun _ => { hround with
        polling := fun hphase => by cases hphase
        main := fun hphase => by cases hphase
        listening := fun p =>
          ⟨(hsame p).1.trans (hround.listening p).1, (hsame p).2.trans (hround.listening p).2⟩ } }
  · have hbefore : s.potential = 3 * s.remaining := by
      rw [potential, hpolling]
    have hafter : potential { s with channels, activeChannels_, phase := .events } = 3 * s.remaining - 1 :=
      if_neg hne
    rw [hbefore, hafter]
    show 3 * s.remaining - 1 + budget o s.rounds + 1 ≤ 3 * s.remaining + budget o s.rounds
    omega

/-- The callback of a channel finds the byte that was reported. -/
theorem Inv.handleEvent (h : s.Inv) (hroom : o.numActive ≤ capacity) (hevents : s.phase = .events)
    {r : Except (Blocked o.numPipes) (State o)} (hstep : s.handleEvent capacity = some r) :
    ∃ t, r = .ok t ∧ s.Goes t := by
  have hround := h.started (by rw [hevents]; decide)
  unfold State.handleEvent at hstep
  split at hstep
  · cases hstep
  · rename_i p rest hactive
    obtain ⟨hbyte, hrevents⟩ := h.active p (hactive ▸ List.mem_cons_self)
    obtain ⟨hout, hnodup⟩ := List.nodup_cons.mp (hactive ▸ h.nodup)
    obtain ⟨t, ht, hpassed⟩ := readCallback_spec (s := { s with activeChannels_ := rest }) hbyte
      (hround.room.trans hroom)
    have hread : Channel.Handler.read ∈ Channel.handleEventWithGuard (s.channels.channel p).revents := by
      rw [hrevents]
      decide
    obtain rfl := (Option.some.inj hstep).symm.trans ((if_pos hread).trans ht)
    have hphase : t.phase = .events := hpassed.phase.trans hevents
    have hrest : t.activeChannels_ = rest := hpassed.activeChannels_
    have hchannels : t.channels = s.channels := hpassed.channels
    have hrounds : t.rounds = s.rounds := hpassed.rounds
    have hreads : t.g_reads = s.g_reads + 1 := hpassed.reads
    have hfired : t.g_fired + t.g_writes = s.g_fired + s.g_writes := hpassed.fired
    have hwritten : 0 < s.g_writes ∧ t.g_writes = s.g_writes - 1 ∧ t.inFlight = s.inFlight ∨
        s.g_writes ≤ 0 ∧ t.g_writes = s.g_writes ∧ t.inFlight + 1 = s.inFlight := hpassed.written
    have hsome : 0 < s.inFlight := hbyte.trans_le (s.pipes_le_inFlight p)
    have hinFlight := hround.inFlight
    have hwrites := hround.writes
    have hgoing : s.quit_ ≠ true := fun hquit => hsome.ne' (hround.quit.mp hquit)
    have hquit : t.quit_ = true ↔ t.inFlight = 0 := by
      refine hpassed.quit.trans ((or_iff_right hgoing).trans ?_)
      omega
    refine ⟨t, rfl, ?_, ?_⟩
    · exact {
        events := fun q => hchannels ▸ h.events q
        eventsSize := hchannels ▸ h.eventsSize
        idle := fun hne => absurd hphase hne
        active := fun q hq => by
          rw [hrest] at hq
          obtain ⟨hbyte', hrevents'⟩ := h.active q (hactive ▸ List.mem_cons_of_mem _ hq)
          exact ⟨hbyte'.trans_le (hpassed.others q (ne_of_mem_of_not_mem hq hout)), hchannels ▸ hrevents'⟩
        nodup := hrest ▸ hnodup
        fresh := fun hzero => absurd ((h.fresh (hrounds ▸ hzero)).1.symm.trans hevents) (by decide)
        inRound := fun _ => {
          inFlight := by omega
          fired := hfired.trans hround.fired
          writes := by omega
          room := by
            have hroom' := hround.room
            omega
          quit := hquit
          spent := fun hq => by
            have hzero := hquit.mp hq
            omega
          polling := fun hp => by cases hphase.symm.trans hp
          main := fun hp => by cases hphase.symm.trans hp
          listening := fun q => hchannels ▸ hround.listening q } }
    · have hremaining := hround.remaining_eq
      have hless : t.remaining = s.remaining - 1 := by
        unfold remaining at hremaining ⊢
        omega
      have hbefore : s.potential = 3 * s.remaining - 1 := by
        rw [potential, hevents]
        exact if_neg (by rw [hactive]; exact List.cons_ne_nil _ _)
      have hafter : t.potential ≤ 3 * t.remaining + 1 := by
        rw [potential, hphase]
        dsimp only
        split <;> omega
      rw [hbefore, hrounds]
      omega

/-- An iteration ends, and with it the round if the loop was told to quit. -/
theorem Inv.endIteration (h : s.Inv) (hevents : s.phase = .events) (hactive : s.activeChannels_ = []) :
    s.Goes { s with phase := if s.quit_ then .main else .polling } := by
  have hround := h.started (by rw [hevents]; decide)
  have hbefore : s.potential = 3 * s.remaining + 1 := by
    rw [potential, hevents]
    exact if_pos hactive
  refine ⟨?_, ?_⟩
  · exact { h with
      idle := fun _ => hactive
      fresh := fun hzero => absurd ((h.fresh hzero).1.symm.trans hevents) (by decide)
      inRound := fun _ => { hround with
        polling := fun hp => by
          have hp : (if s.quit_ = true then Phase.main else .polling) = .polling := hp
          split at hp
          · cases hp
          · rename_i hquit
            exact Bool.eq_false_iff.mpr hquit
        main := fun hp => by
          have hp : (if s.quit_ = true then Phase.main else .polling) = .main := hp
          split at hp
          · rename_i hquit
            exact hquit
          · cases hp } }
  · have hafter : potential { s with phase := if s.quit_ then .main else .polling } ≤ 3 * s.remaining := by
      cases s.quit_ with
      | true => exact Nat.zero_le _
      | false => exact le_rfl
    rw [hbefore]
    show potential { s with phase := if s.quit_ then .main else .polling } + budget o s.rounds + 1 ≤
      3 * s.remaining + 1 + budget o s.rounds
    omega

/-- No step blocks. -/
theorem Inv.step (h : s.Inv) (hroom : o.numActive ≤ capacity) {a : Label o.numPipes}
    {r : Except (Blocked o.numPipes) (State o)} (hstep : s.step capacity a = some r) :
    ∃ t, r = .ok t ∧ s.Goes t := by
  cases a with
  | runOnce =>
    obtain ⟨hmain, hstep⟩ := Option.ite_none_right_eq_some.mp hstep
    obtain ⟨t, ht, hgoes⟩ := h.runOnce hroom hmain
    exact ⟨t, (Option.some.inj hstep).symm.trans ht, hgoes⟩
  | poll ready =>
    obtain ⟨⟨hpolling, hready⟩, hstep⟩ := Option.ite_none_right_eq_some.mp hstep
    obtain ⟨⟨channels, activeChannels_⟩, hpoll, rfl⟩ := Option.map_eq_some_iff.mp hstep
    exact ⟨_, rfl, h.poll hpolling hready hpoll⟩
  | handleEvent =>
    obtain ⟨hevents, hstep⟩ := Option.ite_none_right_eq_some.mp hstep
    exact h.handleEvent hroom hevents hstep
  | endIteration =>
    obtain ⟨⟨hevents, hactive⟩, hstep⟩ := Option.ite_none_right_eq_some.mp hstep
    obtain rfl := Option.some.inj hstep
    exact ⟨_, rfl, h.endIteration hevents hactive⟩

/-- Some step can be taken: in `poll` a byte in the ring is reported. -/
theorem Inv.exists_step (h : s.Inv) : ∃ a r, s.step capacity a = some r := by
  generalize hphase : s.phase = phase
  cases phase with
  | main => exact ⟨.runOnce, _, if_pos hphase⟩
  | polling =>
    have hround := h.started (by rw [hphase]; decide)
    have hsome : 0 < s.inFlight := Nat.pos_of_ne_zero fun hzero =>
      absurd ((hround.polling hphase).symm.trans (hround.quit.mpr hzero)) Bool.false_ne_true
    obtain ⟨p, hp⟩ := Tokens.exists_of_total_pos _ hsome
    have hmask : Mask.Within POLLIN ((s.channels.channel p).events ||| POLLERR ||| POLLHUP) := by
      rw [(hround.listening p).2]
      decide
    obtain ⟨channels, activeChannels_, hpoll⟩ :=
      MirroredRegistry.exists_poll (hround.listening p).1 h.eventsSize hmask
    have hready : s.MayReport [p] := ⟨by simpa using hp, fun hnil => absurd hnil (List.cons_ne_nil _ _)⟩
    exact ⟨.poll [p], _, (if_pos ⟨hphase, hready⟩).trans (Option.map_eq_some_iff.mpr ⟨_, hpoll, rfl⟩)⟩
  | events =>
    generalize hactive : s.activeChannels_ = activeChannels_
    cases activeChannels_ with
    | nil => exact ⟨.endIteration, _, if_pos ⟨hphase, hactive⟩⟩
    | cons p rest =>
      have hsome : ∃ r, s.handleEvent capacity = some r := by
        unfold State.handleEvent
        rw [hactive]
        exact ⟨_, rfl⟩
      obtain ⟨r, hr⟩ := hsome
      exact ⟨.handleEvent, r, (if_pos hphase).trans hr⟩

/-- A round that is over: the ring is empty, and what was fired was read. -/
structure Completed (s : State o) : Prop where
  pipes : ∀ p, s.pipes p = 0
  reads : s.g_reads = o.reads
  fired : s.g_fired = o.reads

theorem InRound.completed (h : s.InRound) (hquit : s.quit_ = true) : s.Completed := by
  have hempty := h.quit.mp hquit
  have hspent := h.spent hquit
  have hinFlight := h.inFlight
  have hfired := h.fired
  have hwrites := h.writes
  have hreads : s.g_reads = o.reads := by
    unfold Options.reads
    omega
  exact ⟨(Tokens.total_eq_zero_iff _).mp hempty, hreads, by omega⟩

end State

/-! ### Every run -/

variable {o : Options} {capacity : Nat}

theorem rounds_inv (fd : Fin o.numPipes ↪ Int) (hroom : o.numActive ≤ capacity)
    (as : List (State.Label o.numPipes)) :
    (rounds o capacity).Always (Machine.Holds State.Inv) (.ok (.init fd)) as := by
  refine Machine.Always.of_step (State.init_inv fd) fun u a v hu huv => ?_
  cases u with
  | error e => cases huv
  | ok s =>
    obtain ⟨t, rfl, hgoes⟩ := State.Inv.step hu hroom huv
    exact hgoes.inv

/-- Two pipes, one active, and one write. -/
def two : Options := ⟨2, 1, 1, by decide, by decide⟩

def twoFds : Fin two.numPipes ↪ Int := ⟨fun p => p.val, fun _ _ h => Fin.ext (Int.ofNat.inj h)⟩

/-- A round of two pipes. -/
def twoRound : List (State.Label two.numPipes) :=
  [.runOnce, .poll [⟨0, by decide⟩], .handleEvent, .endIteration,
    .poll [⟨1, by decide⟩], .handleEvent, .endIteration]

/-- **A round is complete**: with pairs that hold a byte for each active pipe, in whatever order and in whatever
portions the poller reports the channels, no `recv` and no `send` ever blocks; after each round every pair is empty
and `numActive + numWrites` bytes were fired and read, or `numActive` if there are no writes; and at the end all
channels are removed without a failed assertion. -/
theorem rounds_complete (fd : Fin o.numPipes ↪ Int) (hroom : o.numActive ≤ capacity)
    (as : List (State.Label o.numPipes)) :
    (rounds o capacity).Always
      (Machine.Holds fun s => s.phase = .main →
        (0 < s.rounds → s.Completed) ∧ ∃ r, s.finish = .ok r ∧ ∀ p, r.hasChannel p = false)
      (.ok (.init fd)) as := by
  refine (rounds_inv fd hroom as).mono fun u hu => ?_
  cases u with
  | error e => exact hu
  | ok s =>
    intro hmain
    refine ⟨fun hpos => ?_, s.finish_ok⟩
    have hround := State.Inv.inRound hu hpos
    exact hround.completed (hround.main hmain)

theorem rounds_complete_two : (rounds two 1).Always
    (Machine.Holds fun s => s.phase = .main →
      (0 < s.rounds → s.Completed) ∧ ∃ r, s.finish = .ok r ∧ ∀ p, r.hasChannel p = false)
    (.ok (.init twoFds)) twoRound :=
  rounds_complete twoFds (by decide) twoRound

/-- **A round ends**: in every state of every run some step can be taken, and the steps up to there are no more than
one for each round begun and three for each byte that it reads. -/
theorem rounds_end (fd : Fin o.numPipes ↪ Int) (hroom : o.numActive ≤ capacity)
    {as : List (State.Label o.numPipes)} {s : State o}
    (hrun : (rounds o capacity).run (.ok (.init fd)) as = some (.ok s)) :
    (∃ a r, s.step capacity a = some r) ∧ as.length ≤ (3 * o.reads + 1) * s.rounds := by
  have hinv : State.Inv s := (rounds_inv fd hroom as).last hrun
  refine ⟨hinv.exists_step, ?_⟩
  have hpaid := Machine.ofExcept_length_le (I := State.Inv) (φ := State.potential)
    (ψ := fun s => State.budget o s.rounds) (fun s a t hs hstep => ?_) (State.init_inv fd) hrun
  · have hstart : State.potential (State.init fd) = 0 := rfl
    have hfirst : State.budget o (State.init fd).rounds = 0 := Nat.mul_zero _
    rw [hstart, hfirst] at hpaid
    exact (Nat.le_add_right ..).trans (hpaid.trans_eq (Nat.zero_add _))
  · obtain ⟨t', ht, hgoes⟩ := hs.step hroom hstep
    obtain rfl := Except.ok.inj ht
    exact ⟨hgoes.inv, hgoes.paid⟩

theorem rounds_end_two : ∃ s : State two,
    (rounds two 1).run (.ok (.init twoFds)) twoRound = some (.ok s) ∧
      (∃ a r, s.step 1 a = some r) ∧ twoRound.length ≤ (3 * two.reads + 1) * s.rounds :=
  ⟨_, rfl, rounds_end twoFds (by decide) rfl⟩

end Siren.Bench
