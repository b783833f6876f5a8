import Siren.Base.Types
import Siren.Lib.Machine
import Siren.Lib.Tokens

/-!
# The end of the ping-pong client

The sessions of `client.cc` are on several threads, and count themselves in `numConnected_`: `onConnect` adds one
and looks whether all are connected, `onDisconnect` takes one off and looks whether none is, to report and to queue
`Client::quit`. Each of the four accesses is atomic, but other sessions may come between an addition and the look
after it. `numConnected_` has no initializer, and before C++20 it starts with what its memory holds.

A session connects once at most: no retry is enabled, and its connection calls back once when it is established and
once when it closes.

* `counts_right_iff`: the client quits only when nobody is connected, and does not miss it, in every interleaving
  exactly if the memory held 0.
-/

namespace Siren.Client

/-- Where the thread of a session is with it. -/
inductive Place where
  | idle
  /-- In `onConnect`, between `fetch_add` and `load`. -/
  | connecting
  | connected
  /-- In `onDisconnect`, between `fetch_sub` and `load`. -/
  | disconnecting
  | disconnected
  deriving DecidableEq

/-- `Client`, of `n` sessions. -/
structure State (n : Nat) where
  numConnected_ : BitVec 32
  place : Fin n → Place
  /-- History: how many sessions were connected each time that "all connected" was reported. -/
  reported : List Nat
  /-- History: how many were each time that `Client::quit` was queued. -/
  quits : List Nat

/-- Whether a session in this place is connected. -/
def Place.weight : Place → Nat
  | .idle | .disconnecting | .disconnected => 0
  | .connecting | .connected => 1

namespace State

variable {n : Nat}

/-- The sessions are made and have not connected, in memory that held `v`. -/
def init (v : BitVec 32) : State n := ⟨v, fun _ => .idle, [], []⟩

variable (s : State n)

/-- How many sessions are connected. -/
def connected : Nat := Tokens.total fun i => (s.place i).weight

/-- `numConnected_.fetch_add(1)` -/
def fetchAdd (i : Fin n) : State n :=
  { s with numConnected_ := s.numConnected_ + 1, place := Function.update s.place i .connecting }

/-- The rest of `onConnect`. -/
def reportConnected (i : Fin n) : State n :=
  { s with
    place := Function.update s.place i .connected
    reported := if s.numConnected_ = BitVec.ofNat 32 n then s.reported ++ [s.connected] else s.reported }

/-- `numConnected_.fetch_sub(1)`, in the first line that `onDisconnect` logs. -/
def fetchSub (i : Fin n) : State n :=
  { s with numConnected_ := s.numConnected_ - 1, place := Function.update s.place i .disconnecting }

/-- The rest of `onDisconnect`. -/
def queueQuit (i : Fin n) : State n :=
  { s with
    place := Function.update s.place i .disconnected
    quits := if s.numConnected_ = 0 then s.quits ++ [s.connected] else s.quits }

inductive Label (n : Nat) where
  | fetchAdd (i : Fin n)
  | reportConnected (i : Fin n)
  | fetchSub (i : Fin n)
  | queueQuit (i : Fin n)

def Enabled : Label n → Prop
  | .fetchAdd i => s.place i = .idle
  | .reportConnected i => s.place i = .connecting
  | .fetchSub i => s.place i = .connected
  | .queueQuit i => s.place i = .disconnecting

instance (a : Label n) : Decidable (s.Enabled a) := by
  cases a <;> unfold Enabled <;> infer_instance

def effect : Label n → State n
  | .fetchAdd i => s.fetchAdd i
  | .reportConnected i => s.reportConnected i
  | .fetchSub i => s.fetchSub i
  | .queueQuit i => s.queueQuit i

/-- `Client::quit` was queued only when no session was connected, and was if all that were are disconnected; and so
with the report that all are connected. -/
structure Right : Prop where
  quits : ∀ k ∈ s.quits, k = 0
  quitting : (∀ i, s.place i = .idle ∨ s.place i = .disconnected) → (∃ i, s.place i = .disconnected) →
    s.quits ≠ []
  reported : ∀ k ∈ s.reported, k = n
  reporting : (∀ i, s.place i = .connected) → s.reported ≠ []

end State

/-- The sessions, in any interleaving. -/
def sessions (n : Nat) : Machine (State n) (State.Label n) := .guarded State.Enabled State.effect

/-! ### Counting -/

theorem Place.weight_le (p : Place) : p.weight ≤ 1 := by
  cases p <;> decide

namespace State

variable {n : Nat} {s t : State n} {i : Fin n}

theorem connected_le (s : State n) : s.connected ≤ n :=
  (Tokens.total_le_card _ fun i => (s.place i).weight_le).trans_eq (Fintype.card_fin n)

/-- What the number of connected sessions becomes when one moves. -/
theorem connected_update (s : State n) (i : Fin n) (p : Place) :
    Tokens.total (fun j => (Function.update s.place i p j).weight) + (s.place i).weight = s.connected + p.weight := by
  have hplaces : (fun j => (Function.update s.place i p j).weight) =
      Function.update (fun j => (s.place j).weight) i p.weight := by
    funext j
    exact Function.apply_update (fun _ => Place.weight) s.place i p j
  rw [hplaces]
  exact Tokens.total_update _ i p.weight

theorem place_update_of_ne {p q : Place} (hpq : s.place i = p) (hne : p ≠ q) {j : Fin n} (hj : s.place j = q)
    (r : Place) : Function.update s.place i r j = q := by
  have hji : j ≠ i := by
    rintro rfl
    exact hne (hpq.symm.trans hj)
  rw [Function.update_of_ne hji, hj]

/-- From memory that held 0. Whoever came last is not through yet, or has seen it. -/
structure Inv (s : State n) : Prop where
  numConnected_ : s.numConnected_ = BitVec.ofNat 32 s.connected
  quits : ∀ k ∈ s.quits, k = 0
  reported : ∀ k ∈ s.reported, k = n
  last : s.connected = 0 → (∃ i, s.place i = .disconnected) → s.quits ≠ [] ∨ ∃ i, s.place i = .disconnecting
  all : s.connected = n → s.reported ≠ [] ∨ ∃ i, s.place i = .connecting

theorem init_inv (hpos : 0 < n) : Inv (init 0 : State n) := by
  have hnone : connected (init 0 : State n) = 0 := (Tokens.total_eq_zero_iff _).mpr fun _ => rfl
  refine ⟨?_, ?_, ?_, ?_, ?_⟩
  · rw [hnone]
    rfl
  · exact fun k hk => absurd hk List.not_mem_nil
  · exact fun k hk => absurd hk List.not_mem_nil
  · rintro - ⟨i, hi⟩
    cases hi
  · omega

theorem Inv.fetchAdd (h : s.Inv) (hi : s.place i = .idle) : (s.fetchAdd i).Inv := by
  have hmore : (s.fetchAdd i).connected = s.connected + 1 := by
    have hupdate := s.connected_update i .connecting
    rw [hi] at hupdate
    exact hupdate
  refine ⟨?_, h.quits, h.reported, fun hnone => ?_, fun _ => Or.inr ⟨i, Function.update_self ..⟩⟩
  · rw [hmore, BitVec.ofNat_add, ← h.numConnected_]
    rfl
  · omega

theorem Inv.fetchSub (h : s.Inv) (hi : s.place i = .connected) : (s.fetchSub i).Inv := by
  have hless : (s.fetchSub i).connected + 1 = s.connected := by
    have hupdate := s.connected_update i .disconnecting
    rw [hi] at hupdate
    exact hupdate
  have hle := s.connected_le
  refine ⟨?_, h.quits, h.reported, fun _ _ => Or.inr ⟨i, Function.update_self ..⟩, fun hall => ?_⟩
  · show s.numConnected_ - 1 = _
    rw [h.numConnected_, ← hless, BitVec.ofNat_add]
    exact BitVec.add_sub_cancel ..
  · omega

/-- The number that `load` gives is that of the connected sessions. -/
theorem Inv.load_eq_iff (h : s.Inv) (hint : n ≤ intMax) {k : Nat} (hk : k ≤ n) :
    s.numConnected_ = BitVec.ofNat 32 k ↔ s.connected = k := by
  have hle := s.connected_le
  rw [h.numConnected_, ← BitVec.toNat_inj, BitVec.toNat_ofNat, BitVec.toNat_ofNat]
  unfold intMax at hint
  omega

theorem Inv.reportConnected (h : s.Inv) (hint : n ≤ intMax) (hi : s.place i = .connecting) :
    (s.reportConnected i).Inv := by
  have hsame : (s.reportConnected i).connected = s.connected := by
    have hupdate := s.connected_update i .connected
    rw [hi] at hupdate
    exact Nat.add_right_cancel hupdate
  have hload := h.load_eq_iff hint le_rfl
  refine ⟨?_, h.quits, ?_, ?_, ?_⟩
  · rw [hsame]
    exact h.numConnected_
  · intro k hk
    unfold State.reportConnected at hk
    split at hk
    · rename_i hall
      rcases List.mem_append.mp hk with hk | hk
      · exact h.reported k hk
      · rw [List.mem_singleton.mp hk]
        exact hload.mp hall
    · exact h.reported k hk
  · rintro hnone ⟨j, hj⟩
    have hji : j ≠ i := by
      rintro rfl
      cases (Function.update_self ..).symm.trans hj
    rw [hsame] at hnone
    rcases h.last hnone ⟨j, (Function.update_of_ne hji ..).symm.trans hj⟩ with hquits | ⟨l, hl⟩
    · exact Or.inl hquits
    · exact Or.inr ⟨l, place_update_of_ne hi (by decide) hl _⟩
  · intro hall
    rw [hsame] at hall
    refine Or.inl ?_
    unfold State.reportConnected
    rw [if_pos (hload.mpr hall)]
    exact List.append_ne_nil_of_right_ne_nil _ (List.cons_ne_nil _ _)

theorem Inv.queueQuit (h : s.Inv) (hint : n ≤ intMax) (hi : s.place i = .disconnecting) : (s.queueQuit i).Inv := by
  have hsame : (s.queueQuit i).connected = s.connected := by
    have hupdate := s.connected_update i .disconnected
    rw [hi] at hupdate
    exact hupdate
  have hload : s.numConnected_ = 0 ↔ s.connected = 0 := h.load_eq_iff hint (Nat.zero_le n)
  refine ⟨?_, ?_, h.reported, ?_, ?_⟩
  · rw [hsame]
    exact h.numConnected_
  · intro k hk
    unfold State.queueQuit at hk
    split at hk
    · rename_i hnone
      rcases List.mem_append.mp hk with hk | hk
      · exact h.quits k hk
      · rw [List.mem_singleton.mp hk]
        exact hload.mp hnone
    · exact h.quits k hk
  · rintro hnone -
    rw [hsame] at hnone
    refine Or.inl ?_
    unfold State.queueQuit
    rw [if_pos (hload.mpr hnone)]
    exact List.append_ne_nil_of_right_ne_nil _ (List.cons_ne_nil _ _)
  · intro hall
    rw [hsame] at hall
    rcases h.all hall with hreported | ⟨j, hj⟩
    · exact Or.inl hreported
    · exact Or.inr ⟨j, place_update_of_ne hi (by decide) hj _⟩

theorem Inv.step (h : s.Inv) (hint : n ≤ intMax) {a : Label n} (hstep : (sessions n).step s a = some t) : t.Inv := by
  obtain ⟨henabled, rfl⟩ := Machine.guarded_step_eq_some.mp hstep
  cases a with
  | fetchAdd i => exact h.fetchAdd henabled
  | reportConnected i => exact h.reportConnected hint henabled
  | fetchSub i => exact h.fetchSub henabled
  | queueQuit i => exact h.queueQuit hint henabled

theorem Inv.right (h : s.Inv) : s.Right where
  quits := h.quits
  quitting := fun hquiet hsome => by
    have hnone : s.connected = 0 := (Tokens.total_eq_zero_iff _).mpr fun i => by
      rcases hquiet i with hi | hi <;> rw [hi] <;> rfl
    rcases h.last hnone hsome with hquits | ⟨i, hi⟩
    · exact hquits
    · rcases hquiet i with hi' | hi' <;> cases hi.symm.trans hi'
  reported := h.reported
  reporting := fun hopen => by
    have hall : s.connected = n := by
      have hones : (fun i => (s.place i).weight) = fun _ => 1 := by
        funext i
        rw [hopen i]
        rfl
      unfold connected Tokens.total
      rw [hones]
      simp
    rcases h.all hall with hreported | ⟨i, hi⟩
    · exact hreported
    · cases (hopen i).symm.trans hi

theorem reaches_effect {a : Label n} (h : s.Enabled a) : (sessions n).Reaches s (s.effect a) :=
  Machine.Reaches.of_enabled h

/-- A session that comes and goes while nobody moves. -/
theorem reaches_round (hi : s.place i = .idle) :
    (sessions n).Reaches s ((((s.fetchAdd i).reportConnected i).fetchSub i).queueQuit i) := by
  have hadd : (sessions n).Reaches s (s.fetchAdd i) := reaches_effect (a := .fetchAdd i) hi
  have hreport (t : State n) (ht : t.place i = .connecting) : (sessions n).Reaches t (t.reportConnected i) :=
    reaches_effect (a := .reportConnected i) ht
  have hsub (t : State n) (ht : t.place i = .connected) : (sessions n).Reaches t (t.fetchSub i) :=
    reaches_effect (a := .fetchSub i) ht
  have hquit (t : State n) (ht : t.place i = .disconnecting) : (sessions n).Reaches t (t.queueQuit i) :=
    reaches_effect (a := .queueQuit i) ht
  refine ((hadd.trans (hreport _ ?_)).trans (hsub _ ?_)).trans (hquit _ ?_)
  · exact Function.update_self ..
  · exact Function.update_self ..
  · exact Function.update_self ..

/-- The first session alone, when the memory did not hold 0: nobody is told to quit. -/
theorem exists_missed {v : BitVec 32} (hv : v ≠ 0) (hpos : 0 < n) :
    ∃ s, (sessions n).Reaches (init v) s ∧ ¬ s.Right := by
  obtain ⟨i⟩ : Nonempty (Fin n) := ⟨⟨0, hpos⟩⟩
  refine ⟨_, reaches_round (i := i) rfl, fun hright => ?_⟩
  have hload : v + 1 - 1 = v := BitVec.add_sub_cancel ..
  refine hright.quitting (fun j => ?_) ⟨i, Function.update_self ..⟩ (if_neg fun h => hv (hload.symm.trans h))
  by_cases hj : j = i
  · subst hj
    exact Or.inr (Function.update_self ..)
  · refine Or.inl ?_
    show Function.update (Function.update (Function.update (Function.update _ i _) i _) i _) i _ j = _
    rw [Function.update_of_ne hj, Function.update_of_ne hj, Function.update_of_ne hj, Function.update_of_ne hj]
    rfl

end State

/-- **The client quits**: in every interleaving of any number of sessions, `Client::quit` is queued only when no
session is connected, and has been when all that were connected are disconnected; and "all connected" is reported
only when all are, and has been when all are. That is so exactly if the memory of `numConnected_` held 0. -/
theorem counts_right_iff {n : Nat} (hpos : 0 < n) (hint : n ≤ intMax) (v : BitVec 32) :
    (∀ as, (sessions n).Always State.Right (.init v) as) ↔ v = 0 := by
  constructor
  · intro hright
    by_contra hv
    obtain ⟨s, ⟨as, hrun⟩, hwrong⟩ := State.exists_missed hv hpos
    exact hwrong ((hright as).last hrun)
  · rintro rfl as
    have hinv : (sessions n).Always State.Inv (.init 0) as :=
      .of_step (State.init_inv hpos) fun _ _ _ h hstep => h.step hint hstep
    exact hinv.mono fun _ h => h.right

theorem counts_right_two : (∀ as, (sessions 2).Always State.Right (.init 0) as) ↔ (0 : BitVec 32) = 0 :=
  counts_right_iff (by decide) (by decide) 0

/-- Two sessions that disconnect at the same time both tell the client to quit. -/
example : ((sessions 2).run (.init 0) [.fetchAdd 0, .reportConnected 0, .fetchAdd 1, .reportConnected 1,
    .fetchSub 0, .fetchSub 1, .queueQuit 0, .queueQuit 1]).map (fun s => (s.reported, s.quits)) =
      some ([2], [0, 0]) := by
  decide

end Siren.Client
