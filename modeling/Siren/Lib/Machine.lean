import Mathlib.Data.List.Infix
import Mathlib.Tactic.TypeStar

/-!
# Machines, runs and conditional invariants

A `Machine` says what each label does in each state (`none` where it cannot happen). The labels carry
every choice of the environment, so a list of labels is one run, and quantifying over lists of labels
is quantifying over all interleavings.

`Always P s as` says that `P` holds in every state the run passes through, `Meets C s as` that each
step taken satisfies the condition `C` on the state before it and its label. The two rules used most:

* `Always.of_invariant`: an invariant that every step meeting `C` keeps holds all along a run that
  meets `C`;
* `always_iff_meets`: if in addition a step that misses `C` always breaks `P`, then `P` holds all
  along a run exactly when the run meets `C`;
* `ExactCondition.of_invariant`: the same where a step that misses `C` breaks `P` only some steps later.

`collect` gathers what the steps of a run add to a list.
`Simulates` relates two machines step by step, and so run by run. `ofExcept` is the machine of a step
that may stop the program at a failed assertion, `guarded` that of steps given by a guard and an effect;
`recording` adds a history to the former.
`Reaches` says that some run leads from one state to another.
-/

/-- What each label does in each state, `none` where it cannot happen. -/
structure Machine (σ α : Type*) where
  step : σ → α → Option σ

namespace Machine

variable {σ α : Type*} (M : Machine σ α)

/-- The state after a list of labels, when each of them can happen. -/
def run : σ → List α → Option σ
  | s, [] => some s
  | s, a :: as => (M.step s a).bind fun t => run t as

/-- `P` holds in every state the run passes through. -/
def Always (P : σ → Prop) (s : σ) (as : List α) : Prop :=
  ∀ pre t, pre <+: as → M.run s pre = some t → P t

/-- Every step the run takes satisfies `C` on the state before it and its label. -/
def Meets (C : σ → α → Prop) (s : σ) (as : List α) : Prop :=
  ∀ pre a t u, pre ++ [a] <+: as → M.run s pre = some t → M.step t a = some u → C t a

@[simp] theorem run_nil (s : σ) : M.run s [] = some s := rfl

@[simp] theorem run_cons (s : σ) (a : α) (as : List α) :
    M.run s (a :: as) = (M.step s a).bind fun t => M.run t as := rfl

variable {M} {P Q I : σ → Prop} {C D : σ → α → Prop} {s t : σ} {a : α} {as : List α}

@[simp] theorem always_nil : M.Always P s [] ↔ P s := by
  constructor
  · intro h
    exact h [] s List.prefix_rfl rfl
  · intro h pre t hpre hrun
    obtain rfl := List.prefix_nil.mp hpre
    obtain rfl := Option.some.inj hrun
    exact h

theorem always_cons :
    M.Always P s (a :: as) ↔ P s ∧ ∀ t, M.step s a = some t → M.Always P t as := by
  constructor
  · intro h
    refine ⟨h [] s (List.nil_prefix) rfl, fun t ht pre u hpre hrun => ?_⟩
    exact h (a :: pre) u (List.cons_prefix_cons.mpr ⟨rfl, hpre⟩) (by simp [ht, hrun])
  · rintro ⟨h0, h⟩ pre u hpre hrun
    cases pre with
    | nil => exact Option.some.inj hrun ▸ h0
    | cons b pre =>
      obtain ⟨rfl, htail⟩ := List.cons_prefix_cons.mp hpre
      obtain ⟨t, ht, hrun⟩ := Option.bind_eq_some_iff.mp hrun
      exact h t ht pre u htail hrun

@[simp] theorem meets_nil : M.Meets C s [] := by
  intro pre a t u hpre
  simp at hpre

theorem meets_cons :
    M.Meets C s (a :: as) ↔ ∀ t, M.step s a = some t → C s a ∧ M.Meets C t as := by
  constructor
  · intro h t ht
    refine ⟨h [] a s t (by simp) rfl ht, fun pre b u v hpre hrun hstep => ?_⟩
    exact h (a :: pre) b u v (by simpa using hpre) (by simp [ht, hrun]) hstep
  · intro h pre b u v hpre hrun hstep
    cases pre with
    | nil =>
      obtain ⟨rfl, -⟩ := List.cons_prefix_cons.mp hpre
      obtain rfl := Option.some.inj hrun
      exact (h v hstep).1
    | cons c pre =>
      obtain ⟨rfl, htail⟩ := List.cons_prefix_cons.mp hpre
      obtain ⟨t, ht, hrun⟩ := Option.bind_eq_some_iff.mp hrun
      exact (h t ht).2 pre b u v htail hrun hstep

theorem Meets.cons (hstep : M.step s a = some t) (hC : C s a) (hrest : M.Meets C t as) :
    M.Meets C s (a :: as) := by
  refine meets_cons.mpr fun u hu => ?_
  obtain rfl := Option.some.inj (hstep.symm.trans hu)
  exact ⟨hC, hrest⟩

theorem Always.head (h : M.Always P s as) : P s :=
  h [] s List.nil_prefix rfl

/-- The last state of a run along which `P` always holds satisfies `P`. -/
theorem Always.last (h : M.Always P s as) (hrun : M.run s as = some t) : P t :=
  h as t List.prefix_rfl hrun

theorem Always.mono (hPQ : ∀ s, P s → Q s) (h : M.Always P s as) : M.Always Q s as :=
  fun pre t hpre hrun => hPQ t (h pre t hpre hrun)

/-- An invariant kept by every step that satisfies `C` holds all along a run that meets `C`. -/
theorem Always.of_invariant (h0 : I s)
    (hstep : ∀ s a t, I s → C s a → M.step s a = some t → I t)
    (hmeets : M.Meets C s as) : M.Always I s as := by
  induction as generalizing s with
  | nil => exact always_nil.mpr h0
  | cons a as ih =>
    refine always_cons.mpr ⟨h0, fun t ht => ?_⟩
    obtain ⟨hC, hrest⟩ := meets_cons.mp hmeets t ht
    exact ih (hstep s a t h0 hC ht) hrest

/-- An invariant kept by every step holds all along every run. -/
theorem Always.of_step (h0 : I s) (hstep : ∀ s a t, I s → M.step s a = some t → I t) :
    M.Always I s as :=
  Always.of_invariant (C := fun _ _ => True) h0 (fun s a t h _ => hstep s a t h)
    fun _ _ _ _ _ _ _ => trivial

/-- An invariant kept by every step holds in every reached state. -/
theorem run_invariant (hstep : ∀ s a t, I s → M.step s a = some t → I t) (h0 : I s)
    (hrun : M.run s as = some t) : I t :=
  (Always.of_step h0 hstep).last hrun

/-- When an invariant implies `P`, steps meeting `C` keep it, and a step that misses `C` breaks `P`,
the runs along which `P` always holds are exactly those that meet `C`. -/
theorem always_iff_meets (hP : ∀ s, I s → P s)
    (hkeep : ∀ s a t, I s → C s a → M.step s a = some t → I t)
    (hbreak : ∀ s a t, I s → ¬ C s a → M.step s a = some t → ¬ P t) (h0 : I s) :
    M.Always P s as ↔ M.Meets C s as := by
  constructor
  · intro h
    induction as generalizing s with
    | nil => exact meets_nil
    | cons a as ih =>
      refine meets_cons.mpr fun t ht => ?_
      have hrest := (always_cons.mp h).2 t ht
      have hC : C s a := by
        by_contra hC
        exact hbreak s a t h0 hC ht hrest.head
      exact ⟨hC, ih (hkeep s a t h0 hC ht) hrest⟩
  · intro h
    exact (Always.of_invariant h0 hkeep h).mono hP

/-- A condition that every step meets under an invariant is met by every run. -/
theorem Meets.of_invariant (h0 : I s) (hC : ∀ s a t, I s → M.step s a = some t → C s a)
    (hkeep : ∀ s a t, I s → M.step s a = some t → I t) : M.Meets C s as := by
  intro pre a t u hpre hrun hstep
  exact hC t a u (run_invariant hkeep h0 hrun) hstep

/-- A condition on the labels alone. -/
theorem Meets.of_forall_mem {D : α → Prop} (h : ∀ a ∈ as, D a) : M.Meets (fun _ a => D a) s as :=
  fun _ _ _ _ hpre _ _ => h _ (hpre.subset (List.mem_append_right _ List.mem_cons_self))

/-- A condition that steps meeting another one meet under its invariant. -/
theorem Meets.imp_of_invariant (h0 : I s)
    (hstep : ∀ s a t, I s → C s a → M.step s a = some t → I t)
    (hCD : ∀ s a, I s → C s a → D s a) (hmeets : M.Meets C s as) : M.Meets D s as := by
  induction as generalizing s with
  | nil => exact meets_nil
  | cons a as ih =>
    refine meets_cons.mpr fun t ht => ?_
    obtain ⟨hC, hrest⟩ := meets_cons.mp hmeets t ht
    exact ⟨hCD s a h0 hC, ih (hstep s a t h0 hC ht) hrest⟩

/-! ### Reachability -/

variable (M) in
/-- Some run leads from `s` to `t`. -/
def Reaches (s t : σ) : Prop := ∃ as, M.run s as = some t

theorem run_append (as bs : List α) :
    M.run s (as ++ bs) = (M.run s as).bind fun t => M.run t bs := by
  induction as generalizing s with
  | nil => rfl
  | cons a as ih =>
    rw [List.cons_append, run_cons, run_cons, Option.bind_assoc]
    congr 1
    funext t
    exact ih

theorem Reaches.refl : M.Reaches s s := ⟨[], rfl⟩

theorem Reaches.trans {u : σ} (h : M.Reaches s t) (h' : M.Reaches t u) : M.Reaches s u := by
  obtain ⟨as, has⟩ := h
  obtain ⟨bs, hbs⟩ := h'
  exact ⟨as ++ bs, by rw [run_append, has, Option.bind_some, hbs]⟩

theorem Reaches.of_step (h : M.step s a = some t) : M.Reaches s t :=
  ⟨[a], by simp [h]⟩

theorem Reaches.invariant (hstep : ∀ s a t, I s → M.step s a = some t → I t) (h : M.Reaches s t)
    (h0 : I s) : I t := by
  obtain ⟨as, has⟩ := h
  exact run_invariant hstep h0 has

/-- A run that does not meet a condition goes through a step that misses it. -/
theorem exists_miss (hmeets : ¬ M.Meets C s as) (hrun : M.run s as = some t) :
    ∃ u a v, M.Reaches s u ∧ M.step u a = some v ∧ ¬ C u a ∧ M.Reaches v t := by
  induction as generalizing s with
  | nil => exact absurd meets_nil hmeets
  | cons a as ih =>
    obtain ⟨v, hv, hrun⟩ := Option.bind_eq_some_iff.mp hrun
    by_cases hC : C s a
    · have hrest : ¬ M.Meets C v as := fun hrest => hmeets (.cons hv hC hrest)
      obtain ⟨u, b, w, hu, hstep, hmiss, hw⟩ := ih hrest hrun
      exact ⟨u, b, w, (Reaches.of_step hv).trans hu, hstep, hmiss, hw⟩
    · exact ⟨s, a, v, .refl, hv, hC, as, hrun⟩

/-! ### Exact conditions -/

variable (M) in
/-- `C` is what the steps have to meet for `P`: every run from `s` that meets `C` keeps `P`, and after a
step that misses `C` the machine can go on to a state without `P`. -/
structure ExactCondition (C : σ → α → Prop) (P : σ → Prop) (s : σ) : Prop where
  keeps : ∀ as, M.Meets C s as → M.Always P s as
  breaks : ∀ as t a u, M.run s as = some t → M.step t a = some u → ¬ C t a →
    ∃ v, M.Reaches u v ∧ ¬ P v

/-- From an invariant `J` of every step and one, `I`, of the steps that meet `C`. -/
theorem ExactCondition.of_invariant {J : σ → Prop} (hJ0 : J s) (hI0 : I s)
    (hJ : ∀ s a t, J s → M.step s a = some t → J t)
    (hI : ∀ s a t, J s → I s → C s a → M.step s a = some t → I t)
    (hP : ∀ s, J s → I s → P s)
    (hbreak : ∀ s a t, J s → ¬ C s a → M.step s a = some t → ∃ u, M.Reaches t u ∧ ¬ P u) :
    M.ExactCondition C P s where
  keeps as hmeets := by
    refine (Always.of_invariant (I := fun s => J s ∧ I s) ⟨hJ0, hI0⟩ ?_ hmeets).mono
      fun s h => hP s h.1 h.2
    intro s a t h hC hstep
    exact ⟨hJ s a t h.1 hstep, hI s a t h.1 h.2 hC hstep⟩
  breaks as t a u hrun hstep hC := hbreak t a u (run_invariant hJ hJ0 hrun) hC hstep

/-! ### Lists collected along a run -/

variable {β : Type*} {add : σ → α → List β}

variable (M) in
/-- What the steps of a run add to a list, one after the other. -/
def collect (add : σ → α → List β) : σ → List α → List β
  | _, [] => []
  | s, a :: as => add s a ++ ((M.step s a).map fun t => collect add t as).getD []

theorem collect_cons (h : M.step s a = some t) :
    M.collect add s (a :: as) = add s a ++ M.collect add t as := by
  rw [collect, h, Option.map_some, Option.getD_some]

/-- A relation of the state to the list collected so far, which every step keeps. -/
theorem run_collect {J : σ → List β → Prop} {l : List β}
    (hstep : ∀ s a t l, J s l → M.step s a = some t → J t (l ++ add s a)) (h0 : J s l)
    (hrun : M.run s as = some t) : J t (l ++ M.collect add s as) := by
  induction as generalizing s l with
  | nil =>
    obtain rfl := Option.some.inj hrun
    rwa [collect, List.append_nil]
  | cons a as ih =>
    obtain ⟨u, hu, hrun⟩ := Option.bind_eq_some_iff.mp hrun
    rw [collect_cons hu, ← List.append_assoc]
    exact ih (hstep s a u l h0 hu) hrun

theorem of_ite_eq_some {p : Prop} [Decidable p] (h : (if p then some s else none) = some t) : p ∧ s = t := by
  obtain ⟨hp, hs⟩ := Option.ite_none_right_eq_some.mp h
  exact ⟨hp, Option.some.inj hs⟩

section Guarded

variable {enabled : σ → α → Prop} [∀ s a, Decidable (enabled s a)] {effect : σ → α → σ}

/-- The machine that does the effect of a label where its guard holds. -/
def guarded (enabled : σ → α → Prop) [∀ s a, Decidable (enabled s a)] (effect : σ → α → σ) :
    Machine σ α where
  step s a := if enabled s a then some (effect s a) else none

theorem guarded_step_eq_some :
    (guarded enabled effect).step s a = some t ↔ enabled s a ∧ effect s a = t := by
  simp [guarded]

theorem Reaches.of_enabled (h : enabled s a) : (guarded enabled effect).Reaches s (effect s a) :=
  .of_step (guarded_step_eq_some.mpr ⟨h, rfl⟩)

end Guarded

/-! ### Simulation -/

variable {τ : Type*} {N : Machine τ α} {R : σ → τ → Prop}

/-- Each step of `M` from related states is matched by the step of `N` with the same label. -/
def Simulates (R : σ → τ → Prop) (M : Machine σ α) (N : Machine τ α) : Prop :=
  ∀ s u a s', R s u → M.step s a = some s' → ∃ u', N.step u a = some u' ∧ R s' u'

theorem Simulates.run (h : Simulates R M N) {u : τ} {s' : σ} (hR : R s u)
    (hrun : M.run s as = some s') : ∃ u', N.run u as = some u' ∧ R s' u' := by
  induction as generalizing s u with
  | nil => exact ⟨u, rfl, Option.some.inj hrun ▸ hR⟩
  | cons a as ih =>
    obtain ⟨t, ht, hrun⟩ := Option.bind_eq_some_iff.mp hrun
    obtain ⟨v, hv, hR⟩ := h s u a t hR ht
    obtain ⟨u', hu', hR'⟩ := ih hR hrun
    exact ⟨u', by rw [run_cons, hv, Option.bind_some, hu'], hR'⟩

/-! ### Steps that may fail an assertion -/

variable {ε : Type*}

/-- The machine of a step that may stop the program at a failed assertion: nothing happens after. -/
def ofExcept (step : σ → α → Option (Except ε σ)) : Machine (Except ε σ) α where
  step
    | .ok s, a => step s a
    | .error _, _ => none

variable {f : σ → α → Option (Except ε σ)}

@[simp] theorem ofExcept_step_ok (s : σ) (a : α) : (ofExcept f).step (.ok s) a = f s a := rfl

@[simp] theorem ofExcept_step_error (e : ε) (a : α) : (ofExcept f).step (.error e) a = none := rfl

/-- A program that failed stays where it is. -/
theorem ofExcept_always_error {R : Except ε σ → Prop} {e : ε} (h : R (.error e)) :
    (ofExcept f).Always R (.error e) as := by
  cases as with
  | nil => exact always_nil.mpr h
  | cons a as => exact always_cons.mpr ⟨h, fun t ht => by simp at ht⟩

/-- A run without a failure takes its first step without one. -/
theorem ofExcept_run_cons_ok (h : (ofExcept f).run (.ok s) (a :: as) = some (.ok t)) :
    ∃ u, f s a = some (.ok u) ∧ (ofExcept f).run (.ok u) as = some (.ok t) := by
  obtain ⟨r, hr, hrun⟩ := Option.bind_eq_some_iff.mp h
  cases r with
  | ok u => exact ⟨u, hr, hrun⟩
  | error e =>
    cases as with
    | nil => cases hrun
    | cons b bs => cases hrun

/-- The steps of a program with a history that each of them adds to. -/
def recording {γ : Type*} (f : σ → α → Option (Except ε σ)) (add : σ → α → σ → γ → γ) (s : σ × γ) (a : α) :
    Option (Except ε (σ × γ)) :=
  (f s.1 a).map fun r => r.map fun t => (t, add s.1 a t s.2)

theorem recording_eq_ok {γ : Type*} {add : σ → α → σ → γ → γ} {s t : σ × γ} :
    recording f add s a = some (.ok t) ↔ f s.1 a = some (.ok t.1) ∧ t.2 = add s.1 a t.1 s.2 := by
  obtain ⟨t, history⟩ := t
  unfold recording
  cases f s.1 a with
  | none => simp
  | some r =>
    cases r with
    | error e => simp [Except.map]
    | ok u =>
      simp only [Option.map_some, Except.map, Option.some.injEq, Except.ok.injEq, Prod.mk.injEq]
      constructor
      · rintro ⟨rfl, rfl⟩
        exact ⟨rfl, rfl⟩
      · rintro ⟨rfl, rfl⟩
        exact ⟨rfl, rfl⟩

/-- The states of an assertion machine that did not fail and satisfy `P`. -/
def Holds (P : σ → Prop) : Except ε σ → Prop
  | .ok s => P s
  | .error _ => False

@[simp] theorem holds_ok {P : σ → Prop} {s : σ} : Holds (ε := ε) P (.ok s) ↔ P s := Iff.rfl

@[simp] theorem holds_error {P : σ → Prop} {e : ε} : ¬ Holds (σ := σ) P (.error e) := id

/-- The states of an assertion machine that failed or satisfy `P`. -/
def HoldsIfOk (P : σ → Prop) : Except ε σ → Prop
  | .ok s => P s
  | .error _ => True

@[simp] theorem holdsIfOk_ok {P : σ → Prop} {s : σ} : HoldsIfOk (ε := ε) P (.ok s) ↔ P s := Iff.rfl

@[simp] theorem holdsIfOk_error {P : σ → Prop} {e : ε} : HoldsIfOk (σ := σ) P (.error e) := trivial

/-- A condition on the steps of an assertion machine. -/
def AtOk (C : σ → α → Prop) : Except ε σ → α → Prop
  | .ok s, a => C s a
  | .error _, _ => True

@[simp] theorem atOk_ok : AtOk (ε := ε) C (.ok s) a ↔ C s a := Iff.rfl

/-- Where each step is paid for, by what it takes off `φ` or adds to `ψ`, the steps of a run are no more than both
amount to. -/
theorem ofExcept_length_le {φ ψ : σ → Nat}
    (hstep : ∀ s a t, I s → f s a = some (.ok t) → I t ∧ φ t + ψ s + 1 ≤ φ s + ψ t) (h0 : I s)
    (hrun : (ofExcept f).run (.ok s) as = some (.ok t)) : as.length + φ t + ψ s ≤ φ s + ψ t := by
  induction as generalizing s with
  | nil =>
    obtain rfl := Except.ok.inj (Option.some.inj hrun)
    rw [List.length_nil]
    omega
  | cons a as ih =>
    obtain ⟨u, hu, hrun⟩ := ofExcept_run_cons_ok hrun
    obtain ⟨hI, hpaid⟩ := hstep s a u h0 hu
    have hrest := ih hI hrun
    rw [List.length_cons]
    omega

/-- An invariant kept by every step of the program that fails no assertion. -/
theorem ofExcept_always_holdsIfOk (h0 : I s)
    (hstep : ∀ s a t, I s → f s a = some (.ok t) → I t) :
    (ofExcept f).Always (HoldsIfOk I) (.ok s) as := by
  refine Always.of_step h0 fun u a v hu huv => ?_
  cases u with
  | error e => cases huv
  | ok s =>
    cases v with
    | error e => trivial
    | ok t => exact hstep s a t hu huv

/-- An invariant kept by every step that meets `C` and fails no assertion. -/
theorem ofExcept_always_of_meets (h0 : I s)
    (hstep : ∀ s a t, I s → C s a → f s a = some (.ok t) → I t)
    (hmeets : (ofExcept f).Meets (AtOk C) (.ok s) as) : (ofExcept f).Always (HoldsIfOk I) (.ok s) as := by
  refine Always.of_invariant (I := HoldsIfOk I) h0 (fun u a v hu hC huv => ?_) hmeets
  cases u with
  | error e => cases huv
  | ok s =>
    cases v with
    | error e => trivial
    | ok t => exact hstep s a t hu hC huv

/-- `Meets.imp_of_invariant` for the steps of a program that fail no assertion. -/
theorem ofExcept_meets_imp (h0 : I s)
    (hstep : ∀ s a t, I s → C s a → f s a = some (.ok t) → I t)
    (hCD : ∀ s a, I s → C s a → D s a) (hmeets : (ofExcept f).Meets (AtOk C) (.ok s) as) :
    (ofExcept f).Meets (AtOk D) (.ok s) as := by
  refine Meets.imp_of_invariant (I := HoldsIfOk I) h0 ?_ ?_ hmeets
  · intro u a v hu hC huv
    cases u with
    | error e => cases huv
    | ok s =>
      cases v with
      | error e => trivial
      | ok t => exact hstep s a t hu hC huv
  · intro u a hu hC
    cases u with
    | error e => trivial
    | ok s => exact hCD s a hu hC

/-- `always_iff_meets` for a program of which a step that meets `C` fails no assertion, and `P` does not
allow a failure. -/
theorem ofExcept_always_holds_iff (hP : ∀ s, I s → P s)
    (hkeep : ∀ s a r, I s → C s a → f s a = some r → ∃ t, r = .ok t ∧ I t)
    (hbreak : ∀ s a r, I s → ¬ C s a → f s a = some r → ¬ Holds P r) (h0 : I s) :
    (ofExcept f).Always (Holds P) (.ok s) as ↔ (ofExcept f).Meets (AtOk C) (.ok s) as := by
  refine always_iff_meets (I := Holds I) ?_ ?_ ?_ h0
  · intro u hu
    cases u with
    | error e => exact absurd hu holds_error
    | ok s => exact hP s hu
  · intro u a v hu hC huv
    cases u with
    | error e => exact absurd hu holds_error
    | ok s =>
      obtain ⟨t, rfl, ht⟩ := hkeep s a v hu hC huv
      exact ht
  · intro u a v hu hC huv
    cases u with
    | error e => exact absurd hu holds_error
    | ok s => exact hbreak s a v hu hC huv

/-- `ExactCondition.of_invariant` for a program of which a step that meets `C` fails no assertion, and `P`
does not allow a failure. -/
theorem ofExcept_exactCondition {J : σ → Prop} (hJ0 : J s) (hI0 : I s)
    (hJ : ∀ s a t, J s → f s a = some (.ok t) → J t)
    (hI : ∀ s a r, J s → I s → C s a → f s a = some r → ∃ t, r = .ok t ∧ I t)
    (hP : ∀ s, J s → I s → P s)
    (hbreak : ∀ s a t, J s → ¬ C s a → f s a = some (.ok t) →
      ∃ u, (ofExcept f).Reaches (.ok t) u ∧ ¬ Holds P u) :
    (ofExcept f).ExactCondition (AtOk C) (Holds P) (.ok s) := by
  refine .of_invariant (J := HoldsIfOk J) (I := Holds I) hJ0 hI0 ?_ ?_ ?_ ?_
  · intro u a v hu huv
    cases u with
    | error e => cases huv
    | ok s =>
      cases v with
      | error e => trivial
      | ok t => exact hJ s a t hu huv
  · intro u a v hu hu' hC huv
    cases u with
    | error e => cases huv
    | ok s =>
      obtain ⟨t, rfl, ht⟩ := hI s a v hu hu' hC huv
      exact ht
  · intro u hu hu'
    cases u with
    | error e => exact hu'
    | ok s => exact hP s hu hu'
  · intro u a v hu hC huv
    cases u with
    | error e => cases huv
    | ok s =>
      cases v with
      | error e => exact ⟨_, .refl, holds_error⟩
      | ok t => exact hbreak s a t hu hC huv

/-- `always_iff_meets` for a program whose steps outside `C` fail no assertion. -/
theorem ofExcept_always_iff_meets (hP : ∀ s, I s → P s)
    (hkeep : ∀ s a t, I s → C s a → f s a = some (.ok t) → I t)
    (hbreak : ∀ s a t, I s → ¬ C s a → f s a = some (.ok t) → ¬ P t)
    (hok : ∀ s a e, I s → ¬ C s a → f s a ≠ some (.error e)) (h0 : I s) :
    (ofExcept f).Always (HoldsIfOk P) (.ok s) as ↔ (ofExcept f).Meets (AtOk C) (.ok s) as := by
  refine always_iff_meets (I := HoldsIfOk I) ?_ ?_ ?_ h0
  · intro u hu
    cases u with
    | error e => trivial
    | ok s => exact hP s hu
  · intro u a v hu hC huv
    cases u with
    | error e => cases huv
    | ok s =>
      cases v with
      | error e => trivial
      | ok t => exact hkeep s a t hu hC huv
  · intro u a v hu hC huv
    cases u with
    | error e => exact absurd trivial hC
    | ok s =>
      cases v with
      | error e => exact absurd huv (hok s a e hu hC)
      | ok t => exact hbreak s a t hu hC huv

end Machine
