import Mathlib.Logic.Function.Basic
import Mathlib.Tactic.Common

/-!
# `EChannel.Support.Run`: runs of a partial transition function

A system is a function `step : σ → α → Option σ`: the action `a` is enabled in `s` when
`step s a` is `some t`. A run is a list of actions. `run` folds `step` over it and is `none`
when an action is not enabled.

`AllSteps cond` says that each action of a run meets a condition on the state it is taken
in. `run_invariant` is the induction rule: what the first state satisfies and every step
under the condition keeps, the last state of the run satisfies. Since a prefix of a run is a
run, this covers every state reached.

A state that holds objects has a table of them, and a step replaces an entry. `update_cases`
is what an entry of the new table is.
-/

set_option autoImplicit false

namespace EChannel

variable {σ α : Type} {step : σ → α → Option σ}

/-- An entry of a table after the entry of `k` was replaced. -/
theorem update_cases {κ ν : Type} [DecidableEq κ] {table : κ → Option ν} {k k' : κ}
    {entry : Option ν} {v : ν} (h : Function.update table k entry k' = some v) :
    k' = k ∧ entry = some v ∨ k' ≠ k ∧ table k' = some v := by
  by_cases heq : k' = k
  · subst heq
    rw [Function.update_self] at h
    exact Or.inl ⟨rfl, h⟩
  · rw [Function.update_of_ne heq] at h
    exact Or.inr ⟨heq, h⟩

/-- The state after a list of actions. -/
def run (step : σ → α → Option σ) : σ → List α → Option σ
  | s, [] => some s
  | s, a :: as =>
    match step s a with
    | none => none
    | some t => run step t as

/-- Every action of the run meets `cond` in the state it is taken in. -/
def AllSteps (step : σ → α → Option σ) (cond : σ → α → Prop) : σ → List α → Prop
  | _, [] => True
  | s, a :: as => cond s a ∧ ∀ t, step s a = some t → AllSteps step cond t as

/-- The first step of a run. -/
theorem run_cons {s u : σ} {a : α} {as : List α} (h : run step s (a :: as) = some u) :
    ∃ t, step s a = some t ∧ run step t as = some u := by
  simp only [run] at h
  cases hs : step s a with
  | none => rw [hs] at h; cases h
  | some t => rw [hs] at h; exact ⟨t, rfl, h⟩

/-- A run whose first step is known. -/
theorem run_step {s t : σ} {a : α} (h : step s a = some t) (as : List α) :
    run step s (a :: as) = run step t as := by
  simp only [run, h]

/-- The induction rule for runs: an invariant of every step that meets the condition is an
invariant of every run whose steps meet it. -/
theorem run_invariant {cond : σ → α → Prop} {inv : σ → Prop}
    (hstep : ∀ s a t, cond s a → step s a = some t → inv s → inv t) :
    ∀ (as : List α) (s u : σ), inv s → AllSteps step cond s as → run step s as = some u →
      inv u := by
  intro as
  induction as with
  | nil =>
    intro s u hs _ hrun
    cases hrun
    exact hs
  | cons a as ih =>
    intro s u hs hall hrun
    obtain ⟨t, hst, hrest⟩ := run_cons hrun
    exact ih t u (hstep s a t hall.1 hst hs) (hall.2 t hst) hrest

/-- The trivial condition is met by every run. -/
theorem allSteps_true : ∀ (as : List α) (s : σ), AllSteps step (fun _ _ => True) s as := by
  intro as
  induction as with
  | nil => intro s; trivial
  | cons a as ih => exact fun s => ⟨trivial, fun t _ => ih t⟩

/-- A condition on the actions alone, met by every action of the list. -/
theorem allSteps_of_forall {c : α → Prop} : ∀ (as : List α) (s : σ), (∀ a ∈ as, c a) →
    AllSteps step (fun _ a => c a) s as := by
  intro as
  induction as with
  | nil => intro s _; trivial
  | cons a as ih =>
    intro s h
    exact ⟨h a List.mem_cons_self, fun t _ => ih t fun b hb => h b (List.mem_cons_of_mem a hb)⟩

/-- The rule for an invariant of every step. -/
theorem run_invariant_always {inv : σ → Prop}
    (hstep : ∀ s a t, step s a = some t → inv s → inv t) (as : List α) (s u : σ) (hs : inv s)
    (hrun : run step s as = some u) : inv u :=
  run_invariant (fun s a t _ hst => hstep s a t hst) as s u hs (allSteps_true as s) hrun

/-- A first step that meets the condition, and a rest that does. -/
theorem AllSteps.cons {cond : σ → α → Prop} {s t : σ} {a : α} {as : List α} (hc : cond s a)
    (hs : step s a = some t) (h : AllSteps step cond t as) :
    AllSteps step cond s (a :: as) := by
  refine ⟨hc, fun t' ht' => ?_⟩
  rw [hs] at ht'
  cases ht'
  exact h

/-- A property of the steps that the invariant and the condition give. -/
theorem allSteps_of_invariant {cond P : σ → α → Prop} {inv : σ → Prop}
    (hstep : ∀ s a t, inv s → cond s a → step s a = some t → inv t)
    (hP : ∀ s a, inv s → cond s a → P s a) :
    ∀ (as : List α) (s : σ), inv s → AllSteps step cond s as → AllSteps step P s as := by
  intro as
  induction as with
  | nil => exact fun _ _ _ => trivial
  | cons a as ih =>
    intro s hs hall
    exact ⟨hP s a hs hall.1, fun t hst => ih t (hstep s a t hs hall.1 hst) (hall.2 t hst)⟩

/-- Every state that the run reaches, the first one included, satisfies `P`. -/
def Always (step : σ → α → Option σ) (P : σ → Prop) : σ → List α → Prop
  | s, [] => P s
  | s, a :: as => P s ∧ ∀ t, step s a = some t → Always step P t as

/-- The first state of a run is one of them. -/
theorem Always.head {P : σ → Prop} {s : σ} {as : List α} (h : Always step P s as) : P s := by
  cases as with
  | nil => exact h
  | cons a as => exact h.1

/-- The last state of the run is one of them. -/
theorem Always.last {P : σ → Prop} : ∀ {as : List α} {s u : σ}, Always step P s as →
    run step s as = some u → P u := by
  intro as
  induction as with
  | nil =>
    intro s u h hrun
    cases hrun
    exact h
  | cons a as ih =>
    intro s u h hrun
    obtain ⟨t, hst, hrest⟩ := run_cons hrun
    exact ih (h.2 t hst) hrest

/-- The rule for an exact condition on the steps. Where the condition of a step is equivalent
to the property of that step, a run has the property in all its steps exactly when they all
meet the condition. `side` is what the run is known to meet. -/
theorem allSteps_iff {side cond P : σ → α → Prop} {inv : σ → Prop}
    (hstep : ∀ s a t, inv s → side s a → step s a = some t → cond s a → inv t)
    (hiff : ∀ s a t, inv s → side s a → step s a = some t → (P s a ↔ cond s a)) :
    ∀ (as : List α) (s u : σ), inv s → AllSteps step side s as → run step s as = some u →
      (AllSteps step P s as ↔ AllSteps step cond s as) := by
  intro as
  induction as with
  | nil => exact fun s u _ _ _ => ⟨fun _ => trivial, fun _ => trivial⟩
  | cons a as ih =>
    intro s u hs hside hrun
    obtain ⟨t, hst, hrest⟩ := run_cons hrun
    have heq : P s a ↔ cond s a := hiff s a t hs hside.1 hst
    have hnext : cond s a → (AllSteps step P t as ↔ AllSteps step cond t as) := fun hc =>
      ih t u (hstep s a t hs hside.1 hst hc) (hside.2 t hst) hrest
    constructor
    · intro hall
      have hc : cond s a := heq.mp hall.1
      exact AllSteps.cons hc hst ((hnext hc).mp (hall.2 t hst))
    · intro hall
      exact AllSteps.cons (heq.mpr hall.1) hst ((hnext hall.1).mpr (hall.2 t hst))

/-- A property of every state holds of the first one, and every step leads to a state that
has it. -/
theorem always_iff_head {P : σ → Prop} : ∀ (as : List α) (s : σ),
    Always step P s as ↔ P s ∧ AllSteps step (fun s a => ∀ t, step s a = some t → P t) s as := by
  intro as
  induction as with
  | nil => exact fun s => ⟨fun h => ⟨h, trivial⟩, fun h => h.1⟩
  | cons a as ih =>
    intro s
    constructor
    · intro h
      exact ⟨h.1, fun t hst => (h.2 t hst).head, fun t hst => ((ih t).mp (h.2 t hst)).2⟩
    · intro h
      exact ⟨h.1, fun t hst => (ih t).mpr ⟨h.2.1 t hst, h.2.2 t hst⟩⟩

/-- The rule for an exact condition and a property of the states, in runs that meet `side`.
The condition keeps the invariant, the invariant gives the property, and a step into a state
with the property meets the condition. Then a run has the property in every state exactly when
all its steps meet the condition. -/
theorem always_iff_allSteps_of {side cond : σ → α → Prop} {inv P : σ → Prop}
    (hstep : ∀ s a t, inv s → side s a → step s a = some t → cond s a → inv t)
    (hinv : ∀ s, inv s → P s)
    (hback : ∀ s a t, inv s → side s a → step s a = some t → P t → cond s a)
    (as : List α) (s u : σ) (hs : inv s) (hside : AllSteps step side s as)
    (hrun : run step s as = some u) : Always step P s as ↔ AllSteps step cond s as := by
  have hiff : ∀ s a t, inv s → side s a → step s a = some t →
      ((∀ t', step s a = some t' → P t') ↔ cond s a) := by
    intro s a t hs hsd hst
    constructor
    · exact fun h => hback s a t hs hsd hst (h t hst)
    · intro hc t' ht'
      rw [hst] at ht'
      cases ht'
      exact hinv t (hstep s a t hs hsd hst hc)
  rw [always_iff_head, allSteps_iff hstep hiff as s u hs hside hrun]
  exact and_iff_right (hinv s hs)

/-- The rule for an exact condition in all runs. -/
theorem always_iff_allSteps {cond : σ → α → Prop} {inv P : σ → Prop}
    (hstep : ∀ s a t, inv s → step s a = some t → cond s a → inv t)
    (hinv : ∀ s, inv s → P s)
    (hback : ∀ s a t, inv s → step s a = some t → P t → cond s a)
    (as : List α) (s u : σ) (hs : inv s) (hrun : run step s as = some u) :
    Always step P s as ↔ AllSteps step cond s as :=
  always_iff_allSteps_of (fun s a t hi _ => hstep s a t hi) hinv
    (fun s a t hi _ => hback s a t hi) as s u hs (allSteps_true as s) hrun

/-! ### Actions that must not follow others -/

/-- After an action of the run that is an `ev` in the state it is taken in, none is an `ev'`. -/
def NeverAfter (step : σ → α → Option σ) (ev ev' : σ → α → Prop) : σ → List α → Prop
  | _, [] => True
  | s, a :: as => ∀ t, step s a = some t →
    (ev s a → AllSteps step (fun s a => ¬ ev' s a) t as) ∧ NeverAfter step ev ev' t as

section NeverAfter

variable {ev ev' ev₁ ev₂ : σ → α → Prop}

/-- A property of the steps that gives another one. -/
theorem AllSteps.mono {P Q : σ → α → Prop} (himp : ∀ s a, P s a → Q s a) :
    ∀ {as : List α} {s : σ}, AllSteps step P s as → AllSteps step Q s as := by
  intro as
  induction as with
  | nil => exact fun _ => trivial
  | cons a as ih => exact fun h => ⟨himp _ a h.1, fun t hst => ih (h.2 t hst)⟩

/-- A first step that is no `ev`. -/
theorem NeverAfter.cons {s t : σ} {a : α} {as : List α} (hst : step s a = some t)
    (hev : ¬ ev s a) (h : NeverAfter step ev ev' t as) :
    NeverAfter step ev ev' s (a :: as) := by
  intro t' ht'
  cases hst.symm.trans ht'
  exact ⟨fun h => absurd h hev, h⟩

/-- A run without `ev'` has none after an `ev`. -/
theorem AllSteps.neverAfter : ∀ {as : List α} {s : σ},
    AllSteps step (fun s a => ¬ ev' s a) s as → NeverAfter step ev ev' s as := by
  intro as
  induction as with
  | nil => exact fun _ => trivial
  | cons a as ih => exact fun h t hst => ⟨fun _ => h.2 t hst, ih (h.2 t hst)⟩

/-- Fewer actions of either kind. -/
theorem NeverAfter.mono (hev : ∀ s a, ev₁ s a → ev s a) (hev' : ∀ s a, ev₂ s a → ev' s a) :
    ∀ {as : List α} {s : σ}, NeverAfter step ev ev' s as → NeverAfter step ev₁ ev₂ s as := by
  intro as
  induction as with
  | nil => exact fun _ => trivial
  | cons a as ih =>
    intro s h t hst
    obtain ⟨hhead, hrest⟩ := h t hst
    exact ⟨fun h₁ => (hhead (hev s a h₁)).mono fun s a hno h₂ => hno (hev' s a h₂), ih hrest⟩

/-- Two kinds of actions come first. -/
theorem NeverAfter.or_left : ∀ {as : List α} {s : σ}, NeverAfter step ev₁ ev' s as →
    NeverAfter step ev₂ ev' s as →
    NeverAfter step (fun s a => ev₁ s a ∨ ev₂ s a) ev' s as := by
  intro as
  induction as with
  | nil => exact fun _ _ => trivial
  | cons a as ih =>
    intro s h₁ h₂ t hst
    exact ⟨fun h => h.elim (h₁ t hst).1 (h₂ t hst).1, ih (h₁ t hst).2 (h₂ t hst).2⟩

/-- Steps that are neither of two kinds. -/
theorem AllSteps.not_or : ∀ {as : List α} {s : σ}, AllSteps step (fun s a => ¬ ev₁ s a) s as →
    AllSteps step (fun s a => ¬ ev₂ s a) s as →
    AllSteps step (fun s a => ¬ (ev₁ s a ∨ ev₂ s a)) s as := by
  intro as
  induction as with
  | nil => exact fun _ _ => trivial
  | cons a as ih =>
    exact fun h₁ h₂ => ⟨fun h => h.elim h₁.1 h₂.1, fun t hst => ih (h₁.2 t hst) (h₂.2 t hst)⟩

/-- Two kinds of actions come second. -/
theorem NeverAfter.or_right : ∀ {as : List α} {s : σ}, NeverAfter step ev ev₁ s as →
    NeverAfter step ev ev₂ s as →
    NeverAfter step ev (fun s a => ev₁ s a ∨ ev₂ s a) s as := by
  intro as
  induction as with
  | nil => exact fun _ _ => trivial
  | cons a as ih =>
    intro s h₁ h₂ t hst
    exact ⟨fun h => ((h₁ t hst).1 h).not_or ((h₂ t hst).1 h), ih (h₁ t hst).2 (h₂ t hst).2⟩

/-- The rule for what an action leaves behind: an `ev` establishes `done`, every step keeps it,
and in a state with it no action is an `ev'`. -/
theorem neverAfter_of_invariant {cond : σ → α → Prop} {inv done : σ → Prop}
    (hstep : ∀ s a t, inv s → cond s a → step s a = some t → inv t)
    (hdone : ∀ s a t, inv s → cond s a → step s a = some t → ev s a → done t)
    (hkeep : ∀ s a t, inv s → cond s a → step s a = some t → done s → done t)
    (hno : ∀ s a t, inv s → cond s a → step s a = some t → done s → ¬ ev' s a) :
    ∀ (as : List α) (s u : σ), inv s → AllSteps step cond s as → run step s as = some u →
      NeverAfter step ev ev' s as := by
  -- Once `done` holds, it does to the end of the run.
  have hafter : ∀ (as : List α) (s u : σ), inv s → done s → AllSteps step cond s as →
      run step s as = some u → AllSteps step (fun s a => ¬ ev' s a) s as := by
    intro as
    induction as with
    | nil => exact fun _ _ _ _ _ _ => trivial
    | cons a as ih =>
      intro s u hs hd hc hrun
      obtain ⟨t, hst, hrest⟩ := run_cons hrun
      exact AllSteps.cons (hno s a t hs hc.1 hst hd) hst
        (ih t u (hstep s a t hs hc.1 hst) (hkeep s a t hs hc.1 hst hd) (hc.2 t hst) hrest)
  intro as
  induction as with
  | nil => exact fun _ _ _ _ _ => trivial
  | cons a as ih =>
    intro s u hs hc hrun t hst
    obtain ⟨t', hst', hrest⟩ := run_cons hrun
    cases hst.symm.trans hst'
    have ht : inv t := hstep s a t hs hc.1 hst
    exact ⟨fun hev => hafter as t u ht (hdone s a t hs hc.1 hst hev) (hc.2 t hst) hrest,
      ih t u ht (hc.2 t hst) hrest⟩

end NeverAfter

/-- The rule for a counter of the `ev` actions: it stays at 1 or below along a run from 0 exactly
when no `ev` follows another, and along a run from 1 exactly when none is. -/
theorem always_le_one_iff {ev : σ → α → Prop} {count : σ → Nat}
    (hcount : ∀ s a t, step s a = some t →
      ev s a ∧ count t = count s + 1 ∨ ¬ ev s a ∧ count t = count s) :
    ∀ (as : List α) (s u : σ), run step s as = some u →
      (count s = 0 → (Always step (fun s => count s ≤ 1) s as ↔ NeverAfter step ev ev s as)) ∧
      (count s = 1 → (Always step (fun s => count s ≤ 1) s as ↔
        AllSteps step (fun s a => ¬ ev s a) s as)) := by
  intro as
  induction as with
  | nil =>
    intro s u _
    exact ⟨fun h => iff_of_true (Nat.le_of_lt (h ▸ Nat.zero_lt_one)) trivial,
      fun h => iff_of_true (Nat.le_of_eq h) trivial⟩
  | cons a as ih =>
    intro s u hrun
    obtain ⟨t, hst, hrest⟩ := run_cons hrun
    obtain ⟨ih0, ih1⟩ := ih t u hrest
    -- The step function has one result, so each `∀ t'` is about `t`.
    have huniq : ∀ t', step s a = some t' → t' = t := fun t' ht' => by
      rw [hst] at ht'
      exact (Option.some.inj ht').symm
    constructor
    · intro h0
      have hhead : Always step (fun s => count s ≤ 1) s (a :: as) ↔
          Always step (fun s => count s ≤ 1) t as :=
        ⟨fun h => h.2 t hst, fun h => ⟨by omega, fun t' ht' => huniq t' ht' ▸ h⟩⟩
      rw [hhead]
      -- The head holds already, and the rest starts from 1 or from 0.
      rcases hcount s a t hst with ⟨hev, hc⟩ | ⟨hev, hc⟩
      · rw [ih1 (by omega)]
        exact ⟨fun h t' ht' => huniq t' ht' ▸ ⟨fun _ => h, h.neverAfter⟩,
          fun h => (h t hst).1 hev⟩
      · rw [ih0 (by omega)]
        exact ⟨fun h t' ht' => huniq t' ht' ▸ ⟨fun hev' => absurd hev' hev, h⟩,
          fun h => (h t hst).2⟩
    · intro h1
      rcases hcount s a t hst with ⟨hev, hc⟩ | ⟨hev, hc⟩
      · -- The second one: the counter passes 1.
        refine iff_of_false (fun h => ?_) fun h => h.1 hev
        have := (h.2 t hst).head
        omega
      · constructor
        · intro h
          exact AllSteps.cons hev hst ((ih1 (by omega)).mp (h.2 t hst))
        · intro h
          exact ⟨by omega, fun t' ht' => huniq t' ht' ▸ (ih1 (by omega)).mpr (h.2 t hst)⟩

end EChannel
