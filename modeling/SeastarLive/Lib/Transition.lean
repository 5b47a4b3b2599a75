/-
SeastarLive.Lib.Transition — machines that take labelled steps, and their runs.

A `Machine` has an initial state, a test that says which labels may happen in
a state, and a step function that returns the next state or a fault. The
labels carry all choice, so a run is a list of labels.

* `Reachable` and its induction rules, each used once for an invariant of a
  machine: `invariant`, `invariant_reachable` (on top of an invariant proved
  before) and `invariant_of_spec` (from a lemma that says how steps end).
* `Steps`: what is reached from a state.
* `Reachable.map`: a mapping of states that turns steps into runs.
* `restrict`: the same machine with fewer steps. What holds of its runs is
  what holds of the runs whose steps all meet a condition.
* `runs`: evaluate a list of labels, to exhibit a reachable state.

Nothing here names a program.
-/
import Mathlib.Logic.Basic

namespace SeastarLive

/-- A machine with states `σ`, labels `ℓ` and faults `ε`. -/
structure Machine (σ ℓ ε : Type) where
  init : σ
  enabled : σ → ℓ → Prop
  step : σ → ℓ → Except ε σ

namespace Machine

variable {σ ℓ ε : Type} (M : Machine σ ℓ ε)

/-- The states the machine reaches. -/
inductive Reachable : σ → Prop
  | init : Reachable M.init
  | step {s t : σ} {a : ℓ} : Reachable s → M.enabled s a → M.step s a = .ok t → Reachable t

/-- The states the machine reaches from `s`. -/
inductive Steps (s : σ) : σ → Prop
  | refl : Steps s s
  | step {t u : σ} {a : ℓ} : Steps s t → M.enabled t a → M.step t a = .ok u → Steps s u

/-- The machine whose steps also meet `g`. -/
def restrict (g : σ → ℓ → Prop) : Machine σ ℓ ε where
  init := M.init
  enabled s a := M.enabled s a ∧ g s a
  step := M.step

instance (g : σ → ℓ → Prop) [∀ s a, Decidable (M.enabled s a)] [∀ s a, Decidable (g s a)]
    (s : σ) (a : ℓ) : Decidable ((M.restrict g).enabled s a) :=
  inferInstanceAs (Decidable (_ ∧ _))

variable {M}

/-- The invariant rule relative to what is known of the states reached. -/
theorem Reachable.invariant_reachable {P : σ → Prop} (hinit : P M.init)
    (hstep : ∀ s a t, M.Reachable s → P s → M.enabled s a → M.step s a = .ok t → P t) {s : σ}
    (hs : M.Reachable s) : P s := by
  induction hs with
  | init => exact hinit
  | step hreach henabled hrun ih => exact hstep _ _ _ hreach ih henabled hrun

/-- The invariant rule: what holds at first and is kept by every step, holds. -/
theorem Reachable.invariant {P : σ → Prop} (hinit : P M.init)
    (hstep : ∀ s a t, P s → M.enabled s a → M.step s a = .ok t → P t) {s : σ}
    (hs : M.Reachable s) : P s :=
  hs.invariant_reachable hinit fun s a t _ => hstep s a t

/-- The invariant rule for machines that fault: where every step from `P` ends in `P` or
    in a fault of `F`, every state reached is of `P` and faults with `F` only. -/
theorem Reachable.invariant_of_spec {P : σ → Prop} {F : σ → ℓ → ε → Prop} (hinit : P M.init)
    (hspec : ∀ s a, P s → M.enabled s a →
      (∃ t, M.step s a = .ok t ∧ P t) ∨ ∃ e, M.step s a = .error e ∧ F s a e)
    {s : σ} (hs : M.Reachable s) :
    P s ∧ ∀ a e, M.enabled s a → M.step s a = .error e → F s a e := by
  have hinv : P s := by
    refine hs.invariant hinit ?_
    intro s a t hs henabled hrun
    rcases hspec s a hs henabled with ⟨t', hok, ht'⟩ | ⟨e, hfault, _⟩
    · rw [hok] at hrun
      cases hrun
      exact ht'
    · rw [hfault] at hrun
      cases hrun
  refine ⟨hinv, ?_⟩
  intro a e henabled hrun
  rcases hspec s a hinv henabled with ⟨t, hok, _⟩ | ⟨e', hfault, he'⟩
  · rw [hok] at hrun
    cases hrun
  · rw [hfault] at hrun
    cases hrun
    exact he'

/-- What holds at `s` and is kept by every step holds of what is reached from `s`. -/
theorem Steps.invariant {P : σ → Prop} {s t : σ} (ht : M.Steps s t) (hs : P s)
    (hstep : ∀ s a t, P s → M.enabled s a → M.step s a = .ok t → P t) : P t := by
  induction ht with
  | refl => exact hs
  | step _ henabled hrun ih => exact hstep _ _ _ ih henabled hrun

theorem Steps.trans {s t u : σ} (hst : M.Steps s t) (htu : M.Steps t u) : M.Steps s u := by
  induction htu with
  | refl => exact hst
  | step _ henabled hrun ih => exact ih.step henabled hrun

theorem Reachable.steps {s t : σ} (hs : M.Reachable s) (ht : M.Steps s t) : M.Reachable t := by
  induction ht with
  | refl => exact hs
  | step _ henabled hrun ih => exact ih.step henabled hrun

/-- A mapping that turns every step of one machine into steps of another turns what the one
    reaches into what the other reaches. -/
theorem Reachable.map {τ ℓ' ε' : Type} {N : Machine τ ℓ' ε'} {f : σ → τ} (hinit : f M.init = N.init)
    (hstep : ∀ s a t, M.enabled s a → M.step s a = .ok t → N.Steps (f s) (f t)) {s : σ}
    (hs : M.Reachable s) : N.Reachable (f s) := by
  induction hs with
  | init =>
      rw [hinit]
      exact .init
  | step _ henabled hrun ih => exact ih.steps (hstep _ _ _ henabled hrun)

/-- A restricted run is a run. -/
theorem Reachable.of_restrict {g : σ → ℓ → Prop} {s : σ}
    (hs : (M.restrict g).Reachable s) : M.Reachable s := by
  induction hs with
  | init => exact .init
  | step _ henabled hrun ih => exact .step ih henabled.1 hrun

/-- A run is a restricted run where every step meets the condition. -/
theorem Reachable.restrict {g : σ → ℓ → Prop} (hg : ∀ s a, M.enabled s a → g s a) {s : σ}
    (hs : M.Reachable s) : (M.restrict g).Reachable s := by
  induction hs with
  | init => exact .init
  | step _ henabled hrun ih => exact .step ih ⟨henabled, hg _ _ henabled⟩ hrun

/-- A run that meets `g` meets what `g` implies in the states it reaches. -/
theorem Reachable.restrict_mono {g g' : σ → ℓ → Prop}
    (himp : ∀ s a, (M.restrict g).Reachable s → M.enabled s a → g s a → g' s a) {s : σ}
    (hs : (M.restrict g).Reachable s) : (M.restrict g').Reachable s := by
  induction hs with
  | init => exact .init
  | step hreach henabled hrun ih =>
      exact .step ih ⟨henabled.1, himp _ _ hreach henabled.1 henabled.2⟩ hrun

section Runs

variable (M) [∀ s a, Decidable (M.enabled s a)]

/-- The state after a list of labels, if each may happen and none faults. -/
def runs : σ → List ℓ → Option σ
  | s, [] => some s
  | s, a :: as =>
      if M.enabled s a then
        match M.step s a with
        | .ok t => runs t as
        | .error _ => none
      else none

variable {M}

theorem Steps.of_runs {s t u : σ} (hst : M.Steps s t) {as : List ℓ}
    (h : M.runs t as = some u) : M.Steps s u := by
  induction as generalizing t with
  | nil =>
      cases h
      exact hst
  | cons a as ih =>
      simp only [Machine.runs] at h
      split at h
      · rename_i henabled
        split at h
        · rename_i t' hrun
          exact ih (hst.step henabled hrun) h
        · cases h
      · cases h

theorem Reachable.runs {s t : σ} (hs : M.Reachable s) {as : List ℓ}
    (h : M.runs s as = some t) : M.Reachable t :=
  hs.steps (.of_runs .refl h)

/-- A list of labels that ends in a state of `p` shows that such a state is reached. -/
theorem reachable_of_runs {p : σ → Bool} (as : List ℓ)
    (h : (M.runs M.init as).any p = true) : ∃ s, M.Reachable s ∧ p s = true := by
  obtain ⟨s, hs, hp⟩ := (Option.any_eq_true _ _).mp h
  exact ⟨s, Reachable.runs .init hs, hp⟩

end Runs

end Machine

end SeastarLive
