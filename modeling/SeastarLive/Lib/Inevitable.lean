/-
SeastarLive.Lib.Inevitable — what every run of a machine comes to.

`M.Inevitably P s`: whatever labels are chosen, a run from `s` meets a state of `P`. Before
that it never stops, never faults and does not go on for ever.

* `of_step`, `bind`: the rules for one step and for one stage after another.
* `of_stages`: stages in a row, each inevitable from the one before.
* `meets`: two ends that are both inevitable have a state in common.

Nothing here names a program.
-/
import SeastarLive.Lib.Transition

namespace SeastarLive

namespace Machine

variable {σ ℓ ε : Type} (M : Machine σ ℓ ε)

/-- Every run from the state meets a state of `P`. -/
inductive Inevitably (P : σ → Prop) : σ → Prop
  | now {s : σ} : P s → Inevitably P s
  | later {s : σ} : (∃ a, M.enabled s a) →
      (∀ a, M.enabled s a → ∃ t, M.step s a = .ok t) →
      (∀ a t, M.enabled s a → M.step s a = .ok t → Inevitably P t) → Inevitably P s

/-- No label may happen in the state. -/
def Halted (s : σ) : Prop := ∀ a, ¬ M.enabled s a

namespace Inevitably

variable {M} {P Q : σ → Prop} {s : σ}

/-- The rule for one step. -/
theorem of_step (hsome : ∃ a, M.enabled s a)
    (hstep : ∀ a, M.enabled s a → ∃ t, M.step s a = .ok t ∧ M.Inevitably P t) :
    M.Inevitably P s := by
  refine .later hsome ?_ ?_
  · intro a ha
    obtain ⟨t, hrun, -⟩ := hstep a ha
    exact ⟨t, hrun⟩
  · intro a t ha hrun
    obtain ⟨u, hrun', hu⟩ := hstep a ha
    rw [hrun'] at hrun
    cases hrun
    exact hu

/-- The rule for one stage after another. -/
theorem bind (h : M.Inevitably Q s) (hnext : ∀ t, Q t → M.Inevitably P t) :
    M.Inevitably P s := by
  induction h with
  | now hs => exact hnext _ hs
  | later hsome hok _ ih => exact .later hsome hok ih

/-- Stages in a row, each inevitable from the one before. -/
theorem of_stages {R : Nat → σ → Prop} {m : Nat}
    (hstage : ∀ i t, i < m → R i t → M.Inevitably (R (i + 1)) t) {i : Nat} (hi : i ≤ m)
    (hs : R i s) : M.Inevitably (R m) s := by
  induction hd : m - i generalizing i s with
  | zero =>
      obtain rfl : i = m := by omega
      exact .now hs
  | succ d ih => exact (hstage i s (by omega) hs).bind fun t ht => ih (by omega) ht (by omega)

/-- Two ends that are both inevitable have a state in common. -/
theorem meets (hP : M.Inevitably P s) (hQ : M.Inevitably Q s)
    (hhaltP : ∀ t, P t → M.Halted t) (hhaltQ : ∀ t, Q t → M.Halted t) : ∃ t, P t ∧ Q t := by
  induction hP with
  | now hs =>
      cases hQ with
      | now hs' => exact ⟨_, hs, hs'⟩
      | later hsome _ _ =>
          obtain ⟨a, ha⟩ := hsome
          exact absurd ha (hhaltP _ hs a)
  | later hsome hok _ ih =>
      obtain ⟨a, ha⟩ := hsome
      cases hQ with
      | now hs' => exact absurd ha (hhaltQ _ hs' a)
      | later _ _ hnext =>
          obtain ⟨t, hrun⟩ := hok a ha
          exact ih a t ha hrun (hnext a t ha hrun)

end Inevitably

end Machine

end SeastarLive
