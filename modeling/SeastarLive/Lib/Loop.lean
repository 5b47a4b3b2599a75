/-
SeastarLive.Lib.Loop — loops that may run for ever.

A loop is given by its body: from a state, either the next state or the result
it is left with. `loop` runs the body with fuel; `Leaves` says that some fuel is
enough, so a loop that runs for ever leaves with nothing.

* `leaves_again`, `leaves_left`: what one turn of the body does.
* `not_leaves_of_stays`: a body that stays among states never leaves them.
* `exists_leaves`: a measure that every turn lowers.
* `Turns.invariant`: what holds at the start and is kept by a turn, holds in every
  turn; `Leaves.turns`: the loop is left from one of them.

Nothing here names a program.
-/
import Mathlib.Logic.Basic

namespace SeastarLive

variable {σ ρ : Type}

/-- Run the body; out of fuel is `none`. -/
def loop (body : σ → σ ⊕ ρ) : Nat → σ → Option ρ
  | 0, _ => none
  | fuel + 1, s =>
      match body s with
      | .inl t => loop body fuel t
      | .inr r => some r

/-- The states in which a loop that starts in `s` runs its body. -/
inductive Turns (body : σ → σ ⊕ ρ) (s : σ) : σ → Prop
  | start : Turns body s s
  | turn {t u : σ} : Turns body s t → body t = .inl u → Turns body s u

/-- The loop that starts in `s` is left with `r`. -/
def Leaves (body : σ → σ ⊕ ρ) (s : σ) (r : ρ) : Prop :=
  ∃ fuel, loop body fuel s = some r

variable {body : σ → σ ⊕ ρ} {s t : σ} {r r' : ρ}

theorem loop_again (h : body s = .inl t) (fuel : Nat) :
    loop body (fuel + 1) s = loop body fuel t := by
  simp only [loop, h]

theorem loop_left (h : body s = .inr r) (fuel : Nat) : loop body (fuel + 1) s = some r := by
  simp only [loop, h]

/-- More fuel does not change a result. -/
theorem loop_add {fuel : Nat} (h : loop body fuel s = some r) (more : Nat) :
    loop body (fuel + more) s = some r := by
  induction fuel generalizing s with
  | zero => cases h
  | succ fuel ih =>
      rw [Nat.add_right_comm]
      cases hbody : body s with
      | inl t =>
          rw [loop_again hbody] at h ⊢
          exact ih h
      | inr r' =>
          rw [loop_left hbody] at h ⊢
          exact h

theorem leaves_left (h : body s = .inr r) : Leaves body s r := ⟨1, loop_left h 0⟩

theorem leaves_again (h : body s = .inl t) : Leaves body s r ↔ Leaves body t r := by
  constructor
  · rintro ⟨fuel, hfuel⟩
    cases fuel with
    | zero => cases hfuel
    | succ fuel => exact ⟨fuel, (loop_again h fuel).symm.trans hfuel⟩
  · rintro ⟨fuel, hfuel⟩
    exact ⟨fuel + 1, (loop_again h fuel).trans hfuel⟩

/-- A loop is left with one result only. -/
theorem Leaves.unique (h : Leaves body s r) (h' : Leaves body s r') : r = r' := by
  obtain ⟨fuel, hfuel⟩ := h
  obtain ⟨fuel', hfuel'⟩ := h'
  have hr := loop_add hfuel fuel'
  have hr' := loop_add hfuel' fuel
  rw [Nat.add_comm, hr] at hr'
  exact Option.some.inj hr'

/-- A loop whose body stays in `P` for ever is never left. -/
theorem not_leaves_of_stays {P : σ → Prop} (hstays : ∀ s, P s → ∃ t, body s = .inl t ∧ P t)
    (hs : P s) : ¬ Leaves body s r := by
  rintro ⟨fuel, hfuel⟩
  induction fuel generalizing s with
  | zero => cases hfuel
  | succ fuel ih =>
      obtain ⟨t, hbody, ht⟩ := hstays s hs
      rw [loop_again hbody] at hfuel
      exact ih ht hfuel

/-- The variant rule: a loop whose every turn lowers a measure is left. -/
theorem exists_leaves {P : σ → Prop} (measure : σ → Nat)
    (hturn : ∀ s t, P s → body s = .inl t → P t ∧ measure t < measure s) (hs : P s) :
    ∃ r, Leaves body s r := by
  induction hn : measure s using Nat.strongRecOn generalizing s with
  | ind n ih =>
      cases hbody : body s with
      | inl t =>
          obtain ⟨ht, hlt⟩ := hturn s t hs hbody
          obtain ⟨r, hr⟩ := ih (measure t) (hn ▸ hlt) ht rfl
          exact ⟨r, (leaves_again hbody).mpr hr⟩
      | inr r => exact ⟨r, leaves_left hbody⟩

/-- The invariant rule: what holds at the start and is kept by a turn holds in every turn. -/
theorem Turns.invariant {P : σ → Prop} (hturn : ∀ t u, P t → body t = .inl u → P u)
    (hs : P s) (h : Turns body s t) : P t := by
  induction h with
  | start => exact hs
  | turn _ hbody ih => exact hturn _ _ ih hbody

/-- A loop is left from a state in which it runs its body. -/
theorem Leaves.turns (h : Leaves body s r) : ∃ t, Turns body s t ∧ body t = .inr r := by
  obtain ⟨fuel, hfuel⟩ := h
  have hrun : ∀ fuel t, Turns body s t → loop body fuel t = some r →
      ∃ t, Turns body s t ∧ body t = .inr r := by
    intro fuel
    induction fuel with
    | zero =>
        intro t _ hnone
        cases hnone
    | succ fuel ih =>
        intro t ht hloop
        cases hbody : body t with
        | inl u =>
            rw [loop_again hbody] at hloop
            exact ih u (ht.turn hbody) hloop
        | inr r' =>
            rw [loop_left hbody] at hloop
            cases hloop
            exact ⟨t, ht, hbody⟩
  exact hrun fuel s .start hfuel

end SeastarLive
