/-
SeastarLive.Lib.Feeding — readers that are fed a stream piece by piece.

A reader keeps a state between two pieces of its input. Its loop runs a turn as
long as there is input left; a turn may consume nothing, and it may give input back
that is read again before the rest. `feed` runs the loop with the fuel that the
measure of a `Lawful` reader allows.

* `feed_cons`: the loop without fuel.
* `feed_append`, `feedAll_eq`: how a stream is cut does not matter.
* `feed_invariant`: what every turn keeps, a stream keeps.
* `feed_map`: a map of the states that commutes with every turn commutes with the reader.

Nothing here names a program.
-/
import SeastarLive.Lib.Failure
import Mathlib.Data.List.Basic

namespace SeastarLive

/-- A reader with states `σ` of a stream of `β`, which fails with `ε`. -/
structure Feeder (σ β ε : Type) where
  /-- The next state, the input that is read again, and the rest. -/
  turn : σ → List β → Except ε (σ × List β × List β)
  /-- What one element of input, and a state, allow in turns. -/
  weight : Nat
  rank : σ → Nat
  /-- The failure of a reader that is out of fuel. -/
  exhausted : ε

/-- The first `n` elements of a stream in two pieces are in the front piece, or go on into the
    back piece. -/
theorem take_drop_append {β : Type} (n : Nat) (front back : List β) :
    (n ≤ front.length ∧ (front ++ back).take n = front.take n
        ∧ (front ++ back).drop n = front.drop n ++ back)
      ∨ (front.length < n ∧ front.take n = front ∧ front.drop n = []
        ∧ (front ++ back).take n = front ++ back.take (n - front.length)
        ∧ (front ++ back).drop n = back.drop (n - front.length)) := by
  rcases Nat.lt_or_ge front.length n with hlt | hle
  · refine .inr ⟨hlt, List.take_of_length_le (by omega), List.drop_of_length_le (by omega),
      ?_, ?_⟩
    · rw [List.take_append, List.take_of_length_le (by omega)]
    · rw [List.drop_append, List.drop_of_length_le (by omega), List.nil_append]
  · refine .inl ⟨hle, List.take_append_of_le_length hle, List.drop_append_of_le_length hle⟩

namespace Feeder

variable {σ β ε : Type} (F : Feeder σ β ε)

/-- The turns that a state and its input allow. -/
def fuel (s : σ) (data : List β) : Nat := F.weight * data.length + F.rank s

def feedWith : Nat → σ → List β → Except ε σ
  | _, s, [] => .ok s
  | 0, _, _ :: _ => .error F.exhausted
  | fuel + 1, s, b :: bs =>
      match F.turn s (b :: bs) with
      | .error e => .error e
      | .ok (t, again, rest) =>
          match feedWith fuel t again with
          | .error e => .error e
          | .ok u => feedWith fuel u rest

/-- Read a piece of the stream. -/
def feed (s : σ) (data : List β) : Except ε σ := F.feedWith (F.fuel s data + 1) s data

/-- Read one piece after the other. -/
def feedAll : σ → List (List β) → Except ε σ
  | s, [] => .ok s
  | s, data :: pieces =>
      match F.feed s data with
      | .error e => .error e
      | .ok t => feedAll t pieces

/-- A reader whose turns lower its measure, and may be cut anywhere: a turn that has a
    piece of its input either is done with it, or takes it all and goes on where it was. -/
structure Lawful : Prop where
  lowers : ∀ s data t again rest, data ≠ [] → F.turn s data = .ok (t, again, rest) →
    F.fuel t (again ++ rest) < F.fuel s data
  splits : ∀ s front back, front ≠ [] → back ≠ [] →
    (F.turn s (front ++ back)
        = (F.turn s front).map fun out => (out.1, out.2.1, out.2.2 ++ back))
      ∨ ∃ t, F.turn s front = .ok (t, [], []) ∧ F.turn s (front ++ back) = F.turn t back

@[simp] theorem feed_nil (s : σ) : F.feed s [] = .ok s := rfl

variable {F}

theorem fuel_append (s : σ) (front back : List β) :
    F.fuel s (front ++ back) = F.fuel s front + F.weight * back.length := by
  simp only [fuel, List.length_append, Nat.mul_add]
  omega

@[simp] theorem feedWith_nil (n : Nat) (s : σ) : F.feedWith n s [] = .ok s := by
  cases n <;> rfl

theorem feedWith_error {s : σ} {data : List β} {e : ε} (hdata : data ≠ [])
    (hturn : F.turn s data = .error e) (n : Nat) : F.feedWith (n + 1) s data = .error e := by
  cases data with
  | nil => exact absurd rfl hdata
  | cons b bs => simp only [feedWith, hturn]

theorem feedWith_turn {s t : σ} {data again rest : List β} (hdata : data ≠ [])
    (hturn : F.turn s data = .ok (t, again, rest)) (n : Nat) :
    F.feedWith (n + 1) s data = F.feedWith n t again >>= fun u => F.feedWith n u rest := by
  cases data with
  | nil => exact absurd rfl hdata
  | cons b bs =>
      simp only [feedWith, hturn]
      cases F.feedWith n t again <;> rfl

theorem feed_error {s : σ} {data : List β} {e : ε} (hdata : data ≠ [])
    (hturn : F.turn s data = .error e) : F.feed s data = .error e :=
  feedWith_error hdata hturn _

section Laws

variable (hF : F.Lawful)
include hF

/-- What is read lowers the measure of what comes behind it, and fuel that is enough gives
    the same as more. -/
theorem feedWith_spec (n : Nat) :
    ∀ (s : σ) (data : List β), F.fuel s data ≤ n →
      (∀ t, F.feedWith (n + 1) s data = .ok t → F.rank t ≤ F.fuel s data)
        ∧ ∀ more, F.feedWith (n + 1 + more) s data = F.feedWith (n + 1) s data := by
  induction n with
  | zero =>
      intro s data hn
      by_cases hdata : data = []
      · subst hdata
        simp [fuel]
      · -- no turn is left, so there is none that succeeds
        cases hturn : F.turn s data with
        | ok out =>
            have hlt := hF.lowers s data out.1 out.2.1 out.2.2 hdata hturn
            omega
        | error e =>
            refine ⟨by simp [feedWith_error hdata hturn], fun more => ?_⟩
            rw [Nat.add_right_comm, feedWith_error hdata hturn, feedWith_error hdata hturn]
  | succ n ih =>
      intro s data hn
      by_cases hdata : data = []
      · subst hdata
        simp [fuel]
      · cases hturn : F.turn s data with
        | error e => simp [feedWith_error hdata hturn, Nat.add_right_comm]
        | ok out =>
            obtain ⟨t, again, rest⟩ := out
            have hlt := hF.lowers s data t again rest hdata hturn
            rw [fuel_append] at hlt
            obtain ⟨hrank, hmore⟩ := ih t again (by omega)
            simp only [Nat.add_right_comm _ 1, feedWith_turn hdata hturn]
            cases hagain : F.feedWith (n + 1) t again with
            | error e =>
                refine ⟨by simp, fun more => ?_⟩
                rw [← Nat.add_right_comm, hmore, hagain]
                rfl
            | ok u =>
                have hu := hrank u hagain
                have hrest : F.fuel u rest ≤ n := by
                  simp only [fuel] at hn hlt hu ⊢
                  omega
                obtain ⟨hrank', hmore'⟩ := ih u rest hrest
                refine ⟨?_, fun more => ?_⟩
                · intro v hv
                  have hv' := hrank' v hv
                  simp only [fuel] at hlt hu hv' ⊢
                  omega
                · rw [← Nat.add_right_comm, hmore, hagain]
                  exact hmore' more

/-- Any fuel from the measure on reads the piece. -/
theorem feedWith_eq_feed {s : σ} {data : List β} {n : Nat} (hn : F.fuel s data < n) :
    F.feedWith n s data = F.feed s data := by
  obtain ⟨more, rfl⟩ : ∃ more, n = F.fuel s data + 1 + more := ⟨n - (F.fuel s data + 1), by omega⟩
  exact (feedWith_spec hF (F.fuel s data) s data (Nat.le_refl _)).2 more

theorem rank_le_of_feed {s t : σ} {data : List β} (h : F.feed s data = .ok t) :
    F.rank t ≤ F.fuel s data :=
  (feedWith_spec hF (F.fuel s data) s data (Nat.le_refl _)).1 t h

/-- The loop without fuel: a turn, what it gives back, and the rest. -/
theorem feed_cons {s t : σ} {data again rest : List β} (hdata : data ≠ [])
    (hturn : F.turn s data = .ok (t, again, rest)) :
    F.feed s data = F.feed t again >>= fun u => F.feed u rest := by
  have hlt := hF.lowers s data t again rest hdata hturn
  rw [fuel_append] at hlt
  have hagain : F.feedWith (F.fuel s data) t again = F.feed t again :=
    feedWith_eq_feed hF (by omega)
  have hloop : F.feed s data
      = F.feed t again >>= fun u => F.feedWith (F.fuel s data) u rest := by
    rw [← hagain]
    exact feedWith_turn hdata hturn _
  rw [hloop]
  cases hfed : F.feed t again with
  | error e => rfl
  | ok u =>
      have hu := rank_le_of_feed hF hfed
      refine feedWith_eq_feed hF ?_
      simp only [fuel] at hlt hu ⊢
      omega

/-- How the stream is cut does not matter. -/
theorem feed_append (s : σ) (front back : List β) :
    F.feed s (front ++ back) = F.feed s front >>= fun t => F.feed t back := by
  induction hn : F.fuel s front using Nat.strongRecOn generalizing s front with
  | ind n ih =>
      subst hn
      by_cases hfront : front = []
      · subst hfront
        rfl
      by_cases hback : back = []
      · subst hback
        rw [List.append_nil]
        cases F.feed s front <;> rfl
      have hboth : front ++ back ≠ [] := by simp [hfront]
      rcases hF.splits s front back hfront hback with hdone | ⟨t, hpart, hgoes⟩
      · cases hturn : F.turn s front with
        | error e =>
            rw [hturn] at hdone
            rw [feed_error hboth hdone, feed_error hfront hturn]
            rfl
        | ok out =>
            obtain ⟨t, again, rest⟩ := out
            rw [hturn] at hdone
            have hlt := hF.lowers s front t again rest hfront hturn
            rw [fuel_append] at hlt
            rw [feed_cons hF hboth hdone, feed_cons hF hfront hturn]
            simp only
            cases hagain : F.feed t again with
            | error e => rfl
            | ok u =>
                have hu := rank_le_of_feed hF hagain
                refine ih _ ?_ u rest rfl
                simp only [fuel] at hlt hu ⊢
                omega
      · -- the turn stops where the piece ends
        rw [feed_cons hF hfront hpart, feed_nil, ok_bind, feed_nil, ok_bind]
        cases hturn : F.turn t back with
        | error e =>
            rw [feed_error hback hturn, feed_error hboth (hgoes.trans hturn)]
        | ok out =>
            obtain ⟨u, again, rest⟩ := out
            rw [feed_cons hF hback hturn, feed_cons hF hboth (hgoes.trans hturn)]

/-- The loop with what is read again put back in front of the rest. -/
theorem feed_turn {s t : σ} {data again rest : List β} (hdata : data ≠ [])
    (hturn : F.turn s data = .ok (t, again, rest)) :
    F.feed s data = F.feed t (again ++ rest) := by
  rw [feed_cons hF hdata hturn, feed_append hF]

/-- A stream in pieces is read as the stream. -/
theorem feedAll_eq (s : σ) (pieces : List (List β)) :
    F.feedAll s pieces = F.feed s pieces.flatten := by
  induction pieces generalizing s with
  | nil => rfl
  | cons data pieces ih =>
      rw [List.flatten_cons, feed_append hF]
      simp only [feedAll]
      cases F.feed s data with
      | error e => rfl
      | ok t => exact ih t

/-- The rule for one reader: what every turn keeps, a piece keeps, and the reader fails only as
    its turns fail. -/
theorem feed_invariant {P : σ → Prop} {Q : ε → Prop}
    (hok : ∀ s data t again rest, P s → data ≠ [] → F.turn s data = .ok (t, again, rest) → P t)
    (herror : ∀ s data e, P s → data ≠ [] → F.turn s data = .error e → Q e)
    {s : σ} (hs : P s) (data : List β) :
    (∃ t, F.feed s data = .ok t ∧ P t) ∨ ∃ e, F.feed s data = .error e ∧ Q e := by
  induction hn : F.fuel s data using Nat.strongRecOn generalizing s data with
  | ind n ih =>
      subst hn
      by_cases hdata : data = []
      · subst hdata
        exact .inl ⟨s, rfl, hs⟩
      cases hturn : F.turn s data with
      | error e => exact .inr ⟨e, feed_error hdata hturn, herror s data e hs hdata hturn⟩
      | ok out =>
          obtain ⟨t, again, rest⟩ := out
          have hlt := hF.lowers s data t again rest hdata hturn
          rw [feed_turn hF hdata hturn]
          exact ih _ hlt (hok s data t again rest hs hdata hturn) (again ++ rest) rfl

/-- A map of the states that commutes with every turn. -/
theorem feed_map {f : σ → σ}
    (hmap : ∀ s data, F.turn (f s) data = (F.turn s data).map fun out => (f out.1, out.2))
    (s : σ) (data : List β) : F.feed (f s) data = (F.feed s data).map f := by
  induction hn : F.fuel s data using Nat.strongRecOn generalizing s data with
  | ind n ih =>
      subst hn
      by_cases hdata : data = []
      · subst hdata
        rfl
      have hfs := hmap s data
      cases hturn : F.turn s data with
      | error e =>
          rw [hturn] at hfs
          rw [feed_error hdata hfs, feed_error hdata hturn]
          rfl
      | ok out =>
          obtain ⟨t, again, rest⟩ := out
          rw [hturn] at hfs
          have hlt := hF.lowers s data t again rest hdata hturn
          rw [feed_turn hF hdata hfs, feed_turn hF hdata hturn]
          exact ih _ hlt t (again ++ rest) rfl

end Laws

end Feeder

end SeastarLive
