/-
SeastarLive.Lib.LexicalPath — paths read as moves in a tree of names.

A path is a start (the root, or the place it is relative to) and a list of
moves: stay, go up, go down to a name. Following the moves without looking at
a file system gives a `Normal` form: how far above the start the path ends, and
the names below that.

* `follow_eq_climb_descend`: following moves is climbing as far as they climb
  from a start of their own, then descending the names they end with.
* `Beneath`: strictly below a place. `beneath_follow_iff` says when moves lead
  from a place to one beneath it.

Nothing here names a program; the names are of any type.
-/
import Mathlib.Data.List.Induction

namespace SeastarLive.LexicalPath

variable {α : Type}

/-! ## Normal forms -/

/-- One component of a path. -/
inductive Move (α : Type)
  | stay
  | up
  | down (name : α)
deriving DecidableEq

/-- Where a path leads: `ups` levels above its start, then down along `names`. There is
    nothing above the root. -/
structure Normal (α : Type) where
  absolute : Bool
  ups : Nat
  names : List α
  rooted : absolute = true → ups = 0

namespace Normal

@[ext] theorem ext {n m : Normal α} (habs : n.absolute = m.absolute) (hups : n.ups = m.ups)
    (hnames : n.names = m.names) : n = m := by
  cases n
  cases m
  simp_all

/-- The root. -/
def root : Normal α := ⟨true, 0, [], fun _ => rfl⟩

/-- The start of a relative path. -/
def here : Normal α := ⟨false, 0, [], fun h => by cases h⟩

/-- Where a path starts. -/
def origin (absolute : Bool) : Normal α := if absolute then root else here

/-- Go up `k` levels; the root is its own parent. -/
def climb (n : Normal α) (k : Nat) : Normal α where
  absolute := n.absolute
  ups := if n.absolute then 0 else n.ups + (k - n.names.length)
  names := n.names.take (n.names.length - k)
  rooted := fun h => by simp [h]

/-- Go down along names. -/
def descend (n : Normal α) (names : List α) : Normal α where
  absolute := n.absolute
  ups := n.ups
  names := n.names ++ names
  rooted := n.rooted

def move (n : Normal α) : Move α → Normal α
  | .stay => n
  | .up => n.climb 1
  | .down name => n.descend [name]

/-- Follow the moves of a path. -/
def follow (n : Normal α) (moves : List (Move α)) : Normal α := moves.foldl move n

@[simp] theorem climb_absolute (n : Normal α) (k : Nat) :
    (n.climb k).absolute = n.absolute := rfl

@[simp] theorem climb_names (n : Normal α) (k : Nat) :
    (n.climb k).names = n.names.take (n.names.length - k) := rfl

@[simp] theorem descend_absolute (n : Normal α) (names : List α) :
    (n.descend names).absolute = n.absolute := rfl

@[simp] theorem descend_ups (n : Normal α) (names : List α) : (n.descend names).ups = n.ups := rfl

@[simp] theorem descend_names (n : Normal α) (names : List α) :
    (n.descend names).names = n.names ++ names := rfl

@[simp] theorem here_ups : (here : Normal α).ups = 0 := rfl

@[simp] theorem here_names : (here : Normal α).names = [] := rfl

@[simp] theorem here_absolute : (here : Normal α).absolute = false := rfl

@[simp] theorem follow_nil (n : Normal α) : n.follow [] = n := rfl

@[simp] theorem follow_cons (n : Normal α) (m : Move α) (moves : List (Move α)) :
    n.follow (m :: moves) = (n.move m).follow moves := rfl

theorem follow_append (n : Normal α) (ms ms' : List (Move α)) :
    n.follow (ms ++ ms') = (n.follow ms).follow ms' :=
  List.foldl_append

@[simp] theorem climb_zero (n : Normal α) : n.climb 0 = n := by
  ext1
  · rfl
  · cases habs : n.absolute with
    | true => simp [climb, habs, n.rooted habs]
    | false => simp [climb, habs]
  · simp

theorem climb_climb (n : Normal α) (j k : Nat) : (n.climb j).climb k = n.climb (j + k) := by
  ext1
  · rfl
  · cases habs : n.absolute with
    | true => simp [climb, habs]
    | false =>
        simp only [climb, habs, List.length_take, Bool.false_eq_true, if_false]
        omega
  · simp only [climb_names, List.length_take, List.take_take]
    congr 1
    omega

theorem descend_descend (n : Normal α) (xs ys : List α) :
    (n.descend xs).descend ys = n.descend (xs ++ ys) := by
  ext1
  · rfl
  · rfl
  · simp

/-- Going down and up again cancels. -/
theorem descend_climb_one (n : Normal α) (xs : List α) (x : α) :
    (n.descend (xs ++ [x])).climb 1 = n.descend xs := by
  ext1
  · rfl
  · cases habs : n.absolute with
    | true => simp [climb, habs, n.rooted habs]
    | false =>
        simp only [climb, habs, descend_absolute, descend_ups, descend_names,
          List.length_append, List.length_singleton, Bool.false_eq_true, if_false]
        omega
  · have hdrop : (n.names ++ xs ++ [x]).dropLast = n.names ++ xs := List.dropLast_concat
    rw [List.dropLast_eq_take] at hdrop
    simpa using hdrop

/-! ## Moves from a start of their own -/

/-- Where moves lead from a start of their own. -/
def relative (moves : List (Move α)) : Normal α := here.follow moves

theorem follow_absolute (n : Normal α) (moves : List (Move α)) :
    (n.follow moves).absolute = n.absolute := by
  induction moves generalizing n with
  | nil => rfl
  | cons m moves ih =>
      rw [follow_cons, ih]
      cases m <;> rfl

/-- Following moves is climbing as far as they climb, then descending what they leave. -/
theorem follow_eq_climb_descend (n : Normal α) (moves : List (Move α)) :
    n.follow moves = (n.climb (relative moves).ups).descend (relative moves).names := by
  -- from the end of the list, so that both sides take the same last move
  induction moves using List.reverseRecOn with
  | nil =>
      ext1
      · rfl
      · simp [relative]
      · simp [relative]
  | append_singleton moves m ih =>
      have hrel : relative (moves ++ [m]) = (relative moves).move m := follow_append _ _ _
      have habs : (relative moves).absolute = false := follow_absolute _ _
      rw [follow_append, ih, hrel]
      cases m with
      | stay => rfl
      | down name => exact descend_descend _ _ _
      | up =>
          rcases List.eq_nil_or_concat (relative moves).names with hnil | ⟨xs, x, hxs⟩
          · -- nothing was descended, so the climb goes on
            have hups : ((relative moves).climb 1).ups = (relative moves).ups + 1 := by
              simp [climb, habs, hnil]
            have hnames : ((relative moves).climb 1).names = [] := by simp [hnil]
            have hdescend : ∀ m : Normal α, m.descend [] = m := by
              intro m
              ext1 <;> simp
            simp only [follow_cons, follow_nil, move, hups, hnames, hnil, hdescend]
            exact climb_climb n _ 1
          · rw [List.concat_eq_append] at hxs
            have hups : ((relative moves).climb 1).ups = (relative moves).ups := by
              simp [climb, habs, hxs]
            have hnames : ((relative moves).climb 1).names = xs := by simp [hxs]
            simp only [follow_cons, follow_nil, move, hups, hnames, hxs]
            exact descend_climb_one _ xs x

/-- A descent in front of moves is undone by the first of their climbs. -/
theorem relative_cons_down (x : α) (moves : List (Move α)) :
    (relative (.down x :: moves)).ups = (relative moves).ups - 1
      ∧ (relative (.down x :: moves)).names
          = (if (relative moves).ups = 0 then [x] else []) ++ (relative moves).names := by
  have h := follow_eq_climb_descend (here.descend [x]) moves
  have hrel : relative (.down x :: moves) = (here.descend [x]).follow moves := rfl
  rw [hrel, h]
  constructor
  · simp [climb]
  · cases (relative moves).ups with
    | zero => simp
    | succ k => simp

/-! ## Beneath -/

/-- `m` is strictly below `n`. -/
def Beneath (n m : Normal α) : Prop :=
  m.absolute = n.absolute ∧ m.ups = n.ups ∧ ∃ rest, rest ≠ [] ∧ m.names = n.names ++ rest

/-- A climb of `k` levels that comes back down along `names` ends strictly below its
    start: it stays below what the start is relative to, and goes down again by the names
    it left. -/
def Returns (n : Normal α) (k : Nat) (names : List α) : Prop :=
  (n.absolute = true ∨ k ≤ n.names.length)
    ∧ ∃ rest, rest ≠ [] ∧ names = n.names.drop (n.names.length - k) ++ rest

theorem climb_ups_eq_iff (n : Normal α) (k : Nat) :
    (n.climb k).ups = n.ups ↔ n.absolute = true ∨ k ≤ n.names.length := by
  cases habs : n.absolute with
  | true => simp [climb, habs, n.rooted habs]
  | false =>
      simp only [climb, habs, Bool.false_eq_true, if_false, false_or]
      omega

/-- When moves lead to a place strictly beneath their start. -/
theorem beneath_follow_iff (n : Normal α) (moves : List (Move α)) :
    Beneath n (n.follow moves) ↔ Returns n (relative moves).ups (relative moves).names := by
  have hsplit := List.take_append_drop (n.names.length - (relative moves).ups) n.names
  rw [follow_eq_climb_descend]
  unfold Beneath Returns
  simp only [descend_absolute, climb_absolute, descend_ups, climb_ups_eq_iff, true_and,
    descend_names, climb_names]
  refine and_congr_right fun _ => ?_
  constructor
  · intro ⟨rest, hne, heq⟩
    refine ⟨rest, hne, ?_⟩
    rw [← hsplit, List.append_assoc] at heq
    simpa using heq
  · intro ⟨rest, hne, heq⟩
    refine ⟨rest, hne, ?_⟩
    rw [heq, ← List.append_assoc, hsplit]

/-! ## Coming back -/

theorem returns_zero {n : Normal α} {x : α} {xs : List α} : Returns n 0 (x :: xs) := by
  refine ⟨.inr (Nat.zero_le _), x :: xs, List.cons_ne_nil x xs, ?_⟩
  simp

theorem eq_root_iff {n : Normal α} : n = root ↔ n.absolute = true ∧ n.names = [] := by
  constructor
  · intro h
    rw [h]
    exact ⟨rfl, rfl⟩
  · intro ⟨habs, hnames⟩
    exact ext habs (n.rooted habs) hnames

/-- With one name, a climb comes back only at the root. -/
theorem returns_one_name {n : Normal α} {k : Nat} {x : α} :
    Returns n (k + 1) [x] ↔ n = root := by
  rw [eq_root_iff]
  constructor
  · intro ⟨habove, rest, hne, hnames⟩
    have hrest : 0 < rest.length := List.length_pos_iff.mpr hne
    have hlength := congrArg List.length hnames
    simp only [List.length_singleton, List.length_append, List.length_drop] at hlength
    have hnil : n.names.length = 0 := by omega
    refine ⟨habove.resolve_right (by omega), List.length_eq_zero_iff.mp hnil⟩
  · intro ⟨habs, hnames⟩
    exact ⟨.inl habs, [x], by simp, by simp [hnames]⟩

/-- With two names, a climb of one level comes back at the root, or by the name left. -/
theorem returns_two_names {n : Normal α} {x y : α} :
    Returns n 1 [x, y] ↔ n = root ∨ n.names.getLast? = some x := by
  rw [eq_root_iff]
  rcases List.eq_nil_or_concat n.names with hnil | ⟨xs, z, hz⟩
  · constructor
    · intro ⟨habove, _⟩
      refine .inl ⟨habove.resolve_right ?_, hnil⟩
      simp [hnil]
    · rintro (⟨habs, -⟩ | hlast)
      · exact ⟨.inl habs, [x, y], by simp, by simp [hnil]⟩
      · simp [hnil] at hlast
  · rw [List.concat_eq_append] at hz
    have hdrop : n.names.drop (n.names.length - 1) = [z] := by
      simp [hz]
    unfold Normal.Returns
    rw [hdrop, hz]
    constructor
    · intro ⟨_, rest, _, hnames⟩
      refine .inr ?_
      simp only [List.singleton_append, List.cons.injEq] at hnames
      simp [hnames.1]
    · rintro (⟨-, hnames⟩ | hlast)
      · simp at hnames
      · have hzx : z = x := by simpa using hlast
        exact ⟨.inr (by simp), [y], by simp, by simp [hzx]⟩

end Normal

end SeastarLive.LexicalPath
