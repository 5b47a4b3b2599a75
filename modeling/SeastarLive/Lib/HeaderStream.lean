/-
SeastarLive.Lib.HeaderStream — streams in which some items are headers and the
header before an item says how to read it.

A consumer that joins late, or that drops what it does not want, must still
see every body item under the right header. The module fixes what that means
and which list operations keep it:

* `latest` and `stamp`: the header in force at the end of a stream, and the
  body items each with the header in force at it.
* `pushCollapse`: the append that overwrites a header no body item followed,
  and `collapse`, what a whole run of such appends leaves.
* `Window w l`: `w` is a tail of `l` cut between two items, restarted with
  the header in force at the cut. `Window.push` extends both sides by one
  item and `Window.evict` drops a prefix of the window.

Nothing here names a program; the items and the header test are parameters.
-/
import Mathlib.Data.List.Chain

namespace SeastarLive.HeaderStream

variable {α : Type} (isHeader : α → Bool)

/-! ## The header in force -/

/-- The header in force after `xs`, when `h` was in force before it. -/
def latest (h : Option α) : List α → Option α
  | [] => h
  | x :: xs => latest (if isHeader x then some x else h) xs

/-- The body items of a stream, each with the header in force at it. -/
def stamp (h : Option α) : List α → List (Option α × α)
  | [] => []
  | x :: xs => if isHeader x then stamp (some x) xs else (h, x) :: stamp h xs

@[simp] theorem stamp_nil (h : Option α) : stamp isHeader h [] = [] := rfl

theorem latest_append (h : Option α) (xs ys : List α) :
    latest isHeader h (xs ++ ys) = latest isHeader (latest isHeader h xs) ys := by
  induction xs generalizing h with
  | nil => rfl
  | cons x xs ih => exact ih _

theorem stamp_append (h : Option α) (xs ys : List α) :
    stamp isHeader h (xs ++ ys)
      = stamp isHeader h xs ++ stamp isHeader (latest isHeader h xs) ys := by
  induction xs generalizing h with
  | nil => rfl
  | cons x xs ih =>
      by_cases hx : isHeader x <;> simp [stamp, latest, hx, ih]

/-- A header at the front makes what was in force before it irrelevant. -/
theorem latest_cons_header {x : α} (hx : isHeader x = true) (h : Option α)
    (xs : List α) : latest isHeader h (x :: xs) = latest isHeader (some x) xs := by
  simp [latest, hx]

theorem stamp_cons_header {x : α} (hx : isHeader x = true) (h : Option α)
    (xs : List α) : stamp isHeader h (x :: xs) = stamp isHeader (some x) xs := by
  simp [stamp, hx]

/-- The stamped items are the body items of the stream, in order. -/
theorem map_snd_stamp (h : Option α) (xs : List α) :
    (stamp isHeader h xs).map Prod.snd = xs.filter fun x => !isHeader x := by
  induction xs generalizing h with
  | nil => rfl
  | cons x xs ih =>
      by_cases hx : isHeader x <;> simp [stamp, hx, ih]

theorem latest_isSome {h : Option α} (hh : h.isSome) (xs : List α) :
    (latest isHeader h xs).isSome := by
  induction xs generalizing h with
  | nil => exact hh
  | cons x xs ih =>
      refine ih ?_
      split
      · rfl
      · exact hh

/-- The initial header only matters when the stream has none. -/
theorem latest_eq_or (h : Option α) (xs : List α) :
    latest isHeader h xs = (latest isHeader none xs).or h := by
  induction xs generalizing h with
  | nil => rfl
  | cons x xs ih =>
      by_cases hx : isHeader x
      · have hsome := latest_isSome isHeader (h := some x) rfl xs
        simp only [latest, hx, if_true, Option.or_of_isSome hsome]
      · simp only [latest, hx, if_false, Bool.false_eq_true]
        exact ih h

/-- What is in force is the initial header or a header of the stream. -/
theorem latest_mem {h : Option α} {xs : List α} {y : α}
    (hy : latest isHeader h xs = some y) :
    h = some y ∨ y ∈ xs ∧ isHeader y = true := by
  induction xs generalizing h with
  | nil => exact .inl hy
  | cons x xs ih =>
      rcases ih hy with hy' | ⟨hmem, hhead⟩
      · by_cases hx : isHeader x
        · simp only [hx, if_true, Option.some.injEq] at hy'
          subst hy'
          exact .inr ⟨List.mem_cons_self, hx⟩
        · simp only [hx, if_false, Bool.false_eq_true] at hy'
          exact .inl hy'
      · exact .inr ⟨List.mem_cons_of_mem x hmem, hhead⟩

/-- Once a header is in force every later body item is stamped by one. -/
theorem stamp_isSome {h : Option α} (hh : h.isSome) {xs : List α} {p : Option α × α}
    (hp : p ∈ stamp isHeader h xs) : p.1.isSome := by
  induction xs generalizing h with
  | nil => cases hp
  | cons x xs ih =>
      by_cases hx : isHeader x
      · simp only [stamp, hx, if_true] at hp
        exact ih rfl hp
      · simp only [stamp, hx, if_false, Bool.false_eq_true, List.mem_cons] at hp
        rcases hp with rfl | hp
        · exact hh
        · exact ih hh hp

/-- A stamped item is a body item of the stream at a position where its stamp is in
    force. -/
theorem stamp_eq_append_cons {h h' : Option α} {x : α} {xs : List α}
    {ps qs : List (Option α × α)} (hs : stamp isHeader h xs = ps ++ (h', x) :: qs) :
    ∃ ys zs, xs = ys ++ x :: zs ∧ latest isHeader h ys = h' ∧ stamp isHeader h' zs = qs := by
  induction xs generalizing h ps with
  | nil => simp at hs
  | cons y xs ih =>
      by_cases hy : isHeader y
      · simp only [stamp, hy, if_true] at hs
        obtain ⟨ys, zs, rfl, hlatest, hstamp⟩ := ih hs
        exact ⟨y :: ys, zs, rfl, by simpa [latest, hy] using hlatest, hstamp⟩
      · simp only [stamp, hy, if_false, Bool.false_eq_true] at hs
        cases ps with
        | nil =>
            simp only [List.nil_append, List.cons.injEq, Prod.mk.injEq] at hs
            obtain ⟨⟨rfl, rfl⟩, hstamp⟩ := hs
            exact ⟨[], xs, rfl, rfl, hstamp⟩
        | cons p ps =>
            simp only [List.cons_append, List.cons.injEq] at hs
            obtain ⟨ys, zs, rfl, hlatest, hstamp⟩ := ih hs.2
            exact ⟨y :: ys, zs, rfl, by simpa [latest, hy] using hlatest, hstamp⟩

/-! ## Streams without idle headers -/

/-- No two headers are adjacent. -/
def Separated (xs : List α) : Prop :=
  xs.IsChain fun a b => ¬ (isHeader a = true ∧ isHeader b = true)

/-- A stream that is empty or starts with a header. -/
def Headed (xs : List α) : Prop :=
  ∀ x ∈ xs.head?, isHeader x = true

theorem Headed.latest_isSome {xs : List α} (hxs : Headed isHeader xs) (hne : xs ≠ [])
    (h : Option α) : (latest isHeader h xs).isSome := by
  cases xs with
  | nil => exact absurd rfl hne
  | cons x xs =>
      have hx : isHeader x = true := hxs x rfl
      rw [latest_cons_header isHeader hx]
      exact HeaderStream.latest_isSome isHeader rfl xs

/-- A headed stream is stamped the same whatever was in force before it. -/
theorem Headed.stamp_eq {xs : List α} (hxs : Headed isHeader xs) (h h' : Option α) :
    stamp isHeader h xs = stamp isHeader h' xs := by
  cases xs with
  | nil => rfl
  | cons x xs =>
      have hx : isHeader x = true := hxs x rfl
      rw [stamp_cons_header isHeader hx, stamp_cons_header isHeader hx]

theorem Headed.latest_eq {xs : List α} (hxs : Headed isHeader xs) (hne : xs ≠ [])
    (h h' : Option α) : latest isHeader h xs = latest isHeader h' xs := by
  cases xs with
  | nil => exact absurd rfl hne
  | cons x xs =>
      have hx : isHeader x = true := hxs x rfl
      rw [latest_cons_header isHeader hx, latest_cons_header isHeader hx]

theorem Headed.stamped {xs : List α} (hxs : Headed isHeader xs) {h : Option α}
    {p : Option α × α} (hp : p ∈ stamp isHeader h xs) : p.1.isSome := by
  cases xs with
  | nil => cases hp
  | cons x xs =>
      rw [stamp_cons_header isHeader (hxs x rfl)] at hp
      exact stamp_isSome isHeader rfl hp

/-- Whether the last item of a stream is a header. -/
def endsWithHeader (xs : List α) : Bool :=
  xs.getLast?.any isHeader

/-- Append an item; a header takes the place of a header at the end. -/
def pushCollapse (xs : List α) (x : α) : List α :=
  if isHeader x && endsWithHeader isHeader xs then xs.dropLast ++ [x] else xs ++ [x]

theorem endsWithHeader_concat (xs : List α) (x : α) :
    endsWithHeader isHeader (xs ++ [x]) = isHeader x := by
  simp [endsWithHeader]

theorem endsWithHeader_iff (xs : List α) :
    endsWithHeader isHeader xs = true ↔ ∃ z, xs.getLast? = some z ∧ isHeader z = true := by
  simp [endsWithHeader, Option.any_eq_true]

theorem pushCollapse_body {x : α} (hx : isHeader x = false) (xs : List α) :
    pushCollapse isHeader xs x = xs ++ [x] := by
  simp [pushCollapse, hx]

theorem pushCollapse_ne_nil (xs : List α) (x : α) : pushCollapse isHeader xs x ≠ [] := by
  unfold pushCollapse
  split <;> simp

/-- Only the last part of a stream matters to a collapsing append. -/
theorem pushCollapse_append {ys : List α} (hys : ys ≠ []) (xs : List α) (x : α) :
    pushCollapse isHeader (xs ++ ys) x = xs ++ pushCollapse isHeader ys x := by
  have hend : endsWithHeader isHeader (xs ++ ys) = endsWithHeader isHeader ys := by
    simp [endsWithHeader, List.getLast?_append_of_ne_nil xs hys]
  unfold pushCollapse
  rw [hend]
  split
  · rw [List.dropLast_append_of_ne_nil hys, List.append_assoc]
  · rw [List.append_assoc]

theorem pushCollapse_concat_header {x y : α} (hx : isHeader x = true)
    (hy : isHeader y = true) (xs : List α) :
    pushCollapse isHeader (xs ++ [y]) x = xs ++ [x] := by
  simp [pushCollapse, hx, endsWithHeader_concat, hy]

/-- Either the item is appended, or it overwrites a header at the end. -/
theorem pushCollapse_cases (xs : List α) (x : α) :
    (pushCollapse isHeader xs x = xs ++ [x]
        ∧ ¬ (isHeader x = true ∧ endsWithHeader isHeader xs = true))
      ∨ ∃ ys y, xs = ys ++ [y] ∧ isHeader y = true ∧ isHeader x = true
          ∧ pushCollapse isHeader xs x = ys ++ [x] := by
  by_cases hc : isHeader x = true ∧ endsWithHeader isHeader xs = true
  · obtain ⟨hx, hend⟩ := hc
    rcases List.eq_nil_or_concat xs with rfl | ⟨ys, y, rfl⟩
    · simp [endsWithHeader] at hend
    · simp only [List.concat_eq_append, endsWithHeader_concat] at hend ⊢
      exact .inr ⟨ys, y, rfl, hend, hx, pushCollapse_concat_header isHeader hx hend ys⟩
  · refine .inl ⟨?_, hc⟩
    simpa [pushCollapse] using fun h₁ h₂ => absurd ⟨h₁, h₂⟩ hc

/-- Collapsing loses no body item and changes the header of none. -/
theorem stamp_pushCollapse (h : Option α) (xs : List α) (x : α) :
    stamp isHeader h (pushCollapse isHeader xs x) = stamp isHeader h (xs ++ [x]) := by
  rcases pushCollapse_cases isHeader xs x with ⟨heq, -⟩ | ⟨ys, y, rfl, hy, hx, heq⟩
  · rw [heq]
  · rw [heq]
    simp [stamp_append, stamp, hx, hy]

theorem getLast?_pushCollapse (xs : List α) (x : α) :
    (pushCollapse isHeader xs x).getLast? = some x := by
  unfold pushCollapse
  split <;> simp

theorem latest_pushCollapse (h : Option α) (xs : List α) (x : α) :
    latest isHeader h (pushCollapse isHeader xs x) = latest isHeader h (xs ++ [x]) := by
  rcases pushCollapse_cases isHeader xs x with ⟨heq, -⟩ | ⟨ys, y, rfl, hy, hx, heq⟩
  · rw [heq]
  · rw [heq]
    simp [latest_append, latest, hx]

theorem separated_concat {xs : List α} {x : α} (hxs : Separated isHeader xs)
    (hx : ¬ (isHeader x = true ∧ endsWithHeader isHeader xs = true)) :
    Separated isHeader (xs ++ [x]) := by
  refine List.isChain_append.mpr ⟨hxs, List.isChain_singleton x, ?_⟩
  intro a ha b hb
  simp only [List.head?_cons, Option.mem_def, Option.some.injEq] at hb
  subst hb
  rintro ⟨h₁, h₂⟩
  exact hx ⟨h₂, by rw [endsWithHeader, Option.mem_def.mp ha]; exact h₁⟩

theorem separated_pushCollapse {xs : List α} (hxs : Separated isHeader xs) (x : α) :
    Separated isHeader (pushCollapse isHeader xs x) := by
  rcases pushCollapse_cases isHeader xs x with ⟨heq, hx⟩ | ⟨ys, y, rfl, hy, -, heq⟩
  · rw [heq]
    exact separated_concat isHeader hxs hx
  · rw [heq]
    obtain ⟨hys, -, hlast⟩ := List.isChain_append.mp hxs
    refine separated_concat isHeader hys ?_
    rintro ⟨-, hend⟩
    obtain ⟨z, hz, hzh⟩ := (endsWithHeader_iff isHeader ys).mp hend
    exact hlast z hz y rfl ⟨hzh, hy⟩

theorem headed_pushCollapse {xs : List α} {x : α} (hxs : Headed isHeader xs)
    (hx : xs = [] → isHeader x = true) : Headed isHeader (pushCollapse isHeader xs x) := by
  rcases pushCollapse_cases isHeader xs x with ⟨heq, -⟩ | ⟨ys, y, rfl, -, hxh, heq⟩
  · rw [heq]
    cases xs with
    | nil => simpa [Headed] using hx rfl
    | cons z zs => simpa [Headed] using hxs
  · rw [heq]
    cases ys with
    | nil => simpa [Headed] using hxh
    | cons z zs => simpa [Headed] using hxs

/-! ## Collapsed runs -/

/-- A run of items without the headers that another header follows at once. -/
def collapse : List α → List α
  | [] => []
  | [x] => [x]
  | x :: y :: rest =>
      if isHeader x && isHeader y then collapse (y :: rest) else x :: collapse (y :: rest)

theorem collapse_ne_nil {xs : List α} (hxs : xs ≠ []) : collapse isHeader xs ≠ [] := by
  induction xs using collapse.induct isHeader with
  | case1 => exact absurd rfl hxs
  | case2 x => simp [collapse]
  | case3 x y rest hboth ih => simpa [collapse, hboth] using ih
  | case4 x y rest hboth ih => simp [collapse, hboth]

/-- Pushing items one by one collapses the run they make. -/
theorem collapse_concat (xs : List α) (x : α) :
    collapse isHeader (xs ++ [x]) = pushCollapse isHeader (collapse isHeader xs) x := by
  induction xs using collapse.induct isHeader with
  | case1 => simp [collapse, pushCollapse, endsWithHeader]
  | case2 y =>
      by_cases hx : isHeader x <;> by_cases hy : isHeader y <;>
        simp [collapse, pushCollapse, endsWithHeader, hx, hy]
  | case3 y z rest hboth ih =>
      simp only [List.cons_append] at ih ⊢
      simp only [collapse, hboth, if_true]
      exact ih
  | case4 y z rest hboth ih =>
      have hne := collapse_ne_nil isHeader (List.cons_ne_nil z rest)
      have hcons := pushCollapse_append isHeader hne [y] x
      simp only [List.cons_append, List.nil_append] at ih hcons ⊢
      simp only [collapse, hboth, if_false, Bool.false_eq_true]
      rw [ih, hcons]

/-- A collapsed run has the body items of the run. -/
theorem filter_collapse (xs : List α) :
    ((collapse isHeader xs).filter fun x => !isHeader x) = xs.filter fun x => !isHeader x := by
  induction xs using collapse.induct isHeader with
  | case1 => rfl
  | case2 x => rfl
  | case3 x y rest hboth ih =>
      have hx : isHeader x = true := ((Bool.and_eq_true ..).mp hboth).1
      simp only [collapse, hboth, if_true]
      rw [ih]
      simp [hx]
  | case4 x y rest hboth ih =>
      simp only [collapse, hboth, if_false, Bool.false_eq_true]
      rw [List.filter_cons, ih]
      cases hx : isHeader x <;> simp [hx]

/-- Runs that are collapsed one by one have the body items of the whole. -/
theorem filter_flatten_collapse (runs : List (List α)) :
    ((runs.map (collapse isHeader)).flatten.filter fun x => !isHeader x)
      = runs.flatten.filter fun x => !isHeader x := by
  induction runs with
  | nil => rfl
  | cons run runs ih =>
      simp only [List.map_cons, List.flatten_cons, List.filter_append]
      rw [ih, filter_collapse]

/-! ## Windows -/

/-- A window of `l`: the body items of a tail of `l`, each under the header it has in
    `l`, with the last item and the header in force at the end of `l`, and no header
    without purpose. -/
structure Window (w l : List α) : Prop where
  suffix : stamp isHeader none w <:+ stamp isHeader none l
  latest_eq : latest isHeader none w = latest isHeader none l
  last_eq : w.getLast? = l.getLast?
  headed : Headed isHeader w
  separated : Separated isHeader w

theorem Window.nil : Window isHeader [] ([] : List α) :=
  ⟨List.suffix_refl _, rfl, rfl, by simp [Headed], List.isChain_nil⟩

variable {isHeader}

/-- One more item on both sides keeps a window. -/
theorem Window.push {w l : List α} (hw : Window isHeader w l) {x : α}
    (hx : w = [] → isHeader x = true) :
    Window isHeader (pushCollapse isHeader w x) (l ++ [x]) where
  suffix := by
    rw [stamp_pushCollapse, stamp_append, stamp_append, hw.latest_eq]
    obtain ⟨t, ht⟩ := hw.suffix
    exact ⟨t, by rw [← ht, List.append_assoc]⟩
  latest_eq := by
    rw [latest_pushCollapse, latest_append, latest_append, hw.latest_eq]
  last_eq := by
    rw [getLast?_pushCollapse, List.getLast?_concat]
  headed := headed_pushCollapse isHeader hw.headed hx
  separated := separated_pushCollapse isHeader hw.separated x

/-- Restart `w₂` with `h`, unless it starts with a header of its own. -/
def restart (isHeader : α → Bool) (h : α) (w₂ : List α) : List α :=
  if w₂.head?.any isHeader then w₂ else h :: w₂

/-- Dropping a prefix of a window keeps a window when what is left is restarted with
    the header in force at the cut. -/
theorem Window.evict {w₁ w₂ l : List α} (hw : Window isHeader (w₁ ++ w₂) l)
    (hne : w₂ ≠ []) {h : α} (hh : latest isHeader none w₁ = some h) :
    Window isHeader (restart isHeader h w₂) l := by
  have hhead : isHeader h = true := by
    rcases latest_mem isHeader hh with hnone | ⟨-, hhead⟩
    · cases hnone
    · exact hhead
  have hcut : stamp isHeader (some h) w₂ <:+ stamp isHeader none l := by
    refine List.IsSuffix.trans ?_ hw.suffix
    rw [stamp_append, hh]
    exact List.suffix_append _ _
  have hlatest : latest isHeader (some h) w₂ = latest isHeader none l := by
    rw [← hw.latest_eq, latest_append, hh]
  have hlast : w₂.getLast? = l.getLast? := by
    rw [← hw.last_eq, List.getLast?_append_of_ne_nil w₁ hne]
  have hsep : Separated isHeader w₂ := (List.isChain_append.mp hw.separated).2.1
  cases w₂ with
  | nil => exact absurd rfl hne
  | cons x xs =>
      by_cases hx : isHeader x
      · have hheaded : Headed isHeader (x :: xs) := by simpa [Headed] using hx
        have heq : restart isHeader h (x :: xs) = x :: xs := by simp [restart, hx]
        rw [heq]
        refine ⟨?_, ?_, hlast, hheaded, hsep⟩
        · rwa [hheaded.stamp_eq isHeader none (some h)]
        · rwa [hheaded.latest_eq isHeader hne none (some h)]
      · have heq : restart isHeader h (x :: xs) = h :: x :: xs := by simp [restart, hx]
        rw [heq]
        refine ⟨?_, ?_, ?_, by simpa [Headed] using hhead, ?_⟩
        · rwa [stamp_cons_header isHeader hhead]
        · rwa [latest_cons_header isHeader hhead]
        · rwa [List.getLast?_cons_cons]
        · exact List.isChain_cons_cons.mpr ⟨fun hboth => hx hboth.2, hsep⟩

/-- The body items of a window are the last body items of the stream. -/
theorem Window.body_suffix {w l : List α} (hw : Window isHeader w l) :
    (w.filter fun x => !isHeader x) <:+ l.filter fun x => !isHeader x := by
  rw [← map_snd_stamp isHeader none, ← map_snd_stamp isHeader none]
  exact hw.suffix.map Prod.snd

/-- A body item of a window is one of the stream, under the same header and with the
    same body items after it. -/
theorem Window.split {w l xs ys : List α} {x : α} (hw : Window isHeader w l)
    (hx : isHeader x = false) (heq : w = xs ++ x :: ys) :
    ∃ ls ks, l = ls ++ x :: ks ∧ latest isHeader none ls = latest isHeader none xs
      ∧ (ys.filter fun x => !isHeader x) = ks.filter fun x => !isHeader x := by
  obtain ⟨t, ht⟩ := hw.suffix
  rw [heq, stamp_append] at ht
  simp only [stamp, hx, if_false, Bool.false_eq_true, ← List.append_assoc] at ht
  obtain ⟨ls, ks, hl, hlatest, hstamp⟩ := stamp_eq_append_cons isHeader ht.symm
  refine ⟨ls, ks, hl, hlatest, ?_⟩
  rw [← map_snd_stamp isHeader, ← map_snd_stamp isHeader, hstamp]

/-! ## Readers -/

variable (isHeader)

/-- A reader of the stream `l` that holds the header `h`, has emitted the body items
    `done` and has `rest` still to read. -/
structure Reader (done : List (Option α × α)) (h : Option α) (rest l : List α) : Prop where
  stamp_eq : done ++ stamp isHeader h rest = stamp isHeader none l
  latest_eq : latest isHeader h rest = latest isHeader none l

theorem Reader.start : Reader isHeader [] none ([] : List α) [] := ⟨rfl, rfl⟩

variable {isHeader}

/-- An item that arrives at the end of what is still to read, collapsing there. -/
theorem Reader.push {done : List (Option α × α)} {h : Option α} {xs ys l : List α}
    (hr : Reader isHeader done h (xs ++ ys) l) (x : α) :
    Reader isHeader done h (xs ++ pushCollapse isHeader ys x) (l ++ [x]) where
  stamp_eq := by
    have heq := hr.stamp_eq
    have hlatest := hr.latest_eq
    rw [stamp_append] at heq
    rw [latest_append] at hlatest
    rw [stamp_append, stamp_pushCollapse, stamp_append, stamp_append, ← heq, ← hlatest]
    simp only [List.append_assoc]
  latest_eq := by
    have hlatest := hr.latest_eq
    rw [latest_append] at hlatest
    rw [latest_append, latest_pushCollapse, latest_append, hlatest, latest_append]

/-- Reading a header puts it in force. -/
theorem Reader.header {done : List (Option α × α)} {h : Option α} {x : α} {rest l : List α}
    (hr : Reader isHeader done h (x :: rest) l) (hx : isHeader x = true) :
    Reader isHeader done (some x) rest l :=
  ⟨by rw [← hr.stamp_eq, stamp_cons_header isHeader hx],
    by rw [← hr.latest_eq, latest_cons_header isHeader hx]⟩

/-- Reading a body item emits it under the header in force. -/
theorem Reader.body {done : List (Option α × α)} {h : Option α} {x : α} {rest l : List α}
    (hr : Reader isHeader done h (x :: rest) l) (hx : isHeader x = false) :
    Reader isHeader (done ++ [(h, x)]) h rest l where
  stamp_eq := by
    rw [← hr.stamp_eq]
    simp [stamp, hx]
  latest_eq := by
    rw [← hr.latest_eq]
    simp [latest, hx]

/-- The next body item is one of the stream, under the header the reader holds. -/
theorem Reader.next_mem {done : List (Option α × α)} {h : Option α} {x : α}
    {rest l : List α} (hr : Reader isHeader done h (x :: rest) l) (hx : isHeader x = false) :
    (h, x) ∈ stamp isHeader none l := by
  rw [← hr.stamp_eq]
  simp [stamp, hx]

/-! ## Parts of a stream -/

/-- A filter that lets all headers pass changes no header in force. -/
theorem stamp_filter {keep : α → Bool} (hkeep : ∀ x, isHeader x = true → keep x = true)
    (h : Option α) (xs : List α) :
    stamp isHeader h (xs.filter keep) = (stamp isHeader h xs).filter fun p => keep p.2 := by
  induction xs generalizing h with
  | nil => rfl
  | cons x xs ih =>
      by_cases hx : isHeader x
      · simp [hkeep x hx, stamp, hx, ih]
      · by_cases hk : keep x <;> simp [hk, stamp, hx, ih]

/-- The stamped items of a beginning of a stream are items of the stream. -/
theorem stamp_mem_mono {h : Option α} {xs ys : List α} (hp : xs <+: ys)
    {p : Option α × α} (hmem : p ∈ stamp isHeader h xs) : p ∈ stamp isHeader h ys := by
  obtain ⟨t, rfl⟩ := hp
  rw [stamp_append]
  exact List.mem_append_left _ hmem

/-- A window followed by the rest of the stream is a tail of the whole stream. -/
theorem Window.stamp_append_mem {w l : List α} (hw : Window isHeader w l) (xs : List α)
    {p : Option α × α} (hp : p ∈ stamp isHeader none (w ++ xs)) :
    p ∈ stamp isHeader none (l ++ xs) := by
  rw [stamp_append] at hp ⊢
  rcases List.mem_append.mp hp with hp | hp
  · exact List.mem_append_left _ (hw.suffix.subset hp)
  · rw [hw.latest_eq] at hp
    exact List.mem_append_right _ hp

/-- A body item of the stamped stream is an item of the stream. -/
theorem mem_of_stamp {h : Option α} {xs : List α} {p : Option α × α}
    (hp : p ∈ stamp isHeader h xs) : p.2 ∈ xs := by
  have hmem := List.mem_map_of_mem (f := Prod.snd) hp
  rw [map_snd_stamp] at hmem
  exact (List.mem_filter.mp hmem).1

end SeastarLive.HeaderStream
