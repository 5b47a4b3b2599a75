/-
SeastarLive.Lib.Packets — units cut into numbered packets, over channels that share a line.

A packet is of a channel; it carries a part of a unit, says whether a unit starts in it, and
has a cyclic number.

* `WellNumbered`: on every channel the packets have the numbers 0, 1, 2, … Channels may share
  a counter. `WellNumbered.append` is its one step.
* `units`: what a receiver of one channel puts together.
* `Carries`: these packets are one unit. `units_on_carries`: the receiver gets it behind the
  units before it; `units_on_other`: the other channels see nothing of it.

Nothing here names a program.
-/
import SeastarLive.Lib.Segments

namespace SeastarLive

/-- A packet of the channel `channel`. -/
structure LinePacket (κ β : Type) where
  channel : κ
  starts : Bool
  counter : Nat
  payload : List β
deriving DecidableEq

namespace LinePacket

variable {κ γ β : Type}

/-! ## Numbers -/

section Numbers

variable [DecidableEq γ]

/-- The packets whose channel has this counter. -/
def counted (key : κ → γ) (c : γ) (ps : List (LinePacket κ β)) : List (LinePacket κ β) :=
  ps.filter fun p => key p.channel = c

/-- The numbers from `first` on, modulo `n`. -/
def Numbered (n : Nat) : Nat → List (LinePacket κ β) → Prop
  | _, [] => True
  | first, p :: ps => p.counter = first % n ∧ Numbered n (first + 1) ps

/-- The packets of each counter have the numbers 0, 1, 2, … -/
def WellNumbered (n : Nat) (key : κ → γ) (ps : List (LinePacket κ β)) : Prop :=
  ∀ c, Numbered n 0 (counted key c ps)

theorem counted_append (key : κ → γ) (c : γ) (ps qs : List (LinePacket κ β)) :
    counted key c (ps ++ qs) = counted key c ps ++ counted key c qs := List.filter_append _ _

theorem counted_of_forall {key : κ → γ} {c : γ} {ps : List (LinePacket κ β)}
    (h : ∀ p ∈ ps, key p.channel = c) : counted key c ps = ps :=
  List.filter_eq_self.mpr fun p hp => by simpa using h p hp

theorem counted_of_forall_ne {key : κ → γ} {c : γ} {ps : List (LinePacket κ β)}
    (h : ∀ p ∈ ps, key p.channel ≠ c) : counted key c ps = [] :=
  List.filter_eq_nil_iff.mpr fun p hp => by simpa using h p hp

theorem numbered_append (n first : Nat) (ps qs : List (LinePacket κ β)) :
    Numbered n first (ps ++ qs)
      ↔ Numbered n first ps ∧ Numbered n (first + ps.length) qs := by
  induction ps generalizing first with
  | nil => simp [Numbered]
  | cons p ps ih =>
      have hshift : first + 1 + ps.length = first + (p :: ps).length := by
        rw [List.length_cons]
        omega
      rw [List.cons_append, Numbered, Numbered, ih, hshift, and_assoc]

/-- Only the remainder of the first number matters. -/
theorem Numbered.congr {n first first' : Nat} {ps : List (LinePacket κ β)}
    (h : Numbered n first ps) (hfirst : first % n = first' % n) : Numbered n first' ps := by
  induction ps generalizing first first' with
  | nil => trivial
  | cons p ps ih =>
      refine ⟨h.1.trans hfirst, ih h.2 ?_⟩
      rw [Nat.add_mod, hfirst, ← Nat.add_mod]

theorem wellNumbered_nil (n : Nat) (key : κ → γ) :
    WellNumbered n key ([] : List (LinePacket κ β)) := fun _ => trivial

/-- How many packets of a counter there are with more packets of a channel with the counter
    `c`. -/
theorem length_counted_append {key : κ → γ} {c : γ} {qs : List (LinePacket κ β)}
    (hqs : ∀ q ∈ qs, key q.channel = c) (d : γ) (ps : List (LinePacket κ β)) :
    (counted key d (ps ++ qs)).length
      = (counted key d ps).length + if c = d then qs.length else 0 := by
  rw [counted_append, List.length_append]
  split
  · rename_i h
    rw [counted_of_forall fun q hq => (hqs q hq).trans h]
  · rename_i h
    rw [counted_of_forall_ne fun q hq heq => h ((hqs q hq).symm.trans heq), List.length_nil]

/-- Packets of one counter that have its next numbers may follow. -/
theorem WellNumbered.append {n first : Nat} {key : κ → γ} {c : γ}
    {ps qs : List (LinePacket κ β)} (h : WellNumbered n key ps)
    (hqs : ∀ q ∈ qs, key q.channel = c) (hnumbered : Numbered n first qs)
    (hfirst : first % n = (counted key c ps).length % n) : WellNumbered n key (ps ++ qs) := by
  intro d
  rw [counted_append]
  by_cases hd : c = d
  · subst hd
    rw [counted_of_forall hqs, numbered_append, Nat.zero_add]
    exact ⟨h c, hnumbered.congr hfirst⟩
  · rw [counted_of_forall_ne fun q hq heq => hd ((hqs q hq).symm.trans heq), List.append_nil]
    exact h d

end Numbers

/-! ## Units -/

/-- The parts of the units so far, and one more packet. -/
def addPart (parts : List (List (List β))) (p : LinePacket κ β) : List (List (List β)) :=
  Segments.push p.starts parts p.payload

/-- What a receiver of these packets puts together. -/
def units (ps : List (LinePacket κ β)) : List (List β) :=
  (ps.foldl addPart []).map List.flatten

/-- These packets are the unit `unit` of the channel `c`. -/
structure Carries (c : κ) (unit : List β) (ps : List (LinePacket κ β)) : Prop where
  channel : ∀ p ∈ ps, p.channel = c
  starts : ∃ p rest, ps = p :: rest ∧ p.starts = true ∧ ∀ q ∈ rest, q.starts = false
  payload : ps.flatMap payload = unit

/-- Packets in which no unit starts go to the last unit. -/
theorem foldl_addPart_continue (front : List (List (List β))) (last : List (List β))
    {ps : List (LinePacket κ β)} (h : ∀ p ∈ ps, p.starts = false) :
    ps.foldl addPart (front ++ [last]) = front ++ [last ++ ps.map payload] := by
  induction ps generalizing last with
  | nil => rw [List.map_nil, List.append_nil]; rfl
  | cons p ps ih =>
      have hp : p.starts = false := h p List.mem_cons_self
      have hpart : addPart (front ++ [last]) p = front ++ [last ++ [p.payload]] := by
        rw [addPart, hp, Segments.push_continue]
      rw [List.foldl_cons, hpart, ih _ fun q hq => h q (List.mem_cons_of_mem p hq),
        List.append_assoc, List.map_cons, List.singleton_append]

/-- The unit that these packets carry comes after the units there are. -/
theorem foldl_addPart_carries {c : κ} {unit : List β} {ps : List (LinePacket κ β)}
    (h : Carries c unit ps) (parts : List (List (List β))) :
    ps.foldl addPart parts = parts ++ [ps.map payload] := by
  obtain ⟨p, rest, rfl, hp, hrest⟩ := h.starts
  have hpart : addPart parts p = parts ++ [[p.payload]] := by
    rw [addPart, hp, Segments.push_start]
  rw [List.foldl_cons, hpart, foldl_addPart_continue _ _ hrest]
  rfl

/-- The receiver gets the unit that is sent last, behind those before it. -/
theorem units_carries {c : κ} {unit : List β} {ps : List (LinePacket κ β)} (h : Carries c unit ps)
    (before : List (LinePacket κ β)) : units (before ++ ps) = units before ++ [unit] := by
  have hunit : (ps.map payload).flatten = unit := by
    rw [← List.flatMap_def]
    exact h.payload
  unfold units
  rw [List.foldl_append, foldl_addPart_carries h, List.map_append, List.map_singleton, hunit]

/-! ## Channels -/

variable [DecidableEq κ]

/-- The packets of one channel. -/
def on (c : κ) (ps : List (LinePacket κ β)) : List (LinePacket κ β) :=
  ps.filter fun p => p.channel = c

theorem on_append (c : κ) (ps qs : List (LinePacket κ β)) :
    on c (ps ++ qs) = on c ps ++ on c qs :=
  List.filter_append _ _

theorem on_of_forall {c : κ} {ps : List (LinePacket κ β)} (h : ∀ p ∈ ps, p.channel = c) :
    on c ps = ps := List.filter_eq_self.mpr fun p hp => by simpa using h p hp

theorem on_of_forall_ne {c : κ} {ps : List (LinePacket κ β)} (h : ∀ p ∈ ps, p.channel ≠ c) :
    on c ps = [] := List.filter_eq_nil_iff.mpr fun p hp => by simpa using h p hp

/-- A channel gets the unit that is sent on it last. -/
theorem units_on_carries {c : κ} {unit : List β} {ps : List (LinePacket κ β)}
    (h : Carries c unit ps) (before : List (LinePacket κ β)) :
    units (on c (before ++ ps)) = units (on c before) ++ [unit] := by
  rw [on_append, on_of_forall h.channel]
  exact units_carries h _

/-- What is sent on other channels is not seen. -/
theorem units_on_other {c : κ} {ps : List (LinePacket κ β)} (h : ∀ p ∈ ps, p.channel ≠ c)
    (before : List (LinePacket κ β)) : units (on c (before ++ ps)) = units (on c before) := by
  rw [on_append, on_of_forall_ne h, List.append_nil]

end LinePacket

end SeastarLive
