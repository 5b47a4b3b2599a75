/-
SeastarLive.Lib.Scenario — parties that follow a scenario.

A conversation of two parties often goes by a scenario: one side starts, each side answers a message
with the messages of its next turn, and at its end a side may say more. A few messages, the noise,
are sent at any time and answered by nothing.

* `Scenario`, `Scenario.Lawful`: the turns of both sides, and that a dialogue follows them.
* `Scenario.Reached`: how far the two sides are, and what is under way between them.
* `Scenario.Lawful.reached`: in every state, both sides are somewhere in the scenario, and what is
  under way is what one side has said and the other has not heard.
* `Scenario.Lawful.sends`: what is sent fits, when the scenario does.

Nothing here names a program.
-/
import SeastarLive.Lib.Transport
import Mathlib.Data.List.Infix

namespace SeastarLive

/-- The scenario of two parties with the state `α`. -/
structure Scenario (α μ ν : Type) where
  /-- the side whose first turn answers nothing -/
  starter : Bool
  /-- what a side says in its turns -/
  replies : Bool → List (List μ)
  /-- A side has taken so many turns. -/
  At : Bool → Nat → α → Prop
  /-- what a side said after its last turn, as the other side gets it -/
  extra : Bool → α → List ν
  noise : ν → Bool

namespace Scenario

variable {α ℓ μ ν ε : Type} (S : Scenario α μ ν) (meaning : μ → ν) (Fits : μ → Prop)

/-- The messages that a side has heard after so many turns. -/
def heard (side : Bool) (n : Nat) : Nat := if side = S.starter then n - 1 else n

/-- What a side has said after so many turns. -/
def said (side : Bool) (n : Nat) (x : α) : List ν :=
  ((S.replies side).take n).flatten.map meaning ++ S.extra side x

/-- What a side will have said after its last turn. -/
def whole (side : Bool) (x : α) : List ν :=
  (S.replies side).flatten.map meaning ++ S.extra side x

/-- Both sides stay where they are. -/
structure Quiet (x y : α) : Prop where
  turns : ∀ side n, S.At side n x → S.At side n y
  extra : ∀ side, S.extra side y = S.extra side x

/-- A side takes its next turn. -/
structure Turn (side : Bool) (n : Nat) (x : α) (out : α × List μ) : Prop where
  next : S.At side (n + 1) out.1
  other : ∀ n', S.At (!side) n' x → S.At (!side) n' out.1
  extra : ∀ s, S.extra s out.1 = S.extra s x
  reply : out.2 = (S.replies side).getD n []

/-- A side says more after its last turn. -/
structure Push (side : Bool) (n : Nat) (x : α) (out : α × List μ) : Prop where
  last : (S.replies side).length ≤ n
  turns : ∀ s n, S.At s n x → S.At s n out.1
  extra : S.extra side out.1 = S.extra side x ++ out.2.map meaning
  other : S.extra (!side) out.1 = S.extra (!side) x
  fits : ∀ m ∈ out.2, Fits m ∧ S.noise (meaning m) = false

/-- Messages that are answered by nothing. -/
def Noisy (out : List μ) : Prop := ∀ m ∈ out, Fits m ∧ S.noise (meaning m) = true

/-- A dialogue that follows the scenario. -/
structure Lawful (P : Dialogue α ℓ μ ν ε) : Prop where
  init : ∀ side, S.At side 0 P.init ∧ S.extra side P.init = []
  replies_ne : ∀ side, S.replies side ≠ []
  replies_fit : ∀ side, ∀ out ∈ S.replies side, ∀ m ∈ out, Fits m ∧ S.noise (meaning m) = false
  act : ∀ side l x n, S.At side n x → P.may side l x →
    (side = S.starter ∧ n = 0 ∧ S.Turn side n x (P.act side l x))
      ∨ S.Push meaning Fits side n x (P.act side l x)
  hear : ∀ side n x, S.Quiet x (P.hear side n x).1 ∧ S.Noisy meaning Fits (P.hear side n x).2
  noise : ∀ side n m x out, S.At side n x → S.noise m = true → P.handle side m x = .ok out →
    S.Quiet x out.1 ∧ S.Noisy meaning Fits out.2
  turn : ∀ side n m x out, S.At side n x → (side = S.starter → 0 < n) → S.noise m = false →
    (S.whole meaning (!side) x)[S.heard side n]? = some m → P.handle side m x = .ok out →
    S.Turn side n x out

/-- Both sides are somewhere in the scenario: `n` are the turns that they have taken. -/
structure Reached (t : Exchange α ν) (n : Bool → Nat) : Prop where
  turns : ∀ side, S.At side (n side) t.app
  extra : ∀ side, S.extra side t.app ≠ [] → (S.replies side).length ≤ n side
  heard : ∀ side, S.heard side (n side) ≤ (S.said meaning (!side) (n (!side)) t.app).length
  queue : ∀ side, (t.queue side).filter (fun m => !S.noise m)
    = (S.said meaning (!side) (n (!side)) t.app).drop (S.heard side (n side))

variable {S meaning Fits}

/-! ## What was said -/

theorem said_extra {side : Bool} {x y : α} (h : S.extra side y = S.extra side x) (n : Nat) :
    S.said meaning side n y = S.said meaning side n x := by
  simp only [said, h]

/-- A turn adds its messages to what was said. -/
theorem said_succ (meaning : μ → ν) {side : Bool} {n : Nat} {x : α}
    (hextra : S.extra side x ≠ [] → (S.replies side).length ≤ n) :
    S.said meaning side (n + 1) x
      = S.said meaning side n x ++ ((S.replies side).getD n []).map meaning := by
  by_cases hn : n < (S.replies side).length
  · have hnil : S.extra side x = [] := by
      by_contra hne
      exact absurd (hextra hne) (Nat.not_le.mpr hn)
    simp only [said, hnil, List.append_nil, List.take_add_one, List.flatten_append, List.map_append,
      List.getD_eq_getElem?_getD, List.getElem?_eq_getElem hn, Option.toList_some,
      List.flatten_cons, List.flatten_nil, Option.getD_some]
  · have hlength := Nat.not_lt.mp hn
    simp only [said, List.take_of_length_le hlength,
      List.take_of_length_le (Nat.le_succ_of_le hlength), List.getD_eq_getElem?_getD,
      List.getElem?_eq_none hlength, Option.getD_none, List.map_nil, List.append_nil]

/-- What was said is the front of the scenario. -/
theorem said_prefix (meaning : μ → ν) {side : Bool} {n : Nat} {x : α}
    (hextra : S.extra side x ≠ [] → (S.replies side).length ≤ n) :
    S.said meaning side n x <+: S.whole meaning side x := by
  by_cases hn : (S.replies side).length ≤ n
  · simp only [said, whole, List.take_of_length_le hn]
    exact List.prefix_refl _
  · have hnil : S.extra side x = [] := by
      by_contra hne
      exact hn (hextra hne)
    simp only [said, whole, hnil, List.append_nil]
    exact ((List.take_prefix n _).flatten).map meaning

theorem said_zero {side : Bool} {x : α} (hne : S.replies side ≠ [])
    (hextra : S.extra side x ≠ [] → (S.replies side).length ≤ 0) :
    S.said meaning side 0 x = [] := by
  have hnil : S.extra side x = [] := by
    by_contra h
    exact hne (List.length_eq_zero_iff.mp (Nat.le_zero.mp (hextra h)))
  simp only [said, hnil, List.take_zero, List.flatten_nil, List.map_nil, List.append_nil]

/-- The first of these numbers, added up. -/
def total : List Nat → Nat → Nat
  | [], _ => 0
  | _ :: _, 0 => 0
  | k :: ks, n + 1 => k + total ks n

theorem total_all {ks : List Nat} {n : Nat} (hn : ks.length ≤ n) :
    total ks n = total ks ks.length := by
  induction ks generalizing n with
  | nil => rfl
  | cons k ks ih =>
      obtain ⟨n, rfl⟩ : ∃ m, n = m + 1 := ⟨n - 1, (Nat.sub_add_cancel (Nat.zero_lt_of_lt hn)).symm⟩
      exact congrArg (k + ·) (ih (Nat.le_of_succ_le_succ hn))

theorem length_take_flatten (turns : List (List μ)) (n : Nat) :
    (turns.take n).flatten.length = total (turns.map List.length) n := by
  induction turns generalizing n with
  | nil => simp [total]
  | cons turn turns ih =>
      cases n with
      | zero => rfl
      | succ n => simp [total, ih]

theorem length_said (side : Bool) (n : Nat) (x : α) :
    (S.said meaning side n x).length
      = total ((S.replies side).map List.length) n + (S.extra side x).length := by
  rw [said, List.length_append, List.length_map, length_take_flatten]

theorem heard_starter (n : Nat) : S.heard S.starter n = n - 1 := if_pos rfl

theorem heard_succ {side : Bool} {n : Nat} (hn : side = S.starter → 0 < n) :
    S.heard side (n + 1) = S.heard side n + 1 := by
  unfold heard
  split
  · rename_i hside
    have := hn hside
    omega
  · rfl

/-! ## Steps -/

theorem filter_noisy {out : List μ} (h : S.Noisy meaning Fits out) :
    (out.map meaning).filter (fun m => !S.noise m) = [] := by
  rw [List.filter_eq_nil_iff]
  intro m hm
  obtain ⟨x, hx, rfl⟩ := List.mem_map.mp hm
  simp [(h x hx).2]

theorem filter_plain {out : List μ} (h : ∀ m ∈ out, S.noise (meaning m) = false) :
    (out.map meaning).filter (fun m => !S.noise m) = out.map meaning := by
  rw [List.filter_eq_self]
  intro m hm
  obtain ⟨x, hx, rfl⟩ := List.mem_map.mp hm
  simp [h x hx]

variable {t : Exchange α ν} {n : Bool → Nat}

/-- Noise that is sent. -/
theorem Reached.send_quiet (h : S.Reached meaning t n) {side : Bool} {out : α × List μ}
    (hquiet : S.Quiet t.app out.1) (hnoisy : S.Noisy meaning Fits out.2) :
    S.Reached meaning (t.send meaning side out) n where
  turns s := hquiet.turns s _ (h.turns s)
  extra s hne := h.extra s (by rwa [← hquiet.extra s])
  heard s := by
    simp only [Exchange.send, said_extra (hquiet.extra (!s))]
    exact h.heard s
  queue s := by
    simp only [Exchange.send, said_extra (hquiet.extra (!s))]
    by_cases hs : s = !side
    · subst hs
      rw [Function.update_self, List.filter_append, filter_noisy hnoisy, List.append_nil]
      exact h.queue _
    · rw [Function.update_of_ne hs]
      exact h.queue s

/-- Noise that is heard. -/
theorem Reached.drop_noise (h : S.Reached meaning t n) {side : Bool} {m : ν} {rest : List ν}
    (hqueue : t.queue side = m :: rest) (hm : S.noise m = true) :
    S.Reached meaning { t with queue := Function.update t.queue side rest } n where
  turns := h.turns
  extra := h.extra
  heard := h.heard
  queue s := by
    by_cases hs : s = side
    · subst hs
      have hs := h.queue s
      rw [hqueue, List.filter_cons_of_neg (by simp [hm])] at hs
      simpa only [Function.update_self] using hs
    · simp only [Function.update_of_ne hs]
      exact h.queue s

/-- A message that is no noise is the next of the scenario. -/
theorem Reached.next (h : S.Reached meaning t n) (hne : ∀ side, S.replies side ≠ []) {side : Bool}
    {m : ν} {rest : List ν} (hqueue : t.queue side = m :: rest) (hm : S.noise m = false) :
    (side = S.starter → 0 < n side)
      ∧ (S.said meaning (!side) (n (!side)) t.app)[S.heard side (n side)]? = some m
      ∧ rest.filter (fun m => !S.noise m)
        = (S.said meaning (!side) (n (!side)) t.app).drop (S.heard side (n side) + 1) := by
  have hside := h.queue side
  rw [hqueue, List.filter_cons_of_pos (by simp [hm])] at hside
  refine ⟨fun hstart => ?_, ?_, ?_⟩
  · -- a side that has not started has said nothing, so the other side has not answered
    by_contra hzero
    have hzero : n side = 0 := Nat.eq_zero_of_not_pos hzero
    have hother := h.heard (!side)
    have hsaid : S.said meaning side (n side) t.app = [] := by
      rw [hzero]
      exact said_zero (hne side) (hzero ▸ h.extra side)
    rw [Bool.not_not, hsaid, Scenario.heard, if_neg (hstart ▸ not_ne_self side)] at hother
    have hzero' : n (!side) = 0 := Nat.le_zero.mp hother
    rw [hzero', said_zero (hne _) (hzero' ▸ h.extra (!side)), List.drop_nil] at hside
    cases hside
  · have hhead := congrArg (·[0]?) hside
    simpa only [List.getElem?_cons_zero, List.getElem?_drop, Nat.add_zero] using hhead.symm
  · have htail := congrArg List.tail hside
    simpa only [List.tail_cons, List.tail_drop] using htail

/-- A side takes a turn; `queue` is what is left towards it. -/
theorem Reached.turn (h : S.Reached meaning t n)
    (hfit : ∀ side, ∀ out ∈ S.replies side, ∀ m ∈ out, Fits m ∧ S.noise (meaning m) = false)
    {side : Bool} {out : α × List μ} (hturn : S.Turn side (n side) t.app out) {queue : List ν}
    (hheard : S.heard side (n side + 1) ≤ (S.said meaning (!side) (n (!side)) t.app).length)
    (hqueue : queue.filter (fun m => !S.noise m)
      = (S.said meaning (!side) (n (!side)) t.app).drop (S.heard side (n side + 1))) :
    S.Reached meaning ({ t with queue := Function.update t.queue side queue }.send meaning side out)
      (Function.update n side (n side + 1)) := by
  have hne := not_ne_self side
  have hnext := said_succ meaning (h.extra side)
  have hplain : (out.2.map meaning).filter (fun m => !S.noise m) = out.2.map meaning := by
    refine filter_plain fun m hm => ?_
    rw [hturn.reply, List.getD_eq_getElem?_getD] at hm
    cases hreply : (S.replies side)[n side]? with
    | none =>
        rw [hreply] at hm
        exact absurd hm List.not_mem_nil
    | some reply =>
        rw [hreply] at hm
        exact (hfit side reply (List.mem_of_getElem? hreply) m hm).2
  have hextra : ∀ s k, S.said meaning s k out.1 = S.said meaning s k t.app :=
    fun s k => said_extra (hturn.extra s) k
  have hcases : ∀ s, s = side ∨ s = !side := by
    intro s
    cases s <;> cases side <;> simp
  constructor
  · intro s
    rcases hcases s with rfl | rfl
    · rw [Function.update_self]
      exact hturn.next
    · rw [Function.update_of_ne hne]
      exact hturn.other _ (h.turns _)
  · intro s hs
    have hs' := h.extra s (by rwa [← hturn.extra s])
    rcases hcases s with rfl | rfl
    · rw [Function.update_self]
      exact Nat.le_succ_of_le hs'
    · rwa [Function.update_of_ne hne]
  · intro s
    simp only [Exchange.send, hextra]
    rcases hcases s with rfl | rfl
    · rw [Function.update_self, Function.update_of_ne hne]
      exact hheard
    · rw [Bool.not_not, Function.update_self, Function.update_of_ne hne, hnext, List.length_append]
      have hother := h.heard (!side)
      rw [Bool.not_not] at hother
      exact Nat.le_add_right_of_le hother
  · intro s
    simp only [Exchange.send, hextra]
    rcases hcases s with rfl | rfl
    · rw [Function.update_of_ne hne.symm, Function.update_self, Function.update_self,
        Function.update_of_ne hne]
      exact hqueue
    · have hother := h.heard (!side)
      have hqueue' := h.queue (!side)
      rw [Bool.not_not] at hother hqueue'
      rw [Bool.not_not, Function.update_self, Function.update_self, Function.update_of_ne hne,
        Function.update_of_ne hne, List.filter_append, hplain, hqueue', hnext, hturn.reply,
        List.drop_append_of_le_length hother]

/-- A side says more. -/
theorem Reached.push (h : S.Reached meaning t n) {side : Bool} {out : α × List μ}
    (hpush : S.Push meaning Fits side (n side) t.app out) :
    S.Reached meaning (t.send meaning side out) n := by
  have hsaid : S.said meaning side (n side) out.1
      = S.said meaning side (n side) t.app ++ out.2.map meaning := by
    simp only [said, hpush.extra, List.append_assoc]
  have hother : ∀ k, S.said meaning (!side) k out.1 = S.said meaning (!side) k t.app :=
    said_extra hpush.other
  have hcases : ∀ s, s = side ∨ s = !side := by
    intro s
    cases s <;> cases side <;> simp
  constructor
  · exact fun s => hpush.turns s _ (h.turns s)
  · intro s hs
    rcases hcases s with rfl | rfl
    · exact hpush.last
    · exact h.extra _ (by rwa [← hpush.other])
  · intro s
    simp only [Exchange.send]
    have hs := h.heard s
    rcases hcases s with rfl | rfl
    · rw [hother]
      exact hs
    · rw [Bool.not_not] at hs ⊢
      rw [hsaid, List.length_append]
      exact Nat.le_add_right_of_le hs
  · intro s
    simp only [Exchange.send]
    have hs := h.queue s
    have hheard := h.heard s
    rcases hcases s with rfl | rfl
    · rw [Function.update_of_ne (not_ne_self s).symm, hother]
      exact hs
    · rw [Bool.not_not] at hs hheard ⊢
      rw [Function.update_self, List.filter_append, filter_plain fun m hm => (hpush.fits m hm).2,
        hs, hsaid, List.drop_append_of_le_length hheard]

/-! ## Runs -/

variable {P : Dialogue α ℓ μ ν ε}

/-- A message that is no noise is the next of the whole scenario. -/
theorem Reached.next_whole (h : S.Reached meaning t n) (hne : ∀ side, S.replies side ≠ [])
    {side : Bool} {m : ν} {rest : List ν} (hqueue : t.queue side = m :: rest)
    (hm : S.noise m = false) :
    (side = S.starter → 0 < n side)
      ∧ (S.whole meaning (!side) t.app)[S.heard side (n side)]? = some m := by
  obtain ⟨hstart, hnext, -⟩ := h.next hne hqueue hm
  obtain ⟨later, hlater⟩ := said_prefix meaning (h.extra (!side))
  rw [← hlater]
  exact ⟨hstart, (List.getElem?_append_left (List.getElem?_eq_some_iff.mp hnext).1).trans hnext⟩

theorem Lawful.turn_of (hS : S.Lawful meaning Fits P) (h : S.Reached meaning t n) {side : Bool}
    {m : ν} {rest : List ν} (hqueue : t.queue side = m :: rest) (hm : S.noise m = false)
    {out : α × List μ} (hrun : P.handle side m t.app = .ok out) :
    S.Turn side (n side) t.app out := by
  obtain ⟨hstart, hnext⟩ := h.next_whole hS.replies_ne hqueue hm
  exact hS.turn side (n side) m t.app out (h.turns side) hstart hm hnext hrun

/-- In every state both sides are somewhere in the scenario, and what is under way is what one side
    has said and the other has not heard. -/
theorem Lawful.reached (hS : S.Lawful meaning Fits P) (ht : (exchange P meaning).Reachable t) :
    ∃ n, S.Reached meaning t n := by
  refine Machine.Reachable.invariant (P := fun t => ∃ n, S.Reached meaning t n) ?_ ?_ ht
  · refine ⟨fun _ => 0, fun side => (hS.init side).1, fun side h => absurd (hS.init side).2 h,
      fun side => ?_, fun side => ?_⟩
    · unfold heard
      split <;> exact Nat.zero_le _
    · have hsaid : S.said meaning (!side) 0 P.init = [] :=
        said_zero (hS.replies_ne _) fun h => absurd (hS.init _).2 h
      exact (List.drop_eq_nil_of_le (by simp [exchange, hsaid])).symm
  · rintro t a t' ⟨n, h⟩ henabled hrun
    cases a with
    | act side l =>
        cases hrun
        rcases hS.act side l t.app (n side) (h.turns side) henabled with ⟨rfl, hzero, hturn⟩ | hpush
        · have hheard : S.heard S.starter (n S.starter + 1) = S.heard S.starter (n S.starter) := by
            rw [heard_starter, heard_starter, hzero]
          have hnext := h.turn hS.replies_fit hturn (by rw [hheard]; exact h.heard _)
            (by rw [hheard]; exact h.queue _)
          rw [Function.update_eq_self] at hnext
          exact ⟨_, hnext⟩
        · exact ⟨n, h.push hpush⟩
    | hear side k =>
        cases hrun
        obtain ⟨hquiet, hnoisy⟩ := hS.hear side k t.app
        exact ⟨n, h.send_quiet hquiet hnoisy⟩
    | deliver side =>
        simp only [exchange, exchangeStep] at hrun
        split at hrun
        · cases hrun
          exact ⟨n, h⟩
        · rename_i m rest hqueue
          split at hrun <;> cases hrun
          rename_i out hout
          cases hm : S.noise m with
          | true =>
              obtain ⟨hquiet, hnoisy⟩ := hS.noise side (n side) m t.app out (h.turns side) hm hout
              exact ⟨n, (h.drop_noise hqueue hm).send_quiet hquiet hnoisy⟩
          | false =>
              obtain ⟨hstart, hnext, hrest⟩ := h.next hS.replies_ne hqueue hm
              have hlt := (List.getElem?_eq_some_iff.mp hnext).1
              refine ⟨_, h.turn hS.replies_fit (hS.turn_of h hqueue hm hout) ?_ ?_⟩
              · rw [heard_succ hstart]
                exact hlt
              · rw [heard_succ hstart]
                exact hrest

/-- What is sent fits. -/
theorem Lawful.sends (hS : S.Lawful meaning Fits P) : P.Sends meaning Fits := by
  have hreply : ∀ {side n} {x : α} {out : α × List μ}, S.Turn side n x out →
      ∀ m ∈ out.2, Fits m := by
    intro side n x out hturn m hm
    rw [hturn.reply, List.getD_eq_getElem?_getD] at hm
    cases hreply : (S.replies side)[n]? with
    | none =>
        rw [hreply] at hm
        exact absurd hm List.not_mem_nil
    | some reply =>
        rw [hreply] at hm
        exact (hS.replies_fit side reply (List.mem_of_getElem? hreply) m hm).1
  constructor
  · intro side l t ht hmay m hm
    obtain ⟨n, h⟩ := hS.reached ht
    rcases hS.act side l t.app (n side) (h.turns side) hmay with ⟨-, -, hturn⟩ | hpush
    · exact hreply hturn m hm
    · exact (hpush.fits m hm).1
  · intro side k t _ m hm
    exact ((hS.hear side k t.app).2 m hm).1
  · intro side m rest t out ht hqueue hout x hx
    obtain ⟨n, h⟩ := hS.reached ht
    cases hm : S.noise m with
    | true => exact ((hS.noise side (n side) m t.app out (h.turns side) hm hout).2 x hx).1
    | false => exact hreply (hS.turn_of h hqueue hm hout) x hx

/-- When nothing is under way towards a side, it has heard all that was said. -/
theorem Reached.drained (h : S.Reached meaning t n) {side : Bool} (hqueue : t.queue side = []) :
    S.heard side (n side) = (S.said meaning (!side) (n (!side)) t.app).length := by
  have hside := h.queue side
  rw [hqueue, List.filter_nil] at hside
  exact Nat.le_antisymm (h.heard side) (List.drop_eq_nil_iff.mp hside.symm)

end Scenario

end SeastarLive
