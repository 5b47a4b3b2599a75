/-
SeastarLive.Session.Outcome — how often the outcome of a session is written.

`session_impl::_end`, `_cancel`, `_fail` and `on_timeout` of
`src/session/session.cc` write the four completion flags and the status, and
nothing else does until `on_begin` clears the flags. Publishers use them as
they are; the players also close their queue (`Player.complete`,
`Player.onTimeout`). The calls come in any order, from the loop of the
session, from exception handlers, from timers and from other shards.

`OneOutcome` says that the first call decides. The first three look at
`is_complete()` first; `on_timeout` does not, so it decides again, unless it
came first (`session_one_outcome_iff`).
-/
import SeastarLive.Session.PlaySession

namespace SeastarLive

/-- The calls that complete a session. -/
inductive SessionCall
  | complete (how : Completion)
  | timeout
deriving DecidableEq

def SessionImpl.call (s : SessionImpl) : SessionCall → SessionImpl
  | .complete how => s.complete how
  | .timeout => s.onTimeout

def Player.call (p : Player) : SessionCall → Player
  | .complete how => p.complete how
  | .timeout => p.onTimeout

/-- Exactly the flag of the call is set, with its status. -/
def SessionImpl.HasOutcome (s : SessionImpl) : SessionCall → Prop
  | .complete .done =>
      (s.done, s.canceled, s.failed, s.timeout) = (true, false, false, false)
        ∧ s.status = ⟨.ok, []⟩
  | .complete .canceled =>
      (s.done, s.canceled, s.failed, s.timeout) = (false, true, false, false)
        ∧ s.status = ⟨.cancel, []⟩
  | .complete (.failed st) =>
      (s.done, s.canceled, s.failed, s.timeout) = (false, false, true, false)
        ∧ s.status = st
  | .timeout =>
      (s.done, s.canceled, s.failed, s.timeout) = (false, false, false, true)
        ∧ s.status = ⟨.timeout, "timed out".toList⟩

/-- As soon as a session, of a kind with the given state and calls, is complete, it has the
    outcome of one of the calls made so far, and keeps it through the later ones. -/
def OneOutcome {σ : Type} (impl : σ → SessionImpl) (call : σ → SessionCall → σ) (s : σ)
    (cs : List SessionCall) : Prop :=
  ∀ before after, cs = before ++ after → (impl (before.foldl call s)).isComplete = true →
    ∃ c ∈ before, ∀ later, later <+: after →
      (impl ((before ++ later).foldl call s)).HasOutcome c

/-! ## One call -/

namespace SessionImpl

theorem isComplete_onBegin (s : SessionImpl) : s.onBegin.isComplete = false := rfl

/-- The first call decides. -/
theorem hasOutcome_call {s : SessionImpl} (hs : s.isComplete = false) (c : SessionCall) :
    (s.call c).HasOutcome c := by
  have hflags : s.done = false ∧ s.canceled = false ∧ s.failed = false ∧ s.timeout = false := by
    simpa only [isComplete, Bool.or_eq_false_iff, and_assoc] using hs
  obtain ⟨hdone, hcanceled, hfailed, htimeout⟩ := hflags
  cases c with
  | complete how =>
      cases how <;> simp [call, complete, hs, HasOutcome, hdone, hcanceled, hfailed, htimeout]
  | timeout => simp [call, onTimeout, HasOutcome, hdone, hcanceled, hfailed]

theorem HasOutcome.isComplete {s : SessionImpl} {c : SessionCall} (h : s.HasOutcome c) :
    s.isComplete = true := by
  cases c with
  | complete how => cases how <;> simp_all [HasOutcome, SessionImpl.isComplete]
  | timeout => simp_all [HasOutcome, SessionImpl.isComplete]

/-- A later call keeps the outcome, unless it is a timeout after another outcome. -/
theorem HasOutcome.call {s : SessionImpl} {c : SessionCall} (h : s.HasOutcome c)
    {c' : SessionCall} (hc : c = .timeout ∨ c' ≠ .timeout) : (s.call c').HasOutcome c := by
  cases c' with
  | complete how =>
      have hsame : s.call (.complete how) = s := if_pos h.isComplete
      rwa [hsame]
  | timeout =>
      obtain rfl := hc.resolve_right fun hne => hne rfl
      have hflags := h.1
      simp_all [SessionImpl.call, onTimeout, HasOutcome]

theorem HasOutcome.calls {s : SessionImpl} {c : SessionCall} (h : s.HasOutcome c)
    {cs : List SessionCall} (hcs : c = .timeout ∨ SessionCall.timeout ∉ cs) :
    (cs.foldl SessionImpl.call s).HasOutcome c := by
  induction cs generalizing s with
  | nil => exact h
  | cons c' cs ih =>
      refine ih (h.call ?_) ?_
      · exact hcs.imp_right fun hnot heq => hnot (heq ▸ List.mem_cons_self)
      · exact hcs.imp_right fun hnot hmem => hnot (List.mem_cons_of_mem c' hmem)

/-- A timeout leaves no outcome but its own. -/
theorem HasOutcome.eq_timeout {s : SessionImpl} {c : SessionCall}
    (h : s.onTimeout.HasOutcome c) : c = .timeout := by
  cases c with
  | complete how => cases how <;> simp [onTimeout, HasOutcome] at h
  | timeout => rfl

/-- Along any calls, the first one decides for good exactly when it is a timeout or no
    timeout follows. -/
theorem oneOutcome_iff {s : SessionImpl} (hs : s.isComplete = false) (cs : List SessionCall) :
    OneOutcome id call s cs ↔ cs.head? = some .timeout ∨ .timeout ∉ cs := by
  cases cs with
  | nil =>
      refine iff_of_true ?_ (.inr nofun)
      intro before after hsplit hcomplete
      obtain ⟨rfl, rfl⟩ := List.append_eq_nil_iff.mp hsplit.symm
      cases hs.symm.trans hcomplete
  | cons c cs =>
      have hfirst := hasOutcome_call hs c
      constructor
      · intro hone
        by_cases hc : c = .timeout
        · exact .inl (congrArg some hc)
        · refine .inr fun hmem => ?_
          rcases List.mem_cons.mp hmem with heq | hmem
          · exact hc heq.symm
          · obtain ⟨before, after, hcs⟩ := List.append_of_mem hmem
            obtain ⟨c', hc', hkept⟩ := hone [c] cs rfl hfirst.isComplete
            rw [List.mem_singleton.mp hc'] at hkept
            have hlate := hkept (before ++ [.timeout]) ⟨after, by simp [hcs]⟩
            rw [← List.append_assoc, List.foldl_append] at hlate
            exact hc hlate.eq_timeout
      · intro hcs before after hsplit hcomplete
        cases before with
        | nil => cases hs.symm.trans hcomplete
        | cons c' before =>
            obtain ⟨rfl, hrest⟩ := List.cons_eq_cons.mp hsplit
            refine ⟨c, List.mem_cons_self, fun later hlater => ?_⟩
            refine hfirst.calls ?_
            rcases hcs with hhead | hnot
            · exact .inl (Option.some.inj hhead)
            · refine .inr fun hmem => hnot (List.mem_cons_of_mem c ?_)
              rw [hrest]
              exact (List.prefix_append_right_inj before |>.mpr hlater).subset hmem

end SessionImpl

/-! ## Every kind of session -/

/-- Calls that act on the state of `session_impl` alone are judged by it. -/
theorem oneOutcome_congr {σ : Type} {impl : σ → SessionImpl} {call : σ → SessionCall → σ}
    (hcall : ∀ s c, impl (call s c) = (impl s).call c) (s : σ) (cs : List SessionCall) :
    OneOutcome impl call s cs ↔ OneOutcome id SessionImpl.call (impl s) cs := by
  have hcalls : ∀ (cs : List SessionCall) (s : σ),
      impl (cs.foldl call s) = cs.foldl SessionImpl.call (impl s) := by
    intro cs
    induction cs with
    | nil => exact fun s => rfl
    | cons c cs ih =>
        intro s
        rw [List.foldl_cons, List.foldl_cons, ih, hcall]
  unfold OneOutcome
  simp only [hcalls, id]

theorem Player.call_impl (p : Player) (c : SessionCall) : (p.call c).impl = p.impl.call c := by
  cases c with
  | complete how =>
      change (p.complete how).impl = p.impl.complete how
      unfold Player.complete SessionImpl.complete
      split <;> rfl
  | timeout => rfl

theorem Player.onBegin_incomplete {p q : Player} {pub : SessionImpl}
    (h : p.onBegin pub = .ok q) : q.impl.isComplete = false := by
  unfold onBegin at h
  dsimp only at h
  split at h
  · cases h
    rfl
  · obtain ⟨metadata, -, hq⟩ := bind_eq_ok h
    cases hq
    rfl

/-- After `on_begin`, a publisher or a player of any kind has one outcome along the calls
    `cs` exactly when `on_timeout` is the first of them or not among them. -/
theorem session_one_outcome_iff (cs : List SessionCall) :
    (∀ s : SessionImpl, OneOutcome id SessionImpl.call s.onBegin cs
        ↔ cs.head? = some .timeout ∨ .timeout ∉ cs)
      ∧ ∀ (p q : Player) (pub : SessionImpl), p.onBegin pub = .ok q →
          (OneOutcome Player.impl Player.call q cs
            ↔ cs.head? = some .timeout ∨ .timeout ∉ cs) := by
  constructor
  · intro s
    exact SessionImpl.oneOutcome_iff s.isComplete_onBegin cs
  · intro p q pub h
    rw [oneOutcome_congr Player.call_impl]
    exact SessionImpl.oneOutcome_iff (Player.onBegin_incomplete h) cs

/-- An HLS player that is canceled and then ended keeps the outcome of the cancel. -/
theorem session_one_outcome_canceled :
    OneOutcome Player.impl Player.call { kind := .hls, loop := .checking }
      [.complete .canceled, .complete .done] :=
  ((session_one_outcome_iff [.complete .canceled, .complete .done]).2 { kind := .hls } _ {}
    rfl).mpr (.inr (by decide))

/-- A publisher that is canceled while its read is pending, and the read then times out. -/
theorem session_two_outcomes :
    ¬ ∀ (s : SessionImpl) (cs : List SessionCall), OneOutcome id SessionImpl.call s.onBegin cs := by
  intro hall
  obtain ⟨c, hc, hkept⟩ := hall {} [.complete .canceled, .timeout] [.complete .canceled]
    [.timeout] rfl rfl
  rw [List.mem_singleton.mp hc] at hkept
  exact absurd (hkept [.timeout] (List.prefix_refl _)).1 (by decide)

end SeastarLive
