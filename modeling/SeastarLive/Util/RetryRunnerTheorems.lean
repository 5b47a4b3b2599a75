/-
SeastarLive.Util.RetryRunnerTheorems — how often a retry runner calls, and how often it
reports.

* `finished()` reports the end to `on_retry_finished`, and so does the tail of `run`, behind
  it. A run reports once exactly where no step of it came to `finished()`: where `cancel` has
  ended it, and neither success, nor `retry_exception`, nor a fulfilled promise.
* Without `cancel` every run ends, and its calls are numbered from one. It tries as often as
  it should exactly where no call but the last one due throws instead of returning a future:
  `_excuting` stays set then and the next round takes the task for done.
-/
import Mathlib.Data.List.Basic
import SeastarLive.Lib.Inevitable
import SeastarLive.Util.RetryRunner

namespace SeastarLive

/-! ## The end is reported -/

/-- The attempt ends the retries. -/
def Attempt.endsRetries : Attempt → Bool
  | .succeeds => true
  | .fails .retryException => true
  | .throws .retryException => true
  | _ => false

namespace RetryRunner

variable (task : RetryTask) (s : RetryRunner)

/-- `_validate` allows a try. -/
def mayTry : Bool :=
  match s.validate task with
  | .ok valid => valid
  | .error _ => false

/-- The attempt that is at work ends the retries. -/
def endsRetries : Bool :=
  match s.phase with
  | .trying call => (task.tryOnce call).endsRetries
  | _ => false

/-- The step comes to `finished()`: a round that makes no try, an attempt that ends the
    retries, or a wait that `cancel` has ended. -/
def ComesToFinished : RetryStep → Prop
  | .rounds _ => s.hasFinished = false ∧ s.mayTry task = false
  | .ends _ => s.endsRetries task = true
  | .resumes => s.phase = .released
  | _ => False

instance (a : RetryStep) : Decidable (s.ComesToFinished task a) :=
  match a with
  | .rounds _ => inferInstanceAs (Decidable (_ ∧ _))
  | .ends _ => inferInstanceAs (Decidable (_ = _))
  | .resumes => inferInstanceAs (Decidable (_ = _))
  | .expires => instDecidableFalse
  | .cancel => instDecidableFalse

variable {task s}

/-! ### What may happen -/

theorem enabled_ends {now : Int} : s.enabled (.ends now) ↔ ∃ call, s.phase = .trying call := by
  unfold enabled
  cases s.phase <;> simp

section Phases

variable {a : RetryStep}

theorem rounds_of_looping (hphase : s.phase = .looping) (henabled : s.enabled a)
    (hcancel : a ≠ .cancel) : ∃ now, a = .rounds now := by
  cases a <;> simp_all [enabled]

theorem ends_of_trying {call : Nat} (hphase : s.phase = .trying call) (henabled : s.enabled a)
    (hcancel : a ≠ .cancel) : ∃ now, a = .ends now := by
  cases a <;> simp_all [enabled]

theorem expires_of_waiting {time : Int} (hphase : s.phase = .waiting time)
    (henabled : s.enabled a) (hcancel : a ≠ .cancel) : a = .expires := by
  cases a <;> simp_all [enabled]

theorem resumes_of_timedOut (hphase : s.phase = .timedOut) (henabled : s.enabled a)
    (hcancel : a ≠ .cancel) : a = .resumes := by
  cases a <;> simp_all [enabled]

theorem cancel_of_completed (hphase : s.phase = .completed) (henabled : s.enabled a) :
    a = .cancel := by
  cases a <;> simp_all [enabled]

end Phases

/-! ### What each step does -/

theorem validate_of_mayTry (h : s.mayTry task = true) : s.validate task = .ok true := by
  unfold mayTry at h
  split at h
  · rename_i valid hvalid
    rw [hvalid, h]
  · cases h

/-- A try is made or waited for. -/
theorem doTry_phase (hvalid : s.validate task = .ok true) (now : Int) :
    (s.doTry task now).notified = s.notified ∧ (s.doTry task now).phase ≠ .completed := by
  unfold doTry
  split
  · exact ⟨rfl, nofun⟩
  · unfold delayDoTry
    split <;> exact ⟨rfl, nofun⟩
  · rename_i duration exponent hmode
    have hsleeping : s.sleeping = false := by
      by_contra h
      simp [validate, hmode, eq_true_of_ne_false h] at hvalid
    simp only [timeoutDoTry, hsleeping, Bool.false_eq_true, if_false]
    split <;> exact ⟨rfl, nofun⟩

theorem retry_phase :
    (s.retry task).notified = s.notified ∧ (s.retry task).phase ≠ .completed := by
  unfold retry
  split <;> exact ⟨rfl, nofun⟩

/-- `cancel` reports nothing, and wakes a run that waits. -/
theorem cancel_cases {t : RetryRunner} (hrun : s.cancel task = .ok t) :
    t.hasFinished = true ∧ t.notified = s.notified
      ∧ (t.phase = s.phase ∨ (∃ time, s.phase = .waiting time) ∧ t.phase = .released) := by
  unfold cancel at hrun
  dsimp only at hrun
  split at hrun
  · cases hrun
    exact ⟨rfl, rfl, .inl rfl⟩
  · cases hrun
    exact ⟨rfl, rfl, .inl rfl⟩
  · cases hrun
  · split at hrun
    · rename_i time hphase
      cases hrun
      exact ⟨rfl, rfl, .inr ⟨⟨time, hphase⟩, rfl⟩⟩
    · cases hrun
      exact ⟨rfl, rfl, .inl rfl⟩

/-- An attempt that ends the retries is reported. -/
theorem callEnds_endsRetries {attempt : Attempt} (h : attempt.endsRetries = true) (now : Int) :
    (s.callEnds now attempt).hasFinished = true ∧ (s.callEnds now attempt).phase = .looping
      ∧ (s.callEnds now attempt).notified = s.notified + 1 := by
  cases attempt with
  | succeeds => exact ⟨rfl, rfl, rfl⟩
  | fails e =>
      cases e with
      | retryException => exact ⟨rfl, rfl, rfl⟩
      | other => cases h
  | throws e =>
      cases e with
      | retryException => exact ⟨rfl, rfl, rfl⟩
      | other => cases h

/-- Any other is not. -/
theorem callEnds_goesOn {attempt : Attempt} (h : ¬ attempt.endsRetries = true) (now : Int) :
    (s.callEnds now attempt).phase = .looping
      ∧ (s.callEnds now attempt).notified = s.notified := by
  cases attempt with
  | succeeds => exact absurd rfl h
  | fails e =>
      cases e with
      | retryException => exact absurd rfl h
      | other => exact ⟨rfl, rfl⟩
  | throws e =>
      cases e with
      | retryException => exact absurd rfl h
      | other => exact ⟨rfl, rfl⟩

theorem validate_error {e : RetryError} (h : s.validate task = .error e) :
    e = .retryException := by
  simp only [validate, retryModeValidate] at h
  split at h <;> (repeat' split at h) <;> cases h <;> rfl

/-- A round that makes no try reports the end. -/
theorem round_of_not_mayTry (hfinished : s.hasFinished = false) (hmay : s.mayTry task = false)
    (now : Int) :
    (s.round task now).hasFinished = true ∧ (s.round task now).phase = .looping
      ∧ (s.round task now).notified = s.notified + 1 := by
  unfold round
  rw [hfinished]
  simp only [Bool.false_eq_true, if_false]
  split
  · rename_i e he
    rw [validate_error he]
    exact ⟨rfl, rfl, rfl⟩
  · exact ⟨rfl, rfl, rfl⟩
  · rename_i hvalid
    simp [mayTry, hvalid] at hmay

/-- A round that makes a try reports nothing. -/
theorem round_of_mayTry (hfinished : s.hasFinished = false) (hmay : s.mayTry task = true)
    (now : Int) :
    (s.round task now).notified = s.notified ∧ (s.round task now).phase ≠ .completed := by
  unfold round
  rw [hfinished, validate_of_mayTry hmay]
  exact doTry_phase (validate_of_mayTry hmay) now

/-- The last round reports the end. -/
theorem round_of_finished (task : RetryTask) (hfinished : s.hasFinished = true) (now : Int) :
    (s.round task now).phase = .completed
      ∧ (s.round task now).notified = s.notified + 1 := by
  unfold round
  rw [if_pos hfinished]
  exact ⟨rfl, rfl⟩

/-- A step that comes to `finished()` reports the end, and the next round is the last. -/
theorem step_comesToFinished {t : RetryRunner} {a : RetryStep} (hcomes : s.ComesToFinished task a)
    (henabled : s.enabled a) (hrun : s.step task a = .ok t) :
    t.hasFinished = true ∧ t.phase = .looping ∧ t.notified = s.notified + 1 := by
  cases a with
  | rounds now =>
      cases hrun
      exact round_of_not_mayTry hcomes.1 hcomes.2 now
  | ends now =>
      obtain ⟨call, hphase⟩ := enabled_ends.mp henabled
      simp only [ComesToFinished, endsRetries, hphase] at hcomes
      simp only [step, hphase] at hrun
      cases hrun
      exact callEnds_endsRetries hcomes now
  | expires => cases hcomes
  | resumes =>
      have hreleased : s.phase = .released := hcomes
      simp only [step, if_pos hreleased] at hrun
      cases hrun
      exact ⟨rfl, rfl, rfl⟩
  | cancel => cases hcomes

/-- Any other step reports the end only in the last round. -/
theorem step_quiet {t : RetryRunner} {a : RetryStep} (hquiet : ¬ s.ComesToFinished task a)
    (henabled : s.enabled a) (hrun : s.step task a = .ok t)
    (hs : s.notified = if s.phase = .completed then 1 else 0) :
    t.notified = if t.phase = .completed then 1 else 0 := by
  -- but for the end of the run, the step leaves the count as it was
  have hkept (hnotified : t.notified = s.notified)
      (hphase : t.phase = .completed ↔ s.phase = .completed) :
      t.notified = if t.phase = .completed then 1 else 0 := by
    rw [hnotified, hs]
    simp only [hphase]
  cases a with
  | rounds now =>
      cases hrun
      have hlooping : s.phase = .looping := henabled
      by_cases hfinished : s.hasFinished = true
      · obtain ⟨hphase, hnotified⟩ := round_of_finished task hfinished now
        rw [hphase, hnotified, hs, hlooping]
        rfl
      · have hunfinished : s.hasFinished = false := eq_false_of_ne_true hfinished
        have hmay : s.mayTry task = true :=
          eq_true_of_ne_false fun h => hquiet ⟨hunfinished, h⟩
        obtain ⟨hnotified, hphase⟩ := round_of_mayTry hunfinished hmay now
        exact hkept hnotified (iff_of_false hphase (hlooping ▸ nofun))
  | ends now =>
      obtain ⟨call, htrying⟩ := enabled_ends.mp henabled
      simp only [ComesToFinished, endsRetries, htrying] at hquiet
      simp only [step, htrying] at hrun
      cases hrun
      obtain ⟨hphase, hnotified⟩ := callEnds_goesOn hquiet now
      exact hkept hnotified (iff_of_false (hphase ▸ nofun) (htrying ▸ nofun))
  | expires =>
      cases hrun
      refine hkept rfl (iff_of_false nofun fun hcompleted => ?_)
      exact absurd (cancel_of_completed hcompleted henabled) nofun
  | resumes =>
      have hnot : s.phase ≠ .released := hquiet
      have htimedOut : s.phase = .timedOut := henabled.resolve_right hnot
      simp only [step, if_neg hnot] at hrun
      cases hrun
      exact hkept retry_phase.1 (iff_of_false retry_phase.2 (htimedOut ▸ nofun))
  | cancel =>
      obtain ⟨-, hnotified, hphase⟩ := cancel_cases hrun
      rcases hphase with hsame | ⟨⟨time, hwaiting⟩, hreleased⟩
      · exact hkept hnotified (by rw [hsame])
      · exact hkept hnotified (iff_of_false (hreleased ▸ nofun) (hwaiting ▸ nofun))

end RetryRunner

/-- A run whose steps never come to `finished()` has reported nothing, or its end once. -/
theorem notified_of_quiet {task : RetryTask} {s : RetryRunner}
    (hs : ((retryRun task).restrict fun s a => ¬ s.ComesToFinished task a).Reachable s) :
    s.notified = if s.phase = .completed then 1 else 0 := by
  refine hs.invariant (P := fun s => s.notified = if s.phase = .completed then 1 else 0) rfl ?_
  intro s a t hs henabled hrun
  exact RetryRunner.step_quiet henabled.2 henabled.1 hrun hs

/-- Behind `finished()` there is one round left, which reports again. -/
def RetryRunner.Leaving (s : RetryRunner) : Prop :=
  s.hasFinished = true ∧ s.phase = .looping ∧ s.notified = 1
    ∨ s.phase = .completed ∧ s.notified = 2

theorem RetryRunner.Leaving.step {task : RetryTask} {s t : RetryRunner} {a : RetryStep}
    (hs : s.Leaving) (henabled : s.enabled a) (hrun : s.step task a = .ok t) : t.Leaving := by
  by_cases hcancel : a = .cancel
  · subst hcancel
    obtain ⟨hfinished, hnotified, hphase⟩ := RetryRunner.cancel_cases hrun
    have hsame : t.phase = s.phase := by
      refine hphase.resolve_right ?_
      rintro ⟨⟨time, hwaiting⟩, -⟩
      rcases hs with ⟨-, hlooping, -⟩ | ⟨hcompleted, -⟩
      · exact absurd (hlooping.symm.trans hwaiting) nofun
      · exact absurd (hcompleted.symm.trans hwaiting) nofun
    rcases hs with ⟨-, hlooping, hone⟩ | ⟨hcompleted, htwo⟩
    · exact .inl ⟨hfinished, hsame.trans hlooping, hnotified.trans hone⟩
    · exact .inr ⟨hsame.trans hcompleted, hnotified.trans htwo⟩
  · rcases hs with ⟨hfinished, hlooping, hone⟩ | ⟨hcompleted, -⟩
    · obtain ⟨now, rfl⟩ := RetryRunner.rounds_of_looping hlooping henabled hcancel
      cases hrun
      obtain ⟨hphase, hnotified⟩ := RetryRunner.round_of_finished task hfinished now
      exact .inr ⟨hphase, by rw [hnotified, hone]⟩
    · exact absurd (RetryRunner.cancel_of_completed hcompleted henabled) hcancel

/-- A run that ends without a step that came to `finished()` has reported its end once; one
    with such a step reports it twice. -/
theorem retry_end_reported (task : RetryTask) :
    (∀ s, ((retryRun task).restrict fun s a => ¬ s.ComesToFinished task a).Reachable s →
      s.phase = .completed → s.notified = 1)
    ∧ ∀ s a t u, ((retryRun task).restrict fun s a => ¬ s.ComesToFinished task a).Reachable s →
        (retryRun task).enabled s a → (retryRun task).step s a = .ok t →
        s.ComesToFinished task a → (retryRun task).Steps t u → u.phase = .completed →
        u.notified = 2 := by
  constructor
  · intro s hs hcompleted
    rw [notified_of_quiet hs, if_pos hcompleted]
  · intro s a t u hs henabled hrun hcomes hsteps hcompleted
    obtain ⟨hfinished, hlooping, hnotified⟩ :=
      RetryRunner.step_comesToFinished hcomes henabled hrun
    have hzero : s.notified = 0 := by
      rw [notified_of_quiet hs, if_neg]
      intro hphase
      cases a <;> simp [RetryRunner.ComesToFinished, RetryRunner.endsRetries, hphase] at hcomes
      exact absurd (hphase.symm.trans henabled) nofun
    have hleaving : u.Leaving := by
      refine hsteps.invariant (P := RetryRunner.Leaving) ?_ fun _ _ _ h he hr => h.step he hr
      exact .inl ⟨hfinished, hlooping, by rw [hnotified, hzero]⟩
    rcases hleaving with ⟨-, hphase, -⟩ | ⟨-, htwo⟩
    · exact absurd (hphase.symm.trans hcompleted) nofun
    · exact htwo

/-- A function that succeeds at once. -/
def succeedingTask : RetryTask := ⟨.plain, 1, fun _ => .succeeds⟩

/-- `cancel` before the first try, and no `cancel`. -/
theorem retry_end_reported_succeeding :
    (∃ s, ((retryRun succeedingTask).restrict
        fun s a => ¬ s.ComesToFinished succeedingTask a).Reachable s
      ∧ s.calls = [] ∧ s.notified = 1)
    ∧ ∃ t u, (retryRun succeedingTask).Steps t u ∧ t.notified = 1 ∧ u.notified = 2 := by
  constructor
  · obtain ⟨s, hs, hp⟩ := Machine.reachable_of_runs
      (M := (retryRun succeedingTask).restrict
        fun s a => ¬ s.ComesToFinished succeedingTask a)
      (p := fun s => decide (s.phase = .completed ∧ s.calls = [])) [.cancel, .rounds 0]
      (by decide)
    obtain ⟨hphase, hcalls⟩ := of_decide_eq_true hp
    exact ⟨s, hs, hcalls, (retry_end_reported succeedingTask).1 s hs hphase⟩
  · have hs : ((retryRun succeedingTask).restrict
        fun s a => ¬ s.ComesToFinished succeedingTask a).Reachable
        (RetryRunner.callFunc {}) :=
      .step (a := .rounds 0) .init ⟨rfl, by decide⟩ rfl
    have henabled : (retryRun succeedingTask).enabled (RetryRunner.callFunc {}) (.ends 0) :=
      trivial
    have hsteps : (retryRun succeedingTask).Steps
        ((RetryRunner.callFunc {}).callEnds 0 .succeeds)
        (((RetryRunner.callFunc {}).callEnds 0 .succeeds).round succeedingTask 0) :=
      Machine.Steps.refl.step (a := .rounds 0) rfl rfl
    exact ⟨_, _, hsteps, rfl, (retry_end_reported succeedingTask).2 _ (.ends 0) _ _ hs henabled
      rfl rfl hsteps rfl⟩

/-- The first try succeeds, and nobody calls `cancel`. -/
theorem retry_end_reported_twice :
    ∃ s, (retryRun succeedingTask).Reachable s ∧ s.phase = .completed ∧ s.notified ≠ 1 := by
  obtain ⟨s, hs, hp⟩ := Machine.reachable_of_runs (M := retryRun succeedingTask)
    (p := fun s => decide (s.phase = .completed ∧ s.notified ≠ 1))
    [.rounds 0, .ends 0, .rounds 0] (by decide)
  obtain ⟨hphase, hnotified⟩ := of_decide_eq_true hp
  exact ⟨s, hs, hphase, hnotified⟩

/-! ## The tries -/

/-- The call throws, and leaves no future. -/
def Attempt.Throws : Attempt → Prop
  | .throws _ => True
  | _ => False

/-- How often `try_once` is to be called: up to the first success, and no more often than
    allowed. -/
def RetryTask.triesDue (task : RetryTask) : Nat :=
  min ((List.range task.maxTryTimes).findIdx (fun i => task.tryOnce i = .succeeds) + 1)
    task.maxTryTimes

/-- The arguments of the first calls: both counts go up from one. -/
def tryCounts (m : Nat) : List (Nat × Nat) := (List.range' 1 m).map fun i => (i, i)

theorem tryCounts_succ (m : Nat) : tryCounts (m + 1) = tryCounts m ++ [(m + 1, m + 1)] := by
  unfold tryCounts
  rw [List.range'_1_concat, List.map_append, Nat.add_comm 1 m]
  rfl

@[simp] theorem tryCounts_length (m : Nat) : (tryCounts m).length = m := by
  simp [tryCounts]

namespace RetryRunner

/-- The run has ended with this many calls. -/
structure Ran (m : Nat) (s : RetryRunner) : Prop where
  phase : s.phase = .completed
  calls : s.calls = tryCounts m

/-- Between two rounds, after so many tries that failed. -/
structure Between (m : Nat) (s : RetryRunner) : Prop where
  phase : s.phase = .looping
  unfinished : s.hasFinished = false
  executing : s.executing = false
  sleeping : s.sleeping = false
  tryTimes : s.tryTimes = m
  totalTryTimes : s.totalTryTimes = m
  calls : s.calls = tryCounts m

/-- The call with this number is at work. -/
structure Trying (m : Nat) (s : RetryRunner) : Prop where
  phase : s.phase = .trying m
  unfinished : s.hasFinished = false
  executing : s.executing = true
  sleeping : s.sleeping = false
  tryTimes : s.tryTimes = m + 1
  totalTryTimes : s.totalTryTimes = m + 1
  calls : s.calls = tryCounts (m + 1)

/-- The last round is left, after so many calls. -/
structure Over (m : Nat) (s : RetryRunner) : Prop where
  phase : s.phase = .looping
  finished : s.hasFinished = true
  calls : s.calls = tryCounts m

variable {task : RetryTask} {s : RetryRunner} {m : Nat} {P : RetryRunner → Prop}

/-! ### The steps of a run without `cancel` -/

theorem inevitably_of_round (hphase : s.phase = .looping)
    (h : ∀ now, (uncancelledRun task).Inevitably P (s.round task now)) :
    (uncancelledRun task).Inevitably P s := by
  refine .of_step ⟨.rounds 0, hphase, nofun⟩ ?_
  rintro a ⟨henabled, hcancel⟩
  obtain ⟨now, rfl⟩ := rounds_of_looping hphase henabled hcancel
  exact ⟨_, rfl, h now⟩

theorem inevitably_of_ends {call : Nat} (hphase : s.phase = .trying call)
    (h : ∀ now, (uncancelledRun task).Inevitably P (s.callEnds now (task.tryOnce call))) :
    (uncancelledRun task).Inevitably P s := by
  have hends : s.enabled (.ends 0) := enabled_ends.mpr ⟨call, hphase⟩
  refine .of_step ⟨.ends 0, hends, nofun⟩ ?_
  rintro a ⟨henabled, hcancel⟩
  obtain ⟨now, rfl⟩ := ends_of_trying hphase henabled hcancel
  refine ⟨_, ?_, h now⟩
  simp only [uncancelledRun, Machine.restrict, retryRun, step, hphase]

/-- A wait ends with its timer, and a try. -/
theorem inevitably_of_waiting {time : Int} (hphase : s.phase = .waiting time)
    (h : (uncancelledRun task).Inevitably P ({ s with phase := .timedOut }.retry task)) :
    (uncancelledRun task).Inevitably P s := by
  have hexpires : s.enabled .expires := by simp [enabled, hphase]
  refine .of_step ⟨.expires, hexpires, nofun⟩ ?_
  rintro a ⟨henabled, hcancel⟩
  obtain rfl := expires_of_waiting hphase henabled hcancel
  refine ⟨_, rfl, .of_step ⟨.resumes, .inl rfl, nofun⟩ ?_⟩
  rintro a ⟨henabled, hcancel⟩
  obtain rfl := resumes_of_timedOut rfl henabled hcancel
  exact ⟨_, rfl, h⟩

/-! ### The stages of a run -/

/-- The call of `_func` starts a try, from any state that agrees with one between two rounds
    in what a try goes by. -/
theorem callFunc_trying (hunfinished : s.hasFinished = false) (hsleeping : s.sleeping = false)
    (htryTimes : s.tryTimes = m) (htotal : s.totalTryTimes = m) (hcalls : s.calls = tryCounts m) :
    s.callFunc.Trying m := by
  refine ⟨?_, hunfinished, rfl, hsleeping, ?_, ?_, ?_⟩
  · simp [callFunc, hcalls]
  · simp [callFunc, htryTimes]
  · simp [callFunc, htotal]
  · simp [callFunc, hcalls, htryTimes, htotal, tryCounts_succ]

theorem Between.validate (h : s.Between m) (hm : m < task.maxTryTimes) :
    s.validate task = .ok true := by
  have hmax : ¬ task.maxTryTimes ≤ s.tryTimes := by
    rw [h.tryTimes]
    omega
  unfold RetryRunner.validate retryModeValidate
  simp only [h.executing, h.sleeping, if_neg hmax, Bool.false_eq_true, if_false]
  split <;> rfl

/-- While tries are left, a try is made. -/
theorem Between.tries (h : s.Between m) (hm : m < task.maxTryTimes) :
    (uncancelledRun task).Inevitably (Trying m) s := by
  have htrying : s.callFunc.Trying m :=
    callFunc_trying h.unfinished h.sleeping h.tryTimes h.totalTryTimes h.calls
  refine inevitably_of_round h.phase fun now => ?_
  unfold round
  rw [h.unfinished, h.validate hm]
  simp only [Bool.false_eq_true, if_false]
  unfold doTry
  split
  · exact .now htrying
  · rename_i delay exponent hmode
    unfold delayDoTry
    split
    · exact .now htrying
    · refine inevitably_of_waiting rfl (.now ?_)
      simp only [retry, hmode]
      exact callFunc_trying h.unfinished h.sleeping h.tryTimes h.totalTryTimes h.calls
  · rename_i duration exponent hmode
    simp only [timeoutDoTry, h.sleeping, Bool.false_eq_true, if_false]
    split
    · exact .now htrying
    · refine inevitably_of_waiting rfl (.now ?_)
      simp only [retry, hmode]
      exact callFunc_trying h.unfinished rfl h.tryTimes h.totalTryTimes h.calls

/-- When all tries are used up, the run is over. -/
theorem Between.exhausted (h : s.Between m) (hm : task.maxTryTimes ≤ m) :
    (uncancelledRun task).Inevitably (Over m) s := by
  have hmax : task.maxTryTimes ≤ s.tryTimes := by
    rw [h.tryTimes]
    exact hm
  refine inevitably_of_round h.phase fun now => .now ?_
  have hvalid : s.validate task = .error .retryException := by
    unfold RetryRunner.validate retryModeValidate
    simp only [h.executing, h.sleeping, if_pos hmax, Bool.false_eq_true, if_false]
    split <;> rfl
  unfold round
  rw [h.unfinished, hvalid]
  simp only [Bool.false_eq_true, if_false]
  exact ⟨rfl, rfl, h.calls⟩

theorem Trying.succeeds (h : s.Trying m) (hattempt : task.tryOnce m = .succeeds) :
    (uncancelledRun task).Inevitably (Over (m + 1)) s := by
  refine inevitably_of_ends h.phase fun now => .now ?_
  rw [hattempt]
  exact ⟨rfl, rfl, h.calls⟩

theorem Trying.fails (h : s.Trying m) (hattempt : task.tryOnce m = .fails .other) :
    (uncancelledRun task).Inevitably (Between (m + 1)) s := by
  refine inevitably_of_ends h.phase fun now => .now ?_
  rw [hattempt]
  exact ⟨rfl, h.unfinished, rfl, h.sleeping, h.tryTimes, h.totalTryTimes, h.calls⟩

/-- A round that finds `_excuting` set makes no try, and is the last but one. -/
theorem over_of_executing (hphase : s.phase = .looping) (hunfinished : s.hasFinished = false)
    (hexecuting : s.executing = true) (hcalls : s.calls = tryCounts m) :
    (uncancelledRun task).Inevitably (Over m) s := by
  refine inevitably_of_round hphase fun now => .now ?_
  have hvalid : s.validate task = .ok false := by
    unfold RetryRunner.validate retryModeValidate
    simp only [hexecuting, if_true]
    split
    · split <;> rfl
    · rfl
  unfold round
  rw [hunfinished, hvalid]
  simp only [Bool.false_eq_true, if_false]
  exact ⟨rfl, rfl, hcalls⟩

/-- A call that throws leaves `_excuting` set. -/
theorem Trying.throws (h : s.Trying m) (hattempt : task.tryOnce m = .throws .other) :
    (uncancelledRun task).Inevitably (Over (m + 1)) s := by
  refine inevitably_of_ends h.phase fun now => ?_
  rw [hattempt]
  exact over_of_executing rfl h.unfinished h.executing h.calls

theorem Over.ran (h : s.Over m) : (uncancelledRun task).Inevitably (Ran m) s := by
  refine inevitably_of_round h.phase fun now => .now ?_
  unfold round
  rw [if_pos h.finished]
  exact ⟨rfl, h.calls⟩

theorem Ran.halted (h : s.Ran m) : (uncancelledRun task).Halted s := by
  rintro a ⟨henabled, hcancel⟩
  exact hcancel (cancel_of_completed h.phase henabled)

end RetryRunner

/-! ### Whole runs -/

section Tries

variable {task : RetryTask}
  (hother : ∀ i e, task.tryOnce i = .fails e ∨ task.tryOnce i = .throws e → e = .other)

/-- Up to the first call that does not leave a failed future, every call is made. -/
theorem inevitably_between {m : Nat} (hm : m ≤ task.maxTryTimes)
    (hfails : ∀ i < m, task.tryOnce i = .fails .other) :
    (uncancelledRun task).Inevitably (RetryRunner.Between m) (uncancelledRun task).init := by
  have hinit : RetryRunner.Between 0 (uncancelledRun task).init :=
    ⟨rfl, rfl, rfl, rfl, rfl, rfl, rfl⟩
  refine Machine.Inevitably.of_stages ?_ (Nat.zero_le m) hinit
  intro i s hi hs
  exact (hs.tries (by omega)).bind fun t ht => ht.fails (hfails i hi)

include hother in
/-- Every run ends, having made every call up to the first that succeeds or throws. -/
theorem inevitably_ran {m : Nat} (hm : m < task.maxTryTimes)
    (hfails : ∀ i < m, task.tryOnce i = .fails .other)
    (hlast : ∀ e, task.tryOnce m ≠ .fails e) :
    (uncancelledRun task).Inevitably (RetryRunner.Ran (m + 1)) (uncancelledRun task).init := by
  refine (inevitably_between (Nat.le_of_lt hm) hfails).bind fun s hs => ?_
  refine (hs.tries hm).bind fun s hs => ?_
  refine Machine.Inevitably.bind (Q := RetryRunner.Over (m + 1)) ?_ fun s hs => hs.ran
  cases hattempt : task.tryOnce m with
  | succeeds => exact hs.succeeds hattempt
  | fails e => exact absurd hattempt (hlast e)
  | throws e =>
      obtain rfl := hother m e (.inr hattempt)
      exact hs.throws hattempt

/-- Where every allowed call fails, all are made, and the run ends. -/
theorem inevitably_ran_all (hfails : ∀ i < task.maxTryTimes, task.tryOnce i = .fails .other) :
    (uncancelledRun task).Inevitably (RetryRunner.Ran task.maxTryTimes)
      (uncancelledRun task).init := by
  refine (inevitably_between (Nat.le_refl _) hfails).bind fun s hs => ?_
  exact (hs.exhausted (Nat.le_refl _)).bind fun s hs => hs.ran

/-- Before the last call that is due, none succeeds. -/
theorem not_succeeds_of_lt_triesDue {i : Nat} (hi : i + 1 < task.triesDue) :
    task.tryOnce i ≠ .succeeds := by
  unfold RetryTask.triesDue at hi
  have hfirst : i < (List.range task.maxTryTimes).findIdx
      fun i => task.tryOnce i = .succeeds := by omega
  simpa using List.not_of_lt_findIdx hfirst

/-- The last call that is due succeeds, or is the last one allowed. -/
theorem triesDue_eq {m : Nat} (hm : task.triesDue = m + 1) :
    task.tryOnce m = .succeeds ∨ task.maxTryTimes = m + 1 := by
  unfold RetryTask.triesDue at hm
  by_cases hmax : task.maxTryTimes = m + 1
  · exact .inr hmax
  · have hfirst : (List.range task.maxTryTimes).findIdx
        (fun i => task.tryOnce i = .succeeds) = m := by omega
    have hlt : (List.range task.maxTryTimes).findIdx (fun i => task.tryOnce i = .succeeds)
        < (List.range task.maxTryTimes).length := by
      rw [List.length_range]
      omega
    have hsucceeds := List.findIdx_getElem (w := hlt)
    simp only [List.getElem_range, hfirst] at hsucceeds
    exact .inl (of_decide_eq_true hsucceeds)

include hother in
theorem fails_of_lt_triesDue {i : Nat} (hi : i + 1 < task.triesDue)
    (hthrows : ¬ (task.tryOnce i).Throws) : task.tryOnce i = .fails .other := by
  cases hattempt : task.tryOnce i with
  | succeeds => exact absurd hattempt (not_succeeds_of_lt_triesDue hi)
  | fails e => rw [hother i e (.inl hattempt)]
  | throws e => exact absurd (hattempt ▸ trivial) hthrows

end Tries

/-- Without `cancel` and `retry_exception`, every run ends after the calls that are due, with
    counts from one, exactly where no call but the last one due throws instead of returning a
    future. -/
theorem retry_tries_iff (task : RetryTask)
    (hother : ∀ i e, task.tryOnce i = .fails e ∨ task.tryOnce i = .throws e → e = .other) :
    (uncancelledRun task).Inevitably (RetryRunner.Ran task.triesDue) (uncancelledRun task).init
      ↔ ∀ i, i + 1 < task.triesDue → ¬ (task.tryOnce i).Throws := by
  constructor
  · intro hran i
    induction i using Nat.strongRecOn with
    | ind i ih =>
      intro hi hthrows
      have hmax : i < task.maxTryTimes := by
        unfold RetryTask.triesDue at hi
        omega
      have hfails : ∀ j < i, task.tryOnce j = .fails .other := fun j hj =>
        fails_of_lt_triesDue hother (by omega) (ih j hj (by omega))
      have hlast : ∀ e, task.tryOnce i ≠ .fails e := by
        intro e he
        rw [he] at hthrows
        exact hthrows
      -- the run ends with the call that throws, and cannot end with another as well
      obtain ⟨t, hdue, hless⟩ := hran.meets (inevitably_ran hother hmax hfails hlast)
        (fun _ h => h.halted) (fun _ h => h.halted)
      have hlength := congrArg List.length (hdue.calls.symm.trans hless.calls)
      rw [tryCounts_length, tryCounts_length] at hlength
      omega
  · intro hthrows
    have hle : task.triesDue ≤ task.maxTryTimes := Nat.min_le_right _ _
    have hfails : ∀ i, i + 1 < task.triesDue → task.tryOnce i = .fails .other := fun i hi =>
      fails_of_lt_triesDue hother hi (hthrows i hi)
    cases hdue : task.triesDue with
    | zero =>
        have hzero : task.maxTryTimes = 0 := by
          unfold RetryTask.triesDue at hdue
          omega
        rw [← hzero]
        exact inevitably_ran_all fun i hi => by omega
    | succ m =>
        have hbefore : ∀ i < m, task.tryOnce i = .fails .other := fun i hi =>
          hfails i (by omega)
        by_cases hlast : ∀ e, task.tryOnce m ≠ .fails e
        · exact inevitably_ran hother (by omega) hbefore hlast
        · obtain ⟨e, he⟩ := not_forall_not.mp hlast
          have hmax : task.maxTryTimes = m + 1 :=
            (triesDue_eq hdue).resolve_left fun h => by rw [he] at h; cases h
          rw [← hmax]
          refine inevitably_ran_all fun i hi => ?_
          rcases Nat.lt_succ_iff_lt_or_eq.mp (hmax ▸ hi) with hlt | rfl
          · exact hbefore i hlt
          · rw [he, hother i e (.inl he)]

/-- The second of three tries succeeds, with a delay that doubles. -/
theorem retry_tries_second :
    (uncancelledRun ⟨.delay 1000 true, 3,
        fun i => if i = 1 then .succeeds else .fails .other⟩).Inevitably
      (RetryRunner.Ran 2) {} := by
  refine (retry_tries_iff ⟨.delay 1000 true, 3,
    fun i => if i = 1 then .succeeds else .fails .other⟩ ?_).mpr ?_
  · intro i e he
    dsimp only at he
    split at he <;> simp_all
  · intro i _ hthrows
    dsimp only at hthrows
    split at hthrows <;> exact hthrows

/-- The first of three calls throws, and the next one would succeed. -/
theorem retry_tries_throws :
    let task : RetryTask := ⟨.plain, 3, fun i => if i = 0 then .throws .other else .succeeds⟩
    ¬ (uncancelledRun task).Inevitably (RetryRunner.Ran task.triesDue)
      (uncancelledRun task).init := by
  intro task hran
  have hother : ∀ i e, task.tryOnce i = .fails e ∨ task.tryOnce i = .throws e → e = .other := by
    intro i e he
    simp only [task] at he
    split at he <;> simp_all
  have hless := inevitably_ran hother (m := 0) (by decide) nofun nofun
  obtain ⟨t, htwo, hone⟩ := hran.meets hless (fun _ h => h.halted) (fun _ h => h.halted)
  exact absurd (htwo.calls.symm.trans hone.calls) (by decide)

end SeastarLive
