/-
SeastarLive.Util.RetryRunner — a function that is tried until it succeeds.

`retry_runner` of `src/util/retry_runner.cc` with the modes of `src/util/retry_mode.cc`, for one
call of `run` on a new runner.

* `try_once` is what a subclass provides. The task says what its calls come to: a future that
  succeeds or fails, or an exception that is thrown instead of a future. `on_retry_finished`
  is counted.
* A step is what happens until the next wait: a round of `do_until`, the end of an attempt,
  the timer of `with_timeout`, the continuation behind it, or a call of `cancel`.
* A promise that is fulfilled a second time is a fault.
* The clock is read in any order, in units of the delays; the delays do not overflow.
-/
import Mathlib.Algebra.Ring.Int.Defs
import SeastarLive.Lib.Transition

namespace SeastarLive

/-! ## Tasks -/

/-- `retry_exception`, which ends the retries, and any other. -/
inductive RetryError
  | retryException
  | other
deriving DecidableEq

/-- What a call of `try_once` comes to. -/
inductive Attempt
  | succeeds
  | fails (e : RetryError)
  /-- there is no future, the call throws -/
  | throws (e : RetryError)
deriving DecidableEq

/-- `retry_mode`, `delay_retry_mode` and `timeout_retry_mode`; with `exponent`,
    `delay_exponent_retry_mode` and `timeout_exponent_retry_mode`. -/
inductive RetryMode
  | plain
  | delay (delay : Int) (exponent : Bool)
  | timeout (duration : Int) (exponent : Bool)
deriving DecidableEq

/-- What is to be tried, and how. -/
structure RetryTask where
  mode : RetryMode
  /-- `_max_try_times` -/
  maxTryTimes : Nat
  /-- what each call of `try_once` comes to, from the first -/
  tryOnce : Nat → Attempt

/-! ## The runner -/

/-- Where `run` waits. -/
inductive RetryPhase
  /-- `do_until` is about to test `_finished` -/
  | looping
  /-- the call with this number is at work -/
  | trying (call : Nat)
  /-- `with_timeout`, for this time -/
  | waiting (time : Int)
  /-- `cancel` has fulfilled the promise -/
  | released
  /-- the timer came first -/
  | timedOut
  | completed
deriving DecidableEq

structure RetryRunner where
  /-- `_finished` -/
  hasFinished : Bool := false
  /-- `_excuting` -/
  executing : Bool := false
  /-- `_sleeping` -/
  sleeping : Bool := false
  tryTimes : Nat := 0
  totalTryTimes : Nat := 0
  lastTimestamp : Int := 0
  /-- `_cancel_pr`, and whether it is fulfilled -/
  cancelPr : Option Bool := none
  phase : RetryPhase := .looping
  /-- the arguments of the calls of `try_once` -/
  calls : List (Nat × Nat) := []
  /-- the calls of `on_retry_finished` -/
  notified : Nat := 0
deriving DecidableEq

/-- A time, doubled with each try in the exponential modes. -/
def backoff (time : Int) (exponent : Bool) (tryTimes : Nat) : Int :=
  if exponent then time * 2 ^ tryTimes else time

namespace RetryRunner

variable (task : RetryTask) (s : RetryRunner)

/-- `current_delay`. -/
def currentDelay (delay : Int) (exponent : Bool) : Int := backoff delay exponent s.tryTimes

/-- `current_timeout_duration`. -/
def currentTimeoutDuration (duration : Int) (exponent : Bool) : Int :=
  backoff duration exponent s.tryTimes

/-- `retry_runner::finished`, and the next round. -/
def finished : RetryRunner :=
  { s with hasFinished := true, notified := s.notified + 1, phase := .looping }

/-- The handlers of `run` for an exception. -/
def failed : RetryError → RetryRunner
  | .retryException => s.finished
  | .other => { s with phase := .looping }

/-- `retry_mode::_do_try`, up to the call of `_func`. -/
def callFunc : RetryRunner :=
  { s with
    tryTimes := s.tryTimes + 1
    totalTryTimes := s.totalTryTimes + 1
    executing := true
    calls := s.calls ++ [(s.tryTimes + 1, s.totalTryTimes + 1)]
    phase := .trying s.calls.length }

/-- `retry_mode::_do_try`, from the call of `_func`. -/
def callEnds (now : Int) : Attempt → RetryRunner
  | .succeeds => { s with executing := false, tryTimes := 0, lastTimestamp := now }.finished
  | .fails e => { s with executing := false, lastTimestamp := now }.failed e
  -- `then_wrapped` has no future to wait for
  | .throws e => s.failed e

/-- `retry_mode::_validate`. -/
def retryModeValidate : Except RetryError Bool :=
  if s.executing then .ok false
  else if task.maxTryTimes ≤ s.tryTimes then .error .retryException
  else .ok true

/-- `_validate`. -/
def validate : Except RetryError Bool :=
  match task.mode with
  | .timeout _ _ => if s.sleeping then .ok false else s.retryModeValidate task
  | _ => s.retryModeValidate task

/-- `delay_retry_mode::_do_try`, up to its wait. -/
def delayDoTry (delay : Int) (exponent : Bool) : RetryRunner :=
  if s.tryTimes = 0 then s.callFunc
  else { s with cancelPr := some false, phase := .waiting (s.currentDelay delay exponent) }

/-- `timeout_retry_mode::_do_try`, up to its wait. -/
def timeoutDoTry (duration : Int) (exponent : Bool) (now : Int) : RetryRunner :=
  if s.sleeping then s.finished
  else
    let duration := s.currentTimeoutDuration duration exponent
    let offset := now - s.lastTimestamp
    if duration < offset then s.callFunc
    else
      { s with
        sleeping := true
        cancelPr := some false
        phase := .waiting (duration - offset) }

/-- `_do_try`. -/
def doTry (now : Int) : RetryRunner :=
  match task.mode with
  | .plain => s.callFunc
  | .delay delay exponent => s.delayDoTry delay exponent
  | .timeout duration exponent => s.timeoutDoTry duration exponent now

/-- The handler of `_do_try` for `timed_out_error`. -/
def retry : RetryRunner :=
  match task.mode with
  | .timeout _ _ => { s with sleeping := false, cancelPr := none }.callFunc
  | _ => { s with cancelPr := none }.callFunc

/-- One round of `run`, or its end. -/
def round (now : Int) : RetryRunner :=
  if s.hasFinished then { s with notified := s.notified + 1, phase := .completed }
  else
    match s.validate task with
    | .error e => s.failed e
    -- the future of `do_try` is ready
    | .ok false => s.finished
    | .ok true => s.doTry task now

end RetryRunner

/-! ## The machine -/

inductive RetryFault
  /-- A promise is fulfilled twice. -/
  | promiseSet
deriving DecidableEq

/-- What happens to a runner. -/
inductive RetryStep
  | rounds (now : Int)
  | ends (now : Int)
  | expires
  | resumes
  | cancel
deriving DecidableEq

namespace RetryRunner

variable (task : RetryTask) (s : RetryRunner)

/-- `retry_runner::cancel`, with the `cancel` of the mode. -/
def cancel : Except RetryFault RetryRunner :=
  let s := { s with hasFinished := true }
  match task.mode, s.cancelPr with
  | .plain, _ => .ok s
  | _, none => .ok s
  | _, some true => .error .promiseSet
  | _, some false =>
      match s.phase with
      | .waiting _ => .ok { s with cancelPr := some true, phase := .released }
      | _ => .ok { s with cancelPr := some true }

def enabled : RetryStep → Prop
  | .rounds _ => s.phase = .looping
  | .ends _ => match s.phase with
      | .trying _ => True
      | _ => False
  | .expires => match s.phase with
      | .waiting _ => True
      -- the timer is taken back by a continuation of the promise, which has not run
      | .released => True
      | _ => False
  | .resumes => s.phase = .timedOut ∨ s.phase = .released
  | .cancel => True

def step : RetryStep → Except RetryFault RetryRunner
  | .rounds now => .ok (s.round task now)
  | .ends now => match s.phase with
      | .trying call => .ok (s.callEnds now (task.tryOnce call))
      | _ => .ok s
  | .expires => .ok { s with phase := .timedOut }
  | .resumes => .ok (if s.phase = .released then s.finished else s.retry task)
  | .cancel => s.cancel task

instance (a : RetryStep) : Decidable (s.enabled a) := by
  cases a <;> unfold enabled
  · infer_instance
  · cases s.phase <;> infer_instance
  · cases s.phase <;> infer_instance
  · infer_instance
  · infer_instance

end RetryRunner

/-- One call of `run`, with any calls of `cancel`. -/
def retryRun (task : RetryTask) : Machine RetryRunner RetryStep RetryFault where
  init := {}
  enabled := RetryRunner.enabled
  step := RetryRunner.step task

instance (task : RetryTask) (s : RetryRunner) (a : RetryStep) :
    Decidable ((retryRun task).enabled s a) :=
  inferInstanceAs (Decidable (s.enabled a))

/-- One call of `run`, without `cancel`. -/
def uncancelledRun (task : RetryTask) : Machine RetryRunner RetryStep RetryFault :=
  (retryRun task).restrict fun _ a => a ≠ .cancel

end SeastarLive
