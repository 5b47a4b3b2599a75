/-
SeastarLive.Frame.FrameExchangeTheorems — what reaches the consumer of an
asynchronous queue, and when.

At most one future is pending, the last one, and exactly while the queue holds
a promise (`Waiting`). Each call either leaves the futures alone, settles that
one, or adds one.

* `exchange_delivers`: without `close`, the batches handed over and what is
  still queued are the collapsed runs of what was pushed.
* `exchange_wakes`: no wake-up is lost along the runs that meet
  `AwaitsInRound`; `exchange_loses_wakeUp` is a run that loses one.
* `closedFor_iff`: a closed queue answers a later `not_empty()` only where the
  `_closed` flag is set, and `close` does not set it.
-/
import SeastarLive.Frame.FrameExchange
import SeastarLive.Frame.FrameQueueTheorems

namespace SeastarLive

open Flv HeaderStream

namespace FrameExchange

/-! ## Futures -/

/-- The pending futures: the last one while a promise is held, and no other. -/
def Waiting (e : FrameExchange) : Prop :=
  ∃ settled, (∀ x ∈ settled, x ≠ FrameFuture.pending)
    ∧ e.futures = settled ++ if e.queue.notEmpty then [.pending] else []

theorem settle_eq_self {futures : List FrameFuture} (h : ∀ x ∈ futures, x ≠ .pending)
    (outcome : FrameFuture) : settle outcome futures = futures :=
  (List.map_congr_left fun x hx => if_neg (h x hx)).trans (List.map_id' futures)

theorem settle_concat {futures : List FrameFuture} (h : ∀ x ∈ futures, x ≠ .pending)
    (outcome : FrameFuture) : settle outcome (futures ++ [.pending]) = futures ++ [outcome] := by
  have hself := settle_eq_self h outcome
  unfold settle at hself ⊢
  rw [List.map_append, hself]
  rfl

theorem Waiting.pending_iff {e : FrameExchange} (he : e.Waiting) :
    .pending ∈ e.futures ↔ e.queue.notEmpty = true := by
  obtain ⟨settled, hsettled, hfutures⟩ := he
  rw [hfutures, List.mem_append]
  cases e.queue.notEmpty with
  | true => simp
  | false => simpa using fun h => hsettled _ h rfl

/-! ## Calls -/

/-- `notify_not_empty` fulfils the pending future with the queued frames, if there are
    both. -/
theorem call_notify_cases (e : FrameExchange) :
    (e.queue.base.queue = [] ∨ e.queue.notEmpty = false)
        ∧ e.call .notifyNotEmpty = { e with pushing := false }
      ∨ (e.queue.base.queue ≠ [] ∧ e.queue.notEmpty = true)
        ∧ e.call .notifyNotEmpty
          = { e with
              queue := { e.queue with base := {}, notEmpty := false }
              futures := settle (.ready e.queue.base.queue) e.futures
              pushing := false } := by
  rcases e.queue.notifyNotEmpty_cases with ⟨hidle, h⟩ | ⟨hboth, h⟩
  · exact .inl ⟨hidle, by simp only [call, fulfil, h]⟩
  · exact .inr ⟨hboth, by simp only [call, fulfil, h]⟩

theorem call_notEmpty_cases (e : FrameExchange) :
    e.queue.closed = true
        ∧ e.call .notEmpty = { e with futures := e.futures ++ [.ready []] }
      ∨ e.queue.closed = false
        ∧ e.call .notEmpty
          = { e with
              queue := { e.queue with notEmpty := true }
              futures := settle .broken e.futures ++ [.pending] } := by
  rcases e.queue.waitNotEmpty_cases with ⟨hclosed, h⟩ | ⟨hopen, h⟩
  · exact .inl ⟨hclosed, by simp only [call, awaitNotEmpty, h]⟩
  · exact .inr ⟨hopen, by simp only [call, awaitNotEmpty, h]⟩

theorem call_close_cases (e : FrameExchange) :
    e.queue.notEmpty = false ∧ e.call .close = e
      ∨ e.queue.notEmpty = true
        ∧ e.call .close
          = { e with
              queue := { e.queue with notEmpty := false }
              futures := settle (.ready []) e.futures } := by
  rcases e.queue.close_cases with ⟨hpromise, h⟩ | ⟨hpromise, h⟩
  · exact .inl ⟨hpromise, by simp only [call, fulfil, h]⟩
  · exact .inr ⟨hpromise, by simp only [call, fulfil, h]⟩

/-- No call writes `_closed`. -/
theorem call_closed (e : FrameExchange) (c : QueueCall) :
    (e.call c).queue.closed = e.queue.closed := by
  cases c with
  | pushBack frame => rfl
  | notifyNotEmpty => rcases call_notify_cases e with ⟨-, h⟩ | ⟨-, h⟩ <;> rw [h]
  | notEmpty => rcases call_notEmpty_cases e with ⟨-, h⟩ | ⟨-, h⟩ <;> rw [h]
  | close => rcases call_close_cases e with ⟨-, h⟩ | ⟨-, h⟩ <;> rw [h]

/-! ## At most one future is pending -/

/-- The future that is pending comes to `outcome`. -/
theorem Waiting.settle {e : FrameExchange} (he : e.Waiting) (hpromise : e.queue.notEmpty = true)
    (outcome : FrameFuture) :
    ∃ settled, (∀ x ∈ settled, x ≠ .pending)
      ∧ e.futures = settled ++ [.pending]
      ∧ FrameExchange.settle outcome e.futures = settled ++ [outcome] := by
  obtain ⟨settled, hsettled, hfutures⟩ := he
  rw [hpromise, if_pos rfl] at hfutures
  rw [hfutures, settle_concat hsettled]
  exact ⟨settled, hsettled, rfl, rfl⟩

/-- While no promise is held, no future is pending. -/
theorem Waiting.settled {e : FrameExchange} (he : e.Waiting)
    (hpromise : e.queue.notEmpty = false) : ∀ x ∈ e.futures, x ≠ .pending := by
  rintro x hx rfl
  have htrue := he.pending_iff.mp hx
  rw [hpromise] at htrue
  cases htrue

theorem Waiting.of_settled {e : FrameExchange} (hpromise : e.queue.notEmpty = false)
    (hsettled : ∀ x ∈ e.futures, x ≠ .pending) : e.Waiting :=
  ⟨e.futures, hsettled, by simp [hpromise]⟩

theorem forall_mem_concat {settled : List FrameFuture} (h : ∀ x ∈ settled, x ≠ .pending)
    {outcome : FrameFuture} (houtcome : outcome ≠ .pending) :
    ∀ x ∈ settled ++ [outcome], x ≠ .pending := by
  intro x hx
  rcases List.mem_append.mp hx with hx | hx
  · exact h x hx
  · rw [List.mem_singleton.mp hx]
    exact houtcome

theorem Waiting.call {e : FrameExchange} (he : e.Waiting) (hopen : e.queue.closed = false)
    (c : QueueCall) : (e.call c).Waiting := by
  cases c with
  | pushBack frame => exact he
  | notifyNotEmpty =>
      rcases call_notify_cases e with ⟨-, h⟩ | ⟨⟨-, hpromise⟩, h⟩
      · rw [h]
        exact he
      · obtain ⟨settled, hsettled, -, heq⟩ := he.settle hpromise (.ready e.queue.base.queue)
        rw [h, heq]
        exact .of_settled rfl (forall_mem_concat hsettled nofun)
  | notEmpty =>
      rcases call_notEmpty_cases e with ⟨hclosed, -⟩ | ⟨-, h⟩
      · rw [hopen] at hclosed
        cases hclosed
      · rw [h]
        cases hpromise : e.queue.notEmpty with
        | false =>
            have hsettled := he.settled hpromise
            rw [settle_eq_self hsettled]
            exact ⟨e.futures, hsettled, rfl⟩
        | true =>
            obtain ⟨settled, hsettled, -, heq⟩ := he.settle hpromise .broken
            rw [heq]
            exact ⟨settled ++ [.broken], forall_mem_concat hsettled nofun, rfl⟩
  | close =>
      rcases call_close_cases e with ⟨-, h⟩ | ⟨hpromise, h⟩
      · rw [h]
        exact he
      · obtain ⟨settled, hsettled, -, heq⟩ := he.settle hpromise (.ready [])
        rw [h, heq]
        exact .of_settled rfl (forall_mem_concat hsettled nofun)

/-! ## Batches -/

theorem batches_settle_broken {e : FrameExchange} (he : e.Waiting) :
    (settle .broken e.futures).filterMap FrameFuture.batch? = e.batches := by
  cases hpromise : e.queue.notEmpty with
  | false => rw [settle_eq_self (he.settled hpromise), batches]
  | true =>
      obtain ⟨settled, -, hfutures, heq⟩ := he.settle hpromise .broken
      rw [heq, batches, hfutures, List.filterMap_append, List.filterMap_append]
      rfl

theorem batches_settle_ready {e : FrameExchange} (he : e.Waiting)
    (hpromise : e.queue.notEmpty = true) (frames : List Frame) :
    (settle (.ready frames) e.futures).filterMap FrameFuture.batch? = e.batches ++ [frames] := by
  obtain ⟨settled, -, hfutures, heq⟩ := he.settle hpromise (.ready frames)
  rw [heq, batches, hfutures, List.filterMap_append, List.filterMap_append]
  simp [FrameFuture.batch?]

/-- The batches and the queued frames are collapsed runs of the frames pushed. -/
structure Delivers (e : FrameExchange) : Prop where
  waiting : e.Waiting
  opened : e.queue.closed = false
  runs : ∃ (runs : List (List Frame)) (last : List Frame), e.pushed = runs.flatten ++ last
    ∧ e.batches = runs.map (collapse Frame.isMetadata)
    ∧ e.queue.base.queue = collapse Frame.isMetadata last
  nonempty : ∀ batch ∈ e.batches, batch ≠ []

theorem Delivers.init : Delivers {} where
  waiting := ⟨[], nofun, rfl⟩
  opened := rfl
  runs := ⟨[], [], rfl, rfl, rfl⟩
  nonempty := nofun

/-- A frame that is pushed extends the last run. -/
theorem Delivers.pushBack {e : FrameExchange} (he : e.Delivers) (frame : Frame) :
    (e.call (.pushBack frame)).Delivers where
  waiting := he.waiting
  opened := he.opened
  runs := by
    obtain ⟨runs, last, hpushed, hbatches, hqueue⟩ := he.runs
    refine ⟨runs, last ++ [frame], ?_, hbatches, ?_⟩
    · change e.pushed ++ [frame] = _
      rw [hpushed, List.append_assoc]
    · change (e.queue.base.pushBack frame).queue = _
      rw [FrameQueue.pushBack_queue, hqueue, collapse_concat]
  nonempty := he.nonempty

/-- A batch that is handed over ends the last run. -/
theorem Delivers.notify {e : FrameExchange} (he : e.Delivers) :
    (e.call .notifyNotEmpty).Delivers := by
  rcases call_notify_cases e with ⟨-, h⟩ | ⟨⟨hqueued, hpromise⟩, h⟩
  · rw [h]
    exact ⟨he.waiting, he.opened, he.runs, he.nonempty⟩
  · have hwaiting := he.waiting.call he.opened .notifyNotEmpty
    have hclosed := (call_closed e .notifyNotEmpty).trans he.opened
    have hbatches := batches_settle_ready he.waiting hpromise e.queue.base.queue
    obtain ⟨runs, last, hpushed, hruns, hqueue⟩ := he.runs
    rw [h] at hwaiting hclosed ⊢
    refine ⟨hwaiting, hclosed, ⟨runs ++ [last], [], ?_, ?_, rfl⟩, ?_⟩
    · simp [hpushed]
    · rw [List.map_append, ← hruns, List.map_singleton, ← hqueue]
      exact hbatches
    · intro batch hbatch
      rw [batches, hbatches] at hbatch
      rcases List.mem_append.mp hbatch with hold | hnew
      · exact he.nonempty batch hold
      · rw [List.mem_singleton.mp hnew]
        exact hqueued

/-- A call of `not_empty()` hands nothing over. -/
theorem Delivers.notEmpty {e : FrameExchange} (he : e.Delivers) :
    (e.call .notEmpty).Delivers := by
  rcases call_notEmpty_cases e with ⟨hclosed, -⟩ | ⟨-, h⟩
  · rw [he.opened] at hclosed
    cases hclosed
  · have hwaiting := he.waiting.call he.opened .notEmpty
    have hclosed := (call_closed e .notEmpty).trans he.opened
    have hbatches : (e.call .notEmpty).batches = e.batches := by
      rw [h, batches, List.filterMap_append, batches_settle_broken he.waiting]
      exact List.append_nil _
    have hruns := he.runs
    have hnonempty := he.nonempty
    rw [← hbatches] at hruns hnonempty
    rw [h] at hwaiting hclosed hruns hnonempty ⊢
    exact ⟨hwaiting, hclosed, hruns, hnonempty⟩

theorem Delivers.call {e : FrameExchange} (he : e.Delivers) {c : QueueCall}
    (hc : e.StaysOpen c) : (e.call c).Delivers := by
  cases c with
  | pushBack frame => exact he.pushBack frame
  | notifyNotEmpty => exact he.notify
  | notEmpty => exact he.notEmpty
  | close => exact absurd rfl hc

end FrameExchange

/-! ## Exactly once, in order -/

/-- Without `close`, the frames pushed split into runs such that the batches handed over
    and the queued frames are the runs, collapsed; no batch is empty, and no media or
    script frame is lost, doubled or moved. -/
theorem exchange_delivers (e : FrameExchange)
    (he : (frameExchange.restrict FrameExchange.StaysOpen).Reachable e) :
    (∃ (runs : List (List Frame)) (last : List Frame), e.pushed = runs.flatten ++ last
        ∧ e.batches = runs.map (collapse Frame.isMetadata)
        ∧ e.queue.base.queue = collapse Frame.isMetadata last)
      ∧ (∀ batch ∈ e.batches, batch ≠ [])
      ∧ ((e.batches.flatten ++ e.queue.base.queue).filter fun f => !f.isMetadata)
          = e.pushed.filter fun f => !f.isMetadata := by
  have hdelivers : e.Delivers := by
    refine he.invariant FrameExchange.Delivers.init ?_
    intro s c t hs henabled hrun
    cases hrun
    exact hs.call henabled.2
  refine ⟨hdelivers.runs, hdelivers.nonempty, ?_⟩
  obtain ⟨runs, last, hpushed, hbatches, hqueue⟩ := hdelivers.runs
  rw [hpushed, hbatches, hqueue, List.filter_append, List.filter_append,
    filter_flatten_collapse Frame.isMetadata, filter_collapse Frame.isMetadata]

/-- Two metadata frames of one run: the first is gone, the second is handed over. -/
theorem exchange_delivers_metadata :
    ∃ e, (frameExchange.restrict FrameExchange.StaysOpen).Reachable e
      ∧ (e.pushed.length = 4 ∧ e.batches = [[.metadata { audio := { codecid := 10 } }]])
      ∧ (∃ (runs : List (List Frame)) (last : List Frame), e.pushed = runs.flatten ++ last
          ∧ e.batches = runs.map (collapse Frame.isMetadata)
          ∧ e.queue.base.queue = collapse Frame.isMetadata last) := by
  obtain ⟨e, he, hrun⟩ := Machine.reachable_of_runs
    (M := frameExchange.restrict FrameExchange.StaysOpen)
    (p := fun e => decide (e.pushed.length = 4
      ∧ e.batches = [[.metadata { audio := { codecid := 10 } }]]))
    [.pushBack (.metadata {}), .notEmpty, .pushBack (.metadata { audio := { codecid := 10 } }),
      .notifyNotEmpty, .pushBack (.media {}), .notEmpty, .pushBack (.script {})]
    (by decide +kernel)
  exact ⟨e, he, of_decide_eq_true hrun, (exchange_delivers e he).1⟩

/-! ## Wake-ups -/

namespace FrameExchange

/-- While the consumer waits, a round is under way or nothing is queued. -/
structure Wakes (e : FrameExchange) : Prop where
  waiting : e.Waiting
  opened : e.queue.closed = false
  wakes : .pending ∈ e.futures → e.pushing = true ∨ e.queue.base.queue = []

theorem Wakes.call {e : FrameExchange} (he : e.Wakes) {c : QueueCall} (hc : e.InRounds c)
    (hround : e.AwaitsInRound c) : (e.call c).Wakes where
  waiting := he.waiting.call he.opened c
  opened := (call_closed e c).trans he.opened
  wakes := by
    cases c with
    | pushBack frame => exact fun _ => .inl rfl
    | notifyNotEmpty =>
        rcases call_notify_cases e with ⟨hidle, h⟩ | ⟨-, h⟩
        · rw [h]
          intro hpending
          rcases hidle with hempty | hpromise
          · exact .inr hempty
          · exact absurd rfl (he.waiting.settled hpromise _ hpending)
        · rw [h]
          exact fun _ => .inr rfl
    | notEmpty =>
        rcases call_notEmpty_cases e with ⟨hclosed, -⟩ | ⟨-, h⟩
        · rw [he.opened] at hclosed
          cases hclosed
        · rw [h]
          exact fun _ => hround rfl
    | close => exact hc.elim

/-- A consumer that waits on queued frames between two rounds has lost its wake-up. -/
theorem Wakes.lost {e : FrameExchange} (he : e.Wakes) {c : QueueCall}
    (hround : ¬ e.AwaitsInRound c) : (e.call c).LostWakeUp := by
  obtain ⟨rfl, hnot⟩ := Classical.not_imp.mp hround
  obtain ⟨hpushing, hqueued⟩ := not_or.mp hnot
  rcases call_notEmpty_cases e with ⟨hclosed, -⟩ | ⟨-, h⟩
  · rw [he.opened] at hclosed
    cases hclosed
  · rw [h]
    exact ⟨Bool.eq_false_iff.mpr hpushing, List.mem_append_right _ (List.mem_singleton_self _),
      hqueued⟩

end FrameExchange

/-- No wake-up is lost while every `not_empty()` finds the queue empty or a round under
    way; one that finds frames between two rounds loses it at once. -/
theorem exchange_wakes (e : FrameExchange)
    (he : ((frameExchange.restrict FrameExchange.InRounds).restrict
      FrameExchange.AwaitsInRound).Reachable e) :
    ¬ e.LostWakeUp
      ∧ ∀ c, e.InRounds c → ¬ e.AwaitsInRound c → (e.call c).LostWakeUp := by
  have hwakes : e.Wakes := by
    refine he.invariant (P := FrameExchange.Wakes)
      ⟨FrameExchange.Delivers.init.waiting, rfl, fun h => by cases h⟩ ?_
    intro s c t hs henabled hrun
    cases hrun
    exact hs.call henabled.1.2 henabled.2
  constructor
  · rintro ⟨hpushing, hpending, hqueued⟩
    rcases hwakes.wakes hpending with hround | hempty
    · rw [hpushing] at hround
      cases hround
    · exact hqueued hempty
  · intro c _ hround
    exact hwakes.lost hround

/-- A consumer that waits first is woken by the round. -/
theorem exchange_wakes_waiting :
    ∃ e, ((frameExchange.restrict FrameExchange.InRounds).restrict
        FrameExchange.AwaitsInRound).Reachable e
      ∧ e.batches = [[.media {}]] ∧ ¬ e.LostWakeUp := by
  obtain ⟨e, he, hrun⟩ := Machine.reachable_of_runs
    (M := (frameExchange.restrict FrameExchange.InRounds).restrict FrameExchange.AwaitsInRound)
    (p := fun e => decide (e.batches = [[.media {}]]))
    [.notEmpty, .pushBack (.media {}), .notifyNotEmpty]
    (by decide +kernel)
  exact ⟨e, he, of_decide_eq_true hrun, (exchange_wakes e he).1⟩

/-- A round that ends while the consumer is busy, and a consumer that waits after it. -/
theorem exchange_loses_wakeUp :
    ¬ ∀ e, (frameExchange.restrict FrameExchange.InRounds).Reachable e → ¬ e.LostWakeUp := by
  intro hall
  obtain ⟨e, he, hlost⟩ := Machine.reachable_of_runs
    (M := frameExchange.restrict FrameExchange.InRounds) (p := fun e => decide e.LostWakeUp)
    [.pushBack (.media {}), .notifyNotEmpty, .notEmpty]
    (by decide +kernel)
  exact hall e he (of_decide_eq_true hlost)

/-! ## After `close` -/

namespace FrameExchange

theorem calls_closed (e : FrameExchange) (cs : List QueueCall) :
    (e.calls cs).queue.closed = e.queue.closed := by
  induction cs generalizing e with
  | nil => rfl
  | cons c cs ih => exact (ih (e.call c)).trans (call_closed e c)

/-- A call of `not_empty()` returns a ready future exactly when `_closed` is set. -/
theorem notEmpty_ready_iff (e : FrameExchange) :
    (∃ frames, (e.call .notEmpty).futures.getLast? = some (.ready frames))
      ↔ e.queue.closed = true := by
  rcases call_notEmpty_cases e with ⟨hclosed, h⟩ | ⟨hclosed, h⟩
  · rw [h, hclosed]
    simp
  · rw [h, hclosed]
    simp

end FrameExchange

/-- After `close`, the later `not_empty()` calls return ready futures exactly when
    `_closed` was set before or there is no such call. -/
theorem closedFor_iff (e : FrameExchange) (cs : List QueueCall) :
    e.ClosedFor cs ↔ e.queue.closed = true ∨ QueueCall.notEmpty ∉ cs := by
  have hready : ∀ before : List QueueCall,
      (∃ frames, (((e.call .close).calls before).call .notEmpty).futures.getLast?
        = some (.ready frames)) ↔ e.queue.closed = true := by
    intro before
    rw [FrameExchange.notEmpty_ready_iff, FrameExchange.calls_closed,
      FrameExchange.call_closed]
  constructor
  · intro hclosed
    by_cases hmem : QueueCall.notEmpty ∈ cs
    · obtain ⟨before, after, hsplit⟩ := List.append_of_mem hmem
      exact .inl ((hready before).mp (hclosed before after hsplit))
    · exact .inr hmem
  · intro hor before after hsplit
    rcases hor with hclosed | hmem
    · exact (hready before).mpr hclosed
    · exact absurd (hsplit ▸ List.mem_append_right _ List.mem_cons_self) hmem

/-- `_closed` is set in no state that the calls reach. -/
theorem exchange_never_closed {e : FrameExchange} (he : frameExchange.Reachable e) :
    e.queue.closed = false := by
  refine he.invariant (P := fun e => e.queue.closed = false) rfl ?_
  intro s c t hs _ hrun
  cases hrun
  exact (FrameExchange.call_closed s c).trans hs

/-- `close`, then `not_empty()`: the future stays pending. -/
theorem exchange_reopens :
    ¬ ∀ e, frameExchange.Reachable e → ∀ cs, QueueCall.close ∉ cs → e.ClosedFor cs := by
  intro hall
  obtain ⟨frames, hready⟩ := hall {} .init [.notEmpty] (by decide) [] [] rfl
  cases hready

end SeastarLive
