/-
SeastarLive.Session.PlaybackTheorems — which frames a player that was ended has handed
over.

The frames kept are at any time those handed over, then those in the future of
the loop, then those queued (`Playback.Inv.tally`). A complete player takes no
frame and does not wait again, so what is queued when it is completed stays.

* `playback_drains_iff`: at the end of the stream everything kept was handed
  over exactly when nothing was queued at completion and no batch was missed.
* `playback_loses_tail`: a run that loses the frame queued at completion.
-/
import SeastarLive.Session.Playback

namespace SeastarLive

open Flv HeaderStream

/-- `on_frame` of the session leaves its flags alone. -/
theorem SessionImpl.onFrame_flags {s t : SessionImpl} {f : Frame} (h : s.onFrame f = .ok t) :
    t.done = s.done ∧ t.isComplete = s.isComplete := by
  cases f with
  | media m =>
      cases h
      exact ⟨rfl, rfl⟩
  | metadata m =>
      cases h
      exact ⟨rfl, rfl⟩
  | script x => cases h

namespace Player

/-! ## The frames before the loop -/

/-- The frames in the future of the loop. -/
def arrived (p : Player) : List Frame := p.future.getD []

/-- How the queue, the promise and the loop of a player go together. -/
structure Flow (p : Player) : Prop where
  opened : p.queue.closed = false
  promise : p.queue.notEmpty = true → p.loop = .waiting ∧ p.future = none
  future_none : p.loop ≠ .waiting → p.loop ≠ .ended → p.future = none
  ended : p.loop = .ended → p.impl.isComplete = true
  empty : p.future = some [] → p.impl.isComplete = true
  detached : p.loop = .detached → p.queue = {}

theorem Flow.init (kind : PlayerKind) (mediaType : MediaType) : Flow { kind, mediaType } where
  opened := rfl
  promise := fun h => by cases h
  future_none := fun _ _ => rfl
  ended := fun h => by cases h
  empty := fun h => by cases h
  detached := fun _ => rfl

/-- What a step that takes no frame from the queue or the future leaves alone. -/
structure Holds (p q : Player) : Prop where
  base : q.queue.base = p.queue.base
  arrived : q.arrived = p.arrived

theorem Holds.refl (p : Player) : Holds p p := ⟨rfl, rfl⟩

/-- Closing the queue of a complete player. -/
theorem Flow.closeQueue {p : Player} (hp : p.Flow) (hc : p.impl.isComplete = true) :
    Flow (p.settle p.queue.close) ∧ Holds p (p.settle p.queue.close) := by
  rcases p.queue.close_cases with ⟨-, h⟩ | ⟨hpromise, h⟩
  · rw [h]
    exact ⟨hp, Holds.refl p⟩
  · obtain ⟨hloop, hfuture⟩ := hp.promise hpromise
    have harrived : p.arrived = [] := by simp [arrived, hfuture]
    rw [h]
    constructor
    · exact ⟨hp.opened, (fun h => by cases h), fun h => absurd hloop h, fun _ => hc,
        fun _ => hc, fun h => by cases hloop.symm.trans h⟩
    · exact ⟨rfl, harrived.symm⟩

/-- Completing the session state only. -/
theorem Flow.setImpl {p : Player} (hp : p.Flow) {impl : SessionImpl}
    (himpl : p.impl.isComplete = true → impl.isComplete = true) : Flow { p with impl } where
  opened := hp.opened
  promise := hp.promise
  future_none := hp.future_none
  ended := fun h => himpl (hp.ended h)
  empty := fun h => himpl (hp.empty h)
  detached := hp.detached

theorem Flow.complete {p : Player} (hp : p.Flow) (how : Completion) :
    (p.complete how).Flow ∧ Holds p (p.complete how) := by
  unfold Player.complete
  split
  · exact ⟨hp, Holds.refl p⟩
  · have hc := SessionImpl.isComplete_complete p.impl how
    have himpl : Flow { p with impl := p.impl.complete how } := hp.setImpl fun _ => hc
    obtain ⟨hflow, hbase, harrived⟩ := himpl.closeQueue hc
    exact ⟨hflow, hbase, harrived⟩

/-- The loop ends. -/
theorem Flow.endLoop {p : Player} (hp : p.Flow) (hc : p.impl.isComplete = true)
    (hpromise : p.queue.notEmpty = false) : Flow { p with loop := .ended } where
  opened := hp.opened
  promise := fun h => by cases hpromise.symm.trans h
  future_none := fun _ h => absurd rfl h
  ended := fun _ => hc
  empty := hp.empty
  detached := fun h => by cases h

theorem close_notEmpty (q : AsyncFrameQueue) : q.close.1.notEmpty = false := by
  rcases q.close_cases with ⟨hpromise, h⟩ | ⟨-, h⟩
  · rw [h]
    exact hpromise
  · rw [h]

theorem Flow.onTimeout {p : Player} (hp : p.Flow) :
    p.onTimeout.Flow ∧ Holds p p.onTimeout := by
  have hc := SessionImpl.isComplete_onTimeout p.impl
  have himpl : Flow { p with impl := p.impl.onTimeout } := hp.setImpl fun _ => hc
  obtain ⟨hflow, hbase, harrived⟩ := himpl.closeQueue hc
  exact ⟨hflow.endLoop hc (close_notEmpty p.queue), hbase, harrived⟩

/-- A complete player that ends its loop. -/
theorem finish_of_complete {p : Player} (hc : p.impl.isComplete = true) :
    p.finish = { p with loop := .ended } := by
  unfold finish Player.complete
  rw [if_pos hc]
  split <;> rfl

theorem complete_done_eq {p : Player} {how : Completion} (hhow : how ≠ .done) :
    (p.complete how).impl.done = p.impl.done := by
  unfold Player.complete
  split
  · rfl
  · rename_i hc
    change (p.impl.complete how).done = p.impl.done
    unfold SessionImpl.complete
    rw [if_neg hc]
    cases how with
    | done => exact absurd rfl hhow
    | canceled => rfl
    | failed st => rfl

/-! ## Frames that arrive -/

/-- `notify_not_empty` moves the queued frames into the future, or does nothing. -/
theorem Flow.notify {p : Player} (hp : p.Flow) :
    p.notify.Flow
      ∧ p.notify.arrived ++ p.notify.queue.base.queue = p.arrived ++ p.queue.base.queue
      ∧ p.notify.impl = p.impl
      ∧ (p.impl.isComplete = true → p.notify = p) := by
  unfold Player.notify
  split
  · exact ⟨hp, rfl, rfl, fun _ => rfl⟩
  · rename_i hc
    rcases p.queue.notifyNotEmpty_cases with ⟨-, h⟩ | ⟨⟨hqueued, hpromise⟩, h⟩
    · rw [h]
      exact ⟨hp, rfl, rfl, fun _ => rfl⟩
    · obtain ⟨hloop, hfuture⟩ := hp.promise hpromise
      rw [h]
      refine ⟨⟨hp.opened, (fun h => by cases h), fun h => absurd hloop h, hp.ended, ?_,
        fun h => by cases hloop.symm.trans h⟩, ?_, rfl, fun h => absurd h hc⟩
      · intro hempty
        exact absurd (Option.some.inj hempty) hqueued
      · simp [settle, arrived, hfuture]

theorem notify_loop (p : Player) : p.notify.loop = p.loop := by
  unfold Player.notify
  split <;> rfl

/-- A frame joins the queue; a queue that grew too large cancels the player. -/
theorem Flow.enqueue {p : Player} (hp : p.Flow) (hloop : p.loop ≠ .detached)
    (g : GlobalSettings) (f : Frame) :
    (p.enqueue g f).Flow
      ∧ (p.enqueue g f).queue.base = p.queue.base.pushBack f
      ∧ (p.enqueue g f).arrived = p.arrived
      ∧ (p.enqueue g f).impl.done = p.impl.done
      ∧ (p.enqueue g f).loop = p.loop := by
  have hpush : Flow { p with queue := p.queue.pushBack f } :=
    ⟨hp.opened, hp.promise, hp.future_none, hp.ended, hp.empty, fun h => absurd h hloop⟩
  unfold Player.enqueue
  dsimp only
  split
  · exact ⟨hpush, rfl, rfl, rfl, rfl⟩
  · obtain ⟨hflow, hbase, harrived⟩ := hpush.complete .canceled
    exact ⟨hflow, hbase, harrived, complete_done_eq nofun, complete_loop _ _⟩

theorem onFrameRtmp_cases {p q : Player} (hp : p.Flow) (hloop : p.loop ≠ .detached)
    {g : GlobalSettings} {f : Frame} (h : p.onFrameRtmp g f = .ok q) :
    q.Flow ∧ q.impl.done = p.impl.done ∧ q.arrived = p.arrived ∧ q.loop = p.loop
      ∧ q.queue.base = if p.wants f then p.queue.base.pushBack f else p.queue.base := by
  unfold onFrameRtmp at h
  rw [skips_eq, ok_bind] at h
  cases hwants : p.wants f with
  | false =>
      simp only [hwants, Bool.not_false, if_true, Except.ok.injEq] at h
      subst h
      exact ⟨hp, rfl, rfl, rfl, rfl⟩
  | true =>
      simp only [hwants, Bool.not_true, Bool.false_eq_true, if_false] at h
      cases f with
      | media m =>
          cases h
          have himpl : Flow { p with impl := p.impl.onMedia m } := hp.setImpl id
          obtain ⟨hflow, hbase, harrived, hdone, hsame⟩ := himpl.enqueue hloop g (.media m)
          exact ⟨hflow, hdone, harrived, hsame, hbase⟩
      | metadata m =>
          cases h
          obtain ⟨hflow, hbase, harrived, hdone, hsame⟩ := hp.enqueue hloop g (.metadata m)
          exact ⟨hflow, hdone, harrived, hsame, hbase⟩
      | script x =>
          cases h
          obtain ⟨hflow, hbase, harrived, hdone, hsame⟩ := hp.enqueue hloop g (.script x)
          exact ⟨hflow, hdone, harrived, hsame, hbase⟩

theorem onFrameFlv_cases {p q : Player} (hp : p.Flow) (hloop : p.loop ≠ .detached)
    {g : GlobalSettings} {f : Frame} (h : p.onFrameFlv g f = .ok q) :
    q.Flow ∧ q.impl.done = p.impl.done ∧ q.arrived = p.arrived ∧ q.loop = p.loop
      ∧ q.queue.base = if p.wants f then p.queue.base.pushBack f else p.queue.base := by
  unfold onFrameFlv at h
  rw [skips_eq, ok_bind] at h
  cases hwants : p.wants f with
  | false =>
      simp only [hwants, Bool.not_false, if_true, Except.ok.injEq] at h
      subst h
      exact ⟨hp, rfl, rfl, rfl, rfl⟩
  | true =>
      simp only [hwants, Bool.not_true, Bool.false_eq_true, if_false] at h
      obtain ⟨impl, himpl, hq⟩ := bind_eq_ok h
      cases hq
      obtain ⟨hflow, hbase, harrived, hdone, hsame⟩ := hp.enqueue hloop g f
      obtain ⟨hkept, hcomplete⟩ := SessionImpl.onFrame_flags himpl
      exact ⟨hflow.setImpl fun hc => hcomplete.trans hc, hkept.trans hdone, harrived,
        hsame, hbase⟩

/-- `on_frame` pushes the frame, if the player takes it. -/
theorem pushFrame_cases {p q : Player} (hp : p.Flow) (hloop : p.loop ≠ .detached)
    {g : GlobalSettings} {f : Frame} (h : p.pushFrame g f = .ok q) :
    q.Flow ∧ q.impl.done = p.impl.done ∧ q.arrived = p.arrived ∧ q.loop = p.loop
      ∧ q.queue.base = if p.takes f then p.queue.base.pushBack f else p.queue.base := by
  unfold pushFrame at h
  unfold takes
  split at h
  · rename_i hignored
    cases h
    refine ⟨hp, rfl, rfl, rfl, ?_⟩
    cases hpub : p.pub <;> cases hc : p.impl.isComplete <;> simp_all
  · rename_i htaken
    have htakes : (p.pub && !p.impl.isComplete && p.wants f) = p.wants f := by
      cases hpub : p.pub <;> cases hc : p.impl.isComplete <;> simp_all
    rw [htakes]
    have hreceived : Flow { p with received := p.received ++ [f] } :=
      ⟨hp.opened, hp.promise, hp.future_none, hp.ended, hp.empty, hp.detached⟩
    have hwants : wants { p with received := p.received ++ [f] } f = p.wants f :=
      wants_congr rfl f
    rw [← hwants]
    dsimp only at h
    split at h
    · exact onFrameRtmp_cases hreceived hloop h
    · exact onFrameFlv_cases hreceived hloop h
    · exact onFrameFlv_cases hreceived hloop h

/-! ## The loop -/

/-- Writing a frame touches neither the queue nor the flags. -/
theorem writeFrame_cases {p q : Player} {f : Frame} (h : p.writeFrame f = .ok q) :
    q.queue = p.queue ∧ q.future = p.future ∧ q.impl = p.impl ∧ q.loop = p.loop := by
  have hmedia : ∀ {r : Player}, p.writeMedia f = .ok r →
      r.queue = p.queue ∧ r.future = p.future ∧ r.impl = p.impl ∧ r.loop = p.loop := by
    intro r hr
    unfold writeMedia at hr
    obtain ⟨_, -, hr⟩ := bind_eq_ok hr
    split at hr
    · cases hr
      exact ⟨rfl, rfl, rfl, rfl⟩
    · obtain ⟨_, -, hr⟩ := bind_eq_ok hr
      obtain ⟨_, -, hr⟩ := bind_eq_ok hr
      cases hr
      exact ⟨rfl, rfl, rfl, rfl⟩
  unfold writeFrame at h
  cases hkind : p.kind with
  | rtmp =>
      rw [hkind] at h
      cases f with
      | media m => exact hmedia h
      | metadata m =>
          cases h
          exact ⟨rfl, rfl, rfl, rfl⟩
      | script x =>
          cases h
          exact ⟨rfl, rfl, rfl, rfl⟩
  | httpFlv =>
      rw [hkind] at h
      cases f with
      | media m => exact hmedia h
      | metadata m =>
          cases h
          exact ⟨rfl, rfl, rfl, rfl⟩
      | script x => exact hmedia h
  | hls =>
      rw [hkind] at h
      simp only [writeFrameHls] at h
      split at h
      · cases h
        exact ⟨rfl, rfl, rfl, rfl⟩
      · cases f with
        | media m =>
            cases h
            exact ⟨rfl, rfl, rfl, rfl⟩
        | metadata m =>
            cases h
            exact ⟨rfl, rfl, rfl, rfl⟩
        | script x =>
            cases h
            exact ⟨rfl, rfl, rfl, rfl⟩

/-- The loop moves on without its future. -/
theorem Flow.moveOn {p : Player} (hp : p.Flow) (hpromise : p.queue.notEmpty = false)
    {loop : Loop} (hended : loop ≠ .ended) (hdetached : loop ≠ .detached) :
    Flow { p with loop, future := none } where
  opened := hp.opened
  promise := fun h => by cases hpromise.symm.trans h
  future_none := fun _ _ => rfl
  ended := fun h => absurd h hended
  empty := fun h => by cases h
  detached := fun h => absurd h hdetached

theorem Flow.promise_free {p : Player} (hp : p.Flow) (h : p.loop ≠ .waiting ∨ p.future ≠ none) :
    p.queue.notEmpty = false := by
  refine Bool.eq_false_iff.mpr fun hpromise => ?_
  obtain ⟨hloop, hfuture⟩ := hp.promise hpromise
  rcases h with h | h
  · exact h hloop
  · exact h hfuture

theorem loopStep_of_ended {p : Player} (h : p.loop = .ended) : p.loopStep = .ok p := by
  unfold loopStep
  rw [h]

/-- A step of the loop hands over the frames of its future, or leaves them there. -/
theorem loopStep_cases {p q : Player} (hp : p.Flow) (h : p.loopStep = .ok q) :
    q.Flow ∧ q.queue.base = p.queue.base ∧ p.handsOver ++ q.arrived = p.arrived
      ∧ q.impl.done = p.impl.done ∧ (q.loop = .ended → q = p ∨ q.arrived = []) := by
  unfold loopStep at h
  unfold handsOver
  cases hloop : p.loop with
  | detached =>
      rw [hloop] at h
      cases h
      exact ⟨hp, rfl, rfl, rfl, fun _ => .inl rfl⟩
  | ended =>
      rw [hloop] at h
      cases h
      exact ⟨hp, rfl, rfl, rfl, fun _ => .inl rfl⟩
  | checking =>
      rw [hloop] at h
      dsimp only at h
      have hpromise := hp.promise_free (.inl (by simp [hloop]))
      have hfuture := hp.future_none (by simp [hloop]) (by simp [hloop])
      split at h
      · rename_i hc
        rw [finish_of_complete hc] at h
        cases h
        exact ⟨hp.endLoop hc hpromise, rfl, rfl, rfl, fun _ => .inr (by simp [arrived, hfuture])⟩
      · rcases p.queue.waitNotEmpty_cases with ⟨hclosed, -⟩ | ⟨-, hwait⟩
        · cases hp.opened.symm.trans hclosed
        · rw [hwait] at h
          cases h
          refine ⟨⟨hp.opened, fun _ => ⟨rfl, hfuture⟩, fun h => absurd rfl h,
            (fun h => by cases h), ?_, fun h => by cases h⟩, rfl, rfl, rfl, nofun⟩
          intro hempty
          cases hfuture.symm.trans hempty
  | waiting =>
      rw [hloop] at h
      dsimp only at h
      split at h
      · rename_i hfuture
        cases h
        exact ⟨hp, rfl, by simp [arrived, hfuture], rfl, fun _ => .inl rfl⟩
      · rename_i hfuture
        have hc := hp.empty hfuture
        have hsame : p.complete .done = p := by rw [Player.complete, if_pos hc]
        rw [hsame] at h
        cases h
        exact ⟨hp.moveOn (hp.promise_free (.inr (by simp [hfuture]))) nofun nofun, rfl,
          by simp [arrived, hfuture], rfl, nofun⟩
      · rename_i fs _ hfuture
        cases h
        exact ⟨hp.moveOn (hp.promise_free (.inr (by simp [hfuture]))) nofun nofun, rfl,
          by simp [arrived], rfl, nofun⟩
  | writing frames =>
      have hpromise := hp.promise_free (.inl (by simp [hloop]))
      have hfuture := hp.future_none (by simp [hloop]) (by simp [hloop])
      cases frames with
      | nil =>
          rw [hloop] at h
          cases h
          have hmoved : Flow { p with loop := .checking, future := none } :=
            hp.moveOn hpromise nofun nofun
          rw [← hfuture] at hmoved
          exact ⟨hmoved, rfl, rfl, rfl, nofun⟩
      | cons f fs =>
          rw [hloop] at h
          obtain ⟨r, hwrite, hq⟩ := bind_eq_ok h
          cases hq
          obtain ⟨hqueue, hkept, himpl, -⟩ := writeFrame_cases hwrite
          refine ⟨⟨?_, ?_, ?_, nofun, ?_, nofun⟩, ?_, ?_, ?_, nofun⟩
          · exact (congrArg AsyncFrameQueue.closed hqueue).trans hp.opened
          · intro hheld
            cases hpromise.symm.trans ((congrArg AsyncFrameQueue.notEmpty hqueue).symm.trans hheld)
          · exact fun _ _ => hkept.trans hfuture
          · intro hempty
            cases (hkept.trans hfuture).symm.trans hempty
          · exact congrArg AsyncFrameQueue.base hqueue
          · exact congrArg (Option.getD · []) hkept
          · exact congrArg SessionImpl.done himpl

/-- A write that throws while a batch is written. -/
theorem Flow.writeFails {p : Player} (hp : p.Flow) {frames : List Frame}
    (hloop : p.loop = .writing frames) (st : Status) :
    (p.writeFails st).Flow ∧ Holds p (p.writeFails st)
      ∧ (p.writeFails st).impl.done = p.impl.done := by
  have hpromise := hp.promise_free (.inl (by simp [hloop]))
  have hfuture := hp.future_none (by simp [hloop]) (by simp [hloop])
  have hfails : ((p.complete (.failed st)).finish).Flow
      ∧ Holds p (p.complete (.failed st)).finish
      ∧ (p.complete (.failed st)).finish.impl.done = p.impl.done := by
    have hc := complete_isComplete p (.failed st)
    obtain ⟨hflow, hholds⟩ := hp.complete (.failed st)
    have hloop' : (p.complete (.failed st)).loop ≠ .waiting := by simp [hloop]
    rw [finish_of_complete hc]
    exact ⟨hflow.endLoop hc (hflow.promise_free (.inl hloop')),
      ⟨hholds.base, hholds.arrived⟩, complete_done_eq nofun⟩
  unfold Player.writeFails
  split
  · have hmoved : Flow { p with loop := .checking, future := none } :=
      hp.moveOn hpromise nofun nofun
    rw [← hfuture] at hmoved
    exact ⟨hmoved, ⟨rfl, rfl⟩, rfl⟩
  · exact hfails

/-- A player that begins has an empty queue and no flags. -/
theorem onBegin_cases {p q : Player} (hp : p.Flow) (hloop : p.loop = .detached)
    {pub : SessionImpl} (h : p.onBegin pub = .ok q) :
    q.Flow ∧ q.queue.base = p.queue.base ∧ q.arrived = p.arrived ∧ q.impl.done = false := by
  have hqueue := hp.detached hloop
  have hfuture := hp.future_none (by simp [hloop]) (by simp [hloop])
  have hbegin : ∀ impl : SessionImpl,
      Flow { p with impl, queue := p.queue.clear, loop := .checking } := by
    intro impl
    rw [hqueue]
    refine ⟨rfl, nofun, fun _ _ => hfuture, nofun, ?_, nofun⟩
    intro hempty
    cases hfuture.symm.trans hempty
  have hbase : p.queue.clear.base = p.queue.base := by rw [hqueue]; rfl
  unfold onBegin at h
  dsimp only at h
  split at h
  · cases h
    exact ⟨hbegin _, hbase, rfl, rfl⟩
  · obtain ⟨metadata, -, hq⟩ := bind_eq_ok h
    cases hq
    exact ⟨hbegin _, hbase, rfl, rfl⟩

end Player

namespace Playback

/-! ## Runs -/

/-- The invariant of a player and its records. -/
structure Inv (p : Playback) : Prop where
  flow : p.player.Flow
  tally : p.kept = p.handed ++ (p.player.arrived ++ p.player.queue.base.queue)
  bodies : (p.kept.filter fun f => !f.isMetadata) = p.pushed.filter fun f => !f.isMetadata
  left : p.player.impl.done = true → p.player.queue.base.queue = p.left
  missed_open : p.player.loop ≠ .ended → p.missed = []
  missed_ended : p.player.loop = .ended → p.missed = p.player.arrived

theorem Inv.init (kind : PlayerKind) (mediaType : MediaType) :
    Inv { player := { kind, mediaType } } where
  flow := Player.Flow.init kind mediaType
  tally := rfl
  bodies := rfl
  left := fun h => by cases h
  missed_open := fun _ => rfl
  missed_ended := fun _ => rfl

/-- A frame pushed is kept behind the others, or in the place of the last of them. -/
theorem Inv.keep {p : Playback} (hp : p.Inv) (f : Frame) :
    p.keep f = p.handed ++ (p.player.arrived ++ (p.player.queue.base.pushBack f).queue)
      ∧ ((p.keep f).filter fun f => !f.isMetadata)
          = (p.pushed ++ [f]).filter fun f => !f.isMetadata := by
  rw [FrameQueue.pushBack_queue]
  unfold Playback.keep
  rw [FrameQueue.endWithMetadata_eq, List.filter_append, ← hp.bodies, hp.tally]
  rcases pushCollapse_cases Frame.isMetadata p.player.queue.base.queue f with
    ⟨heq, happends⟩ | ⟨ys, y, hqueue, hy, hf, heq⟩
  · rw [if_neg (by simpa using happends), heq]
    constructor
    · simp only [List.append_assoc]
    · rw [List.filter_append]
  · have hend : endsWithHeader Frame.isMetadata (ys ++ [y]) = true := by
      rw [endsWithHeader_concat, hy]
    rw [heq, hqueue, if_pos (by simp [hf, hend])]
    simp only [← List.append_assoc, List.dropLast_concat]
    exact ⟨trivial, by simp [hy]⟩

/-- A step that takes no frame: it hands over some, or none. -/
theorem Inv.moves {p q : Playback} (hp : p.Inv) (hflow : q.player.Flow)
    (hkept : q.kept = p.kept) (hpushed : q.pushed = p.pushed)
    (hhanded : q.handed ++ (q.player.arrived ++ q.player.queue.base.queue)
      = p.handed ++ (p.player.arrived ++ p.player.queue.base.queue))
    (hleft : q.player.impl.done = true → q.player.queue.base.queue = q.left)
    (hopen : q.player.loop ≠ .ended → q.missed = [])
    (hended : q.player.loop = .ended → q.missed = q.player.arrived) : q.Inv where
  flow := hflow
  tally := by rw [hkept, hp.tally, hhanded]
  bodies := by rw [hkept, hpushed, hp.bodies]
  left := hleft
  missed_open := hopen
  missed_ended := hended

theorem Inv.frame {p t : Playback} (hp : p.Inv) {g : GlobalSettings} {f : Frame}
    (henabled : p.Enabled (.frame f)) (hrun : p.step g (.frame f) = .ok t) : t.Inv := by
  obtain ⟨q, hpush, ht⟩ := bind_eq_ok hrun
  obtain ⟨hflow, hdone, harrived, hloop, hbase⟩ :=
    Player.pushFrame_cases hp.flow henabled hpush
  cases ht
  by_cases htakes : p.player.takes f = true
  · rw [if_pos htakes] at hbase ⊢
    obtain ⟨hkeep, hbodies⟩ := hp.keep f
    refine ⟨hflow, ?_, hbodies, ?_, fun h => hp.missed_open (hloop ▸ h), ?_⟩
    · rw [hkeep, ← hbase, ← harrived]
    · intro h
      have hincomplete : p.player.impl.isComplete = false := by
        unfold Player.takes at htakes
        cases hc : p.player.impl.isComplete <;> simp_all
      have hnot : p.player.impl.done = false := by
        simp only [SessionImpl.isComplete, Bool.or_eq_false_iff] at hincomplete
        exact hincomplete.1.1.1
      cases (hdone.symm.trans h).symm.trans hnot
    · exact fun h => (hp.missed_ended (hloop.symm.trans h)).trans harrived.symm
  · rw [if_neg htakes] at hbase ⊢
    refine hp.moves hflow rfl rfl ?_ ?_ ?_ ?_
    · rw [harrived, hbase]
    · intro h
      rw [hbase]
      exact hp.left (hdone.symm.trans h)
    · exact fun h => hp.missed_open (hloop ▸ h)
    · exact fun h => (hp.missed_ended (hloop.symm.trans h)).trans harrived.symm

theorem Inv.complete {p : Playback} (hp : p.Inv) {g : GlobalSettings} {how : Completion}
    {t : Playback} (hrun : p.step g (.complete how) = .ok t) : t.Inv := by
  obtain ⟨hflow, hbase, harrived⟩ := hp.flow.complete how
  have hloop := Player.complete_loop p.player how
  cases hrun
  refine hp.moves hflow rfl rfl ?_ ?_ ?_ ?_
  · rw [harrived, hbase]
  · intro h
    rw [hbase]
    by_cases hc : p.player.impl.isComplete = true
    · rw [if_pos hc]
      rw [Player.complete, if_pos hc] at h
      exact hp.left h
    · rw [if_neg hc]
  · exact fun h => hp.missed_open (hloop ▸ h)
  · exact fun h => (hp.missed_ended (hloop.symm.trans h)).trans harrived.symm

theorem Inv.step {p t : Playback} (hp : p.Inv) {g : GlobalSettings} {a : PlaybackEvent}
    (henabled : p.Enabled a) (hrun : p.step g a = .ok t) : t.Inv := by
  cases a with
  | begin pub =>
      obtain ⟨q, hbegin, ht⟩ := bind_eq_ok hrun
      obtain ⟨hflow, hbase, harrived, hdone⟩ := Player.onBegin_cases hp.flow henabled hbegin
      have hmissed := hp.missed_open (by simp [show p.player.loop = .detached from henabled])
      have hnone := hp.flow.future_none (by simp [show p.player.loop = .detached from henabled])
        (by simp [show p.player.loop = .detached from henabled])
      cases ht
      refine hp.moves hflow rfl rfl (by rw [harrived, hbase]) ?_ (fun _ => hmissed) ?_
      · intro h
        cases h.symm.trans hdone
      · intro _
        rw [harrived, hmissed, Player.arrived, hnone]
        rfl
  | frame f => exact hp.frame henabled hrun
  | notify =>
      obtain ⟨hflow, hmoved, himpl, hsame⟩ := hp.flow.notify
      cases hrun
      by_cases hc : p.player.impl.isComplete = true
      · rw [hsame hc]
        exact hp
      · have hopen : p.player.loop ≠ .ended := fun h => hc (hp.flow.ended h)
        have hnot : p.player.impl.done ≠ true := fun h => hc (by simp [SessionImpl.isComplete, h])
        refine hp.moves hflow rfl rfl (by rw [hmoved]) ?_ (fun _ => hp.missed_open hopen) ?_
        · exact fun h => absurd (himpl ▸ h) hnot
        · exact fun h => absurd ((Player.notify_loop p.player).symm.trans h) hopen
  | complete how => exact hp.complete hrun
  | loop =>
      obtain ⟨q, hstep, ht⟩ := bind_eq_ok hrun
      obtain ⟨hflow, hbase, hmoved, hdone, hends⟩ := Player.loopStep_cases hp.flow hstep
      cases ht
      refine hp.moves hflow rfl rfl ?_ ?_ ?_ ?_
      · rw [List.append_assoc, ← hmoved, hbase]
        simp only [List.append_assoc]
      · intro h
        rw [hbase]
        exact hp.left (hdone.symm.trans h)
      · intro h
        refine hp.missed_open fun hended => h ?_
        rw [Player.loopStep_of_ended hended] at hstep
        cases hstep
        exact hended
      · intro h
        rcases hends h with hsame | hnone
        · rw [hsame] at h ⊢
          exact hp.missed_ended h
        · rw [hnone]
          by_cases hended : p.player.loop = .ended
          · rw [Player.loopStep_of_ended hended] at hstep
            cases hstep
            exact (hp.missed_ended hended).trans hnone
          · exact hp.missed_open hended
  | writeFails st =>
      obtain ⟨frames, hloop⟩ := henabled
      obtain ⟨hflow, ⟨hbase, harrived⟩, hdone⟩ := hp.flow.writeFails hloop st
      have hmissed := hp.missed_open (by simp [hloop])
      have hnone := hp.flow.future_none (by simp [hloop]) (by simp [hloop])
      cases hrun
      refine hp.moves hflow rfl rfl (by rw [harrived, hbase]) ?_ (fun _ => hmissed) ?_
      · intro h
        rw [hbase]
        exact hp.left (hdone.symm.trans h)
      · intro _
        rw [harrived, hmissed, Player.arrived, hnone]
        rfl
  | timeout =>
      obtain ⟨hflow, hbase, harrived⟩ := hp.flow.onTimeout
      cases hrun
      refine hp.moves hflow rfl rfl (by rw [harrived, hbase]) ?_ (fun h => absurd rfl h) ?_
      · intro h
        rw [hbase]
        exact hp.left h
      · exact fun _ => harrived.symm

end Playback

section Runs

variable (g : GlobalSettings) (kind : PlayerKind) (mediaType : MediaType)

/-- A player that `on_done` has ended and whose loop sees the end of the stream, or has
    ended, has handed over every frame that was pushed and not overwritten exactly when no
    frame was queued when it was completed and no wait timed out on a batch; a frame that
    was overwritten is metadata. -/
theorem playback_drains_iff (p : Playback) (hp : (playback g kind mediaType).Reachable p)
    (hdone : p.player.impl.done = true) (hstopped : p.player.stopped = true) :
    (p.handed = p.kept ↔ p.left = [] ∧ p.missed = [])
      ∧ (p.kept.filter fun f => !f.isMetadata) = p.pushed.filter fun f => !f.isMetadata := by
  have hinv : p.Inv := by
    refine hp.invariant (Playback.Inv.init kind mediaType) ?_
    intro s a t hs henabled hrun
    exact hs.step henabled hrun
  have hmissed : p.missed = p.player.arrived := by
    simp only [Player.stopped, Bool.or_eq_true, Bool.and_eq_true, beq_iff_eq] at hstopped
    rcases hstopped with hended | ⟨hwaiting, hempty⟩
    · exact hinv.missed_ended hended
    · rw [hinv.missed_open (by simp [hwaiting]), Player.arrived, hempty]
      rfl
  refine ⟨?_, hinv.bodies⟩
  have htally := hinv.tally
  rw [← hmissed, hinv.left hdone] at htally
  rw [htally, List.self_eq_append_right, List.append_eq_nil_iff]
  exact and_comm

end Runs

/-- A script frame that a waiting loop is given before `on_done`. -/
theorem playback_drains_iff_taken :
    ∃ p, (playback {} .rtmp .all).Reachable p
      ∧ (p.player.impl.done = true ∧ p.player.stopped = true ∧ p.handed = [.script {}])
      ∧ (p.handed = p.kept ↔ p.left = [] ∧ p.missed = []) := by
  obtain ⟨p, hp, hrun⟩ := Machine.reachable_of_runs (M := playback {} .rtmp .all)
    (p := fun p => decide (p.player.impl.done = true ∧ p.player.stopped = true
      ∧ p.handed = [.script {}]))
    [.begin { sessionMeta := some {} }, .loop, .frame (.script {}), .notify,
      .complete .done, .loop, .loop, .loop, .loop]
    (by decide +kernel)
  have hends := of_decide_eq_true hrun
  exact ⟨p, hp, hends, (playback_drains_iff {} .rtmp .all p hp hends.1 hends.2.1).1⟩

/-- A frame that is announced while the loop is busy, and `on_done` before the loop waits
    again. -/
theorem playback_loses_tail :
    ¬ ∀ g kind mediaType p, (playback g kind mediaType).Reachable p →
      p.player.impl.done = true → p.player.stopped = true →
      p.pushed.all (fun f => !f.isMetadata) = true → p.handed = p.pushed := by
  intro hall
  obtain ⟨p, hp, hrun⟩ := Machine.reachable_of_runs (M := playback {} .rtmp .all)
    (p := fun p => decide (p.player.impl.done = true ∧ p.player.stopped = true
      ∧ p.pushed = [.media {}] ∧ p.handed = []))
    [.begin { sessionMeta := some {} }, .frame (.media {}), .notify, .complete .done, .loop]
    (by decide +kernel)
  obtain ⟨hdone, hstopped, hpushed, hhanded⟩ := of_decide_eq_true hrun
  have heq := hall _ _ _ p hp hdone hstopped (by rw [hpushed]; rfl)
  rw [hpushed, hhanded] at heq
  cases heq

end SeastarLive
