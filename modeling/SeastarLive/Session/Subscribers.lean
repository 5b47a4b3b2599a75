/-
SeastarLive.Session.Subscribers — who is told that a publisher is complete.

The RTMP publisher of `src/session/rtmp/publish_session.cc` keeps a list of
subscribers of its own, and so does the class it derives from
(`src/session/publish_session.cc`). `_end`, `_cancel` and `_fail` go through
`on_done`, `on_cancel` and `on_fail` of the base, and these call
`for_each_subscriber` of the base: its list is the one that is told.

* Subscribers are pointers, so their type is a parameter that can be compared.
* An item also says whether its subscriber is receiving, for the delivery of
  frames (`Session.Broadcast`); no end call reads it.
* `for_each_subscriber` copies the list under the lock, so a call that
  completes the publisher is one step.
* `told` is a record of the end calls since `on_begin`.
-/
import Mathlib.Data.List.Count
import Mathlib.Data.List.Nodup
import SeastarLive.Lib.Transition
import SeastarLive.Server.SessionList
import SeastarLive.Session.Session

namespace SeastarLive

/-- The end calls of `subscriber`. -/
inductive SubscriberCall
  | onDone
  | onCancel
  | onFail (st : Status)
deriving DecidableEq

/-- An end call that a subscriber was given, with the publisher it was given. -/
structure Told (α : Type) where
  sub : α
  pub : SessionRef
  call : SubscriberCall
deriving DecidableEq

/-- `rtmp::session::publish_session`, as far as its subscribers are concerned. -/
structure RtmpPublisher (α : Type) where
  self : SessionRef
  impl : SessionImpl := {}
  /-- `_subscribers` of the base class. -/
  subscribers : List α := []
  /-- `_subscribers` of the RTMP class. -/
  rtmpSubscribers : List α := []
  told : List (Told α) := []

/-! ## The source -/

section Lists

variable {α : Type} [DecidableEq α]

/-- What both classes do to add a subscriber to their list. -/
def addItem (items : List α) (sub : α) : List α := if sub ∈ items then items else items ++ [sub]

/-- What both classes do to remove one. -/
def removeItem (items : List α) (sub : α) : List α := items.erase sub

namespace RtmpPublisher

def addSubscriber (w : RtmpPublisher α) (sub : α) : RtmpPublisher α :=
  { w with subscribers := addItem w.subscribers sub }

def removeSubscriber (w : RtmpPublisher α) (sub : α) : RtmpPublisher α :=
  { w with subscribers := removeItem w.subscribers sub }

def addRtmpSubscriber (w : RtmpPublisher α) (sub : α) : RtmpPublisher α :=
  { w with rtmpSubscribers := addItem w.rtmpSubscribers sub }

def removeRtmpSubscriber (w : RtmpPublisher α) (sub : α) : RtmpPublisher α :=
  { w with rtmpSubscribers := removeItem w.rtmpSubscribers sub }

end RtmpPublisher

end Lists

variable {α : Type}

namespace RtmpPublisher

/-- `for_each_subscriber`, of the base class. -/
def forEachSubscriber (w : RtmpPublisher α) (call : SubscriberCall) : RtmpPublisher α :=
  { w with told := w.told ++ w.subscribers.map fun sub => ⟨sub, w.self, call⟩ }

def onDone (w : RtmpPublisher α) : RtmpPublisher α := w.forEachSubscriber .onDone

def onCancel (w : RtmpPublisher α) : RtmpPublisher α := w.forEachSubscriber .onCancel

def onFail (w : RtmpPublisher α) : RtmpPublisher α := w.forEachSubscriber (.onFail w.impl.status)

/-- `_end`, `_cancel` and `_fail`. -/
def complete (w : RtmpPublisher α) (how : Completion) : RtmpPublisher α :=
  if w.impl.isComplete then w
  else
    let w' := { w with impl := w.impl.complete how }
    match how with
    | .done => w'.onDone
    | .canceled => w'.onCancel
    | .failed _ => w'.onFail

/-- `on_timeout`; it tells nobody. -/
def onTimeout (w : RtmpPublisher α) : RtmpPublisher α := { w with impl := w.impl.onTimeout }

/-- `on_begin`; both lists stay. -/
def onBegin (w : RtmpPublisher α) : RtmpPublisher α :=
  { w with impl := w.impl.onBegin, told := [] }

/-- `on_terminate`: `remove_all_subscribers` and `remove_all_rtmp_subscribers`. -/
def onTerminate (w : RtmpPublisher α) : RtmpPublisher α :=
  { w with subscribers := [], rtmpSubscribers := [] }

end RtmpPublisher

/-! ## The machine -/

inductive PublisherEvent (α : Type)
  | addSubscriber (sub : α)
  | removeSubscriber (sub : α)
  | addRtmpSubscriber (sub : α)
  | removeRtmpSubscriber (sub : α)
  | complete (how : Completion)
  | onTimeout
  | onBegin
  | onTerminate
deriving DecidableEq

def RtmpPublisher.step [DecidableEq α] (w : RtmpPublisher α) :
    PublisherEvent α → Except Empty (RtmpPublisher α)
  | .addSubscriber sub => .ok (w.addSubscriber sub)
  | .removeSubscriber sub => .ok (w.removeSubscriber sub)
  | .addRtmpSubscriber sub => .ok (w.addRtmpSubscriber sub)
  | .removeRtmpSubscriber sub => .ok (w.removeRtmpSubscriber sub)
  | .complete how => .ok (w.complete how)
  | .onTimeout => .ok w.onTimeout
  | .onBegin => .ok w.onBegin
  | .onTerminate => .ok w.onTerminate

/-- A publisher, with its subscribers and the calls made on it in any order. -/
def rtmpPublisher (α : Type) [DecidableEq α] (self : SessionRef) :
    Machine (RtmpPublisher α) (PublisherEvent α) Empty where
  init := { self }
  enabled _ _ := True
  step := RtmpPublisher.step

instance [DecidableEq α] (self : SessionRef) (w : RtmpPublisher α) (a : PublisherEvent α) :
    Decidable ((rtmpPublisher α self).enabled w a) := inferInstanceAs (Decidable True)

/-! ## What every run keeps -/

section Items

variable [DecidableEq α]

theorem nodup_addItem {items : List α} (h : items.Nodup) (sub : α) : (addItem items sub).Nodup := by
  unfold addItem
  split
  · exact h
  · rename_i hnot
    rw [← List.concat_eq_append, List.nodup_concat]
    exact ⟨hnot, h⟩

theorem nodup_removeItem {items : List α} (h : items.Nodup) (sub : α) :
    (removeItem items sub).Nodup := h.erase sub

end Items

namespace RtmpPublisher

/-- The end call that goes with a completion. -/
def callOf : Completion → SubscriberCall
  | .done => .onDone
  | .canceled => .onCancel
  | .failed st => .onFail st

/-- The base list is told, once, by the call that completes the publisher. -/
theorem complete_spec {w : RtmpPublisher α} (h : w.impl.isComplete = false) (how : Completion) :
    w.complete how = { w with
      impl := w.impl.complete how
      told := w.told ++ w.subscribers.map fun sub => ⟨sub, w.self, callOf how⟩ } := by
  cases how with
  | done | canceled => simp [complete, h, onDone, onCancel, forEachSubscriber, callOf]
  | failed st =>
      have hstatus : (w.impl.complete (.failed st)).status = st := by
        simp [SessionImpl.complete, h]
      simp [complete, h, onFail, forEachSubscriber, callOf, hstatus]

theorem complete_of_isComplete {w : RtmpPublisher α} (h : w.impl.isComplete = true)
    (how : Completion) : w.complete how = w := if_pos h

variable [DecidableEq α]

/-- No subscriber is in the base list twice, and none was told before the publisher is
    complete. -/
structure Untold (w : RtmpPublisher α) : Prop where
  nodup : w.subscribers.Nodup
  told : w.impl.isComplete = false → w.told = []

theorem Untold.step {w t : RtmpPublisher α} {a : PublisherEvent α} (h : Untold w)
    (hrun : w.step a = .ok t) : Untold t := by
  cases a with
  | addSubscriber sub =>
      cases hrun
      exact ⟨nodup_addItem h.nodup sub, h.told⟩
  | removeSubscriber sub =>
      cases hrun
      exact ⟨nodup_removeItem h.nodup sub, h.told⟩
  | addRtmpSubscriber sub | removeRtmpSubscriber sub =>
      cases hrun
      exact ⟨h.nodup, h.told⟩
  | complete how =>
      cases hrun
      cases hcomplete : w.impl.isComplete with
      | true => rwa [complete_of_isComplete hcomplete]
      | false =>
          rw [complete_spec hcomplete]
          refine ⟨h.nodup, fun hnot => ?_⟩
          cases (w.impl.isComplete_complete how).symm.trans hnot
  | onTimeout =>
      cases hrun
      refine ⟨h.nodup, fun hnot => ?_⟩
      cases w.impl.isComplete_onTimeout.symm.trans hnot
  | onBegin =>
      cases hrun
      exact ⟨h.nodup, fun _ => rfl⟩
  | onTerminate =>
      cases hrun
      exact ⟨List.nodup_nil, h.told⟩

theorem untold {self : SessionRef} {w : RtmpPublisher α}
    (hw : (rtmpPublisher α self).Reachable w) : Untold w :=
  hw.invariant ⟨List.nodup_nil, fun _ => rfl⟩ fun _ _ _ h _ hrun => h.step hrun

/-- Until the next `on_begin` a complete publisher tells nobody anything. -/
theorem told_of_steps {self : SessionRef} {w t : RtmpPublisher α}
    (ht : ((rtmpPublisher α self).restrict fun _ a => a ≠ .onBegin).Steps w t)
    (hw : w.impl.isComplete = true) : t.told = w.told := by
  have hinv : t.impl.isComplete = true ∧ t.told = w.told := by
    refine ht.invariant (P := fun t => t.impl.isComplete = true ∧ t.told = w.told) ⟨hw, rfl⟩ ?_
    rintro s a t ⟨hs, htold⟩ ⟨-, hbegin⟩ hrun
    cases a with
    | addSubscriber | removeSubscriber | addRtmpSubscriber | removeRtmpSubscriber | onTerminate =>
        cases hrun
        exact ⟨hs, htold⟩
    | complete how =>
        cases hrun
        rw [complete_of_isComplete hs]
        exact ⟨hs, htold⟩
    | onTimeout =>
        cases hrun
        exact ⟨s.impl.isComplete_onTimeout, htold⟩
    | onBegin => exact absurd rfl hbegin
  exact hinv.2

/-- The calls made to one subscriber, of those made to a list. -/
theorem filter_told {items : List α} (h : items.Nodup) (pub : SessionRef) (call : SubscriberCall)
    (x : α) :
    (items.map fun sub => (⟨sub, pub, call⟩ : Told α)).filter (fun c => c.sub = x)
      = if x ∈ items then [⟨x, pub, call⟩] else [] := by
  have hitems : items.filter (fun sub => sub = x) = if x ∈ items then [x] else [] := by
    rw [List.filter_eq, h.count]
    split <;> rfl
  rw [List.filter_map]
  change (items.filter fun sub => sub = x).map _ = _
  rw [hitems]
  split <;> rfl

end RtmpPublisher

/-- When a publisher completes through `_end`, `_cancel` or `_fail`, each subscriber of either
    list is told so once, and nothing else until the next `on_begin`, if and only if every
    subscriber of the RTMP list is in the list of the base class too. -/
theorem publisher_tells_iff [DecidableEq α] {self : SessionRef} {w : RtmpPublisher α}
    (hw : (rtmpPublisher α self).Reachable w) (hincomplete : w.impl.isComplete = false)
    (how : Completion) :
    (∀ t, ((rtmpPublisher α self).restrict fun _ a => a ≠ .onBegin).Steps (w.complete how) t →
      ∀ x, x ∈ w.subscribers ∨ x ∈ w.rtmpSubscribers →
        t.told.filter (fun c => c.sub = x) = [⟨x, w.self, RtmpPublisher.callOf how⟩])
      ↔ ∀ x ∈ w.rtmpSubscribers, x ∈ w.subscribers := by
  have huntold := RtmpPublisher.untold hw
  have hspec := RtmpPublisher.complete_spec hincomplete how
  have htold : ∀ x, (w.complete how).told.filter (fun c => c.sub = x)
      = if x ∈ w.subscribers then [⟨x, w.self, RtmpPublisher.callOf how⟩] else [] := by
    intro x
    rw [hspec, huntold.told hincomplete]
    exact RtmpPublisher.filter_told huntold.nodup w.self _ x
  constructor
  · intro hall x hx
    by_contra hnot
    have hx' := hall _ .refl x (.inr hx)
    rw [htold, if_neg hnot] at hx'
    cases hx'
  · intro hsub t ht x hx
    have hcomplete : (w.complete how).impl.isComplete = true := by
      rw [hspec]
      exact w.impl.isComplete_complete how
    rw [RtmpPublisher.told_of_steps ht hcomplete, htold, if_pos (hx.elim id (hsub x))]

/-- The publisher of the stream `live/a`. -/
def livePublisher : SessionRef := ⟨0, ⟨"live".toList, "a".toList⟩, .user, .flv, .rtmp⟩

/-- A player that subscribed through the base class is told that its publisher is canceled. -/
theorem publisher_tells_flv :
    ∃ w, (rtmpPublisher Nat livePublisher).Reachable w ∧ 0 ∈ w.subscribers ∧
      ∀ t, ((rtmpPublisher Nat livePublisher).restrict fun _ a => a ≠ .onBegin).Steps
          (w.complete .canceled) t →
        t.told.filter (fun c => c.sub = 0) = [⟨0, w.self, .onCancel⟩] := by
  obtain ⟨w, hw, hstate⟩ := Machine.reachable_of_runs (M := rtmpPublisher Nat livePublisher)
    (p := fun w => !w.impl.isComplete && decide (w.subscribers = [0])
      && decide (w.rtmpSubscribers = []))
    [.onBegin, .addSubscriber 0] (by decide +kernel)
  simp only [Bool.and_eq_true, Bool.not_eq_true', decide_eq_true_eq] at hstate
  obtain ⟨⟨hincomplete, hsub⟩, hrtmp⟩ := hstate
  have hmem : 0 ∈ w.subscribers := hsub ▸ List.mem_cons_self
  have htells := (publisher_tells_iff hw hincomplete .canceled).mpr (by simp [hrtmp])
  exact ⟨w, hw, hmem, fun t ht => htells t ht 0 (.inl hmem)⟩

/-- A player that subscribed through `add_rtmp_subscriber` is not told that its publisher
    is done. -/
theorem publisher_tells_nobody :
    ¬ ∀ (w : RtmpPublisher Nat), (rtmpPublisher Nat livePublisher).Reachable w →
      w.impl.isComplete = false → ∀ how x, x ∈ w.subscribers ∨ x ∈ w.rtmpSubscribers →
        (w.complete how).told.filter (fun c => c.sub = x)
          = [⟨x, w.self, RtmpPublisher.callOf how⟩] := by
  intro hall
  obtain ⟨w, hw, hstate⟩ := Machine.reachable_of_runs (M := rtmpPublisher Nat livePublisher)
    (p := fun w => !w.impl.isComplete && decide (w.rtmpSubscribers = [0])
      && decide ((w.complete .done).told = []))
    [.onBegin, .addRtmpSubscriber 0] (by decide +kernel)
  simp only [Bool.and_eq_true, Bool.not_eq_true', decide_eq_true_eq] at hstate
  obtain ⟨⟨hincomplete, hrtmp⟩, htold⟩ := hstate
  have hcall := hall w hw hincomplete .done 0 (.inr (hrtmp ▸ List.mem_cons_self))
  rw [htold] at hcall
  cases hcall

end SeastarLive
