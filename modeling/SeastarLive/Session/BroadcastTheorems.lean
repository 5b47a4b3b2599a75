/-
SeastarLive.Session.BroadcastTheorems — what a publisher hands to its subscribers.

`Publisher.Inv`: the cache is a window of the frames accepted, and what was
delivered to each subscriber is the cache of the first delivery followed by
the frames accepted since, up to the frame of the round in progress
(`Publisher.Stitched`). Each step of the publisher has one lemma.
-/
import SeastarLive.Frame.GopQueueTheorems
import SeastarLive.Session.Broadcast

namespace SeastarLive

open Flv HeaderStream Function

/-! ## Phases -/

namespace Phase

/-- The frame being published. -/
def frame : Phase → Option Frame
  | idle => none
  | accepted f => some f
  | delivering f _ => some f
  | submitted f _ _ _ => some f
  | handling f _ _ _ => some f
  | returned f _ _ => some f
  | ended _ => none

/-- The subscribers of the round in progress that are not done with it. -/
def round : Phase → List Nat
  | delivering _ items => items
  | submitted _ i _ items => i :: items
  | handling _ i _ items => i :: items
  | returned _ i items => i :: items
  | _ => []

/-- The frames accepted and not delivered to `i` so far in this round. -/
def owed (i : Nat) : Phase → List Frame
  | accepted f => [f]
  | delivering f items => if i ∈ items then [f] else []
  | submitted f j _ items => if i = j ∨ i ∈ items then [f] else []
  | handling f _ _ items => if i ∈ items then [f] else []
  | returned f _ items => if i ∈ items then [f] else []
  | ended dropped => dropped
  | idle => []

/-- Whether the delivery to `i` has started and is not completed. -/
def serving (i : Nat) : Phase → Prop
  | handling _ j _ _ => i = j
  | returned _ j _ => i = j
  | _ => False

/-- The frames `on_frames` of `i` has still to hand over. -/
def left (i : Nat) : Phase → List Frame
  | handling _ j frames _ => if i = j then frames else []
  | _ => []

end Phase

namespace Publisher

/-! ## The invariant of the publisher -/

/-- What was delivered to a subscriber: the cache of the first delivery, then the frames
    accepted since, one batch each, except the frames in `rest`. -/
structure Stitched (w : Publisher) (i : Nat) (join : Join) (live rest : List Frame) :
    Prop where
  joined : w.joined i = some join
  cache : join.cache.Inv join.accepted
  last : join.accepted.getLast? = some join.frame
  delivered : w.delivered i = join.cache.allFrames :: live.map fun f => [f]
  accepted : w.accepted = join.accepted ++ live ++ rest

/-- The state of a subscriber, registered or not. -/
structure Feed (w : Publisher) (i : Nat) : Prop where
  fresh : i ∉ w.added → w.delivered i = [] ∧ w.receiving i = false
  served : w.delivered i ≠ [] ↔ w.receiving i = true ∨ w.phase.serving i
  stitched : w.delivered i ≠ [] → ∃ join live rest, w.Stitched i join live rest
    ∧ (i ∈ w.subscribers ∨ i ∈ w.phase.round → rest = w.phase.owed i)

/-- The batch of a submitted delivery: the frame alone, or the cache as it stands. -/
def Submitted (w : Publisher) : Phase → Prop
  | .submitted f i frames _ =>
      (w.receiving i = true ∧ frames = [f])
        ∨ (w.delivered i = [] ∧ ∃ cache : GopQueue, w.joined i = some ⟨cache, w.accepted, f⟩
            ∧ cache.Inv w.accepted ∧ frames = cache.allFrames)
  | _ => True

/-- The invariant of a publisher. -/
structure Inv (w : Publisher) : Prop where
  cache : w.cache.Inv w.accepted
  scriptless : ∀ f ∈ w.accepted, f.isScript = false
  stamped : ∀ x ∈ stamp Frame.isMetadata none w.accepted, x.1.isSome
  subscribers_nodup : w.subscribers.Nodup
  round_nodup : w.phase.round.Nodup
  subscribers_added : ∀ i ∈ w.subscribers, i ∈ w.added
  round_added : ∀ i ∈ w.phase.round, i ∈ w.added
  last : ∀ f ∈ w.phase.frame, w.accepted.getLast? = some f
  submitted : w.Submitted w.phase
  feed : ∀ i, w.Feed i

theorem Inv.init : Inv {} where
  cache := GopQueue.Inv.empty _
  scriptless := fun f hf => by cases hf
  stamped := fun x hx => by cases hx
  subscribers_nodup := List.nodup_nil
  round_nodup := List.nodup_nil
  subscribers_added := fun i hi => by cases hi
  round_added := fun i hi => by cases hi
  last := fun f hf => by cases hf
  submitted := trivial
  feed := fun i => ⟨fun _ => ⟨rfl, rfl⟩, by simp [Phase.serving], fun h => absurd rfl h⟩

/-! ## Taking a frame -/

/-- `validate_frame` reads the media of a script frame. -/
theorem recv_script {w : Publisher} {f : Frame} (hf : f.isScript = true) :
    w.recv f = .error .nullMedia := by
  cases f with
  | script s => rfl
  | media m => cases hf
  | metadata m => cases hf

/-- What a publisher does with a frame that is no script: it refuses it, or accepts it. -/
theorem recv_cases {w : Publisher} (hw : w.Inv) {f : Frame} (hf : f.isScript = false) :
    (w.cache.accepts f = false ∧ w.recv f = .ok w)
      ∨ ∃ cache impl, w.cache.accepts f = true ∧ cache.Inv (w.accepted ++ [f])
          ∧ w.recv f
              = .ok { w with
                  impl, cache, phase := .accepted f, accepted := w.accepted ++ [f] } := by
  rcases hw.cache.addFrame hf with ⟨hacc, hrun⟩ | ⟨cache, hacc, hrun, hcache, -⟩
  · exact .inl ⟨hacc, by simp [recv, hrun]⟩
  · obtain ⟨impl, himpl, -⟩ := SessionImpl.onFrame_ok (s := w.impl) hf
    exact .inr ⟨cache, impl, hacc, hcache, by simp [recv, hrun, himpl]⟩

/-- A cache only accepts a body frame behind metadata. -/
theorem latest_isSome_of_accepts {q : GopQueue} {h : List Frame} (hq : q.Inv h) {f : Frame}
    (hacc : q.accepts f = true) (hf : f.isMetadata = false) :
    (latest Frame.isMetadata none h).isSome := by
  have hne : q.allFrames ≠ [] := by
    intro hnil
    rw [hq.allFrames_of_accepts hacc hnil] at hf
    cases hf
  rw [← hq.window.latest_eq]
  exact hq.window.headed.latest_isSome Frame.isMetadata hne none

theorem stamped_concat {h : List Frame} {f : Frame}
    (hstamped : ∀ x ∈ stamp Frame.isMetadata none h, x.1.isSome)
    (hf : f.isMetadata = false → (latest Frame.isMetadata none h).isSome) :
    ∀ x ∈ stamp Frame.isMetadata none (h ++ [f]), x.1.isSome := by
  intro x hx
  rw [stamp_append] at hx
  rcases List.mem_append.mp hx with hx | hx
  · exact hstamped x hx
  · cases hm : f.isMetadata with
    | true => simp [stamp, hm] at hx
    | false =>
        simp only [stamp, hm, Bool.false_eq_true, if_false, List.mem_singleton] at hx
        rw [hx]
        exact hf hm

/-- Accepting a frame makes it owed to every subscriber. -/
theorem Inv.accept {w : Publisher} (hw : w.Inv) (hphase : w.phase = .idle) {f : Frame}
    (hf : f.isScript = false) (hacc : w.cache.accepts f = true) {cache : GopQueue}
    (hcache : cache.Inv (w.accepted ++ [f])) (impl : SessionImpl) :
    Inv { w with impl, cache, phase := .accepted f, accepted := w.accepted ++ [f] } where
  cache := hcache
  scriptless := by
    intro x hx
    rcases List.mem_append.mp hx with hx | hx
    · exact hw.scriptless x hx
    · rw [List.mem_singleton.mp hx]
      exact hf
  stamped := stamped_concat hw.stamped (latest_isSome_of_accepts hw.cache hacc)
  subscribers_nodup := hw.subscribers_nodup
  round_nodup := List.nodup_nil
  subscribers_added := hw.subscribers_added
  round_added := fun i hi => by cases hi
  last := by
    intro x hx
    cases hx
    exact List.getLast?_concat
  submitted := trivial
  feed := by
    intro i
    have hfeed := hw.feed i
    refine ⟨hfeed.fresh, ?_, ?_⟩
    · have hserved := hfeed.served
      rw [hphase] at hserved
      exact hserved
    · intro hne
      obtain ⟨join, live, rest, hst, hrest⟩ := hfeed.stitched hne
      refine ⟨join, live, rest ++ [f], ⟨hst.joined, hst.cache, hst.last, hst.delivered, ?_⟩, ?_⟩
      · simp [hst.accepted]
      · rintro (hi | hi)
        · rw [hrest (.inl hi), hphase]
          rfl
        · cases hi

/-! ## Delivering it -/

/-- A change of phase that serves nobody keeps the invariant when each subscriber is owed
    the same. -/
theorem Inv.setPhase {w : Publisher} (hw : w.Inv) {phase : Phase} (impl : SessionImpl)
    (hround : phase.round.Nodup) (hadded : ∀ i ∈ phase.round, i ∈ w.added)
    (hframe : ∀ f ∈ phase.frame, w.accepted.getLast? = some f)
    (hsubmitted : w.Submitted phase)
    (hserving : ∀ i, phase.serving i ↔ w.phase.serving i)
    (howed : ∀ i, i ∈ w.subscribers ∨ i ∈ phase.round →
      (i ∈ w.subscribers ∨ i ∈ w.phase.round) ∧ phase.owed i = w.phase.owed i) :
    Inv { w with impl, phase } := by
  have hsub : Submitted { w with impl, phase } phase := by
    cases phase <;> exact hsubmitted
  refine ⟨hw.cache, hw.scriptless, hw.stamped, hw.subscribers_nodup, hround,
    hw.subscribers_added, hadded, hframe, hsub, ?_⟩
  intro i
  have hfeed := hw.feed i
  refine ⟨hfeed.fresh, ?_, ?_⟩
  · rw [hserving i]
    exact hfeed.served
  · intro hne
    obtain ⟨join, live, rest, hst, hrest⟩ := hfeed.stitched hne
    refine ⟨join, live, rest, ⟨hst.joined, hst.cache, hst.last, hst.delivered, hst.accepted⟩,
      ?_⟩
    intro hi
    obtain ⟨hi', heq⟩ := howed i hi
    rw [hrest hi']
    exact heq.symm

theorem Inv.publish {w : Publisher} (hw : w.Inv) {f : Frame} (hphase : w.phase = .accepted f)
    (g : GlobalSettings) : Inv (w.publish g f) := by
  have hlast := hw.last f (by rw [hphase]; rfl)
  unfold Publisher.publish
  split
  · refine hw.setPhase w.impl hw.subscribers_nodup hw.subscribers_added ?_ trivial ?_ ?_
    · intro x hx
      cases hx
      exact hlast
    · intro i
      rw [hphase]
      exact Iff.rfl
    · intro i hi
      have hi' : i ∈ w.subscribers := hi.elim id id
      exact ⟨.inl hi', by simp [Phase.owed, hphase, hi']⟩
  · refine hw.setPhase _ List.nodup_nil (fun i hi => by cases hi) (fun x hx => by cases hx)
      trivial ?_ ?_
    · intro i
      rw [hphase]
      exact Iff.rfl
    · intro i hi
      refine ⟨.inl (hi.resolve_right fun h => by cases h), ?_⟩
      rw [hphase]
      rfl

/-- The subscribers a round still goes to. -/
theorem Inv.round_of_phase {w : Publisher} (hw : w.Inv) {phase : Phase}
    (hphase : w.phase = phase) : phase.round.Nodup ∧ ∀ j ∈ phase.round, j ∈ w.added := by
  subst hphase
  exact ⟨hw.round_nodup, hw.round_added⟩

theorem Inv.finishRound {w : Publisher} (hw : w.Inv) {f : Frame}
    (hphase : w.phase = .delivering f []) : Inv { w with phase := .idle } := by
  refine hw.setPhase w.impl List.nodup_nil (fun i hi => by cases hi) (fun x hx => by cases hx)
    trivial ?_ ?_
  · intro i
    rw [hphase]
    exact Iff.rfl
  · intro i hi
    refine ⟨.inl (hi.resolve_right fun h => by cases h), ?_⟩
    simp [Phase.owed, hphase]

/-- Submitting a delivery: the batch is the cache for a subscriber that got none yet. -/
theorem Inv.submit {w : Publisher} (hw : w.Inv) {f : Frame} {i : Nat} {items : List Nat}
    (hphase : w.phase = .delivering f (i :: items)) : Inv (w.submit f i items) := by
  have hlast := hw.last f (by rw [hphase]; rfl)
  obtain ⟨hround, hadded⟩ : (i :: items).Nodup ∧ ∀ j ∈ i :: items, j ∈ w.added :=
    hw.round_of_phase hphase
  unfold Publisher.submit
  split
  · rename_i hreceiving
    refine hw.setPhase w.impl hround hadded ?_ (.inl ⟨hreceiving, rfl⟩) ?_ ?_
    · intro x hx
      cases hx
      exact hlast
    · intro j
      rw [hphase]
      exact Iff.rfl
    · intro j hj
      rw [hphase]
      refine ⟨hj, ?_⟩
      simp [Phase.owed]
  · rename_i hreceiving
    have hnone : w.delivered i = [] := by
      by_contra hne
      rcases (hw.feed i).served.mp hne with h | h
      · exact hreceiving h
      · rw [hphase] at h
        exact h
    refine ⟨hw.cache, hw.scriptless, hw.stamped, hw.subscribers_nodup, hround,
      hw.subscribers_added, hadded, ?_, ?_, ?_⟩
    · intro x hx
      cases hx
      exact hlast
    · exact .inr ⟨hnone, w.cache, by simp, hw.cache, rfl⟩
    · intro j
      have hfeed := hw.feed j
      refine ⟨hfeed.fresh, ?_, ?_⟩
      · have hserved := hfeed.served
        rw [hphase] at hserved
        exact hserved
      · intro hne
        have hji : j ≠ i := fun h => hne (h ▸ hnone)
        obtain ⟨join, live, rest, hst, hrest⟩ := hfeed.stitched hne
        refine ⟨join, live, rest,
          ⟨by simpa [hji] using hst.joined, hst.cache, hst.last, hst.delivered, hst.accepted⟩, ?_⟩
        intro hj
        rw [hrest (by rw [hphase]; exact hj), hphase]
        simp [Phase.owed]

/-- A delivery starts: the batch is handed to the subscriber. -/
theorem Inv.start {w : Publisher} (hw : w.Inv) {f : Frame} {i : Nat} {frames items : List _}
    (hphase : w.phase = .submitted f i frames items) (left : List Frame) :
    Inv (w.start f i frames left items) := by
  have hlast := hw.last f (by rw [hphase]; rfl)
  obtain ⟨hround, hadded⟩ : (i :: items).Nodup ∧ ∀ j ∈ i :: items, j ∈ w.added :=
    hw.round_of_phase hphase
  have hsubmitted := hw.submitted
  rw [hphase] at hsubmitted
  have hi : i ∉ items := (List.nodup_cons.mp hround).1
  refine ⟨hw.cache, hw.scriptless, hw.stamped, hw.subscribers_nodup, hround,
    hw.subscribers_added, hadded, ?_, trivial, ?_⟩
  · intro x hx
    cases hx
    exact hlast
  · intro j
    have hfeed := hw.feed j
    by_cases hji : j = i
    · subst hji
      refine ⟨fun h => absurd (hadded j (by simp)) h, by simp [Publisher.start, Phase.serving],
        ?_⟩
      intro _
      rcases hsubmitted with ⟨hreceiving, rfl⟩ | ⟨hnone, cache, hjoined, hcache, rfl⟩
      · obtain ⟨join, live, rest, hst, hrest⟩ := hfeed.stitched (hfeed.served.mpr (.inl hreceiving))
        have hrest' : rest = [f] := by
          rw [hrest (.inr (by rw [hphase]; simp [Phase.round])), hphase]
          simp [Phase.owed]
        refine ⟨join, live ++ [f], [], ⟨hst.joined, hst.cache, hst.last, ?_, ?_⟩, ?_⟩
        · simp [Publisher.start, hst.delivered]
        · simp [Publisher.start, hst.accepted, hrest']
        · intro _
          simp [Publisher.start, Phase.owed, hi]
      · refine ⟨⟨cache, w.accepted, f⟩, [], [], ⟨hjoined, hcache, hlast, ?_, ?_⟩, ?_⟩
        · simp [Publisher.start, hnone]
        · simp [Publisher.start]
        · intro _
          simp [Publisher.start, Phase.owed, hi]
    · have hdelivered : (w.start f i frames left items).delivered j = w.delivered j := by
        simp [Publisher.start, hji]
      refine ⟨?_, ?_, ?_⟩
      · rw [hdelivered]
        exact hfeed.fresh
      · rw [hdelivered, hfeed.served, hphase]
        simp [Publisher.start, Phase.serving, hji]
      · rw [hdelivered]
        intro hne
        obtain ⟨join, live, rest, hst, hrest⟩ := hfeed.stitched hne
        refine ⟨join, live, rest,
          ⟨hst.joined, hst.cache, hst.last, by rw [hdelivered, hst.delivered], hst.accepted⟩, ?_⟩
        intro hj
        rw [hrest (by rw [hphase]; exact hj), hphase]
        simp [Publisher.start, Phase.owed, hji]

/-- While `on_frames` of a subscriber runs, the publisher waits. -/
theorem Inv.handle {w : Publisher} (hw : w.Inv) {f : Frame} {i : Nat} {left items : List _}
    (hphase : w.phase = .handling f i left items) {phase : Phase}
    (hnext : phase = .returned f i items ∨ ∃ left', phase = .handling f i left' items) :
    Inv { w with phase } := by
  have hframe := hw.last
  rw [hphase] at hframe
  obtain ⟨hround, hadded⟩ := hw.round_of_phase hphase
  rcases hnext with rfl | ⟨left', rfl⟩
  · refine hw.setPhase w.impl hround hadded hframe trivial ?_ ?_
    · intro j
      rw [hphase]
      exact Iff.rfl
    · intro j hj
      rw [hphase]
      exact ⟨hj, rfl⟩
  · refine hw.setPhase w.impl hround hadded hframe trivial ?_ ?_
    · intro j
      rw [hphase]
      exact Iff.rfl
    · intro j hj
      rw [hphase]
      exact ⟨hj, rfl⟩

/-- A delivery ends: the subscriber is receiving. -/
theorem Inv.markReceiving {w : Publisher} (hw : w.Inv) {f : Frame} {i : Nat}
    {items : List Nat} (hphase : w.phase = .returned f i items) :
    Inv (w.markReceiving f i items) := by
  have hlast := hw.last f (by rw [hphase]; rfl)
  obtain ⟨hround, hadded⟩ : (i :: items).Nodup ∧ ∀ j ∈ i :: items, j ∈ w.added :=
    hw.round_of_phase hphase
  refine ⟨hw.cache, hw.scriptless, hw.stamped, hw.subscribers_nodup,
    (List.nodup_cons.mp hround).2, hw.subscribers_added,
    fun j hj => hadded j (List.mem_cons_of_mem i hj), ?_, trivial, ?_⟩
  · intro x hx
    cases hx
    exact hlast
  · intro j
    have hfeed := hw.feed j
    have hserved := hfeed.served
    rw [hphase] at hserved
    refine ⟨?_, ?_, ?_⟩
    · intro hfresh
      have hji : j ≠ i := fun h => hfresh (h ▸ hadded i (by simp))
      simpa [Publisher.markReceiving, hji] using hfeed.fresh hfresh
    · show w.delivered j ≠ [] ↔ _
      rw [hserved]
      by_cases hji : j = i
      · simp [Publisher.markReceiving, Phase.serving, hji]
      · simp [Publisher.markReceiving, Phase.serving, hji]
    · intro hne
      obtain ⟨join, live, rest, hst, hrest⟩ := hfeed.stitched hne
      refine ⟨join, live, rest,
        ⟨hst.joined, hst.cache, hst.last, hst.delivered, hst.accepted⟩, ?_⟩
      intro hj
      have hj' : j ∈ w.subscribers ∨ j ∈ w.phase.round := by
        rw [hphase]
        exact hj.imp_right (List.mem_cons_of_mem i)
      rw [hrest hj', hphase]
      simp [Publisher.markReceiving, Phase.owed]

/-! ## The subscriber list -/

/-- A change that only shortens the subscriber list keeps the invariant. -/
theorem Inv.shrink {w : Publisher} (hw : w.Inv) {subscribers : List Nat}
    (hsub : subscribers.Sublist w.subscribers) : Inv { w with subscribers } := by
  have hphase : ∀ phase, w.Submitted phase → Submitted { w with subscribers } phase := by
    intro phase h
    cases phase <;> exact h
  refine ⟨hw.cache, hw.scriptless, hw.stamped, hw.subscribers_nodup.sublist hsub,
    hw.round_nodup, fun i hi => hw.subscribers_added i (hsub.subset hi), hw.round_added,
    hw.last, hphase _ hw.submitted, ?_⟩
  intro i
  have hfeed := hw.feed i
  refine ⟨hfeed.fresh, hfeed.served, ?_⟩
  intro hne
  obtain ⟨join, live, rest, hst, hrest⟩ := hfeed.stitched hne
  exact ⟨join, live, rest,
    ⟨hst.joined, hst.cache, hst.last, hst.delivered, hst.accepted⟩,
    fun hi => hrest (hi.imp_left (hsub.subset ·))⟩

/-- A subscriber that was never registered starts unserved. -/
theorem Inv.addRtmpSubscriber {w : Publisher} (hw : w.Inv) {i : Nat} (hi : i ∉ w.added) :
    Inv (w.addRtmpSubscriber i) := by
  have hsub : i ∉ w.subscribers := fun h => hi (hw.subscribers_added i h)
  have hround : i ∉ w.phase.round := fun h => hi (hw.round_added i h)
  have hreceiving : ∀ j, update w.receiving i false j = w.receiving j := by
    intro j
    by_cases hji : j = i
    · subst hji
      simpa using ((hw.feed j).fresh hi).2.symm
    · simp [hji]
  have heq : w.addRtmpSubscriber i
      = { w with subscribers := w.subscribers ++ [i], added := w.added ++ [i] } := by
    simp only [Publisher.addRtmpSubscriber, hsub, if_false]
    rw [show update w.receiving i false = w.receiving from funext hreceiving]
  rw [heq]
  have hphase : ∀ phase, w.Submitted phase →
      Submitted { w with subscribers := w.subscribers ++ [i], added := w.added ++ [i] }
        phase := by
    intro phase h
    cases phase <;> exact h
  refine ⟨hw.cache, hw.scriptless, hw.stamped, ?_, hw.round_nodup, ?_, ?_, hw.last,
    hphase _ hw.submitted, ?_⟩
  · refine List.nodup_append.mpr ⟨hw.subscribers_nodup, List.pairwise_singleton _ i, ?_⟩
    intro j hj k hk hjk
    rw [hjk, List.mem_singleton.mp hk] at hj
    exact hsub hj
  · intro j hj
    rcases List.mem_append.mp hj with hj | hj
    · exact List.mem_append_left _ (hw.subscribers_added j hj)
    · exact List.mem_append_right _ hj
  · exact fun j hj => List.mem_append_left _ (hw.round_added j hj)
  · intro j
    have hfeed := hw.feed j
    refine ⟨fun h => hfeed.fresh fun hj => h (List.mem_append_left _ hj), hfeed.served, ?_⟩
    intro hne
    have hji : j ≠ i := fun h => hne (h ▸ (hw.feed i).fresh hi).1
    obtain ⟨join, live, rest, hst, hrest⟩ := hfeed.stitched hne
    refine ⟨join, live, rest,
      ⟨hst.joined, hst.cache, hst.last, hst.delivered, hst.accepted⟩, ?_⟩
    intro hj
    refine hrest (hj.imp_left fun h => ?_)
    simpa [hji] using h

/-- Settings and completion do not touch what was delivered. -/
theorem Inv.setCache {w : Publisher} (hw : w.Inv) {cache : GopQueue}
    (hcache : cache.Inv w.accepted) (impl : SessionImpl) : Inv { w with impl, cache } := by
  have hphase : ∀ phase, w.Submitted phase → Submitted { w with impl, cache } phase := by
    intro phase h
    cases phase <;> exact h
  refine ⟨hcache, hw.scriptless, hw.stamped, hw.subscribers_nodup, hw.round_nodup,
    hw.subscribers_added, hw.round_added, hw.last, hphase _ hw.submitted, ?_⟩
  intro i
  have hfeed := hw.feed i
  refine ⟨hfeed.fresh, hfeed.served, ?_⟩
  intro hne
  obtain ⟨join, live, rest, hst, hrest⟩ := hfeed.stitched hne
  exact ⟨join, live, rest,
    ⟨hst.joined, hst.cache, hst.last, hst.delivered, hst.accepted⟩, hrest⟩

theorem Inv.endLoop {w : Publisher} (hw : w.Inv) (hphase : w.phase = .idle)
    (impl : SessionImpl) : Inv { w with impl, phase := .ended [] } := by
  refine hw.setPhase impl List.nodup_nil (fun i hi => by cases hi) (fun x hx => by cases hx)
    trivial ?_ ?_
  · intro i
    rw [hphase]
    exact Iff.rfl
  · intro i hi
    refine ⟨.inl (hi.resolve_right fun h => by cases h), ?_⟩
    rw [hphase]
    rfl

/-! ## What was delivered -/

/-- A cache holds no script frame. -/
theorem scriptless_of_window {all h : List Frame} (hw : Window Frame.isMetadata all h)
    (hh : ∀ f ∈ h, f.isScript = false) : ∀ f ∈ all, f.isScript = false := by
  intro f hf
  cases f with
  | media m => rfl
  | metadata m => rfl
  | script s =>
      have hbody : Frame.script s ∈ all.filter fun f => !f.isMetadata :=
        List.mem_filter.mpr ⟨hf, rfl⟩
      exact hh _ (List.mem_filter.mp (hw.body_suffix.subset hbody)).1

theorem Stitched.flatten_eq {w : Publisher} {i : Nat} {join : Join} {live rest : List Frame}
    (hst : w.Stitched i join live rest) :
    (w.delivered i).flatten = join.cache.allFrames ++ live := by
  rw [hst.delivered, List.flatten_cons, ← List.flatMap_def, List.flatMap_singleton']

/-- No script frame is delivered. -/
theorem Inv.delivered_scriptless {w : Publisher} (hw : w.Inv) (i : Nat) :
    ∀ f ∈ (w.delivered i).flatten, f.isScript = false := by
  intro f hf
  by_cases hne : w.delivered i = []
  · rw [hne] at hf
    cases hf
  · obtain ⟨join, live, rest, hst, -⟩ := (hw.feed i).stitched hne
    have hall : ∀ x ∈ join.accepted ++ live, x.isScript = false := by
      intro x hx
      refine hw.scriptless x ?_
      rw [hst.accepted]
      exact List.mem_append_left _ hx
    rw [hst.flatten_eq] at hf
    rcases List.mem_append.mp hf with hf | hf
    · exact scriptless_of_window hst.cache.window
        (fun x hx => hall x (List.mem_append_left _ hx)) f hf
    · exact hall f (List.mem_append_right _ hf)

/-- A body frame delivered was accepted, under the metadata it is delivered under. -/
theorem Inv.delivered_stamp {w : Publisher} (hw : w.Inv) (i : Nat)
    {x : Option Frame × Frame} (hx : x ∈ stamp Frame.isMetadata none (w.delivered i).flatten) :
    x ∈ stamp Frame.isMetadata none w.accepted := by
  by_cases hne : w.delivered i = []
  · rw [hne] at hx
    cases hx
  · obtain ⟨join, live, rest, hst, -⟩ := (hw.feed i).stitched hne
    rw [hst.flatten_eq] at hx
    rw [hst.accepted]
    exact stamp_mem_mono (List.prefix_append _ _)
      (hst.cache.window.stamp_append_mem live hx)

end Publisher

end SeastarLive
