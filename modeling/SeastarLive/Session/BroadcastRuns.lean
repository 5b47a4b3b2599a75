/-
SeastarLive.Session.BroadcastRuns — runs of a publisher and its players.

`Broadcast.Inv` adds the players to the invariant of the publisher: each of
them received a beginning of what was delivered to it, and all of it while it
is not complete. `step_spec` says how a step can end: in a state of the
invariant, or in one of the faults of `StepFault`.

* `broadcast_stitches`: a subscriber is handed the cache and then every frame
  accepted since, once and in order.
* `broadcast_metadata_precedes`: no player writes media before metadata.
* `broadcast_writes_enabled`: along the runs whose steps meet
  `TakesEnabledMedia`, no player writes media its metadata disables.
  `broadcast_writes_disabled` is a run where one does: the cache accepts media
  by `_latest_metadata_frame`, which is not the newest metadata frame there.
-/
import SeastarLive.Frame.GopHistory
import SeastarLive.Session.BroadcastTheorems
import SeastarLive.Session.PlaySessionTheorems

namespace SeastarLive

open Flv HeaderStream Function

namespace Broadcast

/-! ## The invariant -/

/-- The invariant of a publisher and its players. -/
structure Inv (w : Broadcast) : Prop where
  pub : w.pub.Inv
  player : ∀ i, (w.players i).Inv
  detached : ∀ i, (w.players i).loop = .detached → i ∉ w.pub.added
  received_prefix : ∀ i, (w.players i).received <+: (w.pub.delivered i).flatten
  received_all : ∀ i, (w.players i).impl.isComplete = false →
    (w.players i).received ++ w.pub.phase.left i = (w.pub.delivered i).flatten
  left_scriptless : ∀ i, ∀ f ∈ w.pub.phase.left i, f.isScript = false

/-- How a step can fail: on a script frame, on a duration that is not positive, on a
    publisher without metadata, or on a media frame that the metadata of a player's
    `pipe_state` does not allow. -/
inductive StepFault (w : Broadcast) : Event → Fault → Prop
  | script {f : Frame} : f.isScript = true → StepFault w (.recv f) .nullMedia
  | settings (d : Rat) : StepFault w (.updateSettings d) (.assertion .setMinCacheDuration)
  | noMeta (i : Nat) : StepFault w (.begin i) .nullMeta
  | write {i : Nat} {media : Media} {e : Fault} : (w.players i).kind ≠ .hls →
      ((w.players i).header, .media media) ∈ stamp Frame.isMetadata none (w.players i).wanted →
      Player.WriteFault (w.players i).pipe media e → StepFault w (.player i) e

theorem Inv.init (g : GlobalSettings) (roles : Nat → PlayerKind × MediaType) :
    Inv (broadcast g roles).init where
  pub := Publisher.Inv.init
  player := fun i => Player.Inv.init _ _
  detached := fun i _ h => by cases h
  received_prefix := fun i => List.prefix_refl _
  received_all := fun i _ => rfl
  left_scriptless := fun i f hf => by cases hf

/-! ## Steps -/

/-- A step of the publisher that hands over nothing. -/
theorem Inv.setPub {w : Broadcast} (hw : w.Inv) {pub : Publisher} (hpub : pub.Inv)
    (hadded : pub.added = w.pub.added) (hdelivered : pub.delivered = w.pub.delivered)
    (hleft : ∀ i, pub.phase.left i = w.pub.phase.left i) : Inv { w with pub } where
  pub := hpub
  player := hw.player
  detached := by
    intro i hloop
    rw [show ({ w with pub } : Broadcast).pub.added = w.pub.added from hadded]
    exact hw.detached i hloop
  received_prefix := by
    intro i
    rw [show ({ w with pub } : Broadcast).pub.delivered = w.pub.delivered from hdelivered]
    exact hw.received_prefix i
  received_all := by
    intro i hc
    rw [show ({ w with pub } : Broadcast).pub.delivered = w.pub.delivered from hdelivered,
      show ({ w with pub } : Broadcast).pub.phase.left i = w.pub.phase.left i from hleft i]
    exact hw.received_all i hc
  left_scriptless := by
    intro i f hf
    rw [show ({ w with pub } : Broadcast).pub.phase.left i = w.pub.phase.left i from hleft i]
      at hf
    exact hw.left_scriptless i f hf

/-- A step of a player that receives nothing. -/
theorem Inv.setPlayer {w : Broadcast} (hw : w.Inv) {i : Nat} {q : Player} (hq : q.Inv)
    (hreceived : q.received = (w.players i).received)
    (hdetached : q.loop = .detached → (w.players i).loop = .detached)
    (hcomplete : (w.players i).impl.isComplete = true → q.impl.isComplete = true) :
    Inv (w.setPlayer i q) where
  pub := hw.pub
  player := by
    intro j
    by_cases hji : j = i
    · subst hji
      simpa [Broadcast.setPlayer] using hq
    · simpa [Broadcast.setPlayer, hji] using hw.player j
  detached := by
    intro j hloop
    by_cases hji : j = i
    · subst hji
      simp only [Broadcast.setPlayer, update_self] at hloop
      exact hw.detached j (hdetached hloop)
    · simp only [Broadcast.setPlayer, update_of_ne hji] at hloop
      exact hw.detached j hloop
  received_prefix := by
    intro j
    by_cases hji : j = i
    · subst hji
      simpa [Broadcast.setPlayer, hreceived] using hw.received_prefix j
    · simpa [Broadcast.setPlayer, hji] using hw.received_prefix j
  received_all := by
    intro j hc
    by_cases hji : j = i
    · subst hji
      simp only [Broadcast.setPlayer, update_self] at hc
      have hopen : (w.players j).impl.isComplete = false := by
        refine Bool.eq_false_iff.mpr fun h => ?_
        rw [hcomplete h] at hc
        cases hc
      simpa [Broadcast.setPlayer, hreceived] using hw.received_all j hopen
    · simp only [Broadcast.setPlayer, update_of_ne hji] at hc
      simpa [Broadcast.setPlayer, hji] using hw.received_all j hc
  left_scriptless := hw.left_scriptless

/-- `on_frames` of a player starts: the whole batch is to be handed over, or nothing to a
    player that is complete. -/
theorem Inv.startDelivery {w : Broadcast} (hw : w.Inv) {f : Frame} {i : Nat}
    {frames items : List _} (hphase : w.pub.phase = .submitted f i frames items) :
    Inv { w with
      pub := w.pub.start f i frames (if (w.players i).ignoresFrames then [] else frames)
        items } := by
  generalize hleft : (if (w.players i).ignoresFrames then [] else frames) = left
  have hpub := hw.pub.start hphase left
  have hnone : ∀ j, w.pub.phase.left j = [] := by
    intro j
    rw [hphase]
    rfl
  refine ⟨hpub, hw.player, hw.detached, ?_, ?_, ?_⟩
  · intro j
    refine (hw.received_prefix j).trans ?_
    by_cases hji : j = i
    · subst hji
      simp [Publisher.start]
    · simp [Publisher.start, hji]
  · intro j hc
    have hall := hw.received_all j hc
    rw [hnone, List.append_nil] at hall
    by_cases hji : j = i
    · subst hji
      have hattached : (w.players j).pub = true := by
        cases hp : (w.players j).pub with
        | true => rfl
        | false =>
            have hcomplete := (hw.player j).ended ((hw.player j).pub hp)
            rw [show (w.players j).impl.isComplete = false from hc] at hcomplete
            cases hcomplete
      have hopen : (w.players j).impl.isComplete = false := hc
      have hignores : (w.players j).ignoresFrames = false := by
        unfold Player.ignoresFrames
        split <;> simp [hattached, hopen]
      rw [hignores] at hleft
      simp only [Bool.false_eq_true, if_false] at hleft
      simp [Publisher.start, Phase.left, hall, hleft]
    · have hij : ¬ i = j := fun h => hji h.symm
      have hleftj : (w.pub.start f i frames left items).phase.left j = [] := by
        simp [Publisher.start, Phase.left, hji]
      simp only [hleftj, List.append_nil]
      simpa [Publisher.start, hji] using hall
  · intro j x hx
    by_cases hji : j = i
    · subst hji
      have hmem : x ∈ frames := by
        subst hleft
        simp only [Publisher.start, Phase.left, if_true] at hx
        split at hx
        · cases hx
        · exact hx
      refine hpub.delivered_scriptless j x ?_
      simp [Publisher.start, hmem]
    · simp [Publisher.start, Phase.left, hji] at hx

/-- `on_frames` hands over a frame. -/
theorem Inv.handFrame {w : Broadcast} (hw : w.Inv) (g : GlobalSettings) {f x : Frame} {i : Nat}
    {left items : List _} (hphase : w.pub.phase = .handling f i (x :: left) items) :
    ∃ q, (w.players i).pushFrame g x = .ok q
      ∧ Inv { w.setPlayer i q with
          pub := { w.pub with phase := .handling f i left items } } := by
  have hadded : i ∈ w.pub.added := by
    refine hw.pub.round_added i ?_
    rw [hphase]
    simp [Phase.round]
  have hleft : w.pub.phase.left i = x :: left := by
    rw [hphase]
    simp [Phase.left]
  obtain ⟨q, hrun, hq, hkeeps⟩ := Player.pushFrame_spec (hw.player i)
    (fun h => hw.detached i h hadded) (hw.left_scriptless i x (by rw [hleft]; simp)) g
  refine ⟨q, hrun, hw.pub.handle hphase (.inr ⟨left, rfl⟩), ?_, ?_, ?_, ?_, ?_⟩
  · intro j
    by_cases hji : j = i
    · subst hji
      simpa [Broadcast.setPlayer] using hq
    · simpa [Broadcast.setPlayer, hji] using hw.player j
  · intro j hloop
    by_cases hji : j = i
    · subst hji
      simp only [Broadcast.setPlayer, update_self] at hloop
      exact hw.detached j (hkeeps.detached.mp hloop)
    · simp only [Broadcast.setPlayer, update_of_ne hji] at hloop
      exact hw.detached j hloop
  · intro j
    by_cases hji : j = i
    · subst hji
      simp only [Broadcast.setPlayer, update_self, hkeeps.received]
      cases hc : (w.players j).impl.isComplete with
      | true => simpa using hw.received_prefix j
      | false =>
          have hall := hw.received_all j hc
          rw [hleft] at hall
          exact ⟨left, by simpa using hall⟩
    · simpa [Broadcast.setPlayer, hji] using hw.received_prefix j
  · intro j hc
    by_cases hji : j = i
    · subst hji
      simp only [Broadcast.setPlayer, update_self] at hc
      have hopen : (w.players j).impl.isComplete = false := by
        refine Bool.eq_false_iff.mpr fun h => ?_
        rw [hkeeps.complete h] at hc
        cases hc
      have hall := hw.received_all j hopen
      rw [hleft] at hall
      simpa [Broadcast.setPlayer, hkeeps.received, hopen, Phase.left] using hall
    · simp only [Broadcast.setPlayer, update_of_ne hji] at hc
      have hall := hw.received_all j hc
      rw [hphase] at hall
      simpa [Broadcast.setPlayer, hji, Phase.left] using hall
  · intro j y hy
    by_cases hji : j = i
    · subst hji
      simp only [Phase.left, if_true] at hy
      exact hw.left_scriptless j y (by rw [hleft]; exact List.mem_cons_of_mem x hy)
    · simp [Phase.left, hji] at hy

/-- The publisher goes on without a fault. -/
theorem Inv.publisherStep {w : Broadcast} (hw : w.Inv) (g : GlobalSettings) :
    ∃ t, w.publisherStep g = .ok t ∧ t.Inv := by
  unfold Broadcast.publisherStep
  split
  · exact ⟨w, rfl, hw⟩
  · rename_i f hphase
    have hpub := hw.pub.publish hphase g
    refine ⟨_, rfl, hw.setPub hpub ?_ ?_ ?_⟩
    · unfold Publisher.publish
      split <;> rfl
    · unfold Publisher.publish
      split <;> rfl
    · intro i
      rw [hphase]
      unfold Publisher.publish
      split <;> rfl
  · rename_i f hphase
    refine ⟨_, rfl, hw.setPub (hw.pub.finishRound hphase) rfl rfl ?_⟩
    intro i
    rw [hphase]
    rfl
  · rename_i f i items hphase
    refine ⟨_, rfl, hw.setPub (hw.pub.submit hphase) ?_ ?_ ?_⟩
    · unfold Publisher.submit
      split <;> rfl
    · unfold Publisher.submit
      split <;> rfl
    · intro j
      rw [hphase]
      unfold Publisher.submit
      split <;> rfl
  · rename_i f i frames items hphase
    exact ⟨_, rfl, hw.startDelivery hphase⟩
  · rename_i f i x left items hphase
    obtain ⟨q, hrun, hq⟩ := hw.handFrame g hphase
    exact ⟨_, by rw [hrun]; rfl, hq⟩
  · rename_i f i items hphase
    obtain ⟨hnotify, hkeeps⟩ := (hw.player i).notify
    have hstep := hw.setPlayer hnotify (by simpa using hkeeps.received) hkeeps.detached.mp
      hkeeps.complete
    refine ⟨_, rfl, hstep.setPub (hw.pub.handle hphase (.inl rfl)) rfl rfl ?_⟩
    intro j
    simp only [Broadcast.setPlayer, hphase, Phase.left]
    split <;> rfl
  · rename_i f i items hphase
    refine ⟨_, rfl, hw.setPub (hw.pub.markReceiving hphase) rfl rfl ?_⟩
    intro j
    rw [hphase]
    rfl
  · exact ⟨w, rfl, hw⟩

/-- A player that starts is added to the subscribers. -/
theorem Inv.begin {w : Broadcast} (hw : w.Inv) {i : Nat}
    (hloop : (w.players i).loop = .detached) {q : Player} (hq : q.Inv)
    (hreceived : q.received = []) (hstarted : q.loop ≠ .detached) :
    Inv { w.setPlayer i q with pub := w.pub.addRtmpSubscriber i } := by
  have hfresh := hw.detached i hloop
  have hnone := ((hw.pub.feed i).fresh hfresh).1
  have hround : i ∉ w.pub.phase.round := fun h => hfresh (hw.pub.round_added i h)
  have hadded : (w.pub.addRtmpSubscriber i).added = w.pub.added ++ [i] := by
    unfold Publisher.addRtmpSubscriber
    split <;> rfl
  have hdelivered : (w.pub.addRtmpSubscriber i).delivered = w.pub.delivered := by
    unfold Publisher.addRtmpSubscriber
    split <;> rfl
  have hphase : (w.pub.addRtmpSubscriber i).phase = w.pub.phase := by
    unfold Publisher.addRtmpSubscriber
    split <;> rfl
  have hleft : w.pub.phase.left i = [] := by
    cases hp : w.pub.phase with
    | handling f j left items =>
        have hij : j ≠ i := by
          intro h
          refine hround ?_
          rw [hp, ← h]
          simp [Phase.round]
        simp [Phase.left, hij.symm]
    | _ => rfl
  refine ⟨hw.pub.addRtmpSubscriber hfresh, ?_, ?_, ?_, ?_, ?_⟩
  · intro j
    by_cases hji : j = i
    · subst hji
      simpa [Broadcast.setPlayer] using hq
    · simpa [Broadcast.setPlayer, hji] using hw.player j
  · intro j hdetached
    by_cases hji : j = i
    · subst hji
      simp only [Broadcast.setPlayer, update_self] at hdetached
      exact absurd hdetached hstarted
    · simp only [Broadcast.setPlayer, update_of_ne hji] at hdetached
      simpa [hadded, hji] using hw.detached j hdetached
  · intro j
    rw [show ({ w.setPlayer i q with pub := w.pub.addRtmpSubscriber i } : Broadcast).pub.delivered
      = w.pub.delivered from hdelivered]
    by_cases hji : j = i
    · subst hji
      simp [Broadcast.setPlayer, hreceived]
    · simpa [Broadcast.setPlayer, hji] using hw.received_prefix j
  · intro j hc
    simp only [hdelivered, hphase]
    by_cases hji : j = i
    · subst hji
      simp [Broadcast.setPlayer, hreceived, hnone, hleft]
    · simp only [Broadcast.setPlayer, update_of_ne hji] at hc
      simpa [Broadcast.setPlayer, hji] using hw.received_all j hc
  · intro j f hf
    simp only [hphase] at hf
    exact hw.left_scriptless j f hf

/-- A player whose step receives nothing. -/
theorem Inv.keeps {w : Broadcast} (hw : w.Inv) {i : Nat} {q : Player} (hq : q.Inv)
    (hkeeps : Player.Keeps (w.players i) q []) : Inv (w.setPlayer i q) :=
  hw.setPlayer hq (by simpa using hkeeps.received) hkeeps.detached.mp hkeeps.complete

/-- What a player received is not a script frame. -/
theorem Inv.received_scriptless {w : Broadcast} (hw : w.Inv) (i : Nat) :
    ∀ f ∈ (w.players i).received, f.isScript = false :=
  fun f hf => hw.pub.delivered_scriptless i f ((hw.received_prefix i).subset hf)

/-- A publisher that is ready takes any frame but a script frame. -/
theorem Inv.recv {w : Broadcast} (hw : w.Inv) (hphase : w.pub.phase = .idle) {f : Frame}
    (hf : f.isScript = false) : ∃ pub, w.pub.recv f = .ok pub ∧ Inv { w with pub } := by
  rcases Publisher.recv_cases hw.pub hf with ⟨-, hrun⟩ | ⟨cache, impl, hacc, hcache, hrun⟩
  · exact ⟨w.pub, hrun, hw⟩
  · refine ⟨_, hrun, hw.setPub (hw.pub.accept hphase hf hacc hcache impl) rfl rfl ?_⟩
    intro i
    rw [hphase]
    rfl

/-- A step keeps the invariant, or ends in one of the faults of `StepFault`. -/
theorem Inv.step_spec {w : Broadcast} (hw : w.Inv) (g : GlobalSettings) {a : Event}
    (henabled : w.Enabled a) :
    (∃ t, w.step g a = .ok t ∧ t.Inv) ∨ ∃ e, w.step g a = .error e ∧ StepFault w a e := by
  cases a with
  | recv f =>
      cases hf : f.isScript with
      | true =>
          have hrun := Publisher.recv_script (w := w.pub) hf
          exact .inr ⟨_, by simp only [Broadcast.step, hrun, error_bind], .script hf⟩
      | false =>
          obtain ⟨pub, hrun, hpub⟩ := hw.recv henabled.1 hf
          exact .inl ⟨_, by simp only [Broadcast.step, hrun, ok_bind], hpub⟩
  | publisher => exact .inl (hw.publisherStep g)
  | completePublisher how =>
      exact .inl ⟨_, rfl, hw.setPub (hw.pub.setCache hw.pub.cache _) rfl rfl fun _ => rfl⟩
  | endPublisher =>
      have hphase : w.pub.phase = .idle := henabled
      refine .inl ⟨_, rfl, hw.setPub (hw.pub.endLoop hphase w.pub.impl) rfl rfl ?_⟩
      intro i
      rw [hphase]
      rfl
  | timeoutPublisher =>
      have hphase : w.pub.phase = .idle := henabled
      refine .inl ⟨_, rfl, hw.setPub (hw.pub.endLoop hphase w.pub.impl.onTimeout) rfl rfl ?_⟩
      intro i
      rw [hphase]
      rfl
  | terminatePublisher =>
      exact .inl ⟨_, rfl, hw.setPub (hw.pub.shrink (List.nil_sublist _)) rfl rfl fun _ => rfl⟩
  | updateSettings d =>
      rcases hw.pub.cache.setMinCacheDuration d with ⟨cache, hrun, hcache⟩ | hfault
      · refine .inl ⟨_, by simp only [Broadcast.step, Publisher.updateSettings, hrun, ok_bind],
          hw.setPub (hw.pub.setCache hcache w.pub.impl) rfl rfl fun _ => rfl⟩
      · exact .inr ⟨_, by simp only [Broadcast.step, Publisher.updateSettings, hfault,
          error_bind], .settings d⟩
  | begin i =>
      have hloop : (w.players i).loop = .detached := henabled
      rcases Player.onBegin_spec (hw.player i) hloop w.pub.impl with
        ⟨q, hrun, hq, hreceived, hstarted⟩ | hfault
      · exact .inl ⟨_, by simp only [Broadcast.step, hrun, ok_bind],
          hw.begin hloop hq hreceived hstarted⟩
      · exact .inr ⟨_, by simp only [Broadcast.step, hfault, error_bind], .noMeta i⟩
  | player i =>
      rcases Player.loopStep_spec (hw.player i) (hw.received_scriptless i) with
        ⟨q, hrun, hq, hkeeps⟩ | ⟨hkind, media, e, hrun, hmem, hfault⟩
      · exact .inl ⟨_, by simp only [Broadcast.step, hrun, ok_bind], hw.keeps hq hkeeps⟩
      · exact .inr ⟨e, by simp only [Broadcast.step, hrun, error_bind], .write hkind hmem hfault⟩
  | completePlayer i how =>
      exact .inl ⟨_, rfl, hw.keeps ((hw.player i).complete how) (Player.Keeps.of_complete _ how)⟩
  | timeout i =>
      exact .inl ⟨_, rfl, hw.keeps (hw.player i).onTimeout (Player.Keeps.of_onTimeout _ henabled)⟩
  | writeFails i st =>
      obtain ⟨frames, hloop⟩ := henabled
      obtain ⟨hq, hkeeps⟩ := (hw.player i).writeFails hloop st
      exact .inl ⟨_, rfl, hw.keeps hq hkeeps⟩
  | unsubscribe i =>
      refine .inl ⟨_, rfl, ?_⟩
      unfold Broadcast.unsubscribe
      split
      · exact hw
      · exact hw.setPub (hw.pub.shrink List.erase_sublist) rfl rfl fun _ => rfl
  | terminatePlayer i =>
      exact .inl ⟨_, rfl, hw.setPlayer ((hw.player i).onTerminate henabled) rfl id id⟩

/-- Every state reached is one of the invariant, and faults as the invariant allows. -/
theorem spec_of_reachable {g : GlobalSettings} {roles : Nat → PlayerKind × MediaType}
    {w : Broadcast} (hw : (broadcast g roles).Reachable w) :
    w.Inv ∧ ∀ a e, w.Enabled a → w.step g a = .error e → StepFault w a e :=
  hw.invariant_of_spec (P := Broadcast.Inv) (F := StepFault) (Inv.init g roles)
    fun _ _ hs henabled => hs.step_spec g henabled

theorem inv_of_reachable {g : GlobalSettings} {roles : Nat → PlayerKind × MediaType}
    {w : Broadcast} (hw : (broadcast g roles).Reachable w) : w.Inv := (spec_of_reachable hw).1

/-- What a player is to write was accepted, under the metadata it is written under. -/
theorem Inv.wanted_stamp {w : Broadcast} (hw : w.Inv) (i : Nat) {x : Option Frame × Frame}
    (hx : x ∈ stamp Frame.isMetadata none (w.players i).wanted) :
    x ∈ stamp Frame.isMetadata none w.pub.accepted := by
  have hkeep : ∀ f : Frame, f.isMetadata = true → (w.players i).wants f = true := by
    intro f hf
    cases f with
    | metadata m => rfl
    | media m => cases hf
    | script s => cases hf
  have hreceived : x ∈ stamp Frame.isMetadata none (w.players i).received := by
    rw [Player.wanted, stamp_filter hkeep] at hx
    exact (List.mem_filter.mp hx).1
  exact hw.pub.delivered_stamp i (stamp_mem_mono (hw.received_prefix i) hreceived)

end Broadcast

section Runs

variable (g : GlobalSettings) (roles : Nat → PlayerKind × MediaType)

/-! ## Stitching -/

/-- A subscriber is handed the cache as it stood at its first delivery, which ends with the
    frame being published, and then each frame accepted since, once and in order. While it
    is subscribed, only the frame of the round in progress may be outstanding. -/
theorem broadcast_stitches (w : Broadcast) (hw : (broadcast g roles).Reachable w) (i : Nat)
    (hne : w.pub.delivered i ≠ []) :
    ∃ join live rest, w.pub.joined i = some join
      ∧ w.pub.delivered i = join.cache.allFrames :: live.map (fun f => [f])
      ∧ join.cache.allFrames.getLast? = some join.frame
      ∧ join.accepted.getLast? = some join.frame
      ∧ w.pub.accepted = join.accepted ++ live ++ rest
      ∧ (i ∈ w.pub.subscribers → rest = w.pub.phase.owed i) := by
  have hinv := Broadcast.inv_of_reachable hw
  obtain ⟨join, live, rest, hst, hrest⟩ := (hinv.pub.feed i).stitched hne
  refine ⟨join, live, rest, hst.joined, hst.delivered, ?_, hst.last, hst.accepted,
    fun hi => hrest (.inl hi)⟩
  rw [hst.cache.window.last_eq]
  exact hst.last

/-- The steps by which the publisher delivers a frame to one subscriber, after the frame
    was accepted; `n` is the number of frames of the batch. -/
def roundOfOne (n : Nat) : List Event := List.replicate (n + 6) .publisher

/-- A player that joins behind two frames, and is handed the next two. -/
theorem broadcast_stitches_late :
    ∃ w, (broadcast {} fun _ => (.rtmp, .all)).Reachable w
      ∧ decide (w.pub.delivered 0 = [[.metadata (sampleMetadata true true),
          .media (sampleVideo true 0), .media (sampleAudio 1)], [.media (sampleAudio 2)]]) = true
      ∧ ∃ join live rest, w.pub.joined 0 = some join
        ∧ w.pub.delivered 0 = join.cache.allFrames :: live.map (fun f => [f])
        ∧ join.cache.allFrames.getLast? = some join.frame
        ∧ join.accepted.getLast? = some join.frame
        ∧ w.pub.accepted = join.accepted ++ live ++ rest
        ∧ (0 ∈ w.pub.subscribers → rest = w.pub.phase.owed 0) := by
  obtain ⟨w, hw, hdelivered⟩ := Machine.reachable_of_runs
    (M := broadcast {} fun _ => (.rtmp, .all))
    (p := fun w => decide (w.pub.delivered 0 = [[.metadata (sampleMetadata true true),
      .media (sampleVideo true 0), .media (sampleAudio 1)], [.media (sampleAudio 2)]]))
    ([.recv (.metadata (sampleMetadata true true)), .publisher, .publisher,
      .recv (.media (sampleVideo true 0)), .publisher, .publisher, .begin 0, .player 0,
      .recv (.media (sampleAudio 1))] ++ roundOfOne 3
      ++ .recv (.media (sampleAudio 2)) :: roundOfOne 1)
    (by decide +kernel)
  refine ⟨w, hw, hdelivered, broadcast_stitches {} _ w hw 0 ?_⟩
  rw [of_decide_eq_true hdelivered]
  simp

/-! ## Metadata before media -/

/-- A player holds metadata whenever it is about to write a media frame, and the
    assertions of the two `write_media` never fail. -/
theorem broadcast_metadata_precedes (w : Broadcast) (hw : (broadcast g roles).Reachable w) :
    (∀ i media frames, (w.players i).kind ≠ .hls →
        (w.players i).loop = .writing (.media media :: frames) → (w.players i).pipe.isSome)
      ∧ ∀ a e, w.Enabled a → w.step g a = .error e → e ≠ .assertion .writeMedia := by
  obtain ⟨hinv, hfaults⟩ := Broadcast.spec_of_reachable hw
  have hheader : ∀ (i : Nat) (media : Media),
      ((w.players i).header, .media media) ∈ stamp Frame.isMetadata none (w.players i).wanted →
      (w.players i).pipe.isSome := by
    intro i media hmem
    have hsome := hinv.pub.stamped _ (hinv.wanted_stamp i hmem)
    simpa [Player.header] using hsome
  constructor
  · intro i media frames hkind hloop
    exact hheader i media ((hinv.player i).head_mem hkind hloop rfl)
  · intro a e henabled hrun
    cases hfaults a e henabled hrun with
    | script hf => simp
    | settings d => simp
    | noMeta i => simp
    | write hkind hmem hwrite =>
        obtain ⟨metadata, hpipe⟩ := Option.isSome_iff_exists.mp (hheader _ _ hmem)
        simp only [Player.WriteFault, hpipe] at hwrite
        rw [hwrite.2]
        split <;> simp

/-- A player about to write the first media frame it was handed. -/
theorem broadcast_metadata_precedes_first :
    ∃ w, (broadcast {} fun _ => (.httpFlv, .onlyVideo)).Reachable w
      ∧ decide ((w.players 0).loop = .writing [.media (sampleVideo true 0)]) = true
      ∧ (w.players 0).pipe.isSome := by
  obtain ⟨w, hw, hloop⟩ := Machine.reachable_of_runs
    (M := broadcast {} fun _ => (.httpFlv, .onlyVideo))
    (p := fun w => decide ((w.players 0).kind ≠ .hls
      ∧ (w.players 0).loop = .writing [.media (sampleVideo true 0)]))
    ([.recv (.metadata (sampleMetadata true true)), .publisher, .publisher, .begin 0,
      .player 0, .recv (.media (sampleVideo true 0))] ++ roundOfOne 2 ++ [.player 0, .player 0])
    (by decide +kernel)
  obtain ⟨hkind, hloop'⟩ := of_decide_eq_true hloop
  exact ⟨w, hw, decide_eq_true hloop', (broadcast_metadata_precedes {} _ w hw).1 0 _ _ hkind hloop'⟩

end Runs

/-! ## Enabled media -/

/-- Whether the newest metadata frame of a stream enables a media type. -/
def newestEnables (frames : List Frame) (type : MediaType) : Bool :=
  match latest Frame.isMetadata none frames with
  | some (.metadata metadata) => metadata.enables type
  | _ => false

/-- A media frame the cache takes is one that the newest metadata frame in the cache
    enables. -/
def TakesEnabledMedia (w : Broadcast) : Event → Prop
  | .recv (.media media) => w.pub.cache.accepts (.media media) = true →
      newestEnables w.pub.cache.allFrames media.mediaType = true
  | _ => True

instance (w : Broadcast) : ∀ a, Decidable (TakesEnabledMedia w a)
  | .recv (.media _) => inferInstanceAs (Decidable (_ → _))
  | .recv (.metadata _) => inferInstanceAs (Decidable True)
  | .recv (.script _) => inferInstanceAs (Decidable True)
  | .publisher => inferInstanceAs (Decidable True)
  | .completePublisher _ => inferInstanceAs (Decidable True)
  | .endPublisher => inferInstanceAs (Decidable True)
  | .timeoutPublisher => inferInstanceAs (Decidable True)
  | .terminatePublisher => inferInstanceAs (Decidable True)
  | .updateSettings _ => inferInstanceAs (Decidable True)
  | .begin _ => inferInstanceAs (Decidable True)
  | .player _ => inferInstanceAs (Decidable True)
  | .completePlayer _ _ => inferInstanceAs (Decidable True)
  | .timeout _ => inferInstanceAs (Decidable True)
  | .writeFails _ _ => inferInstanceAs (Decidable True)
  | .unsubscribe _ => inferInstanceAs (Decidable True)
  | .terminatePlayer _ => inferInstanceAs (Decidable True)

instance (g : GlobalSettings) (roles : Nat → PlayerKind × MediaType) (w : Broadcast)
    (a : Event) : Decidable (((broadcast g roles).restrict TakesEnabledMedia).enabled w a) :=
  inferInstanceAs (Decidable (w.Enabled a ∧ TakesEnabledMedia w a))

/-- Each media frame accepted is enabled by the metadata in force at it. -/
def Governed (accepted : List Frame) : Prop :=
  ∀ header media, (header, Frame.media media) ∈ stamp Frame.isMetadata none accepted →
    ∃ metadata, header = some (.metadata metadata) ∧ metadata.enables media.mediaType = true

theorem newestEnables_iff {frames : List Frame} {type : MediaType} :
    newestEnables frames type = true ↔ ∃ metadata,
      latest Frame.isMetadata none frames = some (.metadata metadata)
        ∧ metadata.enables type = true := by
  unfold newestEnables
  split
  · rename_i metadata h
    simp [h]
  · rename_i hno
    constructor
    · intro h
      cases h
    · intro ⟨metadata, h, _⟩
      exact absurd h (hno metadata)

theorem Governed.concat {accepted : List Frame} (h : Governed accepted) {f : Frame}
    (hf : ∀ media, f = .media media → newestEnables accepted media.mediaType = true) :
    Governed (accepted ++ [f]) := by
  intro header media hmem
  rw [stamp_append] at hmem
  rcases List.mem_append.mp hmem with hmem | hmem
  · exact h header media hmem
  · cases hm : f.isMetadata with
    | true => simp [stamp, hm] at hmem
    | false =>
        simp only [stamp, hm, Bool.false_eq_true, if_false, List.mem_singleton,
          Prod.mk.injEq] at hmem
        obtain ⟨hheader, hmedia⟩ := hmem
        rw [hheader]
        exact newestEnables_iff.mp (hf media hmedia.symm)

/-- No step but `recv` changes the frames accepted, or the metadata of the publisher. -/
theorem Broadcast.accepted_of_step {g : GlobalSettings} {w t : Broadcast} {a : Event}
    (hrun : w.step g a = .ok t) (ha : ∀ f, a ≠ .recv f) :
    t.pub.accepted = w.pub.accepted ∧ t.pub.impl.sessionMeta = w.pub.impl.sessionMeta := by
  cases a with
  | recv f => exact absurd rfl (ha f)
  | publisher =>
      simp only [Broadcast.step, Broadcast.publisherStep] at hrun
      split at hrun
      case h_6 =>
        obtain ⟨p, -, hp⟩ := bind_eq_ok hrun
        cases hp
        exact ⟨rfl, rfl⟩
      case h_2 =>
        cases hrun
        unfold Publisher.publish
        split
        · exact ⟨rfl, rfl⟩
        · exact ⟨rfl, SessionImpl.sessionMeta_complete _ _⟩
      case h_4 =>
        cases hrun
        unfold Publisher.submit
        split <;> exact ⟨rfl, rfl⟩
      all_goals
        cases hrun
        exact ⟨rfl, rfl⟩
  | completePublisher how =>
      cases hrun
      exact ⟨rfl, SessionImpl.sessionMeta_complete _ _⟩
  | updateSettings d =>
      obtain ⟨pub, hpub, ht⟩ := bind_eq_ok hrun
      obtain ⟨cache, -, hcache⟩ := bind_eq_ok hpub
      cases ht
      cases hcache
      exact ⟨rfl, rfl⟩
  | begin i =>
      obtain ⟨p, -, ht⟩ := bind_eq_ok hrun
      cases ht
      simp only [Publisher.addRtmpSubscriber]
      split <;> exact ⟨rfl, rfl⟩
  | player i =>
      obtain ⟨p, -, ht⟩ := bind_eq_ok hrun
      cases ht
      exact ⟨rfl, rfl⟩
  | unsubscribe i =>
      cases hrun
      unfold Broadcast.unsubscribe
      split <;> exact ⟨rfl, rfl⟩
  | _ =>
      cases hrun
      exact ⟨rfl, rfl⟩

/-- A step that meets the condition keeps the accepted media enabled. -/
theorem Governed.step {g : GlobalSettings} {w t : Broadcast} {a : Event} (hw : w.Inv)
    (h : Governed w.pub.accepted) (ha : TakesEnabledMedia w a) (hrun : w.step g a = .ok t) :
    Governed t.pub.accepted := by
  by_cases hrecv : ∃ f, a = .recv f
  · obtain ⟨f, rfl⟩ := hrecv
    cases hf : f.isScript with
    | true =>
        rw [Broadcast.step, Publisher.recv_script hf] at hrun
        cases hrun
    | false =>
        rcases Publisher.recv_cases hw.pub hf with ⟨-, hrun'⟩ | ⟨cache, impl, hacc, -, hrun'⟩
        · rw [Broadcast.step, hrun'] at hrun
          cases hrun
          exact h
        · rw [Broadcast.step, hrun'] at hrun
          cases hrun
          refine h.concat ?_
          intro media hmedia
          subst hmedia
          have hnewest := ha hacc
          rwa [newestEnables, hw.pub.cache.window.latest_eq] at hnewest
  · rw [(Broadcast.accepted_of_step hrun fun f hf => hrecv ⟨f, hf⟩).1]
    exact h

section Runs

variable (g : GlobalSettings) (roles : Nat → PlayerKind × MediaType)

theorem governed_of_reachable {w : Broadcast}
    (hw : ((broadcast g roles).restrict TakesEnabledMedia).Reachable w) :
    Governed w.pub.accepted := by
  refine hw.invariant_reachable (P := fun w => Governed w.pub.accepted) ?_ ?_
  · intro header media hmem
    cases hmem
  · intro s a t hreach hgov ⟨_, ha⟩ hrun
    exact hgov.step (Broadcast.inv_of_reachable hreach.of_restrict) ha hrun

/-- Along the runs whose steps meet `TakesEnabledMedia`, each media frame an RTMP or
    HTTP-FLV player wrote was written under metadata that enables it, and the assertions of
    the two `tag_header` never fail. -/
theorem broadcast_writes_enabled (w : Broadcast)
    (hw : ((broadcast g roles).restrict TakesEnabledMedia).Reachable w) :
    (∀ i pipe media, (w.players i).kind ≠ .hls →
        (pipe, .media media) ∈ (w.players i).written →
        ∃ metadata, pipe = some metadata ∧ metadata.enables media.mediaType = true)
      ∧ ∀ a e, w.Enabled a → w.step g a = .error e →
          e ≠ .assertion .tagHeaderAudio ∧ e ≠ .assertion .tagHeaderVideo := by
  have hgov := governed_of_reachable g roles hw
  obtain ⟨hinv, hfaults⟩ := Broadcast.spec_of_reachable hw.of_restrict
  have henables : ∀ (i : Nat) (pipe : Option Metadata) (media : Media),
      (pipe.map Frame.metadata, .media media)
        ∈ stamp Frame.isMetadata none (w.players i).wanted →
      ∃ metadata, pipe = some metadata ∧ metadata.enables media.mediaType = true := by
    intro i pipe media hmem
    obtain ⟨metadata, hheader, henables⟩ := hgov _ _ (hinv.wanted_stamp i hmem)
    cases pipe with
    | none => cases hheader
    | some m =>
        cases hheader
        exact ⟨_, rfl, henables⟩
  constructor
  · intro i pipe media hkind hmem
    refine henables i pipe media ((hinv.player i).emitted_mem hkind _ ?_)
    exact List.mem_map.mpr ⟨_, hmem, rfl⟩
  · intro a e henabled hrun
    cases hfaults a e henabled hrun with
    | script hf => simp
    | settings d => simp
    | noMeta i => simp
    | write hkind hmem hwrite =>
        obtain ⟨metadata, hpipe, henabled⟩ := henables _ _ _ hmem
        simp only [Player.WriteFault, hpipe] at hwrite
        rw [henabled] at hwrite
        cases hwrite.1

end Runs

/-- A player that wrote a keyframe. -/
theorem broadcast_writes_enabled_keyframe :
    ∃ w, ((broadcast {} fun _ => (.rtmp, .all)).restrict TakesEnabledMedia).Reachable w
      ∧ decide ((w.players 0).written = [(some (sampleMetadata true false),
          .media (sampleVideo true 0))]) = true
      ∧ ∀ a e, w.Enabled a → w.step {} a = .error e →
          e ≠ .assertion .tagHeaderAudio ∧ e ≠ .assertion .tagHeaderVideo := by
  obtain ⟨w, hw, hwritten⟩ := Machine.reachable_of_runs
    (M := (broadcast {} fun _ => (.rtmp, .all)).restrict TakesEnabledMedia)
    (p := fun w => decide ((w.players 0).written = [(some (sampleMetadata true false),
      .media (sampleVideo true 0))]))
    ([.recv (.metadata (sampleMetadata true false)), .publisher, .publisher, .begin 0,
      .player 0, .recv (.media (sampleVideo true 0))] ++ roundOfOne 2
      ++ [.player 0, .player 0, .player 0])
    (by decide +kernel)
  exact ⟨w, hw, hwritten, (broadcast_writes_enabled {} _ w hw).2⟩

/-- Audio that the metadata of the second round disables is taken by the cache and aborts
    the player that writes it. -/
theorem broadcast_writes_disabled :
    ¬ ∀ w, (broadcast {} fun _ => (.rtmp, .all)).Reachable w →
      ∀ a e, w.Enabled a → w.step {} a = .error e → e ≠ .assertion .tagHeaderAudio := by
  intro hall
  obtain ⟨w, hw, hfault⟩ := Machine.reachable_of_runs
    (M := broadcast {} fun _ => (.rtmp, .all))
    (p := fun w => match w.step {} (.player 0) with
      | .error e => decide (e = .assertion .tagHeaderAudio)
      | .ok _ => false)
    ([.recv (.metadata (sampleMetadata true true)), .publisher, .publisher, .begin 0,
      .player 0, .recv (.media (sampleVideo true 0))] ++ roundOfOne 2
      ++ [.player 0, .player 0, .player 0, .player 0, .player 0]
      ++ .recv (.metadata (sampleMetadata true false)) :: roundOfOne 1
      ++ [.player 0, .player 0, .player 0, .player 0]
      ++ .recv (.media (sampleAudio 1)) :: roundOfOne 1 ++ [.player 0])
    (by decide +kernel)
  split at hfault
  · rename_i e hrun
    exact hall w hw (.player 0) e trivial hrun (of_decide_eq_true hfault)
  · cases hfault

end SeastarLive
