/-
SeastarLive.Frame.GopHistory — runs of the GOP cache.

`cacheMachine` is any sequence of `add_frame` calls with metadata and media
frames, `clear` and `set_min_cache_duration` calls, together with the frames
accepted since the last `clear`.

* `gopQueue_historyLaw`: in every state reached the cache holds a tail of the
  accepted media, each frame behind the metadata that was in force for it, and
  no assertion of the cache has failed.
* `latestMetadata_newest`: `_latest_metadata_frame` is the newest metadata
  frame along the runs whose steps meet `TracksNewest`. `on_frame` takes
  the first metadata frame of `_current` for the latest one while `_gops` is
  empty, and `latestMetadata_not_newest` is a run where that is wrong.
-/
import SeastarLive.Frame.GopQueueTheorems
import SeastarLive.Lib.Transition

namespace SeastarLive

open Flv HeaderStream

/-! ## Runs -/

/-- A call on the cache. -/
inductive CacheCall
  | addMetadata (m : Metadata)
  | addMedia (m : Media)
  | clear
  | setMinCacheDuration (d : Rat)
deriving DecidableEq

/-- A cache, and the frames it accepted since the last `clear`. -/
structure CacheHistory where
  cache : GopQueue := {}
  accepted : List Frame := []

namespace CacheHistory

def addFrame (s : CacheHistory) (frame : Frame) : Except Fault CacheHistory := do
  let (cache, added) ← s.cache.addFrame frame
  return { cache, accepted := if added then s.accepted ++ [frame] else s.accepted }

def step (s : CacheHistory) : CacheCall → Except Fault CacheHistory
  | .addMetadata m => s.addFrame (.metadata m)
  | .addMedia m => s.addFrame (.media m)
  | .clear => .ok { cache := s.cache.clear }
  | .setMinCacheDuration d => do
      let cache ← s.cache.setMinCacheDuration d
      return { s with cache }

end CacheHistory

/-- The cache as a machine; every call may happen in every state. -/
def cacheMachine : Machine CacheHistory CacheCall Fault where
  init := {}
  enabled _ _ := True
  step := CacheHistory.step

instance (s : CacheHistory) (call : CacheCall) : Decidable (cacheMachine.enabled s call) :=
  inferInstanceAs (Decidable True)

namespace CacheHistory

/-- A frame that is not a script is refused without effect, or accepted. -/
theorem addFrame_cases {s : CacheHistory} (hs : s.cache.Inv s.accepted) {f : Frame}
    (hf : f.isScript = false) :
    (s.cache.accepts f = false ∧ s.addFrame f = .ok s)
      ∨ ∃ q', s.cache.accepts f = true ∧ s.addFrame f = .ok ⟨q', s.accepted ++ [f]⟩
          ∧ q'.Inv (s.accepted ++ [f])
          ∧ q'.latestMetadataFrame
              = (s.cache.placeFrame f (s.cache.startsGop f)).latestMetadataFrame := by
  rcases hs.addFrame hf with ⟨hacc, hrun⟩ | ⟨q', hacc, hrun, hq', hlatest⟩
  · exact .inl ⟨hacc, by rw [addFrame, hrun]; rfl⟩
  · exact .inr ⟨q', hacc, by rw [addFrame, hrun]; rfl, hq', hlatest⟩

/-- A call that adds a metadata or a media frame keeps the invariant. -/
theorem addFrame_spec {s : CacheHistory} (hs : s.cache.Inv s.accepted) {f : Frame}
    (hf : f.isScript = false) : ∃ t, s.addFrame f = .ok t ∧ t.cache.Inv t.accepted := by
  rcases addFrame_cases hs hf with ⟨-, hrun⟩ | ⟨q', -, hrun, hq', -⟩
  · exact ⟨s, hrun, hs⟩
  · exact ⟨_, hrun, hq'⟩

/-- Each call keeps the invariant, or is a `set_min_cache_duration` that asserts. -/
theorem step_spec {s : CacheHistory} (hs : s.cache.Inv s.accepted) (call : CacheCall) :
    (∃ t, s.step call = .ok t ∧ t.cache.Inv t.accepted)
      ∨ ∃ e, s.step call = .error e ∧ e = .assertion .setMinCacheDuration := by
  cases call with
  | addMetadata m => exact .inl (addFrame_spec hs rfl)
  | addMedia m => exact .inl (addFrame_spec hs rfl)
  | clear => exact .inl ⟨_, rfl, GopQueue.Inv.empty _⟩
  | setMinCacheDuration d =>
      rcases hs.setMinCacheDuration d with ⟨q', hrun, hq'⟩ | hfault
      · exact .inl ⟨⟨q', s.accepted⟩, by simp [step, hrun], hq'⟩
      · exact .inr ⟨_, by simp [step, hfault], rfl⟩

/-- Every state reached is one of the invariant, and no other assertion fails. -/
theorem inv_of_reachable {s : CacheHistory} (hs : cacheMachine.Reachable s) :
    s.cache.Inv s.accepted
      ∧ ∀ call e, cacheMachine.enabled s call → cacheMachine.step s call = .error e →
          e = .assertion .setMinCacheDuration :=
  hs.invariant_of_spec (P := fun s => s.cache.Inv s.accepted) (GopQueue.Inv.empty _)
    fun _ call hs _ => step_spec hs call

end CacheHistory

/-- The calls whose media frames meet `G`. -/
def mediaMeets (G : Media → Prop) (_ : CacheHistory) : CacheCall → Prop
  | .addMetadata _ => True
  | .addMedia m => G m
  | .clear => True
  | .setMinCacheDuration _ => True

instance (G : Media → Prop) [DecidablePred G] :
    ∀ (s : CacheHistory) (call : CacheCall), Decidable (mediaMeets G s call)
  | _, .addMetadata _ => inferInstanceAs (Decidable True)
  | _, .addMedia m => inferInstanceAs (Decidable (G m))
  | _, .clear => inferInstanceAs (Decidable True)
  | _, .setMinCacheDuration _ => inferInstanceAs (Decidable True)

instance (G : Media → Prop) [DecidablePred G] (s : CacheHistory) (call : CacheCall) :
    Decidable ((cacheMachine.restrict (mediaMeets G)).enabled s call) :=
  inferInstanceAs (Decidable (True ∧ mediaMeets G s call))

/-- What `add_frame` keeps of a cache holds in every state reached, if it holds of empty
    caches and does not ask for the minimal cache duration. -/
theorem CacheHistory.cache_invariant {G : Media → Prop} {P : GopQueue → Prop}
    (hempty : ∀ d, P { minCacheDuration := d })
    (hset : ∀ q d, P q → P { q with minCacheDuration := d })
    (hadd : ∀ {q : GopQueue} {h : List Frame} {f : Frame} {q' : GopQueue}, q.Inv h → P q →
      f.isScript = false → (∀ m, f = .media m → G m) → q.addFrame f = .ok (q', true) → P q')
    {s : CacheHistory} (hs : (cacheMachine.restrict (mediaMeets G)).Reachable s) : P s.cache := by
  refine hs.invariant_reachable (P := fun s => P s.cache) (hempty _) ?_
  intro s call t hs hp ⟨_, hcall⟩ hrun
  obtain ⟨hinv, -⟩ := inv_of_reachable hs.of_restrict
  have hframe : ∀ f : Frame, f.isScript = false → (∀ m, f = .media m → G m) →
      s.addFrame f = .ok t → P t.cache := by
    intro f hf hG hrun
    obtain ⟨⟨q', added⟩, hrun', ht⟩ := bind_eq_ok hrun
    cases ht
    rcases hinv.addFrame hf with ⟨-, hsame⟩ | ⟨q'', -, hsame, -⟩
    · rw [hsame] at hrun'
      cases hrun'
      exact hp
    · rw [hsame] at hrun'
      cases hrun'
      exact hadd hinv hp hf hG hsame
  cases call with
  | addMetadata m => exact hframe (.metadata m) rfl (fun _ h => by cases h) hrun
  | addMedia m =>
      refine hframe (.media m) rfl ?_ hrun
      intro x hx
      cases hx
      exact hcall
  | clear =>
      cases hrun
      exact hempty _
  | setMinCacheDuration d =>
      obtain ⟨q', hset', ht⟩ := bind_eq_ok hrun
      obtain ⟨-, -, hq'⟩ := bind_eq_ok hset'
      cases hq'
      cases ht
      exact hset _ _ hp

/-! ## The history law -/

/-- What a cache that holds the frames `all` keeps of the accepted frames `h`. -/
structure HistoryLaw (all h : List Frame) : Prop where
  /-- Its media frames are the last media frames accepted, in order. -/
  media_suffix : all.filter Frame.isMedia <:+ h.filter Frame.isMedia
  /-- It is empty or starts with metadata. -/
  headed : Headed Frame.isMetadata all
  /-- No two metadata frames are adjacent. -/
  separated : Separated Frame.isMetadata all
  /-- Each media frame has the metadata before it that it had when it was accepted. -/
  governed : ∀ xs m ys, all = xs ++ .media m :: ys →
    ∃ hs ks, h = hs ++ .media m :: ks
      ∧ ks.filter Frame.isMedia = ys.filter Frame.isMedia
      ∧ latest Frame.isMetadata none xs = latest Frame.isMetadata none hs

theorem filter_isMedia_body (xs : List Frame) :
    (xs.filter fun f => !f.isMetadata).filter Frame.isMedia = xs.filter Frame.isMedia := by
  rw [List.filter_filter]
  refine List.filter_congr fun f _ => ?_
  cases f <;> rfl

theorem HistoryLaw.of_window {all h : List Frame} (hw : Window Frame.isMetadata all h) :
    HistoryLaw all h where
  media_suffix := by
    rw [← filter_isMedia_body all, ← filter_isMedia_body h]
    exact hw.body_suffix.filter _
  headed := hw.headed
  separated := hw.separated
  governed := by
    intro xs m ys hsplit
    obtain ⟨hs, ks, hh, hlatest, hbody⟩ := hw.split rfl hsplit
    refine ⟨hs, ks, hh, ?_, hlatest.symm⟩
    rw [← filter_isMedia_body ks, ← hbody, filter_isMedia_body]

theorem forEachGop_ok {q : GopQueue} {h : List Frame} (hq : q.Inv h) :
    q.forEachGop = .ok (q.gops ++ [q.current]) := by
  have hassert : ((q.gops.isEmpty && q.current.empty) || q.firstMetadataFrame.isSome)
      = true := by
    by_cases hall : q.allFrames = []
    · simp only [GopQueue.allFrames, List.append_eq_nil_iff] at hall
      simp [FrameQueue.empty, hall.2, hq.current_nil hall.2]
    · simp [hq.firstMetadata hall]
  simp [GopQueue.forEachGop, hassert]

/-- The history law of the GOP cache, and the assertions that never fail. -/
theorem gopQueue_historyLaw (s : CacheHistory) (hs : cacheMachine.Reachable s) :
    HistoryLaw s.cache.allFrames s.accepted
      ∧ s.cache.forEachGop = .ok (s.cache.gops ++ [s.cache.current])
      ∧ ∀ call e, cacheMachine.step s call = .error e →
          e = .assertion .setMinCacheDuration := by
  obtain ⟨hinv, hfaults⟩ := CacheHistory.inv_of_reachable hs
  refine ⟨.of_window hinv.window, forEachGop_ok hinv, ?_⟩
  intro call e hrun
  exact hfaults call e trivial hrun

/-! ## Sample frames -/

/-- Metadata that enables the given media types. -/
def sampleMetadata (video audio : Bool) : Metadata where
  video := { codecid := 7, valid := video }
  audio := { codecid := 160, valid := audio }

/-- A one-byte video frame. -/
def sampleVideo (isKeyframe : Bool) (dts : Int) : Media where
  isVideo := true
  isKeyframe := isKeyframe
  dts := dts
  data := [0]

/-- A one-byte audio frame. -/
def sampleAudio (dts : Int) : Media where
  dts := dts
  data := [0]

/-- A run that evicts a GOP whose metadata the next GOP depends on. -/
theorem gopQueue_historyLaw_evicted :
    ∃ s, cacheMachine.Reachable s
      ∧ decide (s.accepted.length = 5 ∧ s.cache.allFrames.length = 3) = true
      ∧ HistoryLaw s.cache.allFrames s.accepted := by
  obtain ⟨s, hs, hlen⟩ := Machine.reachable_of_runs (M := cacheMachine)
    (p := fun s => decide (s.accepted.length = 5 ∧ s.cache.allFrames.length = 3))
    [.setMinCacheDuration 1, .addMetadata (sampleMetadata true false),
      .addMedia (sampleVideo true 0), .addMedia (sampleVideo true 500),
      .addMedia (sampleVideo true 1000), .addMedia (sampleVideo true 2500)] (by decide +kernel)
  exact ⟨s, hs, hlen, (gopQueue_historyLaw s hs).1⟩

/-! ## The newest metadata frame -/

/-- The states in which adding a frame leaves `_latest_metadata_frame` at the newest
    metadata frame: there is a closed GOP, or one is closed for the frame, or the first
    metadata frame of the current GOP is also its latest one. -/
def TracksNewest (q : GopQueue) (frame : Frame) : Prop :=
  q.gops ≠ [] ∨
    match frame with
    | .metadata _ =>
        q.current.empty = true ∨ q.current.onlyMetadata = true
          ∨ q.current.firstMetadataFrame = some frame
    | .media _ =>
        q.accepts frame = false ∨ (q.startsGop frame = true ∧ q.current.hasMedia = true)
          ∨ q.current.firstMetadataFrame = q.current.latestMetadataFrame
    | .script _ => True

instance : ∀ (q : GopQueue) (frame : Frame), Decidable (TracksNewest q frame)
  | q, .metadata m => inferInstanceAs (Decidable (q.gops ≠ [] ∨ q.current.empty = true
      ∨ q.current.onlyMetadata = true ∨ q.current.firstMetadataFrame = some (.metadata m)))
  | q, .media m => inferInstanceAs (Decidable (q.gops ≠ [] ∨ q.accepts (.media m) = false
      ∨ (q.startsGop (.media m) = true ∧ q.current.hasMedia = true)
      ∨ q.current.firstMetadataFrame = q.current.latestMetadataFrame))
  | q, .script _ => inferInstanceAs (Decidable (q.gops ≠ [] ∨ True))

/-- The calls that keep `_latest_metadata_frame` the newest metadata frame. -/
def callTracksNewest (s : CacheHistory) : CacheCall → Prop
  | .addMetadata m => TracksNewest s.cache (.metadata m)
  | .addMedia m => TracksNewest s.cache (.media m)
  | .clear => True
  | .setMinCacheDuration _ => True

instance : ∀ (s : CacheHistory) (call : CacheCall), Decidable (callTracksNewest s call)
  | s, .addMetadata m => inferInstanceAs (Decidable (TracksNewest s.cache (.metadata m)))
  | s, .addMedia m => inferInstanceAs (Decidable (TracksNewest s.cache (.media m)))
  | _, .clear => inferInstanceAs (Decidable True)
  | _, .setMinCacheDuration _ => inferInstanceAs (Decidable True)

instance (s : CacheHistory) (call : CacheCall) :
    Decidable ((cacheMachine.restrict callTracksNewest).enabled s call) :=
  inferInstanceAs (Decidable (True ∧ callTracksNewest s call))

namespace GopQueue

theorem pushFrame_latest_of_gops {q : GopQueue} (hgops : q.gops ≠ []) (f : Frame) :
    (q.pushFrame f).latestMetadataFrame
      = latest Frame.isMetadata q.latestMetadataFrame [f] := by
  have hempty : q.gops.isEmpty = false := by simpa using hgops
  cases f <;> simp [GopQueue.pushFrame, onFrame, hempty, latest]

/-- Without closed GOPs the current GOP knows the newest metadata frame. -/
theorem Inv.current_latest {q : GopQueue} {h : List Frame} (hq : q.Inv h)
    (hgops : q.gops = []) :
    q.current.latestMetadataFrame = latest Frame.isMetadata none h := by
  have hall : q.allFrames = q.current.queue := by simp [allFrames, hgops]
  rw [hq.current_wf.latestMetadata, ← hall]
  exact hq.window.latest_eq

theorem closeGop_gops {q : GopQueue} (hq : q.gops ≠ [] ∨ q.current.hasMedia = true) :
    q.closeGop.gops ≠ [] := by
  unfold closeGop
  split
  · simp
  · rename_i hmedia
    exact hq.resolve_right hmedia

theorem startsGop_metadata (q : GopQueue) (m : Metadata) :
    q.startsGop (.metadata m) = false := by
  simp [startsGop, requireNewGop]

/-- A frame placed behind a closed GOP moves the pointer as it should. -/
theorem placeFrame_latest_of_gops {q : GopQueue} {f : Frame}
    (hq : q.gops ≠ [] ∨ q.startsGop f = true ∧ q.current.hasMedia = true) :
    (q.placeFrame f (q.startsGop f)).latestMetadataFrame
      = latest Frame.isMetadata q.latestMetadataFrame [f] := by
  unfold placeFrame
  split
  · have hclose := closeGop_gops (hq.imp_right And.right)
    rw [pushFrame_latest_of_gops hclose, closeGop_latestMetadataFrame]
  · rename_i hstart
    exact pushFrame_latest_of_gops (hq.resolve_right fun h => hstart h.1) f

/-- Without a closed GOP the pointer is the first metadata frame of the current GOP. -/
theorem placeFrame_latest_of_current {q : GopQueue} {f : Frame} (hgops : q.gops = [])
    (hstart : ¬ (q.startsGop f = true ∧ q.current.hasMedia = true)) :
    (q.placeFrame f (q.startsGop f)).latestMetadataFrame
      = (q.current.pushBack f).firstMetadataFrame := by
  unfold placeFrame
  split
  · rename_i hs
    have hclose : q.closeGop = q := by
      unfold closeGop
      split
      · rename_i hmedia
        exact absurd ⟨hs, hmedia⟩ hstart
      · rfl
    rw [hclose, (pushFrame_of_gops_nil hgops f).1]
  · exact (pushFrame_of_gops_nil hgops f).1

/-- A metadata frame pushed on a longer queue does not become its first one. -/
theorem pushBack_metadata_first_iff {g : FrameQueue} (hwf : g.Wf)
    (hheaded : Headed Frame.isMetadata g.queue) (m : Metadata) :
    (g.pushBack (.metadata m)).firstMetadataFrame = some (.metadata m)
      ↔ g.empty = true ∨ g.onlyMetadata = true
          ∨ g.firstMetadataFrame = some (.metadata m) := by
  constructor
  · intro hpush
    match hqueue : g.queue with
    | [] => exact .inl (by simp [FrameQueue.empty, hqueue])
    | [x] =>
        have hx : x.isMetadata = true := hheaded x (by simp [hqueue])
        exact .inr (.inl (by simp [FrameQueue.onlyMetadata, hqueue, hx]))
    | x :: y :: ys =>
        have hx : x.isMetadata = true := hheaded x (by simp [hqueue])
        have hfirst : g.firstMetadataFrame.isSome := by
          rw [hwf.firstMetadata]
          exact hwf.latest_isSome (by simp [startWithMetadata_eq, hqueue, hx])
        refine .inr (.inr ?_)
        have hnone : g.firstMetadataFrame.isNone = false := by
          rw [Option.isNone_eq_false_iff]
          exact hfirst
        simpa [FrameQueue.pushBack, hqueue, hnone, apply_ite List.isEmpty] using hpush
  · rintro (hempty | honly | hfirst)
    · exact FrameQueue.pushBack_metadata_first (.inl hempty) m
    · exact FrameQueue.pushBack_metadata_first (.inr honly) m
    · simp [FrameQueue.pushBack, hfirst]

/-- Placing a frame leaves the pointer at the newest metadata frame exactly in the
    states of `TracksNewest`. -/
theorem Inv.placeFrame_newest_iff {q : GopQueue} {h : List Frame} (hq : q.Inv h)
    (hnewest : q.latestMetadataFrame = latest Frame.isMetadata none h) {f : Frame}
    (hf : f.isScript = false) (hacc : q.accepts f = true) :
    (q.placeFrame f (q.startsGop f)).latestMetadataFrame
        = latest Frame.isMetadata none (h ++ [f])
      ↔ TracksNewest q f := by
  rw [latest_append, ← hnewest]
  by_cases hgops : q.gops = []
  · have hheaded : Headed Frame.isMetadata q.current.queue := by
      simpa [allFrames, hgops] using hq.window.headed
    cases f with
    | script s => cases hf
    | metadata m =>
        rw [placeFrame_latest_of_current hgops (by simp [startsGop_metadata])]
        simpa [TracksNewest, hgops, latest] using
          pushBack_metadata_first_iff hq.current_wf hheaded m
    | media media =>
        by_cases hstart : q.startsGop (.media media) = true ∧ q.current.hasMedia = true
        · rw [placeFrame_latest_of_gops (.inr hstart)]
          simp [TracksNewest, hstart]
        · rw [placeFrame_latest_of_current hgops hstart]
          simp [TracksNewest, hgops, hacc, hstart, latest, hnewest, hq.current_latest hgops]
  · rw [placeFrame_latest_of_gops (.inl hgops)]
    simp [TracksNewest, hgops]

end GopQueue

/-- The newest metadata frame enables the media type of `media`, and it is audio, a
    keyframe, or an inter frame of a GOP that starts its media with a keyframe. -/
def AllowedByNewest (newest : Option Frame) (current : FrameQueue) (media : Media) : Prop :=
  ∃ m, newest = some (.metadata m) ∧ m.enables media.mediaType = true
    ∧ (media.isVideo = false ∨ media.isKeyframe = true
        ∨ GopQueue.startsWithKeyframe current = true)

theorem acceptsMedia_iff {newest : Option Frame} {current : FrameQueue} {media : Media} :
    GopQueue.acceptsMedia newest current media = true
      ↔ AllowedByNewest newest current media := by
  unfold GopQueue.acceptsMedia AllowedByNewest
  split
  · simp [Bool.or_eq_true, or_assoc]
  · rename_i hno
    constructor
    · rintro ⟨⟩
    · rintro ⟨m, hm, -⟩
      exact absurd hm (hno m)

namespace CacheHistory

/-- A call leaves the pointer at the newest metadata frame exactly when it is one of
    `callTracksNewest`. -/
theorem step_newest_iff {s t : CacheHistory} (hs : s.cache.Inv s.accepted)
    (hnewest : s.cache.latestMetadataFrame = latest Frame.isMetadata none s.accepted)
    {call : CacheCall} (hrun : s.step call = .ok t) :
    t.cache.latestMetadataFrame = latest Frame.isMetadata none t.accepted
      ↔ callTracksNewest s call := by
  have hadd : ∀ f : Frame, f.isScript = false → s.addFrame f = .ok t →
      (t.cache.latestMetadataFrame = latest Frame.isMetadata none t.accepted
        ↔ s.cache.accepts f = false ∨ TracksNewest s.cache f) := by
    intro f hf hrun
    rcases addFrame_cases hs hf with ⟨hacc, hrun'⟩ | ⟨q', hacc, hrun', -, hlatest⟩
    · rw [hrun'] at hrun
      cases hrun
      simp [hnewest, hacc]
    · rw [hrun'] at hrun
      cases hrun
      simp only [hlatest, hs.placeFrame_newest_iff hnewest hf hacc, hacc]
      simp
  cases call with
  | addMetadata m =>
      refine (hadd (.metadata m) rfl hrun).trans ⟨?_, .inr⟩
      rintro (hacc | htracks)
      · cases hacc
      · exact htracks
  | addMedia m =>
      refine (hadd (.media m) rfl hrun).trans ⟨?_, .inr⟩
      rintro (hacc | htracks)
      · exact .inr (.inl hacc)
      · exact htracks
  | clear =>
      cases hrun
      exact ⟨fun _ => trivial, fun _ => rfl⟩
  | setMinCacheDuration d =>
      obtain ⟨q', hset, ht⟩ := bind_eq_ok hrun
      obtain ⟨-, -, hq'⟩ := bind_eq_ok hset
      cases hq'
      cases ht
      exact ⟨fun _ => trivial, fun _ => hnewest⟩

end CacheHistory

/-- Along the runs whose steps meet `TracksNewest`, `_latest_metadata_frame` is the
    newest metadata frame accepted, and decides what media is taken. -/
theorem latestMetadata_newest (s : CacheHistory)
    (hs : (cacheMachine.restrict callTracksNewest).Reachable s) :
    s.cache.latestMetadataFrame = latest Frame.isMetadata none s.accepted
      ∧ ∀ media, (∃ q', s.cache.addFrame (.media media) = .ok (q', true))
          ↔ AllowedByNewest (latest Frame.isMetadata none s.accepted) s.cache.current media := by
  have hnewest : s.cache.latestMetadataFrame = latest Frame.isMetadata none s.accepted := by
    refine hs.invariant_reachable (P := fun s =>
      s.cache.latestMetadataFrame = latest Frame.isMetadata none s.accepted) rfl ?_
    intro s call t hreach hnewest ⟨_, htracks⟩ hrun
    have hinv := (CacheHistory.inv_of_reachable hreach.of_restrict).1
    exact (CacheHistory.step_newest_iff hinv hnewest hrun).mpr htracks
  refine ⟨hnewest, fun media => ?_⟩
  rw [← hnewest, ← acceptsMedia_iff]
  have hinv := (CacheHistory.inv_of_reachable hs.of_restrict).1
  rcases hinv.addFrame (f := .media media) rfl with ⟨hacc, hrun⟩ | ⟨q', hacc, hrun, -⟩
  · simp only [GopQueue.accepts] at hacc
    simp [hrun, hacc]
  · simp only [GopQueue.accepts] at hacc
    simp [hrun, hacc]

/-- A run of such steps, with a metadata frame behind a closed GOP. -/
theorem latestMetadata_newest_behind_gop :
    ∃ s, (cacheMachine.restrict callTracksNewest).Reachable s
      ∧ decide (s.accepted.length = 4) = true
      ∧ s.cache.latestMetadataFrame = latest Frame.isMetadata none s.accepted := by
  obtain ⟨s, hs, hlen⟩ := Machine.reachable_of_runs
    (M := cacheMachine.restrict callTracksNewest) (p := fun s => decide (s.accepted.length = 4))
    [.addMetadata (sampleMetadata true true), .addMedia (sampleVideo true 0),
      .addMedia (sampleVideo true 40), .addMetadata (sampleMetadata true false)]
    (by decide +kernel)
  exact ⟨s, hs, hlen, (latestMetadata_newest s hs).1⟩

/-- A metadata frame after the first keyframe is not the latest one to the cache. -/
theorem latestMetadata_not_newest :
    ¬ ∀ s, cacheMachine.Reachable s →
      s.cache.latestMetadataFrame = latest Frame.isMetadata none s.accepted := by
  intro hall
  obtain ⟨s, hs, hne⟩ := Machine.reachable_of_runs (M := cacheMachine)
    (p := fun s => decide (s.cache.latestMetadataFrame
      ≠ latest Frame.isMetadata none s.accepted))
    [.addMetadata (sampleMetadata true true), .addMedia (sampleVideo true 0),
      .addMetadata (sampleMetadata true false)] (by decide +kernel)
  exact of_decide_eq_true hne (hall s hs)

end SeastarLive
