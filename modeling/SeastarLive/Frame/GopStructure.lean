/-
SeastarLive.Frame.GopStructure — what a GOP looks like.

A GOP of the cache can be decoded on its own: its only video keyframe is its
first media frame, and it has inter frames only behind one. `add_frame` closes
the current GOP by three tests that read the metadata in force, and eviction
puts metadata in front of a GOP; `gopQueue_structure` says that the shape
survives all of it, metadata switching freely.

`_is_keyframe` is written by the constructors of `video_media_t` only, so an
audio frame is no keyframe (`Media.Built`).
-/
import SeastarLive.Frame.GopAggregates

namespace SeastarLive

open Flv HeaderStream

/-! ## The media of a GOP -/

/-- The frame as a media frame. -/
def Flv.Frame.media? : Frame → Option Media
  | .media m => some m
  | .metadata _ => none
  | .script _ => none

/-- The media frames of a list of frames. -/
def mediaFrames (frames : List Frame) : List Media := frames.filterMap Frame.media?

/-- `_is_keyframe` is set for video only. -/
def Flv.Media.Built (m : Media) : Prop := m.isKeyframe = true → m.isVideo = true

instance : DecidablePred Flv.Media.Built :=
  fun m => inferInstanceAs (Decidable (m.isKeyframe = true → m.isVideo = true))

/-- The shape of a GOP with the given media frames. -/
structure GopShape (media : List Media) : Prop where
  /-- Behind the first media frame there is no video keyframe. -/
  keyframe_first : ∀ m ∈ media.tail, ¬ (m.isVideo = true ∧ m.isKeyframe = true)
  /-- An inter frame has a video keyframe at the start of its GOP. -/
  inter_behind : ∀ m ∈ media, m.isVideo = true → m.isKeyframe = false →
    ∃ k, media.head? = some k ∧ k.isVideo = true ∧ k.isKeyframe = true

theorem GopShape.nil : GopShape [] :=
  ⟨fun _ h => absurd h List.not_mem_nil, fun _ h => absurd h List.not_mem_nil⟩

theorem GopShape.singleton {m : Media} (hm : m.isVideo = true → m.isKeyframe = true) :
    GopShape [m] := by
  refine ⟨fun _ h => absurd h List.not_mem_nil, ?_⟩
  intro x hx hvideo hkey
  cases List.mem_singleton.mp hx
  rw [hm hvideo] at hkey
  cases hkey

/-- A media frame that is no keyframe, behind a keyframe if it is an inter frame. -/
theorem GopShape.concat {media : List Media} (hmedia : GopShape media) (hne : media ≠ [])
    {m : Media} (hkey : ¬ (m.isVideo = true ∧ m.isKeyframe = true))
    (hinter : m.isVideo = true →
      ∃ k, media.head? = some k ∧ k.isVideo = true ∧ k.isKeyframe = true) :
    GopShape (media ++ [m]) := by
  obtain ⟨x, xs, rfl⟩ := List.exists_cons_of_ne_nil hne
  refine ⟨?_, ?_⟩
  · intro y hy
    rcases List.mem_append.mp hy with hy | hy
    · exact hmedia.keyframe_first y hy
    · cases List.mem_singleton.mp hy
      exact hkey
  · intro y hy hvideo hinter'
    rcases List.mem_append.mp hy with hy | hy
    · exact hmedia.inter_behind y hy hvideo hinter'
    · cases List.mem_singleton.mp hy
      exact hinter hvideo

@[simp] theorem mediaFrames_nil : mediaFrames [] = [] := rfl

@[simp] theorem mediaFrames_append (xs ys : List Frame) :
    mediaFrames (xs ++ ys) = mediaFrames xs ++ mediaFrames ys := by
  simp [mediaFrames]

@[simp] theorem mediaFrames_media (m : Media) (xs : List Frame) :
    mediaFrames (.media m :: xs) = m :: mediaFrames xs := rfl

@[simp] theorem mediaFrames_metadata (m : Metadata) (xs : List Frame) :
    mediaFrames (.metadata m :: xs) = mediaFrames xs := rfl

theorem mem_mediaFrames {frames : List Frame} {m : Media} :
    m ∈ mediaFrames frames ↔ .media m ∈ frames := by
  rw [mediaFrames, List.mem_filterMap]
  constructor
  · rintro ⟨f, hf, hm⟩
    cases f with
    | media x =>
        cases hm
        exact hf
    | metadata x => cases hm
    | script x => cases hm
  · exact fun hm => ⟨.media m, hm, rfl⟩

theorem mediaFrames_filter (frames : List Frame) :
    mediaFrames (frames.filter Frame.isMedia) = mediaFrames frames := by
  induction frames with
  | nil => rfl
  | cons f frames ih =>
      cases f with
      | media m => rw [List.filter_cons_of_pos rfl, mediaFrames_media, mediaFrames_media, ih]
      | metadata m => exact ih
      | script s => exact ih

theorem head?_mediaFrames {frames : List Frame} {m : Media}
    (hm : firstMedia frames = some (.media m)) : (mediaFrames frames).head? = some m := by
  induction frames with
  | nil => cases hm
  | cons f frames ih =>
      cases f with
      | media x =>
          cases hm
          rfl
      | metadata x => exact ih hm
      | script x => exact ih hm

/-- Metadata at the end of a queue leaves its media as it is. -/
theorem mediaFrames_pushCollapse (xs : List Frame) (m : Metadata) :
    mediaFrames (pushCollapse Frame.isMetadata xs (.metadata m)) = mediaFrames xs := by
  rcases pushCollapse_cases Frame.isMetadata xs (.metadata m) with
    ⟨heq, -⟩ | ⟨ys, y, rfl, hy, -, heq⟩
  · simp [heq]
  · cases y with
    | metadata x => simp [heq]
    | media x => cases hy
    | script x => cases hy

namespace FrameQueue

/-- A GOP of the right shape, its media as the constructors build it. -/
structure Shaped (g : FrameQueue) : Prop where
  wf : g.Wf
  shape : GopShape (mediaFrames g.queue)
  built : ∀ m ∈ mediaFrames g.queue, m.Built

theorem Shaped.empty : Shaped {} :=
  ⟨Wf.empty, GopShape.nil, fun _ h => absurd h List.not_mem_nil⟩

theorem Shaped.pushBack_metadata {g : FrameQueue} (hg : Shaped g) (m : Metadata) :
    Shaped (g.pushBack (.metadata m)) := by
  have hmedia : mediaFrames (g.pushBack (.metadata m)).queue = mediaFrames g.queue := by
    rw [pushBack_queue, mediaFrames_pushCollapse]
  exact ⟨hg.wf.pushBack _, hmedia ▸ hg.shape, hmedia ▸ hg.built⟩

theorem Shaped.pushFront_metadata {g : FrameQueue} (hg : Shaped g)
    (hs : g.startWithMetadata = false) (m : Metadata) : Shaped (g.pushFront (.metadata m)) := by
  have hmedia : mediaFrames (g.pushFront (.metadata m)).queue = mediaFrames g.queue := by
    rw [pushFront_metadata_queue hs, mediaFrames_metadata]
  exact ⟨hg.wf.pushFront_metadata hs m, hmedia ▸ hg.shape, hmedia ▸ hg.built⟩

/-- A media frame added to a GOP: the first of its media, or one that belongs behind it. -/
theorem Shaped.pushBack_media {g : FrameQueue} (hg : Shaped g) {m : Media} (hm : m.Built)
    (hshape : GopShape (mediaFrames g.queue ++ [m])) : Shaped (g.pushBack (.media m)) := by
  have hmedia : mediaFrames (g.pushBack (.media m)).queue = mediaFrames g.queue ++ [m] := by
    rw [pushBack_queue, pushCollapse_body Frame.isMetadata rfl, mediaFrames_append]
    rfl
  refine ⟨hg.wf.pushBack _, hmedia ▸ hshape, ?_⟩
  rw [hmedia]
  intro x hx
  rcases List.mem_append.mp hx with hx | hx
  · exact hg.built x hx
  · cases List.mem_singleton.mp hx
    exact hm

theorem Shaped.mediaFrames_eq_nil {g : FrameQueue} (hg : Shaped g) (hm : g.hasMedia = false) :
    mediaFrames g.queue = [] := by
  refine List.eq_nil_iff_forall_not_mem.mpr fun m hmem => ?_
  have hhas := hg.wf.hasMedia_iff.mpr ⟨m, mem_mediaFrames.mp hmem⟩
  rw [hm] at hhas
  cases hhas

/-- The keyframe test of the inter frames, on the media of the GOP. -/
theorem Shaped.head_keyframe {g : FrameQueue} (hg : Shaped g)
    (hkey : GopQueue.startsWithKeyframe g = true) :
    ∃ k, (mediaFrames g.queue).head? = some k ∧ k.isVideo = true ∧ k.isKeyframe = true := by
  unfold GopQueue.startsWithKeyframe at hkey
  split at hkey
  · rename_i k hk
    have hhead := head?_mediaFrames hk
    have hmem := List.mem_of_find?_eq_some hk
    exact ⟨k, hhead, hg.built k (mem_mediaFrames.mpr hmem) hkey, hkey⟩
  · cases hkey

end FrameQueue

namespace GopQueue

/-! ## Adding a frame -/

/-- A frame that starts a GOP is no inter frame. -/
theorem keyframe_of_startsGop {q : GopQueue} {m : Media} (hs : q.startsGop (.media m) = true)
    (hvideo : m.isVideo = true) : m.isKeyframe = true := by
  simp only [startsGop, requireNewGop, hvideo, Bool.and_eq_true] at hs
  simpa using hs.2

/-- A keyframe joins the current GOP only when that has no media. -/
theorem hasMedia_of_keyframe {q : GopQueue} {m : Media}
    (hjoins : ¬ (q.startsGop (.media m) = true ∧ q.current.hasMedia = true))
    (hwf : q.current.Wf) (hvideo : m.isVideo = true) (hkey : m.isKeyframe = true) :
    q.current.hasMedia = false := by
  refine Bool.eq_false_iff.mpr fun hmedia => hjoins ⟨?_, hmedia⟩
  have honly : q.current.onlyMetadata = false := by
    refine Bool.eq_false_iff.mpr fun honly => ?_
    rw [hwf.hasMedia_of_onlyMetadata honly] at hmedia
    cases hmedia
  simp [startsGop, honly, requireNewGop, hvideo, hkey]

/-- Joining the current GOP, an accepted frame keeps its shape. -/
theorem Shaped_pushBack {q : GopQueue} {f : Frame} (hg : q.current.Shaped)
    (hf : f.isScript = false) (hbuilt : ∀ m, f = .media m → m.Built)
    (hacc : q.accepts f = true)
    (hjoins : ¬ (q.startsGop f = true ∧ q.current.hasMedia = true)) :
    (q.current.pushBack f).Shaped := by
  cases f with
  | script s => cases hf
  | metadata m => exact hg.pushBack_metadata m
  | media m =>
      refine hg.pushBack_media (hbuilt m rfl) ?_
      by_cases hkey : m.isVideo = true ∧ m.isKeyframe = true
      · have hnone := hasMedia_of_keyframe hjoins hg.wf hkey.1 hkey.2
        rw [hg.mediaFrames_eq_nil hnone]
        exact GopShape.singleton fun _ => hkey.2
      · have hinter : m.isVideo = true → ∃ k, (mediaFrames q.current.queue).head? = some k
            ∧ k.isVideo = true ∧ k.isKeyframe = true := by
          intro hvideo
          have hkey' : m.isKeyframe = false :=
            Bool.eq_false_iff.mpr fun hk => hkey ⟨hvideo, hk⟩
          have hallowed : acceptsMedia q.latestMetadataFrame q.current m = true := hacc
          obtain ⟨-, -, -, haudio | hk | hstart⟩ := acceptsMedia_iff.mp hallowed
          · rw [hvideo] at haudio
            cases haudio
          · rw [hkey'] at hk
            cases hk
          · exact hg.head_keyframe hstart
        by_cases hne : mediaFrames q.current.queue = []
        · rw [hne]
          refine GopShape.singleton fun hvideo => ?_
          obtain ⟨k, hk, -⟩ := hinter hvideo
          rw [hne] at hk
          cases hk
        · exact hg.shape.concat hne hkey hinter

end GopQueue

/-! ## Runs -/

/-- In every state reached each GOP has the shape, each closed GOP has media, and the
    media of the GOPs is the end of the media accepted, in order. -/
theorem gopQueue_structure (s : CacheHistory)
    (hs : (cacheMachine.restrict (mediaMeets Media.Built)).Reachable s) :
    (∀ g ∈ s.cache.gops ++ [s.cache.current], GopShape (mediaFrames g.queue))
      ∧ (∀ g ∈ s.cache.gops, mediaFrames g.queue ≠ [])
      ∧ ((s.cache.gops ++ [s.cache.current]).flatMap fun g => mediaFrames g.queue)
          <:+ mediaFrames s.accepted := by
  obtain ⟨hinv, -⟩ := CacheHistory.inv_of_reachable hs.of_restrict
  have hshaped : ∀ g ∈ s.cache.allGops, g.Shaped := by
    refine CacheHistory.cache_invariant (P := fun q => ∀ g ∈ q.allGops, g.Shaped) ?_ ?_ ?_ hs
    · intro d g hg
      rw [List.mem_singleton.mp hg]
      exact FrameQueue.Shaped.empty
    · exact fun q d hq => hq
    · intro q h f q' hinv hq hf hbuilt hrun
      have hcur : q.current.Shaped := hq _ (by simp [GopQueue.allGops])
      refine hinv.addFrame_allGops hq hf ?_ ?_ ?_ hrun
      · intro _ hstart
        cases f with
        | metadata m => exact FrameQueue.Shaped.empty.pushBack_metadata m
        | script x => cases hf
        | media m =>
            exact FrameQueue.Shaped.empty.pushBack_media (hbuilt m rfl)
              (GopShape.singleton (GopQueue.keyframe_of_startsGop hstart))
      · exact fun hacc hjoins => GopQueue.Shaped_pushBack hcur hf hbuilt hacc hjoins
      · exact fun g m hg hs => hg.pushFront_metadata hs m
  refine ⟨fun g hg => (hshaped g hg).shape, ?_, ?_⟩
  · intro g hg hnil
    obtain ⟨hwf, hmedia⟩ := hinv.gops_wf g hg
    obtain ⟨m, hm⟩ := hwf.hasMedia_iff.mp hmedia
    have hmem := mem_mediaFrames.mpr hm
    rw [hnil] at hmem
    exact absurd hmem List.not_mem_nil
  · have hlaw := (HistoryLaw.of_window hinv.window).media_suffix.filterMap Frame.media?
    have hall : (s.cache.allGops.flatMap fun g => mediaFrames g.queue)
        = mediaFrames s.cache.allFrames := by
      rw [GopQueue.allFrames_eq_allGops]
      induction s.cache.allGops with
      | nil => rfl
      | cons g gs ih => simp [ih]
    rw [← mediaFrames_filter s.cache.allFrames, ← mediaFrames_filter s.accepted] at *
    exact hall ▸ hlaw

/-- A run that goes from audio alone to audio and video and back. -/
theorem gopQueue_structure_switching :
    ∃ s, (cacheMachine.restrict (mediaMeets Media.Built)).Reachable s
      ∧ decide (s.cache.gops.length = 3 ∧ s.cache.allFrames.length = 9) = true
      ∧ (∀ g ∈ s.cache.gops ++ [s.cache.current], GopShape (mediaFrames g.queue))
      ∧ (∀ g ∈ s.cache.gops, mediaFrames g.queue ≠ [])
      ∧ ((s.cache.gops ++ [s.cache.current]).flatMap fun g => mediaFrames g.queue)
          <:+ mediaFrames s.accepted := by
  obtain ⟨s, hs, hlen⟩ := Machine.reachable_of_runs
    (M := cacheMachine.restrict (mediaMeets Media.Built))
    (p := fun s => decide (s.cache.gops.length = 3 ∧ s.cache.allFrames.length = 9))
    [.addMetadata (sampleMetadata false true), .addMedia (sampleAudio 0),
      .addMedia (sampleAudio 1), .addMetadata (sampleMetadata true true),
      .addMedia (sampleVideo false 2), .addMedia (sampleVideo true 2),
      .addMedia (sampleVideo false 3), .addMedia (sampleAudio 4),
      .addMetadata (sampleMetadata false true), .addMedia (sampleAudio 5)] (by decide +kernel)
  exact ⟨s, hs, hlen, gopQueue_structure s hs⟩

end SeastarLive
