/-
SeastarLive.Hls.Transcoding — which configuration the HLS player converts with.

A track is made from the first metadata with a profile, and no later metadata
touches it. So the conversions follow the metadata as long as a metadata that
enables a track brings what the track has, and a track is made from a metadata
that enables it.
-/
import SeastarLive.Hls.PlaySessionV3Theorems

namespace SeastarLive

open Flv

namespace HlsSession

variable {converter : TsConverter} {directory : List Char} {start : Int} {deleteDelay : Bool}
  {s t u : HlsSession} {frame : Media} {o : WriteOutcome}

/-! ## What a frame leaves -/

/-- A media frame is converted at most once, with what the tracks have. -/
theorem sameTracks_frame {r : Except HlsSession HlsSession}
    (h : FrameEnds converter directory s frame o r) :
    SameTracks s (settled r) ∧ ((settled r).conversions = s.conversions
      ∨ (settled r).conversions = s.conversions ++ (s.conversion? frame).toList) := by
  obtain ⟨hensure, hconversions⟩ := s.sameTracks_ensureFragment frame
  cases h with
  | continued frag r _ _ hwrite =>
      obtain ⟨htracks, hnew⟩ := sameTracks_write hwrite
      refine ⟨hensure.trans htracks, .inr ?_⟩
      rw [hnew, hconversions, hensure.conversion]
  | undumped frag t _ _ hdump =>
      obtain ⟨htracks, hnew⟩ := sameTracks_dump hdump
      exact ⟨hensure.trans htracks, .inl (hnew.trans hconversions)⟩
  | cut frag u r _ _ hdump hwrite =>
      obtain ⟨hdumped, hsame⟩ := sameTracks_dump hdump
      have hmade : SameTracks u (u.makeFragment frame) := ⟨rfl, rfl, rfl, rfl⟩
      obtain ⟨hwritten, hnew⟩ := sameTracks_write hwrite
      have hbefore := (hensure.trans hdumped).trans hmade
      refine ⟨hbefore.trans hwritten, .inr ?_⟩
      rw [hnew, hbefore.conversion]
      exact congrArg (· ++ _) (hsame.trans hconversions)

/-! ## Metadata that keep the tracks -/

/-- A metadata that enables a track brings the codec and the configuration of its stream; if
    there is no stream, one is made only from a metadata that enables the track. -/
def KeepsTrack (codecs : List Int) (stream : Option TsStreamInfo) (enabled : Bool) (codecid : Int)
    (config : List UInt8) (streamId : Int) : Prop :=
  match stream with
  | some info => enabled = true → codecid = info.codecId ∧ config = info.config
  | none => 0 < profile config → codecid ∈ codecs → 0 ≤ streamId → enabled = true

instance (codecs : List Int) (stream : Option TsStreamInfo) (enabled : Bool) (codecid : Int)
    (config : List UInt8) (streamId : Int) :
    Decidable (KeepsTrack codecs stream enabled codecid config streamId) :=
  match stream with
  | some info =>
      inferInstanceAs (Decidable (enabled = true → codecid = info.codecId ∧ config = info.config))
  | none =>
      inferInstanceAs (Decidable
        (0 < profile config → codecid ∈ codecs → 0 ≤ streamId → enabled = true))

/-- The condition on a step: a metadata that is not dropped keeps both tracks. -/
def KeepsTracks (s : HlsSession) : HlsCall → Prop
  | .write (.metadata m) o => s.impl.isComplete = false →
      KeepsTrack videoCodecs s.videoStream m.video.isEnabled m.video.codecid m.video.v
          o.videoStreamId
        ∧ KeepsTrack audioCodecs s.audioStream m.audio.isEnabled m.audio.codecid m.audio.aac
            o.audioStreamId
  | _ => True

instance (s : HlsSession) : DecidablePred s.KeepsTracks
  | .write (.metadata _) _ => inferInstanceAs (Decidable (_ → _ ∧ _))
  | .write (.media _) _ => .isTrue trivial
  | .write (.script _) _ => .isTrue trivial
  | .settings _ => .isTrue trivial
  | .complete _ => .isTrue trivial
  | .timeout => .isTrue trivial
  | .close => .isTrue trivial

/-! ## The invariant -/

/-- A stream has what the latest metadata brought. -/
def Current (codecs : List Int) (stream : Option TsStreamInfo)
    (latest : Option (Int × List UInt8)) : Prop :=
  ∀ info ∈ stream, info.codecId ∈ codecs ∧ latest = some (info.codecId, info.config)

/-- The streams have what the latest metadata brought, and so had the conversions. -/
structure FollowsMetadata (s : HlsSession) : Prop where
  video : Current videoCodecs s.videoStream s.latestVideo
  audio : Current audioCodecs s.audioStream s.latestAudio
  conversions : ∀ c ∈ s.conversions, c.latest = some (c.codecId, c.config)

theorem Current.keep {codecs : List Int} {old new : Option TsStreamInfo}
    {latest : Option (Int × List UInt8)} {enabled : Bool} {streamId codecid : Int}
    {config : List UInt8} (h : Current codecs old latest)
    (hkeeps : KeepsTrack codecs old enabled codecid config streamId)
    (hmade : StreamMade codecs streamId codecid config old new) :
    Current codecs new (if enabled then some (codecid, config) else latest) := by
  rcases hmade with rfl | ⟨rfl, hprofile, hcodec, hstreamId, rfl⟩
  · intro info hinfo
    obtain ⟨hmem, hlatest⟩ := h info hinfo
    rw [Option.mem_def.mp hinfo] at hkeeps
    refine ⟨hmem, ?_⟩
    cases enabled with
    | false => exact hlatest
    | true =>
        obtain ⟨rfl, rfl⟩ := hkeeps rfl
        rfl
  · intro info hinfo
    obtain rfl := Option.mem_some.mp hinfo
    refine ⟨hcodec, ?_⟩
    rw [if_pos (hkeeps hprofile hcodec hstreamId)]

/-- A frame is converted with what its stream has. -/
theorem FollowsMetadata.conversion (h : s.FollowsMetadata) {c : Conversion}
    (hc : c ∈ s.conversion? frame) : c.latest = some (c.codecId, c.config) := by
  have hc : s.conversion? frame = some c := hc
  unfold conversion? at hc
  cases hvideo : frame.isVideo with
  | true =>
      simp only [hvideo, if_true] at hc
      cases hstream : s.videoStream with
      | none => simp [hstream] at hc
      | some info =>
          obtain ⟨hmem, hlatest⟩ := h.video info hstream
          have hcodec : info.codecId ≠ flvAudioAac := by
            rintro heq
            rw [heq] at hmem
            revert hmem
            decide
          simp only [hstream, configOf, hcodec, if_false, Option.bind_eq_bind, Option.bind_some,
            Option.map_some] at hc
          split at hc
          · cases hc
            exact hlatest
          · cases hc
  | false =>
      simp only [hvideo, Bool.false_eq_true, if_false] at hc
      cases hstream : s.audioStream with
      | none => simp [hstream] at hc
      | some info =>
          obtain ⟨hmem, hlatest⟩ := h.audio info hstream
          have hcodec : ¬(info.codecId = flvVideoH264 ∨ info.codecId = flvVideoH265) := by
            rintro (heq | heq) <;>
              · rw [heq] at hmem
                revert hmem
                decide
          simp only [hstream, configOf, hcodec, if_false, Option.bind_eq_bind, Option.bind_some,
            Option.map_some] at hc
          split at hc
          · cases hc
            exact hlatest
          · cases hc

/-- A media frame keeps the streams, and is converted with what they have. -/
theorem FollowsMetadata.media {r : Except HlsSession HlsSession} (h : s.FollowsMetadata)
    (hr : FrameEnds converter directory s frame o r) : (settled r).FollowsMetadata := by
  obtain ⟨htracks, hconversions⟩ := sameTracks_frame hr
  constructor
  · rw [htracks.video, htracks.latestVideo]
    exact h.video
  · rw [htracks.audio, htracks.latestAudio]
    exact h.audio
  · intro c hc
    rcases hconversions with hsame | hnew
    · rw [hsame] at hc
      exact h.conversions c hc
    · rw [hnew, List.mem_append, Option.mem_toList] at hc
      rcases hc with hc | hc
      · exact h.conversions c hc
      · exact h.conversion hc

theorem FollowsMetadata.metadata {m : Metadata} (h : s.FollowsMetadata)
    (hvideo : KeepsTrack videoCodecs s.videoStream m.video.isEnabled m.video.codecid m.video.v
      o.videoStreamId)
    (haudio : KeepsTrack audioCodecs s.audioStream m.audio.isEnabled m.audio.codecid m.audio.aac
      o.audioStreamId) :
    (settled (s.handleMeta m o)).FollowsMetadata := by
  obtain ⟨v, a, w, c, n, heq, hv, ha, -⟩ := s.handleMeta_eq m o
  rw [heq]
  exact ⟨h.video.keep hvideo hv, h.audio.keep haudio ha, h.conversions⟩

theorem followsMetadata_step {a : HlsCall} (h : s.FollowsMetadata) (hkeeps : s.KeepsTracks a)
    (ht : step converter directory s a = .ok t) : t.FollowsMetadata := by
  cases step_ends ht with
  | media frame o r _ hends => exact h.media hends
  | metadata m o hcomplete =>
      obtain ⟨hvideo, haudio⟩ := hkeeps hcomplete
      exact h.metadata hvideo haudio
  | dropped frame o => exact h
  | settings deleteDelay => exact ⟨h.video, h.audio, h.conversions⟩
  | complete how => exact ⟨h.video, h.audio, h.conversions⟩
  | timeout => exact ⟨h.video, h.audio, h.conversions⟩
  | close => exact ⟨h.video, h.audio, h.conversions⟩

/-- In a run whose metadata keep the tracks, every frame is converted with the codec and the
    configuration of the latest metadata that enabled its track. -/
theorem conversions_follow_metadata
    (hreach : ((hlsSession converter directory start deleteDelay).restrict
      KeepsTracks).Reachable s) :
    ∀ c ∈ s.conversions, c.latest = some (c.codecId, c.config) := by
  have h : s.FollowsMetadata := by
    refine hreach.invariant ⟨fun _ hinfo => absurd hinfo (Option.not_mem_none _),
      fun _ hinfo => absurd hinfo (Option.not_mem_none _),
      fun _ hc => absurd hc List.not_mem_nil⟩ ?_
    intro s a t h henabled hstep
    exact followsMetadata_step h henabled.2 hstep
  exact h.conversions

/-- Two metadata with one AVC configuration, and a keyframe. -/
theorem conversions_follow_same_metadata :
    ∃ s : HlsSession, s.conversions.length = 1
      ∧ ∀ c ∈ s.conversions, c.latest = some (c.codecId, c.config) := by
  obtain ⟨s, hreach, hs⟩ := Machine.reachable_of_runs
    (M := (hlsSession singleNalUnit "d".toList 0 true).restrict KeepsTracks)
    (p := fun s => s.conversions.length = 1)
    [.write (.metadata (avcMp3 0x42)) {}, .write (.metadata (avcMp3 0x42)) {},
      .write (.media (slice true 0)) {}] (by decide +kernel)
  exact ⟨s, of_decide_eq_true hs, conversions_follow_metadata hreach⟩

/-- A second metadata brings another AVC configuration, and the keyframe behind it is converted
    with the first one. -/
theorem conversion_with_first_configuration :
    ¬∀ (converter : TsConverter) (directory : List Char) (start : Int) (deleteDelay : Bool)
      (s : HlsSession), (hlsSession converter directory start deleteDelay).Reachable s →
      ∀ c ∈ s.conversions, c.latest = some (c.codecId, c.config) := by
  intro hclaim
  obtain ⟨s, hreach, hs⟩ := Machine.reachable_of_runs
    (M := hlsSession singleNalUnit "d".toList 0 true)
    (p := fun s => s.conversions.any fun c => c.latest ≠ some (c.codecId, c.config))
    [.write (.metadata (avcMp3 0x42)) {}, .write (.metadata (avcMp3 0x4D)) {},
      .write (.media (slice true 0)) {}] (by decide +kernel)
  obtain ⟨c, hc, hne⟩ := List.any_eq_true.mp hs
  exact of_decide_eq_true hne (hclaim _ _ _ _ s hreach c hc)

end HlsSession

end SeastarLive
