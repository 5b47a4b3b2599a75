/-
SeastarLive.Session.FirstDelivery — what a player that joins late does with the
frames of the cache.

The first delivery to a subscriber is the whole cache (`all_frames` of
`src/frame/gop_queue.hh`), which `on_frames` of the player hands to `on_frame`
one by one. `publish` calls `validate_cache` of `src/session/session.hh` on
the cache before that; the player calls it on its own queue after each frame,
with the same settings. The two sum up bytes and dts over different
structures.

* `FrameQueue.Within` says what a queue owes to the frames it was filled from:
  it asks neither which of them passed the mask nor which metadata collapsed.
* The dts of media is unsigned in the source; here it is `dts >= 0`.
-/
import SeastarLive.Frame.GopStructure
import SeastarLive.Session.BroadcastTheorems
import SeastarLive.Session.PlaySessionTheorems
import Mathlib.Algebra.Order.Ring.Rat
import Mathlib.Algebra.Order.Field.Basic

namespace SeastarLive

open Flv

/-! ## Frames in order -/

/-- The media of a list of frames have non-decreasing dts. -/
def NonDecreasing (frames : List Frame) : Prop :=
  (mediaFrames frames).Pairwise fun m m' => m.dts ≤ m'.dts

instance (frames : List Frame) : Decidable (NonDecreasing frames) :=
  inferInstanceAs (Decidable (List.Pairwise _ _))

theorem nonDecreasing_iff {frames : List Frame} :
    NonDecreasing frames ↔ frames.Pairwise fun f f' =>
      ∀ m, f = .media m → ∀ m', f' = .media m' → m.dts ≤ m'.dts := by
  have hmedia : ∀ (f : Frame) (m : Media), f.media? = some m ↔ f = .media m := by
    intro f m
    cases f <;> simp [Frame.media?]
  unfold NonDecreasing mediaFrames
  rw [List.pairwise_filterMap]
  simp only [hmedia]

/-- The first media frame is not behind any other. -/
theorem NonDecreasing.firstMedia_le {frames : List Frame} (h : NonDecreasing frames)
    {first m : Media} (hfirst : firstMedia frames = some (.media first))
    (hm : .media m ∈ frames) : first.dts ≤ m.dts := by
  obtain ⟨-, before, after, rfl, hbefore⟩ := List.find?_eq_some_iff_append.mp hfirst
  rcases List.mem_append.mp hm with hm | hm
  · simpa using hbefore _ hm
  · rcases List.mem_cons.mp hm with hm | hm
    · cases hm
      exact Int.le_refl _
    · have hpair := (List.pairwise_append.mp (nonDecreasing_iff.mp h)).2.1
      exact (List.pairwise_cons.mp hpair).1 _ hm _ rfl _ rfl

/-- The last media frame is not before any other. -/
theorem NonDecreasing.le_lastMedia {frames : List Frame} (h : NonDecreasing frames)
    {last m : Media} (hlast : lastMedia frames = some (.media last))
    (hm : .media m ∈ frames) : m.dts ≤ last.dts := by
  obtain ⟨-, after, before, hreverse, hafter⟩ := List.find?_eq_some_iff_append.mp hlast
  have hpair := List.pairwise_reverse.mpr (nonDecreasing_iff.mp h)
  rw [← List.mem_reverse] at hm
  rw [hreverse] at hpair hm
  rcases List.mem_append.mp hm with hm | hm
  · simpa using hafter _ hm
  · rcases List.mem_cons.mp hm with hm | hm
    · cases hm
      exact Int.le_refl _
    · exact (List.pairwise_cons.mp (List.pairwise_append.mp hpair).2.1).1 _ hm _ rfl _ rfl

/-- A list with a media frame has a first and a last one. -/
theorem firstMedia_of_mem {frames : List Frame} {m : Media} (hm : .media m ∈ frames) :
    ∃ first last, firstMedia frames = some (.media first)
      ∧ lastMedia frames = some (.media last) := by
  have hfirst : (firstMedia frames).isSome := List.find?_isSome.mpr ⟨_, hm, rfl⟩
  have hlast : (lastMedia frames).isSome := (GopQueue.lastMedia_isSome_iff frames).trans hfirst
  obtain ⟨f, hf⟩ := Option.isSome_iff_exists.mp hfirst
  obtain ⟨l, hl⟩ := Option.isSome_iff_exists.mp hlast
  obtain ⟨first, rfl, -⟩ := isMedia_of_firstMedia hf
  have hkind := List.find?_some hl
  cases l with
  | media last => exact ⟨first, last, hf, hl⟩
  | metadata x => cases hkind
  | script x => cases hkind

/-- Two media frames are not further apart than the ends. -/
theorem NonDecreasing.le_duration {frames : List Frame} (h : NonDecreasing frames)
    {m m' : Media} (hm : .media m ∈ frames) (hm' : .media m' ∈ frames) :
    ((m'.dts - m.dts : Int) : Rat) / 1000 ≤ (recompute frames).duration := by
  obtain ⟨first, last, hfirst, hlast⟩ := firstMedia_of_mem hm
  have hstart := h.firstMedia_le hfirst hm
  have hend := h.le_lastMedia hlast hm'
  simp only [recompute, hfirst, hlast, Frame.dtsOf]
  refine div_le_div_of_nonneg_right ?_ (by norm_num)
  exact Int.cast_le.mpr (by omega)

theorem NonDecreasing.duration_nonneg {frames : List Frame} (h : NonDecreasing frames) :
    0 ≤ (recompute frames).duration := by
  by_cases hmedia : ∃ m, Frame.media m ∈ frames
  · obtain ⟨m, hm⟩ := hmedia
    simpa using h.le_duration hm hm
  · have hnone : firstMedia frames = none := by
      rw [firstMedia, List.find?_eq_none]
      intro f hf hkind
      cases f with
      | media m => exact hmedia ⟨m, hf⟩
      | metadata m => cases hkind
      | script s => cases hkind
    simp [recompute, hnone]

/-- A cache that is given metadata and media accepts nothing else. -/
theorem CacheHistory.scriptless_of_reachable {s : CacheHistory} (hs : cacheMachine.Reachable s) :
    ∀ f ∈ s.accepted, f.isScript = false := by
  have hinit : ∀ f ∈ cacheMachine.init.accepted, f.isScript = false :=
    fun f hf => absurd hf (List.not_mem_nil (a := f))
  refine hs.invariant (P := fun s => ∀ f ∈ s.accepted, f.isScript = false) hinit ?_
  intro s call t hkept _ hrun
  have hadd : ∀ x : Frame, x.isScript = false → s.addFrame x = .ok t →
      ∀ f ∈ t.accepted, f.isScript = false := by
    intro x hx hadd f hf
    obtain ⟨⟨cache, added⟩, -, ht⟩ := bind_eq_ok hadd
    cases ht
    cases added with
    | false => exact hkept f hf
    | true =>
        rcases List.mem_append.mp hf with hf | hf
        · exact hkept f hf
        · rw [List.mem_singleton.mp hf]
          exact hx
  cases call with
  | addMetadata m => exact hadd (.metadata m) rfl hrun
  | addMedia m => exact hadd (.media m) rfl hrun
  | clear =>
      cases hrun
      exact fun f hf => absurd hf (List.not_mem_nil (a := f))
  | setMinCacheDuration d =>
      obtain ⟨cache, -, ht⟩ := bind_eq_ok hrun
      cases ht
      exact hkept

/-! ## The queue of a player -/

/-- A queue that was filled from some of these frames: it has no more bytes than they have,
    and the dts it keeps are theirs. -/
structure FrameQueue.Within (q : FrameQueue) (frames : List Frame) : Prop where
  bytes_le : q.bytes ≤ (frames.map Frame.mediaSize).sum
  dts : q.startDts ≠ -1 → ∃ m m', .media m ∈ frames ∧ .media m' ∈ frames
    ∧ q.startDts = m.dts ∧ q.endDts = m'.dts

namespace FrameQueue

variable {q : FrameQueue} {frames : List Frame}

theorem Within.empty (frames : List Frame) : Within {} frames :=
  ⟨Nat.zero_le _, fun h => absurd rfl h⟩

/-- A frame that is turned away. -/
theorem Within.append (h : q.Within frames) (more : List Frame) : q.Within (frames ++ more) := by
  constructor
  · have hle := h.bytes_le
    rw [List.map_append, List.sum_append]
    omega
  · intro hstart
    obtain ⟨m, m', hm, hm', hdts⟩ := h.dts hstart
    exact ⟨m, m', List.mem_append_left _ hm, List.mem_append_left _ hm', hdts⟩

/-- A frame that is queued. -/
theorem Within.pushBack (h : q.Within frames) (f : Frame) :
    (q.pushBack f).Within (frames ++ [f]) := by
  have hkept := h.append [f]
  cases f with
  | metadata m => exact ⟨hkept.bytes_le, hkept.dts⟩
  | script s => exact ⟨hkept.bytes_le, hkept.dts⟩
  | media m =>
      have hm : Frame.media m ∈ frames ++ [.media m] := by simp
      constructor
      · have hle := h.bytes_le
        simp only [FrameQueue.pushBack, List.map_append, List.sum_append, List.map_cons,
          List.map_nil, List.sum_cons, List.sum_nil, Frame.mediaSize]
        omega
      · intro _
        by_cases hstart : q.startDts = -1
        · exact ⟨m, m, hm, hm, if_pos hstart, rfl⟩
        · obtain ⟨first, -, hfirst, -, hdts, -⟩ := hkept.dts hstart
          exact ⟨first, m, hfirst, hm, (if_neg hstart).trans hdts, rfl⟩

/-- Filled from frames in order, a queue lasts no longer than they do. -/
theorem Within.duration_le (h : q.Within frames) (hframes : NonDecreasing frames) :
    q.duration ≤ (recompute frames).duration := by
  unfold FrameQueue.duration
  split
  · exact hframes.duration_nonneg
  · rename_i hends
    obtain ⟨m, m', hm, hm', hstart, hend⟩ := h.dts (not_or.mp hends).1
    rw [hstart, hend]
    exact hframes.le_duration hm hm'

end FrameQueue

/-! ## The player -/

/-- Fewer bytes and a shorter duration pass as well. -/
theorem GlobalSettings.validateCache_mono {g : GlobalSettings} {bytes bytes' : Nat}
    {duration duration' : Rat} (hbytes : bytes ≤ bytes') (hduration : duration ≤ duration')
    (h : g.validateCache bytes' duration' = true) : g.validateCache bytes duration = true := by
  simp only [validateCache, Bool.and_eq_true, Bool.not_eq_true', decide_eq_false_iff_not,
    not_lt] at h ⊢
  exact ⟨le_trans (Nat.cast_le.mpr hbytes) h.1, le_trans hduration h.2⟩

/-- What says whether a session is complete, and why. -/
def SessionImpl.outcome (s : SessionImpl) : Bool × Bool × Bool × Bool × Status :=
  (s.done, s.canceled, s.failed, s.timeout, s.status)

/-- `on_frame` of metadata or media is not about the outcome. -/
theorem SessionImpl.outcome_onFrame {s : SessionImpl} {f : Frame} (hf : f.isScript = false) :
    ∃ t, s.onFrame f = .ok t ∧ t.outcome = s.outcome := by
  cases f with
  | media m => exact ⟨s.onMedia m, rfl, rfl⟩
  | metadata m => exact ⟨s.onMeta m, rfl, rfl⟩
  | script x => cases hf

namespace Player

variable {p : Player} {g : GlobalSettings} {frames : List Frame}

/-- The loop of `on_frames`. -/
def pushFrames (p : Player) (g : GlobalSettings) (frames : List Frame) : Except Fault Player :=
  frames.foldlM (fun p frame => p.pushFrame g frame) p

/-- A player that took one frame, or turned it away: its queue passed the check, if it took the
    frame and its queue passes. -/
structure Took (p : Player) (g : GlobalSettings) (f : Frame) (q : Player) : Prop where
  queue : q.queue.base = p.queue.base ∨ q.queue.base = p.queue.base.pushBack f
  outcome : g.validateCache q.queue.base.bytes q.queue.base.duration = true →
    q.impl.outcome = p.impl.outcome

theorem Took.refl (p : Player) (g : GlobalSettings) (f : Frame) : Took p g f p :=
  ⟨.inl rfl, fun _ => rfl⟩

/-- A cancelled player keeps what it has queued. -/
theorem complete_queue_base (p : Player) (how : Completion) :
    (p.complete how).queue.base = p.queue.base := by
  unfold complete
  split
  · rfl
  · simp only [settle, AsyncFrameQueue.close]
    split <;> rfl

theorem Took.enqueue (p : Player) (g : GlobalSettings) (f : Frame) :
    Took p g f (p.enqueue g f) := by
  unfold Player.enqueue
  dsimp only
  split
  · exact ⟨.inr rfl, fun _ => rfl⟩
  · rename_i hfails
    refine ⟨.inr (complete_queue_base _ _), ?_⟩
    rw [complete_queue_base]
    exact fun hpasses => absurd hpasses hfails

theorem onFrameRtmp_took (p : Player) (g : GlobalSettings) {f : Frame}
    (hf : f.isScript = false) : ∃ q, p.onFrameRtmp g f = .ok q ∧ Took p g f q := by
  simp only [onFrameRtmp, skips_eq, ok_bind]
  split
  · exact ⟨p, rfl, .refl p g f⟩
  · cases f with
    | media m =>
        have htook := Took.enqueue { p with impl := p.impl.onMedia m } g (.media m)
        exact ⟨_, rfl, htook.queue, htook.outcome⟩
    | metadata m => exact ⟨_, rfl, Took.enqueue p g _⟩
    | script x => cases hf

theorem onFrameFlv_took (p : Player) (g : GlobalSettings) {f : Frame}
    (hf : f.isScript = false) : ∃ q, p.onFrameFlv g f = .ok q ∧ Took p g f q := by
  simp only [onFrameFlv, skips_eq, ok_bind]
  split
  · exact ⟨p, rfl, .refl p g f⟩
  · have htook := Took.enqueue p g f
    obtain ⟨impl, himpl, houtcome⟩ := SessionImpl.outcome_onFrame (s := (p.enqueue g f).impl) hf
    rw [himpl]
    exact ⟨_, rfl, htook.queue, fun hpasses => houtcome.trans (htook.outcome hpasses)⟩

/-- `on_frame` of each kind of player. -/
theorem pushFrame_took (p : Player) (g : GlobalSettings) {f : Frame} (hf : f.isScript = false) :
    ∃ q, p.pushFrame g f = .ok q ∧ Took p g f q := by
  unfold pushFrame
  split
  · exact ⟨p, rfl, .refl p g f⟩
  · obtain ⟨q, hrtmp, hq⟩ := onFrameRtmp_took { p with received := p.received ++ [f] } g hf
    obtain ⟨r, hflv, hr⟩ := onFrameFlv_took { p with received := p.received ++ [f] } g hf
    dsimp only
    split
    · exact ⟨q, hrtmp, hq.queue, hq.outcome⟩
    · exact ⟨r, hflv, hr.queue, hr.outcome⟩
    · exact ⟨r, hflv, hr.queue, hr.outcome⟩

/-- A queue filled from some of the frames passes the check that all of them pass. -/
theorem validateCache_of_within {q : FrameQueue} {done all : List Frame} (hq : q.Within done)
    (hdone : done <+: all) (hall : NonDecreasing all)
    (hvalid : g.validateCache (recompute all).bytes (recompute all).duration = true) :
    g.validateCache q.bytes q.duration = true := by
  obtain ⟨rest, rfl⟩ := hdone
  have hwithin := hq.append rest
  exact GlobalSettings.validateCache_mono hwithin.bytes_le (hwithin.duration_le hall) hvalid

/-- Frames that go on a queue filled from frames before them, where all of them together pass
    the check: the player takes them without a change of its outcome. -/
theorem pushFrames_within {all done : List Frame} (hall : NonDecreasing all)
    (hscript : ∀ f ∈ all, f.isScript = false)
    (hvalid : g.validateCache (recompute all).bytes (recompute all).duration = true)
    (hp : p.queue.base.Within done) (hdone : done ++ frames <+: all) :
    ∃ q, p.pushFrames g frames = .ok q ∧ q.queue.base.Within (done ++ frames)
      ∧ q.impl.outcome = p.impl.outcome := by
  induction frames generalizing p done with
  | nil => exact ⟨p, rfl, by simpa using hp, rfl⟩
  | cons f frames ih =>
      have hf : f ∈ all := hdone.subset (by simp)
      obtain ⟨q, hpush, htook⟩ := pushFrame_took p g (hscript f hf)
      rw [List.append_cons] at hdone
      have hq : q.queue.base.Within (done ++ [f]) := by
        rcases htook.queue with hsame | htaken
        · rw [hsame]
          exact hp.append [f]
        · rw [htaken]
          exact hp.pushBack f
      obtain ⟨r, hrest, hr, houtcome⟩ := ih hq hdone
      have hpasses := validateCache_of_within hq
        ((List.prefix_append _ frames).trans hdone) hall hvalid
      refine ⟨r, ?_, ?_, houtcome.trans (htook.outcome hpasses)⟩
      · simp only [pushFrames, List.foldlM_cons, hpush] at hrest ⊢
        exact hrest
      · rw [List.append_cons]
        exact hr

/-- A player with an empty queue takes any part of the snapshot of a cache that passes
    `validate_cache`, frame by frame, and its own check passes after each. -/
theorem pushFrames_snapshot (g : GlobalSettings) (s : CacheHistory)
    (hs : (cacheMachine.restrict (mediaMeets Media.Timed)).Reachable s)
    (horder : NonDecreasing s.cache.allFrames)
    (hvalid : g.validateCache s.cache.bytes s.cache.duration = true) (p : Player)
    (hempty : p.queue.base = {}) (frames : List Frame) (hframes : frames <+: s.cache.allFrames) :
    ∃ q, p.pushFrames g frames = .ok q
      ∧ g.validateCache q.queue.base.bytes q.queue.base.duration = true
      ∧ q.impl.outcome = p.impl.outcome := by
  have haggregates := CacheHistory.aggregates_of_reachable hs
  have hbytes : s.cache.bytes = (recompute s.cache.allFrames).bytes :=
    congrArg Aggregates.bytes haggregates
  have hduration : s.cache.duration = (recompute s.cache.allFrames).duration :=
    congrArg Aggregates.duration haggregates
  rw [hbytes, hduration] at hvalid
  have hscript :=
    Publisher.scriptless_of_window (CacheHistory.inv_of_reachable hs.of_restrict).1.window
      (CacheHistory.scriptless_of_reachable hs.of_restrict)
  have hwithin : p.queue.base.Within [] := hempty ▸ FrameQueue.Within.empty []
  obtain ⟨q, hpush, hq, houtcome⟩ := pushFrames_within horder hscript hvalid hwithin hframes
  exact ⟨q, hpush, validateCache_of_within hq hframes horder hvalid, houtcome⟩

/-- A player that wants audio only, behind a cache with video and audio. -/
theorem pushFrames_snapshot_onlyAudio :
    ∃ s q, cacheMachine.Reachable s ∧ s.cache.allFrames.length = 5
      ∧ pushFrames { mediaType := .onlyAudio } {} s.cache.allFrames = .ok q
      ∧ GlobalSettings.validateCache {} q.queue.base.bytes q.queue.base.duration = true
      ∧ q.impl.outcome = SessionImpl.outcome {} := by
  obtain ⟨s, hs, hp⟩ := Machine.reachable_of_runs
    (M := cacheMachine.restrict (mediaMeets Media.Timed))
    (p := fun s => decide (s.cache.allFrames.length = 5 ∧ NonDecreasing s.cache.allFrames
      ∧ GlobalSettings.validateCache {} s.cache.bytes s.cache.duration = true))
    [.addMetadata (sampleMetadata true true), .addMedia (sampleVideo true 0),
      .addMedia (sampleAudio 20), .addMedia (sampleVideo true 59980),
      .addMedia (sampleAudio 60000)] (by decide +kernel)
  obtain ⟨hlength, horder, hvalid⟩ := of_decide_eq_true hp
  obtain ⟨q, hpush, hpasses, houtcome⟩ := pushFrames_snapshot {} s hs horder hvalid
    { mediaType := .onlyAudio } rfl s.cache.allFrames (List.prefix_refl _)
  exact ⟨s, q, hs.of_restrict, hlength, hpush, hpasses, houtcome⟩

end Player

end SeastarLive
