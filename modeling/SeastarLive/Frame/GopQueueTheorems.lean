/-
SeastarLive.Frame.GopQueueTheorems — what the GOP cache keeps of its history.

`GopQueue.Inv q h` relates a cache to the frames it accepted since it was last
cleared: what it holds is a window of them (`Lib.HeaderStream`), every GOP
caches the right pointers, and no GOP is empty without need. Each operation
has one lemma that says it keeps the invariant and raises no fault.
`Frame/GopHistory` puts them together over whole runs.
-/
import SeastarLive.Frame.GopQueue
import SeastarLive.Frame.FrameQueueTheorems

namespace SeastarLive

open Flv HeaderStream

namespace GopQueue

/-! ## The invariant -/

/-- What the parts of a cache keep when `h` are the frames it accepted. -/
structure Core (q : GopQueue) (h : List Frame) : Prop where
  window : Window Frame.isMetadata q.allFrames h
  current_wf : q.current.Wf
  gops_wf : ∀ g ∈ q.gops, g.Wf ∧ g.hasMedia = true
  latest_kind : ∀ f ∈ q.latestMetadataFrame, f.isMetadata = true
  latest_none : q.allFrames = [] → q.latestMetadataFrame = none
  firstMetadata : q.allFrames ≠ [] → q.firstMetadataFrame.isSome
  latestMedia_kind : ∀ f ∈ q.latestMediaFrame, f.isMedia = true

/-- The invariant of a cache between two calls. -/
structure Inv (q : GopQueue) (h : List Frame) : Prop extends Core q h where
  current_nil : q.current.queue = [] → q.gops = []

theorem Inv.empty (d : Rat) : Inv { minCacheDuration := d } [] where
  window := Window.nil Frame.isMetadata
  current_wf := FrameQueue.Wf.empty
  gops_wf := by simp
  latest_kind := by simp
  latest_none := fun _ => rfl
  firstMetadata := fun hne => absurd rfl hne
  latestMedia_kind := by simp
  current_nil := fun _ => rfl

theorem queue_ne_nil_of_hasMedia {g : FrameQueue} (hwf : g.Wf) (hg : g.hasMedia = true) :
    g.queue ≠ [] := by
  obtain ⟨m, hm⟩ := hwf.hasMedia_iff.mp hg
  exact List.ne_nil_of_mem hm

theorem Core.allFrames_ne_nil {q : GopQueue} {h : List Frame} (hq : Core q h)
    (hne : q.gops ≠ []) : q.allFrames ≠ [] := by
  obtain ⟨g, gs, hgops⟩ := List.exists_cons_of_ne_nil hne
  obtain ⟨hwf, hmedia⟩ := hq.gops_wf g (by rw [hgops]; exact List.mem_cons_self)
  have := queue_ne_nil_of_hasMedia hwf hmedia
  simp [allFrames, hgops, this]

/-! ## Acceptance -/

theorem Core.allowMediaType {q : GopQueue} {h : List Frame} (hq : Core q h)
    (type : MediaType) :
    (q.latestMetadataFrame = none ∧ q.allowMediaType type = .ok false)
      ∨ ∃ m, q.latestMetadataFrame = some (.metadata m)
          ∧ q.allowMediaType type = .ok (m.enables type) := by
  cases hl : q.latestMetadataFrame with
  | none => exact .inl ⟨rfl, by simp [GopQueue.allowMediaType, hl]⟩
  | some f =>
      have hkind := hq.latest_kind f hl
      cases f with
      | media m => cases hkind
      | script s => cases hkind
      | metadata m => exact .inr ⟨m, rfl, by simp [GopQueue.allowMediaType, hl]⟩

/-- The media types the cache takes, by its pointer to the latest metadata frame. -/
def enabledTypes (q : GopQueue) : MediaType :=
  match q.latestMetadataFrame with
  | some (.metadata m) => m.mediaOptions
  | _ => .none

theorem Core.allow_onlyAudio {q : GopQueue} {h : List Frame} (hq : Core q h) :
    q.allowMediaType .onlyAudio = .ok q.enabledTypes.audio := by
  rcases hq.allowMediaType .onlyAudio with ⟨hl, hallow⟩ | ⟨m, hl, hallow⟩
  · simp [hallow, enabledTypes, hl, MediaType.none]
  · simp [hallow, enabledTypes, hl, Metadata.mediaOptions]

theorem Core.allow_onlyVideo {q : GopQueue} {h : List Frame} (hq : Core q h) :
    q.allowMediaType .onlyVideo = .ok q.enabledTypes.video := by
  rcases hq.allowMediaType .onlyVideo with ⟨hl, hallow⟩ | ⟨m, hl, hallow⟩
  · simp [hallow, enabledTypes, hl, MediaType.none]
  · simp [hallow, enabledTypes, hl, Metadata.mediaOptions]

/-- The keyframe test of an inter frame: its GOP starts its media with a keyframe. -/
def startsWithKeyframe (q : FrameQueue) : Bool :=
  match q.queue.find? Frame.isMedia with
  | some (.media m) => m.isKeyframe
  | _ => false

theorem Core.allowInterFrame {q : GopQueue} {h : List Frame} (hq : Core q h) :
    q.allowInterFrame = .ok (q.current.empty || startsWithKeyframe q.current) := by
  unfold GopQueue.allowInterFrame startsWithKeyframe
  rw [← hq.current_wf.firstMedia]
  cases hempty : q.current.empty with
  | true => rfl
  | false =>
      cases hfirst : q.current.firstMediaFrame with
      | none => rfl
      | some f =>
          have hkind := hq.current_wf.isMedia_of_first hfirst
          cases f with
          | media m => rfl
          | metadata m => cases hkind
          | script s => cases hkind

/-- When a media frame is taken: the pointer to the latest metadata frame says that its
    type is enabled, and it is audio, a keyframe, or an inter frame of a decodable GOP. -/
def acceptsMedia (latestMetadata : Option Frame) (current : FrameQueue) (media : Media) :
    Bool :=
  match latestMetadata with
  | some (.metadata m) =>
      m.enables media.mediaType
        && (!media.isVideo || media.isKeyframe || startsWithKeyframe current)
  | _ => false

theorem Inv.validateFrame_media {q : GopQueue} {h : List Frame} (hq : Inv q h)
    (media : Media) :
    q.validateFrame (.media media)
      = .ok (acceptsMedia q.latestMetadataFrame q.current media) := by
  simp only [GopQueue.validateFrame, Frame.isMetadata_media, Frame.derefMedia_media, ok_bind,
    Bool.false_eq_true, if_false]
  rcases hq.allowMediaType media.mediaType with ⟨hl, hallow⟩ | ⟨m, hl, hallow⟩
  · simp [hallow, hl, acceptsMedia]
  · have hne : q.current.empty = false := by
      refine Bool.eq_false_iff.mpr fun hempty => ?_
      have hcur : q.current.queue = [] := List.isEmpty_iff.mp hempty
      have hall : q.allFrames = [] := by simp [allFrames, hcur, hq.current_nil hcur]
      rw [hq.latest_none hall] at hl
      cases hl
    have haudio : q.allowMediaType .onlyAudio = .ok m.audio.isEnabled := by
      simp [hq.allow_onlyAudio, enabledTypes, hl, Metadata.mediaOptions]
    simp only [hallow, haudio, hl, hq.allowInterFrame, hne, ok_bind, acceptsMedia,
      Bool.false_or, Bool.not_eq_true']
    cases hv : media.isVideo <;> cases hk : media.isKeyframe <;>
      cases he : m.enables media.mediaType <;>
      simp_all [Media.mediaType]

/-! ## Writes -/

@[simp] theorem onFrame_current (q : GopQueue) (f : Frame) :
    (q.onFrame f).current = q.current := by
  unfold onFrame
  split
  · rfl
  · cases f <;> rfl

@[simp] theorem onFrame_gops (q : GopQueue) (f : Frame) : (q.onFrame f).gops = q.gops := by
  unfold onFrame
  split
  · rfl
  · cases f <;> rfl

@[simp] theorem pushFrame_gops (q : GopQueue) (f : Frame) : (q.pushFrame f).gops = q.gops := by
  simp [pushFrame]

@[simp] theorem pushFrame_current (q : GopQueue) (f : Frame) :
    (q.pushFrame f).current = q.current.pushBack f := by
  simp [pushFrame]

theorem pushFrame_allFrames {q : GopQueue} {f : Frame}
    (hf : q.current.queue = [] → q.gops = [] ∨ f.isMetadata = false) :
    (q.pushFrame f).allFrames = pushCollapse Frame.isMetadata q.allFrames f := by
  simp only [allFrames, pushFrame_gops, pushFrame_current, FrameQueue.pushBack_queue]
  by_cases hcur : q.current.queue = []
  · rcases hf hcur with hgops | hbody
    · simp [hgops]
    · simp [pushCollapse_body Frame.isMetadata hbody]
  · exact (pushCollapse_append Frame.isMetadata hcur _ f).symm

/-- The pointers of a cache without closed GOPs are those of its current GOP. -/
theorem pushFrame_of_gops_nil {q : GopQueue} (hgops : q.gops = []) (f : Frame) :
    (q.pushFrame f).latestMetadataFrame = (q.current.pushBack f).firstMetadataFrame
      ∧ (q.pushFrame f).firstMetadataFrame = (q.current.pushBack f).firstMetadataFrame
      ∧ (q.pushFrame f).latestMediaFrame = (q.current.pushBack f).latestMediaFrame := by
  simp [pushFrame, onFrame, hgops]

/-- Adding a frame to the current GOP keeps the invariant. -/
theorem Core.pushFrame {q : GopQueue} {h : List Frame} (hq : Core q h) {f : Frame}
    (hf : q.current.queue = [] → q.gops = [] ∨ f.isMetadata = false)
    (hhead : q.allFrames = [] → f.isMetadata = true) :
    Inv (q.pushFrame f) (h ++ [f]) := by
  have hall := pushFrame_allFrames hf
  have hne : (q.pushFrame f).allFrames ≠ [] := by
    rw [hall]
    exact pushCollapse_ne_nil Frame.isMetadata _ f
  have hwf : (q.current.pushBack f).Wf := hq.current_wf.pushBack f
  have hwindow : Window Frame.isMetadata (q.pushFrame f).allFrames (h ++ [f]) := by
    rw [hall]
    exact hq.window.push hhead
  refine ⟨⟨hwindow, by simpa using hwf, by simpa using hq.gops_wf, ?_,
    fun hnil => absurd hnil hne, fun _ => ?_, ?_⟩, fun hnil => ?_⟩
  · -- the latest metadata frame is metadata
    by_cases hgops : q.gops = []
    · rw [(pushFrame_of_gops_nil hgops f).1]
      exact hwf.firstMetadata_kind
    · cases f with
      | metadata m => simp [GopQueue.pushFrame, onFrame, hgops]
      | media m => simpa [GopQueue.pushFrame, onFrame, hgops] using hq.latest_kind
      | script s => simpa [GopQueue.pushFrame, onFrame, hgops] using hq.latest_kind
  · by_cases hgops : q.gops = []
    · rw [(pushFrame_of_gops_nil hgops f).2.1, hwf.firstMetadata, hwf.latestMetadata]
      have hcur : (q.current.pushBack f).queue = (q.pushFrame f).allFrames := by
        simp [allFrames, hgops]
      rw [hcur]
      exact hwindow.headed.latest_isSome Frame.isMetadata hne none
    · have hfirst := hq.firstMetadata (hq.allFrames_ne_nil hgops)
      cases f <;> simp [GopQueue.pushFrame, onFrame, hgops, hfirst]
  · by_cases hgops : q.gops = []
    · rw [(pushFrame_of_gops_nil hgops f).2.2, hwf.latestMedia]
      intro g hg
      exact List.find?_some hg
    · cases f with
      | media m => simp [GopQueue.pushFrame, onFrame, hgops]
      | metadata m => simpa [GopQueue.pushFrame, onFrame, hgops] using hq.latestMedia_kind
      | script s => simpa [GopQueue.pushFrame, onFrame, hgops] using hq.latestMedia_kind
  · rw [pushFrame_current, FrameQueue.pushBack_queue] at hnil
    exact absurd hnil (pushCollapse_ne_nil Frame.isMetadata _ f)

@[simp] theorem closeGop_allFrames (q : GopQueue) : q.closeGop.allFrames = q.allFrames := by
  unfold closeGop
  split <;> simp [allFrames]

@[simp] theorem closeGop_latestMetadataFrame (q : GopQueue) :
    q.closeGop.latestMetadataFrame = q.latestMetadataFrame := by
  unfold closeGop
  split <;> rfl

/-- Closing the current GOP moves frames, and loses none. -/
theorem Core.closeGop {q : GopQueue} {h : List Frame} (hq : Core q h) :
    Core q.closeGop h := by
  refine ⟨by simpa using hq.window, ?_, ?_, by simpa using hq.latest_kind,
    by simpa using hq.latest_none, ?_, ?_⟩
  · unfold GopQueue.closeGop
    split
    · exact FrameQueue.Wf.empty
    · exact hq.current_wf
  · unfold GopQueue.closeGop
    split
    · rename_i hmedia
      intro g hg
      rcases List.mem_append.mp hg with hg | hg
      · exact hq.gops_wf g hg
      · rw [List.mem_singleton.mp hg]
        exact ⟨hq.current_wf, hmedia⟩
    · exact hq.gops_wf
  · rw [closeGop_allFrames]
    unfold GopQueue.closeGop
    split <;> exact hq.firstMetadata
  · unfold GopQueue.closeGop
    split <;> exact hq.latestMedia_kind

/-! ## Eviction -/

@[simp] theorem onPopGop_allFrames (q : GopQueue) : q.onPopGop.allFrames = q.allFrames := rfl

theorem startWithMetadata_eq (q : FrameQueue) :
    q.startWithMetadata = q.queue.head?.any Frame.isMetadata := rfl

/-- What restarting the first GOP of `q` with `flmf` leaves: the frames restarted, and
    the rest of the cache as good as before. -/
structure Restarted (q : GopQueue) (flmf : Frame) (q' : GopQueue) : Prop where
  allFrames_eq : q'.allFrames = restart Frame.isMetadata flmf q.allFrames
  current_ne : q'.current.queue ≠ []
  current_wf : q'.current.Wf
  gops_wf : ∀ g ∈ q'.gops, g.Wf ∧ g.hasMedia = true
  gops_length : q'.gops.length = q.gops.length
  starts : q'.firstGop.startWithMetadata = true
  latestMetadata : q'.latestMetadataFrame = q.latestMetadataFrame
  latestMedia : q'.latestMediaFrame = q.latestMediaFrame
  minCacheDuration : q'.minCacheDuration = q.minCacheDuration

theorem firstGop_head? {q : GopQueue} (hgwf : ∀ g ∈ q.gops, g.Wf ∧ g.hasMedia = true) :
    q.allFrames.head? = q.firstGop.queue.head? := by
  cases hgops : q.gops with
  | nil => simp [allFrames, firstGop, hgops]
  | cons front gops =>
      obtain ⟨hfwf, hfmedia⟩ := hgwf front (by rw [hgops]; exact List.mem_cons_self)
      have hne := queue_ne_nil_of_hasMedia hfwf hfmedia
      simp [allFrames, firstGop, hgops, List.head?_append_of_ne_nil _ hne]

theorem restartFirstGop_restarted {q : GopQueue} (hcur : q.current.queue ≠ [])
    (hcwf : q.current.Wf) (hgwf : ∀ g ∈ q.gops, g.Wf ∧ g.hasMedia = true)
    (m : Metadata) : Restarted q (.metadata m) (q.restartFirstGop (.metadata m)) := by
  have hhead := firstGop_head? hgwf
  cases hs : q.firstGop.startWithMetadata with
  | true =>
      have hq' : q.restartFirstGop (.metadata m) = q := by simp [restartFirstGop, hs]
      rw [hq']
      refine ⟨?_, hcur, hcwf, hgwf, rfl, hs, rfl, rfl, rfl⟩
      rw [startWithMetadata_eq, ← hhead] at hs
      simp [restart, hs]
  | false =>
      have hrestart : restart Frame.isMetadata (.metadata m) q.allFrames
          = .metadata m :: q.allFrames := by
        rw [startWithMetadata_eq, ← hhead] at hs
        simp [restart, hs]
      cases hgops : q.gops with
      | nil =>
          have hs' : q.current.startWithMetadata = false := by simpa [firstGop, hgops] using hs
          have hqueue := FrameQueue.pushFront_metadata_queue hs' m
          have hq' : q.restartFirstGop (.metadata m)
              = { q with current := q.current.pushFront (.metadata m) } := by
            simp [restartFirstGop, hs, hgops]
          rw [hq']
          refine ⟨?_, by simp [hqueue], hcwf.pushFront_metadata hs' m, hgwf, rfl, ?_,
            rfl, rfl, rfl⟩
          · rw [hrestart]
            simp [allFrames, hgops, hqueue]
          · simp [firstGop, hgops, startWithMetadata_eq, hqueue]
      | cons front gops =>
          have hs' : front.startWithMetadata = false := by simpa [firstGop, hgops] using hs
          have hqueue := FrameQueue.pushFront_metadata_queue hs' m
          have hq' : q.restartFirstGop (.metadata m)
              = { q with gops := front.pushFront (.metadata m) :: gops } := by
            simp [restartFirstGop, hs, hgops]
          rw [hq']
          refine ⟨?_, hcur, hcwf, ?_, by simp [hgops], ?_, rfl, rfl, rfl⟩
          · rw [hrestart]
            simp [allFrames, hgops, hqueue]
          · intro g hg
            rcases List.mem_cons.mp hg with rfl | hg
            · obtain ⟨hfwf, hfmedia⟩ := hgwf front (by rw [hgops]; exact List.mem_cons_self)
              exact ⟨hfwf.pushFront_metadata hs' m, hfmedia⟩
            · exact hgwf g (by rw [hgops]; exact List.mem_cons_of_mem _ hg)
          · simp [firstGop, startWithMetadata_eq, hqueue]

theorem onPopGop_firstMetadata {q : GopQueue} (hcwf : q.current.Wf)
    (hgwf : ∀ g ∈ q.gops, g.Wf ∧ g.hasMedia = true)
    (hs : q.firstGop.startWithMetadata = true) : q.onPopGop.firstMetadataFrame.isSome := by
  cases hgops : q.gops with
  | nil =>
      have hfirst : q.firstGop = q.current := by simp [firstGop, hgops]
      have hsome := hcwf.latest_isSome (hfirst ▸ hs)
      simpa [onPopGop, hgops, hcwf.firstMetadata] using hsome
  | cons front gops =>
      have hfirst : q.firstGop = front := by simp [firstGop, hgops]
      have hfwf := (hgwf front (by rw [hgops]; exact List.mem_cons_self)).1
      have hsome := hfwf.latest_isSome (hfirst ▸ hs)
      rw [← hfwf.firstMetadata] at hsome
      obtain ⟨f, hf⟩ := Option.isSome_iff_exists.mp hsome
      simp [onPopGop, hgops, hf]

/-- What `update_gop` does past its tests: the first GOP, which starts with metadata, is
    dropped, and the next one is restarted. -/
theorem Inv.popGop_eq {q : GopQueue} {h : List Frame} (hq : Inv q h) (hne : q.gops ≠ []) :
    ∃ front gops m, q.gops = front :: gops ∧ front.startWithMetadata = true
      ∧ front.latestMetadataFrame = some (.metadata m)
      ∧ q.popGop = .ok (restartFirstGop { q with gops } (.metadata m)).onPopGop := by
  obtain ⟨front, gops, hgops⟩ := List.exists_cons_of_ne_nil hne
  obtain ⟨hfwf, hfmedia⟩ := hq.gops_wf front (by rw [hgops]; exact List.mem_cons_self)
  have hfne := queue_ne_nil_of_hasMedia hfwf hfmedia
  have hstart : front.startWithMetadata = true := by
    have hheaded := hq.window.headed
    obtain ⟨x, xs, hx⟩ := List.exists_cons_of_ne_nil hfne
    simpa [Headed, startWithMetadata_eq, allFrames, hgops, hx] using hheaded
  -- the evicted GOP starts with metadata, so its latest metadata frame exists
  obtain ⟨flmf, hflmf⟩ := Option.isSome_iff_exists.mp (hfwf.latest_isSome hstart)
  obtain ⟨m, rfl⟩ : ∃ m, flmf = .metadata m := by
    have hkind := hfwf.isMetadata_of_latest hflmf
    cases flmf with
    | metadata m => exact ⟨m, rfl⟩
    | media m => cases hkind
    | script s => cases hkind
  exact ⟨front, gops, m, hgops, hstart, hflmf, by simp [GopQueue.popGop, hgops, hflmf]⟩

/-- Evicting a GOP of a reachable cache does not fail, and keeps the invariant and the
    latest metadata frame. -/
theorem Inv.popGop {q : GopQueue} {h : List Frame} (hq : Inv q h) (hne : q.gops ≠ []) :
    ∃ q', q.popGop = .ok q' ∧ Inv q' h ∧ q'.gops.length + 1 = q.gops.length
      ∧ q'.latestMetadataFrame = q.latestMetadataFrame
      ∧ q'.minCacheDuration = q.minCacheDuration := by
  obtain ⟨front, gops, m, hgops, -, hflmf, hpop⟩ := hq.popGop_eq hne
  obtain ⟨hfwf, -⟩ := hq.gops_wf front (by rw [hgops]; exact List.mem_cons_self)
  have hcur : q.current.queue ≠ [] := fun hnil => hne (hq.current_nil hnil)
  have hsplit : q.allFrames = front.queue ++ allFrames { q with gops } := by
    simp [allFrames, hgops]
  have hrest : ∀ g ∈ gops, g.Wf ∧ g.hasMedia = true := fun g hg =>
    hq.gops_wf g (by rw [hgops]; exact List.mem_cons_of_mem _ hg)
  have hre := restartFirstGop_restarted (q := { q with gops }) hcur hq.current_wf hrest m
  refine ⟨_, hpop, ⟨⟨?_, hre.current_wf, hre.gops_wf, ?_, ?_, ?_, ?_⟩, ?_⟩, ?_, ?_, ?_⟩
  · rw [onPopGop_allFrames, hre.allFrames_eq]
    refine Window.evict (hsplit ▸ hq.window) (by simp [allFrames, hcur]) ?_
    rw [← hfwf.latestMetadata, hflmf]
  · exact fun f hf => hq.latest_kind f (hre.latestMetadata.symm.trans hf)
  · intro hnil
    rw [onPopGop_allFrames] at hnil
    simp [allFrames, hre.current_ne] at hnil
  · intro _
    exact onPopGop_firstMetadata hre.current_wf hre.gops_wf hre.starts
  · exact fun f hf => hq.latestMedia_kind f (hre.latestMedia.symm.trans hf)
  · exact fun hnil => absurd hnil hre.current_ne
  · rw [hgops, List.length_cons]
    exact congrArg (· + 1) hre.gops_length
  · exact hre.latestMetadata
  · exact hre.minCacheDuration

/-! ## Add and settings -/

/-- A new duration keeps the invariant, or the call fails its assertion. -/
theorem Inv.setMinCacheDuration {q : GopQueue} {h : List Frame} (hq : Inv q h) (d : Rat) :
    (∃ q', q.setMinCacheDuration d = .ok q' ∧ Inv q' h)
      ∨ q.setMinCacheDuration d = .error (.assertion .setMinCacheDuration) := by
  unfold GopQueue.setMinCacheDuration
  cases q.minCacheDuration == -1 || decide (0 < d) with
  | false => exact .inr rfl
  | true =>
      refine .inl ⟨_, rfl, ?_⟩
      exact ⟨⟨hq.window, hq.current_wf, hq.gops_wf, hq.latest_kind, hq.latest_none,
        hq.firstMetadata, hq.latestMedia_kind⟩, hq.current_nil⟩

theorem Inv.requireUpdateGop {q : GopQueue} {h : List Frame} (hq : Inv q h) :
    ∃ b, q.requireUpdateGop = .ok b ∧ (b = true → q.gops ≠ []) := by
  unfold GopQueue.requireUpdateGop
  split
  · exact ⟨false, rfl, by simp⟩
  · rename_i hlen
    have hne : q.gops ≠ [] := fun hnil => hlen (by simp [hnil])
    split
    · exact ⟨false, rfl, by simp⟩
    · split
      · rename_i sf lf hsf hlf
        have hsecond : q.secondGop.Wf := by
          match hgops : q.gops with
          | [] => exact absurd hgops hne
          | [front] =>
              simp only [secondGop, hgops]
              exact hq.current_wf
          | front :: second :: gops =>
              simp only [secondGop, hgops]
              exact (hq.gops_wf second (by rw [hgops]; simp)).1
        have hs := hsecond.isMedia_of_first hsf
        have hl := hq.latestMedia_kind lf hlf
        cases sf with
        | metadata m => cases hs
        | script s => cases hs
        | media sm =>
            cases lf with
            | metadata m => cases hl
            | script s => cases hl
            | media lm => exact ⟨_, rfl, fun _ => hne⟩
      · exact ⟨false, rfl, by simp⟩

/-- Evicting GOPs does not fail, and keeps the invariant and the latest metadata. -/
theorem Inv.updateGop {q : GopQueue} {h : List Frame} (hq : Inv q h) (turns : Nat) :
    ∃ q', GopQueue.updateGop turns q = .ok q' ∧ Inv q' h
      ∧ q'.latestMetadataFrame = q.latestMetadataFrame := by
  induction turns generalizing q with
  | zero => exact ⟨q, rfl, hq, rfl⟩
  | succ turns ih =>
      obtain ⟨b, hb, hne⟩ := hq.requireUpdateGop
      cases b with
      | false => exact ⟨q, by simp [GopQueue.updateGop, hb], hq, rfl⟩
      | true =>
          obtain ⟨q₁, hpop, hq₁, -, hlatest, -⟩ := hq.popGop (hne rfl)
          obtain ⟨q₂, hupdate, hq₂, hlatest₂⟩ := ih hq₁
          refine ⟨q₂, ?_, hq₂, hlatest₂.trans hlatest⟩
          simp [GopQueue.updateGop, hb, hpop, hupdate]

/-- One turn for each GOP is enough: `update_gop` ends because its tests say so. -/
theorem Inv.updateGop_done {q : GopQueue} {h : List Frame} (hq : Inv q h) {q' : GopQueue}
    (hrun : GopQueue.updateGop q.gops.length q = .ok q') : q'.requireUpdateGop = .ok false := by
  induction hn : q.gops.length generalizing q with
  | zero =>
      rw [hn] at hrun
      cases hrun
      simp [GopQueue.requireUpdateGop, hn]
  | succ n ih =>
      obtain ⟨b, hb, hne⟩ := hq.requireUpdateGop
      rw [hn] at hrun
      cases b with
      | false =>
          simp only [GopQueue.updateGop, hb, ok_bind, Bool.not_false, if_true] at hrun
          cases hrun
          exact hb
      | true =>
          obtain ⟨q₁, hpop, hq₁, hlen, -, -⟩ := hq.popGop (hne rfl)
          have hlen₁ : q₁.gops.length = n := by omega
          simp only [GopQueue.updateGop, hb, hpop, ok_bind, Bool.not_true] at hrun
          exact ih hq₁ (by rw [hlen₁]; exact hrun) hlen₁

/-- Whether `add_frame` takes the frame, in a state of the invariant. -/
def accepts (q : GopQueue) (frame : Frame) : Bool :=
  match frame with
  | .media media => acceptsMedia q.latestMetadataFrame q.current media
  | .metadata _ => true
  | .script _ => false

theorem Inv.validateFrame {q : GopQueue} {h : List Frame} (hq : Inv q h) {f : Frame}
    (hf : f.isScript = false) : q.validateFrame f = .ok (q.accepts f) := by
  cases f with
  | media media => exact hq.validateFrame_media media
  | metadata m => rfl
  | script s => cases hf

/-- A media frame is only taken by a cache that holds metadata. -/
theorem Inv.allFrames_of_accepts {q : GopQueue} {h : List Frame} (hq : Inv q h) {f : Frame}
    (hf : q.accepts f = true) (hnil : q.allFrames = []) : f.isMetadata = true := by
  cases f with
  | media media =>
      rw [accepts, hq.latest_none hnil] at hf
      cases hf
  | metadata m => rfl
  | script s => cases hf

theorem requireNewGop_body {f : Frame} {audioOnly : Bool}
    (hf : requireNewGop f audioOnly = true) : f.isMetadata = false := by
  cases f with
  | media media => rfl
  | metadata m => cases hf
  | script s => cases hf

/-- The cache that `add_frame` evicts from: the GOP closed if the frame starts a new one,
    and the frame added. -/
def placeFrame (q : GopQueue) (frame : Frame) (newGop : Bool) : GopQueue :=
  (if newGop then q.closeGop else q).pushFrame frame

theorem Inv.placeFrame {q : GopQueue} {h : List Frame} (hq : Inv q h) {f : Frame}
    (hhead : q.allFrames = [] → f.isMetadata = true) {newGop : Bool}
    (hnew : newGop = true → f.isMetadata = false) :
    Inv (q.placeFrame f newGop) (h ++ [f]) := by
  cases newGop with
  | false => exact hq.toCore.pushFrame (fun hnil => .inl (hq.current_nil hnil)) hhead
  | true =>
      refine hq.toCore.closeGop.pushFrame (fun _ => .inr (hnew rfl)) ?_
      rw [closeGop_allFrames]
      exact hhead

/-- Whether `add_frame` starts a new GOP with a frame it takes. -/
def startsGop (q : GopQueue) (frame : Frame) : Bool :=
  !q.current.onlyMetadata
    && requireNewGop frame (q.enabledTypes.audio && !q.enabledTypes.video)

theorem startsGop_body {q : GopQueue} {f : Frame} (hf : q.startsGop f = true) :
    f.isMetadata = false := by
  simp only [startsGop, Bool.and_eq_true] at hf
  exact requireNewGop_body hf.2

@[simp] theorem onFrame_minCacheDuration (q : GopQueue) (f : Frame) :
    (q.onFrame f).minCacheDuration = q.minCacheDuration := by
  unfold onFrame
  split
  · rfl
  · cases f <;> rfl

@[simp] theorem placeFrame_minCacheDuration (q : GopQueue) (f : Frame) (newGop : Bool) :
    (q.placeFrame f newGop).minCacheDuration = q.minCacheDuration := by
  unfold GopQueue.placeFrame GopQueue.closeGop GopQueue.pushFrame
  cases newGop with
  | false => simp
  | true =>
      rw [onFrame_minCacheDuration]
      simp only [if_true]
      split <;> rfl

/-- Whether `add_frame` evicts GOPs after it placed the frame. -/
def evictsAfter (q : GopQueue) (frame : Frame) : Bool :=
  !q.current.onlyMetadata && frame.isMedia && decide (0 < q.minCacheDuration)

/-- What `add_frame` does with a frame it takes: it places it, and evicts. -/
theorem Inv.addFrame_eq {q : GopQueue} {h : List Frame} (hq : Inv q h) {f : Frame}
    (hf : f.isScript = false) (hacc : q.accepts f = true) {q₁ : GopQueue}
    (hq₁ : q.placeFrame f (q.startsGop f) = q₁) :
    q.addFrame f
      = if q.evictsAfter f then do
          let q' ← GopQueue.updateGop q₁.gops.length q₁
          .ok (q', true)
        else .ok (q₁, true) := by
  have hvalid := hq.validateFrame hf
  have hmin : q₁.minCacheDuration = q.minCacheDuration := by
    rw [← hq₁, placeFrame_minCacheDuration]
  by_cases honly : q.current.onlyMetadata
  · have hnew : q.startsGop f = false := by simp [startsGop, honly]
    rw [hnew] at hq₁
    simp [GopQueue.addFrame, hvalid, hacc, honly, evictsAfter, ← hq₁, GopQueue.placeFrame]
  · rw [evictsAfter, ← hmin]
    subst hq₁
    simp only [GopQueue.addFrame, hvalid, hacc, honly, hq.allow_onlyAudio, hq.allow_onlyVideo,
      ok_bind, Bool.not_true, Bool.false_eq_true, if_false, startsGop, GopQueue.placeFrame,
      Bool.not_false, Bool.true_and]

/-- What `add_frame` does to a cache of the invariant: it refuses the frame and changes
    nothing, or takes it, places it and evicts. -/
theorem Inv.addFrame {q : GopQueue} {h : List Frame} (hq : Inv q h) {f : Frame}
    (hf : f.isScript = false) :
    (q.accepts f = false ∧ q.addFrame f = .ok (q, false))
      ∨ ∃ q', q.accepts f = true ∧ q.addFrame f = .ok (q', true) ∧ Inv q' (h ++ [f])
          ∧ q'.latestMetadataFrame = (q.placeFrame f (q.startsGop f)).latestMetadataFrame := by
  cases hacc : q.accepts f with
  | false => exact .inl ⟨rfl, by simp [GopQueue.addFrame, hq.validateFrame hf, hacc]⟩
  | true =>
      have hplace := hq.placeFrame (hq.allFrames_of_accepts hacc) (startsGop_body (q := q))
      have hrun := hq.addFrame_eq hf hacc rfl
      generalize q.placeFrame f (q.startsGop f) = q₁ at hplace hrun
      refine .inr ?_
      cases hevict : q.evictsAfter f with
      | false => exact ⟨q₁, rfl, by simp [hrun, hevict], hplace, rfl⟩
      | true =>
          obtain ⟨q₂, hupdate, hq₂, hlatest⟩ := hplace.updateGop q₁.gops.length
          exact ⟨q₂, rfl, by simp [hrun, hevict, hupdate], hq₂, hlatest⟩

/-! ## Rules -/

/-- What each eviction keeps, `update_gop` keeps. -/
theorem Inv.updateGop_rule {P : GopQueue → Prop}
    (hpop : ∀ {q h q'}, Inv q h → P q → q.requireUpdateGop = .ok true → q.popGop = .ok q' → P q')
    {turns : Nat} {q : GopQueue} {h : List Frame} (hq : Inv q h) (hp : P q) {q' : GopQueue}
    (hrun : GopQueue.updateGop turns q = .ok q') : P q' := by
  induction turns generalizing q with
  | zero =>
      cases hrun
      exact hp
  | succ turns ih =>
      obtain ⟨b, hb, hne⟩ := hq.requireUpdateGop
      cases b with
      | false =>
          simp only [GopQueue.updateGop, hb, ok_bind, Bool.not_false, if_true] at hrun
          cases hrun
          exact hp
      | true =>
          obtain ⟨q₁, hpop₁, hq₁, -⟩ := hq.popGop (hne rfl)
          simp only [GopQueue.updateGop, hb, hpop₁, ok_bind, Bool.not_true] at hrun
          exact ih hq₁ (hpop hq hp hb hpop₁) hrun

/-- What placing the frame establishes and each eviction keeps, holds after `add_frame`. -/
theorem Inv.addFrame_rule {P : GopQueue → Prop}
    (hpop : ∀ {q h q'}, Inv q h → P q → q.requireUpdateGop = .ok true → q.popGop = .ok q' → P q')
    {q : GopQueue} {h : List Frame} (hq : Inv q h) {f : Frame} (hf : f.isScript = false)
    (hplace : q.accepts f = true → P (q.placeFrame f (q.startsGop f))) {q' : GopQueue}
    (hrun : q.addFrame f = .ok (q', true)) : P q' := by
  cases hacc : q.accepts f with
  | false =>
      rw [GopQueue.addFrame, hq.validateFrame hf, hacc] at hrun
      simp at hrun
  | true =>
      have hinv := hq.placeFrame (hq.allFrames_of_accepts hacc) (startsGop_body (q := q))
      rw [hq.addFrame_eq hf hacc rfl] at hrun
      split at hrun
      · obtain ⟨q₁, hupdate, hq₁⟩ := bind_eq_ok hrun
        cases hq₁
        exact hinv.updateGop_rule hpop (hplace hacc) hupdate
      · cases hrun
        exact hplace hacc

/-! ## The GOPs one by one -/

/-- The GOPs of a cache, the current one last. -/
def allGops (q : GopQueue) : List FrameQueue := q.gops ++ [q.current]

theorem allFrames_eq_allGops (q : GopQueue) :
    q.allFrames = (q.allGops.map FrameQueue.queue).flatten := by
  simp [allFrames, allGops]

@[simp] theorem pushFrame_allGops (q : GopQueue) (f : Frame) :
    (q.pushFrame f).allGops = q.gops ++ [q.current.pushBack f] := by
  simp [allGops]

/-- A GOP that is first now starts with metadata, its own or `flmf`. -/
def restarted (g : FrameQueue) (flmf : Frame) : FrameQueue :=
  if g.startWithMetadata then g else g.pushFront flmf

theorem restartFirstGop_allGops {q : GopQueue} {first : FrameQueue} {rest : List FrameQueue}
    (hq : q.allGops = first :: rest) (flmf : Frame) :
    (q.restartFirstGop flmf).allGops = restarted first flmf :: rest := by
  cases hgops : q.gops with
  | nil =>
      simp only [allGops, hgops, List.nil_append, List.cons.injEq] at hq
      obtain ⟨rfl, rfl⟩ := hq
      unfold restartFirstGop restarted
      simp only [firstGop, hgops]
      split <;> simp [allGops, hgops]
  | cons front gops =>
      simp only [allGops, hgops, List.cons_append, List.cons.injEq] at hq
      obtain ⟨rfl, rfl⟩ := hq
      unfold restartFirstGop restarted
      simp only [firstGop, hgops]
      split <;> simp [allGops, hgops]

/-- An eviction drops the first GOP and restarts the second one; it touches no other. -/
theorem Inv.popGop_allGops {q : GopQueue} {h : List Frame} (hq : Inv q h) {q' : GopQueue}
    (hne : q.gops ≠ []) (hrun : q.popGop = .ok q') :
    ∃ front first rest m, q.allGops = front :: first :: rest
      ∧ q'.allGops = restarted first (.metadata m) :: rest := by
  obtain ⟨front, gops, m, hgops, -, -, hpop⟩ := hq.popGop_eq hne
  rw [hpop] at hrun
  cases hrun
  obtain ⟨first, rest, hrest⟩ : ∃ first rest, gops ++ [q.current] = first :: rest :=
    List.exists_cons_of_ne_nil (by simp)
  refine ⟨front, first, rest, m, ?_, restartFirstGop_allGops (q := { q with gops }) hrest _⟩
  rw [allGops, hgops, List.cons_append, hrest]

/-- What every GOP of a cache is, every GOP is after `add_frame`: a GOP changes when the
    frame joins it, and when it is restarted with metadata. -/
theorem Inv.addFrame_allGops {P : FrameQueue → Prop} {q : GopQueue} {h : List Frame}
    (hq : Inv q h) (hp : ∀ g ∈ q.allGops, P g) {f : Frame} (hf : f.isScript = false)
    (hnew : q.accepts f = true → q.startsGop f = true → P (FrameQueue.pushBack {} f))
    (hback : q.accepts f = true → ¬ (q.startsGop f = true ∧ q.current.hasMedia = true) →
      P (q.current.pushBack f))
    (hfront : ∀ g m, P g → g.startWithMetadata = false → P (g.pushFront (.metadata m)))
    {q' : GopQueue} (hrun : q.addFrame f = .ok (q', true)) : ∀ g ∈ q'.allGops, P g := by
  refine hq.addFrame_rule (P := fun q => ∀ g ∈ q.allGops, P g) ?_ hf ?_ hrun
  · intro q h q' hq hp hrequire hpop
    have hne : q.gops ≠ [] := by
      obtain ⟨b, hb, hne⟩ := hq.requireUpdateGop
      rw [hb] at hrequire
      cases hrequire
      exact hne rfl
    obtain ⟨front, first, rest, m, hall, hall'⟩ := hq.popGop_allGops hne hpop
    rw [hall] at hp
    rw [hall']
    intro g hg
    rcases List.mem_cons.mp hg with rfl | hg
    · have hfirst : P first := hp first (by simp)
      unfold restarted
      split
      · exact hfirst
      · rename_i hs
        exact hfront first m hfirst (Bool.eq_false_iff.mpr hs)
    · exact hp g (by simp [hg])
  · intro hacc
    unfold GopQueue.placeFrame GopQueue.closeGop
    intro g hg
    by_cases hclose : q.startsGop f = true ∧ q.current.hasMedia = true
    · simp only [hclose, if_true, pushFrame_allGops] at hg
      rcases List.mem_append.mp hg with hg | hg
      · exact hp g hg
      · rw [List.mem_singleton.mp hg]
        exact hnew hacc hclose.1
    · have hsame : (if q.startsGop f = true then
          if q.current.hasMedia = true then { q with gops := q.gops ++ [q.current], current := {} }
          else q else q) = q := by
        split
        · rename_i hs
          exact if_neg fun hm => hclose ⟨hs, hm⟩
        · rfl
      rw [hsame, pushFrame_allGops] at hg
      rcases List.mem_append.mp hg with hg | hg
      · exact hp g (List.mem_append_left _ hg)
      · rw [List.mem_singleton.mp hg]
        exact hback hacc hclose

end GopQueue

end SeastarLive
