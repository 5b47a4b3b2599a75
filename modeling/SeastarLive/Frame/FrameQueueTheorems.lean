/-
SeastarLive.Frame.FrameQueueTheorems — what the frame queue does to its frames.

`push_back` is the collapsing append of `Lib.HeaderStream`, with metadata
frames as headers. `FrameQueue.Wf` says what the cached pointers stand for
in the states the caches reach: the latest metadata frame and the first and
last media frames are those of the queue. Nothing is said of the first
metadata frame beyond its presence; a collapse can leave it behind.
-/
import SeastarLive.Frame.FrameQueue
import SeastarLive.Lib.HeaderStream

namespace SeastarLive

open Flv HeaderStream

namespace FrameQueue

/-! ## Push -/

theorem endWithMetadata_eq (q : FrameQueue) :
    q.endWithMetadata = endsWithHeader Frame.isMetadata q.queue := rfl

@[simp] theorem pushBack_queue (q : FrameQueue) (f : Frame) :
    (q.pushBack f).queue = pushCollapse Frame.isMetadata q.queue f := by
  cases f with
  | media m => simp [pushBack, pushCollapse]
  | metadata m =>
      simp only [pushBack, pushCollapse, endWithMetadata_eq, Frame.isMetadata, Bool.true_and]
      by_cases hend : endsWithHeader Frame.isMetadata q.queue <;> simp [hend]
  | script s => simp [pushBack, pushCollapse]

@[simp] theorem pushBack_media_firstMetadataFrame (q : FrameQueue) (m : Media) :
    (q.pushBack (.media m)).firstMetadataFrame = q.firstMetadataFrame := rfl

/-- A metadata frame pushed on a queue without other frames is its first one. -/
theorem pushBack_metadata_first {q : FrameQueue} (hq : q.empty ∨ q.onlyMetadata)
    (m : Metadata) : (q.pushBack (.metadata m)).firstMetadataFrame = some (.metadata m) := by
  obtain hq | hq := hq
  · have hnil : q.queue = [] := List.isEmpty_iff.mp hq
    simp [pushBack, endWithMetadata, hnil]
  · simp only [onlyMetadata, Bool.and_eq_true, beq_iff_eq] at hq
    obtain ⟨x, hx⟩ := List.length_eq_one_iff.mp hq.1
    have hxm : x.isMetadata = true := by simpa [hx] using hq.2
    simp [pushBack, endWithMetadata, hx, hxm]

/-- `push_front` of a metadata frame restarts the queue with it. -/
theorem pushFront_metadata_queue {q : FrameQueue} (hq : q.startWithMetadata = false)
    (m : Metadata) : (q.pushFront (.metadata m)).queue = .metadata m :: q.queue := by
  simp [pushFront, hq]

/-! ## The cached pointers -/

/-- What the cached pointers of a queue of metadata and media frames stand for. -/
structure Wf (q : FrameQueue) : Prop where
  latestMetadata : q.latestMetadataFrame = latest Frame.isMetadata none q.queue
  firstMetadata : q.firstMetadataFrame.isSome = q.latestMetadataFrame.isSome
  firstMetadata_kind : ∀ f ∈ q.firstMetadataFrame, f.isMetadata = true
  firstMedia : q.firstMediaFrame = q.queue.find? Frame.isMedia
  latestMedia : q.latestMediaFrame = q.queue.reverse.find? Frame.isMedia

theorem Wf.empty : Wf {} := ⟨rfl, rfl, by simp, rfl, rfl⟩

/-- The media frames at both ends survive the loss of a metadata frame at the end. -/
theorem find?_isMedia_dropLast {q : FrameQueue} (hq : q.endWithMetadata = true) :
    q.queue.dropLast.find? Frame.isMedia = q.queue.find? Frame.isMedia
      ∧ q.queue.dropLast.reverse.find? Frame.isMedia
          = q.queue.reverse.find? Frame.isMedia := by
  obtain ⟨y, hy, hym⟩ := (endsWithHeader_iff Frame.isMetadata q.queue).mp hq
  have hmedia := Frame.isMedia_eq_false_of_isMetadata hym
  have hsplit := List.dropLast_append_getLast? y hy
  constructor
  · conv_rhs => rw [← hsplit]
    simp [List.find?_append, hmedia]
  · conv_rhs => rw [← hsplit]
    simp [hmedia]

theorem Wf.pushBack {q : FrameQueue} (hq : Wf q) (f : Frame) : Wf (q.pushBack f) where
  latestMetadata := by
    rw [pushBack_queue, latest_pushCollapse, latest_append, ← hq.latestMetadata]
    cases f <;> rfl
  firstMetadata := by
    cases f with
    | media m => exact hq.firstMetadata
    | script s => exact hq.firstMetadata
    | metadata m =>
        simp only [FrameQueue.pushBack, Option.isSome_some]
        cases hfirst : q.firstMetadataFrame with
        | none => simp
        | some x => split <;> split <;> rfl
  firstMetadata_kind := by
    cases f with
    | media m => exact hq.firstMetadata_kind
    | script s => exact hq.firstMetadata_kind
    | metadata m =>
        simp only [FrameQueue.pushBack]
        generalize (if q.endWithMetadata then q.queue.dropLast else q.queue) = queue
        split
        · simp
        · exact hq.firstMetadata_kind
  firstMedia := by
    cases f with
    | media m => simp [FrameQueue.pushBack, hq.firstMedia, List.find?_append]
    | script s => simp [FrameQueue.pushBack, hq.firstMedia, List.find?_append]
    | metadata m =>
        simp only [FrameQueue.pushBack, hq.firstMedia]
        split
        · rename_i hend
          simp [List.find?_append, (find?_isMedia_dropLast hend).1]
        · simp [List.find?_append]
  latestMedia := by
    cases f with
    | media m => simp [FrameQueue.pushBack, List.find?_cons]
    | script s => simp [FrameQueue.pushBack, hq.latestMedia]
    | metadata m =>
        simp only [FrameQueue.pushBack, hq.latestMedia]
        split
        · rename_i hend
          simp [(find?_isMedia_dropLast hend).2]
        · simp

theorem Wf.pushFront_metadata {q : FrameQueue} (hq : Wf q)
    (hs : q.startWithMetadata = false) (m : Metadata) :
    Wf (q.pushFront (.metadata m)) where
  latestMetadata := by
    rw [pushFront_metadata_queue hs]
    simp only [pushFront, hq.latestMetadata, latest, Frame.isMetadata, if_true]
    exact (latest_eq_or Frame.isMetadata (some (.metadata m)) q.queue).symm
  firstMetadata := by
    simp [pushFront]
  firstMetadata_kind := by
    simp [pushFront]
  firstMedia := by
    rw [pushFront_metadata_queue hs]
    simpa [pushFront] using hq.firstMedia
  latestMedia := by
    rw [pushFront_metadata_queue hs]
    simpa [pushFront] using hq.latestMedia

theorem Wf.hasMedia_iff {q : FrameQueue} (hq : Wf q) :
    q.hasMedia = true ↔ ∃ m, Frame.media m ∈ q.queue := by
  rw [hasMedia, hq.firstMedia, List.find?_isSome]
  constructor
  · rintro ⟨f, hf, hfm⟩
    cases f with
    | media m => exact ⟨m, hf⟩
    | metadata m => cases hfm
    | script s => cases hfm
  · rintro ⟨m, hm⟩
    exact ⟨_, hm, rfl⟩

/-- A queue of one metadata frame has no media. -/
theorem Wf.hasMedia_of_onlyMetadata {q : FrameQueue} (hq : q.Wf) (honly : q.onlyMetadata = true) :
    q.hasMedia = false := by
  refine Bool.eq_false_iff.mpr fun hmedia => ?_
  obtain ⟨x, hx⟩ := hq.hasMedia_iff.mp hmedia
  simp only [onlyMetadata, Bool.and_eq_true, beq_iff_eq] at honly
  obtain ⟨y, hy⟩ := List.length_eq_one_iff.mp honly.1
  have hkind : y.isMetadata = true := by simpa [hy] using honly.2
  rw [hy, List.mem_singleton] at hx
  rw [← hx] at hkind
  cases hkind

theorem Wf.isMedia_of_first {q : FrameQueue} (hq : q.Wf) {f : Frame}
    (hf : q.firstMediaFrame = some f) : f.isMedia = true := by
  rw [hq.firstMedia] at hf
  exact List.find?_some hf

theorem Wf.isMetadata_of_latest {q : FrameQueue} (hq : q.Wf) {f : Frame}
    (hf : q.latestMetadataFrame = some f) : f.isMetadata = true := by
  rw [hq.latestMetadata] at hf
  rcases latest_mem Frame.isMetadata hf with hnone | ⟨-, hkind⟩
  · cases hnone
  · exact hkind

/-- A queue that starts with metadata has a latest metadata frame. -/
theorem Wf.latest_isSome {q : FrameQueue} (hq : q.Wf) (hs : q.startWithMetadata = true) :
    q.latestMetadataFrame.isSome := by
  obtain ⟨x, hx, hxm⟩ := (Option.any_eq_true _ _).mp hs
  rw [hq.latestMetadata]
  refine Headed.latest_isSome Frame.isMetadata ?_ ?_ none
  · intro y hy
    rw [Option.mem_def, hx] at hy
    cases hy
    exact hxm
  · rintro hnil
    rw [hnil] at hx
    cases hx

end FrameQueue

/-! ## The asynchronous queue -/

namespace AsyncFrameQueue

/-- `notify_not_empty` hands the queued frames over when there are some and a promise is
    held, and does nothing otherwise. -/
theorem notifyNotEmpty_cases (q : AsyncFrameQueue) :
    (q.base.queue = [] ∨ q.notEmpty = false) ∧ q.notifyNotEmpty = (q, none)
      ∨ (q.base.queue ≠ [] ∧ q.notEmpty = true)
        ∧ q.notifyNotEmpty = ({ q with base := {}, notEmpty := false }, some q.base.queue) := by
  unfold notifyNotEmpty FrameQueue.empty
  by_cases hqueue : q.base.queue = []
  · exact .inl ⟨.inl hqueue, by simp [hqueue]⟩
  · cases hpromise : q.notEmpty with
    | false => exact .inl ⟨.inr rfl, by simp⟩
    | true => exact .inr ⟨⟨hqueue, rfl⟩, by simp [hqueue, FrameQueue.popAll]⟩

/-- `not_empty` is ready at once on a closed queue, and leaves a promise on any other. -/
theorem waitNotEmpty_cases (q : AsyncFrameQueue) :
    q.closed = true ∧ q.waitNotEmpty = (q, some [])
      ∨ q.closed = false ∧ q.waitNotEmpty = ({ q with notEmpty := true }, none) := by
  unfold waitNotEmpty
  by_cases hclosed : q.closed = true
  · exact .inl ⟨hclosed, by simp [hclosed]⟩
  · exact .inr ⟨Bool.eq_false_iff.mpr hclosed, by simp [hclosed]⟩

/-- `close` fulfils a promise that is held with an empty batch. -/
theorem close_cases (q : AsyncFrameQueue) :
    q.notEmpty = false ∧ q.close = (q, none)
      ∨ q.notEmpty = true ∧ q.close = ({ q with notEmpty := false }, some []) := by
  unfold close
  by_cases hpromise : q.notEmpty = true
  · exact .inr ⟨hpromise, by simp [hpromise]⟩
  · exact .inl ⟨Bool.eq_false_iff.mpr hpromise, by simp [hpromise]⟩

end AsyncFrameQueue

end SeastarLive
