/-
SeastarLive.Frame.FrameQueueCaches — what a frame queue caches against what it holds.

`frame_queue_t` of `src/frame/frame_queue.hh` keeps its first and latest metadata and media
frames, the dts at both ends and the bytes beside the frames. `FrameQueue.Cached` says that
these are the values of the frames, and that no two metadata frames are adjacent.

* `pushBack_cached_iff`, `pushFront_cached_iff`: when an insertion keeps this. A metadata
  frame that takes the place of the only one of a queue leaves the cache of the other end
  behind, and a media frame of dts -1 is taken for no media frame.
* `frameQueue_caches`: any number of queues that are filled, emptied and moved.

An object is not moved into itself. Frames are compared by value.
-/
import SeastarLive.Frame.GopAggregates

namespace SeastarLive

open Flv HeaderStream

/-! ## The metadata of a list of frames -/

def firstMetadata (frames : List Frame) : Option Frame := frames.find? Frame.isMetadata

def lastMetadata (frames : List Frame) : Option Frame := frames.reverse.find? Frame.isMetadata

@[simp] theorem firstMetadata_nil : firstMetadata [] = none := rfl

@[simp] theorem firstMetadata_cons (f : Frame) (xs : List Frame) :
    firstMetadata (f :: xs) = if f.isMetadata then some f else firstMetadata xs := by
  unfold firstMetadata
  rw [List.find?_cons]
  cases f.isMetadata <;> rfl

@[simp] theorem firstMetadata_append (xs ys : List Frame) :
    firstMetadata (xs ++ ys) = (firstMetadata xs).or (firstMetadata ys) := by
  simp [firstMetadata, List.find?_append]

@[simp] theorem lastMetadata_nil : lastMetadata [] = none := rfl

@[simp] theorem lastMetadata_append (xs ys : List Frame) :
    lastMetadata (xs ++ ys) = (lastMetadata ys).or (lastMetadata xs) := by
  simp [lastMetadata, List.find?_append]

@[simp] theorem lastMetadata_singleton (f : Frame) :
    lastMetadata [f] = if f.isMetadata then some f else none := by
  unfold lastMetadata
  cases f <;> rfl

@[simp] theorem lastMetadata_cons (f : Frame) (xs : List Frame) :
    lastMetadata (f :: xs) = (lastMetadata xs).or (if f.isMetadata then some f else none) := by
  rw [← lastMetadata_singleton, ← lastMetadata_append, List.singleton_append]

namespace FrameQueue

/-- The cached values are those of the frames, and no two metadata frames are adjacent. -/
structure Cached (q : FrameQueue) : Prop where
  firstMetadata : q.firstMetadataFrame = firstMetadata q.queue
  latestMetadata : q.latestMetadataFrame = lastMetadata q.queue
  firstMedia : q.firstMediaFrame = firstMedia q.queue
  latestMedia : q.latestMediaFrame = lastMedia q.queue
  startDts : q.startDts = Frame.dtsOf (SeastarLive.firstMedia q.queue)
  endDts : q.endDts = Frame.dtsOf (lastMedia q.queue)
  bytes : q.bytes = (q.queue.map Frame.mediaSize).sum
  separated : Separated Frame.isMetadata q.queue

theorem Cached.empty : Cached {} := ⟨rfl, rfl, rfl, rfl, rfl, rfl, rfl, List.isChain_nil⟩

/-- The insertion at the end keeps the caches. -/
def PushBackFits (q : FrameQueue) : Frame → Prop
  | .media m => q.hasMedia = true → q.startDts = -1 → m.dts = -1
  | .metadata m => q.endWithMetadata = true → q.queue.dropLast ≠ [] →
      (SeastarLive.firstMetadata q.queue.dropLast).isSome
        ∨ q.firstMetadataFrame = some (.metadata m)
  | .script _ => True

/-- The insertion at the front keeps the caches. -/
def PushFrontFits (q : FrameQueue) : Frame → Prop
  | .media m => q.hasMedia = true → q.endDts = -1 → m.dts = -1
  | .metadata m => q.startWithMetadata = true →
      (lastMetadata (q.queue.drop 1)).isSome ∨ q.latestMetadataFrame = some (.metadata m)
  | .script _ => True

instance (q : FrameQueue) (f : Frame) : Decidable (q.PushBackFits f) := by
  cases f <;> unfold PushBackFits <;> infer_instance

instance (q : FrameQueue) (f : Frame) : Decidable (q.PushFrontFits f) := by
  cases f <;> unfold PushFrontFits <;> infer_instance

/-! ## Insertion at the end -/

section Insertion

variable {q : FrameQueue} (hq : q.Cached)

/-- The dts that an end keeps beside a media frame, and the dts it should have. -/
theorem dts_cached_iff (f : Option Frame) (m : Media) :
    (if Frame.dtsOf f = -1 then m.dts else Frame.dtsOf f)
        = Frame.dtsOf (f.or (some (.media m)))
      ↔ (f.isSome = true → Frame.dtsOf f = -1 → m.dts = -1) := by
  cases f with
  | none => simp [Frame.dtsOf]
  | some f => by_cases h : Frame.dtsOf (some f) = -1 <;> simp [h]

include hq in
theorem pushBack_media_cached_iff (m : Media) :
    (q.pushBack (.media m)).Cached ↔ q.PushBackFits (.media m) := by
  have hstart := dts_cached_iff (SeastarLive.firstMedia q.queue) m
  rw [← hq.startDts, ← hq.firstMedia] at hstart
  have hfirst : SeastarLive.firstMedia (q.queue ++ [.media m])
      = q.firstMediaFrame.or (some (.media m)) := by
    rw [firstMedia_append, firstMedia_singleton, hq.firstMedia]
  constructor
  · intro h
    exact hstart.mp (hfirst ▸ h.startDts)
  · intro hfits
    refine ⟨?_, ?_, hfirst.symm, ?_, ?_, ?_, ?_, ?_⟩
    · simp [pushBack, hq.firstMetadata]
    · simp [pushBack, hq.latestMetadata]
    · simp [pushBack, lastMedia_append]
    · exact (hstart.mpr hfits).trans (congrArg Frame.dtsOf hfirst.symm)
    · simp [pushBack, lastMedia_append, Frame.dtsOf]
    · simp [pushBack, hq.bytes, Frame.mediaSize]
    · exact separated_concat Frame.isMetadata hq.separated (by simp)

include hq in
/-- A metadata frame at the end leaves the first metadata frame in doubt, and nothing else. -/
theorem pushBack_metadata_cached_iff_first (m : Metadata) :
    (q.pushBack (.metadata m)).Cached
      ↔ (q.pushBack (.metadata m)).firstMetadataFrame
        = SeastarLive.firstMetadata (q.pushBack (.metadata m)).queue := by
  obtain ⟨hmedia, hlast, hsize⟩ := pushCollapse_metadata q.queue m
  rw [← pushBack_queue] at hmedia hlast hsize
  refine ⟨fun h => h.firstMetadata, fun hfirst => ⟨hfirst, ?_, ?_, ?_, ?_, ?_, ?_, ?_⟩⟩
  · simp [pushBack]
  · exact hq.firstMedia.trans hmedia.symm
  · exact hq.latestMedia.trans hlast.symm
  · exact hq.startDts.trans (congrArg Frame.dtsOf hmedia.symm)
  · exact hq.endDts.trans (congrArg Frame.dtsOf hlast.symm)
  · exact hq.bytes.trans hsize.symm
  · rw [pushBack_queue]
    exact separated_pushCollapse Frame.isMetadata hq.separated (.metadata m)

include hq in
theorem pushBack_metadata_cached_iff (m : Metadata) :
    (q.pushBack (.metadata m)).Cached ↔ q.PushBackFits (.metadata m) := by
  rw [pushBack_metadata_cached_iff_first hq m]
  by_cases hend : q.endWithMetadata = true
  · obtain ⟨y, hy, hyh⟩ := (endsWithHeader_iff Frame.isMetadata q.queue).mp hend
    have hsplit := List.dropLast_append_getLast? y hy
    have hold : q.firstMetadataFrame
        = (SeastarLive.firstMetadata q.queue.dropLast).or (some y) := by
      rw [hq.firstMetadata, ← hsplit]
      simp [hyh]
    simp only [pushBack, PushBackFits, hend, if_true, hold, firstMetadata_append]
    cases q.queue.dropLast with
    | nil => simp
    | cons x xs => cases SeastarLive.firstMetadata (x :: xs) <;> simp
  · have hbody : q.PushBackFits (.metadata m) := fun h => absurd h hend
    refine iff_of_true ?_ hbody
    simp only [pushBack, if_neg hend, hq.firstMetadata, firstMetadata_append]
    cases q.queue with
    | nil => simp
    | cons x xs => cases SeastarLive.firstMetadata (x :: xs) <;> simp

include hq in
/-- An insertion at the end keeps the caches exactly where it fits. -/
theorem pushBack_cached_iff (f : Frame) : (q.pushBack f).Cached ↔ q.PushBackFits f := by
  cases f with
  | media m => exact pushBack_media_cached_iff hq m
  | metadata m => exact pushBack_metadata_cached_iff hq m
  | script x =>
      refine iff_of_true ⟨?_, ?_, ?_, ?_, ?_, ?_, ?_, ?_⟩ trivial
      · simp [pushBack, hq.firstMetadata]
      · simp [pushBack, hq.latestMetadata]
      · simp [pushBack, hq.firstMedia, SeastarLive.firstMedia]
      · simp [pushBack, hq.latestMedia, lastMedia]
      · simp [pushBack, hq.startDts, SeastarLive.firstMedia]
      · simp [pushBack, hq.endDts, lastMedia]
      · simp [pushBack, hq.bytes, Frame.mediaSize]
      · exact separated_concat Frame.isMetadata hq.separated (by simp)

/-! ## Insertion at the front -/

/-- A queue that starts with metadata. -/
theorem startWithMetadata_iff :
    q.startWithMetadata = true ↔ ∃ y ys, q.queue = .metadata y :: ys := by
  unfold startWithMetadata
  cases q.queue with
  | nil => simp
  | cons f ys => cases f <;> simp

theorem lastMedia_cons_media (m : Media) (xs : List Frame) :
    lastMedia (.media m :: xs) = (lastMedia xs).or (some (.media m)) := by
  rw [← lastMedia_singleton, ← lastMedia_append, List.singleton_append]

include hq in
/-- The frames behind an insertion of a media frame: it is the first one of its kind, behind a
    metadata frame at the front. -/
theorem pushFront_media_frames (m : Media) {frames : List Frame}
    (hframes : (q.pushFront (.media m)).queue = frames) :
    firstMetadata frames = firstMetadata q.queue ∧ lastMetadata frames = lastMetadata q.queue
      ∧ firstMedia frames = some (.media m)
      ∧ lastMedia frames = (lastMedia q.queue).or (some (.media m))
      ∧ (frames.map Frame.mediaSize).sum = (q.queue.map Frame.mediaSize).sum + m.size
      ∧ Separated Frame.isMetadata frames := by
  have hseparated := hq.separated
  by_cases hstart : q.startWithMetadata = true
  · obtain ⟨y, ys, hqueue⟩ := startWithMetadata_iff.mp hstart
    rw [hqueue] at hseparated ⊢
    have hrest := (List.isChain_cons.mp hseparated).2
    simp only [pushFront, hstart, if_true, hqueue] at hframes
    subst hframes
    refine ⟨?_, ?_, ?_, ?_, ?_, ?_⟩
    · simp
    · simp
    · rfl
    · simp [lastMedia_cons_media]
    · simp [Frame.mediaSize]
      omega
    · refine List.isChain_cons.mpr ⟨by simp, List.isChain_cons.mpr ⟨by simp, hrest⟩⟩
  · simp only [pushFront, if_neg hstart] at hframes
    subst hframes
    refine ⟨?_, ?_, ?_, ?_, ?_, ?_⟩
    · simp
    · simp
    · rfl
    · exact lastMedia_cons_media m q.queue
    · simp [Frame.mediaSize]
      omega
    · exact List.isChain_cons.mpr ⟨by simp, hseparated⟩

include hq in
theorem pushFront_media_cached_iff (m : Media) :
    (q.pushFront (.media m)).Cached ↔ q.PushFrontFits (.media m) := by
  obtain ⟨hmetadata, hlastMetadata, hfirst, hlast, hsize, hseparated⟩ :=
    pushFront_media_frames hq m rfl
  have hend := dts_cached_iff (lastMedia q.queue) m
  rw [← hq.endDts, ← hlast] at hend
  have hhas : q.hasMedia = (lastMedia q.queue).isSome := by
    rw [hasMedia, hq.firstMedia]
    exact Bool.eq_iff_iff.mpr (by simp [SeastarLive.firstMedia, lastMedia])
  rw [← hhas] at hend
  constructor
  · intro h
    exact hend.mp h.endDts
  · intro hfits
    refine ⟨?_, ?_, hfirst.symm, ?_, ?_, hend.mpr hfits, ?_, hseparated⟩
    · exact hq.firstMetadata.trans hmetadata.symm
    · exact hq.latestMetadata.trans hlastMetadata.symm
    · rw [hlast, ← hq.latestMedia]
      rfl
    · rw [hfirst]
      rfl
    · rw [hsize, ← hq.bytes]
      rfl

include hq in
/-- The frames behind an insertion of a metadata frame: nothing changes but the metadata at the
    front. -/
theorem pushFront_metadata_frames (m : Metadata) {frames : List Frame}
    (hframes : (q.pushFront (.metadata m)).queue = frames) :
    firstMetadata frames = some (.metadata m) ∧ firstMedia frames = firstMedia q.queue
      ∧ lastMedia frames = lastMedia q.queue
      ∧ (frames.map Frame.mediaSize).sum = (q.queue.map Frame.mediaSize).sum
      ∧ Separated Frame.isMetadata frames := by
  have hseparated := hq.separated
  by_cases hstart : q.startWithMetadata = true
  · obtain ⟨y, ys, hqueue⟩ := startWithMetadata_iff.mp hstart
    rw [hqueue] at hseparated ⊢
    obtain ⟨hnext, hrest⟩ := List.isChain_cons.mp hseparated
    simp only [pushFront, hstart, if_true, hqueue] at hframes
    subst hframes
    refine ⟨by simp, by simp, by simp, by simp [Frame.mediaSize], ?_⟩
    exact List.isChain_cons.mpr ⟨fun f hf => by simpa using hnext f hf, hrest⟩
  · rw [pushFront_metadata_queue (Bool.eq_false_iff.mpr hstart)] at hframes
    subst hframes
    refine ⟨by simp, by simp, by simp, by simp [Frame.mediaSize], ?_⟩
    refine List.isChain_cons.mpr ⟨fun f hf hboth => ?_, hseparated⟩
    exact hstart (by simp [startWithMetadata, Option.mem_def.mp hf, hboth.2])

include hq in
/-- At the front it is the latest one that is in doubt. -/
theorem pushFront_metadata_cached_iff_latest (m : Metadata) :
    (q.pushFront (.metadata m)).Cached
      ↔ (q.pushFront (.metadata m)).latestMetadataFrame
        = lastMetadata (q.pushFront (.metadata m)).queue := by
  obtain ⟨hfirst, hmedia, hlast, hsize, hseparated⟩ := pushFront_metadata_frames hq m rfl
  refine ⟨fun h => h.latestMetadata, fun hlatest =>
    ⟨hfirst.symm, hlatest, ?_, ?_, ?_, ?_, ?_, hseparated⟩⟩
  · exact hq.firstMedia.trans hmedia.symm
  · exact hq.latestMedia.trans hlast.symm
  · exact hq.startDts.trans (congrArg Frame.dtsOf hmedia.symm)
  · exact hq.endDts.trans (congrArg Frame.dtsOf hlast.symm)
  · exact hq.bytes.trans hsize.symm

include hq in
theorem pushFront_metadata_cached_iff (m : Metadata) :
    (q.pushFront (.metadata m)).Cached ↔ q.PushFrontFits (.metadata m) := by
  rw [pushFront_metadata_cached_iff_latest hq m]
  by_cases hstart : q.startWithMetadata = true
  · obtain ⟨y, ys, hqueue⟩ := startWithMetadata_iff.mp hstart
    simp only [pushFront, PushFrontFits, hstart, if_true, hq.latestMetadata, hqueue]
    cases hlast : lastMetadata ys <;> simp [hlast]
  · have hbody : q.PushFrontFits (.metadata m) := fun h => absurd h hstart
    refine iff_of_true ?_ hbody
    simp [pushFront, hstart, hq.latestMetadata]

include hq in
/-- An insertion at the front keeps the caches exactly where it fits. -/
theorem pushFront_cached_iff (f : Frame) : (q.pushFront f).Cached ↔ q.PushFrontFits f := by
  cases f with
  | media m => exact pushFront_media_cached_iff hq m
  | metadata m => exact pushFront_metadata_cached_iff hq m
  | script x => exact iff_of_true hq trivial

end Insertion

/-! ## Moves -/

/-- The move constructor: the new queue, and what is left of `x`, whose vector and pointers
    were moved. -/
def moveConstruct (x : FrameQueue) : FrameQueue × FrameQueue :=
  ({  queue := x.queue
      firstMediaFrame := x.firstMediaFrame
      latestMediaFrame := x.latestMediaFrame
      firstMetadataFrame := x.firstMetadataFrame
      latestMetadataFrame := x.latestMetadataFrame
      bytes := x.bytes
      startDts := x.startDts
      endDts := x.endDts },
    { startDts := -1, endDts := -1, bytes := 0 })

/-- The move assignment to `q`, and what is left of `x`. -/
def moveAssign (q x : FrameQueue) : FrameQueue × FrameQueue :=
  ({ q with
      queue := x.queue
      firstMediaFrame := x.firstMediaFrame
      latestMediaFrame := x.latestMediaFrame
      firstMetadataFrame := x.firstMetadataFrame
      latestMetadataFrame := x.latestMetadataFrame
      startDts := x.startDts
      endDts := x.endDts
      bytes := x.bytes },
    { startDts := -1, endDts := -1, bytes := 0 })

end FrameQueue

/-! ## Runs -/

/-- What is done to some queues; a move goes to the first from the second. -/
inductive QueueOp
  | pushBack (i : Nat) (f : Frame)
  | pushFront (i : Nat) (f : Frame)
  | popAll (i : Nat)
  | clear (i : Nat)
  | moveConstruct (i j : Nat)
  | moveAssign (i j : Nat)
deriving DecidableEq

namespace QueueOp

def enabled : QueueOp → Prop
  | .moveConstruct i j => i ≠ j
  | .moveAssign i j => i ≠ j
  | _ => True

def apply (queues : Nat → FrameQueue) : QueueOp → Nat → FrameQueue
  | .pushBack i f => Function.update queues i ((queues i).pushBack f)
  | .pushFront i f => Function.update queues i ((queues i).pushFront f)
  | .popAll i => Function.update queues i (queues i).popAll.2
  | .clear i => Function.update queues i (queues i).clear
  | .moveConstruct i j =>
      let moved := (queues j).moveConstruct
      Function.update (Function.update queues i moved.1) j moved.2
  | .moveAssign i j =>
      let moved := (queues i).moveAssign (queues j)
      Function.update (Function.update queues i moved.1) j moved.2

instance (a : QueueOp) : Decidable a.enabled := by
  cases a <;> unfold enabled <;> infer_instance

/-- The operation keeps the caches. -/
def Fits (queues : Nat → FrameQueue) : QueueOp → Prop
  | .pushBack i f => (queues i).PushBackFits f
  | .pushFront i f => (queues i).PushFrontFits f
  | _ => True

instance (queues : Nat → FrameQueue) (a : QueueOp) : Decidable (a.Fits queues) := by
  cases a <;> unfold Fits <;> infer_instance

end QueueOp

/-- Queues that are filled, emptied and moved in any order. -/
def frameQueues : Machine (Nat → FrameQueue) QueueOp Empty where
  init := fun _ => {}
  enabled _ a := a.enabled
  step queues a := .ok (a.apply queues)

instance (queues : Nat → FrameQueue) (a : QueueOp) : Decidable (frameQueues.enabled queues a) :=
  inferInstanceAs (Decidable a.enabled)

/-- Queues with good caches have good caches after an operation exactly where it fits. -/
theorem apply_cached_iff {queues : Nat → FrameQueue} (h : ∀ i, (queues i).Cached) (a : QueueOp) :
    (∀ i, (a.apply queues i).Cached) ↔ a.Fits queues := by
  have hupdate : ∀ i q, (∀ k, (Function.update queues i q k).Cached) ↔ q.Cached := by
    intro i q
    rw [Function.forall_update_iff queues fun _ q => FrameQueue.Cached q]
    exact and_iff_left fun k _ => h k
  cases a with
  | pushBack i f => exact (hupdate i _).trans (FrameQueue.pushBack_cached_iff (h i) f)
  | pushFront i f => exact (hupdate i _).trans (FrameQueue.pushFront_cached_iff (h i) f)
  | popAll i => exact iff_of_true ((hupdate i _).mpr FrameQueue.Cached.empty) trivial
  | clear i => exact iff_of_true ((hupdate i _).mpr FrameQueue.Cached.empty) trivial
  | moveConstruct i j =>
      refine iff_of_true ?_ trivial
      refine (Function.forall_update_iff _ fun _ q => FrameQueue.Cached q).mpr
        ⟨.empty, fun k _ => ?_⟩
      exact (hupdate i (queues j)).mpr (h j) k
  | moveAssign i j =>
      refine iff_of_true ?_ trivial
      refine (Function.forall_update_iff _ fun _ q => FrameQueue.Cached q).mpr
        ⟨.empty, fun k _ => ?_⟩
      exact (hupdate i (queues j)).mpr (h j) k

theorem frameQueues_cached {queues : Nat → FrameQueue}
    (hs : (frameQueues.restrict fun queues a => a.Fits queues).Reachable queues) :
    ∀ i, (queues i).Cached := by
  refine hs.invariant (P := fun queues => ∀ i, (queues i).Cached)
    (fun _ => FrameQueue.Cached.empty) ?_
  intro queues a queues' h henabled hrun
  cases hrun
  exact (apply_cached_iff h a).mpr henabled.2

/-- While every insertion fits, the caches of every queue are those of its frames. An insertion
    that does not fit leaves a queue with other caches. -/
theorem frameQueue_caches (queues : Nat → FrameQueue)
    (hs : (frameQueues.restrict fun queues a => a.Fits queues).Reachable queues) :
    (∀ i, (queues i).Cached)
    ∧ ∀ a queues', frameQueues.enabled queues a → frameQueues.step queues a = .ok queues' →
        ¬ a.Fits queues → ∃ i, ¬ (queues' i).Cached := by
  have hcached := frameQueues_cached hs
  refine ⟨hcached, ?_⟩
  intro a queues' _ hrun hfits
  cases hrun
  refine not_forall.mp fun hall => hfits ?_
  exact (apply_cached_iff hcached a).mp hall

/-- Metadata of a stereo stream. -/
def stereoMetadata : Metadata := { audio := { channelCount := 2 } }

/-- A metadata frame and a media frame; and a media frame and two metadata frames. -/
theorem frameQueue_caches_stereo :
    (∃ queues, (frameQueues.restrict fun queues a => a.Fits queues).Reachable queues
      ∧ (queues 0).queue = [.metadata {}, .media {}] ∧ (queues 0).Cached)
    ∧ ∃ queues, (queues 0).queue = [.media {}, .metadata {}]
      ∧ ∃ i, ¬ ((QueueOp.pushBack 0 (.metadata stereoMetadata)).apply queues i).Cached := by
  constructor
  · obtain ⟨queues, hs, hp⟩ := Machine.reachable_of_runs
      (M := frameQueues.restrict fun queues a => a.Fits queues)
      (p := fun queues => decide ((queues 0).queue = [.metadata {}, .media {}]))
      [.pushBack 0 (.metadata {}), .pushBack 0 (.media {})] (by decide)
    exact ⟨queues, hs, of_decide_eq_true hp, (frameQueue_caches queues hs).1 0⟩
  · obtain ⟨queues, hs, hp⟩ := Machine.reachable_of_runs
      (M := frameQueues.restrict fun queues a => a.Fits queues)
      (p := fun queues => decide ((queues 0).queue = [.media {}, .metadata {}]
        ∧ ¬ (QueueOp.pushBack 0 (.metadata stereoMetadata)).Fits queues))
      [.pushBack 0 (.media {}), .pushBack 0 (.metadata {})] (by decide)
    obtain ⟨hqueue, hfits⟩ := of_decide_eq_true hp
    exact ⟨queues, hqueue, (frameQueue_caches queues hs).2
      (.pushBack 0 (.metadata stereoMetadata)) _ trivial rfl hfits⟩

/-- A media frame and two metadata frames: the first metadata frame that is cached is not in
    the queue. -/
theorem frameQueue_caches_stale :
    ∃ queues, frameQueues.Reachable queues ∧ ∃ i, ¬ (queues i).Cached := by
  obtain ⟨queues, hs, hp⟩ := Machine.reachable_of_runs (M := frameQueues)
    (p := fun queues => decide ((queues 0).firstMetadataFrame ≠ firstMetadata (queues 0).queue))
    [.pushBack 0 (.media {}), .pushBack 0 (.metadata {}), .pushBack 0 (.metadata stereoMetadata)]
    (by decide)
  exact ⟨queues, hs, 0, fun h => of_decide_eq_true hp h.firstMetadata⟩

end SeastarLive
