/-
SeastarLive.Frame.GopAggregates — the cached aggregates against the frames.

The cache keeps the first and the last dts, the bytes and the frame pointers
at two levels, in each GOP and for the whole. `recompute` reads the same
values off the frames of `all_frames`; `gopQueue_aggregates` says that the
two agree in every state reached with media of `dts >= 0`, which keeps them
apart from the sentinel -1.

* `FrameQueue.Totals` and `FrameQueue.Leads`: what one GOP keeps.
* `GopQueue.Pointed`: what the pointers of the cache are. It asks nothing of
  the dts, and eviction relies on it as well.
-/
import SeastarLive.Frame.GopHistory

namespace SeastarLive

open Flv HeaderStream

/-! ## The values of a list of frames -/

/-- The dts of a media frame, or -1 without one. -/
def Flv.Frame.dtsOf : Option Frame → Int
  | some (.media m) => m.dts
  | _ => -1

/-- The bytes a frame adds to the cache. -/
def Flv.Frame.mediaSize : Frame → Nat
  | .media m => m.size
  | .metadata _ => 0
  | .script _ => 0

def firstMedia (frames : List Frame) : Option Frame := frames.find? Frame.isMedia

def lastMedia (frames : List Frame) : Option Frame := frames.reverse.find? Frame.isMedia

/-- The aggregates of a cache. -/
structure Aggregates where
  startDts : Int
  endDts : Int
  duration : Rat
  bytes : Nat
  firstMediaFrame : Option Frame
  latestMediaFrame : Option Frame
  firstMetadataFrame : Option Frame
deriving DecidableEq

/-- The aggregates of the frames a cache holds. -/
def recompute (frames : List Frame) : Aggregates where
  startDts := Frame.dtsOf (firstMedia frames)
  endDts := Frame.dtsOf (lastMedia frames)
  duration :=
    match firstMedia frames, lastMedia frames with
    | some first, some last =>
        ((Frame.dtsOf (some last) - Frame.dtsOf (some first) : Int) : Rat) / 1000
    | _, _ => 0
  bytes := (frames.map Frame.mediaSize).sum
  firstMediaFrame := firstMedia frames
  latestMediaFrame := lastMedia frames
  firstMetadataFrame := frames.find? Frame.isMetadata

/-- The aggregates as the cache reports them. -/
def GopQueue.aggregates (q : GopQueue) : Aggregates where
  startDts := q.startDts
  endDts := q.endDts
  duration := q.duration
  bytes := q.bytes
  firstMediaFrame := q.firstMediaFrame
  latestMediaFrame := q.latestMediaFrame
  firstMetadataFrame := q.firstMetadataFrame

theorem firstMedia_append (xs ys : List Frame) :
    firstMedia (xs ++ ys) = (firstMedia xs).or (firstMedia ys) := by
  simp [firstMedia, List.find?_append]

theorem lastMedia_append (xs ys : List Frame) :
    lastMedia (xs ++ ys) = (lastMedia ys).or (lastMedia xs) := by
  simp [lastMedia, List.find?_append]

@[simp] theorem firstMedia_nil : firstMedia [] = none := rfl
@[simp] theorem lastMedia_nil : lastMedia [] = none := rfl

@[simp] theorem firstMedia_singleton (m : Media) : firstMedia [.media m] = some (.media m) := rfl
@[simp] theorem lastMedia_singleton (m : Media) : lastMedia [.media m] = some (.media m) := rfl

/-- A metadata frame in front changes neither end of the media. -/
@[simp] theorem firstMedia_metadata (m : Metadata) (xs : List Frame) :
    firstMedia (.metadata m :: xs) = firstMedia xs := rfl

@[simp] theorem lastMedia_metadata (m : Metadata) (xs : List Frame) :
    lastMedia (.metadata m :: xs) = lastMedia xs := by
  have happend := lastMedia_append [.metadata m] xs
  have hnone : lastMedia [.metadata m] = none := rfl
  simpa [hnone] using happend

theorem isMedia_of_firstMedia {frames : List Frame} {f : Frame} (hf : firstMedia frames = some f) :
    ∃ m, f = .media m ∧ .media m ∈ frames := by
  have hkind := List.find?_some hf
  have hmem := List.mem_of_find?_eq_some hf
  cases f with
  | media m => exact ⟨m, rfl, hmem⟩
  | metadata m => cases hkind
  | script s => cases hkind

/-- A collapsing append of a metadata frame changes neither end of the media, nor the
    bytes. -/
theorem pushCollapse_metadata (xs : List Frame) (m : Metadata) :
    firstMedia (pushCollapse Frame.isMetadata xs (.metadata m)) = firstMedia xs
      ∧ lastMedia (pushCollapse Frame.isMetadata xs (.metadata m)) = lastMedia xs
      ∧ ((pushCollapse Frame.isMetadata xs (.metadata m)).map Frame.mediaSize).sum
          = (xs.map Frame.mediaSize).sum := by
  have hnone : ∀ y : Frame, y.isMetadata = true →
      firstMedia [y] = none ∧ lastMedia [y] = none ∧ y.mediaSize = 0 := by
    intro y hy
    cases y with
    | metadata m => exact ⟨rfl, rfl, rfl⟩
    | media m => cases hy
    | script s => cases hy
  obtain ⟨hfirst, hlast, hsize⟩ := hnone (.metadata m) rfl
  rcases pushCollapse_cases Frame.isMetadata xs (.metadata m) with
    ⟨heq, -⟩ | ⟨ys, y, rfl, hy, -, heq⟩
  · rw [heq]
    simp [firstMedia_append, lastMedia_append, hfirst, hlast, hsize]
  · obtain ⟨hfirst', hlast', hsize'⟩ := hnone y hy
    rw [heq]
    simp [firstMedia_append, lastMedia_append, hfirst, hlast, hsize, hfirst', hlast', hsize']

namespace FrameQueue

/-! ## One GOP -/

/-- The dts and the bytes of a queue are those of its frames. -/
structure Totals (q : FrameQueue) : Prop where
  nonneg : ∀ m, .media m ∈ q.queue → 0 ≤ m.dts
  startDts : q.startDts = Frame.dtsOf (firstMedia q.queue)
  endDts : q.endDts = Frame.dtsOf (lastMedia q.queue)
  bytes : q.bytes = (q.queue.map Frame.mediaSize).sum

theorem Totals.empty : Totals {} := ⟨fun _ h => absurd h List.not_mem_nil, rfl, rfl, rfl⟩

/-- The sentinel says that there is no media. -/
theorem Totals.startDts_eq_neg_one {q : FrameQueue} (hq : Totals q) :
    q.startDts = -1 ↔ firstMedia q.queue = none := by
  rw [hq.startDts]
  constructor
  · intro hdts
    cases hfirst : firstMedia q.queue with
    | none => rfl
    | some f =>
        obtain ⟨m, rfl, hm⟩ := isMedia_of_firstMedia hfirst
        rw [hfirst] at hdts
        have hle := hq.nonneg m hm
        simp only [Frame.dtsOf] at hdts
        omega
  · intro hnone
    rw [hnone]
    rfl

theorem Totals.pushBack_media {q : FrameQueue} (hq : Totals q) {m : Media} (hm : 0 ≤ m.dts) :
    Totals (q.pushBack (.media m)) where
  nonneg := by
    intro x hx
    rcases List.mem_append.mp hx with hx | hx
    · exact hq.nonneg x hx
    · cases List.mem_singleton.mp hx
      exact hm
  startDts := by
    simp only [pushBack, firstMedia_append, firstMedia_singleton]
    by_cases hstart : q.startDts = -1
    · rw [hq.startDts_eq_neg_one.mp hstart, if_pos hstart]
      rfl
    · obtain ⟨f, hf⟩ := Option.ne_none_iff_exists'.mp (mt hq.startDts_eq_neg_one.mpr hstart)
      rw [if_neg hstart, hq.startDts, hf]
      rfl
  endDts := by
    simp [pushBack, lastMedia_append, Frame.dtsOf]
  bytes := by
    simp [pushBack, hq.bytes, Frame.mediaSize]

theorem Totals.pushBack_metadata {q : FrameQueue} (hq : Totals q) (m : Metadata) :
    Totals (q.pushBack (.metadata m)) := by
  obtain ⟨hfirst, hlast, hsize⟩ := pushCollapse_metadata q.queue m
  refine ⟨?_, ?_, ?_, ?_⟩
  · intro x hx
    rw [pushBack_queue] at hx
    refine hq.nonneg x ?_
    rcases pushCollapse_cases Frame.isMetadata q.queue (.metadata m) with
      ⟨heq, -⟩ | ⟨ys, y, hqueue, -, -, heq⟩
    · simpa [heq] using hx
    · rw [hqueue]
      have hx' : .media x ∈ ys := by simpa [heq] using hx
      exact List.mem_append_left _ hx'
  · rw [pushBack_queue, hfirst]
    exact hq.startDts
  · rw [pushBack_queue, hlast]
    exact hq.endDts
  · rw [pushBack_queue, hsize]
    exact hq.bytes

theorem Totals.pushFront_metadata {q : FrameQueue} (hq : Totals q)
    (hs : q.startWithMetadata = false) (m : Metadata) :
    Totals (q.pushFront (.metadata m)) := by
  have hqueue := pushFront_metadata_queue hs m
  refine ⟨?_, ?_, ?_, ?_⟩
  · intro x hx
    rw [hqueue] at hx
    exact hq.nonneg x (by simpa using hx)
  · rw [hqueue, firstMedia_metadata]
    exact hq.startDts
  · rw [hqueue, lastMedia_metadata]
    exact hq.endDts
  · rw [hqueue, List.map_cons, List.sum_cons, Frame.mediaSize, Nat.zero_add]
    exact hq.bytes

/-- The first metadata pointer of a queue that starts with metadata is its first frame. -/
def Leads (q : FrameQueue) : Prop :=
  q.startWithMetadata = true → q.firstMetadataFrame = q.queue.head?

theorem Leads.empty : Leads {} := fun h => by cases h

theorem Leads.pushBack {q : FrameQueue} (hq : Leads q) (f : Frame) : Leads (q.pushBack f) := by
  intro hs
  rw [startWithMetadata, pushBack_queue] at hs
  rw [pushBack_queue]
  -- a queue that keeps its first frame keeps the pointer to it
  have hkept : ∀ x, q.queue.head? = some x →
      (pushCollapse Frame.isMetadata q.queue f).head? = some x →
      (q.pushBack f).firstMetadataFrame = q.firstMetadataFrame →
      (q.pushBack f).firstMetadataFrame
        = (pushCollapse Frame.isMetadata q.queue f).head? := by
    intro x hx hhead hsame
    rw [hhead] at hs
    rw [hsame, hhead, hq (by simpa [startWithMetadata, hx] using hs), hx]
  match hqueue : q.queue with
  | [] =>
      rw [hqueue] at hs
      cases f with
      | metadata m =>
          have hfirst := pushBack_metadata_first (q := q)
            (.inl (by simp [FrameQueue.empty, hqueue])) m
          simp [hfirst, pushCollapse, endsWithHeader]
      | media m => simp [pushCollapse] at hs
      | script s => simp [pushCollapse] at hs
  | [x] =>
      cases f with
      | metadata m =>
          cases hx : x.isMetadata with
          | true =>
              have hfirst := pushBack_metadata_first (q := q)
                (.inr (by simp [onlyMetadata, hqueue, hx])) m
              simp [hfirst, pushCollapse, endsWithHeader, hx]
          | false => simp [hqueue, pushCollapse, endsWithHeader, hx] at hs
      | media m => exact hqueue ▸ hkept x (by simp [hqueue]) (by simp [hqueue, pushCollapse]) rfl
      | script s => exact hqueue ▸ hkept x (by simp [hqueue]) (by simp [hqueue, pushCollapse]) rfl
  | x :: y :: ys =>
      have hhead : (pushCollapse Frame.isMetadata q.queue f).head? = some x := by
        have hsplit := pushCollapse_append Frame.isMetadata (List.cons_ne_nil y ys) [x] f
        rw [List.singleton_append] at hsplit
        rw [hqueue, hsplit]
        rfl
      rw [← hqueue]
      refine hkept x (by simp [hqueue]) hhead ?_
      cases f with
      | media m => rfl
      | script s => rfl
      | metadata m =>
          rw [hhead] at hs
          have hfirst : q.firstMetadataFrame = some x := by
            rw [hq (by simpa [startWithMetadata, hqueue] using hs), hqueue]
            rfl
          simp only [FrameQueue.pushBack, hqueue, hfirst]
          split <;> simp

theorem Leads.pushFront_metadata {q : FrameQueue} (hs : q.startWithMetadata = false)
    (m : Metadata) : Leads (q.pushFront (.metadata m)) := by
  intro _
  rw [pushFront_metadata_queue hs]
  rfl

end FrameQueue

namespace GopQueue

/-! ## The pointers of the cache -/

/-- The pointers of a cache are frames it holds. -/
structure Pointers (q : GopQueue) : Prop where
  leads : ∀ g ∈ q.allGops, g.Leads
  firstMetadata : q.firstMetadataFrame = q.allFrames.head?
  firstMedia : q.firstMediaFrame = SeastarLive.firstMedia q.allFrames
  latestMedia : q.latestMediaFrame = lastMedia q.allFrames

/-- The pointers of a cache between two calls: once a GOP is closed, the current one has
    media. -/
structure Pointed (q : GopQueue) : Prop extends Pointers q where
  current_media : q.gops ≠ [] → q.current.hasMedia = true

theorem Pointed.empty (d : Rat) : Pointed { minCacheDuration := d } where
  leads := by
    intro g hg
    rw [List.mem_singleton.mp hg]
    exact FrameQueue.Leads.empty
  firstMetadata := rfl
  firstMedia := rfl
  latestMedia := rfl
  current_media := fun h => absurd rfl h

theorem Pointers.closeGop {q : GopQueue} (hq : Pointers q) : Pointers q.closeGop := by
  have hall := closeGop_allFrames q
  refine ⟨?_, ?_, ?_, ?_⟩
  · intro g hg
    unfold GopQueue.closeGop at hg
    split at hg
    · rcases List.mem_append.mp hg with hg | hg
      · exact hq.leads g hg
      · rw [List.mem_singleton.mp hg]
        exact FrameQueue.Leads.empty
    · exact hq.leads g hg
  all_goals rw [hall]
  · rw [← hq.firstMetadata]
    unfold GopQueue.closeGop
    split <;> rfl
  · rw [← hq.firstMedia]
    unfold GopQueue.closeGop
    split <;> rfl
  · rw [← hq.latestMedia]
    unfold GopQueue.closeGop
    split <;> rfl

/-- Without closed GOPs the pointers are those of the current GOP. -/
theorem Pointers.pushFrame_first {q : GopQueue} {h : List Frame} (hq : Pointers q) {f : Frame}
    (hgops : q.gops = []) (hinv : Inv (q.pushFrame f) h) : Pointers (q.pushFrame f) := by
  have hall : (q.pushFrame f).allFrames = (q.current.pushBack f).queue := by
    simp [allFrames, hgops]
  have hwf : (q.current.pushBack f).Wf := by simpa using hinv.current_wf
  have hlead : (q.current.pushBack f).Leads :=
    (hq.leads _ (by simp [allGops])).pushBack f
  have hstart : (q.current.pushBack f).startWithMetadata = true := by
    have hheaded := hinv.window.headed
    rw [hall] at hheaded
    have hne : (q.current.pushBack f).queue ≠ [] := by
      rw [FrameQueue.pushBack_queue]
      exact pushCollapse_ne_nil Frame.isMetadata _ f
    obtain ⟨x, xs, hx⟩ := List.exists_cons_of_ne_nil hne
    rw [startWithMetadata_eq, hx]
    rw [hx] at hheaded
    simpa [Headed] using hheaded
  refine ⟨?_, ?_, ?_, ?_⟩
  · intro g hg
    simp only [pushFrame_allGops, hgops, List.nil_append, List.mem_singleton] at hg
    rw [hg]
    exact hlead
  · rw [(pushFrame_of_gops_nil hgops f).2.1, hall]
    exact hlead hstart
  · rw [hall]
    have hfirst : (q.pushFrame f).firstMediaFrame = (q.current.pushBack f).firstMediaFrame := by
      simp [GopQueue.pushFrame, onFrame, hgops]
    rw [hfirst, hwf.firstMedia]
    rfl
  · rw [(pushFrame_of_gops_nil hgops f).2.2, hall, hwf.latestMedia]
    rfl

/-- With closed GOPs the first frames stay. -/
theorem Pointers.pushFrame_later {q : GopQueue} {h : List Frame} (hcore : Core q h)
    (hq : Pointers q) {f : Frame} (hf : f.isScript = false) (hgops : q.gops ≠ [])
    (hcur : q.current.queue = [] → f.isMetadata = false) : Pointers (q.pushFrame f) := by
  have hall := pushFrame_allFrames (q := q) (f := f) fun hnil => .inr (hcur hnil)
  have hempty : q.gops.isEmpty = false := by simpa using hgops
  obtain ⟨front, gops, hcons⟩ := List.exists_cons_of_ne_nil hgops
  obtain ⟨hfwf, hfmedia⟩ := hcore.gops_wf front (by rw [hcons]; exact List.mem_cons_self)
  have hfne := queue_ne_nil_of_hasMedia hfwf hfmedia
  have hhead : (q.pushFrame f).allFrames.head? = q.allFrames.head? := by
    simp [allFrames, hcons, List.head?_append_of_ne_nil _ hfne]
  have hsome : q.firstMetadataFrame.isSome := hcore.firstMetadata (hcore.allFrames_ne_nil hgops)
  have hleads : ∀ g ∈ (q.pushFrame f).allGops, g.Leads := by
    intro g hg
    rw [pushFrame_allGops] at hg
    rcases List.mem_append.mp hg with hg | hg
    · exact hq.leads g (List.mem_append_left _ hg)
    · rw [List.mem_singleton.mp hg]
      exact (hq.leads _ (by simp [allGops])).pushBack f
  cases f with
  | script s => cases hf
  | metadata m =>
      obtain ⟨hfirst, hlast, -⟩ := pushCollapse_metadata q.allFrames m
      refine ⟨hleads, ?_, ?_, ?_⟩
      · rw [hhead, ← hq.firstMetadata]
        obtain ⟨x, hx⟩ := Option.isSome_iff_exists.mp hsome
        simp [GopQueue.pushFrame, onFrame, hempty, hx]
      · rw [hall, hfirst, ← hq.firstMedia]
        simp [GopQueue.pushFrame, onFrame, hempty]
      · rw [hall, hlast, ← hq.latestMedia]
        simp [GopQueue.pushFrame, onFrame, hempty]
  | media m =>
      refine ⟨hleads, ?_, ?_, ?_⟩
      · rw [hhead, ← hq.firstMetadata]
        simp [GopQueue.pushFrame, onFrame, hempty]
      · rw [hall, pushCollapse_body Frame.isMetadata rfl, firstMedia_append, ← hq.firstMedia]
        simp [GopQueue.pushFrame, onFrame, hempty]
      · rw [hall, pushCollapse_body Frame.isMetadata rfl, lastMedia_append]
        simp [GopQueue.pushFrame, onFrame, hempty]

theorem hasMedia_pushBack {g : FrameQueue} {f : Frame}
    (hg : f.isMedia = true ∨ g.hasMedia = true) : (g.pushBack f).hasMedia = true := by
  unfold FrameQueue.hasMedia at hg ⊢
  cases f with
  | media m => simp [FrameQueue.pushBack]
  | metadata m => simpa [FrameQueue.pushBack] using hg
  | script s => simpa [FrameQueue.pushBack] using hg

theorem isMedia_of_body {f : Frame} (hs : f.isScript = false) (hf : f.isMetadata = false) :
    f.isMedia = true := by
  cases f with
  | media m => rfl
  | metadata m => cases hf
  | script s => cases hs

theorem Pointed.placeFrame {q : GopQueue} {h : List Frame} (hinv : Inv q h) (hq : Pointed q)
    {f : Frame} (hf : f.isScript = false) (hhead : q.allFrames = [] → f.isMetadata = true)
    {newGop : Bool} (hnew : newGop = true → f.isMetadata = false) :
    Pointed (q.placeFrame f newGop) := by
  have hinv' := hinv.placeFrame hhead hnew
  cases newGop with
  | false =>
      have hcur : q.gops ≠ [] → q.current.queue = [] → f.isMetadata = false :=
        fun hgops hnil => absurd (hinv.current_nil hnil) hgops
      refine ⟨?_, ?_⟩
      · by_cases hgops : q.gops = []
        · exact hq.toPointers.pushFrame_first hgops hinv'
        · exact Pointers.pushFrame_later hinv.toCore hq.toPointers hf hgops (hcur hgops)
      · intro hgops
        have hgops' : q.gops ≠ [] := by simpa [GopQueue.placeFrame] using hgops
        simpa [GopQueue.placeFrame] using hasMedia_pushBack (.inr (hq.current_media hgops'))
  | true =>
      have hmedia := isMedia_of_body hf (hnew rfl)
      refine ⟨?_, ?_⟩
      · by_cases hgops : q.closeGop.gops = []
        · exact hq.toPointers.closeGop.pushFrame_first hgops hinv'
        · exact Pointers.pushFrame_later hinv.toCore.closeGop hq.toPointers.closeGop hf hgops
            fun _ => hnew rfl
      · intro _
        simpa [GopQueue.placeFrame] using
          hasMedia_pushBack (g := q.closeGop.current) (.inl hmedia)

/-! ## Eviction -/

theorem findSome?_firstMediaFrame {gs : List FrameQueue} (hgs : ∀ g ∈ gs, g.Wf) :
    gs.findSome? FrameQueue.firstMediaFrame = firstMedia (gs.map FrameQueue.queue).flatten := by
  induction gs with
  | nil => rfl
  | cons g gs ih =>
      have hg := (hgs g List.mem_cons_self).firstMedia
      have hrest := ih fun x hx => hgs x (List.mem_cons_of_mem _ hx)
      rw [List.map_cons, List.flatten_cons, firstMedia_append, ← hrest, List.findSome?_cons, hg]
      unfold firstMedia
      cases g.queue.find? Frame.isMedia <;> rfl

theorem Inv.allGops_wf {q : GopQueue} {h : List Frame} (hq : Inv q h) :
    ∀ g ∈ q.allGops, g.Wf := by
  intro g hg
  rcases List.mem_append.mp hg with hg | hg
  · exact (hq.gops_wf g hg).1
  · rw [List.mem_singleton.mp hg]
    exact hq.current_wf

theorem lastMedia_restart (m : Metadata) (xs : List Frame) :
    lastMedia (restart Frame.isMetadata (.metadata m) xs) = lastMedia xs := by
  unfold restart
  split
  · rfl
  · exact lastMedia_metadata m xs

theorem leads_restartFirstGop {q : GopQueue} (hq : ∀ g ∈ q.allGops, g.Leads) (m : Metadata) :
    ∀ g ∈ (q.restartFirstGop (.metadata m)).allGops, g.Leads := by
  obtain ⟨first, rest, hall⟩ : ∃ first rest, q.allGops = first :: rest :=
    List.exists_cons_of_ne_nil (by simp [allGops])
  rw [restartFirstGop_allGops hall]
  rw [hall] at hq
  intro g hg
  rcases List.mem_cons.mp hg with rfl | hg
  · unfold GopQueue.restarted
    split
    · exact hq first List.mem_cons_self
    · rename_i hs
      exact FrameQueue.Leads.pushFront_metadata (Bool.eq_false_iff.mpr hs) m
  · exact hq g (List.mem_cons_of_mem _ hg)

/-- The first metadata that `on_pop_gop` finds is the first frame. -/
theorem Restarted.onPopGop_firstMetadata {q q₁ : GopQueue} {f : Frame} (hre : Restarted q f q₁)
    (hleads : ∀ g ∈ q₁.allGops, g.Leads) :
    q₁.onPopGop.firstMetadataFrame = q₁.allFrames.head? := by
  have hmem : q₁.firstGop ∈ q₁.allGops := by
    unfold firstGop allGops
    cases q₁.gops <;> simp
  have hfirst := hleads _ hmem hre.starts
  obtain ⟨x, hx, -⟩ := (Option.any_eq_true _ _).mp hre.starts
  rw [firstGop_head? hre.gops_wf, ← hfirst]
  rw [hx] at hfirst
  unfold onPopGop
  cases hg : q₁.gops with
  | nil => simp [firstGop, hg]
  | cons g gs =>
      have hgfirst : g.firstMetadataFrame = some x := by simpa [firstGop, hg] using hfirst
      simp [firstGop, hg, hgfirst]

/-- The latest media is not in the GOP that goes. -/
theorem Pointed.lastMedia_tail {q : GopQueue} {h : List Frame} (hinv : Inv q h) (hq : Pointed q)
    {front : FrameQueue} {gops : List FrameQueue} (hgops : q.gops = front :: gops) :
    lastMedia q.allFrames = lastMedia (allFrames { q with gops }) := by
  have hcm := hq.current_media (by rw [hgops]; exact List.cons_ne_nil _ _)
  rw [FrameQueue.Wf.hasMedia_iff hinv.current_wf] at hcm
  obtain ⟨x, hx⟩ := hcm
  have hmedia : (lastMedia (allFrames { q with gops })).isSome := by
    rw [lastMedia, List.find?_isSome]
    exact ⟨.media x, by simp [allFrames, hx], rfl⟩
  obtain ⟨y, hy⟩ := Option.isSome_iff_exists.mp hmedia
  have hsplit : q.allFrames = front.queue ++ allFrames { q with gops } := by
    simp [allFrames, hgops]
  rw [hsplit, lastMedia_append, hy]
  rfl

theorem Pointed.popGop {q : GopQueue} {h : List Frame} (hinv : Inv q h) (hq : Pointed q)
    (hne : q.gops ≠ []) {q' : GopQueue} (hrun : q.popGop = .ok q') : Pointed q' := by
  obtain ⟨front, gops, m, hgops, -, -, hpop⟩ := hinv.popGop_eq hne
  obtain ⟨q'', hpop', hinv', -⟩ := hinv.popGop hne
  rw [hrun] at hpop hpop'
  cases hpop
  cases hpop'
  have hcur : q.current.queue ≠ [] := fun hnil => hne (hinv.current_nil hnil)
  have hrest : ∀ g ∈ gops, g.Wf ∧ g.hasMedia = true := fun g hg =>
    hinv.gops_wf g (by rw [hgops]; exact List.mem_cons_of_mem _ hg)
  have hre := restartFirstGop_restarted (q := { q with gops }) hcur hinv.current_wf hrest m
  have hleads := leads_restartFirstGop (q := { q with gops })
    (fun g hg => hq.leads g (by simp [allGops, hgops] at hg ⊢; exact .inr hg)) m
  have hsame : (restartFirstGop { q with gops } (.metadata m)).current.hasMedia
      = q.current.hasMedia ∨ gops = [] := by
    unfold restartFirstGop
    split
    · exact .inl rfl
    · cases gops with
      | nil => exact .inr rfl
      | cons g gs => exact .inl rfl
  generalize restartFirstGop { q with gops } (.metadata m) = q₁ at hre hleads hinv' hrun hsame ⊢
  refine ⟨⟨hleads, ?_, ?_, ?_⟩, ?_⟩
  · rw [onPopGop_allFrames]
    exact hre.onPopGop_firstMetadata hleads
  · have hwf : ∀ g ∈ q₁.allGops, g.Wf := fun g hg => hinv'.allGops_wf g hg
    rw [onPopGop_allFrames, allFrames_eq_allGops, ← findSome?_firstMediaFrame hwf]
    simp only [onPopGop, allGops, List.findSome?_append, List.findSome?_singleton]
  · have hlatest : q₁.onPopGop.latestMediaFrame = q.latestMediaFrame := hre.latestMedia
    rw [onPopGop_allFrames, hre.allFrames_eq, lastMedia_restart, hlatest, hq.latestMedia]
    exact hq.lastMedia_tail hinv hgops
  · intro hgops'
    rcases hsame with hsame | hnil
    · exact hsame.trans (hq.current_media hne)
    · have hlen := hre.gops_length
      rw [hnil, List.length_nil, List.length_eq_zero_iff] at hlen
      exact absurd hlen hgops'

/-! ## The reported values -/

/-- Between two calls only the first GOP can be without media. -/
theorem firstMediaGop_eq {q : GopQueue} {h : List Frame} (hinv : Inv q h) :
    q.firstMediaGop ∈ q.allGops
      ∧ firstMedia q.allFrames = firstMedia q.firstMediaGop.queue := by
  unfold firstMediaGop
  cases hgops : q.gops with
  | nil => simp [allGops, allFrames, hgops]
  | cons front gops =>
      obtain ⟨hfwf, hfmedia⟩ := hinv.gops_wf front (by rw [hgops]; exact List.mem_cons_self)
      obtain ⟨f, hf⟩ := Option.isSome_iff_exists.mp hfmedia
      have hfirst : firstMedia front.queue = some f := by
        rw [← hf, hfwf.firstMedia]
        rfl
      simp [allGops, allFrames, hgops, hfmedia, firstMedia_append, hfirst]

theorem lastMediaGop_eq {q : GopQueue} {h : List Frame} (hinv : Inv q h) (hq : Pointed q) :
    (q.lastMediaGop ∈ q.allGops ∨ q.lastMediaGop = {})
      ∧ lastMedia q.allFrames = lastMedia q.lastMediaGop.queue := by
  unfold lastMediaGop
  cases hm : q.current.hasMedia with
  | true =>
      obtain ⟨x, hx⟩ := hinv.current_wf.hasMedia_iff.mp hm
      have hsome : (lastMedia q.current.queue).isSome := by
        rw [lastMedia, List.find?_isSome]
        exact ⟨.media x, by simpa using hx, rfl⟩
      obtain ⟨y, hy⟩ := Option.isSome_iff_exists.mp hsome
      simp [allGops, allFrames, lastMedia_append, hy]
  | false =>
      have hgops : q.gops = [] := by
        by_contra hne
        rw [hq.current_media hne] at hm
        cases hm
      have hnone : q.current.latestMediaFrame = none := by
        have hfirst : q.current.queue.find? Frame.isMedia = none := by
          rw [← hinv.current_wf.firstMedia]
          exact Option.not_isSome_iff_eq_none.mp (by rw [← FrameQueue.hasMedia, hm]; simp)
        rw [hinv.current_wf.latestMedia, List.find?_eq_none]
        intro f hf
        exact List.find?_eq_none.mp hfirst f (List.mem_reverse.mp hf)
      have hlast : lastMedia q.current.queue = none := by
        rw [← hnone, hinv.current_wf.latestMedia]
        rfl
      simp [allFrames, hgops, hlast]

theorem lastMedia_isSome_iff (frames : List Frame) :
    (lastMedia frames).isSome = (firstMedia frames).isSome := by
  rw [Bool.eq_iff_iff, lastMedia, firstMedia, List.find?_isSome, List.find?_isSome]
  simp only [List.mem_reverse]

theorem dtsOf_eq_neg_one {frames : List Frame} (hnonneg : ∀ m, .media m ∈ frames → 0 ≤ m.dts)
    {f : Frame} (hf : f ∈ frames) (hmedia : f.isMedia = true) : Frame.dtsOf (some f) ≠ -1 := by
  cases f with
  | media m =>
      have hm := hnonneg m hf
      simp only [Frame.dtsOf]
      omega
  | metadata m => cases hmedia
  | script s => cases hmedia

theorem sum_bytes {gs : List FrameQueue} (hgs : ∀ g ∈ gs, g.Totals) :
    (gs.map FrameQueue.bytes).sum
      = (((gs.map FrameQueue.queue).flatten).map Frame.mediaSize).sum := by
  induction gs with
  | nil => rfl
  | cons g gs ih =>
      have hg := (hgs g List.mem_cons_self).bytes
      have hrest := ih fun x hx => hgs x (List.mem_cons_of_mem _ hx)
      simp [hg, hrest]

/-- No dts of a frame is the -1 that stands for none. -/
theorem duration_of_bounds {q : GopQueue} (hnonneg : ∀ m, .media m ∈ q.allFrames → 0 ≤ m.dts)
    (hstart : q.startDts = Frame.dtsOf (firstMedia q.allFrames))
    (hend : q.endDts = Frame.dtsOf (lastMedia q.allFrames)) :
    q.duration = (recompute q.allFrames).duration := by
  have hdef : q.duration = if q.startDts = -1 ∨ q.endDts = -1 then 0
      else ((q.endDts - q.startDts : Int) : Rat) / 1000 := rfl
  rw [hdef, hstart, hend, recompute]
  have hboth := lastMedia_isSome_iff q.allFrames
  cases hfirst : firstMedia q.allFrames with
  | none => simp [Frame.dtsOf]
  | some x =>
      rw [hfirst, Option.isSome_some] at hboth
      obtain ⟨y, hy⟩ := Option.isSome_iff_exists.mp hboth
      have hx' := dtsOf_eq_neg_one hnonneg (List.mem_of_find?_eq_some hfirst)
        (List.find?_some hfirst)
      have hy' := dtsOf_eq_neg_one hnonneg
        (List.mem_reverse.mp (List.mem_of_find?_eq_some hy)) (List.find?_some hy)
      rw [hy, if_neg (not_or.mpr ⟨hx', hy'⟩)]

/-- What the cache reports is what its frames say. -/
theorem Pointed.aggregates {q : GopQueue} {h : List Frame} (hinv : Inv q h) (hq : Pointed q)
    (htotals : ∀ g ∈ q.allGops, g.Totals) : q.aggregates = recompute q.allFrames := by
  have hstart : q.startDts = Frame.dtsOf (firstMedia q.allFrames) := by
    obtain ⟨hmem, hfirst⟩ := firstMediaGop_eq hinv
    rw [hfirst]
    exact (htotals _ hmem).startDts
  have hend : q.endDts = Frame.dtsOf (lastMedia q.allFrames) := by
    obtain ⟨hmem, hlast⟩ := lastMediaGop_eq hinv hq
    rw [hlast]
    rcases hmem with hmem | hnil
    · exact (htotals _ hmem).endDts
    · rw [endDts, hnil]
      rfl
  have hnonneg : ∀ m, .media m ∈ q.allFrames → 0 ≤ m.dts := by
    intro m hm
    rw [allFrames_eq_allGops, List.mem_flatten] at hm
    obtain ⟨xs, hxs, hm⟩ := hm
    obtain ⟨g, hg, rfl⟩ := List.mem_map.mp hxs
    exact (htotals g hg).nonneg m hm
  have hduration := duration_of_bounds hnonneg hstart hend
  have hbytes : q.bytes = (q.allFrames.map Frame.mediaSize).sum := by
    rw [allFrames_eq_allGops, ← sum_bytes htotals]
    simp [bytes, allGops]
  have hmetadata : q.allFrames.head? = q.allFrames.find? Frame.isMetadata := by
    have hheaded := hinv.window.headed
    cases hall : q.allFrames with
    | nil => rfl
    | cons x xs =>
        rw [hall] at hheaded
        simp [hheaded x rfl]
  simp only [GopQueue.aggregates, hstart, hend, hduration, hbytes, hq.firstMedia,
    hq.latestMedia, hq.firstMetadata, hmetadata]
  rfl

end GopQueue

/-! ## Runs -/

/-- In every state reached the pointers are those of the frames. -/
theorem CacheHistory.pointed_of_reachable {s : CacheHistory} (hs : cacheMachine.Reachable s) :
    s.cache.Pointed := by
  have hs' : (cacheMachine.restrict (mediaMeets fun _ => True)).Reachable s :=
    hs.restrict fun _ call _ => by cases call <;> trivial
  refine cache_invariant GopQueue.Pointed.empty ?_ ?_ hs'
  · intro q d hq
    exact ⟨⟨hq.leads, hq.firstMetadata, hq.firstMedia, hq.latestMedia⟩, hq.current_media⟩
  · intro q h f q' hinv hq hf _ hrun
    refine hinv.addFrame_rule (P := GopQueue.Pointed) ?_ hf ?_ hrun
    · intro q h q' hinv hq hrequire hpop
      obtain ⟨b, hb, hne⟩ := hinv.requireUpdateGop
      rw [hb] at hrequire
      cases hrequire
      exact hq.popGop hinv (hne rfl) hpop
    · intro hacc
      exact hq.placeFrame hinv hf (hinv.allFrames_of_accepts hacc) GopQueue.startsGop_body

/-- The media of `dts >= 0`. -/
def Flv.Media.Timed (m : Media) : Prop := 0 ≤ m.dts

instance : DecidablePred Flv.Media.Timed := fun m => inferInstanceAs (Decidable (0 ≤ m.dts))

/-- In every state reached the dts and the bytes of each GOP are those of its frames. -/
theorem CacheHistory.totals_of_reachable {s : CacheHistory}
    (hs : (cacheMachine.restrict (mediaMeets Media.Timed)).Reachable s) :
    ∀ g ∈ s.cache.allGops, g.Totals := by
  refine cache_invariant (P := fun q => ∀ g ∈ q.allGops, g.Totals) ?_ ?_ ?_ hs
  · intro d g hg
    rw [List.mem_singleton.mp hg]
    exact FrameQueue.Totals.empty
  · exact fun q d hq => hq
  · intro q h f q' hinv hq hf htimed hrun
    have hpush : ∀ g : FrameQueue, g.Totals → (g.pushBack f).Totals := by
      intro g hg
      cases f with
      | media m => exact hg.pushBack_media (htimed m rfl)
      | metadata m => exact hg.pushBack_metadata m
      | script x => cases hf
    refine hinv.addFrame_allGops hq hf ?_ ?_ ?_ hrun
    · exact fun _ _ => hpush _ FrameQueue.Totals.empty
    · exact fun _ _ => hpush _ (hq _ (by simp [GopQueue.allGops]))
    · exact fun g m hg hs => hg.pushFront_metadata hs m

theorem CacheHistory.aggregates_of_reachable {s : CacheHistory}
    (hs : (cacheMachine.restrict (mediaMeets Media.Timed)).Reachable s) :
    s.cache.aggregates = recompute s.cache.allFrames :=
  (pointed_of_reachable hs.of_restrict).aggregates (inv_of_reachable hs.of_restrict).1
    (totals_of_reachable hs)

/-- After any calls with media of `dts >= 0` the cache reports what its frames say. -/
theorem gopQueue_aggregates (s : CacheHistory)
    (hs : (cacheMachine.restrict (mediaMeets Media.Timed)).Reachable s) :
    s.cache.aggregates = recompute s.cache.allFrames :=
  CacheHistory.aggregates_of_reachable hs

/-- A run that evicts a GOP, after metadata was replaced behind media. -/
theorem gopQueue_aggregates_evicted :
    ∃ s, (cacheMachine.restrict (mediaMeets Media.Timed)).Reachable s
      ∧ decide (s.cache.allFrames.length = 4 ∧ s.cache.duration = 2) = true
      ∧ s.cache.aggregates = recompute s.cache.allFrames := by
  obtain ⟨s, hs, hlen⟩ := Machine.reachable_of_runs
    (M := cacheMachine.restrict (mediaMeets Media.Timed))
    (p := fun s => decide (s.cache.allFrames.length = 4 ∧ s.cache.duration = 2))
    [.setMinCacheDuration 1, .addMetadata (sampleMetadata true false),
      .addMedia (sampleVideo true 0), .addMedia (sampleVideo true 500),
      .addMetadata (sampleMetadata true true), .addMetadata (sampleMetadata true false),
      .addMedia (sampleVideo true 2500)] (by decide +kernel)
  exact ⟨s, hs, hlen, gopQueue_aggregates s hs⟩

end SeastarLive
