/-
SeastarLive.Frame.GopQueue — the GOP cache of a publisher.

`src/frame/gop_queue.hh` at `flv::frame_t`. The cache holds closed GOPs in
`gops` and the GOP being filled in `current`; `addFrame` decides whether a
frame is taken, closes a GOP when a new one starts, and evicts GOPs from the
front once what is left is long enough.

* Each mutex-guarded call is one function.
* `updateGop` is recursive in the source and drops one GOP a turn; here it
  takes the number of turns it may make, and `addFrame` gives it one for each
  GOP (`Inv.updateGop_done` shows that this is enough).
* `float` values are exact rationals.
* Assertions are compiled in, as in a Debug build: one that fails is an error.
-/
import Mathlib.Algebra.GroupWithZero.Nat
import SeastarLive.Frame.FrameQueue

namespace SeastarLive

open Flv

/-- `gop_queue_t<frame_ptr>`. -/
structure GopQueue where
  minCacheDuration : Rat := -1
  firstMetadataFrame : Option Frame := none
  latestMetadataFrame : Option Frame := none
  firstMediaFrame : Option Frame := none
  latestMediaFrame : Option Frame := none
  current : FrameQueue := {}
  gops : List FrameQueue := []
deriving DecidableEq

namespace GopQueue

/-! ## Reads -/

/-- `all_frames`: the closed GOPs in order, then the current one. -/
def allFrames (q : GopQueue) : List Frame :=
  (q.gops.map FrameQueue.queue).flatten ++ q.current.queue

/-- `first_gop`. -/
def firstGop (q : GopQueue) : FrameQueue :=
  match q.gops with
  | [] => q.current
  | front :: _ => front

/-- `second_gop`. -/
def secondGop (q : GopQueue) : FrameQueue :=
  match q.gops with
  | _ :: second :: _ => second
  | [_] => q.current
  | [] => {}

/-- `first_media_gop`. -/
def firstMediaGop (q : GopQueue) : FrameQueue :=
  (q.gops.find? FrameQueue.hasMedia).getD q.current

/-- `last_media_gop`. -/
def lastMediaGop (q : GopQueue) : FrameQueue :=
  if q.current.hasMedia then q.current
  else (q.gops.reverse.find? FrameQueue.hasMedia).getD {}

/-- `start_dts()`. -/
def startDts (q : GopQueue) : Int := q.firstMediaGop.startDts

/-- `end_dts()`. -/
def endDts (q : GopQueue) : Int := q.lastMediaGop.endDts

/-- `duration()`, in seconds. -/
def duration (q : GopQueue) : Rat :=
  let start := q.firstMediaGop.startDts
  let finish := q.lastMediaGop.endDts
  if start = -1 ∨ finish = -1 then 0 else ((finish - start : Int) : Rat) / 1000

/-- `bytes()`. -/
def bytes (q : GopQueue) : Nat := (q.gops.map FrameQueue.bytes).sum + q.current.bytes

/-- `current_metadata_frame`. -/
def currentMetadataFrame (q : GopQueue) : Option Frame := q.latestMetadataFrame

/-- `media_options`. -/
def mediaOptions (q : GopQueue) : Except Fault MediaType :=
  match q.latestMetadataFrame with
  | none => .ok .none
  | some lmf => do
      let metadata ← lmf.derefMetadata
      return metadata.mediaOptions

/-- The assertion of `for_each_gop`, then the GOPs it visits. -/
def forEachGop (q : GopQueue) : Except Fault (List FrameQueue) := do
  assert .forEachGop ((q.gops.isEmpty && q.current.empty) || q.firstMetadataFrame.isSome)
  return q.gops ++ [q.current]

/-- `allow_media_type`. -/
def allowMediaType (q : GopQueue) (type : MediaType) : Except Fault Bool :=
  match q.latestMetadataFrame with
  | none => .ok false
  | some lmf => do
      let metadata ← lmf.derefMetadata
      return metadata.enables type

/-- The inter-frame test of `validate_frame`: an empty GOP, or one whose media starts
    with a keyframe. -/
def allowInterFrame (q : GopQueue) : Except Fault Bool :=
  if q.current.empty then .ok true
  else match q.current.firstMediaFrame with
    | none => .ok false
    | some lf => do
        let media ← lf.derefMedia
        return media.isKeyframe

/-- `validate_frame`. -/
def validateFrame (q : GopQueue) (frame : Frame) : Except Fault Bool :=
  if frame.isMetadata then .ok true
  else do
    let media ← frame.derefMedia
    let allowed ← q.allowMediaType media.mediaType
    if !allowed then .ok false
    else do
      let allowAudio ← q.allowMediaType .onlyAudio
      if !media.isVideo then .ok allowAudio
      else if media.isKeyframe then .ok true
      else q.allowInterFrame

/-! ## Writes -/

/-- `set_min_cache_duration`. -/
def setMinCacheDuration (q : GopQueue) (minCacheDuration : Rat) : Except Fault GopQueue := do
  assert .setMinCacheDuration (q.minCacheDuration == -1 || decide (0 < minCacheDuration))
  return { q with minCacheDuration }

/-- `on_frame`: the cached pointers after `frame` was added to `_current`. -/
def onFrame (q : GopQueue) (frame : Frame) : GopQueue :=
  if q.gops.isEmpty then
    { q with
      firstMetadataFrame := q.current.firstMetadataFrame
      latestMetadataFrame := q.current.firstMetadataFrame
      firstMediaFrame := q.current.firstMediaFrame
      latestMediaFrame := q.current.latestMediaFrame }
  else match frame with
    | .metadata _ =>
        { q with
          firstMetadataFrame := q.firstMetadataFrame.or (some frame)
          latestMetadataFrame := some frame }
    | .media _ =>
        { q with
          firstMediaFrame := q.firstMediaFrame.or (some frame)
          latestMediaFrame := some frame }
    | .script _ => q

/-- `push_frame`. -/
def pushFrame (q : GopQueue) (frame : Frame) : GopQueue :=
  onFrame { q with current := q.current.pushBack frame } frame

/-- `on_pop_gop`: the first frames after a GOP was evicted. -/
def onPopGop (q : GopQueue) : GopQueue :=
  { q with
    firstMediaFrame :=
      (q.gops.findSome? FrameQueue.firstMediaFrame).or q.current.firstMediaFrame
    firstMetadataFrame :=
      (q.gops.findSome? FrameQueue.firstMetadataFrame).or q.current.firstMetadataFrame }

/-- Start the first GOP with `flmf`, unless it starts with metadata already. -/
def restartFirstGop (q : GopQueue) (flmf : Frame) : GopQueue :=
  if q.firstGop.startWithMetadata then q
  else match q.gops with
    | [] => { q with current := q.current.pushFront flmf }
    | front :: gops => { q with gops := front.pushFront flmf :: gops }

/-- The tests of `update_gop` before it drops a GOP. -/
def requireUpdateGop (q : GopQueue) : Except Fault Bool :=
  if q.gops.length < 1 then .ok false
  else if q.secondGop.empty then .ok false
  else match q.secondGop.firstMediaFrame, q.latestMediaFrame with
    | some sf, some lf => do
        let latest ← lf.derefMedia
        let second ← sf.derefMedia
        let timeoffset := latest.dts - second.dts
        return !decide ((timeoffset : Rat) < q.minCacheDuration * 1000)
    | _, _ => .ok false

/-- `update_gop` past its tests: drop the first GOP and restart the next one. -/
def popGop (q : GopQueue) : Except Fault GopQueue :=
  match q.gops with
  | [] => .ok q
  | front :: gops =>
      match front.latestMetadataFrame with
      | none => .error (.assertion .updateGop)
      | some flmf => .ok (restartFirstGop { q with gops } flmf).onPopGop

/-- `update_gop`, with the number of turns it may make. -/
def updateGop : Nat → GopQueue → Except Fault GopQueue
  | 0, q => .ok q
  | turns + 1, q => do
      let require ← q.requireUpdateGop
      if !require then .ok q
      else do
        let q' ← q.popGop
        updateGop turns q'

/-- The start of a new GOP: a video keyframe, or any audio frame when only audio is
    enabled. -/
def requireNewGop (frame : Frame) (audioOnly : Bool) : Bool :=
  match frame with
  | .media media => media.isVideo && media.isKeyframe || !media.isVideo && audioOnly
  | .metadata _ => false
  | .script _ => false

/-- Close the current GOP when it has media; a moved-from queue is empty. -/
def closeGop (q : GopQueue) : GopQueue :=
  if q.current.hasMedia then { q with gops := q.gops ++ [q.current], current := {} } else q

/-- `add_frame`, and whether the frame was taken. -/
def addFrame (q : GopQueue) (frame : Frame) : Except Fault (GopQueue × Bool) := do
  let valid ← q.validateFrame frame
  if !valid then .ok (q, false)
  else if q.current.onlyMetadata then .ok (q.pushFrame frame, true)
  else do
    let audio ← q.allowMediaType .onlyAudio
    let video ← q.allowMediaType .onlyVideo
    let q₁ := if requireNewGop frame (audio && !video) then q.closeGop else q
    let q₂ := q₁.pushFrame frame
    if frame.isMedia && decide (0 < q₂.minCacheDuration) then do
      let q₃ ← updateGop q₂.gops.length q₂
      .ok (q₃, true)
    else .ok (q₂, true)

/-- `clear`; the minimal cache duration stays. -/
def clear (q : GopQueue) : GopQueue := { minCacheDuration := q.minCacheDuration }

end GopQueue

end SeastarLive
