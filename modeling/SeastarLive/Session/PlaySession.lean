/-
SeastarLive.Session.PlaySession — a player: its frame queue and its write loop.

`src/session/play_session.cc` (HTTP-FLV), `src/session/rtmp/play_session.cc`
and `src/session/hls/play_session.cc`. The three kinds share the loop that
waits for a batch (`with_frames`) and hands its frames on one by one; they
differ in `on_frame` and in `write_frame`, which are given per kind.

* A player runs on one shard, and between two suspension points its code is
  one step: `pushFrame`, `notify`, `loopStep`, `complete`, `onTimeout`,
  `writeFails`.
* `future` is the batch its `not_empty()` future was fulfilled with.
* `received` and `written` are records, read by no step: the frames `on_frame`
  did not turn away, and what was written under which `pipe_state` metadata.
* What the HLS player does with a frame past its dispatch, and the bytes of
  metadata tags, are not part of this module.
-/
import SeastarLive.Flv.TagHeader
import SeastarLive.Frame.FrameQueue
import SeastarLive.Session.Session

namespace SeastarLive

open Flv

inductive PlayerKind
  | rtmp
  | httpFlv
  | hls
deriving DecidableEq

/-- Where the write loop of a player stands. -/
inductive Loop
  /-- Not started. -/
  | detached
  /-- About to test `is_complete()`. -/
  | checking
  /-- Waiting for the future of `not_empty()`. -/
  | waiting
  /-- Writing a batch; the frames still to write. -/
  | writing (frames : List Frame)
  | ended
deriving DecidableEq

instance : ∀ loop : Loop, Decidable (∃ frames, loop = .writing frames)
  | .writing frames => isTrue ⟨frames, rfl⟩
  | .detached | .checking | .waiting | .ended => isFalse nofun

/-- A player. -/
structure Player where
  kind : PlayerKind := .rtmp
  mediaType : MediaType := .all
  impl : SessionImpl := {}
  queue : AsyncFrameQueue := {}
  pub : Bool := true
  loop : Loop := .detached
  future : Option (List Frame) := none
  pipe : Option Metadata := none
  received : List Frame := []
  written : List (Option Metadata × Frame) := []
deriving DecidableEq

namespace Player

/-- `allow_media_type`. -/
def allowMediaType (p : Player) (type : MediaType) : Bool := p.mediaType.and type != .none

/-- Keep the new queue, and the batch if the operation fulfilled the future. -/
def settle (p : Player) (r : AsyncFrameQueue × Option (List Frame)) : Player :=
  { p with queue := r.1, future := r.2.or p.future }

/-! ## Completion -/

/-- `_end`, `_cancel` and `_fail`; the first of them closes the queue. -/
def complete (p : Player) (how : Completion) : Player :=
  if p.impl.isComplete then p
  else settle { p with impl := p.impl.complete how } p.queue.close

/-- `on_timeout`, raised by the wait of `with_frames`; the loop ends with it. -/
def onTimeout (p : Player) : Player :=
  { settle { p with impl := p.impl.onTimeout } p.queue.close with loop := .ended }

/-! ## Frames from the publisher -/

/-- `on_begin`, on the metadata of the publisher. -/
def onBegin (p : Player) (pub : SessionImpl) : Except Fault Player :=
  let q : Player :=
    { p with impl := p.impl.onBegin, queue := p.queue.clear, loop := .checking }
  match p.kind with
  | .hls => .ok q
  | _ => do
      let metadata ← pub.copyMeta
      return { q with impl := { q.impl with sessionMeta := some metadata } }

/-- The test at the start of `on_frames` that turns a batch away. -/
def ignoresFrames (p : Player) : Bool :=
  match p.kind with
  | .rtmp => !p.pub || p.impl.isComplete
  | _ => !p.pub

/-- The media filter of `on_frame`. -/
def skips (p : Player) (frame : Frame) : Except Fault Bool :=
  if frame.isMedia then do
    let media ← frame.derefMedia
    return !p.allowMediaType media.mediaType
  else .ok false

/-- Queue a frame; a player whose queue grew too large cancels itself. -/
def enqueue (p : Player) (g : GlobalSettings) (frame : Frame) : Player :=
  let q := { p with queue := p.queue.pushBack frame }
  if g.validateCache q.queue.base.bytes q.queue.base.duration then q
  else q.complete .canceled

/-- `rtmp::play_session::on_frame`, past its first test; `on_codec` does nothing. -/
def onFrameRtmp (p : Player) (g : GlobalSettings) (frame : Frame) : Except Fault Player := do
  let skip ← p.skips frame
  if skip then .ok p
  else if frame.isMedia then do
    let media ← frame.derefMedia
    .ok (enqueue { p with impl := p.impl.onMedia media } g frame)
  else .ok (p.enqueue g frame)

/-- `play_session::on_frame`, past its first test. -/
def onFrameFlv (p : Player) (g : GlobalSettings) (frame : Frame) : Except Fault Player := do
  let skip ← p.skips frame
  if skip then .ok p
  else do
    let q := p.enqueue g frame
    let impl ← q.impl.onFrame frame
    .ok { q with impl }

/-- `on_frame` of the player's kind; a complete or detached player ignores the frame. -/
def pushFrame (p : Player) (g : GlobalSettings) (frame : Frame) : Except Fault Player :=
  if !p.pub || p.impl.isComplete then .ok p
  else
    let q := { p with received := p.received ++ [frame] }
    match p.kind with
    | .rtmp => q.onFrameRtmp g frame
    | .httpFlv => q.onFrameFlv g frame
    | .hls => q.onFrameFlv g frame

/-- The end of `on_frames`. -/
def notify (p : Player) : Player :=
  if p.impl.isComplete then p else p.settle p.queue.notifyNotEmpty

/-! ## The write loop -/

/-- Record what was written. -/
def record (p : Player) (frame : Frame) : Player :=
  { p with written := p.written ++ [(p.pipe, frame)] }

/-- `write_media`: the frame is written under the metadata of `pipe_state`. -/
def writeMedia (p : Player) (frame : Frame) : Except Fault Player := do
  assert .writeMedia p.pipe.isSome
  match p.pipe with
  | none => .ok p
  | some metadata => do
      let media ← frame.derefMedia
      let _ ← media.toTagData metadata
      .ok (p.record frame)

/-- `rtmp::play_session::write_frame`. -/
def writeFrameRtmp (p : Player) (frame : Frame) : Except Fault Player :=
  if frame.isMetadata then do
    let metadata ← frame.derefMetadata
    .ok { p with pipe := some metadata }
  else if frame.isScript then .ok (p.record frame)
  else if frame.isMedia then p.writeMedia frame
  else .ok p

/-- `play_session::write_frame`: what is not metadata is taken for media. -/
def writeFrameFlv (p : Player) (frame : Frame) : Except Fault Player :=
  if frame.isMetadata then do
    let metadata ← frame.derefMetadata
    .ok { p with pipe := some metadata }
  else p.writeMedia frame

/-- The dispatch of `hls::play_session_v3::do_write_frame`. -/
def writeFrameHls (p : Player) (frame : Frame) : Except Fault Player :=
  if p.impl.isComplete then .ok p
  else if frame.isMedia then do
    let _ ← frame.derefMedia
    .ok p
  else if frame.isMetadata then do
    let _ ← frame.derefMetadata
    .ok p
  else .ok p

def writeFrame (p : Player) (frame : Frame) : Except Fault Player :=
  match p.kind with
  | .rtmp => p.writeFrameRtmp frame
  | .httpFlv => p.writeFrameFlv frame
  | .hls => p.writeFrameHls frame

/-- The end of the loop: a player that nothing else completed is done. -/
def finish (p : Player) : Player :=
  { (if p.impl.canceled || p.impl.timeout || p.impl.failed then p else p.complete .done) with
    loop := .ended }

/-- The loop up to its next suspension point. -/
def loopStep (p : Player) : Except Fault Player :=
  match p.loop with
  | .detached => .ok p
  | .checking =>
      if p.impl.isComplete then .ok p.finish
      else .ok { p.settle p.queue.waitNotEmpty with loop := .waiting }
  | .waiting =>
      match p.future with
      | none => .ok p
      | some [] => .ok { p.complete .done with loop := .checking, future := none }
      | some frames => .ok { p with loop := .writing frames, future := none }
  | .writing [] => .ok { p with loop := .checking }
  | .writing (frame :: frames) => do
      let q ← p.writeFrame frame
      .ok { q with loop := .writing frames }
  | .ended => .ok p

/-- A write that throws: the loop ends, but the HLS loop only drops the batch. -/
def writeFails (p : Player) (st : Status) : Player :=
  match p.kind with
  | .hls => { p with loop := .checking }
  | _ => (p.complete (.failed st)).finish

/-- `on_terminate`. -/
def onTerminate (p : Player) : Player := { p with pub := false }

end Player

end SeastarLive
