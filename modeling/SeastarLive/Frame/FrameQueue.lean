/-
SeastarLive.Frame.FrameQueue — the frame queue and its asynchronous form.

`src/frame/frame_queue.hh`. `FrameQueue` is `frame_queue_t` at `flv::frame_t`,
the only frame type of the tree: the frames, the four cached frame pointers,
the first and last dts and the byte count. `AsyncFrameQueue` adds the promise
a waiting consumer left; an operation that fulfils the promise returns the
batch it was fulfilled with.

`int64_t` and `uint64_t` are `Int` and `Nat`.
-/
import SeastarLive.Flv.Frame

namespace SeastarLive

open Flv

/-! ## The queue -/

/-- `frame_queue_t<frame_ptr>`. -/
structure FrameQueue where
  queue : List Frame := []
  firstMetadataFrame : Option Frame := none
  latestMetadataFrame : Option Frame := none
  firstMediaFrame : Option Frame := none
  latestMediaFrame : Option Frame := none
  startDts : Int := -1
  endDts : Int := -1
  bytes : Nat := 0
deriving DecidableEq

namespace FrameQueue

def empty (q : FrameQueue) : Bool := q.queue.isEmpty

def onlyMetadata (q : FrameQueue) : Bool :=
  q.queue.length == 1 && q.queue.head?.any Frame.isMetadata

def hasMedia (q : FrameQueue) : Bool := q.firstMediaFrame.isSome

def hasMetadata (q : FrameQueue) : Bool := q.firstMetadataFrame.isSome

def startWithMetadata (q : FrameQueue) : Bool := q.queue.head?.any Frame.isMetadata

def endWithMetadata (q : FrameQueue) : Bool := q.queue.getLast?.any Frame.isMetadata

/-- `duration()`, in seconds. -/
def duration (q : FrameQueue) : Rat :=
  if q.startDts = -1 ∨ q.endDts = -1 then 0 else ((q.endDts - q.startDts : Int) : Rat) / 1000

/-- `push_back`: a metadata frame overwrites a metadata frame at the end. -/
def pushBack (q : FrameQueue) (frame : Frame) : FrameQueue :=
  match frame with
  | .media media =>
      { q with
        queue := q.queue ++ [frame]
        firstMediaFrame := q.firstMediaFrame.or (some frame)
        latestMediaFrame := some frame
        startDts := if q.startDts = -1 then media.dts else q.startDts
        endDts := media.dts
        bytes := q.bytes + media.size }
  | .metadata _ =>
      let queue := if q.endWithMetadata then q.queue.dropLast else q.queue
      { q with
        queue := queue ++ [frame]
        firstMetadataFrame :=
          if queue.isEmpty || q.firstMetadataFrame.isNone then some frame
          else q.firstMetadataFrame
        latestMetadataFrame := some frame }
  | .script _ => { q with queue := q.queue ++ [frame] }

/-- `push_front`: a metadata frame overwrites a metadata frame at the front. -/
def pushFront (q : FrameQueue) (frame : Frame) : FrameQueue :=
  match frame with
  | .media media =>
      { q with
        queue :=
          if q.startWithMetadata then q.queue.take 1 ++ frame :: q.queue.drop 1
          else frame :: q.queue
        firstMediaFrame := some frame
        latestMediaFrame := q.latestMediaFrame.or (some frame)
        startDts := media.dts
        endDts := if q.endDts = -1 then media.dts else q.endDts
        bytes := q.bytes + media.size }
  | .metadata _ =>
      { q with
        queue := frame :: (if q.startWithMetadata then q.queue.drop 1 else q.queue)
        firstMetadataFrame := some frame
        latestMetadataFrame := q.latestMetadataFrame.or (some frame) }
  | .script _ => q

/-- `pop_all`: the frames, and the queue left behind. -/
def popAll (q : FrameQueue) : List Frame × FrameQueue := (q.queue, {})

/-- `clear`. -/
def clear (_q : FrameQueue) : FrameQueue := {}

end FrameQueue

/-! ## The asynchronous queue -/

/-- `async_frame_queue_t<frame_ptr>`; `notEmpty` tells whether a promise is held. -/
structure AsyncFrameQueue where
  base : FrameQueue := {}
  notEmpty : Bool := false
  closed : Bool := false
deriving DecidableEq

namespace AsyncFrameQueue

def pushBack (q : AsyncFrameQueue) (frame : Frame) : AsyncFrameQueue :=
  { q with base := q.base.pushBack frame }

def clear (q : AsyncFrameQueue) : AsyncFrameQueue := { q with base := q.base.clear }

/-- `notify_not_empty`, with the batch the promise is fulfilled with. -/
def notifyNotEmpty (q : AsyncFrameQueue) : AsyncFrameQueue × Option (List Frame) :=
  if q.base.empty then (q, none)
  else if q.notEmpty then
    ({ q with base := q.base.popAll.2, notEmpty := false }, some q.base.popAll.1)
  else (q, none)

/-- `close`, with the batch the promise is fulfilled with. -/
def close (q : AsyncFrameQueue) : AsyncFrameQueue × Option (List Frame) :=
  if q.notEmpty then ({ q with notEmpty := false }, some []) else (q, none)

/-- `not_empty`: the batch of a future that is ready at once, or a promise is left. -/
def waitNotEmpty (q : AsyncFrameQueue) : AsyncFrameQueue × Option (List Frame) :=
  if q.closed then (q, some []) else ({ q with notEmpty := true }, none)

end AsyncFrameQueue

end SeastarLive
