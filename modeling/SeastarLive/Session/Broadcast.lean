/-
SeastarLive.Session.Broadcast — an RTMP publisher and the players it feeds.

The delivery half of `src/session/rtmp/publish_session.cc` (`publish`,
`on_frame_for_each_subscriber`, `on_frame`, the subscriber list) and any
number of players on other shards. `broadcast` is the machine of all of them:
its labels are the steps between two suspension points, or between two
mutex-guarded calls, of each party, and a run is any interleaving.

* The publisher handles one frame at a time; `Phase` is where it stands.
* A delivery is one message to the player's shard: the batch is chosen when it
  is submitted, and `on_frames` may be interrupted after each frame.
* `accepted`, `joined`, `delivered` and `added` are records, read by no step.
* Which frames reach the publisher is left open here (`recv` takes any frame);
  `Session.PublishSession` makes them from packets.
* A player may be taken off the list at any time after it was put on it.
-/
import SeastarLive.Frame.GopQueue
import SeastarLive.Lib.Transition
import SeastarLive.Session.PlaySession
import Mathlib.Logic.Function.Basic

namespace SeastarLive

open Flv Function

/-! ## The publisher -/

/-- Where the publisher stands with the frame it is publishing. -/
inductive Phase
  /-- Ready for the next frame. -/
  | idle
  /-- The cache took the frame. -/
  | accepted (frame : Frame)
  /-- The subscriber list was copied; the items still to serve. -/
  | delivering (frame : Frame) (items : List Nat)
  /-- A batch is on its way to a player. -/
  | submitted (frame : Frame) (item : Nat) (frames : List Frame) (items : List Nat)
  /-- `on_frames` of a player is running; the frames still to hand over. -/
  | handling (frame : Frame) (item : Nat) (frames : List Frame) (items : List Nat)
  /-- `on_frames` has returned. -/
  | returned (frame : Frame) (item : Nat) (items : List Nat)
  /-- The read loop has ended; the frames `publish()` dropped when it cancelled. -/
  | ended (dropped : List Frame)
deriving DecidableEq

/-- The first delivery to a subscriber: the cache it was taken from, the frames accepted
    until then, and the frame being published. -/
structure Join where
  cache : GopQueue
  accepted : List Frame
  frame : Frame
deriving DecidableEq

/-- `rtmp::publish_session`, without the parts that read packets; `receiving` is the flag
    of the `subscriber_item` of each subscriber. -/
structure Publisher where
  impl : SessionImpl := {}
  cache : GopQueue := {}
  subscribers : List Nat := []
  receiving : Nat → Bool := fun _ => false
  phase : Phase := .idle
  accepted : List Frame := []
  added : List Nat := []
  joined : Nat → Option Join := fun _ => none
  delivered : Nat → List (List Frame) := fun _ => []

namespace Publisher

/-- `add_frame(frame)` past `rectify_dts`; it tells whether the frame was taken. -/
def recv (w : Publisher) (frame : Frame) : Except Fault Publisher := do
  let (cache, added) ← w.cache.addFrame frame
  if !added then .ok { w with cache }
  else do
    let impl ← w.impl.onFrame frame
    .ok { w with impl, cache, phase := .accepted frame, accepted := w.accepted ++ [frame] }

/-- `publish`: copy the subscriber list, or cancel when the cache is too large. -/
def publish (w : Publisher) (g : GlobalSettings) (frame : Frame) : Publisher :=
  if g.validateCache w.cache.bytes w.cache.duration then
    { w with phase := .delivering frame w.subscribers }
  else { w with impl := w.impl.complete .canceled, phase := .ended [frame] }

/-- `on_frame(item, frame)` up to the submission: choose the batch. -/
def submit (w : Publisher) (frame : Frame) (item : Nat) (items : List Nat) : Publisher :=
  if w.receiving item then { w with phase := .submitted frame item [frame] items }
  else
    { w with
      phase := .submitted frame item w.cache.allFrames items
      joined := update w.joined item (some ⟨w.cache, w.accepted, frame⟩) }

/-- `on_frames` of the item starts with `frames`, of which it will hand over `left`. -/
def start (w : Publisher) (frame : Frame) (item : Nat) (frames left : List Frame)
    (items : List Nat) : Publisher :=
  { w with
    phase := .handling frame item left items
    delivered := update w.delivered item (w.delivered item ++ [frames]) }

/-- The continuation of a delivery: the item is receiving from now on. -/
def markReceiving (w : Publisher) (frame : Frame) (item : Nat) (items : List Nat) :
    Publisher :=
  { w with
    phase := .delivering frame items
    receiving := update w.receiving item true }

/-- `add_rtmp_subscriber`. -/
def addRtmpSubscriber (w : Publisher) (sub : Nat) : Publisher :=
  if sub ∈ w.subscribers then { w with added := w.added ++ [sub] }
  else
    { w with
      subscribers := w.subscribers ++ [sub]
      receiving := update w.receiving sub false
      added := w.added ++ [sub] }

/-- `remove_rtmp_subscriber`. -/
def removeRtmpSubscriber (w : Publisher) (sub : Nat) : Publisher :=
  { w with subscribers := w.subscribers.erase sub }

/-- `remove_all_rtmp_subscribers`, from `on_terminate`. -/
def removeAllRtmpSubscribers (w : Publisher) : Publisher := { w with subscribers := [] }

/-- `on_settings_update`, on the RTMP cache. -/
def updateSettings (w : Publisher) (minCacheDuration : Rat) : Except Fault Publisher := do
  let cache ← w.cache.setMinCacheDuration minCacheDuration
  .ok { w with cache }

end Publisher

/-! ## The machine -/

/-- A publisher and its players. -/
structure Broadcast where
  pub : Publisher := {}
  players : Nat → Player

/-- The steps of the parties. -/
inductive Event
  /-- The publisher's read loop takes a frame. -/
  | recv (frame : Frame)
  /-- The publisher goes on with the frame it is publishing. -/
  | publisher
  /-- `end`, `cancel` or `fail` of the publisher. -/
  | completePublisher (how : Completion)
  /-- The publisher's read loop ends. -/
  | endPublisher
  /-- The publisher's read loop waited too long for a packet. -/
  | timeoutPublisher
  /-- `on_terminate` of the publisher. -/
  | terminatePublisher
  | updateSettings (minCacheDuration : Rat)
  /-- A player starts: `on_begin`, then `subscribe`. -/
  | begin (i : Nat)
  /-- The write loop of a player goes on. -/
  | player (i : Nat)
  /-- `end`, `cancel` or `fail` of a player. -/
  | completePlayer (i : Nat) (how : Completion)
  | timeout (i : Nat)
  | writeFails (i : Nat) (st : Status)
  | unsubscribe (i : Nat)
  | terminatePlayer (i : Nat)
deriving DecidableEq

namespace Broadcast

/-- Replace a player. -/
def setPlayer (w : Broadcast) (i : Nat) (p : Player) : Broadcast :=
  { w with players := update w.players i p }

/-- The next step of the publisher with its frame. -/
def publisherStep (g : GlobalSettings) (w : Broadcast) : Except Fault Broadcast :=
  match w.pub.phase with
  | .idle => .ok w
  | .accepted frame => .ok { w with pub := w.pub.publish g frame }
  | .delivering _ [] => .ok { w with pub := { w.pub with phase := .idle } }
  | .delivering frame (i :: items) => .ok { w with pub := w.pub.submit frame i items }
  | .submitted frame i frames items =>
      let left := if (w.players i).ignoresFrames then [] else frames
      .ok { w with pub := w.pub.start frame i frames left items }
  | .handling frame i (x :: left) items => do
      let p ← (w.players i).pushFrame g x
      .ok { w.setPlayer i p with pub := { w.pub with phase := .handling frame i left items } }
  | .handling frame i [] items =>
      .ok { w.setPlayer i (w.players i).notify with
        pub := { w.pub with phase := .returned frame i items } }
  | .returned frame i items => .ok { w with pub := w.pub.markReceiving frame i items }
  | .ended _ => .ok w

/-- `unsubscribe`; the HLS player does not take itself off the RTMP list. -/
def unsubscribe (w : Broadcast) (i : Nat) : Broadcast :=
  match (w.players i).kind with
  | .hls => w
  | _ => { w with pub := w.pub.removeRtmpSubscriber i }

/-- When a step may happen. -/
def Enabled (w : Broadcast) : Event → Prop
  | .recv _ => w.pub.phase = .idle ∧ w.pub.impl.isComplete = false
  | .publisher => True
  | .completePublisher _ => True
  | .endPublisher => w.pub.phase = .idle
  | .timeoutPublisher => w.pub.phase = .idle
  | .terminatePublisher => ∃ dropped, w.pub.phase = .ended dropped
  | .updateSettings _ => True
  | .begin i => (w.players i).loop = .detached
  | .player _ => True
  | .completePlayer _ _ => True
  | .timeout i => (w.players i).loop = .waiting
  | .writeFails i _ => ∃ frames, (w.players i).loop = .writing frames
  | .unsubscribe i => (w.players i).loop ≠ .detached
  | .terminatePlayer i => (w.players i).loop = .ended

instance (w : Broadcast) : ∀ a, Decidable (w.Enabled a)
  | .recv _ => inferInstanceAs (Decidable (_ ∧ _))
  | .publisher => inferInstanceAs (Decidable True)
  | .completePublisher _ => inferInstanceAs (Decidable True)
  | .endPublisher => inferInstanceAs (Decidable (_ = _))
  | .timeoutPublisher => inferInstanceAs (Decidable (_ = _))
  | .terminatePublisher =>
      match h : w.pub.phase with
      | .ended dropped => isTrue ⟨dropped, h⟩
      | .idle => isFalse fun ⟨_, hd⟩ => by simp [h] at hd
      | .accepted _ => isFalse fun ⟨_, hd⟩ => by simp [h] at hd
      | .delivering _ _ => isFalse fun ⟨_, hd⟩ => by simp [h] at hd
      | .submitted _ _ _ _ => isFalse fun ⟨_, hd⟩ => by simp [h] at hd
      | .handling _ _ _ _ => isFalse fun ⟨_, hd⟩ => by simp [h] at hd
      | .returned _ _ _ => isFalse fun ⟨_, hd⟩ => by simp [h] at hd
  | .updateSettings _ => inferInstanceAs (Decidable True)
  | .begin _ => inferInstanceAs (Decidable (_ = _))
  | .player _ => inferInstanceAs (Decidable True)
  | .completePlayer _ _ => inferInstanceAs (Decidable True)
  | .timeout _ => inferInstanceAs (Decidable (_ = _))
  | .writeFails i _ =>
      match h : (w.players i).loop with
      | .writing frames => isTrue ⟨frames, h⟩
      | .detached => isFalse fun ⟨_, hl⟩ => by simp [h] at hl
      | .checking => isFalse fun ⟨_, hl⟩ => by simp [h] at hl
      | .waiting => isFalse fun ⟨_, hl⟩ => by simp [h] at hl
      | .ended => isFalse fun ⟨_, hl⟩ => by simp [h] at hl
  | .unsubscribe _ => inferInstanceAs (Decidable (_ ≠ _))
  | .terminatePlayer _ => inferInstanceAs (Decidable (_ = _))

def step (g : GlobalSettings) (w : Broadcast) : Event → Except Fault Broadcast
  | .recv frame => do
      let pub ← w.pub.recv frame
      .ok { w with pub }
  | .publisher => w.publisherStep g
  | .completePublisher how => .ok { w with pub := { w.pub with impl := w.pub.impl.complete how } }
  | .endPublisher => .ok { w with pub := { w.pub with phase := .ended [] } }
  | .timeoutPublisher =>
      .ok { w with pub := { w.pub with impl := w.pub.impl.onTimeout, phase := .ended [] } }
  | .terminatePublisher => .ok { w with pub := w.pub.removeAllRtmpSubscribers }
  | .updateSettings d => do
      let pub ← w.pub.updateSettings d
      .ok { w with pub }
  | .begin i => do
      let p ← (w.players i).onBegin w.pub.impl
      .ok { w.setPlayer i p with pub := w.pub.addRtmpSubscriber i }
  | .player i => do
      let p ← (w.players i).loopStep
      .ok (w.setPlayer i p)
  | .completePlayer i how => .ok (w.setPlayer i ((w.players i).complete how))
  | .timeout i => .ok (w.setPlayer i (w.players i).onTimeout)
  | .writeFails i st => .ok (w.setPlayer i ((w.players i).writeFails st))
  | .unsubscribe i => .ok (w.unsubscribe i)
  | .terminatePlayer i => .ok (w.setPlayer i (w.players i).onTerminate)

end Broadcast

/-- A publisher and players of the given kinds and media masks. -/
def broadcast (g : GlobalSettings) (roles : Nat → PlayerKind × MediaType) :
    Machine Broadcast Event Fault where
  init := { players := fun i => { kind := (roles i).1, mediaType := (roles i).2 } }
  enabled := Broadcast.Enabled
  step := Broadcast.step g

instance (g : GlobalSettings) (roles : Nat → PlayerKind × MediaType) (w : Broadcast)
    (a : Event) : Decidable ((broadcast g roles).enabled w a) :=
  inferInstanceAs (Decidable (w.Enabled a))

end SeastarLive
