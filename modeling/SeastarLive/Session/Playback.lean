/-
SeastarLive.Session.Playback — one player and the publisher that feeds and ends it.

`playback` is the machine of a player (`Session.PlaySession`): the publisher
pushes frames (`on_frame`), announces them (`notify_not_empty`, the end of
`on_frames`) and ends the player (`on_done`, `on_cancel`, `on_fail`), the loop
of the player consumes through `with_frames`, and its wait may time out. Any
order of these steps is a run.

`with_frames` hands a whole batch to its function at once; what the function
then writes is `Player.loopStep`. The wait can time out after its future was
fulfilled and before the loop goes on with the batch.

The fields of `Playback` past the player are records, read by no step.
-/
import SeastarLive.Lib.Transition
import SeastarLive.Session.PlaySessionTheorems

namespace SeastarLive

open Flv

/-- The steps of a player and of the publisher it plays. -/
inductive PlaybackEvent
  /-- `on_begin`, on the publisher's session. -/
  | begin (pub : SessionImpl)
  /-- `on_frame`. -/
  | frame (f : Frame)
  /-- The end of `on_frames`. -/
  | notify
  | complete (how : Completion)
  /-- The loop goes on. -/
  | loop
  | writeFails (st : Status)
  /-- The wait of `with_frames` times out. -/
  | timeout
deriving DecidableEq

/-- A player, with the frames pushed to its queue, those of them that no later push
    overwrote, those handed to the function of `with_frames`, those queued when the
    session was completed, and those of a batch whose wait timed out. -/
structure Playback where
  player : Player
  pushed : List Frame := []
  kept : List Frame := []
  handed : List Frame := []
  left : List Frame := []
  missed : List Frame := []

namespace Player

/-- Whether `on_frame` pushes the frame. -/
def takes (p : Player) (frame : Frame) : Bool := p.pub && !p.impl.isComplete && p.wants frame

/-- What the loop hands to the function of `with_frames` in its next step. -/
def handsOver (p : Player) : List Frame :=
  match p.loop with
  | .waiting => p.future.getD []
  | _ => []

/-- The loop has ended, or `with_frames` is about to see the batch that ends the stream. -/
def stopped (p : Player) : Bool :=
  p.loop == .ended || (p.loop == .waiting && p.future == some [])

end Player

namespace Playback

/-- The frames pushed and not overwritten, after a push. -/
def keep (p : Playback) (frame : Frame) : List Frame :=
  if frame.isMetadata && p.player.queue.base.endWithMetadata then p.kept.dropLast ++ [frame]
  else p.kept ++ [frame]

/-- When a step may happen. -/
def Enabled (p : Playback) : PlaybackEvent → Prop
  | .begin _ => p.player.loop = .detached
  | .frame _ => p.player.loop ≠ .detached
  | .notify => p.player.loop ≠ .detached
  | .complete _ => True
  | .loop => True
  | .writeFails _ => ∃ frames, p.player.loop = .writing frames
  | .timeout => p.player.loop = .waiting

instance (p : Playback) : ∀ a, Decidable (p.Enabled a)
  | .begin _ => inferInstanceAs (Decidable (_ = _))
  | .frame _ => inferInstanceAs (Decidable (_ ≠ _))
  | .notify => inferInstanceAs (Decidable (_ ≠ _))
  | .complete _ => inferInstanceAs (Decidable True)
  | .loop => inferInstanceAs (Decidable True)
  | .writeFails _ => inferInstanceAs (Decidable (∃ frames, p.player.loop = .writing frames))
  | .timeout => inferInstanceAs (Decidable (_ = _))

def step (g : GlobalSettings) (p : Playback) : PlaybackEvent → Except Fault Playback
  | .begin pub => do
      let player ← p.player.onBegin pub
      .ok { p with player }
  | .frame f => do
      let player ← p.player.pushFrame g f
      .ok (if p.player.takes f then
        { p with player, pushed := p.pushed ++ [f], kept := p.keep f } else { p with player })
  | .notify => .ok { p with player := p.player.notify }
  | .complete how =>
      .ok { p with
        player := p.player.complete how
        left := if p.player.impl.isComplete then p.left else p.player.queue.base.queue }
  | .loop => do
      let player ← p.player.loopStep
      .ok { p with player, handed := p.handed ++ p.player.handsOver }
  | .writeFails st => .ok { p with player := p.player.writeFails st }
  | .timeout =>
      .ok { p with player := p.player.onTimeout, missed := p.player.future.getD [] }

end Playback

/-- A player of the given kind and media mask. -/
def playback (g : GlobalSettings) (kind : PlayerKind) (mediaType : MediaType) :
    Machine Playback PlaybackEvent Fault where
  init := { player := { kind, mediaType } }
  enabled := Playback.Enabled
  step := Playback.step g

instance (g : GlobalSettings) (kind : PlayerKind) (mediaType : MediaType) (p : Playback)
    (a : PlaybackEvent) : Decidable ((playback g kind mediaType).enabled p a) :=
  inferInstanceAs (Decidable (p.Enabled a))

end SeastarLive
