/-
SeastarLive.Frame.FrameExchange — the calls a producer and a consumer make on one
asynchronous queue.

`async_frame_queue_t` of `src/frame/frame_queue.hh` has one producer
(`push_back` for each frame of a batch, then `notify_not_empty`) and one
consumer (`not_empty`, then the frames it was given, then `not_empty` again);
`close` comes from the session that owns the queue. `frameExchange` is the
machine of all orders of these calls.

* `futures` is what became of the future of each `not_empty()` call, oldest
  first. A promise that is replaced before it is fulfilled breaks its future.
* `pushed`, `pushing` and `futures` are records, read by no call.
-/
import SeastarLive.Frame.FrameQueue
import SeastarLive.Lib.Transition

namespace SeastarLive

open Flv

/-- What became of a future of `not_empty()`. -/
inductive FrameFuture
  | pending
  | ready (frames : List Frame)
  | broken
deriving DecidableEq

/-- The batch a future was fulfilled with. -/
def FrameFuture.batch? : FrameFuture → Option (List Frame)
  | .pending => none
  | .ready frames => some frames
  | .broken => none

/-- The calls on the queue. -/
inductive QueueCall
  | pushBack (frame : Frame)
  | notifyNotEmpty
  | notEmpty
  | close
deriving DecidableEq

/-- The queue, with the frames pushed, whether any of them came after the last
    `notify_not_empty`, and the futures given out. -/
structure FrameExchange where
  queue : AsyncFrameQueue := {}
  pushed : List Frame := []
  pushing : Bool := false
  futures : List FrameFuture := []
deriving DecidableEq

namespace FrameExchange

/-- The pending futures come to `outcome`. -/
def settle (outcome : FrameFuture) (futures : List FrameFuture) : List FrameFuture :=
  futures.map fun x => if x = .pending then outcome else x

/-- Keep the new queue; a batch fulfils the future that waits for it. -/
def fulfil (e : FrameExchange) (r : AsyncFrameQueue × Option (List Frame)) : FrameExchange :=
  match r.2 with
  | none => { e with queue := r.1 }
  | some frames => { e with queue := r.1, futures := settle (.ready frames) e.futures }

/-- `not_empty`: a future that is ready at once, or the future of a new promise. -/
def awaitNotEmpty (e : FrameExchange) : FrameExchange :=
  match e.queue.waitNotEmpty with
  | (queue, some frames) => { e with queue, futures := e.futures ++ [.ready frames] }
  | (queue, none) => { e with queue, futures := settle .broken e.futures ++ [.pending] }

def call (e : FrameExchange) : QueueCall → FrameExchange
  | .pushBack frame =>
      { e with
        queue := e.queue.pushBack frame
        pushed := e.pushed ++ [frame]
        pushing := true }
  | .notifyNotEmpty => { e.fulfil e.queue.notifyNotEmpty with pushing := false }
  | .notEmpty => e.awaitNotEmpty
  | .close => e.fulfil e.queue.close

/-- Several calls, one after the other. -/
def calls (e : FrameExchange) (cs : List QueueCall) : FrameExchange := cs.foldl call e

/-- The batches that `not_empty()` futures were fulfilled with. -/
def batches (e : FrameExchange) : List (List Frame) := e.futures.filterMap FrameFuture.batch?

/-! ## Protocols -/

/-- The queue is never closed. -/
def StaysOpen (_e : FrameExchange) (c : QueueCall) : Prop := c ≠ .close

/-- The producer announces what it pushed, a consumer that waits makes no second call,
    and nobody closes the queue. -/
def InRounds (e : FrameExchange) : QueueCall → Prop
  | .pushBack _ => True
  | .notifyNotEmpty => e.pushing = true
  | .notEmpty => .pending ∉ e.futures
  | .close => False

/-- A consumer waits although frames are queued, and no `notify_not_empty` is under way. -/
def LostWakeUp (e : FrameExchange) : Prop :=
  e.pushing = false ∧ .pending ∈ e.futures ∧ e.queue.base.queue ≠ []

/-- The consumer calls `not_empty()` while the queue is empty or a round is under way. -/
def AwaitsInRound (e : FrameExchange) (c : QueueCall) : Prop :=
  c = .notEmpty → e.pushing = true ∨ e.queue.base.queue = []

/-- After `close` and then `cs`, each `not_empty()` of `cs` returned a ready future. -/
def ClosedFor (e : FrameExchange) (cs : List QueueCall) : Prop :=
  ∀ before after, cs = before ++ .notEmpty :: after →
    ∃ frames, (((e.call .close).calls before).call .notEmpty).futures.getLast?
      = some (.ready frames)

instance (e : FrameExchange) : ∀ c, Decidable (e.InRounds c)
  | .pushBack _ => inferInstanceAs (Decidable True)
  | .notifyNotEmpty => inferInstanceAs (Decidable (_ = _))
  | .notEmpty => inferInstanceAs (Decidable (_ ∉ _))
  | .close => inferInstanceAs (Decidable False)

instance (e : FrameExchange) (c : QueueCall) : Decidable (e.StaysOpen c) :=
  inferInstanceAs (Decidable (_ ≠ _))

instance (e : FrameExchange) (c : QueueCall) : Decidable (e.AwaitsInRound c) :=
  inferInstanceAs (Decidable (_ → _))

instance (e : FrameExchange) : Decidable e.LostWakeUp :=
  inferInstanceAs (Decidable (_ ∧ _ ∧ _))

end FrameExchange

/-- Any calls in any order, from an empty queue. -/
def frameExchange : Machine FrameExchange QueueCall Empty where
  init := {}
  enabled _ _ := True
  step e c := .ok (e.call c)

instance (e : FrameExchange) (c : QueueCall) : Decidable (frameExchange.enabled e c) :=
  inferInstanceAs (Decidable True)

end SeastarLive
