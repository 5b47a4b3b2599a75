/-
SeastarLive.Server.Registry — the publish requests that fill the list of publishers.

`transmition::make_valid_publisher` and `add_publisher` of
`src/server/transmition.cc`, and the publish handler of
`src/server/rtmp/route_handler.cc`. Requests run on several shards and share
one list. Each call that takes the lock of the list is one step, and any other
request may take steps between two of them.
-/
import Mathlib.Logic.Function.Basic
import SeastarLive.Lib.Transition
import SeastarLive.Server.SessionList

namespace SeastarLive

/-! ## Requests -/

/-- `reply::status_type`, of the replies a publish request is given here. -/
inductive ReplyStatus
  | notFound
  | internalError
deriving DecidableEq

/-- How far a publish request has come: before it, the call that answered last. -/
inductive Progress
  /-- `handle` is called. -/
  | arrived
  /-- `is_exist_publisher` of `handle` answered `false`. -/
  | absent
  /-- `make_valid_publisher` made a session. -/
  | made (pub : SessionRef)
  /-- `is_exist(app, stream)` of `add_publisher` answered `false`. -/
  | keyAbsent (pub : SessionRef)
  /-- `is_exist(session)` of `add` answered `false`. -/
  | sessionAbsent (pub : SessionRef)
  /-- `add_publisher` returned `true`. -/
  | added (pub : SessionRef)
  /-- `add_publisher` returned `false`; `handle` starts the session all the same. -/
  | refused (pub : SessionRef)
  /-- `on_terminate` has removed the session. -/
  | removed (pub : SessionRef)
  | replied (status : ReplyStatus)
deriving DecidableEq

/-- `transmition`: its publishers, the number of sessions made and the requests. -/
structure Registry where
  publishers : List SessionRef := []
  made : Nat := 0
  requests : Nat → Progress := fun _ => .arrived

/-- The next step of a request, or `remove_publishers`. -/
inductive RegistryEvent
  | advance (i : Nat)
  | removePublishers (key : StreamKey)
deriving DecidableEq

namespace Registry

/-- A request that is still to take a step. -/
def pending : Progress → Bool
  | .refused _ => false
  | .removed _ => false
  | .replied _ => false
  | _ => true

/-- The request goes on. -/
def goTo (w : Registry) (i : Nat) (p : Progress) : Registry :=
  { w with requests := Function.update w.requests i p }

/-- The session of `make_publisher`, a new object. -/
def makePublisher (w : Registry) (key : StreamKey) : SessionRef := ⟨w.made, key, .user, .flv, .rtmp⟩

/-- The next call of request `i`, which publishes to `key`. -/
def advance (w : Registry) (key : StreamKey) (i : Nat) : Registry :=
  match w.requests i with
  | .arrived =>
      if key.app = [] ∨ key.stream = [] then w.goTo i (.replied .notFound)
      else if SessionList.isExist w.publishers key then w.goTo i (.replied .internalError)
      else w.goTo i .absent
  | .absent =>
      if SessionList.isExist w.publishers key then w.goTo i (.replied .notFound)
      else { w.goTo i (.made (w.makePublisher key)) with made := w.made + 1 }
  | .made pub =>
      if SessionList.isExist w.publishers pub.key then w.goTo i (.refused pub)
      else w.goTo i (.keyAbsent pub)
  | .keyAbsent pub =>
      if SessionList.isExistSession w.publishers pub then w.goTo i (.refused pub)
      else w.goTo i (.sessionAbsent pub)
  | .sessionAbsent pub =>
      { w.goTo i (.added pub) with publishers := SessionList.pushBack w.publishers pub }
  | .added pub =>
      { w.goTo i (.removed pub) with publishers := SessionList.remove w.publishers pub }
  | .refused _ => w
  | .removed _ => w
  | .replied _ => w

/-- When a step may happen; `remove_publishers` asserts that it is given a name. -/
def Enabled (w : Registry) : RegistryEvent → Prop
  | .advance i => pending (w.requests i) = true
  | .removePublishers key => key.app ≠ [] ∨ key.stream ≠ []

instance (w : Registry) : ∀ a, Decidable (w.Enabled a)
  | .advance _ => inferInstanceAs (Decidable (_ = _))
  | .removePublishers _ => inferInstanceAs (Decidable (_ ∨ _))

/-- One step, when request `i` publishes to `targets i`. -/
def step (targets : Nat → StreamKey) (w : Registry) : RegistryEvent → Except Empty Registry
  | .advance i => .ok (w.advance (targets i) i)
  | .removePublishers key => .ok { w with publishers := SessionList.removeAll w.publishers key }

/-- At most one publisher for each application and stream, and no session twice. -/
def Unique (w : Registry) : Prop :=
  (w.publishers.map SessionRef.key).Nodup ∧ (w.publishers.map SessionRef.address).Nodup

end Registry

/-- The publish requests `targets` as a machine. -/
def registry (targets : Nat → StreamKey) : Machine Registry RegistryEvent Empty where
  init := {}
  enabled := Registry.Enabled
  step := Registry.step targets

end SeastarLive
