/-
SeastarLive.Session.StartWith — the life of a session, from its registration to the end
of `start_with` or `start`.

`session_impl::on_launch`, `on_begin` and `on_terminate` of
`src/session/session.cc`, and the functions that call them in turn:
`start_with` of `src/session/rtmp/publish_session.cc`,
`src/session/rtmp/play_session.cc` and `src/session/play_session.cc`, and
`start` of `src/session/hls/play_session.cc`, with the registration of
`src/server/transmition.cc`.

* Each kind of session has its list of steps. Other code may run between two
  of them: `end`, `cancel` and `fail` come from other shards, and the
  publisher of a player goes on by itself.
* An iteration of the loop (`read_once`, `write_once`) ends in one of the ways
  its continuations tell apart; what it reads or writes is in
  `Session.PublishSession` and `Session.PlaySession`.
* `end` of the publisher's input, and a directory that cannot be made, are
  steps of their own.
* `ends`, `registered` and `iterations` are records, read by no step of the code.
-/
import SeastarLive.Lib.Transition
import SeastarLive.Server.SessionList
import SeastarLive.Session.Outcome

namespace SeastarLive

/-! ## Sessions -/

inductive SessionKind
  | publisher
  | player (kind : PlayerKind)
deriving DecidableEq

/-- An exception that the loop or a step before it has left behind. -/
inductive Exception
  | timedOut (what : List Char)
  | other (what : List Char)
deriving DecidableEq

/-- The steps that `start_with` and `start` are made of. -/
inductive StartStep
  | onLaunch
  /-- `_pub->is_done()`. -/
  | testDone
  | onBegin
  | initDirectory
  | loop
  /-- The `then_wrapped` behind the loop. -/
  | thenWrapped
  /-- The `finally` that ends a session without a flag. -/
  | finallyEnd
  /-- The `then_wrapped` of `do_start`. -/
  | startThenWrapped
  | onEnd
  | onTerminate
  /-- Make the exception that says that the publisher is done. -/
  | throwNoContent
deriving DecidableEq

/-- What stops the process: `copy_meta` of a session without metadata, a read through
    `_pub` once it is null, and the last branch of `on_terminate`. -/
inductive StartFault
  | nullMeta
  | nullPub
  | noFlag
deriving DecidableEq

/-- The calls that `on_terminate` makes on the lifecycle. -/
inductive LifecycleEnd
  | onFail (code : StatusCode) (message : List Char)
  | onCancel
  | onDone
deriving DecidableEq

/-- A session and the list it is registered in. `pub` is the session of the publisher
    that a player plays, and `todo` is what is left of `start_with` or `start`. -/
structure LiveSession where
  kind : SessionKind
  self : SessionRef
  impl : SessionImpl := {}
  pub : Option SessionImpl := none
  lifecycle : Bool := false
  sessions : List SessionRef := []
  todo : List StartStep
  iterating : Bool := false
  error : Option Exception := none
  ends : List LifecycleEnd := []
  registered : Bool := false
  iterations : Nat := 0

/-! ## Programs -/

/-- `rtmp::svr::publish_session::start_with`. -/
def publishStartWith : List StartStep :=
  [.onLaunch, .onBegin, .loop, .thenWrapped, .finallyEnd, .onEnd, .onTerminate]

/-- `rtmp::svr::play_session::start_with`. -/
def rtmpStartWith : List StartStep :=
  [.onLaunch, .testDone, .onBegin, .loop, .thenWrapped, .finallyEnd, .onEnd, .onTerminate]

/-- `svr::play_session::start_with`. -/
def httpFlvStartWith : List StartStep :=
  [.testDone, .onLaunch, .onBegin, .loop, .thenWrapped, .finallyEnd, .onEnd, .onTerminate]

/-- `hls::play_session::start`, with `do_start` and `do_write`. -/
def hlsStart : List StartStep :=
  [.onLaunch, .onBegin, .initDirectory, .loop, .finallyEnd, .startThenWrapped, .onEnd,
    .onTerminate]

def startSteps : SessionKind → List StartStep
  | .publisher => publishStartWith
  | .player .rtmp => rtmpStartWith
  | .player .httpFlv => httpFlvStartWith
  | .player .hls => hlsStart

/-- What is left once `_pub->is_done()` has answered `true`. -/
def afterDone : SessionKind → List StartStep
  | .player .httpFlv => [.onTerminate, .throwNoContent]
  | _ => [.onTerminate]

/-- What is left of `hls::play_session::start` when the directory cannot be made. -/
def afterDirectory : List StartStep := [.startThenWrapped, .onEnd, .onTerminate]

/-- The status code under which the `then_wrapped` behind the loop fails the session. -/
def failCode : SessionKind → StatusCode
  | .publisher => .recvFailed
  | .player _ => .sendFailed

/-! ## Steps -/

namespace LiveSession

/-- `on_begin`; the RTMP and the HTTP-FLV player copy the metadata of the publisher. -/
def onBegin (m : LiveSession) : Except StartFault LiveSession :=
  match m.kind with
  | .publisher => .ok { m with impl := m.impl.onBegin }
  | .player .hls => .ok { m with impl := m.impl.onBegin }
  | .player _ =>
      match m.pub with
      | none => .ok { m with impl := m.impl.onBegin }
      | some pub =>
          match pub.sessionMeta with
          | none => .error .nullMeta
          | some metadata =>
              .ok { m with impl := { m.impl.onBegin with sessionMeta := some metadata } }

/-- The branch behind the loop for exceptions; a timeout passes through it. -/
def thenWrapped (m : LiveSession) : SessionImpl :=
  match m.error with
  | some (.other what) =>
      if m.impl.failed then m.impl else m.impl.complete (.failed ⟨failCode m.kind, what⟩)
  | _ => m.impl

/-- A session that nothing else completed is done. -/
def finallyEnd (m : LiveSession) : SessionImpl :=
  if m.impl.canceled || m.impl.timeout || m.impl.failed then m.impl else m.impl.complete .done

/-- The end of `do_start`. -/
def startThenWrapped (m : LiveSession) : SessionImpl :=
  match m.error with
  | none => m.impl.complete .done
  | some (.other what) =>
      if m.impl.failed then m.impl else m.impl.complete (.failed ⟨.failed, what⟩)
  | some (.timedOut what) =>
      if m.impl.failed then m.impl else m.impl.complete (.failed ⟨.failed, what⟩)

/-- The lifecycle is told, and takes the session off the list (`on_session_end`). -/
def sessionEnd (m : LiveSession) (e : LifecycleEnd) : LiveSession :=
  { m with
    ends := m.ends ++ [e]
    sessions := SessionList.remove m.sessions m.self
    lifecycle := false
    pub := none }

/-- `on_terminate`. -/
def onTerminate (m : LiveSession) : Except StartFault LiveSession :=
  if !m.lifecycle then .ok { m with pub := none }
  else if m.impl.failed || m.impl.timeout then
    .ok (m.sessionEnd (.onFail m.impl.status.code m.impl.status.content))
  else if m.impl.canceled then .ok (m.sessionEnd .onCancel)
  else if m.impl.done then .ok (m.sessionEnd .onDone)
  else .error .noFlag

/-- The next step of `start_with` or `start`. -/
def advance (m : LiveSession) : Except StartFault LiveSession :=
  match m.todo with
  | [] => .ok m
  | .onLaunch :: rest => .ok { m with impl := { m.impl with status := {} }, todo := rest }
  | .testDone :: rest =>
      match m.pub with
      | none => .error .nullPub
      | some pub => .ok { m with todo := if pub.done then afterDone m.kind else rest }
  | .onBegin :: rest => do
      let m ← m.onBegin
      .ok { m with todo := rest }
  | .initDirectory :: rest => .ok { m with todo := rest }
  | .loop :: rest =>
      if m.impl.isComplete then .ok { m with todo := rest }
      else .ok { m with iterating := true, iterations := m.iterations + 1 }
  | .thenWrapped :: rest => .ok { m with impl := m.thenWrapped, todo := rest }
  | .finallyEnd :: rest => .ok { m with impl := m.finallyEnd, todo := rest }
  | .startThenWrapped :: rest => .ok { m with impl := m.startThenWrapped, todo := rest }
  | .onEnd :: rest => .ok { m with todo := rest }
  | .onTerminate :: rest => do
      let m ← m.onTerminate
      .ok { m with todo := rest }
  | .throwNoContent :: rest =>
      match m.pub with
      | none => .error .nullPub
      | some _ => .ok { m with todo := rest }

end LiveSession

/-! ## The machine -/

/-- What the publisher of a player does meanwhile. -/
inductive PublisherStep
  | begin
  | call (c : SessionCall)
  | onMeta (metadata : Flv.Metadata)
deriving DecidableEq

def SessionImpl.publisherStep (s : SessionImpl) : PublisherStep → SessionImpl
  | .begin => s.onBegin
  | .call c => s.call c
  | .onMeta metadata => s.onMeta metadata

inductive LiveEvent
  /-- `add_publisher` or `add_player` takes the session. -/
  | register
  | advance
  /-- The loop finds its input at the end. -/
  | eof
  /-- An iteration comes to its end. -/
  | returned
  /-- `with_frames` is given an empty batch. -/
  | endOfStream
  /-- The wait of an iteration times out. -/
  | timedOut (what : List Char)
  | threw (what : List Char)
  /-- `init_directory` throws. -/
  | directoryFails (what : List Char)
  /-- `end`, `cancel` or `fail`. -/
  | complete (how : Completion)
  | publisher (p : PublisherStep)
  /-- Another session is registered or removed. -/
  | joins (s : SessionRef)
  | leaves (s : SessionRef)
deriving DecidableEq

namespace LiveSession

/-- When a step may happen. -/
def Enabled (m : LiveSession) : LiveEvent → Prop
  | .register =>
      m.registered = false ∧ SessionList.isExistSession m.sessions m.self = false
  | .advance => m.registered = true ∧ m.iterating = false
  | .eof => m.kind = .publisher ∧ m.registered = true ∧ m.iterating = false
      ∧ m.todo.head? = some .loop
  | .returned => m.iterating = true
  | .endOfStream => m.iterating = true ∧ m.kind ≠ .publisher
  | .timedOut _ => m.iterating = true
  -- `write_once` of the HLS player ignores what its frames throw
  | .threw _ => m.iterating = true ∧ m.kind ≠ .player .hls
  | .directoryFails _ => m.registered = true ∧ m.todo.head? = some .initDirectory
  | .complete _ => m.registered = true
  | .publisher _ => True
  | .joins s => s.address ≠ m.self.address
  | .leaves s => s.address ≠ m.self.address

instance (m : LiveSession) : ∀ a, Decidable (m.Enabled a)
  | .register => inferInstanceAs (Decidable (_ ∧ _))
  | .advance => inferInstanceAs (Decidable (_ ∧ _))
  | .eof => inferInstanceAs (Decidable (_ ∧ _))
  | .returned => inferInstanceAs (Decidable (_ = _))
  | .endOfStream => inferInstanceAs (Decidable (_ ∧ _))
  | .timedOut _ => inferInstanceAs (Decidable (_ = _))
  | .threw _ => inferInstanceAs (Decidable (_ ∧ _))
  | .directoryFails _ => inferInstanceAs (Decidable (_ ∧ _))
  | .complete _ => inferInstanceAs (Decidable (_ = _))
  | .publisher _ => inferInstanceAs (Decidable True)
  | .joins _ => inferInstanceAs (Decidable (_ ≠ _))
  | .leaves _ => inferInstanceAs (Decidable (_ ≠ _))

def step (m : LiveSession) : LiveEvent → Except StartFault LiveSession
  | .register =>
      .ok { m with
        registered := true
        lifecycle := true
        sessions := SessionList.pushBack m.sessions m.self }
  | .advance => m.advance
  | .eof => .ok { m with todo := m.todo.tail }
  | .returned => .ok { m with iterating := false }
  | .endOfStream => .ok { m with impl := m.impl.complete .done, iterating := false }
  | .timedOut what =>
      .ok { m with
        impl := m.impl.onTimeout
        iterating := false
        error := some (.timedOut what)
        todo := m.todo.tail }
  | .threw what =>
      .ok { m with iterating := false, error := some (.other what), todo := m.todo.tail }
  | .directoryFails what =>
      .ok { m with error := some (.other what), todo := afterDirectory }
  | .complete how => .ok { m with impl := m.impl.complete how }
  | .publisher p => .ok { m with pub := m.pub.map fun s => s.publisherStep p }
  | .joins s => .ok { m with sessions := SessionList.pushBack m.sessions s }
  | .leaves s => .ok { m with sessions := SessionList.remove m.sessions s }

end LiveSession

/-- The publisher that a session of a kind plays, when the session is made. -/
def madeWith : SessionKind → Option SessionImpl
  | .publisher => none
  | .player _ => some {}

/-- A session of a kind that has just been made, and the sessions listed then. -/
def liveSession (kind : SessionKind) (self : SessionRef) (others : List SessionRef) :
    Machine LiveSession LiveEvent StartFault where
  init := { kind, self, pub := madeWith kind, sessions := others, todo := startSteps kind }
  enabled := LiveSession.Enabled
  step := LiveSession.step

instance (kind : SessionKind) (self : SessionRef) (others : List SessionRef) (m : LiveSession)
    (a : LiveEvent) : Decidable ((liveSession kind self others).enabled m a) :=
  inferInstanceAs (Decidable (m.Enabled a))

end SeastarLive
