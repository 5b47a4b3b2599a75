/-
SeastarLive.Session.PlayerStart — players that start on a publisher with no metadata.

A publisher can be found from its registration on; its read loop starts later.
`play_session::on_begin` of `src/session/play_session.cc` copies the metadata
of the publisher (`copy_meta` of `src/session/session.cc`) without a look at
whether it has some; `on_begin` of the publisher clears it, and a metadata
frame that is accepted sets it.

* `registered` is the machine of `Session.PublishSession` with `start_with` of
  the publisher as a step of its own.
* `begunAt` is a record, read by no step: how many frames had been accepted when
  the publisher last ran `on_begin`.
-/
import SeastarLive.Session.RepeatedMetadata

namespace SeastarLive

open Flv

/-! ## The machine -/

/-- A publisher from its registration on, and its players. -/
structure RegisteredPublisher where
  session : PublishSession
  begunAt : Nat := 0

inductive RegisteredEvent
  /-- `start_with` of the publisher, up to its read loop. -/
  | startWith
  | event (e : PublishEvent)
deriving DecidableEq

/-- `start_with` up to the read loop: `on_begin`, and a fresh `pipe_state`. -/
def PublishSession.startWith (s : PublishSession) : PublishSession :=
  let begun := s.onBegin
  { begun with
    world := { begun.world with pub := { begun.world.pub with phase := .idle } }
    metadata := none
    headerSent := false }

namespace RegisteredPublisher

/-- `start_with` is called while the read loop does not run. -/
def Enabled (w : RegisteredPublisher) : RegisteredEvent → Prop
  | .startWith => w.session.world.Enabled .terminatePublisher
  | .event e => w.session.Enabled e

instance (w : RegisteredPublisher) : ∀ a, Decidable (w.Enabled a)
  | .startWith => inferInstanceAs (Decidable (w.session.world.Enabled .terminatePublisher))
  | .event e => inferInstanceAs (Decidable (w.session.Enabled e))

def step (g : GlobalSettings) (loader : Loader) (w : RegisteredPublisher) :
    RegisteredEvent → Except Fault RegisteredPublisher
  | .startWith =>
      .ok { session := w.session.startWith, begunAt := w.session.world.pub.accepted.length }
  | .event e => do
      let session ← w.session.step g loader e
      .ok { w with session }

end RegisteredPublisher

/-- A publisher that was registered and has not started to read, and players. -/
def registered (g : GlobalSettings) (loader : Loader) (roles : Nat → PlayerKind × MediaType) :
    Machine RegisteredPublisher RegisteredEvent Fault where
  init :=
    { session :=
        { world := { (broadcast g roles).init with pub := { phase := .ended [] } } } }
  enabled := RegisteredPublisher.Enabled
  step := RegisteredPublisher.step g loader

/-! ## What the metadata of a publisher comes from -/

/-- A metadata frame that enables a track. -/
def Flv.Frame.announces : Frame → Bool
  | .metadata m => m.isEnabled
  | .media _ => false
  | .script _ => false

/-- What a step of the publisher takes: nothing, or one frame, which it looked at. -/
def Publisher.Takes (w t : Publisher) : Prop :=
  (t.accepted = w.accepted ∧ t.impl.sessionMeta = w.impl.sessionMeta)
    ∨ ∃ f, t.accepted = w.accepted ++ [f] ∧ w.impl.onFrame f = .ok t.impl
      ∧ f.announces = f.isMetadata

theorem Publisher.takes_recv {w t : Publisher} {f : Frame} (hf : f.announces = f.isMetadata)
    (h : w.recv f = .ok t) : w.Takes t := by
  obtain ⟨⟨cache, added⟩, -, h⟩ := bind_eq_ok h
  cases added with
  | false =>
      cases h
      exact .inl ⟨rfl, rfl⟩
  | true =>
      obtain ⟨impl, himpl, h⟩ := bind_eq_ok h
      cases h
      exact .inr ⟨f, rfl, himpl, hf⟩

namespace PublishSession

variable {g : GlobalSettings} {loader : Loader} {s t : PublishSession} {f : Frame}

theorem announces_rectifyDts (s : PublishSession) (hf : f.announces = f.isMetadata) :
    (s.rectifyDts f).2.announces = (s.rectifyDts f).2.isMetadata := by
  cases f with
  | media media => rfl
  | metadata m => exact hf
  | script script => rfl

theorem takes_addFrame (hf : f.announces = f.isMetadata) (h : s.addFrame f = .ok t) :
    s.world.pub.Takes t.world.pub := by
  obtain ⟨pub, hpub, h⟩ := bind_eq_ok h
  cases h
  have hrecv : s.world.pub.recv (s.rectifyDts f).2 = .ok pub := by
    rw [← rectifyDts_world s f]
    exact hpub
  exact Publisher.takes_recv (announces_rectifyDts s hf) hrecv

theorem takes_addFrameTo (h : s.addFrameTo f = .ok t) : s.world.pub.Takes t.world.pub := by
  cases f with
  | metadata m =>
      simp only [addFrameTo] at h
      split at h
      · cases h
        exact .inl ⟨rfl, rfl⟩
      · split at h
        · cases h
          exact .inl ⟨rfl, rfl⟩
        · rename_i henabled
          have hf : (Frame.metadata m).announces = true := by
            simpa [Frame.announces] using henabled
          exact takes_addFrame (s := { s with metadata := some m, headerSent := false }) hf h
  | media media =>
      obtain ⟨-, -, h⟩ := bind_eq_ok h
      exact takes_addFrame rfl h
  | script script => exact takes_addFrame (f := .script script) rfl h

theorem takes_recvFails (s : PublishSession) (what : List Char) :
    s.world.pub.Takes (s.recvFails what).world.pub :=
  .inl ⟨rfl, SessionImpl.sessionMeta_complete _ _⟩

theorem takes_onRecvPacket {pkt : Packet} (h : s.onRecvPacket g loader pkt = .ok t) :
    s.world.pub.Takes t.world.pub := by
  unfold onRecvPacket at h
  split at h
  · cases h
    exact .inl ⟨rfl, rfl⟩
  · split at h
    · cases h
      exact takes_recvFails s _
    · obtain ⟨received, -, h⟩ := bind_eq_ok h
      cases received with
      | ready =>
          cases h
          exact .inl ⟨rfl, rfl⟩
      | exception what =>
          cases h
          exact takes_recvFails s what
      | frame f => exact takes_addFrameTo h

theorem takes_step {a : PublishEvent} (henabled : s.Enabled a)
    (h : s.step g loader a = .ok t) : s.world.pub.Takes t.world.pub := by
  cases a with
  | packet pkt => exact takes_onRecvPacket h
  | other e =>
      obtain ⟨world, hworld, h⟩ := bind_eq_ok h
      cases h
      have hrecv : ∀ f, e ≠ .recv f := by
        rintro f rfl
        exact Bool.noConfusion henabled.1
      exact .inl (Broadcast.accepted_of_step hworld hrecv)

end PublishSession

namespace RegisteredPublisher

variable {g : GlobalSettings} {loader : Loader} {roles : Nat → PlayerKind × MediaType}
  {w t : RegisteredPublisher} {i : Nat}

/-- The frames accepted since `on_begin` of the publisher. -/
def acceptedSince (w : RegisteredPublisher) : List Frame :=
  w.session.world.pub.accepted.drop w.begunAt

/-- A metadata frame that enables a track was accepted since `on_begin` of the publisher. -/
def announced (w : RegisteredPublisher) : Bool := w.acceptedSince.any Frame.announces

/-- The publisher has metadata exactly if some was accepted since its `on_begin`. -/
structure Inv (w : RegisteredPublisher) : Prop where
  begunAt_le : w.begunAt ≤ w.session.world.pub.accepted.length
  isSome_eq : w.session.world.pub.impl.sessionMeta.isSome = w.announced

theorem Inv.init : (registered g loader roles).init.Inv where
  begunAt_le := Nat.zero_le _
  isSome_eq := rfl

/-- `on_begin` clears the metadata, and nothing was accepted since. -/
theorem Inv.startWith (w : RegisteredPublisher) :
    Inv ⟨w.session.startWith, w.session.world.pub.accepted.length⟩ where
  begunAt_le := Nat.le_refl _
  isSome_eq := by
    show false = (w.session.world.pub.accepted.drop w.session.world.pub.accepted.length).any _
    rw [List.drop_length, List.any_nil]

theorem Inv.event {e : PublishEvent} (hw : w.Inv) (henabled : w.Enabled (.event e))
    (hrun : w.step g loader (.event e) = .ok t) : t.Inv := by
  obtain ⟨session, hsession, hrun⟩ := bind_eq_ok hrun
  cases hrun
  have hle := hw.begunAt_le
  rcases PublishSession.takes_step henabled hsession with
    ⟨haccepted, hmeta⟩ | ⟨f, haccepted, hframe, hf⟩
  · constructor
    · simpa only [haccepted] using hle
    · simpa only [announced, acceptedSince, haccepted, hmeta] using hw.isSome_eq
  · have hsince : session.world.pub.accepted.drop w.begunAt = w.acceptedSince ++ [f] := by
      rw [haccepted, List.drop_append_of_le_length hle]
      rfl
    constructor
    · simp only [haccepted, List.length_append]
      omega
    · show _ = (session.world.pub.accepted.drop w.begunAt).any Frame.announces
      rw [SessionImpl.isSome_sessionMeta_of_onFrame hframe, hw.isSome_eq, hsince,
        List.any_append, List.any_cons, List.any_nil, Bool.or_false, hf]
      rfl

theorem inv_of_reachable (h : (registered g loader roles).Reachable w) : w.Inv := by
  refine h.invariant Inv.init ?_
  intro w a t hw henabled hrun
  cases a with
  | startWith =>
      cases hrun
      exact Inv.startWith w
  | event e => exact hw.event henabled hrun

/-! ## Starting a player -/

/-- A player starts. -/
abbrev startPlayer (i : Nat) : RegisteredEvent := .event (.other (.begin i))

/-- The start of a player does not copy from a null pointer. -/
def StartsSafely (g : GlobalSettings) (loader : Loader) (w : RegisteredPublisher) (i : Nat) :
    Prop :=
  w.step g loader (startPlayer i) ≠ .error .nullMeta

/-- A player starts only behind a metadata frame, unless it is an HLS player. -/
def startsAnnounced (w : RegisteredPublisher) : RegisteredEvent → Bool
  | .event (.other (.begin i)) =>
      decide ((w.session.world.players i).kind = .hls) || w.announced
  | _ => true

/-- A step that is no start, or meets the condition. -/
def StartsAnnounced (w : RegisteredPublisher) (a : RegisteredEvent) : Prop :=
  w.startsAnnounced a = true

instance (w : RegisteredPublisher) (a : RegisteredEvent) : Decidable (w.StartsAnnounced a) :=
  inferInstanceAs (Decidable (_ = true))

/-- The start copies the metadata of the publisher as it finds it. -/
theorem startsSafely_iff :
    StartsSafely g loader w i ↔ (w.session.world.players i).kind = .hls
      ∨ w.session.world.pub.impl.sessionMeta.isSome = true := by
  have hstep : w.step g loader (startPlayer i) = .error .nullMeta
      ↔ (w.session.world.players i).onBegin w.session.world.pub.impl = .error .nullMeta := by
    simp only [step, PublishSession.step, Broadcast.step]
    cases (w.session.world.players i).onBegin w.session.world.pub.impl with
    | error e => simp
    | ok p => simp
  unfold StartsSafely
  rw [ne_eq, hstep]
  unfold Player.onBegin SessionImpl.copyMeta
  cases (w.session.world.players i).kind <;> cases w.session.world.pub.impl.sessionMeta <;> simp

variable (g loader roles)

/-- In every run in which RTMP and HTTP-FLV players start only after the publisher accepted
    metadata since its `on_begin`, every start is safe; and a start that comes sooner is not. -/
theorem startsSafely_of_announced :
    (∀ w, ((registered g loader roles).restrict StartsAnnounced).Reachable w →
        ∀ i, w.Enabled (startPlayer i) → w.StartsAnnounced (startPlayer i) →
          StartsSafely g loader w i)
      ∧ ∀ w, (registered g loader roles).Reachable w →
        ∀ i, StartsSafely g loader w i ↔ w.StartsAnnounced (startPlayer i) := by
  have hiff : ∀ w, (registered g loader roles).Reachable w →
      ∀ i, StartsSafely g loader w i ↔ w.StartsAnnounced (startPlayer i) := by
    intro w hw i
    rw [startsSafely_iff, (inv_of_reachable hw).isSome_eq]
    simp only [StartsAnnounced, startsAnnounced, Bool.or_eq_true, decide_eq_true_eq]
  exact ⟨fun w hw i _ hstart => (hiff w hw.of_restrict i).mpr hstart, hiff⟩

end RegisteredPublisher

instance (g : GlobalSettings) (loader : Loader) (roles : Nat → PlayerKind × MediaType)
    (w : RegisteredPublisher) (a : RegisteredEvent) :
    Decidable ((registered g loader roles).enabled w a) :=
  inferInstanceAs (Decidable (w.Enabled a))

namespace RegisteredPublisher

/-- The loads of the source, for a session that meets AV1 only. -/
def av1Loader : Loader := loaderAt noParsers (fun _ => 0) 0

/-- An AV1 sequence header without configuration OBUs. -/
def av1Packet : Packet := { data := [0x1d, 0, 0, 0, 0, 0x81, 0, 0, 0] }

/-- An RTMP player starts behind a sequence header. -/
theorem startsSafely_av1 :
    ∃ w, ((registered {} av1Loader fun _ => (.rtmp, .all)).restrict
        StartsAnnounced).Reachable w
      ∧ w.announced = true ∧ StartsSafely {} av1Loader w 0 := by
  obtain ⟨w, hw, hp⟩ := Machine.reachable_of_runs
    (M := (registered {} av1Loader fun _ => (.rtmp, .all)).restrict StartsAnnounced)
    (p := fun w => w.announced && decide (w.Enabled (startPlayer 0)))
    [.startWith, .event (.packet av1Packet)] (by decide +kernel)
  obtain ⟨hannounced, henabled⟩ := (Bool.and_eq_true _ _).mp hp
  have hstart : w.StartsAnnounced (startPlayer 0) := by
    simp only [StartsAnnounced, startsAnnounced, hannounced, Bool.or_true]
  exact ⟨w, hw, hannounced, (startsSafely_of_announced {} av1Loader _).1 w hw 0
    (of_decide_eq_true henabled) hstart⟩

/-- An RTMP player starts on a publisher that read a packet without metadata. -/
theorem starts_without_metadata :
    ¬ ∀ (loader : Loader) (roles : Nat → PlayerKind × MediaType) (w : RegisteredPublisher),
      (registered {} loader roles).Reachable w →
      ∀ i, w.Enabled (startPlayer i) → StartsSafely {} loader w i := by
  intro hall
  obtain ⟨w, hw, hp⟩ := Machine.reachable_of_runs
    (M := registered {} av1Loader fun _ => (.rtmp, .all))
    (p := fun w => decide (w.Enabled (startPlayer 0)
      ∧ (w.session.world.players 0).kind ≠ .hls
      ∧ w.session.world.pub.impl.sessionMeta.isSome = false))
    [.startWith, .event (.packet sampleAccessPacket)] (by decide +kernel)
  obtain ⟨henabled, hkind, hnone⟩ := of_decide_eq_true hp
  rcases startsSafely_iff.mp (hall _ _ w hw 0 henabled) with hhls | hsome
  · exact hkind hhls
  · rw [hnone] at hsome
    cases hsome

end RegisteredPublisher

end SeastarLive
