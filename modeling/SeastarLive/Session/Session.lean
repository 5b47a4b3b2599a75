/-
SeastarLive.Session.Session — what every session keeps.

`src/session/session.cc`, with the settings of `src/app/global_setting.hh` a
session reads. `SessionImpl` is the state of `session_impl` that the frame
path uses: the completion flags and status, the dts of the first and the last
media frame, and the current metadata.

`_auto_complete` is `true` and is never written, so the branches under it are
the ones taken.
-/
import SeastarLive.Flv.Frame

namespace SeastarLive

open Flv

/-- `global_settings`, with its defaults; `float` values are exact rationals. -/
structure GlobalSettings where
  rtmpMinCacheDuration : Rat := 6
  rtmpMaxGopDuration : Rat := 60
  rtmpMaxGopBytes : Rat := 300 * 1024 * 1024
  maxBytesPerBox : Nat := 2 * 1024 * 1024

/-- `status_t`. -/
inductive StatusCode
  | ok
  | failed
  | cancel
  | noContent
  | notFound
  | gone
  | redirect
  | timeout
  | badRequest
  | conflict
  | sendFailed
  | recvFailed
  | connect
  | disconnect
  | internalError
deriving DecidableEq

/-- `status`. -/
structure Status where
  code : StatusCode := .ok
  content : List Char := []
deriving DecidableEq

/-- `session_impl`. -/
structure SessionImpl where
  done : Bool := false
  canceled : Bool := false
  failed : Bool := false
  timeout : Bool := false
  status : Status := {}
  startDts : Int := -1
  currentDts : Int := -1
  /-- `_meta`. -/
  sessionMeta : Option Metadata := none
deriving DecidableEq

/-- The calls that complete a session: `end`, `cancel` and `fail`. -/
inductive Completion
  | done
  | canceled
  | failed (st : Status)
deriving DecidableEq

namespace SessionImpl

/-- `is_complete`. -/
def isComplete (s : SessionImpl) : Bool := s.done || s.canceled || s.failed || s.timeout

/-- The state written by `_end`, `_cancel` and `_fail`; a complete session stays. -/
def complete (s : SessionImpl) (how : Completion) : SessionImpl :=
  if s.isComplete then s
  else match how with
    | .done => { s with done := true, status := ⟨.ok, []⟩ }
    | .canceled => { s with canceled := true, status := ⟨.cancel, []⟩ }
    | .failed st => { s with failed := true, status := st }

/-- `on_timeout`; it does not ask whether the session is complete. -/
def onTimeout (s : SessionImpl) : SessionImpl :=
  { s with timeout := true, status := ⟨.timeout, "timed out".toList⟩ }

/-- `on_begin`. -/
def onBegin (s : SessionImpl) : SessionImpl :=
  { s with
    done := false
    canceled := false
    failed := false
    timeout := false
    sessionMeta := none }

/-- `on_media`. -/
def onMedia (s : SessionImpl) (media : Media) : SessionImpl :=
  { s with
    startDts := if s.startDts = -1 then media.dts else s.startDts
    currentDts := media.dts }

/-- `on_meta`; the comparison is of two addresses that always differ. -/
def onMeta (s : SessionImpl) (metadata : Metadata) : SessionImpl :=
  { s with sessionMeta := some metadata }

/-- `on_frame`: what is not metadata is taken for media. -/
def onFrame (s : SessionImpl) (frame : Frame) : Except Fault SessionImpl :=
  if frame.isMetadata then do
    let metadata ← frame.derefMetadata
    return s.onMeta metadata
  else do
    let media ← frame.derefMedia
    return s.onMedia media

/-- `copy_meta`. -/
def copyMeta (s : SessionImpl) : Except Fault Metadata :=
  match s.sessionMeta with
  | some metadata => .ok metadata
  | none => .error .nullMeta

/-! ## Frame lemmas -/

theorem onFrame_ok {s : SessionImpl} {f : Frame} (hf : f.isScript = false) :
    ∃ t, s.onFrame f = .ok t ∧ t.isComplete = s.isComplete := by
  cases f with
  | media m => exact ⟨s.onMedia m, rfl, rfl⟩
  | metadata m => exact ⟨s.onMeta m, rfl, rfl⟩
  | script x => cases hf

theorem isComplete_complete (s : SessionImpl) (how : Completion) :
    (s.complete how).isComplete = true := by
  unfold complete
  split
  · assumption
  · cases how <;> simp [isComplete]

@[simp] theorem sessionMeta_complete (s : SessionImpl) (how : Completion) :
    (s.complete how).sessionMeta = s.sessionMeta := by
  unfold complete
  split
  · rfl
  · cases how <;> rfl

/-- Only metadata changes whether the session has some. -/
theorem isSome_sessionMeta_of_onFrame {s t : SessionImpl} {f : Frame}
    (h : s.onFrame f = .ok t) :
    t.sessionMeta.isSome = (s.sessionMeta.isSome || f.isMetadata) := by
  cases f with
  | media media =>
      cases h
      simp [onMedia]
  | metadata m =>
      cases h
      simp [onMeta]
  | script x => cases h

theorem isComplete_onTimeout (s : SessionImpl) : s.onTimeout.isComplete = true := by
  simp [onTimeout, isComplete]

end SessionImpl

/-- `validate_cache`, on the bytes and the duration of the cache. -/
def GlobalSettings.validateCache (g : GlobalSettings) (bytes : Nat) (duration : Rat) : Bool :=
  let outOfBytes := decide (g.rtmpMaxGopBytes < bytes)
  let outOfDuration := decide (g.rtmpMaxGopDuration < duration)
  !outOfBytes && !outOfDuration

end SeastarLive
