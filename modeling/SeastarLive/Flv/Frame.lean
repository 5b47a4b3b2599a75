/-
SeastarLive.Flv.Frame — what flows between a publisher and its players.

`src/flv/frame.hh`, `src/flv/media.hh`, `src/flv/metadata.hh` and the bases
in `src/frame/`. A `frame_t` carries exactly one of a media, a metadata or a
script pointer, and a flag that says which; here it is an inductive type, and
a read through one of the pointers is `derefMedia` or `derefMetadata`, which
fault when the frame carries something else.

* `float` values are exact rationals; a `double` may be no number (`Lib/Double`).
* `codec`, the printable codec name, is left out: no modelled function reads it.
-/
import SeastarLive.Lib.Double
import SeastarLive.Lib.Failure

namespace SeastarLive.Flv

/-! ## Faults -/

/-- The assertions of the modelled code. -/
inductive Assertion
  | setMinCacheDuration
  | forEachGop
  | updateGop
  | addFrameSize
  | packetSize
  | metadataLoad
  | tagHeaderRead
  | writeMedia
  | tagHeaderAudio
  | tagHeaderVideo
deriving DecidableEq

/-- What stops the process: a null pointer followed (`frame->media`,
    `frame->metadata`, `_meta`), or an assertion that fails. -/
inductive Fault
  | nullMedia
  | nullMetadata
  | nullMeta
  | assertion (a : Assertion)
deriving DecidableEq

/-- `assert(b)`. -/
def assert (a : Assertion) (b : Bool) : Except Fault Unit :=
  if b then .ok () else .error (.assertion a)

@[simp] theorem assert_true (a : Assertion) : assert a true = .ok () := rfl

@[simp] theorem assert_false (a : Assertion) :
    assert a false = .error (.assertion a) := rfl

/-! ## Media types -/

/-- `media_type_t`: two flag bits. -/
structure MediaType where
  video : Bool
  audio : Bool
deriving DecidableEq

namespace MediaType

def none : MediaType := ⟨false, false⟩
def onlyVideo : MediaType := ⟨true, false⟩
def onlyAudio : MediaType := ⟨false, true⟩
def all : MediaType := ⟨true, true⟩

/-- The operator `&` of the flag enumeration. -/
def and (a b : MediaType) : MediaType := ⟨a.video && b.video, a.audio && b.audio⟩

end MediaType

/-! ## Metadata -/

/-- `audio_meta_t`. -/
structure AudioMeta where
  codecid : Int := -1
  bitrate : Double := 0
  datarate : Double := 0
  samplerate : Nat := 0
  samplesize : Nat := 0
  channelCount : Nat := 0
  stereo : Bool := false
  aac : List UInt8 := []
  valid : Bool := false
deriving DecidableEq

/-- `video_meta_t`; `v` is the union of decoder configurations as its bytes. -/
structure VideoMeta where
  codecid : Int := -1
  bitrate : Double := 0
  datarate : Double := 0
  framerate : Nat := 0
  width : Nat := 0
  height : Nat := 0
  encoder : List Char := []
  v : List UInt8 := []
  valid : Bool := false
deriving DecidableEq

/-- `metadata_t`. -/
structure Metadata where
  video : VideoMeta := {}
  audio : AudioMeta := {}
deriving DecidableEq

/-- `meta_base::is_enabled`. -/
def AudioMeta.isEnabled (m : AudioMeta) : Bool := decide (0 ≤ m.codecid) && m.valid

/-- `meta_base::is_enabled`. -/
def VideoMeta.isEnabled (m : VideoMeta) : Bool := decide (0 ≤ m.codecid) && m.valid

/-- `audio_meta_t::operator==`; it does not compare `_valid`. -/
def AudioMeta.equal (a x : AudioMeta) : Bool :=
  a.codecid == x.codecid && a.bitrate.equal x.bitrate && a.datarate.equal x.datarate
    && a.samplerate == x.samplerate && a.samplesize == x.samplesize
    && a.channelCount == x.channelCount && a.stereo == x.stereo && a.aac == x.aac

/-- `video_meta_t::operator==`; it does not compare `_valid`. -/
def VideoMeta.equal (a x : VideoMeta) : Bool :=
  a.codecid == x.codecid && a.bitrate.equal x.bitrate && a.datarate.equal x.datarate
    && a.framerate == x.framerate && a.width == x.width && a.height == x.height
    && a.encoder == x.encoder && a.v == x.v

/-- Neither rate is NaN, so that the value is equal to itself. -/
def AudioMeta.Comparable (m : AudioMeta) : Prop := m.bitrate ≠ .nan ∧ m.datarate ≠ .nan

/-- Neither rate is NaN. -/
def VideoMeta.Comparable (m : VideoMeta) : Prop := m.bitrate ≠ .nan ∧ m.datarate ≠ .nan

instance (m : AudioMeta) : Decidable m.Comparable := inferInstanceAs (Decidable (_ ∧ _))

instance (m : VideoMeta) : Decidable m.Comparable := inferInstanceAs (Decidable (_ ∧ _))

theorem AudioMeta.equal_self (m : AudioMeta) : m.equal m = true ↔ m.Comparable := by
  simp [AudioMeta.equal, AudioMeta.Comparable]

theorem VideoMeta.equal_self (m : VideoMeta) : m.equal m = true ↔ m.Comparable := by
  simp [VideoMeta.equal, VideoMeta.Comparable]

namespace Metadata

/-- `metadata_t::operator==`. -/
def equal (a x : Metadata) : Bool := a.video.equal x.video && a.audio.equal x.audio

/-- No rate is NaN. -/
def Comparable (m : Metadata) : Prop := m.video.Comparable ∧ m.audio.Comparable

instance (m : Metadata) : Decidable m.Comparable := inferInstanceAs (Decidable (_ ∧ _))

theorem equal_self (m : Metadata) : m.equal m = true ↔ m.Comparable := by
  rw [equal, Bool.and_eq_true, VideoMeta.equal_self, AudioMeta.equal_self, Comparable]

/-- `metadata_base::is_enabled()`. -/
def isEnabled (m : Metadata) : Bool := m.audio.isEnabled || m.video.isEnabled

/-- `metadata_base::is_enabled(type)`. -/
def enables (m : Metadata) (type : MediaType) : Bool :=
  if (type.and .onlyVideo) != .none && !m.video.isEnabled then false
  else if (type.and .onlyAudio) != .none && !m.audio.isEnabled then false
  else true

/-- `metadata_base::media_options`. -/
def mediaOptions (m : Metadata) : MediaType := ⟨m.video.isEnabled, m.audio.isEnabled⟩

@[simp] theorem enables_onlyVideo (m : Metadata) :
    m.enables .onlyVideo = m.video.isEnabled := by
  simp only [enables, MediaType.and, MediaType.onlyVideo, MediaType.onlyAudio, MediaType.none]
  cases m.video.isEnabled <;> simp

@[simp] theorem enables_onlyAudio (m : Metadata) :
    m.enables .onlyAudio = m.audio.isEnabled := by
  simp only [enables, MediaType.and, MediaType.onlyVideo, MediaType.onlyAudio, MediaType.none]
  cases m.audio.isEnabled <;> simp

end Metadata

/-! ## Media and scripts -/

/-- `audio_media_t` and `video_media_t`, told apart by `isVideo`. -/
structure Media where
  isVideo : Bool := false
  isKeyframe : Bool := false
  dts : Int := 0
  cts : Nat := 0
  data : List UInt8 := []
deriving DecidableEq

namespace Media

/-- `media_base::media_type`. -/
def mediaType (m : Media) : MediaType := if m.isVideo then .onlyVideo else .onlyAudio

/-- `media_base::size`. -/
def size (m : Media) : Nat := m.data.length

/-- `media_base::set_dts`. -/
def setDts (m : Media) (dts : Int) : Media := { m with dts := dts }

end Media

/-- `script_t`. -/
structure Script where
  cmdName : List Char := []
  data : List UInt8 := []
deriving DecidableEq

/-! ## Frames -/

/-- `frame_t`: a frame of one of the three kinds. -/
inductive Frame
  | media (m : Media)
  | metadata (m : Metadata)
  | script (s : Script)
deriving DecidableEq

namespace Frame

/-- `is_media`. -/
def isMedia : Frame → Bool
  | media _ => true
  | metadata _ => false
  | script _ => false

/-- `is_metadata`. -/
def isMetadata : Frame → Bool
  | media _ => false
  | metadata _ => true
  | script _ => false

/-- `is_script`. -/
def isScript : Frame → Bool
  | media _ => false
  | metadata _ => false
  | script _ => true

/-- A read through `frame->media`. -/
def derefMedia : Frame → Except Fault Media
  | media m => .ok m
  | metadata _ => .error .nullMedia
  | script _ => .error .nullMedia

/-- A read through `frame->metadata`. -/
def derefMetadata : Frame → Except Fault Metadata
  | media _ => .error .nullMetadata
  | metadata m => .ok m
  | script _ => .error .nullMetadata

@[simp] theorem isMedia_media (x : Media) : (media x).isMedia = true := rfl
@[simp] theorem isMedia_metadata (x : Metadata) : (metadata x).isMedia = false := rfl
@[simp] theorem isMedia_script (x : Script) : (script x).isMedia = false := rfl
@[simp] theorem isMetadata_media (x : Media) : (media x).isMetadata = false := rfl
@[simp] theorem isMetadata_metadata (x : Metadata) : (metadata x).isMetadata = true := rfl
@[simp] theorem isMetadata_script (x : Script) : (script x).isMetadata = false := rfl
@[simp] theorem isScript_media (x : Media) : (media x).isScript = false := rfl
@[simp] theorem isScript_metadata (x : Metadata) : (metadata x).isScript = false := rfl
@[simp] theorem isScript_script (x : Script) : (script x).isScript = true := rfl
@[simp] theorem derefMedia_media (x : Media) : (media x).derefMedia = .ok x := rfl
@[simp] theorem derefMedia_metadata (x : Metadata) :
    (metadata x).derefMedia = .error .nullMedia := rfl
@[simp] theorem derefMedia_script (x : Script) : (script x).derefMedia = .error .nullMedia := rfl
@[simp] theorem derefMetadata_media (x : Media) :
    (media x).derefMetadata = .error .nullMetadata := rfl
@[simp] theorem derefMetadata_metadata (x : Metadata) : (metadata x).derefMetadata = .ok x := rfl
@[simp] theorem derefMetadata_script (x : Script) :
    (script x).derefMetadata = .error .nullMetadata := rfl

theorem isMedia_eq_false_of_isMetadata {f : Frame} (h : f.isMetadata = true) :
    f.isMedia = false := by
  cases f with
  | metadata m => rfl
  | media m => cases h
  | script s => cases h

end Frame

end SeastarLive.Flv
