/-
SeastarLive.Flv.MetadataLoad — what `load` does to metadata.

`metadata_t::load`, `audio_meta_t::load` and `video_meta_t::load` of
`src/flv/metadata.cc`. A load has a return value, and an effect on the value
it is called on also where it fails; `none` is an assertion that fails.

* The bytes of an AMF number become a value by `double`, a parameter: a result
  for every reading of them.
* The decoders of AAC, AVC, HEVC and AV1 configurations are parameters
  (`DecoderRecords`). Whether assertions are compiled in is one too.
* A conversion of a `double` out of range, undefined in the source, wraps, and
  one of what is no number gives 0.
-/
import SeastarLive.Flv.AmfItems
import SeastarLive.Flv.MetadataTag

namespace SeastarLive.Flv

/-! ## The properties of onMetaData -/

/-- The local variables `metadata_t::load` reads properties into; `audiodelay` and the
    others nothing reads are left out. -/
structure MetaItems where
  audiocodecid : Double := 0
  audiodatarate : Double := 0
  audiosamplerate : Double := 0
  audiosamplesize : Double := 0
  stereo : UInt8 := 0
  videocodecid : Double := 0
  videodatarate : Double := 0
  framerate : Double := 0
  height : Double := 0
  width : Double := 0
  encoder : List UInt8 := []
  fps : Double := 0
deriving DecidableEq

/-- `prop[18]`, in the order of the source. -/
def metadataProps (double : List UInt8 → Double) : List (AmfObjectItem MetaItems) :=
  [⟨amfNumber, "audiocodecid", .number fun b m => { m with audiocodecid := double b }⟩,
   ⟨amfNumber, "audiodatarate", .number fun b m => { m with audiodatarate := double b }⟩,
   ⟨amfNumber, "audiodelay", .ignored⟩,
   ⟨amfNumber, "audiosamplerate", .number fun b m => { m with audiosamplerate := double b }⟩,
   ⟨amfNumber, "audiosamplesize", .number fun b m => { m with audiosamplesize := double b }⟩,
   ⟨amfBoolean, "stereo", .boolean fun b m => { m with stereo := b }⟩,
   ⟨amfBoolean, "canSeekToEnd", .ignored⟩,
   ⟨amfString, "creationdate", .ignored⟩,
   ⟨amfNumber, "duration", .ignored⟩,
   ⟨amfNumber, "filesize", .ignored⟩,
   ⟨amfNumber, "videocodecid", .number fun b m => { m with videocodecid := double b }⟩,
   ⟨amfNumber, "videodatarate", .number fun b m => { m with videodatarate := double b }⟩,
   ⟨amfNumber, "framerate", .number fun b m => { m with framerate := double b }⟩,
   ⟨amfNumber, "height", .number fun b m => { m with height := double b }⟩,
   ⟨amfNumber, "width", .number fun b m => { m with width := double b }⟩,
   ⟨amfObject, "keyframes", .ignored⟩,
   ⟨amfString, "encoder", .string 256 fun b m => { m with encoder := b }⟩,
   ⟨amfNumber, "fps", .number fun b m => { m with fps := double b }⟩]

/-! ## Conversions -/

/-- `(int32_t)x`, and the shift of such a value. -/
def toInt32 (n : Int) : Int := (n + 2147483648) % 4294967296 - 2147483648

/-- A `double` without its fraction. -/
def truncate : Double → Int
  | .number x => if 0 ≤ x then x.floor else x.ceil
  | _ => 0

/-- `(uint32_t)x`. -/
def toUInt32 (x : Double) : Nat := (truncate x % 4294967296).toNat

/-- `(uint8_t)x`. -/
def toUInt8 (x : Double) : Nat := (truncate x % 256).toNat

/-- The C string in a buffer. -/
def cString (bytes : List UInt8) : List Char :=
  (bytes.takeWhile (· != 0)).map fun b => Char.ofNat b.toNat

/-- `strstr`: the text before the first place where `pattern` occurs. -/
def beforeFirst (pattern : List Char) : List Char → Option (List Char)
  | [] => if pattern.isEmpty then some [] else none
  | c :: rest =>
      if pattern.isPrefixOf (c :: rest) then some []
      else (beforeFirst pattern rest).map (c :: ·)

/-- "compress encoder into 32 bytes". -/
def compressEncoder (encoder : List Char) : List Char :=
  if "obs-output module ".toList.isPrefixOf encoder then encoder.drop 18
  else if "Open Broadcaster Software".toList.isPrefixOf encoder then
    "OBS".toList ++ encoder.drop 25
  else
    match beforeFirst " (Windows)".toList encoder with
    | some (c :: name) => c :: name
    | _ => encoder

/-! ## `metadata_t::load` -/

/-- `EINVAL`. -/
def einval : Int := 22

/-- The fields of `audio` that the properties set. -/
def MetaItems.assignAudio (items : MetaItems) (audio : AudioMeta) : AudioMeta :=
  if items.audiocodecid.Positive then
    { audio with
      codecid := toInt32 (toInt32 (truncate items.audiocodecid) * 16)
      datarate := items.audiodatarate
      bitrate := items.audiodatarate.times 1000
      samplesize := toUInt32 items.audiosamplesize
      samplerate := toUInt32 items.audiosamplerate
      stereo := items.stereo != 0 }
  else {}

/-- The fields of `video` that the properties set. -/
def MetaItems.assignVideo (items : MetaItems) (video : VideoMeta) : VideoMeta :=
  if items.videocodecid.Positive then
    { video with
      framerate := toUInt8 (if items.fps.Positive then items.fps else items.framerate)
      codecid := toInt32 (truncate items.videocodecid)
      datarate := items.videodatarate
      bitrate := items.videodatarate.times 1000
      width := toUInt32 items.width
      height := toUInt32 items.height
      encoder := compressEncoder (cString items.encoder) }
  else {}

/-- The two halves of a metadata after `onMetaData`. -/
def MetaItems.assign (items : MetaItems) (metadata : Metadata) : Metadata where
  audio := items.assignAudio metadata.audio
  video := items.assignVideo metadata.video

/-- `metadata_t::load`. -/
def metadataLoad (asserts : Bool) (double : List UInt8 → Double) (metadata : Metadata)
    (data : List UInt8) : Option (Int × Metadata) :=
  match amfReadItems asserts (metadataProps double) {} data with
  | .done items _ => some (0, items.assign metadata)
  -- `assert(0)`, and `return EINVAL` where it is not compiled in
  | .null => if asserts then none else some (einval, metadata)
  | _ => none

/-! ## The loads of `video_meta_t` and `audio_meta_t` -/

/-- The decoder configuration records, loaded into a value for a codec that has one. -/
structure DecoderRecords where
  video : Int → VideoMeta → List UInt8 → Option (Int × VideoMeta)
  audio : Int → AudioMeta → List UInt8 → Option (Int × AudioMeta)

/-- The cases of `video_meta_t::_load`. -/
def hasVideoRecord (cid : Int) : Bool :=
  cid == flvVideoH264 || cid == flvVideoAvcc || cid == flvVideoH265 || cid == flvVideoHvcc
    || cid == flvVideoAv1 || cid == flvVideoAv1c

/-- The cases of `audio_meta_t::_load` that do not return -1. -/
def hasAudioRecord (cid : Int) : Bool := cid == flvAudioAac || cid == flvAudioAsc

/-- `video_meta_t::load`. -/
def videoLoad (records : DecoderRecords) (video : VideoMeta) (cid : Int) (data : List UInt8) :
    Option (Int × VideoMeta) := do
  let video := { video with codecid := cid }
  if data.isEmpty || !hasVideoRecord cid then return (-1, video)
  let (rt, video) ← records.video cid video data
  return (rt, if 0 ≤ rt then { video with valid := true } else video)

/-- `audio_meta_t::load`. -/
def audioLoad (records : DecoderRecords) (audio : AudioMeta) (cid : Int) (data : List UInt8) :
    Option (Int × AudioMeta) := do
  let audio := { audio with codecid := cid }
  if data.isEmpty || !hasAudioRecord cid then return (-1, audio)
  let (rt, audio) ← records.audio cid audio data
  return (rt, if 0 ≤ rt then { audio with valid := true } else audio)

/-- A codec without a record is refused, once `codecid` is overwritten. -/
theorem videoLoad_unknown (records : DecoderRecords) (video : VideoMeta) {cid : Int}
    (h : hasVideoRecord cid = false) (data : List UInt8) :
    videoLoad records video cid data = some (-1, { video with codecid := cid }) := by
  simp [videoLoad, h]

theorem audioLoad_unknown (records : DecoderRecords) (audio : AudioMeta) {cid : Int}
    (h : hasAudioRecord cid = false) (data : List UInt8) :
    audioLoad records audio cid data = some (-1, { audio with codecid := cid }) := by
  simp [audioLoad, h]

end SeastarLive.Flv
