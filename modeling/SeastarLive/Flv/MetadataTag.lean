/-
SeastarLive.Flv.MetadataTag — the bodies of the tags made from a metadata.

`audio_meta_t::save`, `video_meta_t::save`, the three `to_tag_data` and the
masking copy of `src/flv/metadata.cc`, and the `AMFWrite` functions they use.

* The writers of decoder configurations are parameters (`ConfigSaver`), and so
  are the eight bytes of a double.
* A metadata body is kept as its AMF items; `TagBody.bytes` gives its bytes.
  The buffer of `metadata_t::to_tag_data` has 1024 bytes, which is enough for
  the encoder names of at most 255 bytes that `metadata_t::load` stores.
-/
import SeastarLive.Flv.Tag
import SeastarLive.Flv.TagHeader

namespace SeastarLive.Flv

def flvAudioAsc : Int := 256
def flvVideoAvcc : Int := 512
def flvVideoHvcc : Int := 513
def flvVideoAv1c : Int := 514

/-! ## Decoder configurations -/

/-- `mpeg4_aac_audio_specific_config_save` and its like, on the bytes of a configuration; a
    negative return value is `none`. -/
structure ConfigSaver where
  aac : List UInt8 → Option (List UInt8)
  avc : List UInt8 → Option (List UInt8)
  hevc : List UInt8 → Option (List UInt8)
  av1 : List UInt8 → Option (List UInt8)

/-- `audio_meta_t::save`. -/
def AudioMeta.save (saver : ConfigSaver) (m : AudioMeta) : Option (List UInt8) :=
  if !m.isEnabled then none
  else if m.codecid = flvAudioAac ∨ m.codecid = flvAudioAsc then saver.aac m.aac
  else none

/-- `video_meta_t::save`. -/
def VideoMeta.save (saver : ConfigSaver) (m : VideoMeta) : Option (List UInt8) :=
  if !m.isEnabled then none
  else if m.codecid = flvVideoH264 ∨ m.codecid = flvVideoAvcc then saver.avc m.v
  else if m.codecid = flvVideoH265 ∨ m.codecid = flvVideoHvcc then saver.hevc m.v
  else if m.codecid = flvVideoAv1 ∨ m.codecid = flvVideoAv1c then saver.av1 m.v
  else none

/-- `audio_meta_t::to_tag_data`: a sequence header; empty if there is nothing to save. -/
def AudioMeta.toTagData (saver : ConfigSaver) (m : AudioMeta) : List UInt8 :=
  if !m.isEnabled then []
  else
    match m.save saver with
    | none => []
    | some config =>
        audioTagHeaderWrite
            { codecid := (m.codecid % 256).toNat
              avpacket := flvSequenceHeader
              rate := rateIndexFromSamplerate m.samplerate
              bits := bitsIndexFromSamplesize m.samplesize
              channels := if m.stereo then 1 else 0 }
          ++ config

/-- `video_meta_t::to_tag_data`. -/
def VideoMeta.toTagData (saver : ConfigSaver) (m : VideoMeta) : List UInt8 :=
  if !m.isEnabled then []
  else
    match m.save saver with
    | none => []
    | some config =>
        videoTagHeaderWrite
            { codecid := (m.codecid % 256).toNat
              avpacket := flvSequenceHeader
              keyframe := 1
              cts := 0 }
          ++ config

/-! ## onMetaData -/

inductive AmfValue
  | number (x : Double)
  | boolean (b : Bool)
  | string (s : List Char)
deriving DecidableEq

/-- A named value of an AMF array. -/
structure AmfItem where
  name : List Char
  value : AmfValue
deriving DecidableEq

def AudioMeta.items (m : AudioMeta) : List AmfItem :=
  [⟨"audiocodecid".toList, .number ((m.codecid / 16 : Int) : Double)⟩,
    ⟨"audiodatarate".toList, .number m.datarate⟩,
    ⟨"audiosamplerate".toList, .number m.samplerate⟩,
    ⟨"audiosamplesize".toList, .number m.samplesize⟩,
    ⟨"stereo".toList, .boolean m.stereo⟩]

def VideoMeta.items (m : VideoMeta) : List AmfItem :=
  [⟨"videocodecid".toList, .number m.codecid⟩,
    ⟨"videodatarate".toList, .number m.datarate⟩,
    ⟨"framerate".toList, .number m.framerate⟩,
    ⟨"height".toList, .number m.height⟩,
    ⟨"width".toList, .number m.width⟩,
    ⟨"displayWidth".toList, .number m.width⟩,
    ⟨"displayHeight".toList, .number m.height⟩,
    ⟨"fps".toList, .number m.framerate⟩,
    ⟨"encoder".toList, .string m.encoder⟩]

/-- The body of a tag. -/
inductive TagBody
  /-- The `onMetaData` array. -/
  | onMetaData (count : Nat) (items : List AmfItem)
  | raw (data : List UInt8)
deriving DecidableEq

/-- `metadata_t::to_tag_data`: empty if no track is enabled. -/
def Metadata.toTagData (m : Metadata) : TagBody :=
  if !m.audio.isEnabled && !m.video.isEnabled then .raw []
  else
    .onMetaData ((if m.audio.isEnabled then 5 else 0) + if m.video.isEnabled then 9 else 0)
      ((if m.audio.isEnabled then m.audio.items else [])
        ++ if m.video.isEnabled then m.video.items else [])

/-- The array announces as many items as it has. -/
theorem Metadata.toTagData_count {m : Metadata} {count : Nat} {items : List AmfItem}
    (h : m.toTagData = .onMetaData count items) : count = items.length := by
  unfold Metadata.toTagData at h
  split at h
  · cases h
  · cases h
    cases m.audio.isEnabled <;> cases m.video.isEnabled <;> rfl

/-! ## Bytes -/

section Bytes

variable (double : Double → List UInt8)

/-- The two length bytes and the characters of a string. -/
def amfWriteString16 (s : List Char) : List UInt8 :=
  [UInt8.ofNat (s.length / 256), UInt8.ofNat s.length] ++ s.map fun c => UInt8.ofNat c.toNat

/-- `AMFWriteDouble`, `AMFWriteBoolean` and `AMFWriteString`. -/
def AmfValue.bytes : AmfValue → List UInt8
  | number x => 0 :: double x
  | boolean b => [1, if b then 1 else 0]
  | string s => 2 :: amfWriteString16 s

/-- `AMFWriteNamedDouble`, `AMFWriteNamedBoolean` and `AMFWriteNamedString`. -/
def AmfItem.bytes (item : AmfItem) : List UInt8 :=
  amfWriteString16 item.name ++ item.value.bytes double

def TagBody.bytes : TagBody → List UInt8
  | onMetaData count items =>
      2 :: amfWriteString16 "onMetaData".toList ++ 8 :: beWriteUint32 count
        ++ items.flatMap (AmfItem.bytes double) ++ [0, 0, 9]
  | raw data => data

end Bytes

/-! ## The masking copy -/

/-- The codecs whose configuration `video_meta_t::operator=` copies. -/
def VideoMeta.copiesConfig (m : VideoMeta) : Bool :=
  decide (m.codecid ∈ [(flvVideoH264 : Int), flvVideoAvcc, flvVideoH265, flvVideoHvcc,
    flvVideoAv1, flvVideoAv1c])

/-- `video_meta_t::operator=` into a new object. -/
def VideoMeta.assigned (m : VideoMeta) : VideoMeta :=
  { m with v := if m.copiesConfig then m.v else [] }

/-- `metadata_t(x, media_type)`. -/
def Metadata.masked (x : Metadata) (mediaType : MediaType) : Metadata :=
  { video := if mediaType.and .onlyVideo != .none then x.video.assigned else {}
    audio := if mediaType.and .onlyAudio != .none then x.audio else {} }

@[simp] theorem VideoMeta.assigned_isEnabled (m : VideoMeta) :
    m.assigned.isEnabled = m.isEnabled := rfl

@[simp] theorem VideoMeta.assigned_items (m : VideoMeta) : m.assigned.items = m.items := rfl

/-- The copy has the sequence header of the original. -/
@[simp] theorem VideoMeta.assigned_toTagData (saver : ConfigSaver) (m : VideoMeta) :
    m.assigned.toTagData saver = m.toTagData saver := by
  have hsave : m.assigned.save saver = m.save saver := by
    unfold VideoMeta.save
    by_cases hcopy : m.copiesConfig = true
    · simp [VideoMeta.assigned, hcopy, VideoMeta.isEnabled]
    · have hnone : ¬ (m.codecid = flvVideoH264 ∨ m.codecid = flvVideoAvcc)
          ∧ ¬ (m.codecid = flvVideoH265 ∨ m.codecid = flvVideoHvcc)
          ∧ ¬ (m.codecid = flvVideoAv1 ∨ m.codecid = flvVideoAv1c) := by
        simp only [VideoMeta.copiesConfig, List.mem_cons, List.not_mem_nil, or_false,
          decide_eq_true_eq, not_or] at hcopy ⊢
        omega
      simp only [VideoMeta.assigned, hnone.1, hnone.2.1, hnone.2.2, if_false, ite_self]
  unfold VideoMeta.toTagData
  rw [hsave]
  rfl

@[simp] theorem Metadata.masked_video_isEnabled (x : Metadata) (t : MediaType) :
    (x.masked t).video.isEnabled = (t.video && x.video.isEnabled) := by
  cases t with
  | mk video audio =>
      cases video <;> cases audio <;>
        simp [Metadata.masked, MediaType.and, MediaType.onlyVideo, MediaType.none,
          VideoMeta.isEnabled, VideoMeta.assigned]

@[simp] theorem Metadata.masked_audio_isEnabled (x : Metadata) (t : MediaType) :
    (x.masked t).audio.isEnabled = (t.audio && x.audio.isEnabled) := by
  cases t with
  | mk video audio =>
      cases video <;> cases audio <;>
        simp [Metadata.masked, MediaType.and, MediaType.onlyAudio, MediaType.none,
          AudioMeta.isEnabled]

end SeastarLive.Flv
