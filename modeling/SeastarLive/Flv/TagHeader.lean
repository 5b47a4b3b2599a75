/-
SeastarLive.Flv.TagHeader — the codec header in front of a media payload.

`flv_audio_tag_header_read/write` and `flv_video_tag_header_read/write` of
`3rd/libflv/source/flv-header.c`, and `tag_header` and `to_tag_data` of
`src/flv/media.cc` on top of them. A buffer is a list of bytes; a negative
return value is `none`.
-/
import SeastarLive.Flv.Frame

namespace SeastarLive.Flv

/-! ## Codec and packet types -/

def flvAudioAac : Nat := 160
def flvAudioOpus : Nat := 208
def flvVideoH264 : Nat := 7
def flvVideoH265 : Nat := 12
def flvVideoAv1 : Nat := 13

def flvSequenceHeader : Nat := 0
def flvAvPacket : Nat := 1
def flvEndOfSequence : Nat := 2

/-! ## Header values -/

/-- `flv_audio_tag_header_t`; every field is a byte. -/
structure AudioTagHeader where
  codecid : Nat := 0
  rate : Nat := 0
  bits : Nat := 0
  channels : Nat := 0
  avpacket : Nat := 0
deriving DecidableEq

/-- `flv_video_tag_header_t`; every field but `cts` is a byte. -/
structure VideoTagHeader where
  codecid : Nat := 0
  keyframe : Nat := 0
  avpacket : Nat := 0
  cts : Int := 0
deriving DecidableEq

/-- The audio codecs with an `AACPacketType` byte. -/
def hasAacPacketType (codecid : Nat) : Bool :=
  codecid == flvAudioAac || codecid == flvAudioOpus

/-- The video codecs with an `AVCPacketType` byte and a composition time. -/
def hasAvcPacketType (codecid : Nat) : Bool :=
  codecid == flvVideoH264 || codecid == flvVideoH265 || codecid == flvVideoAv1

/-- Three bytes as a signed big-endian number. -/
def signed24 (b₀ b₁ b₂ : UInt8) : Int :=
  let n := b₀.toNat * 65536 + b₁.toNat * 256 + b₂.toNat
  if n < 8388608 then n else (n : Int) - 16777216

/-! ## Reading -/

/-- `flv_audio_tag_header_read`: the header and its length. -/
def audioTagHeaderRead (buf : List UInt8) :
    Except Fault (Option (AudioTagHeader × Nat)) :=
  match buf with
  | [] => .error (.assertion .tagHeaderRead)
  | b₀ :: rest =>
      let audio : AudioTagHeader :=
        { codecid := b₀.toNat / 16 * 16
          rate := b₀.toNat / 4 % 4
          bits := b₀.toNat / 2 % 2
          channels := b₀.toNat % 2 }
      if hasAacPacketType audio.codecid then
        match rest with
        | [] => .error (.assertion .tagHeaderRead)
        | b₁ :: _ => do
            assert .tagHeaderRead
              (b₁.toNat == flvSequenceHeader || b₁.toNat == flvAvPacket)
            return some ({ audio with avpacket := b₁.toNat }, 2)
      else .ok (some (audio, 1))

/-- `flv_video_tag_header_read`: the header and its length. -/
def videoTagHeaderRead (buf : List UInt8) :
    Except Fault (Option (VideoTagHeader × Nat)) :=
  match buf with
  | [] => .error (.assertion .tagHeaderRead)
  | b₀ :: rest =>
      let video : VideoTagHeader :=
        { keyframe := b₀.toNat / 16, codecid := b₀.toNat % 16 }
      if hasAvcPacketType video.codecid then
        match rest with
        | b₁ :: b₂ :: b₃ :: b₄ :: _ => do
            assert .tagHeaderRead (b₁.toNat == flvSequenceHeader
              || b₁.toNat == flvAvPacket || b₁.toNat == flvEndOfSequence)
            return some ({ video with avpacket := b₁.toNat, cts := signed24 b₂ b₃ b₄ }, 5)
        | _ => .ok none
      else .ok (some (video, 1))

/-! ## Writing -/

/-- `flv_audio_tag_header_write` into a buffer of `FLV_AUDIO_TAG_HEADER_SIZE`. -/
def audioTagHeaderWrite (audio : AudioTagHeader) : List UInt8 :=
  if hasAacPacketType audio.codecid then
    [UInt8.ofNat audio.codecid ||| 15, UInt8.ofNat audio.avpacket]
  else
    [UInt8.ofNat audio.codecid ||| UInt8.ofNat (audio.rate % 4 * 4)
      ||| UInt8.ofNat (audio.bits % 2 * 2) ||| UInt8.ofNat (audio.channels % 2)]

/-- `flv_video_tag_header_write` into a buffer of `FLV_VIDEO_TAG_HEADER_SIZE`. -/
def videoTagHeaderWrite (video : VideoTagHeader) : List UInt8 :=
  let b₀ := UInt8.ofNat (video.keyframe * 16) ||| UInt8.ofNat (video.codecid % 16)
  if hasAvcPacketType video.codecid then
    [b₀, UInt8.ofNat video.avpacket, UInt8.ofNat (video.cts / 65536 % 256).toNat,
      UInt8.ofNat (video.cts / 256 % 256).toNat, UInt8.ofNat (video.cts % 256).toNat]
  else [b₀]

/-- `flv_rate_index_from_samplerate`, as the byte it is stored in. -/
def rateIndexFromSamplerate (samplerate : Nat) : Nat :=
  match samplerate with
  | 5500 => 0
  | 11025 => 1
  | 22050 => 2
  | 44100 => 3
  | n => if n > 44100 then 3 else 255

/-- `flv_bits_index_from_samplesize`, as the byte it is stored in. -/
def bitsIndexFromSamplesize (samplesize : Nat) : Nat :=
  match samplesize with
  | 8 => 0
  | 16 => 1
  | _ => 255

namespace Media

/-- `audio_media_t::tag_header` and `video_media_t::tag_header`. -/
def tagHeader (media : Media) (metadata : Metadata) : Except Fault (List UInt8) :=
  if media.isVideo then do
    assert .tagHeaderVideo metadata.video.isEnabled
    return videoTagHeaderWrite
      { codecid := (metadata.video.codecid % 256).toNat
        avpacket := flvAvPacket
        keyframe := if media.isKeyframe then 1 else 2
        cts := media.cts }
  else do
    assert .tagHeaderAudio metadata.audio.isEnabled
    return audioTagHeaderWrite
      { codecid := (metadata.audio.codecid % 256).toNat
        avpacket := flvAvPacket
        rate := rateIndexFromSamplerate metadata.audio.samplerate
        bits := bitsIndexFromSamplesize metadata.audio.samplesize
        channels := if metadata.audio.stereo then 1 else 0 }

/-- `to_tag_data`: the header followed by the payload. -/
def toTagData (media : Media) (metadata : Metadata) : Except Fault (List UInt8) := do
  let header ← media.tagHeader metadata
  return header ++ media.data

/-- `to_tag_data` asserts that the metadata enables the media type, and nothing else. -/
theorem toTagData_cases (media : Media) (metadata : Metadata) :
    (metadata.enables media.mediaType = true ∧ ∃ body, media.toTagData metadata = .ok body)
      ∨ (metadata.enables media.mediaType = false
          ∧ media.toTagData metadata
              = .error (.assertion (if media.isVideo then .tagHeaderVideo
                  else .tagHeaderAudio))) := by
  unfold toTagData tagHeader mediaType
  cases hv : media.isVideo with
  | true => cases he : metadata.video.isEnabled <;> simp [he]
  | false => cases he : metadata.audio.isEnabled <;> simp [he]

end Media

end SeastarLive.Flv
