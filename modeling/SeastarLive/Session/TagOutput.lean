/-
SeastarLive.Session.TagOutput — what a player writes for each frame.

`write_frame` with `write_meta` and `write_media` of `src/session/play_session.cc`
(HTTP-FLV), and `write_frame` with `write_metadata`, `write_audio_metadata`,
`write_video_metadata` and `write_media` of `src/session/rtmp/play_session.cc`.
`Session.PlaySession` has the loop around them and keeps no bytes.

* A `PlayBuffer` is a buffer given to the output: the FLV file header, or a tag. An
  RTMP packet is a tag as well, with the dts of the packet as its timestamp.
* Writes succeed here. What is logged is left out.
* Assertions are compiled in, as in a Debug build: one that fails is an error.
-/
import SeastarLive.Flv.MetadataTag
import SeastarLive.Session.PlaySession

namespace SeastarLive

open Flv

/-- What a player gives to its output. -/
inductive PlayBuffer
  | flvHeader (audio video : Bool)
  | tag (type : TagType) (body : TagBody) (timestamp : Int)
deriving DecidableEq

/-- The bytes of a buffer of an HTTP-FLV player. -/
def PlayBuffer.bytes (double : Double → List UInt8) : PlayBuffer → List UInt8
  | flvHeader audio video => headerData audio video
  | tag type body timestamp => makeTagData type (body.bytes double) timestamp

/-- `pipe_state`. -/
structure PipeState where
  flvHeaderSent : Bool := false
  metadata : Option Metadata := none
deriving DecidableEq

/-- `media_t::type`. -/
def Flv.Media.tagType (media : Media) : TagType := if media.isVideo then .video else .audio

/-- The test of `allow_media_type`. -/
def Flv.MediaType.allows (mediaType type : MediaType) : Bool := mediaType.and type != .none

/-- The operator `~` of the flag enumeration. -/
def Flv.MediaType.compl (a : MediaType) : MediaType := ⟨!a.video, !a.audio⟩

/-! ## HTTP-FLV -/

namespace HttpFlv

variable (saver : ConfigSaver)

/-- `write_meta`. -/
def writeMeta (st : PipeState) (m : Metadata) : PipeState × List PlayBuffer :=
  let header := if st.flvHeaderSent then [] else [.flvHeader m.audio.isEnabled m.video.isEnabled]
  let script := [.tag .script m.toTagData 0]
  let audio := if m.audio.isEnabled then [.tag .audio (.raw (m.audio.toTagData saver)) 0] else []
  let video := if m.video.isEnabled then [.tag .video (.raw (m.video.toTagData saver)) 0] else []
  ({ st with flvHeaderSent := true }, header ++ script ++ audio ++ video)

/-- `write_media`. -/
def writeMedia (st : PipeState) (frame : Frame) : Except Fault (List PlayBuffer) := do
  assert .writeMedia st.metadata.isSome
  match st.metadata with
  | none => .ok []
  | some metadata => do
      let media ← frame.derefMedia
      let body ← media.toTagData metadata
      .ok [.tag media.tagType (.raw body) media.dts]

/-- `write_frame`: what is not metadata is taken for media. -/
def writeFrame (st : PipeState) (frame : Frame) : Except Fault (PipeState × List PlayBuffer) :=
  if frame.isMetadata then do
    let metadata ← frame.derefMetadata
    .ok (writeMeta saver { st with metadata := some metadata } metadata)
  else do
    let buffers ← writeMedia st frame
    .ok (st, buffers)

end HttpFlv

/-! ## RTMP -/

namespace RtmpPlay

variable (saver : ConfigSaver) (mediaType : MediaType)

/-- `write_audio_metadata`. -/
def writeAudioMetadata (audio : AudioMeta) : List PlayBuffer :=
  if !audio.isEnabled then []
  else
    let ahb := audio.toTagData saver
    if ahb.isEmpty || !mediaType.allows .onlyAudio then [] else [.tag .audio (.raw ahb) 0]

/-- `write_video_metadata`. -/
def writeVideoMetadata (video : VideoMeta) : List PlayBuffer :=
  if !video.isEnabled then []
  else
    let vhb := video.toTagData saver
    if vhb.isEmpty || !mediaType.allows .onlyVideo then [] else [.tag .video (.raw vhb) 0]

/-- The copy that `write_metadata` makes when the metadata has more than the player wants. -/
def wanted (metadata : Metadata) : Metadata :=
  let duplicating := metadata.mediaOptions.and mediaType.compl != .none
  if duplicating then metadata.masked mediaType else metadata

/-- `write_metadata`. -/
def writeMetadata (metadata : Metadata) : List PlayBuffer :=
  let metadata := wanted mediaType metadata
  let script :=
    match metadata.toTagData with
    | .raw [] => []
    | body => [.tag .script body 0]
  script ++ writeAudioMetadata saver mediaType metadata.audio
    ++ writeVideoMetadata saver mediaType metadata.video

/-- `write_media`. -/
def writeMedia (st : PipeState) (frame : Frame) : Except Fault (List PlayBuffer) := do
  assert .writeMedia st.metadata.isSome
  match st.metadata with
  | none => .ok []
  | some metadata => do
      let media ← frame.derefMedia
      let data ← media.toTagData metadata
      if data.isEmpty then .ok []
      else .ok [.tag (if media.isVideo then .video else .audio) (.raw data) media.dts]

/-- `write_frame`. -/
def writeFrame (st : PipeState) (frame : Frame) : Except Fault (PipeState × List PlayBuffer) :=
  match frame with
  | .metadata metadata =>
      .ok ({ st with metadata := some metadata }, writeMetadata saver mediaType metadata)
  | .script script => .ok (st, [.tag .script (.raw script.data) 0])
  | .media _ => do
      let buffers ← writeMedia st frame
      .ok (st, buffers)

end RtmpPlay

/-! ## A sequence of frames -/

/-- The frames that `on_frame` does not turn away, whichever kind the player is. -/
def admits (mediaType : MediaType) : Frame → Bool
  | .media media => mediaType.allows media.mediaType
  | .metadata _ => true
  | .script _ => true

/-- What is written for frames one after the other; a fault ends it. -/
def emit (write : PipeState → Frame → Except Fault (PipeState × List PlayBuffer)) :
    PipeState → List Frame → List PlayBuffer
  | _, [] => []
  | st, frame :: frames =>
      match write st frame with
      | .error _ => []
      | .ok (st, buffers) => buffers ++ emit write st frames

/-- What an HTTP-FLV player with this media type writes of the frames it receives. -/
def emitHttpFlv (saver : ConfigSaver) (mediaType : MediaType) (frames : List Frame) :
    List PlayBuffer :=
  emit (HttpFlv.writeFrame saver) {} (frames.filter (admits mediaType))

/-- What an RTMP player with this media type writes of the frames it receives. -/
def emitRtmp (saver : ConfigSaver) (mediaType : MediaType) (frames : List Frame) :
    List PlayBuffer :=
  emit (RtmpPlay.writeFrame saver mediaType) {} (frames.filter (admits mediaType))

/-! ## The loop of the player -/

/-- The filter is that of `on_frame`. -/
theorem skips_eq_admits (p : Player) (frame : Frame) :
    p.skips frame = .ok (!admits p.mediaType frame) := by
  cases frame <;> rfl

/-- The loop of `Session.PlaySession` takes the same metadata and meets the same faults. -/
theorem writeFrameFlv_pipe (saver : ConfigSaver) {p : Player} {st : PipeState}
    (h : st.metadata = p.pipe) (frame : Frame) :
    (p.writeFrameFlv frame).map Player.pipe
      = (HttpFlv.writeFrame saver st frame).map fun r => r.1.metadata := by
  unfold Player.writeFrameFlv HttpFlv.writeFrame
  cases frame with
  | metadata m => rfl
  | script s =>
      simp only [Player.writeMedia, HttpFlv.writeMedia, h]
      cases hpipe : p.pipe <;> simp [Except.map]
  | media x =>
      simp only [Player.writeMedia, HttpFlv.writeMedia, h]
      cases hpipe : p.pipe with
      | none => simp [Except.map]
      | some m => cases hbody : x.toTagData m <;> simp [Except.map, hbody, Player.record, h, hpipe]

/-- So does the loop of an RTMP player. -/
theorem writeFrameRtmp_pipe (saver : ConfigSaver) {p : Player} {st : PipeState}
    (h : st.metadata = p.pipe) (frame : Frame) :
    (p.writeFrameRtmp frame).map Player.pipe
      = (RtmpPlay.writeFrame saver p.mediaType st frame).map fun r => r.1.metadata := by
  unfold Player.writeFrameRtmp RtmpPlay.writeFrame
  cases frame with
  | metadata m => rfl
  | script s => simp [Except.map, Player.record, h]
  | media x =>
      simp only [Player.writeMedia, RtmpPlay.writeMedia, h]
      cases hpipe : p.pipe with
      | none => simp [Except.map]
      | some m =>
          cases hbody : x.toTagData m with
          | error e => simp [Except.map, hbody]
          | ok data => cases data <;> simp [Except.map, hbody, Player.record, h, hpipe]

end SeastarLive
