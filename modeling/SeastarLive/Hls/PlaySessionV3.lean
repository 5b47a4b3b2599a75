/-
SeastarLive.Hls.PlaySessionV3 — the HLS player that cuts a stream into MPEG-TS
fragments.

`src/session/hls/play_session_v3.cc`, with `do_write`, `write_once` and
`add_play_item` of `src/session/hls/play_session.cc`.

* One frame is one step. In between it waits for a file only; the states there
  are those in which the step ends when that file is not written.
* `.error s` is an exception thrown in the state `s`. `write_once` ignores it:
  the frames left in the batch are dropped, which is another sequence of frames.
* `mpeg_ts_write` hands its packets to `on_data` before it returns; which
  packets, what it returns and which files are written is part of a step
  (`WriteOutcome`), and so are the settings at the time. `mpeg_ts_reset` writes
  no packet. The codec converters are parameters.
* A `float` of the settings is a rational: the threshold at which the test of the source, which is
  made in single precision, starts to hold. No `int64_t` overflows but the sum of dts
  and cts. A configuration is its bytes, and the first of them its profile.
* `latestVideo`, `latestAudio`, `accepted`, `dumped`, `conversions`, `published`
  and `Fragment.frames` are records, read by no step.
-/
import SeastarLive.Flv.MetadataTag
import SeastarLive.Hls.Tracer
import SeastarLive.Session.Session

namespace SeastarLive

open Flv

/-! ## Data -/

/-- `ts_stream_info`; `config` is the member of the union that belongs to the codec. -/
structure TsStreamInfo where
  streamId : Int
  codecId : Int
  config : List UInt8
deriving DecidableEq

/-- `fragment_t`; `frames` are the positions in `accepted` of the frames it got. -/
structure Fragment where
  id : Int
  firstDts : Int
  firstPts : Int
  startByKeyframe : Bool
  size : Nat := 0
  bufs : List (List UInt8) := []
  frames : List Nat := []
deriving DecidableEq

/-- `fragment_t::write`. -/
def Fragment.write (frag : Fragment) (data : List UInt8) : Fragment :=
  if data.length = 0 then frag
  else { frag with size := frag.size + data.length, bufs := frag.bufs ++ [data] }

/-- What `mpeg_ts_write` is given. -/
structure MpegFrame where
  streamId : Int
  flags : Nat
  pts : Int
  dts : Int
  data : List UInt8
deriving DecidableEq

/-- `h264_mp4toannexb`, `h265_mp4toannexb` and `mpeg4_aac_adts_save`, on the bytes of a
    configuration and of a frame, or on its length; a negative return value is `none`. -/
structure TsConverter where
  h264 : List UInt8 → List UInt8 → Option (List UInt8)
  hevc : List UInt8 → List UInt8 → Option (List UInt8)
  adts : List UInt8 → Nat → Option (List UInt8)

/-- What the muxer, the files and the settings do in one step. -/
structure WriteOutcome where
  /-- The packets that `mpeg_ts_write` hands to `on_data`. -/
  packets : List (List UInt8) := [[0x47]]
  /-- What `mpeg_ts_write` returns. -/
  ret : Int := 0
  fileWritten : Bool := true
  /-- The playlist file is written after an item is added. -/
  playlistWritten : Bool := true
  /-- The items after whose removal the playlist file is not written. -/
  failedRemovals : List Nat := []
  /-- What `mpeg_ts_add_program_stream` returns. -/
  videoStreamId : Int := 256
  audioStreamId : Int := 257
  fragmentDuration : Rat := 1
  playlistMinDuration : Rat := 6
  maxFragments : Nat := 512
deriving DecidableEq

/-- A frame that `write_ts_frame` wrote, and the packets it became. -/
structure AcceptedFrame where
  frame : Media
  mpegFrame : MpegFrame
  packets : List (List UInt8)

/-- A fragment file, and the dts of the frame at which it was cut. -/
structure DumpedFragment where
  info : PlayItem
  fragment : Fragment
  closingDts : Int

/-- A call of a converter: the codec and the configuration it used, and those of the latest
    metadata that enabled the track. -/
structure Conversion where
  isVideo : Bool
  codecId : Int
  config : List UInt8
  latest : Option (Int × List UInt8)

/-- `play_session_v3`. -/
structure HlsSession where
  impl : SessionImpl := {}
  closed : Bool := false
  programEnabled : Bool := false
  videoStream : Option TsStreamInfo := none
  audioStream : Option TsStreamInfo := none
  fragment : Option Fragment := none
  nextFragmentId : Int
  playlist : List PlayItem := []
  writer : Option M3u8Writer := none
  cleaner : Option FileCleaner := none
  made : Nat := 0
  latestVideo : Option (Int × List UInt8) := none
  latestAudio : Option (Int × List UInt8) := none
  accepted : List AcceptedFrame := []
  dumped : List DumpedFragment := []
  conversions : List Conversion := []
  /-- The playlist files of the writers before this one. -/
  published : List M3u8File := []

namespace HlsSession

/-! ## Tracers -/

/-- The playlist files so far. -/
def files (s : HlsSession) : List M3u8File :=
  s.published ++ (s.writer.map fun w => w.files).getD []

/-- `create_tracers`, if the deletion delay is positive or not. -/
def createTracers (s : HlsSession) (deleteDelay : Bool) : HlsSession :=
  { s with
    writer := if deleteDelay then some {} else none
    cleaner := if deleteDelay && s.cleaner.isNone then some {} else s.cleaner
    published := s.files }

def onUpdateHeader (s : HlsSession) (header : PlayItem) : HlsSession :=
  { s with
    writer := s.writer.map fun w => w.onUpdateHeader header
    cleaner := s.cleaner.map fun c => c.onUpdateHeader header }

/-- A writer that cannot write its file throws, and the cleaner behind it is not told. -/
def onAddPlayitem (s : HlsSession) (item : PlayItem) (written : Bool) :
    Except HlsSession HlsSession :=
  let told := { s with writer := s.writer.map fun w => w.onAddPlayitem item }
  if told.writer.isNone || written then
    .ok { told with cleaner := s.cleaner.map fun c => c.onAddPlayitem item }
  else .error told

/-- As before, but the exception is discarded by `remove_first_gop_play_items`. -/
def onRemovePlayitem (s : HlsSession) (item : PlayItem) (written : Bool) : HlsSession :=
  let told := { s with writer := s.writer.map fun w => w.onRemovePlayitem item }
  if told.writer.isNone || written then
    { told with cleaner := s.cleaner.map fun c => c.onRemovePlayitem item }
  else told

/-- The tracers are told of the items that were removed, one by one. -/
def removePlayItems (s : HlsSession) (removed : List PlayItem) (failedRemovals : List Nat) :
    HlsSession :=
  removed.foldl
    (fun s item => s.onRemovePlayitem item (decide (item.address ∉ failedRemovals))) s

/-- How many items the loop of `add_play_item` leaves. -/
def keptItems (playlist : List PlayItem) (item : PlayItem) (o : WriteOutcome) : Nat :=
  (Hls.evict o.maxFragments (item.pts + item.duration) o.playlistMinDuration
    (playlist.map PlayItem.toFragmentInfo)).length

/-- The loop of `add_play_item`. -/
def evictPlayItems (s : HlsSession) (item : PlayItem) (o : WriteOutcome) : HlsSession :=
  let kept := keptItems s.playlist item o
  removePlayItems { s with playlist := s.playlist.rtake kept }
    (s.playlist.take (s.playlist.length - kept)) o.failedRemovals

/-- `add_play_item`. -/
def addPlayItem (s : HlsSession) (item : PlayItem) (o : WriteOutcome) :
    Except HlsSession HlsSession := do
  let s ← onAddPlayitem { s with playlist := s.playlist ++ [item] } item o.playlistWritten
  return s.evictPlayItems item o

/-! ## Fragments -/

/-- `_fragment = make_fragment(frame)`. -/
def makeFragment (s : HlsSession) (frame : Media) : HlsSession :=
  let id := s.nextFragmentId + 1
  { s with
    nextFragmentId := id
    fragment := some {
      id
      firstDts := frame.dts
      firstPts := (frame.dts + frame.cts).bmod 18446744073709551616
      startByKeyframe := frame.isKeyframe } }

/-- A fragment is made if there is none. -/
def ensureFragment (s : HlsSession) (frame : Media) : HlsSession :=
  if s.fragment.isNone then s.makeFragment frame else s

/-- `is_timeout_fragment`. The source compares in single precision: `duration` is the threshold
    in seconds at which its test starts to hold, which may be a little off the setting. -/
def isTimeoutFragment (frag : Fragment) (frame : Media) (duration : Rat) : Bool :=
  decide (duration * 1000 ≤ ((frame.dts - frag.firstDts : Int) : Rat))

/-- `is_fragment_header_frame`. -/
def isFragmentHeaderFrame (frag : Fragment) (frame : Media) (duration : Rat) : Bool :=
  (frame.isVideo && frame.isKeyframe) || isTimeoutFragment frag frame duration

/-- `make_fragment_info`. -/
def makeFragmentInfo (directory : List Char) (s : HlsSession) (frag : Fragment) (frame : Media) :
    Option PlayItem :=
  if frag.size = 0 then none
  else
    some {
      address := s.made
      pts := frag.firstPts
      duration := frame.dts - frag.firstDts
      startByKeyframe := frag.startByKeyframe
      id := frag.id
      size := frag.size
      isHeader := false
      filepath := fragmentPath directory frag.id }

/-- `add_fragment_file`. -/
def addFragmentFile (s : HlsSession) (info : PlayItem) (frag : Fragment) (frame : Media)
    (o : WriteOutcome) : Except HlsSession HlsSession :=
  if s.impl.isComplete then .ok s
  else if !o.fileWritten then .error s
  else
    addPlayItem { s with
      dumped := s.dumped ++ [{ info, fragment := frag, closingDts := frame.dts }] } info o

/-- `dump_fragment`. -/
def dumpFragment (directory : List Char) (s : HlsSession) (frag : Fragment) (frame : Media)
    (o : WriteOutcome) : Except HlsSession HlsSession :=
  match makeFragmentInfo directory s frag frame with
  | none => .ok s
  | some info => addFragmentFile { s with made := s.made + 1 } info frag frame o

/-! ## Conversion -/

/-- The configuration that `make_frame_data` takes for a codec; it throws if there is none. -/
def configOf (s : HlsSession) (codecId : Int) : Option (List UInt8) :=
  if codecId = flvVideoH264 ∨ codecId = flvVideoH265 then s.videoStream.map TsStreamInfo.config
  else if codecId = flvAudioAac then s.audioStream.map TsStreamInfo.config
  else none

/-- `to_h264_annexb`, `to_hevc_annexb` and `to_aac_adts`, by codec. -/
def convert (converter : TsConverter) (codecId : Int) (config data : List UInt8) :
    Option (List UInt8) :=
  if codecId = flvVideoH264 then converter.h264 config data
  else if codecId = flvVideoH265 then converter.hevc config data
  else (converter.adts config data.length).map fun header => header ++ data

/-- `make_ts_frame`. -/
def makeTsFrame (converter : TsConverter) (s : HlsSession) (frame : Media) : Option MpegFrame := do
  let stream ← if frame.isVideo then s.videoStream else s.audioStream
  let config ← s.configOf stream.codecId
  let data ← convert converter stream.codecId config frame.data
  return {
    streamId := stream.streamId
    flags := if frame.isKeyframe then 0 else 1
    pts := ((frame.dts + frame.cts) * 90).bmod 18446744073709551616
    dts := frame.dts * 90
    data }

/-- The call of a converter that `make_ts_frame` makes, if it makes one. -/
def conversion? (s : HlsSession) (frame : Media) : Option Conversion := do
  let stream ← if frame.isVideo then s.videoStream else s.audioStream
  let config ← s.configOf stream.codecId
  return {
    isVideo := frame.isVideo
    codecId := stream.codecId
    config
    latest := if frame.isVideo then s.latestVideo else s.latestAudio }

/-! ## Frames -/

/-- `on_data`, for each packet. -/
def onData (frag : Fragment) (packets : List (List UInt8)) : Fragment :=
  packets.foldl Fragment.write frag

/-- `mpeg_ts_write`, with the packets it hands to `on_data`. -/
def mpegTsWrite (s : HlsSession) (o : WriteOutcome) : HlsSession :=
  { s with fragment := s.fragment.map fun frag => onData frag o.packets }

/-- Record that a frame was written. -/
def accept (s : HlsSession) (frame : Media) (mpegFrame : MpegFrame) (o : WriteOutcome) :
    HlsSession :=
  { s with
    fragment := s.fragment.map fun frag =>
      { frag with frames := frag.frames ++ [s.accepted.length] }
    accepted := s.accepted ++ [{ frame, mpegFrame, packets := o.packets }] }

/-- `write_ts_frame`. -/
def writeTsFrame (converter : TsConverter) (s : HlsSession) (frame : Media) (o : WriteOutcome) :
    Except HlsSession HlsSession :=
  let s := s.ensureFragment frame
  let called := { s with conversions := s.conversions ++ (s.conversion? frame).toList }
  match s.makeTsFrame converter frame with
  | none => .error called
  | some mpegFrame =>
      let written := called.mpegTsWrite o
      if o.ret ≠ 0 then .error written else .ok (written.accept frame mpegFrame o)

/-- `handle_frame`. -/
def handleFrame (converter : TsConverter) (directory : List Char) (s : HlsSession) (frame : Media)
    (o : WriteOutcome) : Except HlsSession HlsSession := do
  let s := s.ensureFragment frame
  match s.fragment with
  | none => s.writeTsFrame converter frame o
  | some frag =>
      if isFragmentHeaderFrame frag frame o.fragmentDuration then do
        let s ← s.dumpFragment directory frag frame o
        writeTsFrame converter { s with fragment := none } frame o
      else s.writeTsFrame converter frame o

/-! ## Metadata -/

/-- `add_stream` for video. -/
def addVideoStream (s : HlsSession) (m : VideoMeta) (o : WriteOutcome) :
    Except HlsSession HlsSession :=
  if o.videoStreamId < 0 then .error s
  else if m.codecid = flvVideoH264 ∨ m.codecid = flvVideoAvcc ∨ m.codecid = flvVideoH265
      ∨ m.codecid = flvVideoHvcc then
    .ok { s with videoStream := some ⟨o.videoStreamId, m.codecid, m.v⟩ }
  else .error s

/-- `add_stream` for audio. -/
def addAudioStream (s : HlsSession) (m : AudioMeta) (o : WriteOutcome) :
    Except HlsSession HlsSession :=
  if o.audioStreamId < 0 then .error s
  else if m.codecid = flvAudioAac ∨ m.codecid = flvAudioAsc then
    .ok { s with audioStream := some ⟨o.audioStreamId, m.codecid, m.aac⟩ }
  else .error s

/-- The first byte of a configuration. -/
def profile (config : List UInt8) : UInt8 := config.headD 0

/-- The video half of `handle_meta`. -/
def makeVideoTrack (s : HlsSession) (m : VideoMeta) (o : WriteOutcome) :
    Except HlsSession HlsSession :=
  if 0 < profile m.v ∧ s.videoStream.isNone then s.addVideoStream m o else .ok s

/-- The audio half of `handle_meta`. -/
def makeAudioTrack (s : HlsSession) (m : AudioMeta) (o : WriteOutcome) :
    Except HlsSession HlsSession :=
  if 0 < profile m.aac ∧ s.audioStream.isNone then s.addAudioStream m o else .ok s

/-- Record the latest metadata that enables a track. -/
def noteMeta (s : HlsSession) (m : Metadata) : HlsSession :=
  { s with
    latestVideo :=
      if m.video.isEnabled then some (m.video.codecid, m.video.v) else s.latestVideo
    latestAudio :=
      if m.audio.isEnabled then some (m.audio.codecid, m.audio.aac) else s.latestAudio }

/-- `handle_meta`. -/
def handleMeta (s : HlsSession) (m : Metadata) (o : WriteOutcome) :
    Except HlsSession HlsSession := do
  let s := { s.noteMeta m with programEnabled := true }
  let s ← s.makeVideoTrack m.video o
  let s ← s.makeAudioTrack m.audio o
  return onUpdateHeader { s with made := s.made + 1 } (.header s.made)

/-! ## Steps -/

/-- `do_write_frame`. -/
def doWriteFrame (converter : TsConverter) (directory : List Char) (s : HlsSession) (frame : Frame)
    (o : WriteOutcome) : Except HlsSession HlsSession :=
  if s.impl.isComplete then .ok s
  else
    match frame with
    | .media m => s.handleFrame converter directory m o
    | .metadata m => s.handleMeta m o
    | .script _ => .ok s

/-- The exception that `write_once` ignores. -/
def settled : Except HlsSession HlsSession → HlsSession
  | .ok s => s
  | .error s => s

end HlsSession

/-- What a session is told. -/
inductive HlsCall
  /-- A frame from the queue. -/
  | write (frame : Frame) (o : WriteOutcome)
  /-- `on_settings_update`, with a positive deletion delay or not. -/
  | settings (deleteDelay : Bool)
  /-- `_end`, `_cancel` or `_fail`. -/
  | complete (how : Completion)
  /-- No frame came in time. -/
  | timeout
  /-- The loop has ended, and the tracers are closed. -/
  | close
deriving DecidableEq

namespace HlsSession

/-- The loop runs until the session is complete. -/
def Enabled (s : HlsSession) : HlsCall → Prop
  | .write _ _ => s.closed = false
  | .settings _ => s.closed = false
  | .complete _ => True
  | .timeout => s.closed = false
  | .close => s.impl.isComplete = true ∧ s.closed = false

instance (s : HlsSession) : DecidablePred s.Enabled
  | .write _ _ => inferInstanceAs (Decidable (s.closed = false))
  | .settings _ => inferInstanceAs (Decidable (s.closed = false))
  | .complete _ => inferInstanceAs (Decidable True)
  | .timeout => inferInstanceAs (Decidable (s.closed = false))
  | .close => inferInstanceAs (Decidable (s.impl.isComplete = true ∧ s.closed = false))

def step (converter : TsConverter) (directory : List Char) (s : HlsSession) :
    HlsCall → Except Empty HlsSession
  | .write frame o => .ok (settled (s.doWriteFrame converter directory frame o))
  | .settings deleteDelay => .ok (s.createTracers deleteDelay)
  | .complete how => .ok { s with impl := s.impl.complete how }
  | .timeout => .ok { s with impl := s.impl.onTimeout }
  | .close => .ok { s with closed := true, writer := s.writer.map M3u8Writer.closed }

end HlsSession

/-- A session that writes to a directory and numbers its fragments from `start` on. -/
def hlsSession (converter : TsConverter) (directory : List Char) (start : Int)
    (deleteDelay : Bool) : Machine HlsSession HlsCall Empty where
  init := HlsSession.createTracers { nextFragmentId := start } deleteDelay
  enabled := HlsSession.Enabled
  step := HlsSession.step converter directory

instance (converter : TsConverter) (directory : List Char) (start : Int) (deleteDelay : Bool)
    (s : HlsSession) (a : HlsCall) :
    Decidable ((hlsSession converter directory start deleteDelay).enabled s a) :=
  inferInstanceAs (Decidable (s.Enabled a))

end SeastarLive
