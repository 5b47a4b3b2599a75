/-
SeastarLive.Rtmp.Handler — what a message does to its receiver.

`rtmp_handler` of `3rd/librtmp/source/rtmp-handler.c` with the handlers of the control messages
(`rtmp-control-handler.c`) and of the events (`rtmp-event.c`). The callbacks of `rtmp_t` are a
parameter, and so is the handler of the commands, which answers with callbacks of its own. The
Release build, the default, has no assertions, so a message that one would refuse is dropped.

* `chunkSizeAfter`, `appHandler`: the chunk size of the reader, and what else a message does,
  are independent of each other.
* `rtmpHandler_bounds`: no message leaves a chunk size that is out of its bounds.
-/
import SeastarLive.Rtmp.ChunkRead

namespace SeastarLive

/-! ## Messages -/

/-- `RTMPMessageTypeId`. -/
inductive MessageType
  | setChunkSize
  | abort
  | acknowledgement
  | event
  | windowAcknowledgementSize
  | setPeerBandwidth
  | audio
  | video
  | flexStream
  | flexObject
  | flexMessage
  | data
  | sharedObject
  | invoke
  | metadata
deriving DecidableEq

namespace MessageType

def code : MessageType → UInt8
  | .setChunkSize => 1
  | .abort => 2
  | .acknowledgement => 3
  | .event => 4
  | .windowAcknowledgementSize => 5
  | .setPeerBandwidth => 6
  | .audio => 8
  | .video => 9
  | .flexStream => 15
  | .flexObject => 16
  | .flexMessage => 17
  | .data => 18
  | .sharedObject => 19
  | .invoke => 20
  | .metadata => 22

def ofByte (b : UInt8) : Option MessageType :=
  match b.toNat with
  | 1 => some .setChunkSize
  | 2 => some .abort
  | 3 => some .acknowledgement
  | 4 => some .event
  | 5 => some .windowAcknowledgementSize
  | 6 => some .setPeerBandwidth
  | 8 => some .audio
  | 9 => some .video
  | 15 => some .flexStream
  | 16 => some .flexObject
  | 17 => some .flexMessage
  | 18 => some .data
  | 19 => some .sharedObject
  | 20 => some .invoke
  | 22 => some .metadata
  | _ => none

@[simp] theorem ofByte_code (type : MessageType) : ofByte type.code = some type := by
  cases type <;> rfl

end MessageType

/-- What `rtmp_t` keeps of the control messages and the events. -/
structure RtmpControl where
  sequenceNumber : Nat := 0
  windowSize : Nat
  peerBandwidth : Nat
  bufferLengthMs : Nat := 30000
  limitType : UInt8 := 0
deriving DecidableEq

/-- The callbacks of `rtmp_t` and `rtmp_invoke_handler`, over the state `α` behind them. -/
structure RtmpCallbacks (α : Type) where
  onaudio : List UInt8 → Nat → α → Except Int α
  onvideo : List UInt8 → Nat → α → Except Int α
  onscript : List UInt8 → Nat → α → Except Int α
  oninvoke : RtmpControl → List UInt8 → α → Except Int α
  onabort : Nat → α → α
  /-- of a client; what they return is dropped -/
  oneof : Nat → α → α
  onping : Nat → α → α
  /-- with the window that the client answers with -/
  onbandwidth : Nat → α → α

/-- `rtmp_t` without its chunks. -/
structure RtmpState (α : Type) where
  control : RtmpControl
  app : α

variable {α : Type}

/-! ## Control messages -/

/-- The chunk size that `rtmp_read_chunk_size` finds in its bounds. -/
def readChunkSize (data : List UInt8) : Option Nat :=
  if 4 ≤ data.length then
    let chunkSize := beValue (data.take 4)
    if chunkSize < 64 ∨ 0x800000 < chunkSize then none else some chunkSize
  else none

/-- `rtmp_read_abort_message`, `rtmp_read_acknowledgement` and
    `rtmp_read_window_acknowledgement_size`. -/
def readControlValue (data : List UInt8) : Option Nat :=
  if 4 ≤ data.length then some (beValue (data.take 4)) else none

/-- `rtmp_read_set_peer_bandwidth`. -/
def readSetPeerBandwidth (data : List UInt8) : Option (Nat × UInt8) :=
  if 5 ≤ data.length then some (beValue (data.take 4), data.getD 4 0) else none

/-- `rtmp_control_handler` without the chunk size; 0 is `none`. -/
def controlHandler (cb : RtmpCallbacks α) (type : MessageType) (data : List UInt8)
    (s : RtmpState α) : Option (RtmpState α) :=
  match type with
  | .abort => (readControlValue data).map fun cid => { s with app := cb.onabort cid s.app }
  | .acknowledgement =>
      (readControlValue data).map fun sequenceNumber =>
        { s with control := { s.control with sequenceNumber } }
  | .windowAcknowledgementSize =>
      (readControlValue data).map fun windowSize =>
        { s with control := { s.control with windowSize } }
  | .setPeerBandwidth =>
      (readSetPeerBandwidth data).map fun (peerBandwidth, limitType) =>
        { control := { s.control with peerBandwidth, limitType }
          app := cb.onbandwidth s.control.windowSize s.app }
  | _ => none

/-! ## Events -/

/-- `rtmp_event_handler`; 0 is `none`. -/
def eventHandler (cb : RtmpCallbacks α) (data : List UInt8) (s : RtmpState α) :
    Option (RtmpState α) :=
  if data.length < 6 then none
  else
    let event := beValue (data.take 2)
    let streamId := beValue ((data.drop 2).take 4)
    match event with
    | 1 => some { s with app := cb.oneof streamId s.app }
    | 3 =>
        if data.length < 10 then none
        else
          let bufferLengthMs := beValue ((data.drop 6).take 4)
          some { s with control := { s.control with bufferLengthMs } }
    | 6 => some { s with app := cb.onping streamId s.app }
    | _ => some s

/-! ## Media -/

/-- The string `@setDataFrame`, as a publisher puts it in front of its metadata. -/
def setDataFrame : List UInt8 :=
  [0x02, 0x00, 0x0d, 0x40, 0x73, 0x65, 0x74, 0x44, 0x61, 0x74, 0x61, 0x46, 0x72, 0x61, 0x6d, 0x65]

/-- `rtmp_script`. -/
def rtmpScript (cb : RtmpCallbacks α) (payload : List UInt8) (timestamp : Nat) (app : α) :
    Except Int α :=
  if setDataFrame.length < payload.length ∧ payload.take setDataFrame.length = setDataFrame then
    cb.onscript (payload.drop setDataFrame.length) timestamp app
  else cb.onscript payload timestamp app

/-- A message in an aggregate message. -/
def rtmpMedia (cb : RtmpCallbacks α) (type : UInt8) (payload : List UInt8) (timestamp : Nat)
    (app : α) : Except Int α :=
  match MessageType.ofByte type with
  | some .audio => cb.onaudio payload timestamp app
  | some .video => cb.onvideo payload timestamp app
  | some .data => rtmpScript cb payload timestamp app
  | _ => .ok app

/-- `RTMP_MESSAGE_HEADER_LENGTH` and the size of a previous tag. -/
def aggregateOverhead : Nat := 11 + 4

/-- The loop of `rtmp_aggregate` from one of its messages on; `t0` is the time of the message
    before, where there is one. -/
def aggregateLoop (cb : RtmpCallbacks α) :
    Nat → Option Nat → Nat → List UInt8 → α → Except Int α
  | 0, _, _, _, app => .ok app
  | fuel + 1, t0, timestamp, data, app =>
      if aggregateOverhead < data.length then
        let n := beValue ((data.drop 1).take 3)
        let t := beValue ((data.drop 4).take 3) + (data.getD 7 0).toNat * 16777216
        if data.length < n + aggregateOverhead then .ok app
        else
          let timestamp :=
            match t0 with
            | none => timestamp
            | some t0 => (timestamp + (t + 4294967296 - t0)) % 4294967296
          match rtmpMedia cb (data.getD 0 0) ((data.drop 11).take n) timestamp app with
          | .error r => .error r
          | .ok app =>
              aggregateLoop cb fuel (some t) timestamp (data.drop (n + aggregateOverhead)) app
      else .ok app

/-- `rtmp_aggregate`. -/
def rtmpAggregate (cb : RtmpCallbacks α) (timestamp : Nat) (payload : List UInt8) (app : α) :
    Except Int α := aggregateLoop cb payload.length none timestamp payload app

/-! ## The handler -/

/-- A handler that returns 0 is a failure. -/
def controlResult : Option (RtmpState α) → Except Int (RtmpState α)
  | none => .error (-1)
  | some s => .ok s

/-- What a message does besides the chunk size. -/
def appHandler (cb : RtmpCallbacks α) (type : UInt8) (timestamp : Nat) (payload : List UInt8)
    (s : RtmpState α) : Except Int (RtmpState α) :=
  let withApp (app : Except Int α) : Except Int (RtmpState α) := app.map fun app => { s with app }
  match MessageType.ofByte type with
  | some .flexMessage => withApp (cb.oninvoke s.control (payload.drop 1) s.app)
  | some .invoke => withApp (cb.oninvoke s.control payload s.app)
  | some .video => withApp (cb.onvideo payload timestamp s.app)
  | some .audio => withApp (cb.onaudio payload timestamp s.app)
  | some .event => controlResult (eventHandler cb payload s)
  | some .setChunkSize => .ok s
  | some .abort => controlResult (controlHandler cb .abort payload s)
  | some .acknowledgement => controlResult (controlHandler cb .acknowledgement payload s)
  | some .windowAcknowledgementSize =>
      controlResult (controlHandler cb .windowAcknowledgementSize payload s)
  | some .setPeerBandwidth => controlResult (controlHandler cb .setPeerBandwidth payload s)
  | some .data | some .flexStream => withApp (rtmpScript cb payload timestamp s.app)
  | some .sharedObject | some .flexObject => .ok s
  | some .metadata => withApp (rtmpAggregate cb timestamp payload s.app)
  | none => .ok s

/-- The chunk size after a message. -/
def chunkSizeAfter (type : UInt8) (payload : List UInt8) (inChunkSize : Nat) : Except Int Nat :=
  if type = MessageType.setChunkSize.code then
    match readChunkSize payload with
    | none => .error (-1)
    | some chunkSize => .ok chunkSize
  else .ok inChunkSize

/-- `rtmp_handler`. -/
def RtmpCallbacks.rtmpHandler (cb : RtmpCallbacks α) : ChunkHandler (RtmpState α) :=
  fun header payload inChunkSize s =>
    match chunkSizeAfter header.type payload inChunkSize with
    | .error r => .error r
    | .ok inChunkSize =>
        match appHandler cb header.type header.timestamp payload s with
        | .error r => .error r
        | .ok s => .ok (inChunkSize, s)

theorem readChunkSize_bounds {data : List UInt8} {size : Nat} (h : readChunkSize data = some size) :
    64 ≤ size ∧ size ≤ 0x800000 := by
  unfold readChunkSize at h
  split at h
  · simp only at h
    split at h
    · cases h
    · cases h
      omega
  · cases h

/-- No message leaves a chunk size that is out of its bounds. -/
theorem rtmpHandler_bounds {cb : RtmpCallbacks α} {header : ChunkHeader} {payload : List UInt8}
    {size size' : Nat} {s t : RtmpState α} (hsize : 64 ≤ size ∧ size ≤ 0x800000)
    (h : cb.rtmpHandler header payload size s = .ok (size', t)) :
    64 ≤ size' ∧ size' ≤ 0x800000 := by
  unfold RtmpCallbacks.rtmpHandler chunkSizeAfter at h
  split at h
  · cases h
  · rename_i hafter
    split at h <;> cases h
    split at hafter
    · split at hafter <;> cases hafter
      rename_i hread
      exact readChunkSize_bounds hread
    · cases hafter
      exact hsize

end SeastarLive
