/-
SeastarLive.Rtmp.ClientSession — the side of a connection that makes it.

The callbacks of `3rd/librtmp/source/rtmp-client.c`, behind the handshake. What they send is
noted in the order in which they send it; `handler.send` takes every message whole.

* `rtmpClientCallbacks`: what a message does to a client.
* `RtmpClientT.sendConnect`: the first message of a client.
-/
import SeastarLive.Rtmp.ServerSession

namespace SeastarLive

/-- `rtmp_client_handler_t` without its `send`, over the state `β` behind it. -/
structure RtmpClientHandler (β : Type) where
  onvideo : List UInt8 → Nat → β → Int × β
  onaudio : List UInt8 → Nat → β → Int × β
  onscript : List UInt8 → Nat → β → Int × β

/-- `rtmp_state_t`. -/
inductive RtmpClientState
  | uninit
  | handshake
  | connected
  | createStream
  | start
  | stop
  | deleteStream
deriving DecidableEq

/-- `rtmp_client_t`, behind its `rtmp`. -/
structure RtmpClientT (β : Type) where
  sent : List OutMessage := []
  recv : ReceivedBytes := {}
  connect : RtmpConnect
  streamId : Nat := 0
  streamName : List UInt8
  state : RtmpClientState := .uninit
  /-- 0 publishes, 1 plays what is live or not, 2 what is live, 3 what is not. -/
  publish : Nat
  app : β

/-- `snprintf` of a string into a buffer of this size less one. -/
def snprintfInto (size : Nat) (s : List UInt8) : List UInt8 := (cStr s).take (size - 2)

namespace RtmpClientT

variable {β : Type}

/-- `rtmp_client_create`, with the mode that `rtmp_client_start` sets. -/
def create (appname playpath tcurl : List UInt8) (publish : Nat) (app : β) : RtmpClientT β where
  connect :=
    { app := snprintfInto 128 appname
      tcUrl := snprintfInto 256 tcurl
      flashver := snprintfInto 32 (asciiBytes "LNX 9,0,124,2")
      fpad := 0
      capabilities := doubleBytes 15
      audioCodecs := doubleBytes 3191
      videoCodecs := doubleBytes 252
      videoFunction := doubleBytes 1
      encoding := doubleBytes 0 }
  streamName := snprintfInto 256 playpath
  publish
  app

def send (s : RtmpClientT β) (m : OutMessage) : RtmpClientT β := { s with sent := s.sent ++ [m] }

def sendControl (s : RtmpClientT β) (args : List AmfArg) (streamId : Nat) : RtmpClientT β :=
  s.send (commandMessage args streamId)

/-- `rtmp_client_send_connect`, at the end of the handshake. -/
def sendConnect (s : RtmpClientT β) : RtmpClientT β :=
  { s with state := .handshake }.sendControl (connectArgs (doubleBytes 1) s.connect) 0

/-- `rtmp_client_onconnect`. -/
def onconnect (s : RtmpClientT β) : Except Int (RtmpClientT β) :=
  let s := { s with state := .connected }
  let s :=
    if s.publish = 0 then
      (s.sendControl (streamNameArgs "releaseStream" (doubleBytes 0) s.streamName) s.streamId)
        |>.sendControl (streamNameArgs "FCPublish" (doubleBytes 0) s.streamName) 0
    else s
  .ok (s.sendControl (createStreamArgs (doubleBytes 2)) 0)

/-- `rtmp_client_oncreate_stream`. -/
def oncreateStream (control : RtmpControl) (streamId : List UInt8) (s : RtmpClientT β) :
    Except Int (RtmpClientT β) :=
  let s := { s with state := .createStream, streamId := doubleToUInt32 streamId }
  if s.publish = 0 then
    .ok ((s.sendControl (publishArgs (doubleBytes 0) s.streamName "live") s.streamId).send
      (.chunkSize 4000))
  else
    let s :=
      if s.publish = 3 then
        s.sendControl (streamNameArgs "getStreamLength" (doubleBytes 3) s.streamName) s.streamId
      else s
    let s := s.sendControl
      (playArgs (doubleBytes 0) s.streamName (doubleBytes (-2)) (doubleBytes (-1)) true) s.streamId
    .ok (s.send (eventMessage 3 s.streamId (beBytes 4 control.bufferLengthMs)))

/-- `rtmp_client_onnotify`. -/
def onnotify (n : RtmpNotify) (s : RtmpClientT β) : RtmpClientT β :=
  match n with
  | .start => { s with state := .start }
  | .stop => { s with state := .stop }
  | .pause => s
  | .seek => s

/-- `rtmp.client` of `rtmp_client_create`. -/
def callbacks (control : RtmpControl) : ClientCallbacks (RtmpClientT β) where
  onconnect := onconnect
  oncreateStream := oncreateStream control
  onnotify := onnotify

/-- A callback of the handler for media. -/
def onmedia (call : List UInt8 → Nat → β → Int × β) (data : List UInt8) (timestamp : Nat)
    (s : RtmpClientT β) : Except Int (RtmpClientT β) :=
  let (r, app) := call data timestamp s.app
  if r = 0 then .ok { s with app } else .error r

/-! ## Media -/

/-- `rtmp_client_push_video`. -/
def pushVideo (s : RtmpClientT β) (data : List UInt8) (timestamp : Nat) : RtmpClientT β :=
  s.send (mediaMessage 5 .video s.streamId data timestamp)

/-- `rtmp_client_push_audio`. -/
def pushAudio (s : RtmpClientT β) (data : List UInt8) (timestamp : Nat) : RtmpClientT β :=
  s.send (mediaMessage 4 .audio s.streamId data timestamp)

/-- `rtmp_client_push_script`. -/
def pushScript (s : RtmpClientT β) (data : List UInt8) (timestamp : Nat) : RtmpClientT β :=
  s.send (mediaMessage 3 .data s.streamId data timestamp)

end RtmpClientT

/-- The callbacks of `rtmp_client_create`. -/
def rtmpClientCallbacks {β : Type} (h : RtmpClientHandler β) (stack : RtmpResult) :
    RtmpCallbacks (RtmpClientT β) where
  onaudio := RtmpClientT.onmedia h.onaudio
  onvideo := RtmpClientT.onmedia h.onvideo
  onscript := RtmpClientT.onmedia h.onscript
  oninvoke control := rtmpInvokeHandler { client := some (RtmpClientT.callbacks control), stack }
  onabort _ s := s
  oneof _ s := s.onnotify .stop
  onping seqNo s := s.send (eventMessage 7 seqNo [])
  onbandwidth windowSize s := s.send (windowMessage windowSize)

/-- The numbers of `rtmp_client_create`. -/
def newClientControl : RtmpControl := { windowSize := 2500000, peerBandwidth := 2500000 }

end SeastarLive
