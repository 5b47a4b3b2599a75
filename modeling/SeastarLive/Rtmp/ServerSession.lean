/-
SeastarLive.Rtmp.ServerSession — the side of a connection that accepts it.

The callbacks of `3rd/librtmp/source/rtmp-server.c`, behind the handshake. What they send is
noted in the order in which they send it; `handler.send` takes every message whole. The names
that are kept of a stream are read by nothing.

* `rtmpServerCallbacks`: what a message does to a server.
-/
import SeastarLive.Rtmp.ChunkChannel
import SeastarLive.Rtmp.InvokeHandler

namespace SeastarLive

/-- `rtmp_server_handler_t` without its `send`, over the state `β` behind it. What returns 0 is
    a success. -/
structure RtmpServerHandler (β : Type) where
  onplay : List UInt8 → List UInt8 → List UInt8 → List UInt8 → UInt8 → List UInt8 → β → Int × β
  onpause : UInt8 → Nat → β → Int × β
  onseek : Nat → β → Int × β
  onpublish : List UInt8 → List UInt8 → List UInt8 → List UInt8 → β → Int × β
  onvideo : List UInt8 → Nat → β → Int × β
  onaudio : List UInt8 → Nat → β → Int × β
  onscript : List UInt8 → Nat → β → Int × β
  /-- with the duration, a double -/
  ongetduration : List UInt8 → List UInt8 → β → Int × List UInt8 × β

/-- `recv_bytes`: those received, and those that are acknowledged. -/
structure ReceivedBytes where
  total : Nat := 0
  acknowledged : Nat := 0
deriving DecidableEq

/-- `rtmp_server_send_acknowledgement` and `rtmp_client_send_acknowledgement`. -/
def ReceivedBytes.receive (recv : ReceivedBytes) (windowSize n : Nat) :
    ReceivedBytes × List OutMessage :=
  let total := (recv.total + n) % 4294967296
  if windowSize ≠ 0 ∧ windowSize < (total + 4294967296 - recv.acknowledged) % 4294967296 then
    ({ total, acknowledged := total }, [.control .acknowledgement (beBytes 4 total)])
  else ({ recv with total }, [])

/-- `rtmp_server_t`, behind its `rtmp`. -/
structure RtmpServer (β : Type) where
  sent : List OutMessage := []
  recv : ReceivedBytes := {}
  info : RtmpConnect := {}
  streamId : Nat := 0
  receiveAudio : UInt8 := 1
  receiveVideo : UInt8 := 1
  app : β

/-- A message of a side with the header that it has in common. -/
def mediaMessage (cid : Nat) (type : MessageType) (streamId : Nat) (data : List UInt8)
    (timestamp : Nat) : OutMessage :=
  .chunked true { cid, timestamp, type := type.code, streamId, payload := data }

/-- `rtmp_server_send_control` and `rtmp_client_send_control`. -/
def commandMessage (args : List AmfArg) (streamId : Nat) : OutMessage :=
  .chunked false
    { cid := 3, timestamp := 0, type := MessageType.invoke.code, streamId
      payload := argsBytes args }

/-- `rtmp_window_acknowledgement_size`, as it is sent. -/
def windowMessage (windowSize : Nat) : OutMessage :=
  .control .windowAcknowledgementSize (beBytes 4 windowSize)

/-- An event, as it is sent. -/
def eventMessage (event value : Nat) (rest : List UInt8) : OutMessage :=
  .control .event (eventPayload event value rest)

namespace RtmpServer

variable {β : Type}

def send (s : RtmpServer β) (m : OutMessage) : RtmpServer β := { s with sent := s.sent ++ [m] }

def sendControl (s : RtmpServer β) (args : List AmfArg) (streamId : Nat) : RtmpServer β :=
  s.send (commandMessage args streamId)

/-- `rtmp_server_send_onstatus`; `r` is the result of the command. -/
def sendOnstatus (s : RtmpServer β) (transaction : List UInt8) (r : Int)
    (success fail description : String) : RtmpServer β :=
  s.sendControl (onstatusArgs transaction (if r = 0 then "status" else "error")
    (if r = 0 then success else fail) description) s.streamId

/-- `rtmp_server_rtmp_sample_access`. -/
def sendSampleAccess (s : RtmpServer β) : RtmpServer β :=
  s.send (.chunked false
    { cid := 3, timestamp := 0, type := MessageType.data.code, streamId := s.streamId,
      payload := argsBytes rtmpSampleAccessArgs })

section Callbacks

variable (h : RtmpServerHandler β)

/-- `rtmp_server_onconnect`. -/
def onconnect (control : RtmpControl) (transaction : List UInt8) (connect : RtmpConnect)
    (s : RtmpServer β) : Except Int (RtmpServer β) :=
  let s := { s with info := connect }
  let s := s.send (windowMessage control.windowSize)
  let s := s.send (.control .setPeerBandwidth (setPeerBandwidthPayload control.peerBandwidth 2))
  let s := s.send (.chunkSize 4096)
  .ok (s.sendControl (connectReplyArgs transaction "FMS/3,0,1,123" (doubleBytes 31)
    "NetConnection.Connect.Success" "status" "Connection Succeeded." connect.encoding) 0)

/-- `rtmp_server_oncreate_stream`. -/
def oncreateStream (transaction : List UInt8) (s : RtmpServer β) : Except Int (RtmpServer β) :=
  let s := { s with streamId := 1 }
  .ok (s.sendControl (numberReplyArgs transaction (doubleBytes 1)) 0)

/-- `rtmp_server_ondelete_stream`. -/
def ondeleteStream (transaction _streamId : List UInt8) (s : RtmpServer β) :
    Except Int (RtmpServer β) :=
  .ok ({ s with streamId := 0 }.sendOnstatus transaction 0 "NetStream.DeleteStream.Suceess"
    "NetStream.DeleteStream.Failed" "")

/-- `rtmp_server_onget_stream_length`. -/
def ongetStreamLength (transaction streamName : List UInt8) (s : RtmpServer β) :
    Except Int (RtmpServer β) :=
  let (r, duration, app) := h.ongetduration (cStr s.info.app) (cStr streamName) s.app
  let s := { s with app }
  if r = 0 then .ok (s.sendControl (numberReplyArgs transaction duration) s.streamId)
  else .error r

/-- `rtmp_server_onpublish`. -/
def onpublish (transaction streamName streamType : List UInt8) (s : RtmpServer β) :
    Except Int (RtmpServer β) :=
  let (r, app) :=
    h.onpublish (cStr s.info.app) (cStr streamName) (cStr streamType) (cStr s.info.tcUrl) s.app
  let s := { s with app }
  let s := if r = 0 then s.send (eventMessage 0 s.streamId []) else s
  .ok (s.sendOnstatus transaction r "NetStream.Publish.Start" "NetStream.Publish.BadName" "")

/-- `rtmp_server_onplay`. -/
def onplay (transaction streamName start duration : List UInt8) (reset : UInt8)
    (s : RtmpServer β) : Except Int (RtmpServer β) :=
  let (r, app) := h.onplay (cStr s.info.app) (cStr streamName) start duration reset
    (cStr s.info.tcUrl) s.app
  let s := { s with app }
  let s :=
    if r = 0 then
      let s := s.send (eventMessage 0 s.streamId [])
      if reset = 0 then s
      else s.sendOnstatus transaction 0 "NetStream.Play.Reset" "NetStream.Play.Failed" ""
    else s
  let s := s.sendOnstatus transaction r "NetStream.Play.Start" "NetStream.Play.Failed"
    "Start video on demand"
  let s := s.send (eventMessage 4 s.streamId [])
  .ok s.sendSampleAccess

/-- `rtmp_server_onpause`. -/
def onpause (transaction : List UInt8) (pause : UInt8) (ms : List UInt8) (s : RtmpServer β) :
    Except Int (RtmpServer β) :=
  let (r, app) := h.onpause pause (doubleToUInt32 ms) s.app
  .ok ({ s with app }.sendOnstatus transaction r
    (if pause ≠ 0 then "NetStream.Pause.Notify" else "NetStream.Unpause.Notify")
    "NetStream.Pause.Failed" "")

/-- `rtmp_server_onseek`. -/
def onseek (transaction ms : List UInt8) (s : RtmpServer β) : Except Int (RtmpServer β) :=
  let (r, app) := h.onseek (doubleToUInt32 ms) s.app
  .ok ({ s with app }.sendOnstatus transaction r "NetStream.Seek.Notify" "NetStream.Seek.Failed" "")

/-- What `rtmp_server_onreceive_audio` and `rtmp_server_onreceive_video` answer. -/
def sendReceives (transaction : List UInt8) (enabled : UInt8) (s : RtmpServer β) : RtmpServer β :=
  if enabled = 0 then s
  else
    (s.sendOnstatus transaction 0 "NetStream.Seek.Notify" "NetStream.Seek.Failed" "").sendOnstatus
      transaction 0 "NetStream.Play.Start" "NetStream.Play.Failed" ""

/-- `rtmp_server_onreceive_audio`. -/
def onreceiveAudio (transaction : List UInt8) (audio : UInt8) (s : RtmpServer β) :
    Except Int (RtmpServer β) :=
  .ok ({ s with receiveAudio := audio }.sendReceives transaction audio)

/-- `rtmp_server_onreceive_video`. -/
def onreceiveVideo (transaction : List UInt8) (video : UInt8) (s : RtmpServer β) :
    Except Int (RtmpServer β) :=
  .ok ({ s with receiveVideo := video }.sendReceives transaction video)

/-- A callback of the handler for media. -/
def onmedia (call : List UInt8 → Nat → β → Int × β) (data : List UInt8) (timestamp : Nat)
    (s : RtmpServer β) : Except Int (RtmpServer β) :=
  let (r, app) := call data timestamp s.app
  if r = 0 then .ok { s with app } else .error r

/-- `rtmp.server` of `rtmp_server_create`. -/
def callbacks (control : RtmpControl) : ServerCallbacks (RtmpServer β) where
  onconnect := onconnect control
  oncreateStream := oncreateStream
  onplay := onplay h
  ondeleteStream := ondeleteStream
  onreceiveAudio := onreceiveAudio
  onreceiveVideo := onreceiveVideo
  onpublish := onpublish h
  onseek := onseek h
  onpause := onpause h
  ongetStreamLength := ongetStreamLength h

end Callbacks

/-! ## Media -/

/-- `rtmp_server_send_audio`. -/
def sendAudio (s : RtmpServer β) (data : List UInt8) (timestamp : Nat) : RtmpServer β :=
  if s.receiveAudio = 0 then s else s.send (mediaMessage 4 .audio s.streamId data timestamp)

/-- `rtmp_server_send_video`. -/
def sendVideo (s : RtmpServer β) (data : List UInt8) (timestamp : Nat) : RtmpServer β :=
  if s.receiveVideo = 0 then s else s.send (mediaMessage 5 .video s.streamId data timestamp)

/-- `rtmp_server_send_script`. -/
def sendScript (s : RtmpServer β) (data : List UInt8) (timestamp : Nat) : RtmpServer β :=
  s.send (mediaMessage 3 .data s.streamId data timestamp)

end RtmpServer

/-- The callbacks of `rtmp_server_create`. -/
def rtmpServerCallbacks {β : Type} (h : RtmpServerHandler β) (stack : RtmpResult) :
    RtmpCallbacks (RtmpServer β) where
  onaudio := RtmpServer.onmedia h.onaudio
  onvideo := RtmpServer.onmedia h.onvideo
  onscript := RtmpServer.onmedia h.onscript
  oninvoke control := rtmpInvokeHandler { server := some (RtmpServer.callbacks h control), stack }
  onabort _ s := s
  oneof _ s := s
  onping _ s := s
  onbandwidth _ s := s

/-- The numbers of `rtmp_server_create`. -/
def newServerControl : RtmpControl := { windowSize := 5000000, peerBandwidth := 5000000 }

end SeastarLive
