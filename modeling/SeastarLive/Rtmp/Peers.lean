/-
SeastarLive.Rtmp.Peers — a client of this program and a server of this program.

Both sides behind their handshakes, with what they send and what a message does to them. The
client connects once; it pushes media when its state is `RTMP_STATE_START`, as
`client::connection` does. The server sends media when its application has a stream to play.

* `rtmpPeers`: the two sides as a dialogue.
-/
import SeastarLive.Rtmp.SessionCommands

namespace SeastarLive

variable {β γ : Type}

/-! ## The two sides -/

abbrev clientSide : Bool := false
abbrev serverSide : Bool := true

/-- Both sides; `pushed` is a record of the media that they sent, read by no step. -/
structure Peers (β γ : Type) where
  client : RtmpState (RtmpClientT γ)
  server : RtmpState (RtmpServer β)
  pushed : Bool → List RtmpMessage := fun _ => []

/-- What a side does of its own accord. -/
inductive PeerAct
  /-- the end of the handshake of a client -/
  | connect
  | audio (data : List UInt8) (timestamp : Nat)
  | video (data : List UInt8) (timestamp : Nat)
  | script (data : List UInt8) (timestamp : Nat)
deriving DecidableEq

namespace PeerAct

def client : PeerAct → RtmpClientT γ → RtmpClientT γ
  | .connect, c => c.sendConnect
  | .audio data timestamp, c => c.pushAudio data timestamp
  | .video data timestamp, c => c.pushVideo data timestamp
  | .script data timestamp, c => c.pushScript data timestamp

def server : PeerAct → RtmpServer β → RtmpServer β
  | .connect, s => s
  | .audio data timestamp, s => s.sendAudio data timestamp
  | .video data timestamp, s => s.sendVideo data timestamp
  | .script data timestamp, s => s.sendScript data timestamp

/-- Media that `rtmp_chunk_write` sends. -/
def Pushable : PeerAct → Prop
  | .connect => False
  | .audio data timestamp | .video data timestamp | .script data timestamp =>
      data ≠ [] ∧ data.length < 0xFFFFFF ∧ timestamp < 4294967296

instance : ∀ x : PeerAct, Decidable x.Pushable
  | .connect => inferInstanceAs (Decidable False)
  | .audio _ _ | .video _ _ | .script _ _ => inferInstanceAs (Decidable (_ ∧ _))

end PeerAct

namespace Peers

/-- The client has run: what it noted is sent. -/
def clientSends (p : Peers β γ) (client : RtmpState (RtmpClientT γ)) :
    Peers β γ × List OutMessage :=
  ({ p with client := { client with app := { client.app with sent := [] } } }, client.app.sent)

def serverSends (p : Peers β γ) (server : RtmpState (RtmpServer β)) :
    Peers β γ × List OutMessage :=
  ({ p with server := { server with app := { server.app with sent := [] } } }, server.app.sent)

/-- A side acts. -/
def act (p : Peers β γ) (side : Bool) (x : PeerAct) : Peers β γ × List OutMessage :=
  let out :=
    if side = serverSide then p.serverSends { p.server with app := x.server p.server.app }
    else p.clientSends { p.client with app := x.client p.client.app }
  if x = .connect then out
  else
    ({ out.1 with
        pushed := Function.update p.pushed side (p.pushed side ++ out.2.map OutMessage.meaning) },
      out.2)

/-- A piece arrives at a side. -/
def hear (p : Peers β γ) (side : Bool) (n : Nat) : Peers β γ × List OutMessage :=
  if side = serverSide then
    let (recv, out) := p.server.app.recv.receive p.server.control.windowSize n
    ({ p with server := { p.server with app := { p.server.app with recv } } }, out)
  else
    let (recv, out) := p.client.app.recv.receive p.client.control.windowSize n
    ({ p with client := { p.client with app := { p.client.app with recv } } }, out)

end Peers

/-- What the two sides are made with. -/
structure PeerHandlers (β γ : Type) where
  server : RtmpServerHandler β
  client : RtmpClientHandler γ
  stack : RtmpResult
  /-- The application of the server has a stream to play. -/
  plays : β → Bool

/-- A message at a side. -/
def PeerHandlers.handle (h : PeerHandlers β γ) (p : Peers β γ) (side : Bool) (m : RtmpMessage) :
    Except Int (Peers β γ × List OutMessage) :=
  if side = serverSide then
    (appHandler (rtmpServerCallbacks h.server h.stack) m.type m.timestamp m.payload p.server).map
      p.serverSends
  else
    (appHandler (rtmpClientCallbacks h.client h.stack) m.type m.timestamp m.payload p.client).map
      p.clientSends

/-- When a side acts. -/
def PeerHandlers.May (h : PeerHandlers β γ) (p : Peers β γ) (side : Bool) (x : PeerAct) : Prop :=
  if side = serverSide then h.plays p.server.app.app = true ∧ x.Pushable
  else
    x = .connect ∧ p.client.app.state = .uninit
      ∨ p.client.app.publish = 0 ∧ p.client.app.state = .start ∧ x.Pushable

/-- Both sides behind their handshakes. -/
def Peers.new (c : RtmpClientT γ) (b : β) : Peers β γ where
  client := { control := newClientControl, app := c }
  server := { control := newServerControl, app := { app := b } }

/-- A client and a server. -/
def rtmpPeers (h : PeerHandlers β γ) (c : RtmpClientT γ) (b : β) :
    Dialogue (Peers β γ) PeerAct OutMessage RtmpMessage Int where
  init := .new c b
  may side x p := h.May p side x
  act side x p := p.act side x
  hear side n p := p.hear side n
  handle side m p := h.handle p side m

instance (h : PeerHandlers β γ) (c : RtmpClientT γ) (b : β) (side : Bool) (x : PeerAct)
    (p : Peers β γ) : Decidable ((rtmpPeers h c b).may side x p) :=
  inferInstanceAs (Decidable (if side = serverSide then _ else _))

/-! ## Messages at the two sides -/

section Sides

variable (h : PeerHandlers β γ) {p : Peers β γ}

theorem PeerHandlers.handle_server_ok {m : RtmpMessage} {out : Peers β γ × List OutMessage}
    (hrun : h.handle p serverSide m = .ok out) :
    ∃ server, appHandler (rtmpServerCallbacks h.server h.stack) m.type m.timestamp m.payload
      p.server = .ok server ∧ p.serverSends server = out := by
  rw [PeerHandlers.handle, if_pos rfl] at hrun
  exact map_eq_ok hrun

theorem PeerHandlers.handle_client_ok {m : RtmpMessage} {out : Peers β γ × List OutMessage}
    (hrun : h.handle p clientSide m = .ok out) :
    ∃ client, appHandler (rtmpClientCallbacks h.client h.stack) m.type m.timestamp m.payload
      p.client = .ok client ∧ p.clientSends client = out := by
  rw [PeerHandlers.handle, if_neg (by decide)] at hrun
  exact map_eq_ok hrun

theorem PeerHandlers.handle_server_error {m : RtmpMessage} {e : Int}
    (hrun : h.handle p serverSide m = .error e) :
    appHandler (rtmpServerCallbacks h.server h.stack) m.type m.timestamp m.payload p.server
      = .error e := by
  rw [PeerHandlers.handle, if_pos rfl] at hrun
  exact map_eq_error hrun

theorem PeerHandlers.handle_client_error {m : RtmpMessage} {e : Int}
    (hrun : h.handle p clientSide m = .error e) :
    appHandler (rtmpClientCallbacks h.client h.stack) m.type m.timestamp m.payload p.client
      = .error e := by
  rw [PeerHandlers.handle, if_neg (by decide)] at hrun
  exact map_eq_error hrun

/-- Noise: acknowledgements are answered by nothing. -/
def isAcknowledgement (m : RtmpMessage) : Bool :=
  m.type == MessageType.acknowledgement.code && 4 ≤ m.payload.length

theorem appHandler_noise {α : Type} (cb : RtmpCallbacks α) {m : RtmpMessage}
    (hm : isAcknowledgement m = true) (s : RtmpState α) :
    ∃ sequenceNumber, appHandler cb m.type m.timestamp m.payload s
      = .ok { s with control := { s.control with sequenceNumber } } := by
  simp only [isAcknowledgement, Bool.and_eq_true, beq_iff_eq, decide_eq_true_eq] at hm
  rw [hm.1]
  exact appHandler_acknowledgement cb m.timestamp s hm.2

/-- No side fails on noise. -/
theorem PeerHandlers.handle_noise {m : RtmpMessage} (hm : isAcknowledgement m = true) (side : Bool)
    (e : Int) : h.handle p side m ≠ .error e := by
  intro hrun
  cases side
  · obtain ⟨_, hnoise⟩ := appHandler_noise (rtmpClientCallbacks h.client h.stack) hm p.client
    cases hnoise.symm.trans (h.handle_client_error hrun)
  · obtain ⟨_, hnoise⟩ := appHandler_noise (rtmpServerCallbacks h.server h.stack) hm p.server
    cases hnoise.symm.trans (h.handle_server_error hrun)

/-- What a piece that arrives is answered with. -/
theorem receive_acknowledges (recv : ReceivedBytes) (windowSize n : Nat) :
    ∀ m ∈ (recv.receive windowSize n).2, m.Fits ∧ isAcknowledgement m.meaning = true := by
  intro m hm
  unfold ReceivedBytes.receive at hm
  simp only at hm
  split at hm
  · rw [List.mem_singleton.mp hm]
    refine ⟨⟨by decide, ?_, ?_⟩, rfl⟩
    · exact List.ne_nil_of_length_pos (by simp)
    · simp
  · exact absurd hm List.not_mem_nil

end Sides

/-! ## What the two sides say -/

/-- The answer to a client that connects. -/
def connectAnswer : List OutMessage :=
  [windowMessage 5000000, .control .setPeerBandwidth (setPeerBandwidthPayload 5000000 2),
    .chunkSize 4096,
    commandMessage (connectReplyArgs (doubleBytes 1) "FMS/3,0,1,123" (doubleBytes 31)
      "NetConnection.Connect.Success" "status" "Connection Succeeded." (doubleBytes 0)) 0]

/-- The answer to a client that creates a stream. -/
def createStreamAnswer : List OutMessage :=
  [commandMessage (numberReplyArgs (doubleBytes 2) (doubleBytes 1)) 0]

/-- A message that is sent and is no acknowledgement. -/
abbrev PlainMessage (m : OutMessage) : Prop := m.Fits ∧ isAcknowledgement m.meaning = false

theorem commandMessage_plain {arg : AmfArg} {args : List AmfArg} {streamId : Nat}
    (hargs : (argsBytes (arg :: args)).length ≤ payloadSize) (hstream : streamId < 4294967296) :
    PlainMessage (commandMessage (arg :: args) streamId) := ⟨commandMessage_fits hargs hstream, rfl⟩

theorem windowMessage_plain (n : Nat) : PlainMessage (windowMessage n) :=
  ⟨⟨by decide, List.ne_nil_of_length_pos (by simp), by simp⟩, rfl⟩

theorem eventMessage_plain (event value : Nat) : PlainMessage (eventMessage event value []) :=
  ⟨⟨by decide, List.ne_nil_of_length_pos (by simp [eventPayload]), by simp [eventPayload]⟩, rfl⟩

theorem connectAnswer_plain : ∀ m ∈ connectAnswer, PlainMessage m := by
  simp only [connectAnswer, List.forall_mem_cons]
  exact ⟨windowMessage_plain _, ⟨⟨by decide, by decide, by decide⟩, rfl⟩,
    ⟨⟨by decide, by decide⟩, rfl⟩, commandMessage_plain (by decide +kernel) (by decide), nofun⟩

theorem createStreamAnswer_plain : ∀ m ∈ createStreamAnswer, PlainMessage m := by
  simp only [createStreamAnswer, List.forall_mem_cons]
  exact ⟨commandMessage_plain (by decide +kernel) (by decide), nofun⟩

/-- Media of a chunk stream of its own. -/
def IsMedia (m : RtmpMessage) : Prop :=
  ∃ type ∈ [MessageType.audio, .video, .data], m.type = type.code

theorem mediaMessage_plain {cid : Nat} (hcid : 3 ≤ cid ∧ cid ≤ 6) {type : MessageType}
    (htype : type ∈ [MessageType.audio, .video, .data]) {streamId : Nat}
    (hstream : streamId < 4294967296) {data : List UInt8} {timestamp : Nat}
    (hdata : data ≠ [] ∧ data.length < 0xFFFFFF ∧ timestamp < 4294967296) :
    PlainMessage (mediaMessage cid type streamId data timestamp)
      ∧ IsMedia (mediaMessage cid type streamId data timestamp).meaning := by
  have hcode : ∀ type ∈ [MessageType.audio, .video, .data], type.code ≠ 0
      ∧ type.code ≠ MessageType.setChunkSize.code
      ∧ (type.code == MessageType.acknowledgement.code) = false := by decide
  obtain ⟨hzero, hsize, hack⟩ := hcode type htype
  refine ⟨⟨⟨hcid, hdata.1, hdata.2.1, hdata.2.2, hstream, hzero, hsize⟩, ?_⟩, type, htype, rfl⟩
  show (type.code == MessageType.acknowledgement.code && _) = false
  rw [hack, Bool.false_and]

/-- Media that a client pushes. -/
theorem client_push {x : PeerAct} (hx : x.Pushable) (s : RtmpClientT γ)
    (hstream : s.streamId < 4294967296) :
    ∃ m : OutMessage, x.client s = { s with sent := s.sent ++ [m] } ∧ PlainMessage m
      ∧ IsMedia m.meaning := by
  cases x with
  | connect => exact hx.elim
  | audio data timestamp => exact ⟨_, rfl, mediaMessage_plain (by decide) (by decide) hstream hx⟩
  | video data timestamp => exact ⟨_, rfl, mediaMessage_plain (by decide) (by decide) hstream hx⟩
  | script data timestamp => exact ⟨_, rfl, mediaMessage_plain (by decide) (by decide) hstream hx⟩

/-! ## Messages in front of the callbacks of the two sides -/

/-- A client with what it noted sent. -/
abbrev RtmpState.clientFlushed (s : RtmpState (RtmpClientT γ)) : RtmpState (RtmpClientT γ) :=
  { s with app := { s.app with sent := [] } }

/-- A server with what it noted sent. -/
abbrev RtmpState.serverFlushed (s : RtmpState (RtmpServer β)) : RtmpState (RtmpServer β) :=
  { s with app := { s.app with sent := [] } }

/-- A command in front of the callbacks of the server. -/
theorem server_command (h : PeerHandlers β γ) (data : List UInt8) (s : RtmpState (RtmpServer β))
    {out : Except Int (RtmpServer β)}
    (hrun : (rtmpServerCallbacks h.server h.stack).oninvoke s.control data s.app = out) :
    appHandler (rtmpServerCallbacks h.server h.stack) MessageType.invoke.code 0 data s
      = out.map fun app => { s with app } :=
  (appHandler_command (rtmpServerCallbacks h.server h.stack) 0 s data).trans (congrArg _ hrun)

/-- A command in front of the callbacks of the client. -/
theorem client_command (h : RtmpClientHandler γ) (stack : RtmpResult) (data : List UInt8)
    (s : RtmpState (RtmpClientT γ)) {out : Except Int (RtmpClientT γ)}
    (hrun : (rtmpClientCallbacks h stack).oninvoke s.control data s.app = out) :
    appHandler (rtmpClientCallbacks h stack) MessageType.invoke.code 0 data s
      = out.map fun app => { s with app } :=
  (appHandler_command (rtmpClientCallbacks h stack) 0 s data).trans (congrArg _ hrun)

/-- The result of a callback. -/
def callResult (out : Int × β) : Except Int β := if out.1 = 0 then .ok out.2 else .error out.1

/-- The callbacks of an application for media. -/
def RtmpServerHandler.media (h : RtmpServerHandler β) : RtmpCallbacks β where
  onaudio data timestamp b := callResult (h.onaudio data timestamp b)
  onvideo data timestamp b := callResult (h.onvideo data timestamp b)
  onscript data timestamp b := callResult (h.onscript data timestamp b)
  oninvoke _ _ b := .ok b
  onabort _ b := b
  oneof _ b := b
  onping _ b := b
  onbandwidth _ b := b

/-- Media in front of an application. -/
def RtmpServerHandler.give (h : RtmpServerHandler β) (b : β) (m : RtmpMessage) : Except Int β :=
  rtmpMedia h.media m.type m.payload m.timestamp b

theorem onmedia_eq (call : List UInt8 → Nat → β → Int × β) (data : List UInt8) (timestamp : Nat)
    (s : RtmpServer β) :
    RtmpServer.onmedia call data timestamp s
      = (callResult (call data timestamp s.app)).map fun app => { s with app } := by
  unfold RtmpServer.onmedia callResult
  simp only
  split <;> rfl

/-- Media in front of the callbacks of a server. -/
theorem appHandler_media (h : RtmpServerHandler β) (stack : RtmpResult) {m : RtmpMessage}
    (hm : IsMedia m) (s : RtmpState (RtmpServer β)) :
    appHandler (rtmpServerCallbacks h stack) m.type m.timestamp m.payload s
      = (h.give s.app.app m).map fun app => { s with app := { s.app with app } } := by
  obtain ⟨type, htype, hm⟩ := hm
  rw [RtmpServerHandler.give, hm]
  have hmap : ∀ out : Except Int β, (out.map fun app => { s.app with app }).map
      (fun app => { s with app }) = out.map fun app => { s with app := { s.app with app } } := by
    intro out
    cases out <;> rfl
  simp only [List.mem_cons, List.not_mem_nil, or_false] at htype
  rcases htype with rfl | rfl | rfl
  · simp only [appHandler, rtmpMedia, MessageType.ofByte_code, rtmpServerCallbacks, onmedia_eq,
      hmap]
    rfl
  · simp only [appHandler, rtmpMedia, MessageType.ofByte_code, rtmpServerCallbacks, onmedia_eq,
      hmap]
    rfl
  · simp only [appHandler, rtmpMedia, MessageType.ofByte_code, rtmpServerCallbacks, rtmpScript,
      onmedia_eq]
    split <;> exact hmap _

end SeastarLive
