/-
SeastarLive.Session.PublishSession — the publisher fed with packets.

The receiving half of `src/session/rtmp/publish_session.cc`:
`on_recv_packet` with its three handlers, the two `add_frame` and
`rectify_dts`. `publishing` is the machine of `Session.Broadcast` in which the
publisher takes packets in place of frames.

* The loaders of metadata and decoder configurations are parameters
  (`Loader`): they parse AMF objects and codec records, and may abort.
* A handler either has nothing to do, or throws, or passes a frame on; an
  exception ends the read loop and fails the session.
-/
import SeastarLive.Flv.AmfCommand
import SeastarLive.Flv.TagHeader
import SeastarLive.Session.Broadcast

namespace SeastarLive

open Flv

/-! ## Packets -/

inductive PacketType
  | video
  | audio
  | script
deriving DecidableEq

/-- `packet`. -/
structure Packet where
  type : PacketType := .video
  data : List UInt8 := []
  dts : Int := 0
deriving DecidableEq

/-- `packet::size`. -/
def Packet.size (pkt : Packet) : Nat := pkt.data.length

/-- What a loader does with its buffer. -/
inductive LoadResult (α : Type)
  | loaded (a : α)
  /-- A negative return value. -/
  | malformed (rt : Int)
  /-- An assertion of the loader fails. -/
  | aborts

/-- `metadata_t::load`, `video_meta_t::load` and `audio_meta_t::load`, on the value they
    update, the codec identifier and the buffer. -/
structure Loader where
  metadata : Metadata → List UInt8 → LoadResult Metadata
  video : VideoMeta → Nat → List UInt8 → LoadResult VideoMeta
  audio : AudioMeta → Nat → List UInt8 → LoadResult AudioMeta

/-- How a handler ends. -/
inductive Received
  | ready
  /-- A `std::runtime_error` with this text. -/
  | exception (what : List Char)
  /-- `add_frame(st, frame)` is called. -/
  | frame (frame : Frame)

/-! ## The session -/

/-- `rtmp::publish_session` with its players; `metadata` and `headerSent` are the
    `pipe_state` of its read loop. -/
structure PublishSession where
  world : Broadcast
  metadata : Option Metadata := none
  headerSent : Bool := false
  lastActualDts : Int := -1
  lastEndDts : Int := -1

namespace PublishSession

/-- `validate_packet`. -/
def validatePacket (g : GlobalSettings) (pkt : Packet) : Bool :=
  decide (pkt.size ≤ g.maxBytesPerBox)

/-! ## Handlers -/

section Handlers

variable (loader : Loader) (metadata : Option Metadata)

/-- `on_recv_script`. -/
def onRecvScript (pkt : Packet) : Except Fault Received := do
  assert .packetSize (pkt.size != 0)
  match parseAmfCommand pkt.data with
  | none => .ok (.exception "failed to parse script command".toList)
  | some (_, []) => .ok .ready
  | some (.metaData, b :: rest) =>
      match loader.metadata (metadata.getD {}) (b :: rest) with
      | .aborts => .error (.assertion .metadataLoad)
      | .malformed _ => .ok (.exception "failed to parse metadata".toList)
      | .loaded loaded => .ok (.frame (.metadata loaded))
  | some (.rtmpSampleAccess, b :: rest) =>
      match sampleAccessDecode (b :: rest) with
      | none => .ok (.exception "failed to parse sample_access".toList)
      | some _ => .ok .ready
  | some (_, b :: rest) => .ok (.frame (.script (Script.ofData (b :: rest))))

/-- `on_recv_video`. -/
def onRecvVideo (pkt : Packet) : Except Fault Received := do
  assert .packetSize (pkt.size != 0)
  match ← videoTagHeaderRead pkt.data with
  | none => .ok (.exception "failed to read flv video header: -1".toList)
  | some (header, n) =>
      let payload := pkt.data.drop n
      if payload.isEmpty then .ok .ready
      else if header.avpacket = flvSequenceHeader then
        let loaded := metadata.getD {}
        match loader.video loaded.video header.codecid payload with
        | .aborts => .error (.assertion .metadataLoad)
        | .malformed rt =>
            .ok (.exception ("failed to parse video header: " ++ toString rt).toList)
        | .loaded video => .ok (.frame (.metadata { loaded with video }))
      else if metadata.isNone then .ok .ready
      else
        .ok (.frame (.media
          { isVideo := true
            isKeyframe := header.keyframe == 1
            dts := pkt.dts
            cts := (header.cts % 18446744073709551616).toNat
            data := payload }))

/-- `on_recv_audio`. -/
def onRecvAudio (pkt : Packet) : Except Fault Received := do
  assert .packetSize (pkt.size != 0)
  match ← audioTagHeaderRead pkt.data with
  | none => .ok (.exception "failed to read flv audio header: -1".toList)
  | some (header, n) =>
      let payload := pkt.data.drop n
      if payload.isEmpty then .ok .ready
      else if header.avpacket = flvSequenceHeader then
        let loaded := metadata.getD {}
        match loader.audio loaded.audio header.codecid payload with
        | .aborts => .error (.assertion .metadataLoad)
        | .malformed rt =>
            .ok (.exception ("failed to parse audio header: " ++ toString rt).toList)
        | .loaded audio => .ok (.frame (.metadata { loaded with audio }))
      else if metadata.isNone then .ok .ready
      else .ok (.frame (.media { dts := pkt.dts, data := payload }))

/-- The dispatch of `on_recv_packet`. -/
def handlePacket (pkt : Packet) : Except Fault Received :=
  match pkt.type with
  | .script => onRecvScript loader metadata pkt
  | .video => onRecvVideo loader metadata pkt
  | .audio => onRecvAudio loader metadata pkt

end Handlers

/-! ## Frames -/

/-- `on_begin`. -/
def onBegin (s : PublishSession) : PublishSession :=
  { s with
    world := { s.world with
      pub := { s.world.pub with
        impl := s.world.pub.impl.onBegin
        cache := s.world.pub.cache.clear } }
    lastActualDts := -1
    lastEndDts := -1 }

/-- `rectify_dts`: the session with its dts bookkeeping, and the frame with its new dts. -/
def rectifyDts (s : PublishSession) (frame : Frame) : PublishSession × Frame :=
  match frame with
  | .media media =>
      let backflow := decide (media.dts < s.lastActualDts)
      let lastEndDts := if backflow then s.world.pub.impl.currentDts + 1 else s.lastEndDts
      let dts := if backflow || decide (0 < lastEndDts) then media.dts + lastEndDts
        else media.dts
      ({ s with lastActualDts := media.dts, lastEndDts }, .media (media.setDts dts))
  | .metadata _ => (s, frame)
  | .script _ => (s, frame)

/-- `add_frame(frame)`. -/
def addFrame (s : PublishSession) (frame : Frame) : Except Fault PublishSession := do
  let (s, frame) := s.rectifyDts frame
  let pub ← s.world.pub.recv frame
  .ok { s with world := { s.world with pub } }

/-- `add_frame(st, frame)`. -/
def addFrameTo (s : PublishSession) (frame : Frame) : Except Fault PublishSession :=
  match frame with
  | .metadata m =>
      if s.metadata.any fun metadata => metadata.equal m then .ok s
      else
        let s := { s with metadata := some m, headerSent := false }
        if !m.isEnabled then .ok s else s.addFrame frame
  | .media media => do
      assert .addFrameSize (media.size != 0)
      s.addFrame frame
  | .script _ => s.addFrame frame

/-- An exception out of the read loop: the session fails, and the loop ends. -/
def recvFails (s : PublishSession) (what : List Char) : PublishSession :=
  let st : Status := ⟨.recvFailed, "std::runtime_error (".toList ++ what ++ [')']⟩
  { s with
    world := { s.world with
      pub := { s.world.pub with impl := s.world.pub.impl.complete (.failed st), phase := .ended [] } } }

/-- `on_recv_packet`; `publish` is a step of its own. -/
def onRecvPacket (g : GlobalSettings) (loader : Loader) (s : PublishSession) (pkt : Packet) :
    Except Fault PublishSession :=
  if s.world.pub.impl.isComplete then .ok s
  else if !validatePacket g pkt then .ok (s.recvFails "invalid packet".toList)
  else do
    match ← handlePacket loader s.metadata pkt with
    | .ready => .ok s
    | .exception what => .ok (s.recvFails what)
    | .frame frame => s.addFrameTo frame

end PublishSession

/-! ## The machine -/

/-- The steps of a publisher fed with packets and of its players. -/
inductive PublishEvent
  /-- The read loop takes a packet. -/
  | packet (pkt : Packet)
  | other (e : Event)
deriving DecidableEq

/-- Steps other than taking a frame. -/
def Event.isRecv : Event → Bool
  | .recv _ => true
  | _ => false

namespace PublishSession

def Enabled (s : PublishSession) : PublishEvent → Prop
  | .packet _ => s.world.pub.phase = .idle
  | .other e => e.isRecv = false ∧ s.world.Enabled e

instance (s : PublishSession) : ∀ a, Decidable (s.Enabled a)
  | .packet _ => inferInstanceAs (Decidable (_ = _))
  | .other _ => inferInstanceAs (Decidable (_ ∧ _))

def step (g : GlobalSettings) (loader : Loader) (s : PublishSession) :
    PublishEvent → Except Fault PublishSession
  | .packet pkt => s.onRecvPacket g loader pkt
  | .other e => do
      let world ← s.world.step g e
      .ok { s with world }

end PublishSession

/-- A publisher fed with packets, and players of the given kinds and media masks. -/
def publishing (g : GlobalSettings) (loader : Loader) (roles : Nat → PlayerKind × MediaType) :
    Machine PublishSession PublishEvent Fault where
  init := { world := (broadcast g roles).init }
  enabled := PublishSession.Enabled
  step := PublishSession.step g loader

end SeastarLive
