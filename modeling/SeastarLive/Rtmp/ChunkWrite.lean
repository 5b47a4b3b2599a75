/-
SeastarLive.Rtmp.ChunkWrite — the writer of the chunk stream.

`rtmp_chunk_write` of `3rd/librtmp/source/rtmp-chunk-write.c`. For every chunk stream the writer
keeps the header and the timestamp of the message before; a header leaves out what has not
changed since, and a timestamp becomes a difference. The messages of `rtmp-control-message.c` and
`rtmp-event.c` are written as they are, and pass the writer by.

A message of no bytes is not sent, but it is kept as the message before.

* `sendControl_eq`: the chunks of a command, as the end of a connection sends them, are those of
  the writer.
-/
import SeastarLive.Rtmp.StopOnce
import SeastarLive.Rtmp.ChunkReadTheorems

namespace SeastarLive

/-! ## The writer -/

/-- `rtmp_packet_t` of a chunk stream that is written. -/
structure OutPacket where
  header : ChunkHeader := {}
  clock : Nat := 0
deriving DecidableEq

/-- `out_packets` of a new connection: the chunk streams of `rtmp_channel_t`. -/
def newOutPackets (i : Fin 8) : OutPacket :=
  if 2 ≤ i.val ∧ i.val ≤ 6 then { header := { cid := i.val } } else {}

/-- What `rtmp_t` keeps for its writer. -/
structure ChunkWriter where
  outChunkSize : Nat := 128
  packets : Fin 8 → OutPacket := newOutPackets

namespace ChunkWriter

/-- `rtmp_packet_find` of the writer. -/
def packetFind (packets : Fin 8 → OutPacket) (cid : Nat) : Option (Fin 8) :=
  (slotsFrom cid).find? fun i => (packets i).header.cid == cid

/-- The header that is written for `header` behind a message of the packet. -/
def zipHeader (p : OutPacket) (header : ChunkHeader) : ChunkHeader :=
  if header.fmt ≠ .type0 ∧ header.cid = p.header.cid ∧ p.clock ≤ header.timestamp
      ∧ header.timestamp - p.clock < 0xFFFFFF ∧ header.streamId = p.header.streamId then
    let timestamp := header.timestamp - p.clock
    let fmt :=
      if header.type = p.header.type ∧ header.length = p.header.length then
        if timestamp = p.header.timestamp then .type3 else .type2
      else .type1
    { header with fmt, timestamp }
  else { header with fmt := .type0 }

/-- `rtmp_chunk_header_zip`: the header that is written, and the writer that keeps it. -/
def zip (w : ChunkWriter) (header : ChunkHeader) : Option (ChunkHeader × ChunkWriter) :=
  match packetFind w.packets header.cid with
  | none => none
  | some i =>
      let h := zipHeader (w.packets i) header
      let packet : OutPacket := { header := h, clock := header.timestamp }
      some (h, { w with packets := Function.update w.packets i packet })

end ChunkWriter

/-- The extended timestamp of a header, where it has one. -/
def extendedTimestampBytes (header : ChunkHeader) : List UInt8 :=
  if extendedTimestampMark ≤ header.timestamp then chunkExtendedTimestampWrite header.timestamp
  else []

/-- The header of the first chunk of a message. -/
def firstHeaderBytes (header : ChunkHeader) : List UInt8 :=
  chunkBasicHeaderWrite header.fmt header.cid ++ chunkMessageHeaderWrite header
    ++ extendedTimestampBytes header

/-- The header of a chunk that goes on with a message. -/
def nextHeaderBytes (header : ChunkHeader) : List UInt8 :=
  chunkBasicHeaderWrite .type3 header.cid ++ extendedTimestampBytes header

/-- The loop of `rtmp_chunk_write`: the header of the next chunk, and of those behind it. -/
def chunkWriteLoop (size : Nat) (next : List UInt8) : Nat → List UInt8 → List UInt8 → List Chunk
  | 0, _, _ => []
  | fuel + 1, header, payload =>
      if payload = [] then []
      else ⟨header, payload.take size⟩ :: chunkWriteLoop size next fuel next (payload.drop size)

/-- The result of `rtmp_chunk_write`: the writer, and what it sent or `-EINVAL`. -/
def chunkWrite (w : ChunkWriter) (header : ChunkHeader) (payload : List UInt8) :
    ChunkWriter × Option (List Chunk) :=
  match w.zip header with
  | none => (w, none)
  | some (h, w) =>
      if 0xFFFFFF ≤ h.length then (w, none)
      else
        (w, some (chunkWriteLoop w.outChunkSize (nextHeaderBytes h) payload.length
          (firstHeaderBytes h) payload))

/-- The bytes of chunks, in the order in which `rtmp_handler_send` queues them. -/
def chunkBytes (chunks : List Chunk) : List UInt8 := (chunks.flatMap Chunk.buffers).flatten

@[simp] theorem chunkWriteLoop_nil (size : Nat) (next : List UInt8) (fuel : Nat)
    (header : List UInt8) : chunkWriteLoop size next fuel header [] = [] := by
  cases fuel <;> rfl

@[simp] theorem chunkBytes_nil : chunkBytes [] = [] := rfl

theorem chunkBytes_cons (c : Chunk) (chunks : List Chunk) :
    chunkBytes (c :: chunks) = c.header ++ c.payload ++ chunkBytes chunks := by
  unfold chunkBytes Chunk.buffers
  rw [List.flatMap_cons, List.flatten_append]
  congr 1
  split <;> split <;> simp_all

/-! ## Commands -/

/-- The header of `rtmp_server_send_control` and `rtmp_client_send_control`. -/
def invokeHeader (streamId length : Nat) : ChunkHeader :=
  { cid := 3, length, type := MessageType.invoke.code, streamId }

theorem be24_eq (n : Nat) : Flv.be24 n = beBytes 3 n := by
  simp [Flv.be24, beBytes, ByteMemory.leBytes, Nat.div_div_eq_div_mul]

theorem beWriteUint32_eq (n : Nat) : Flv.beWriteUint32 n = beBytes 4 n := by
  simp [Flv.beWriteUint32, beBytes, ByteMemory.leBytes, Nat.div_div_eq_div_mul]

theorem controlHeader_eq (streamId length : Nat) :
    controlHeader streamId length = firstHeaderBytes (invokeHeader streamId length) := by
  have hstream : (beBytes 4 streamId).reverse = ByteMemory.leBytes 4 streamId :=
    List.reverse_reverse _
  have hbasic : chunkBasicHeaderWrite .type0 3 = [3] := by decide
  have hextended : extendedTimestampBytes (invokeHeader streamId length) = [] := rfl
  rw [controlHeader, be24_eq, be24_eq, beWriteUint32_eq, hstream, firstHeaderBytes, hextended]
  simp only [invokeHeader, hbasic, chunkMessageHeaderWrite, List.append_assoc, List.append_nil]
  rfl

theorem chunkLoop_eq (size fuel : Nat) (header payload : List UInt8) :
    chunkLoop size fuel header payload = chunkWriteLoop size [0xC3] fuel header payload := by
  induction fuel generalizing header payload with
  | zero => rfl
  | succ fuel ih =>
      simp only [chunkLoop, chunkWriteLoop, ih]

/-- The chunks of a command are those of the writer. -/
theorem sendControl_eq (ctx : StopContext) (payload : List UInt8) :
    sendControl ctx payload
      = chunkWriteLoop ctx.chunkSize (nextHeaderBytes (invokeHeader ctx.streamId payload.length))
          payload.length (firstHeaderBytes (invokeHeader ctx.streamId payload.length)) payload := by
  rw [sendControl, chunkLoop_eq, controlHeader_eq]
  rfl

/-! ## Messages that pass the writer by -/

/-- `rtmp_protocol_control_message_header` and `rtmp_user_control_message_header`. -/
def controlMessageHeader (type : MessageType) (length : Nat) : List UInt8 :=
  [2] ++ beBytes 3 0 ++ beBytes 3 length ++ [type.code] ++ [0, 0, 0, 0]

/-- The message `payload` of a type, as the functions of `rtmp-control-message.c` and
    `rtmp-event.c` write it. -/
def controlMessage (type : MessageType) (payload : List UInt8) : List UInt8 :=
  controlMessageHeader type payload.length ++ payload

/-- The first bit of a chunk size is zero. -/
def setChunkSizePayload (chunkSize : Nat) : List UInt8 := beBytes 4 (chunkSize % 0x80000000)

def setPeerBandwidthPayload (windowSize : Nat) (limitType : UInt8) : List UInt8 :=
  beBytes 4 windowSize ++ [limitType]

/-- An event with its stream or its timestamp, and what follows. -/
def eventPayload (event value : Nat) (rest : List UInt8) : List UInt8 :=
  beBytes 2 event ++ beBytes 4 value ++ rest

/-- `rtmp_set_chunk_size`. -/
def setChunkSizeMessage (chunkSize : Nat) : List UInt8 :=
  controlMessage .setChunkSize (setChunkSizePayload chunkSize)

/-- `rtmp_acknowledgement`. -/
def acknowledgementMessage (sequenceNumber : Nat) : List UInt8 :=
  controlMessage .acknowledgement (beBytes 4 sequenceNumber)

/-- `rtmp_window_acknowledgement_size`. -/
def windowAcknowledgementSizeMessage (windowSize : Nat) : List UInt8 :=
  controlMessage .windowAcknowledgementSize (beBytes 4 windowSize)

/-- `rtmp_set_peer_bandwidth`. -/
def setPeerBandwidthMessage (windowSize : Nat) (limitType : UInt8) : List UInt8 :=
  controlMessage .setPeerBandwidth (setPeerBandwidthPayload windowSize limitType)

end SeastarLive
