/-
SeastarLive.Rtmp.ChunkChannel — messages over a chunk stream.

The writer of one side and the reader of the other are a codec: what is written is read, message
by message, and the reader follows the writer in the headers that it leaves out and in the size
of the chunks.

* `Sync`: a reader that is in step with a writer.
* `Sync.read`: a reader in step on the chunks of a message.
* `chunkCodec_lawful`: the writer and the reader are a lawful codec of the messages that are
  not empty and whose length is not extended.
-/
import SeastarLive.Lib.Transport
import SeastarLive.Rtmp.ChunkStream

namespace SeastarLive

open ChunkReader

/-! ## The codec -/

/-- What a side sends. -/
inductive OutMessage
  /-- `rtmp_chunk_write`, with or without a compact header -/
  | chunked (compact : Bool) (m : RtmpMessage)
  /-- a message of `rtmp-control-message.c` or `rtmp-event.c` -/
  | control (type : MessageType) (payload : List UInt8)
  /-- `rtmp_set_chunk_size`, with `out_chunk_size` -/
  | chunkSize (size : Nat)
deriving DecidableEq

/-- A message on chunk stream 2. -/
def controlMeaning (type : MessageType) (payload : List UInt8) : RtmpMessage where
  cid := 2
  timestamp := 0
  type := type.code
  streamId := 0
  payload := payload

/-- What the other side gets of it. -/
def OutMessage.meaning : OutMessage → RtmpMessage
  | .chunked _ m => m
  | .control type payload => controlMeaning type payload
  | .chunkSize size => controlMeaning .setChunkSize (setChunkSizePayload size)

/-- The header with which a message is given to `rtmp_chunk_write`. -/
def RtmpMessage.header (m : RtmpMessage) (compact : Bool) : ChunkHeader where
  fmt := if compact then .type1 else .type0
  cid := m.cid
  timestamp := m.timestamp
  length := m.payload.length
  type := m.type
  streamId := m.streamId

/-- The bytes of a message; those that `rtmp_chunk_write` refuses have none. -/
def writeMessage (w : ChunkWriter) : OutMessage → ChunkWriter × List UInt8
  | .chunked compact m =>
      let (w, sent) := chunkWrite w (m.header compact) m.payload
      (w, chunkBytes (sent.getD []))
  | .control type payload => (w, controlMessage type payload)
  | .chunkSize size => ({ w with outChunkSize := size }, setChunkSizeMessage size)

/-- The messages of a piece. -/
def readMessages (r : ChunkReader Unit) (data : List UInt8) :
    Except ChunkFailure (ChunkReader Unit × List RtmpMessage) :=
  (chunkRead recordHandler (r.withApp []) data).map fun t => (t.withApp (), t.app)

def chunkCodec :
    Codec ChunkWriter (ChunkReader Unit) OutMessage RtmpMessage UInt8 ChunkFailure where
  write := writeMessage
  read := readMessages
  meaning := OutMessage.meaning

/-! ## In step -/

/-- A message that `rtmp_chunk_write` sends, on one of the chunk streams of a connection. -/
structure RtmpMessage.Fits (m : RtmpMessage) : Prop where
  cid : 3 ≤ m.cid ∧ m.cid ≤ 6
  payload : m.payload ≠ []
  length : m.payload.length < 0xFFFFFF
  timestamp : m.timestamp < 4294967296
  streamId : m.streamId < 4294967296
  type : m.type ≠ 0
  notChunkSize : m.type ≠ MessageType.setChunkSize.code

def OutMessage.Fits : OutMessage → Prop
  | .chunked _ m => m.Fits
  | .control type payload => type ≠ .setChunkSize ∧ payload ≠ [] ∧ payload.length ≤ 64
  | .chunkSize size => 64 ≤ size ∧ size ≤ 0x800000

instance (m : RtmpMessage) : Decidable m.Fits :=
  decidable_of_iff ((3 ≤ m.cid ∧ m.cid ≤ 6) ∧ m.payload ≠ [] ∧ m.payload.length < 0xFFFFFF
      ∧ m.timestamp < 4294967296 ∧ m.streamId < 4294967296 ∧ m.type ≠ 0
      ∧ m.type ≠ MessageType.setChunkSize.code)
    ⟨fun ⟨hcid, hpayload, hlength, htimestamp, hstreamId, htype, hsize⟩ =>
        ⟨hcid, hpayload, hlength, htimestamp, hstreamId, htype, hsize⟩,
      fun h => ⟨h.cid, h.payload, h.length, h.timestamp, h.streamId, h.type, h.notChunkSize⟩⟩

instance : DecidablePred OutMessage.Fits
  | .chunked _ m => inferInstanceAs (Decidable m.Fits)
  | .control _ _ => inferInstanceAs (Decidable (_ ∧ _))
  | .chunkSize _ => inferInstanceAs (Decidable (_ ∧ _))

/-- The packet of a reader knows what the packet of the writer has. -/
structure PacketSync (o : OutPacket) (p : InPacket) : Prop where
  /-- Before its first message a packet is new. -/
  stream : p.header.cid = o.header.cid ∨ p.header.type = 0
  idle : p.payload = []
  clock : p.clock = o.clock
  clock_lt : o.clock < 4294967296
  timestamp : p.header.timestamp = min o.header.timestamp extendedTimestampMark
  length : p.header.length = o.header.length
  type : p.header.type = o.header.type
  streamId : p.header.streamId = o.header.streamId

/-- A reader that is in step with a writer, between two messages. -/
structure Sync {σ : Type} (w : ChunkWriter) (r : ChunkReader σ) : Prop where
  state : r.parser = .init
  chunkSize : r.inChunkSize = w.outChunkSize
  chunkSize_le : 64 ≤ w.outChunkSize
  /-- Every chunk stream has its own packet, on both sides. -/
  outStreams : ∀ i : Fin 8, (w.packets i).header.cid = if 2 ≤ i.val ∧ i.val ≤ 6 then i.val else 0
  inStreams : ∀ i : Fin 8, (r.packets i).header.cid = 0
    ∨ (r.packets i).header.cid = i.val ∧ 2 ≤ i.val ∧ i.val ≤ 6
  control : (r.packets 2).payload = []
  media : ∀ i : Fin 8, 3 ≤ i.val → i.val ≤ 6 → PacketSync (w.packets i) (r.packets i)

theorem sync_new : Sync {} ({ app := () } : ChunkReader Unit) where
  state := rfl
  chunkSize := rfl
  chunkSize_le := by decide
  outStreams := by decide
  inStreams _ := .inl rfl
  control := rfl
  media i hlow hhigh := by
    have hpacket : newOutPackets i = { header := { cid := i.val } } := if_pos ⟨by omega, hhigh⟩
    refine ⟨.inr rfl, rfl, ?_, ?_, ?_, ?_, ?_, ?_⟩ <;> simp only [hpacket] <;> decide

/-! ## Headers -/

/-- What the reader makes of a header that leaves out what the packet of the writer has. -/
theorem PacketSync.zipHeader {o : OutPacket} {p : InPacket} (h : PacketSync o p)
    {header : ChunkHeader} (htype : header.type ≠ 0)
    (htimestamp : header.timestamp < 4294967296) :
    let z := ChunkWriter.zipHeader o header
    (p.header.afterChunk z).timestamp = min z.timestamp extendedTimestampMark
      ∧ (p.header.afterChunk z).length = header.length
      ∧ (p.header.afterChunk z).type = header.type
      ∧ (p.header.afterChunk z).streamId = header.streamId
      ∧ clockAfter p.clock z = header.timestamp
      ∧ z.timestamp < 4294967296
      ∧ (z.fmt = .type3 → z.timestamp < extendedTimestampMark)
      ∧ (z.fmt = .type2 ∨ z.fmt = .type3 → p.header.cid = o.header.cid) := by
  have hclock := h.clock_lt
  have hmark : extendedTimestampMark = 0xFFFFFF := rfl
  unfold ChunkWriter.zipHeader ChunkHeader.afterChunk clockAfter
  by_cases hcompact : header.fmt ≠ .type0 ∧ header.cid = o.header.cid ∧ o.clock ≤ header.timestamp
      ∧ header.timestamp - o.clock < 0xFFFFFF ∧ header.streamId = o.header.streamId
  · have hsum : (p.clock + (header.timestamp - o.clock)) % 4294967296 = header.timestamp := by
      rw [h.clock]
      omega
    have hstreamId : p.header.streamId = header.streamId := h.streamId.trans hcompact.2.2.2.2.symm
    by_cases hsame : header.type = o.header.type ∧ header.length = o.header.length
    · have hstream : p.header.cid = o.header.cid := by
        refine h.stream.resolve_right ?_
        rw [h.type, ← hsame.1]
        exact htype
      have hlength : p.header.length = header.length := h.length.trans hsame.2.symm
      have htype' : p.header.type = header.type := h.type.trans hsame.1.symm
      by_cases hrepeat : header.timestamp - o.clock = o.header.timestamp
      · simp only [if_pos hcompact, if_pos hsame, if_pos hrepeat]
        exact ⟨hrepeat ▸ h.timestamp, hlength, htype', hstreamId, hsum, by omega,
          fun _ => by omega, fun _ => hstream⟩
      · simp only [if_pos hcompact, if_pos hsame, if_neg hrepeat, true_and]
        exact ⟨hlength, htype', hstreamId, hsum, by omega, fun _ => by omega,
          fun _ => hstream⟩
    · simp only [if_pos hcompact, if_neg hsame, true_and]
      exact ⟨hstreamId, hsum, by omega, fun _ => by omega,
        fun hfmt => by rcases hfmt with hfmt | hfmt <;> cases hfmt⟩
  · simp only [if_neg hcompact, true_and]
    exact ⟨htimestamp, fun hfmt => (nomatch hfmt),
      fun hfmt => by rcases hfmt with hfmt | hfmt <;> cases hfmt⟩

/-! ## Messages -/

/-- The search for a chunk stream starts at the packet with its number. -/
theorem slotsFrom_val (i : Fin 8) :
    slotsFrom i.val = i :: (List.range' 1 7).map fun k => Fin.ofNat 8 (k + i.val) := by
  revert i
  decide

section Messages

variable {w : ChunkWriter} {r : ChunkReader (List RtmpMessage)} {i : Fin 8}

theorem Sync.only (h : Sync w r) (hlow : 2 ≤ i.val) (j : Fin 8)
    (hj : (r.packets j).header.cid = i.val) : j = i := by
  rcases h.inStreams j with hnew | ⟨hhas, -⟩
  · omega
  · exact Fin.ext (hhas.symm.trans hj)

/-- A chunk stream has the packet with its number. -/
theorem Sync.packetOf (h : Sync w r) (hlow : 2 ≤ i.val) {fmt : ChunkType}
    (hknown : fmt = .type2 ∨ fmt = .type3 → (r.packets i).header.cid = i.val) :
    packetOf r.packets fmt i.val = some i := by
  rcases h.inStreams i with hnew | ⟨hhas, -⟩
  · have hnone : packetFind r.packets i.val = none := by
      cases hfind : packetFind r.packets i.val with
      | none => rfl
      | some j =>
          have hj := packetFind_some hfind
          have hji := h.only hlow j hj
          subst hji
          omega
    have hcreate : packetCreate r.packets i.val = some i := by
      unfold packetCreate
      rw [slotsFrom_val]
      simp [hnew]
    unfold SeastarLive.packetOf
    rw [hnone]
    cases fmt with
    | type0 => exact hcreate
    | type1 => exact hcreate
    | type2 =>
        have hhas := hknown (.inl rfl)
        omega
    | type3 =>
        have hhas := hknown (.inr rfl)
        omega
  · exact packetOf_eq fmt hhas fun j hj => h.only hlow j hj

/-- The reader behind a message of the packet `i`. -/
def afterMessage (r : ChunkReader (List RtmpMessage)) (i : Fin 8) (z : ChunkHeader)
    (fmt : ChunkType) (inChunkSize : Nat) (payload : List UInt8) :
    ChunkReader (List RtmpMessage) :=
  received (headed r i z) i fmt inChunkSize payload

theorem packets_afterMessage (hidle : (r.packets i).payload = []) (z : ChunkHeader)
    (fmt : ChunkType) (size : Nat) (payload : List UInt8) :
    let t := afterMessage r i z fmt size payload
    (∀ j, j ≠ i → t.packets j = r.packets j)
      ∧ (t.packets i).header = { (r.packets i).header.afterChunk z with fmt }
      ∧ (t.packets i).payload = [] ∧ (t.packets i).clock = clockAfter (r.packets i).clock z
      ∧ t.app = r.app ++ [ChunkHeader.message { (r.packets i).header.afterChunk z with
          timestamp := clockAfter (r.packets i).clock z } payload] := by
  obtain ⟨hheader, -, hpayload, hclock, -⟩ :=
    headerPacket_begin hidle ((r.packets i).header.afterChunk z) z.timestamp
  have hclock' : (headerPacket (r.packets i) ((r.packets i).header.afterChunk z) z.timestamp).clock
      = clockAfter (r.packets i).clock z := by
    rw [hclock]
    unfold clockAfter
    simp only [(afterChunk_fmt _ z).1]
  refine ⟨?_, ?_, ?_, ?_, ?_⟩
  · intro j hj
    simp only [afterMessage, received, headed, Function.update_of_ne hj]
  · simp only [afterMessage, received, headed, Function.update_self, hheader]
  · simp only [afterMessage, received, headed, Function.update_self]
  · simp only [afterMessage, received, headed, Function.update_self, hclock']
  · simp only [afterMessage, received, headed, Function.update_self, hheader, hclock']

/-- A header that a reader in step takes on the packet `i`. -/
structure Takes (r : ChunkReader (List RtmpMessage)) (i : Fin 8) (z : ChunkHeader)
    (payload : List UInt8) : Prop where
  stream : 2 ≤ i.val ∧ i.val ≤ 6
  cid : z.cid = i.val
  known : z.fmt = .type2 ∨ z.fmt = .type3 → (r.packets i).header.cid = i.val
  idle : (r.packets i).payload = []
  nonempty : payload ≠ []
  length : ((r.packets i).header.afterChunk z).length = payload.length
  fits : z.length < 16777216 ∧ z.streamId < 4294967296 ∧ z.timestamp < 4294967296
  timestamp : ((r.packets i).header.afterChunk z).timestamp = min z.timestamp extendedTimestampMark
  repeated : z.fmt = .type3 → z.timestamp < extendedTimestampMark

/-- A reader in step on the chunks of a message. -/
theorem Sync.read (h : Sync w r) {z : ChunkHeader} {payload : List UInt8} (hz : Takes r i z payload)
    {size : Nat} (hafter : chunkSizeAfter ((r.packets i).header.afterChunk z).type payload
      w.outChunkSize = .ok size) :
    ∃ fmt, chunkRead recordHandler r (chunkBytes (chunkWriteLoop w.outChunkSize (nextHeaderBytes z)
        payload.length (firstHeaderBytes z) payload))
      = .ok (afterMessage r i z fmt size payload) := by
  have hsize := h.chunkSize_le
  have hstream := hz.stream
  have hreads : Reads r i z payload :=
    { state := h.state
      size := by
        rw [h.chunkSize]
        omega
      cid := by
        rw [hz.cid, validCid]
        omega
      packet := hz.cid ▸ h.packetOf hstream.1 hz.known
      only := fun j hj => h.only hstream.1 j (hj.trans hz.cid)
      idle := hz.idle
      nonempty := hz.nonempty
      length := hz.length
      fits := hz.fits
      timestamp := hz.timestamp
      repeated := hz.repeated }
  rw [← h.chunkSize] at hafter ⊢
  obtain ⟨fmt, hread⟩ := chunkRead_message hreads hafter []
  rw [List.append_nil] at hread
  exact ⟨fmt, hread⟩

/-- The reader is in step again with a writer that keeps the header. -/
theorem Sync.afterMessage (h : Sync w r) {z : ChunkHeader} {payload : List UInt8}
    (hz : Takes r i z payload) (fmt : ChunkType) {size : Nat} (hsize : 64 ≤ size)
    {packets : Fin 8 → OutPacket}
    (hstreams : ∀ j, (packets j).header.cid = (w.packets j).header.cid)
    (hothers : ∀ j, j ≠ i → packets j = w.packets j)
    (hsame : 3 ≤ i.val → (packets i).header = z
      ∧ ((r.packets i).header.afterChunk z).length = z.length
      ∧ ((r.packets i).header.afterChunk z).type = z.type
      ∧ ((r.packets i).header.afterChunk z).streamId = z.streamId
      ∧ (packets i).clock = clockAfter (r.packets i).clock z ∧ (packets i).clock < 4294967296) :
    Sync { outChunkSize := size, packets } (afterMessage r i z fmt size payload) := by
  obtain ⟨hrest, hheader, hpayload, hclock, -⟩ := packets_afterMessage hz.idle z fmt size payload
  have hcid : ((SeastarLive.afterMessage r i z fmt size payload).packets i).header.cid = i.val := by
    rw [hheader]
    exact (afterChunk_fmt _ z).2.trans hz.cid
  refine ⟨rfl, rfl, hsize, ?_, ?_, ?_, ?_⟩
  · intro j
    rw [hstreams]
    exact h.outStreams j
  · intro j
    by_cases hj : j = i
    · subst hj
      exact .inr ⟨hcid, hz.stream⟩
    · rw [hrest j hj]
      exact h.inStreams j
  · by_cases hi : i = 2
    · rw [← hi]
      exact hpayload
    · rw [hrest 2 (Ne.symm hi)]
      exact h.control
  · intro j hlow hhigh
    by_cases hj : j = i
    · subst hj
      obtain ⟨hz', hlength, htype, hstreamId, hclock', hlt⟩ := hsame hlow
      refine ⟨.inl ?_, hpayload, hclock.trans hclock'.symm, hlt, ?_, ?_, ?_, ?_⟩
      · rw [hcid, hz', hz.cid]
      · rw [hheader, hz']
        exact hz.timestamp
      · rw [hheader, hz']
        exact hlength
      · rw [hheader, hz']
        exact htype
      · rw [hheader, hz']
        exact hstreamId
    · rw [hrest j hj]
      simp only [hothers j hj]
      exact h.media j hlow hhigh

end Messages

/-! ## The codec is lawful -/

theorem Sync.withApp {σ τ : Type} {w : ChunkWriter} {r : ChunkReader σ} (h : Sync w r) (app : τ) :
    Sync w (r.withApp app) :=
  ⟨h.state, h.chunkSize, h.chunkSize_le, h.outStreams, h.inStreams, h.control, h.media⟩

/-- What a reader in step makes of a message. -/
def ReadsMessage (r : ChunkReader Unit) (out : ChunkWriter × List UInt8)
    (m : RtmpMessage) : Prop :=
  ∃ t, readMessages r out.2 = .ok (t, [m]) ∧ Sync out.1 t

theorem readsMessage_of {w' : ChunkWriter} {r : ChunkReader Unit} {bytes : List UInt8}
    {m : RtmpMessage} {t : ChunkReader (List RtmpMessage)}
    (hread : chunkRead recordHandler (r.withApp []) bytes = .ok t) (happ : t.app = [m])
    (hsync : Sync w' t) : ReadsMessage r (w', bytes) m := by
  refine ⟨t.withApp (), ?_, hsync.withApp ()⟩
  simp only [readMessages, hread, Except.map, happ]

theorem chunkSizeAfter_other {type : UInt8} (htype : type ≠ MessageType.setChunkSize.code)
    (payload : List UInt8) (size : Nat) : chunkSizeAfter type payload size = .ok size :=
  if_neg htype

/-- A message of `rtmp_chunk_write`. -/
theorem Sync.chunked {w : ChunkWriter} {r : ChunkReader Unit} (h : Sync w r) (compact : Bool)
    {m : RtmpMessage} (hm : m.Fits) :
    ReadsMessage r (writeMessage w (.chunked compact m)) m := by
  obtain ⟨hlow, hhigh⟩ := hm.cid
  obtain ⟨i, hi⟩ : ∃ i : Fin 8, i.val = m.cid := ⟨⟨m.cid, by omega⟩, rfl⟩
  rw [← hi] at hlow hhigh
  have hpacket := h.media i hlow hhigh
  have hlength := hm.length
  have hout : (w.packets i).header.cid = i.val := by
    rw [h.outStreams]
    exact if_pos ⟨by omega, hhigh⟩
  have hfind : ChunkWriter.packetFind w.packets m.cid = some i := by
    unfold ChunkWriter.packetFind
    rw [← hi, slotsFrom_val]
    simp [hout]
  obtain ⟨htimestamp, hlen, htype, hstreamId, hclock, hlt, hrepeated, hknown⟩ :=
    hpacket.zipHeader (show (m.header compact).type ≠ 0 from hm.type) hm.timestamp
  generalize hz : ChunkWriter.zipHeader (w.packets i) (m.header compact) = z at *
  have hfields : z.cid = m.cid ∧ z.length = m.payload.length ∧ z.type = m.type
      ∧ z.streamId = m.streamId := by
    rw [← hz]
    unfold ChunkWriter.zipHeader
    split <;> exact ⟨rfl, rfl, rfl, rfl⟩
  obtain ⟨hzcid, hzlength, hztype, hzstream⟩ := hfields
  have htakes : Takes (r.withApp []) i z m.payload :=
    { stream := ⟨by omega, hhigh⟩
      cid := hzcid.trans hi.symm
      known := fun hfmt => (hknown hfmt).trans hout
      idle := hpacket.idle
      nonempty := hm.payload
      length := hlen
      fits := ⟨by omega, hzstream ▸ hm.streamId, hlt⟩
      timestamp := htimestamp
      repeated := hrepeated }
  have hafter : chunkSizeAfter (((r.withApp ([] : List RtmpMessage)).packets i).header.afterChunk
      z).type m.payload w.outChunkSize = .ok w.outChunkSize := by
    refine chunkSizeAfter_other ?_ _ _
    rw [htype]
    exact hm.notChunkSize
  obtain ⟨fmt, hread⟩ := (h.withApp []).read htakes hafter
  let packets := Function.update w.packets i { header := z, clock := m.timestamp }
  have hwrite : writeMessage w (.chunked compact m)
      = ({ w with packets }, chunkBytes (chunkWriteLoop w.outChunkSize (nextHeaderBytes z)
          m.payload.length (firstHeaderBytes z) m.payload)) := by
    have hzip : w.zip (m.header compact) = some (z, { w with packets }) := by
      simp only [ChunkWriter.zip, show (m.header compact).cid = m.cid from rfl, hfind, hz]
      rfl
    have hshort : ¬ 0xFFFFFF ≤ z.length := by omega
    simp only [writeMessage, chunkWrite, hzip, if_neg hshort, Option.getD_some]
  rw [hwrite]
  obtain ⟨-, -, -, -, happ⟩ := packets_afterMessage (r := r.withApp []) hpacket.idle z fmt
    w.outChunkSize m.payload
  have hcid : ((r.packets i).header.afterChunk z).cid = m.cid :=
    (afterChunk_fmt _ z).2.trans hzcid
  refine readsMessage_of hread ?_ ?_
  · rw [happ]
    simp only [ChunkHeader.message, List.nil_append, hcid, htype, hstreamId, hclock]
    rfl
  · refine (h.withApp []).afterMessage htakes fmt h.chunkSize_le ?_ ?_ ?_
    · intro j
      by_cases hj : j = i
      · subst hj
        simp only [packets, Function.update_self, hzcid, hout, hi]
      · simp only [packets, Function.update_of_ne hj]
    · intro j hj
      exact Function.update_of_ne hj ..
    · intro _
      simp only [packets, Function.update_self, hlen, hzlength, htype, hztype, hstreamId, hzstream,
        hclock]
      exact ⟨trivial, rfl, rfl, rfl, rfl, hm.timestamp⟩

/-- The header of a message on chunk stream 2, as `rtmp_chunk_write` would have it. -/
def controlChunkHeader (type : MessageType) (length : Nat) : ChunkHeader :=
  { cid := 2, length, type := type.code }

/-- A message that passes the writer by is one chunk. -/
theorem controlMessage_eq (type : MessageType) {payload : List UInt8} (hpayload : payload ≠ [])
    {size : Nat} (hsize : payload.length ≤ size) :
    controlMessage type payload
      = chunkBytes (chunkWriteLoop size (nextHeaderBytes (controlChunkHeader type payload.length))
          payload.length (firstHeaderBytes (controlChunkHeader type payload.length)) payload) := by
  have hheader : firstHeaderBytes (controlChunkHeader type payload.length)
      = controlMessageHeader type payload.length := by
    have hbytes : (ByteMemory.leBytes 4 0 : List UInt8) = [0, 0, 0, 0] := by decide
    simp only [firstHeaderBytes, controlChunkHeader, chunkMessageHeaderWrite, hbytes]
    rw [show extendedTimestampBytes { cid := 2, length := payload.length, type := type.code } = []
      from rfl, List.append_nil]
    simp only [controlMessageHeader, List.append_assoc]
    rfl
  obtain ⟨n, hn⟩ := Nat.exists_eq_add_of_lt (List.length_pos_iff.mpr hpayload)
  rw [hheader, show payload.length = n + 1 by omega]
  simp only [chunkWriteLoop, if_neg hpayload, List.take_of_length_le hsize,
    List.drop_of_length_le hsize, chunkWriteLoop_nil, chunkBytes_cons, chunkBytes_nil,
    List.append_nil, controlMessage]
  rw [show payload.length = n + 1 by omega]

/-- A message that passes the writer by is read by a reader in step. -/
theorem Sync.controlMessage {w : ChunkWriter} {r : ChunkReader Unit} (h : Sync w r)
    {type : MessageType}
    {payload : List UInt8} (hpayload : payload ≠ []) (hlength : payload.length ≤ 64) {size : Nat}
    (hsize : 64 ≤ size) (hafter : chunkSizeAfter type.code payload w.outChunkSize = .ok size) :
    ReadsMessage r ({ w with outChunkSize := size }, controlMessage type payload)
      (controlMeaning type payload) := by
  have htakes : Takes (r.withApp []) 2 (controlChunkHeader type payload.length) payload :=
    { stream := ⟨Nat.le_refl 2, by decide⟩
      cid := rfl
      known := fun hfmt => by rcases hfmt with hfmt | hfmt <;> cases hfmt
      idle := h.control
      nonempty := hpayload
      length := rfl
      fits := ⟨show payload.length < 16777216 by omega, Nat.zero_lt_succ _, Nat.zero_lt_succ _⟩
      timestamp := rfl
      repeated := fun hfmt => nomatch hfmt }
  obtain ⟨fmt, hread⟩ := (h.withApp []).read htakes hafter
  rw [← controlMessage_eq type hpayload (hlength.trans h.chunkSize_le)] at hread
  obtain ⟨-, -, -, -, happ⟩ :=
    packets_afterMessage (r := r.withApp []) h.control (controlChunkHeader type payload.length) fmt
      size payload
  refine readsMessage_of hread happ ?_
  exact (h.withApp []).afterMessage htakes fmt hsize (fun _ => rfl) (fun _ _ => rfl)
    fun hi => absurd hi (by decide)

/-- The chunk size that is written is the one that is read. -/
theorem readChunkSize_write {size : Nat} (hlow : 64 ≤ size) (hhigh : size ≤ 0x800000) :
    readChunkSize (setChunkSizePayload size) = some size := by
  have hlength : (setChunkSizePayload size).length = 4 := length_beBytes ..
  have hvalue : beValue ((setChunkSizePayload size).take 4) = size := by
    rw [List.take_of_length_le (Nat.le_of_eq hlength), setChunkSizePayload, beValue_beBytes]
    omega
  simp only [readChunkSize, hlength, hvalue]
  rw [if_pos (Nat.le_refl 4), if_neg (by omega)]

/-- A reader that has collected other messages before. -/
abbrev ChunkReader.behind (before : List RtmpMessage) (r : ChunkReader (List RtmpMessage)) :
    ChunkReader (List RtmpMessage) := r.withApp (before ++ r.app)

theorem readHeader_map {σ : Type} (f : ChunkReader σ → ChunkReader σ) (size : Nat)
    (more data : List UInt8) (wait : List UInt8 → ChunkReader σ)
    (complete : List UInt8 → List UInt8 → ChunkReader σ × List UInt8 × List UInt8) :
    readHeader size more data (fun more => f (wait more))
        (fun more rest => (f (complete more rest).1, (complete more rest).2))
      = (readHeader size more data wait complete).map fun out => (f out.1, out.2) := by
  unfold readHeader
  simp only
  split
  · rfl
  · split <;> rfl

/-- What was collected before does not matter to a turn. -/
theorem turn_behind (before : List RtmpMessage) (r : ChunkReader (List RtmpMessage))
    (data : List UInt8) :
    turn recordHandler (r.behind before) data
      = (turn recordHandler r data).map fun out => (out.1.behind before, out.2) := by
  unfold turn
  cases r.parser <;> simp only
  case init => cases data <;> rfl
  case basicHeader first more =>
    exact readHeader_map (ChunkReader.behind before) _ more data
      (fun more => { r with parser := .basicHeader first more })
      (fun more rest => ({ r with parser := .messageHeader first more }, [], rest))
  case messageHeader first more =>
    exact readHeader_map (ChunkReader.behind before) _ more data
      (fun more => { r with parser := .messageHeader first more })
      (fun more rest =>
        let out := packetParse r.packets (first :: more)
        ({ r with packets := out.2, parser := .extendedTimestamp first more out.1 }, [], rest))
  case extendedTimestamp first more pkt =>
    unfold turnExtendedTimestamp
    cases pkt with
    | none => rfl
    | some i =>
        simp only
        split
        · rfl
        · exact readHeader_map (ChunkReader.behind before) _ more data
            (fun more => { r with parser := .extendedTimestamp first more (some i) })
            (r.timestampTurn first · i)
  case payload i =>
    unfold turnPayload
    simp only
    split
    · rfl
    split
    · rfl
    split
    · unfold recordHandler
      cases chunkSizeAfter (r.packets i).header.type _ r.inChunkSize with
      | error e => rfl
      | ok size => simp only [Except.map, List.append_assoc]
    · split
      · rfl
      · split <;> rfl

theorem readMessages_append (r : ChunkReader Unit) (front back : List UInt8) :
    readMessages r (front ++ back)
      = readMessages r front >>= fun out => readMessages out.1 back >>= fun out' =>
          .ok (out'.1, out.2 ++ out'.2) := by
  unfold readMessages
  rw [chunkRead_append]
  cases chunkRead recordHandler (r.withApp []) front with
  | error e => rfl
  | ok t =>
      have hbehind : t = (t.withApp []).behind t.app := by
        simp only [ChunkReader.behind, List.append_nil]
      have hback : chunkRead recordHandler t back
          = (chunkRead recordHandler (t.withApp []) back).map (ChunkReader.behind t.app) := by
        conv_lhs => rw [hbehind]
        exact Feeder.feed_map (feeder_lawful recordHandler) (turn_behind t.app) _ _
      simp only [ok_bind, Except.map, hback]
      cases chunkRead recordHandler (t.withApp []) back <;> rfl

/-- The writer of one side and the reader of the other. -/
theorem chunkCodec_lawful : chunkCodec.Lawful OutMessage.Fits Sync where
  read_nil _ := rfl
  read_append := readMessages_append
  read_write w r m hsync hm := by
    suffices h : ReadsMessage r (writeMessage w m) m.meaning by
      obtain ⟨t, hread, ht⟩ := h
      exact ⟨t, hread, ht⟩
    cases m with
    | chunked compact m => exact hsync.chunked compact hm
    | control type payload =>
        obtain ⟨htype, hpayload, hlength⟩ := hm
        have hcode : type.code ≠ MessageType.setChunkSize.code := by
          cases type <;> first | exact absurd rfl htype | decide
        exact hsync.controlMessage hpayload hlength hsync.chunkSize_le
          (chunkSizeAfter_other hcode ..)
    | chunkSize size =>
        obtain ⟨hlow, hhigh⟩ := hm
        have hlength : (setChunkSizePayload size).length = 4 := length_beBytes ..
        refine hsync.controlMessage (by
          intro hnil
          rw [hnil] at hlength
          cases hlength) (by omega) hlow ?_
        simp only [chunkSizeAfter, if_true, readChunkSize_write hlow hhigh]

/-! ## Two sides -/

/-- Two connected sides. Both send, at any time, whatever `rtmp_chunk_write` and the functions of
    the control messages take; the bytes arrive in pieces of any length. -/
def chunkChannel :
    Machine (Wired (Mail OutMessage RtmpMessage) ChunkWriter (ChunkReader Unit) UInt8)
      (WiredStep OutMessage) (ChunkFailure ⊕ Empty) :=
  wired (mailing RtmpMessage OutMessage.Fits) chunkCodec {} { app := () }

instance (s : Wired (Mail OutMessage RtmpMessage) ChunkWriter (ChunkReader Unit) UInt8)
    (a : WiredStep OutMessage) : Decidable (chunkChannel.enabled s a) :=
  inferInstanceAs (Decidable ((wired _ _ _ _).enabled s a))

/-- Audio, smaller chunks, audio with an extended timestamp, and video of two chunks. -/
def mixedMessages : List OutMessage :=
  [.chunked true { cid := 5, timestamp := 7, type := 8, streamId := 1, payload := [9] },
    .chunkSize 64,
    .chunked true { cid := 5, timestamp := 0x1000010, type := 8, streamId := 1, payload := [9] },
    .chunked true
      { cid := 6, timestamp := 40, type := 9, streamId := 1, payload := List.replicate 100 7 }]

/-- The messages of one side, in front of the handler of the other: how their bytes arrive does
    not matter, and the handler is given one message after the other. -/
theorem feedAll_writeAll {α : Type} (cb : RtmpCallbacks α) (s : RtmpState α) {ms : List OutMessage}
    (hms : ∀ m ∈ ms, m.Fits) {pieces : List (List UInt8)}
    (hpieces : pieces.flatten = (chunkCodec.writeAll {} ms).2) :
    ∃ r : ChunkReader Unit, (feeder cb.rtmpHandler).feedAll { app := s } pieces
      = replay cb s (ms.map OutMessage.meaning) fun t => r.withApp t := by
  obtain ⟨t, hread, -⟩ := read_writeAll chunkCodec_lawful sync_new hms
  rw [Feeder.feedAll_eq (feeder_lawful _), hpieces]
  change (chunkRead recordHandler { app := [] } _).map _ = _ at hread
  cases hrecord : chunkRead recordHandler { app := [] } (chunkCodec.writeAll {} ms).2 with
  | error e =>
      rw [hrecord] at hread
      cases hread
  | ok u =>
      rw [hrecord] at hread
      obtain ⟨messages, happ, hrun⟩ := chunkRead_record cb s hrecord
      refine ⟨u.withApp (), hrun.trans ?_⟩
      have hmessages : messages = ms.map OutMessage.meaning := by
        rw [List.nil_append] at happ
        rw [← happ]
        exact (Prod.mk.inj (Except.ok.inj hread)).2
      rw [hmessages]

/-- The audio and the video of `mixedMessages`, in three pieces. -/
theorem feedAll_writeAll_mixed :
    let bytes := (chunkCodec.writeAll {} mixedMessages).2
    let s : RtmpState (List (List UInt8 × Nat)) :=
      { control := { windowSize := 0, peerBandwidth := 0 }, app := [] }
    ∃ r : ChunkReader Unit,
      (feeder keepMedia.rtmpHandler).feedAll { app := s }
          [bytes.take 5, (bytes.drop 5).take 100, bytes.drop 105]
        = .ok (r.withApp
            { s with app := [([9], 7), ([9], 0x1000010), (List.replicate 100 7, 40)] }) := by
  intro bytes s
  have hms : ∀ out ∈ mixedMessages, out.Fits := by decide
  have hpieces : [bytes.take 5, (bytes.drop 5).take 100, bytes.drop 105].flatten = bytes := by
    decide +kernel
  exact feedAll_writeAll keepMedia s hms hpieces

end SeastarLive
