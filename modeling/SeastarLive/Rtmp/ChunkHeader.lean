/-
SeastarLive.Rtmp.ChunkHeader — the headers of a chunk.

`3rd/librtmp/source/rtmp-chunk-header.c`: the basic header of one to three bytes, the message
header, which leaves out what has not changed since the chunk before, and the extended
timestamp. A buffer is a list of bytes.

* `chunkBasicHeaderRead_write`, `chunkMessageHeaderRead_write`: a header that fits is read back,
  and what was left out of it is kept from the header before.
-/
import SeastarLive.Lib.Endian

namespace SeastarLive

open ByteMemory

/-! ## Headers -/

/-- `rtmp_chunk_type_t`. -/
inductive ChunkType
  | type0
  | type1
  | type2
  | type3
deriving DecidableEq

namespace ChunkType

def code : ChunkType → Nat
  | .type0 => 0
  | .type1 => 1
  | .type2 => 2
  | .type3 => 3

/-- The two high bits of a byte. -/
def ofByte (b : UInt8) : ChunkType :=
  match b.toNat / 64 with
  | 0 => .type0
  | 1 => .type1
  | 2 => .type2
  | _ => .type3

/-- `s_header_size`. -/
def headerSize : ChunkType → Nat
  | .type0 => 11
  | .type1 => 7
  | .type2 => 3
  | .type3 => 0

end ChunkType

/-- `rtmp_chunk_header_t`. -/
structure ChunkHeader where
  fmt : ChunkType := .type0
  cid : Nat := 0
  /-- a timestamp or a difference of timestamps -/
  timestamp : Nat := 0
  length : Nat := 0
  type : UInt8 := 0
  streamId : Nat := 0
deriving DecidableEq

/-- The value from which on a timestamp is extended. -/
def extendedTimestampMark : Nat := 0xFFFFFF

/-! ## Reading -/

/-- The number of bytes of the basic header that starts with this byte. -/
def basicHeaderBytes (b : UInt8) : Nat :=
  if b.toNat % 64 = 0 then 2 else if b.toNat % 64 = 1 then 3 else 1

/-- `rtmp_chunk_basic_header_read`: the type and the chunk stream. -/
def chunkBasicHeaderRead (data : List UInt8) : ChunkType × Nat :=
  let first := data.getD 0 0
  let second := (data.getD 1 0).toNat
  let third := (data.getD 2 0).toNat
  let cid :=
    if first.toNat % 64 = 0 then 64 + second
    else if first.toNat % 64 = 1 then 64 + second + third * 256
    else first.toNat % 64
  (.ofByte first, cid)

/-- `rtmp_chunk_message_header_read`, into a header whose type is set. -/
def chunkMessageHeaderRead (data : List UInt8) (header : ChunkHeader) : ChunkHeader :=
  let timestamp := beValue (data.take 3)
  let length := beValue ((data.drop 3).take 3)
  let type := data.getD 6 0
  let streamId := leValue ((data.drop 7).take 4)
  match header.fmt with
  | .type0 => { header with timestamp, length, type, streamId }
  | .type1 => { header with timestamp, length, type }
  | .type2 => { header with timestamp }
  | .type3 => header

/-- `rtmp_chunk_extended_timestamp_read`. -/
def chunkExtendedTimestampRead (data : List UInt8) : Nat := beValue (data.take 4)

/-! ## Writing -/

/-- `rtmp_chunk_basic_header_write`. -/
def chunkBasicHeaderWrite (fmt : ChunkType) (id : Nat) : List UInt8 :=
  if 64 + 256 ≤ id then
    [UInt8.ofNat (fmt.code * 64 + 1), UInt8.ofNat (id - 64), UInt8.ofNat ((id - 64) / 256)]
  else if 64 ≤ id then [UInt8.ofNat (fmt.code * 64), UInt8.ofNat (id - 64)]
  else [UInt8.ofNat (fmt.code * 64 + id)]

/-- `rtmp_chunk_message_header_write`. -/
def chunkMessageHeaderWrite (header : ChunkHeader) : List UInt8 :=
  let timestamp := beBytes 3 (min header.timestamp extendedTimestampMark)
  match header.fmt with
  | .type0 =>
      timestamp ++ beBytes 3 header.length ++ [header.type] ++ leBytes 4 header.streamId
  | .type1 => timestamp ++ beBytes 3 header.length ++ [header.type]
  | .type2 => timestamp
  | .type3 => []

/-- `rtmp_chunk_extended_timestamp_write`. -/
def chunkExtendedTimestampWrite (timestamp : Nat) : List UInt8 := beBytes 4 timestamp

/-! ## Headers that are read back -/

/-- The chunk streams of the protocol. -/
def validCid (cid : Nat) : Prop := 2 ≤ cid ∧ cid ≤ 65535 + 64

theorem ChunkType.ofByte_ofNat (fmt : ChunkType) {low : Nat} (hlow : low < 64) :
    ChunkType.ofByte (UInt8.ofNat (fmt.code * 64 + low)) = fmt := by
  have hcode : fmt.code < 4 := by cases fmt <;> decide
  have hbyte : (UInt8.ofNat (fmt.code * 64 + low)).toNat = fmt.code * 64 + low :=
    toNat_byte (by omega)
  have hdiv : (fmt.code * 64 + low) / 64 = fmt.code := by omega
  unfold ChunkType.ofByte
  rw [hbyte, hdiv]
  cases fmt <;> rfl

/-- The first byte of a basic header. -/
theorem basicHeader_first (fmt : ChunkType) {low : Nat} (hlow : low < 64) :
    (UInt8.ofNat (fmt.code * 64 + low)).toNat % 64 = low := by
  have hcode : fmt.code < 4 := by cases fmt <;> decide
  rw [toNat_byte (by omega)]
  omega

/-- A basic header is as long as its first byte says, and is read back. -/
theorem chunkBasicHeaderRead_write (fmt : ChunkType) {cid : Nat} (hcid : validCid cid)
    (rest : List UInt8) :
    let bytes := chunkBasicHeaderWrite fmt cid
    bytes.length = basicHeaderBytes (bytes.getD 0 0)
      ∧ ChunkType.ofByte (bytes.getD 0 0) = fmt
      ∧ chunkBasicHeaderRead (bytes ++ rest) = (fmt, cid) := by
  obtain ⟨hlow, hhigh⟩ := hcid
  unfold chunkBasicHeaderWrite
  split
  · -- three bytes
    have hfirst := basicHeader_first fmt (show 1 < 64 by decide)
    have hfmt := fmt.ofByte_ofNat (show 1 < 64 by decide)
    have hsecond : (UInt8.ofNat (cid - 64)).toNat = (cid - 64) % 256 := UInt8.toNat_ofNat'
    have hthird : (UInt8.ofNat ((cid - 64) / 256)).toNat = (cid - 64) / 256 :=
      toNat_byte (by omega)
    have hsum : 64 + (cid - 64) % 256 + (cid - 64) / 256 * 256 = cid := by omega
    generalize UInt8.ofNat (fmt.code * 64 + 1) = first at *
    simp [basicHeaderBytes, chunkBasicHeaderRead, hfirst, hfmt, hsecond, hthird, hsum]
  · split
    · -- two bytes
      have hfirst := basicHeader_first fmt (show 0 < 64 by decide)
      have hfmt := fmt.ofByte_ofNat (show 0 < 64 by decide)
      rw [Nat.add_zero] at hfirst hfmt
      have hsecond : (UInt8.ofNat (cid - 64)).toNat = cid - 64 := toNat_byte (by omega)
      have hsum : 64 + (cid - 64) = cid := by omega
      generalize UInt8.ofNat (fmt.code * 64) = first at *
      simp [basicHeaderBytes, chunkBasicHeaderRead, hfirst, hfmt, hsecond, hsum]
    · -- one byte
      have hfirst := basicHeader_first fmt (show cid < 64 by omega)
      have hfmt := fmt.ofByte_ofNat (show cid < 64 by omega)
      have hzero : cid ≠ 0 := by omega
      have hone : cid ≠ 1 := by omega
      generalize UInt8.ofNat (fmt.code * 64 + cid) = first at *
      simp [basicHeaderBytes, chunkBasicHeaderRead, hfirst, hfmt, hzero, hone]

@[simp] theorem length_chunkMessageHeaderWrite (header : ChunkHeader) :
    (chunkMessageHeaderWrite header).length = header.fmt.headerSize := by
  unfold chunkMessageHeaderWrite
  cases header.fmt <;> simp [ChunkType.headerSize]

/-- What a header is after a chunk with the header `h`: its type and stream, and the fields
    that `h` writes. -/
def ChunkHeader.afterChunk (header h : ChunkHeader) : ChunkHeader :=
  let timestamp := min h.timestamp extendedTimestampMark
  match h.fmt with
  | .type0 => { h with timestamp }
  | .type1 => { h with timestamp, streamId := header.streamId }
  | .type2 => { header with fmt := h.fmt, cid := h.cid, timestamp }
  | .type3 => { header with fmt := h.fmt, cid := h.cid }

/-- A message header is read back. -/
theorem chunkMessageHeaderRead_write (header h : ChunkHeader) (hlength : h.length < 16777216)
    (hstream : h.streamId < 4294967296) (rest : List UInt8) :
    chunkMessageHeaderRead (chunkMessageHeaderWrite h ++ rest)
        { header with fmt := h.fmt, cid := h.cid } = header.afterChunk h := by
  have hmark : min h.timestamp extendedTimestampMark < 256 ^ 3 := by
    unfold extendedTimestampMark
    omega
  have hlength' : h.length < 256 ^ 3 := hlength
  have hstream' : h.streamId < 256 ^ 4 := hstream
  unfold chunkMessageHeaderRead chunkMessageHeaderWrite ChunkHeader.afterChunk
  cases hfmt : h.fmt with
  | type3 => rfl
  | type2 => simp only [beValue_take_beBytes hmark]
  | type1 =>
      simp only [List.append_assoc, beValue_take_beBytes hmark,
        List.drop_left' (length_beBytes 3 _), beValue_take_beBytes hlength']
      simp [List.getElem?_append_right]
  | type0 =>
      have htype : (beBytes 3 (min h.timestamp extendedTimestampMark)
          ++ (beBytes 3 h.length ++ ([h.type] ++ (leBytes 4 h.streamId ++ rest)))).getD 6 0
          = h.type := by
        simp [List.getElem?_append_right]
      have hdrop : (beBytes 3 (min h.timestamp extendedTimestampMark)
          ++ (beBytes 3 h.length ++ ([h.type] ++ (leBytes 4 h.streamId ++ rest)))).drop 7
          = leBytes 4 h.streamId ++ rest := by
        rw [← List.append_assoc, ← List.append_assoc]
        exact List.drop_left' (by simp)
      simp only [List.append_assoc, beValue_take_beBytes hmark, htype, hdrop,
        List.drop_left' (length_beBytes 3 _), beValue_take_beBytes hlength',
        leValue_take_leBytes hstream']

end SeastarLive
