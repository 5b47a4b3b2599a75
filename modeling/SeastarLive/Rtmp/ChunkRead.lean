/-
SeastarLive.Rtmp.ChunkRead — the reader of the chunk stream.

`rtmp_chunk_read` of `3rd/librtmp/source/rtmp-chunk-read.c`. Every chunk stream has a packet
that collects the payload of its message; the parser goes from header to header and keeps
its state between two calls. A message that is complete goes to the handler, which may change
the chunk size.

The parser's buffer is its first byte and those behind it, so there is no state in which a
header without its first byte is read, and none that waits for the payload of no packet. The
bytes of a packet are its payload. `realloc` grants the memory of a packet. As in the
Release build, the default, assertions are not compiled in.

* `feeder_lawful`: every turn of the loop lowers a measure, and may be cut anywhere.
* `chunkRead_append`: how the bytes arrive does not matter.
-/
import SeastarLive.Lib.Feeding
import SeastarLive.Rtmp.ChunkHeader
import Mathlib.Logic.Function.Basic

namespace SeastarLive

/-! ## The reader -/

/-- `rtmp_packet_t` of a chunk stream that is read; `payload` is the part received. -/
structure InPacket where
  header : ChunkHeader := {}
  /-- a timestamp or a difference of timestamps -/
  delta : Nat := 0
  /-- the timestamp -/
  clock : Nat := 0
  payload : List UInt8 := []
  capacity : Nat := 0
deriving DecidableEq

/-- `rtmp_parser_state_t` with the buffer of `rtmp_parser_t` and its packet. -/
inductive ParseState
  | init
  | basicHeader (first : UInt8) (more : List UInt8)
  | messageHeader (first : UInt8) (more : List UInt8)
  | extendedTimestamp (first : UInt8) (more : List UInt8) (pkt : Option (Fin 8))
  | payload (pkt : Fin 8)
deriving DecidableEq

/-- What `rtmp_t` keeps for its reader; `app` stands for the rest of it. -/
structure ChunkReader (σ : Type) where
  inChunkSize : Nat := 128
  packets : Fin 8 → InPacket := fun _ => {}
  parser : ParseState := .init
  app : σ

/-- The return values of the reader other than 0. -/
inductive ChunkFailure
  /-- `-ENOMEM`: no packet for a chunk stream -/
  | unknownStream
  /-- `-ENOMEM`: a message that does not fit its packet -/
  | badPacket
  /-- `-1` -/
  | invalid
  | divisionByZero
  /-- what the handler returned -/
  | handler (code : Int)
  | outOfFuel
deriving DecidableEq

/-- `rtmp_handler`: from a message, the chunk size and the rest of the state. -/
abbrev ChunkHandler (σ : Type) := ChunkHeader → List UInt8 → Nat → σ → Except Int (Nat × σ)

/-- The packets in the order in which they are searched for a chunk stream. -/
def slotsFrom (cid : Nat) : List (Fin 8) := (List.range 8).map fun i => Fin.ofNat 8 (i + cid)

/-- `rtmp_packet_find`. -/
def packetFind (packets : Fin 8 → InPacket) (cid : Nat) : Option (Fin 8) :=
  (slotsFrom cid).find? fun i => (packets i).header.cid == cid

/-- `rtmp_packet_create`. -/
def packetCreate (packets : Fin 8 → InPacket) (cid : Nat) : Option (Fin 8) :=
  (slotsFrom cid).find? fun i => (packets i).header.cid == 0

/-- The packet of a chunk: one that has its stream, or else a free one when the length of the
    message is known. -/
def packetOf (packets : Fin 8 → InPacket) (fmt : ChunkType) (cid : Nat) : Option (Fin 8) :=
  match packetFind packets cid with
  | some i => some i
  | none =>
      match fmt with
      | .type0 | .type1 => packetCreate packets cid
      | .type2 | .type3 => none

/-- `rtmp_packet_parse`. -/
def packetParse (packets : Fin 8 → InPacket) (buffer : List UInt8) :
    Option (Fin 8) × (Fin 8 → InPacket) :=
  let (fmt, cid) := chunkBasicHeaderRead buffer
  match packetOf packets fmt cid with
  | none => (none, packets)
  | some i =>
      let rest := buffer.drop (basicHeaderBytes (buffer.getD 0 0))
      let header := chunkMessageHeaderRead rest { (packets i).header with cid, fmt }
      (some i, Function.update packets i { packets i with header })

/-- `rtmp_packet_alloc`. -/
def InPacket.alloc (p : InPacket) : InPacket :=
  if p.capacity = 0 ∨ p.capacity < p.header.length then
    { p with capacity := p.header.length + 1024 }
  else p

/-- The clock and the memory of a message whose first chunk has this timestamp. -/
def InPacket.begin (p : InPacket) (timestamp : Nat) : InPacket :=
  let clock :=
    match p.header.fmt with
    | .type0 => timestamp
    | _ => (p.clock + timestamp) % 4294967296
  InPacket.alloc { p with delta := timestamp, clock }

/-- The bytes of a message header, with its basic header, that start with this byte. -/
def messageHeaderBytes (first : UInt8) : Nat :=
  (ChunkType.ofByte first).headerSize + basicHeaderBytes first

/-- The bytes of a header that starts with `first`, with its extended timestamp. -/
def extendedHeaderBytes (first : UInt8) (header : ChunkHeader) : Nat :=
  let size := header.fmt.headerSize + basicHeaderBytes first
  if header.timestamp = extendedTimestampMark then size + 4 else size

namespace ChunkReader

variable {σ : Type}

/-- A turn of the loop: the next state, the bytes that are read again, and the rest. -/
abbrev Turn (σ : Type) := Except ChunkFailure (ChunkReader σ × List UInt8 × List UInt8)

/-! ## The turns -/

/-- Take bytes behind those of a header until it has `size` of them. The header that is complete
    goes to `complete`, the other waits in `wait`. -/
def readHeader (size : Nat) (more data : List UInt8) (wait : List UInt8 → ChunkReader σ)
    (complete : List UInt8 → List UInt8 → ChunkReader σ × List UInt8 × List UInt8) : Turn σ :=
  if size < more.length + 1 then .error .invalid
  else
    let missing := size - (more.length + 1)
    let more := more ++ data.take missing
    let rest := data.drop missing
    if size ≤ more.length + 1 then .ok (complete more rest) else .ok (wait more, [], rest)

def turnBasicHeader (r : ChunkReader σ) (first : UInt8) (more data : List UInt8) : Turn σ :=
  readHeader (basicHeaderBytes first) more data
    (fun more => { r with parser := .basicHeader first more })
    (fun more rest => ({ r with parser := .messageHeader first more }, [], rest))

def turnMessageHeader (r : ChunkReader σ) (first : UInt8) (more data : List UInt8) : Turn σ :=
  readHeader (messageHeaderBytes first) more data
    (fun more => { r with parser := .messageHeader first more })
    (fun more rest =>
      let (pkt, packets) := packetParse r.packets (first :: more)
      ({ r with packets, parser := .extendedTimestamp first more pkt }, [], rest))

/-- With the header complete, the packet takes its timestamp. Where the extended timestamp of a
    chunk without a header is not the one before, its bytes are payload, and read again. -/
def timestampTurn (r : ChunkReader σ) (first : UInt8) (more : List UInt8) (i : Fin 8)
    (rest : List UInt8) : ChunkReader σ × List UInt8 × List UInt8 :=
  let p := r.packets i
  let bytes := ((first :: more).drop (messageHeaderBytes first)).take 4
  let timestamp :=
    if p.header.timestamp = extendedTimestampMark then chunkExtendedTimestampRead bytes
    else p.header.timestamp
  let again :=
    if p.header.timestamp = extendedTimestampMark ∧ p.header.fmt = .type3 ∧ timestamp ≠ p.delta
    then bytes else []
  let p := if p.payload = [] then p.begin timestamp else p
  ({ r with packets := Function.update r.packets i p, parser := .payload i }, again, rest)

def turnExtendedTimestamp (r : ChunkReader σ) (first : UInt8) (more : List UInt8)
    (pkt : Option (Fin 8)) (data : List UInt8) : Turn σ :=
  match pkt with
  | none => .error .unknownStream
  | some i =>
      let header := (r.packets i).header
      if extendedTimestampMark < header.timestamp then .error .invalid
      else
        readHeader (extendedHeaderBytes first header) more data
          (fun more => { r with parser := .extendedTimestamp first more (some i) })
          (r.timestampTurn first · i)

def turnPayload (handler : ChunkHandler σ) (r : ChunkReader σ) (i : Fin 8)
    (data : List UInt8) : Turn σ :=
  let p := r.packets i
  let bytes := p.payload.length
  if p.capacity = 0 ∨ p.capacity < bytes ∨ p.header.length < bytes
      ∨ p.capacity < p.header.length then .error .badPacket
  else if r.inChunkSize = 0 then .error .divisionByZero
  else
    let size := min (r.inChunkSize - bytes % r.inChunkSize) (p.header.length - bytes)
    let payload := p.payload ++ data.take size
    let rest := data.drop size
    if p.header.length ≤ payload.length then
      match handler { p.header with timestamp := p.clock } payload r.inChunkSize r.app with
      | .error code => .error (.handler code)
      | .ok (inChunkSize, app) =>
          let packets := Function.update r.packets i { p with payload := [] }
          .ok ({ inChunkSize, packets, parser := .init, app }, [], rest)
    else
      let packets := Function.update r.packets i { p with payload }
      if payload.length % r.inChunkSize = 0 then
        .ok ({ r with packets, parser := .init }, [], rest)
      else if rest = [] then .ok ({ r with packets, parser := .payload i }, [], [])
      else .error .invalid

/-- One turn of the loop of `rtmp_chunk_read`. -/
def turn (handler : ChunkHandler σ) (r : ChunkReader σ) (data : List UInt8) : Turn σ :=
  match r.parser with
  | .init =>
      match data with
      | [] => .ok (r, [], [])
      | first :: rest => .ok ({ r with parser := .basicHeader first [] }, [], rest)
  | .basicHeader first more => r.turnBasicHeader first more data
  | .messageHeader first more => r.turnMessageHeader first more data
  | .extendedTimestamp first more pkt => r.turnExtendedTimestamp first more pkt data
  | .payload i => r.turnPayload handler i data

/-- The bytes of a header in the buffer count less than those that are not read, and more than
    the four that are read again. -/
def rank (r : ChunkReader σ) : Nat :=
  match r.parser with
  | .init => 1
  | .basicHeader _ more => 20 * (more.length + 1) + 2
  | .messageHeader _ more => 20 * (more.length + 1) + 1
  | .extendedTimestamp _ more _ => 20 * (more.length + 1)
  | .payload _ => 2

def feeder (handler : ChunkHandler σ) : Feeder (ChunkReader σ) UInt8 ChunkFailure where
  turn := turn handler
  weight := 24
  rank := rank
  exhausted := .outOfFuel

/-! ## The loop ends, and may be cut anywhere -/

theorem basicHeaderBytes_pos (first : UInt8) : 0 < basicHeaderBytes first := by
  unfold basicHeaderBytes
  split
  · decide
  · split <;> decide

section Header

variable {size : Nat} {more data : List UInt8} {wait : List UInt8 → ChunkReader σ}
  {complete : List UInt8 → List UInt8 → ChunkReader σ × List UInt8 × List UInt8}

/-- What a turn makes of a header. -/
theorem readHeader_cases {out : ChunkReader σ × List UInt8 × List UInt8}
    (h : readHeader size more data wait complete = .ok out) :
    (∃ taken rest, data = taken ++ rest ∧ (more ++ taken).length + 1 = size
        ∧ out = complete (more ++ taken) rest)
      ∨ (more ++ data).length + 1 < size ∧ out = (wait (more ++ data), [], []) := by
  unfold readHeader at h
  simp only at h
  split at h
  · cases h
  · split at h
    · rename_i hcomplete
      cases h
      refine .inl ⟨data.take (size - (more.length + 1)), data.drop (size - (more.length + 1)),
        (List.take_append_drop _ _).symm, ?_, rfl⟩
      simp only [List.length_append, List.length_take] at hcomplete ⊢
      omega
    · rename_i hwait
      cases h
      simp only [List.length_append, List.length_take] at hwait
      refine .inr ⟨by simp only [List.length_append]; omega, ?_⟩
      rw [List.take_of_length_le (by omega), List.drop_of_length_le (by omega)]

theorem readHeader_error {e : ChunkFailure}
    (h : readHeader size more data wait complete = .error e) :
    size < more.length + 1 ∧ e = .invalid := by
  unfold readHeader at h
  simp only at h
  split at h
  · rename_i hsize
    cases h
    exact ⟨hsize, rfl⟩
  · split at h <;> cases h

/-- A header may be cut anywhere. -/
theorem readHeader_append (front back : List UInt8)
    (hcomplete : ∀ more rest back, complete more (rest ++ back)
      = ((complete more rest).1, (complete more rest).2.1, (complete more rest).2.2 ++ back)) :
    (readHeader size more (front ++ back) wait complete
        = (readHeader size more front wait complete).map fun out =>
            (out.1, out.2.1, out.2.2 ++ back))
      ∨ readHeader size more front wait complete = .ok (wait (more ++ front), [], [])
        ∧ readHeader size more (front ++ back) wait complete
            = readHeader size (more ++ front) back wait complete := by
  unfold readHeader
  simp only
  by_cases hsize : size < more.length + 1
  · left
    rw [if_pos hsize, if_pos hsize]
    rfl
  rw [if_neg hsize, if_neg hsize]
  rcases take_drop_append (size - (more.length + 1)) front back with
    ⟨hle, htake, hdrop⟩ | ⟨hlt, htake, hdrop, htake', hdrop'⟩
  · left
    rw [htake, hdrop, hcomplete]
    have hfull : size ≤ (more ++ front.take (size - (more.length + 1))).length + 1 := by
      simp only [List.length_append, List.length_take]
      omega
    rw [if_pos hfull, if_pos hfull]
    rfl
  · right
    rw [htake, hdrop, htake', hdrop']
    have hmissing : size - ((more ++ front).length + 1)
        = size - (more.length + 1) - front.length := by
      simp only [List.length_append]
      omega
    have hwait : ¬ size ≤ (more ++ front).length + 1 := by
      simp only [List.length_append]
      omega
    have hgood : ¬ size < (more ++ front).length + 1 := by omega
    rw [if_neg hwait, if_neg hgood, hmissing, List.append_assoc]
    exact ⟨rfl, rfl⟩

end Header

section Turns

variable {handler : ChunkHandler σ} {r t : ChunkReader σ} {data again rest : List UInt8}

theorem turnBasicHeader_lowers {first : UInt8} {more : List UInt8} (hdata : data ≠ [])
    (h : r.turnBasicHeader first more data = .ok (t, again, rest)) :
    24 * (again ++ rest).length + t.rank < 24 * data.length + (20 * (more.length + 1) + 2) := by
  have hpos : 0 < data.length := List.length_pos_iff.mpr hdata
  rcases readHeader_cases h with ⟨taken, rest', rfl, -, hout⟩ | ⟨-, hout⟩ <;> cases hout
  · simp only [rank, List.nil_append, List.length_append]
    omega
  · simp only [rank, List.nil_append, List.length_nil, List.length_append]
    omega

theorem turnMessageHeader_lowers {first : UInt8} {more : List UInt8} (hdata : data ≠ [])
    (h : r.turnMessageHeader first more data = .ok (t, again, rest)) :
    24 * (again ++ rest).length + t.rank < 24 * data.length + (20 * (more.length + 1) + 1) := by
  have hpos : 0 < data.length := List.length_pos_iff.mpr hdata
  rcases readHeader_cases h with ⟨taken, rest', rfl, -, hout⟩ | ⟨-, hout⟩ <;> cases hout
  · simp only [rank, List.nil_append, List.length_append]
    omega
  · simp only [rank, List.nil_append, List.length_nil, List.length_append]
    omega

/-- What is read again was in the buffer. -/
theorem length_timestampTurn (r : ChunkReader σ) (first : UInt8) (more : List UInt8) (i : Fin 8)
    (rest : List UInt8) :
    (r.timestampTurn first more i rest).2.1.length ≤ 4
      ∧ (r.timestampTurn first more i rest).2.1.length < more.length + 1 := by
  have hbasic := basicHeaderBytes_pos first
  have hite : ∀ (c : Prop) [Decidable c] (bytes : List UInt8),
      (if c then bytes else []).length ≤ bytes.length := by
    intro c _ bytes
    split <;> simp
  have hbytes : (((first :: more).drop (messageHeaderBytes first)).take 4).length
      = min 4 (more.length + 1 - messageHeaderBytes first) := by
    rw [List.length_take, List.length_drop, List.length_cons]
  simp only [timestampTurn]
  refine ⟨(hite _ _).trans ?_, (hite _ _).trans_lt ?_⟩ <;> rw [hbytes] <;>
    unfold messageHeaderBytes <;> omega

theorem turnExtendedTimestamp_lowers {first : UInt8} {more : List UInt8} {pkt : Option (Fin 8)}
    (hdata : data ≠ [])
    (h : r.turnExtendedTimestamp first more pkt data = .ok (t, again, rest)) :
    24 * (again ++ rest).length + t.rank < 24 * data.length + 20 * (more.length + 1) := by
  have hpos : 0 < data.length := List.length_pos_iff.mpr hdata
  cases pkt with
  | none => cases h
  | some i =>
      simp only [turnExtendedTimestamp] at h
      split at h
      · cases h
      · rcases readHeader_cases h with ⟨taken, rest', rfl, -, hout⟩ | ⟨-, hout⟩
        · -- at most four bytes are read again, and the buffer had one more
          obtain ⟨hfour, hbuffer⟩ := length_timestampTurn r first (more ++ taken) i rest'
          have hagain : again = (r.timestampTurn first (more ++ taken) i rest').2.1 :=
            congrArg (fun out => out.2.1) hout
          have hrest : rest = rest' := congrArg (fun out => out.2.2) hout
          have hrank : t.rank = 2 := congrArg (fun out => out.1.rank) hout
          rw [← hagain] at hfour hbuffer
          rw [hrest, hrank]
          simp only [List.length_append] at hbuffer ⊢
          omega
        · cases hout
          simp only [rank, List.nil_append, List.length_nil, List.length_append]
          omega

theorem turnPayload_lowers {i : Fin 8} (hdata : data ≠ [])
    (h : r.turnPayload handler i data = .ok (t, again, rest)) :
    24 * (again ++ rest).length + t.rank < 24 * data.length + 2 := by
  have hpos : 0 < data.length := List.length_pos_iff.mpr hdata
  unfold turnPayload at h
  simp only at h
  split at h
  · cases h
  · rename_i hfits
    split at h
    · cases h
    · rename_i hsize
      split at h
      · split at h <;> cases h
        simp only [rank, List.nil_append, List.length_drop]
        omega
      · rename_i hmore
        simp only [List.length_append, List.length_take] at hmore
        have hchunk := Nat.mod_lt (r.packets i).payload.length (Nat.pos_of_ne_zero hsize)
        split at h
        · cases h
          simp only [rank, List.nil_append, List.length_drop]
          omega
        · split at h
          · cases h
            simp only [rank, List.append_nil, List.length_nil]
            omega
          · cases h

theorem timestampTurn_append (r : ChunkReader σ) (first : UInt8) (more : List UInt8) (i : Fin 8)
    (rest back : List UInt8) :
    r.timestampTurn first more i (rest ++ back)
      = ((r.timestampTurn first more i rest).1, (r.timestampTurn first more i rest).2.1,
          (r.timestampTurn first more i rest).2.2 ++ back) := rfl

/-- The part of a chunk that comes next ends where the chunk does. -/
theorem chunk_ends (n : Nat) {size : Nat} (hsize : size ≠ 0) :
    (n + (size - n % size)) % size = 0 := by
  have hlt := Nat.mod_lt n (Nat.pos_of_ne_zero hsize)
  have hsplit := Nat.div_add_mod n size
  have hsum : n + (size - n % size) = size * (n / size + 1) := by
    rw [Nat.mul_add]
    omega
  rw [hsum, Nat.mul_mod_right]

/-- Inside a chunk the bytes of a payload count on from where the chunk starts. -/
theorem mod_inside {n k size : Nat} (hk : k < size - n % size) :
    (n + k) % size = n % size + k := by
  rw [← Nat.mod_add_mod, Nat.mod_eq_of_lt (by omega)]

/-- A payload may be cut anywhere. -/
theorem turnPayload_append {i : Fin 8} {front back : List UInt8} (hfront : front ≠ []) :
    (r.turnPayload handler i (front ++ back)
        = (r.turnPayload handler i front).map fun out => (out.1, out.2.1, out.2.2 ++ back))
      ∨ ∃ t : ChunkReader σ, t.parser = .payload i
        ∧ r.turnPayload handler i front = .ok (t, [], [])
        ∧ r.turnPayload handler i (front ++ back) = t.turnPayload handler i back := by
  have hpos : 0 < front.length := List.length_pos_iff.mpr hfront
  unfold turnPayload
  simp only
  split
  · exact .inl rfl
  rename_i hfits
  split
  · exact .inl rfl
  rename_i hsize
  generalize hroom : min (r.inChunkSize - (r.packets i).payload.length % r.inChunkSize)
    ((r.packets i).header.length - (r.packets i).payload.length) = room
  rcases take_drop_append room front back with
    ⟨hle, htake, hdrop⟩ | ⟨hlt, htake, hdrop, htake', hdrop'⟩
  · -- the chunk ends in the front piece
    left
    have hlength : ((r.packets i).payload ++ front.take room).length
        = (r.packets i).payload.length + room := by
      rw [List.length_append, List.length_take, Nat.min_eq_left hle]
    rw [htake, hdrop, hlength]
    split
    · split <;> rfl
    · rename_i hmore
      have hends := chunk_ends (r.packets i).payload.length hsize
      have hwhole : room = r.inChunkSize - (r.packets i).payload.length % r.inChunkSize := by omega
      rw [hwhole, if_pos hends, if_pos hends]
      rfl
  · -- the payload waits for the back piece
    right
    have hinside : ((r.packets i).payload.length + front.length) % r.inChunkSize
        = (r.packets i).payload.length % r.inChunkSize + front.length := mod_inside (by omega)
    let p := r.packets i
    refine ⟨{ r with
        packets := Function.update r.packets i { p with payload := p.payload ++ front }
        parser := .payload i }, rfl, ?_, ?_⟩
    · have hwaits : ((r.packets i).payload ++ front).length
          = (r.packets i).payload.length + front.length := List.length_append
      rw [htake, hdrop, hwaits, hinside, if_neg (by omega), if_neg (by omega), if_pos rfl]
    · simp only [Function.update_self, Function.update_idem, List.length_append, p]
      have hroom' : min (r.inChunkSize
            - ((r.packets i).payload.length + front.length) % r.inChunkSize)
          ((r.packets i).header.length - ((r.packets i).payload.length + front.length))
          = room - front.length := by
        rw [hinside]
        omega
      rw [if_neg (show ¬ ((r.packets i).capacity = 0
            ∨ (r.packets i).capacity < (r.packets i).payload.length + front.length
            ∨ (r.packets i).header.length < (r.packets i).payload.length + front.length
            ∨ (r.packets i).capacity < (r.packets i).header.length) by omega),
        if_neg hsize, hroom', htake', hdrop', List.append_assoc]
      simp only [List.length_append, Nat.add_assoc]

/-- Every turn lowers the measure of the loop, and may be cut anywhere. -/
theorem feeder_lawful (handler : ChunkHandler σ) : (feeder handler).Lawful where
  lowers := by
    intro r data t again rest hdata h
    have hpos : 0 < data.length := List.length_pos_iff.mpr hdata
    simp only [feeder, turn] at h
    simp only [Feeder.fuel, feeder]
    cases hparser : r.parser <;> rw [hparser] at h <;>
      simp only [rank, hparser]
    case init =>
      cases data with
      | nil => exact absurd rfl hdata
      | cons first data =>
          cases h
          simp only [List.nil_append, List.length_cons, List.length_nil]
          omega
    case basicHeader => exact turnBasicHeader_lowers hdata h
    case messageHeader => exact turnMessageHeader_lowers hdata h
    case extendedTimestamp => exact turnExtendedTimestamp_lowers hdata h
    case payload => exact turnPayload_lowers hdata h
  splits := by
    intro r front back hfront hback
    simp only [feeder, turn]
    cases hparser : r.parser with
    | init =>
        cases front with
        | nil => exact absurd rfl hfront
        | cons first front => exact .inl rfl
    | basicHeader first more =>
        exact Or.imp id (fun hwaits => ⟨_, hwaits⟩)
          (readHeader_append front back fun _ _ _ => rfl)
    | messageHeader first more =>
        exact Or.imp id (fun hwaits => ⟨_, hwaits⟩)
          (readHeader_append front back fun _ _ _ => rfl)
    | extendedTimestamp first more pkt =>
        simp only [turnExtendedTimestamp]
        cases pkt with
        | none => exact .inl rfl
        | some i =>
            simp only
            split
            · exact .inl rfl
            · rename_i hmark
              rcases readHeader_append front back
                (r.timestampTurn_append first · i) with hdone | ⟨hpart, hgoes⟩
              · exact .inl hdone
              · refine .inr ⟨_, hpart, ?_⟩
                rw [hgoes]
                exact (if_neg hmark).symm
    | payload i =>
        rcases turnPayload_append hfront with hdone | ⟨t, ht, hpart, hgoes⟩
        · exact .inl hdone
        · refine .inr ⟨t, hpart, ?_⟩
          simp only [ht]
          exact hgoes

end Turns

end ChunkReader

/-- `rtmp_chunk_read`. -/
def chunkRead {σ : Type} (handler : ChunkHandler σ) (r : ChunkReader σ) (data : List UInt8) :
    Except ChunkFailure (ChunkReader σ) := (ChunkReader.feeder handler).feed r data

/-- How the bytes arrive does not matter. -/
theorem chunkRead_append {σ : Type} (handler : ChunkHandler σ) (r : ChunkReader σ)
    (front back : List UInt8) :
    chunkRead handler r (front ++ back)
      = chunkRead handler r front >>= fun t => chunkRead handler t back :=
  Feeder.feed_append (ChunkReader.feeder_lawful handler) r front back

end SeastarLive
