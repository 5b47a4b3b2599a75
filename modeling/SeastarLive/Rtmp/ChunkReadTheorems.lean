/-
SeastarLive.Rtmp.ChunkReadTheorems — the reader of the chunk stream on any bytes.

* `chunkRead_safe`: whatever bytes arrive, and in whatever pieces, the header stays in the
  parser's buffer and every payload in the memory of its packet. The reader fails on a chunk
  stream that has no packet, on a message that changes its length on the way, and with its
  handler; it never reaches its other failures.
* `chunkRead_pieces`: how the bytes arrive does not matter.
* `chunkRead_record`: reading with a handler is to collect the messages, and then to handle
  one after the other.
-/
import SeastarLive.Rtmp.Handler

namespace SeastarLive

/-! ## Any bytes -/

/-- A packet that keeps what it received in its memory. -/
structure InPacket.Valid (p : InPacket) : Prop where
  received : p.payload.length ≤ p.capacity
  capacity : p.capacity ≤ 0xFFFFFF + 1024
  length : p.header.length ≤ 0xFFFFFF
  timestamp : p.header.timestamp ≤ extendedTimestampMark
  cid : p.header.cid = 0 ∨ validCid p.header.cid

/-- `rtmp_parser_t::buffer`. -/
def ParseState.buffer : ParseState → List UInt8
  | .init | .payload _ => []
  | .basicHeader first more | .messageHeader first more | .extendedTimestamp first more _ =>
      first :: more

/-- No header has more bytes than its size so far, and the packet of a header has its type. -/
def ParseState.Valid (packets : Fin 8 → InPacket) : ParseState → Prop
  | .init | .payload _ => True
  | .basicHeader first more => more.length + 1 ≤ basicHeaderBytes first
  | .messageHeader first more => more.length + 1 ≤ messageHeaderBytes first
  | .extendedTimestamp first more none => more.length + 1 ≤ messageHeaderBytes first
  | .extendedTimestamp first more (some i) =>
      (packets i).header.fmt = .ofByte first
        ∧ more.length + 1 ≤ extendedHeaderBytes first (packets i).header

/-- What holds of a reader between two pieces, whatever it has read. -/
structure ChunkReader.Valid {σ : Type} (r : ChunkReader σ) : Prop where
  chunkSize : 64 ≤ r.inChunkSize ∧ r.inChunkSize ≤ 0x800000
  packets : ∀ i, (r.packets i).Valid
  /-- No two packets have the same chunk stream. -/
  streams : ∀ i j, (r.packets i).header.cid ≠ 0 →
    (r.packets i).header.cid = (r.packets j).header.cid → i = j
  parser : r.parser.Valid r.packets

theorem basicHeaderBytes_le (first : UInt8) : basicHeaderBytes first ≤ 3 := by
  unfold basicHeaderBytes
  split
  · decide
  · split <;> decide

theorem ChunkType.headerSize_le (fmt : ChunkType) : fmt.headerSize ≤ 11 := by
  cases fmt <;> decide

theorem messageHeaderBytes_le (first : UInt8) : messageHeaderBytes first ≤ 14 := by
  have hbasic := basicHeaderBytes_le first
  have hheader := (ChunkType.ofByte first).headerSize_le
  unfold messageHeaderBytes
  omega

theorem extendedHeaderBytes_le (first : UInt8) (header : ChunkHeader) :
    extendedHeaderBytes first header ≤ 18 := by
  have hbasic := basicHeaderBytes_le first
  have hheader := header.fmt.headerSize_le
  unfold extendedHeaderBytes
  simp only
  split <;> omega

/-- `MAX_CHUNK_HEADER` is enough for every header. -/
theorem ParseState.Valid.length_buffer {packets : Fin 8 → InPacket} {state : ParseState}
    (h : state.Valid packets) : state.buffer.length ≤ 18 := by
  cases state with
  | init => exact Nat.zero_le _
  | payload i => exact Nat.zero_le _
  | basicHeader first more =>
      have hle : more.length + 1 ≤ basicHeaderBytes first := h
      have hbasic := basicHeaderBytes_le first
      simp only [ParseState.buffer, List.length_cons]
      omega
  | messageHeader first more =>
      have hle : more.length + 1 ≤ messageHeaderBytes first := h
      have hheader := messageHeaderBytes_le first
      simp only [ParseState.buffer, List.length_cons]
      omega
  | extendedTimestamp first more pkt =>
      simp only [ParseState.buffer, List.length_cons]
      cases pkt with
      | none =>
          have hle : more.length + 1 ≤ messageHeaderBytes first := h
          have hheader := messageHeaderBytes_le first
          omega
      | some i =>
          have hle : more.length + 1 ≤ extendedHeaderBytes first (packets i).header := h.2
          have hheader := extendedHeaderBytes_le first (packets i).header
          omega

/-! ## Packets -/

theorem mem_slotsFrom (cid : Nat) (i : Fin 8) : i ∈ slotsFrom cid := by
  simp only [slotsFrom, List.mem_map, List.mem_range]
  refine ⟨(i.val + 8 * cid - cid) % 8, Nat.mod_lt _ (by decide), ?_⟩
  apply Fin.ext
  have hi := i.isLt
  simp only [Fin.ofNat]
  omega

theorem packetFind_some {packets : Fin 8 → InPacket} {cid : Nat} {i : Fin 8}
    (h : packetFind packets cid = some i) : (packets i).header.cid = cid := by
  have hfound := List.find?_some h
  exact beq_iff_eq.mp hfound

theorem packetFind_none {packets : Fin 8 → InPacket} {cid : Nat}
    (h : packetFind packets cid = none) (i : Fin 8) : (packets i).header.cid ≠ cid := by
  have hnone := List.find?_eq_none.mp h i (mem_slotsFrom cid i)
  exact fun heq => hnone (beq_iff_eq.mpr heq)

/-- The packet of a chunk has its stream, or no packet has it. -/
theorem packetOf_some {packets : Fin 8 → InPacket} {fmt : ChunkType} {cid : Nat} {i : Fin 8}
    (h : packetOf packets fmt cid = some i) :
    (packets i).header.cid = cid ∨ ∀ j, (packets j).header.cid ≠ cid := by
  unfold packetOf at h
  split at h
  · rename_i j hfind
    cases h
    exact .inl (packetFind_some hfind)
  · rename_i hfind
    exact .inr (packetFind_none hfind)

theorem beValue_take_le (w : Nat) (data : List UInt8) : beValue (data.take w) < 256 ^ w := by
  refine (beValue_lt _).trans_le (Nat.pow_le_pow_right (by decide) ?_)
  exact List.length_take_le w data

theorem validCid_chunkBasicHeaderRead (buffer : List UInt8) :
    validCid (chunkBasicHeaderRead buffer).2 := by
  have hsecond := (buffer.getD 1 0).toNat_lt
  have hthird := (buffer.getD 2 0).toNat_lt
  simp only [chunkBasicHeaderRead, validCid]
  split
  · omega
  · split <;> omega

/-- The fields that a message header may set stay in their bounds. -/
theorem chunkMessageHeaderRead_bounds (data : List UInt8) (header : ChunkHeader)
    (hlength : header.length ≤ 0xFFFFFF) (htimestamp : header.timestamp ≤ extendedTimestampMark) :
    (chunkMessageHeaderRead data header).length ≤ 0xFFFFFF
      ∧ (chunkMessageHeaderRead data header).timestamp ≤ extendedTimestampMark
      ∧ (chunkMessageHeaderRead data header).cid = header.cid
      ∧ (chunkMessageHeaderRead data header).fmt = header.fmt := by
  have hts : beValue (data.take 3) < 16777216 := beValue_take_le 3 data
  have hlen : beValue ((data.drop 3).take 3) < 16777216 := beValue_take_le 3 _
  unfold chunkMessageHeaderRead
  unfold extendedTimestampMark at htimestamp ⊢
  obtain ⟨fmt, cid, timestamp, length, type, streamId⟩ := header
  cases fmt <;> refine ⟨?_, ?_, rfl, rfl⟩ <;> simp only at * <;> omega

theorem InPacket.Valid.alloc {p : InPacket} (h : p.Valid) : p.alloc.Valid := by
  have hreceived := h.received
  have hlength := h.length
  unfold InPacket.alloc
  split
  · exact ⟨by simp only; omega, by simp only; omega, hlength, h.timestamp, h.cid⟩
  · exact h

theorem InPacket.Valid.begin {p : InPacket} (h : p.Valid) (timestamp : Nat) :
    (p.begin timestamp).Valid :=
  InPacket.Valid.alloc ⟨h.received, h.capacity, h.length, h.timestamp, h.cid⟩

@[simp] theorem header_begin (p : InPacket) (timestamp : Nat) :
    (p.begin timestamp).header = p.header := by
  unfold InPacket.begin InPacket.alloc
  simp only
  split <;> rfl

namespace ChunkReader

variable {σ : Type} {r : ChunkReader σ}

/-- The packet of a header keeps the packets valid. -/
theorem Valid.packetParse (hr : r.Valid) (first : UInt8) (more : List UInt8) :
    let parsed := packetParse r.packets (first :: more)
    (∀ i, (parsed.2 i).Valid)
      ∧ (∀ i j, (parsed.2 i).header.cid ≠ 0 →
          (parsed.2 i).header.cid = (parsed.2 j).header.cid → i = j)
      ∧ ∀ i, parsed.1 = some i → (parsed.2 i).header.fmt = .ofByte first := by
  have hcid := validCid_chunkBasicHeaderRead (first :: more)
  have hfmt : (chunkBasicHeaderRead (first :: more)).1 = .ofByte first := rfl
  unfold SeastarLive.packetParse
  generalize chunkBasicHeaderRead (first :: more) = basic at hcid hfmt
  obtain ⟨fmt, cid⟩ := basic
  simp only at hcid hfmt ⊢
  subst hfmt
  cases hpacket : packetOf r.packets (.ofByte first) cid with
  | none => exact ⟨hr.packets, hr.streams, fun i hi => nomatch hi⟩
  | some i =>
      have hi := hr.packets i
      obtain ⟨hlength, htimestamp, hcid', hfmt'⟩ := chunkMessageHeaderRead_bounds
        ((first :: more).drop (basicHeaderBytes ((first :: more).getD 0 0)))
        { (r.packets i).header with cid, fmt := .ofByte first } hi.length hi.timestamp
      simp only at hcid' hfmt'
      simp only
      generalize chunkMessageHeaderRead _ _ = header at hlength htimestamp hcid' hfmt'
      -- a stream that is new to the packet is new to all of them
      have hother : ∀ j, j ≠ i → (r.packets j).header.cid ≠ cid := by
        intro j hj hsame
        rcases packetOf_some hpacket with hhas | hnew
        · refine hj (hr.streams j i ?_ (hsame.trans hhas.symm))
          have hpos := hcid.1
          omega
        · exact hnew j hsame
      refine ⟨?_, ?_, ?_⟩
      · intro j
        by_cases hj : j = i
        · subst hj
          rw [Function.update_self]
          exact ⟨hi.received, hi.capacity, hlength, htimestamp, .inr (hcid' ▸ hcid)⟩
        · rw [Function.update_of_ne hj]
          exact hr.packets j
      · intro j k hj hjk
        by_cases hji : j = i <;> by_cases hki : k = i
        · rw [hji, hki]
        · subst hji
          rw [Function.update_self, Function.update_of_ne hki, hcid'] at hjk
          exact absurd hjk.symm (hother k hki)
        · subst hki
          rw [Function.update_self, Function.update_of_ne hji, hcid'] at hjk
          exact absurd hjk (hother j hji)
        · rw [Function.update_of_ne hji] at hj hjk
          rw [Function.update_of_ne hki] at hjk
          exact hr.streams j k hj hjk
      · intro j hj
        cases hj
        rw [Function.update_self]
        exact hfmt'

/-! ## Turns -/

/-- A packet that is stored with the header it had keeps a reader valid. -/
theorem Valid.update (hr : r.Valid) {i : Fin 8} {p : InPacket} (hp : p.Valid)
    (hheader : p.header = (r.packets i).header) {state : ParseState}
    (hstate : state.Valid (Function.update r.packets i p)) {size : Nat}
    (hsize : 64 ≤ size ∧ size ≤ 0x800000) (app : σ) :
    (ChunkReader.mk size (Function.update r.packets i p) state app).Valid := by
  have hsame : ∀ j, (Function.update r.packets i p j).header = (r.packets j).header := by
    intro j
    by_cases hj : j = i
    · subst hj
      rw [Function.update_self, hheader]
    · rw [Function.update_of_ne hj]
  refine ⟨hsize, ?_, ?_, hstate⟩
  · intro j
    simp only
    by_cases hj : j = i
    · subst hj
      rwa [Function.update_self]
    · rw [Function.update_of_ne hj]
      exact hr.packets j
  · intro j k
    simp only [hsame]
    exact hr.streams j k

section Turn

variable {t : ChunkReader σ} {data again rest : List UInt8}

theorem Valid.turnBasicHeader (hr : r.Valid) {first : UInt8} {more : List UInt8}
    (h : r.turnBasicHeader first more data = .ok (t, again, rest)) : t.Valid := by
  have hmessage : basicHeaderBytes first ≤ messageHeaderBytes first := Nat.le_add_left _ _
  rcases readHeader_cases h with ⟨taken, rest', -, hsize, hout⟩ | ⟨hsize, hout⟩ <;> cases hout
  · refine ⟨hr.chunkSize, hr.packets, hr.streams, ?_⟩
    simp only [ParseState.Valid]
    omega
  · refine ⟨hr.chunkSize, hr.packets, hr.streams, ?_⟩
    simp only [ParseState.Valid]
    omega

theorem Valid.turnMessageHeader (hr : r.Valid) {first : UInt8} {more : List UInt8}
    (h : r.turnMessageHeader first more data = .ok (t, again, rest)) : t.Valid := by
  rcases readHeader_cases h with ⟨taken, rest', -, hsize, hout⟩ | ⟨hsize, hout⟩
  · obtain ⟨hpackets, hstreams, hfmt⟩ := hr.packetParse first (more ++ taken)
    simp only at hpackets hstreams hfmt hout
    cases hout
    refine ⟨hr.chunkSize, hpackets, hstreams, ?_⟩
    cases hpkt : (SeastarLive.packetParse r.packets (first :: (more ++ taken))).1 with
    | none =>
        simp only [ParseState.Valid]
        omega
    | some i =>
        have htype := hfmt i hpkt
        refine ⟨htype, ?_⟩
        have hheader : messageHeaderBytes first = ((SeastarLive.packetParse r.packets
            (first :: (more ++ taken))).2 i).header.fmt.headerSize + basicHeaderBytes first := by
          rw [htype]
          rfl
        unfold extendedHeaderBytes
        simp only
        split <;> omega
  · cases hout
    refine ⟨hr.chunkSize, hr.packets, hr.streams, ?_⟩
    simp only [ParseState.Valid]
    omega

theorem Valid.turnExtendedTimestamp (hr : r.Valid) {first : UInt8} {more : List UInt8}
    {pkt : Option (Fin 8)} (hparser : r.parser = .extendedTimestamp first more pkt)
    (h : r.turnExtendedTimestamp first more pkt data = .ok (t, again, rest)) : t.Valid := by
  have hstate := hr.parser
  rw [hparser] at hstate
  cases pkt with
  | none => cases h
  | some i =>
      simp only [ChunkReader.turnExtendedTimestamp] at h
      split at h
      · cases h
      · rcases readHeader_cases h with ⟨taken, rest', -, hsize, hout⟩ | ⟨hsize, hout⟩
        · have ht : t = (r.timestampTurn first (more ++ taken) i rest').1 :=
            congrArg (fun out => out.1) hout
          rw [ht]
          simp only [timestampTurn]
          split
          · refine hr.update ((hr.packets i).begin _) (header_begin _ _) ?_ hr.chunkSize r.app
            trivial
          · refine hr.update (hr.packets i) rfl ?_ hr.chunkSize r.app
            trivial
        · cases hout
          exact ⟨hr.chunkSize, hr.packets, hr.streams, hstate.1, Nat.le_of_lt hsize⟩

theorem Valid.turnPayload {handler : ChunkHandler σ} (hr : r.Valid)
    (hhandler : ∀ header payload size app out, 64 ≤ size ∧ size ≤ 0x800000 →
      handler header payload size app = .ok out → 64 ≤ out.1 ∧ out.1 ≤ 0x800000)
    {i : Fin 8} (h : r.turnPayload handler i data = .ok (t, again, rest)) : t.Valid := by
  have hi := hr.packets i
  unfold ChunkReader.turnPayload at h
  simp only at h
  split at h
  · cases h
  · rename_i hfits
    have hreceived : ∀ n, InPacket.Valid { r.packets i with
        payload := (r.packets i).payload ++ data.take (min n
          ((r.packets i).header.length - (r.packets i).payload.length)) } := by
      intro n
      refine ⟨?_, hi.capacity, hi.length, hi.timestamp, hi.cid⟩
      simp only [List.length_append, List.length_take]
      omega
    have hcleared : InPacket.Valid { r.packets i with payload := [] } :=
      ⟨Nat.zero_le _, hi.capacity, hi.length, hi.timestamp, hi.cid⟩
    split at h
    · cases h
    · split at h
      · split at h <;> cases h
        rename_i hran
        refine hr.update hcleared rfl ?_ (hhandler _ _ _ _ _ hr.chunkSize hran) _
        trivial
      · split at h
        · cases h
          refine hr.update (hreceived _) rfl ?_ hr.chunkSize _
          trivial
        · split at h <;> cases h
          refine hr.update (hreceived _) rfl ?_ hr.chunkSize _
          trivial

/-- The failures of a reader on bytes that no writer wrote. -/
def Refuses (e : ChunkFailure) : Prop :=
  e = .unknownStream ∨ e = .badPacket ∨ ∃ code, e = .handler code

theorem Valid.turn {handler : ChunkHandler σ} (hr : r.Valid)
    (hhandler : ∀ header payload size app out, 64 ≤ size ∧ size ≤ 0x800000 →
      handler header payload size app = .ok out → 64 ≤ out.1 ∧ out.1 ≤ 0x800000)
    (h : turn handler r data = .ok (t, again, rest)) : t.Valid := by
  unfold ChunkReader.turn at h
  split at h
  · split at h <;> cases h
    · exact hr
    · exact ⟨hr.chunkSize, hr.packets, hr.streams, basicHeaderBytes_pos _⟩
  · exact hr.turnBasicHeader h
  · exact hr.turnMessageHeader h
  · rename_i hparser
    exact hr.turnExtendedTimestamp hparser h
  · exact hr.turnPayload hhandler h

/-- The checks of the headers never fail, nor does the division by the chunk size, and a payload
    that is not at its end has taken all there was. -/
theorem Valid.refuses {handler : ChunkHandler σ} (hr : r.Valid) {e : ChunkFailure}
    (h : ChunkReader.turn handler r data = .error e) : Refuses e := by
  have hstate := hr.parser
  unfold ChunkReader.turn at h
  cases hparser : r.parser <;> rw [hparser] at h hstate <;> simp only at h
  case init => split at h <;> cases h
  case basicHeader first more =>
    have hsize := (readHeader_error h).1
    have hle : more.length + 1 ≤ basicHeaderBytes first := hstate
    omega
  case messageHeader first more =>
    have hsize := (readHeader_error h).1
    have hle : more.length + 1 ≤ messageHeaderBytes first := hstate
    omega
  case extendedTimestamp first more pkt =>
    cases pkt with
    | none =>
        cases h
        exact .inl rfl
    | some i =>
        have hle : more.length + 1 ≤ extendedHeaderBytes first (r.packets i).header := hstate.2
        have htimestamp := (hr.packets i).timestamp
        simp only [ChunkReader.turnExtendedTimestamp, if_neg (Nat.not_lt.mpr htimestamp)] at h
        have hsize := (readHeader_error h).1
        omega
  case payload i =>
    have hpos : r.inChunkSize ≠ 0 := by
      have hsize := hr.chunkSize.1
      omega
    unfold ChunkReader.turnPayload at h
    simp only at h
    split at h
    · cases h
      exact .inr (.inl rfl)
    split at h
    · split at h <;> cases h
      exact .inr (.inr ⟨_, rfl⟩)
    · rename_i hmore
      split at h
      · cases h
      · rename_i hinside
        split at h
        · cases h
        · rename_i hrest
          exfalso
          have hends := chunk_ends (r.packets i).payload.length hpos
          have hdrop := List.length_pos_iff.mpr hrest
          simp only [List.length_append, List.length_take, List.length_drop] at hmore hinside hdrop
          have hwhole : min (min (r.inChunkSize - (r.packets i).payload.length % r.inChunkSize)
              ((r.packets i).header.length - (r.packets i).payload.length)) data.length
              = r.inChunkSize - (r.packets i).payload.length % r.inChunkSize := by omega
          rw [hwhole] at hinside
          exact hinside hends

end Turn

/-- A connection that was just made. -/
theorem valid_new (app : σ) : ChunkReader.Valid { app } where
  chunkSize := by simp
  packets _ := ⟨Nat.zero_le _, Nat.zero_le _, Nat.zero_le _, Nat.zero_le _, .inl rfl⟩
  streams _ _ h := absurd rfl h
  parser := trivial

end ChunkReader

open ChunkReader

section Reader

variable {α : Type}

theorem chunkRead_valid (cb : RtmpCallbacks α) {r : ChunkReader (RtmpState α)} (hr : r.Valid)
    (data : List UInt8) :
    (∃ t, chunkRead cb.rtmpHandler r data = .ok t ∧ t.Valid)
      ∨ ∃ e, chunkRead cb.rtmpHandler r data = .error e ∧ Refuses e := by
  refine Feeder.feed_invariant (feeder_lawful _) ?_ ?_ hr data
  · intro r data t again rest hr _ h
    exact hr.turn (fun _ _ _ _ _ hsize hran => rtmpHandler_bounds hsize hran) h
  · intro r data e hr _ h
    exact hr.refuses h

/-- How the bytes arrive does not matter. -/
theorem chunkRead_pieces (handler : ChunkHandler α) (r : ChunkReader α)
    (pieces : List (List UInt8)) :
    (feeder handler).feedAll r pieces = chunkRead handler r pieces.flatten :=
  Feeder.feedAll_eq (feeder_lawful handler) r pieces

/-- Whatever arrives, and in whatever pieces: a header stays in the buffer of the parser, and
    what a packet received in its memory. -/
theorem chunkRead_safe (cb : RtmpCallbacks α) (s : RtmpState α) (pieces : List (List UInt8)) :
    (∃ r, (feeder cb.rtmpHandler).feedAll { app := s } pieces = .ok r
        ∧ r.parser.buffer.length ≤ 18
        ∧ (64 ≤ r.inChunkSize ∧ r.inChunkSize ≤ 0x800000)
        ∧ (∀ i, (r.packets i).payload.length ≤ (r.packets i).capacity
          ∧ (r.packets i).capacity ≤ 0xFFFFFF + 1024)
        ∧ ∀ i j, (r.packets i).header.cid ≠ 0 →
          (r.packets i).header.cid = (r.packets j).header.cid → i = j)
      ∨ ∃ e, (feeder cb.rtmpHandler).feedAll { app := s } pieces = .error e
        ∧ (e = .unknownStream ∨ e = .badPacket ∨ ∃ code, e = .handler code) := by
  rw [Feeder.feedAll_eq (feeder_lawful _)]
  rcases chunkRead_valid cb (valid_new s) pieces.flatten with ⟨r, hread, hr⟩ | herror
  · exact .inl ⟨r, hread, hr.parser.length_buffer, hr.chunkSize,
      fun i => ⟨(hr.packets i).received, (hr.packets i).capacity⟩, hr.streams⟩
  · exact .inr herror

end Reader

/-! ## Messages first, then the handler -/

/-- A message, as it is given to the writer of one side and to the handler of the other. -/
structure RtmpMessage where
  cid : Nat
  timestamp : Nat
  type : UInt8
  streamId : Nat
  payload : List UInt8
deriving DecidableEq

/-- The message that a reader hands to its handler. -/
def ChunkHeader.message (header : ChunkHeader) (payload : List UInt8) : RtmpMessage where
  cid := header.cid
  timestamp := header.timestamp
  type := header.type
  streamId := header.streamId
  payload := payload

/-- The handler that collects the messages, and keeps the chunk size. -/
def recordHandler : ChunkHandler (List RtmpMessage) :=
  fun header payload inChunkSize messages =>
    match chunkSizeAfter header.type payload inChunkSize with
    | .error r => .error r
    | .ok inChunkSize => .ok (inChunkSize, messages ++ [header.message payload])

variable {α : Type}

/-- Handle messages in their order. -/
def handleAll (cb : RtmpCallbacks α) : RtmpState α → List RtmpMessage → Except Int (RtmpState α)
  | s, [] => .ok s
  | s, m :: messages =>
      match appHandler cb m.type m.timestamp m.payload s with
      | .error r => .error r
      | .ok s => handleAll cb s messages

theorem handleAll_append (cb : RtmpCallbacks α) (s : RtmpState α) (front back : List RtmpMessage) :
    handleAll cb s (front ++ back) = handleAll cb s front >>= fun t => handleAll cb t back := by
  induction front generalizing s with
  | nil => rfl
  | cons m front ih =>
      simp only [List.cons_append, handleAll]
      cases appHandler cb m.type m.timestamp m.payload s with
      | error r => rfl
      | ok t => exact ih t

/-- Callbacks that keep the media, each with its time. -/
def keepMedia : RtmpCallbacks (List (List UInt8 × Nat)) where
  onaudio data timestamp app := .ok (app ++ [(data, timestamp)])
  onvideo data timestamp app := .ok (app ++ [(data, timestamp)])
  onscript data timestamp app := .ok (app ++ [(data, timestamp)])
  oninvoke _ _ app := .ok app
  onabort _ app := app
  oneof _ app := app
  onping _ app := app
  onbandwidth _ app := app

namespace ChunkReader

/-- The same reader in front of another state. -/
abbrev withApp {σ τ : Type} (r : ChunkReader σ) (app : τ) : ChunkReader τ :=
  { inChunkSize := r.inChunkSize, packets := r.packets, parser := r.parser, app }

/-- What a reader in front of a handler makes of a result in front of the collector. -/
def replay (cb : RtmpCallbacks α) (s : RtmpState α) (messages : List RtmpMessage)
    {β : Type} (out : RtmpState α → β) : Except ChunkFailure β :=
  match handleAll cb s messages with
  | .error code => .error (.handler code)
  | .ok t => .ok (out t)

variable {r t : ChunkReader (List RtmpMessage)} {data again rest : List UInt8}

/-- A header is read in the same way in front of another state. -/
theorem readHeader_withApp {size : Nat} {more : List UInt8} {σ τ : Type} (app : τ)
    {wait : List UInt8 → ChunkReader σ}
    {complete : List UInt8 → List UInt8 → ChunkReader σ × List UInt8 × List UInt8}
    {out : ChunkReader σ × List UInt8 × List UInt8}
    (h : readHeader size more data wait complete = .ok out) :
    readHeader size more data (fun more => (wait more).withApp app)
        (fun more rest => ((complete more rest).1.withApp app, (complete more rest).2))
      = .ok (out.1.withApp app, out.2) := by
  unfold readHeader at h ⊢
  simp only at h ⊢
  split at h
  · cases h
  · rename_i hsize
    rw [if_neg hsize]
    split at h <;> rename_i hcomplete <;> cases h
    · rw [if_pos hcomplete]
    · rw [if_neg hcomplete]

theorem turnHeader_app {size : Nat} {more : List UInt8} {σ : Type} {app : σ}
    {wait : List UInt8 → ChunkReader σ}
    {complete : List UInt8 → List UInt8 → ChunkReader σ × List UInt8 × List UInt8}
    {out : ChunkReader σ × List UInt8 × List UInt8} (hwait : ∀ more, (wait more).app = app)
    (hcomplete : ∀ more rest, (complete more rest).1.app = app)
    (h : readHeader size more data wait complete = .ok out) : out.1.app = app := by
  rcases readHeader_cases h with ⟨taken, rest, -, -, rfl⟩ | ⟨-, rfl⟩
  · exact hcomplete _ _
  · exact hwait _

/-- A payload that is complete is one message. -/
theorem turnPayload_record (cb : RtmpCallbacks α) (s : RtmpState α) {i : Fin 8}
    (h : r.turnPayload recordHandler i data = .ok (t, again, rest)) :
    ∃ messages, t.app = r.app ++ messages
      ∧ (r.withApp s).turnPayload cb.rtmpHandler i data
          = replay cb s messages fun s => (t.withApp s, again, rest) := by
  unfold turnPayload at h ⊢
  simp only at h ⊢
  split at h
  · cases h
  rename_i hfits
  simp only [if_neg hfits]
  split at h
  · cases h
  rename_i hsize
  simp only [if_neg hsize]
  split at h
  · rename_i hcomplete
    simp only [if_pos hcomplete]
    unfold recordHandler at h
    split at h
    · cases h
    · rename_i hran
      split at hran <;> cases hran
      rename_i hafter
      cases h
      refine ⟨[_], rfl, ?_⟩
      simp only [RtmpCallbacks.rtmpHandler, hafter, replay, handleAll, ChunkHeader.message]
      cases appHandler cb _ _ _ s <;> rfl
  · rename_i hcomplete
    simp only [if_neg hcomplete]
    split at h
    · rename_i hends
      simp only [if_pos hends]
      cases h
      exact ⟨[], (List.append_nil _).symm, rfl⟩
    · rename_i hends
      simp only [if_neg hends]
      split at h <;> cases h
      rename_i hrest
      simp only [if_pos hrest]
      exact ⟨[], (List.append_nil _).symm, rfl⟩

/-- A turn hands its messages on, one at most. -/
theorem turn_record (cb : RtmpCallbacks α) (s : RtmpState α)
    (h : turn recordHandler r data = .ok (t, again, rest)) :
    ∃ messages, t.app = r.app ++ messages
      ∧ turn cb.rtmpHandler (r.withApp s) data
          = replay cb s messages fun s => (t.withApp s, again, rest) := by
  unfold turn at h ⊢
  cases hstate : r.parser <;> rw [hstate] at h <;> simp only at h ⊢
  case init =>
    refine ⟨[], ?_⟩
    split at h <;> cases h
    · exact ⟨(List.append_nil _).symm, rfl⟩
    · exact ⟨(List.append_nil _).symm, rfl⟩
  case basicHeader first more =>
    refine ⟨[], ?_, readHeader_withApp s h⟩
    rw [List.append_nil]
    refine turnHeader_app ?_ ?_ h <;> intros <;> rfl
  case messageHeader first more =>
    refine ⟨[], ?_, readHeader_withApp s h⟩
    rw [List.append_nil]
    refine turnHeader_app ?_ ?_ h <;> intros <;> rfl
  case extendedTimestamp first more pkt =>
    unfold turnExtendedTimestamp at h ⊢
    cases pkt with
    | none => cases h
    | some i =>
        simp only at h ⊢
        split at h
        · cases h
        · rename_i htimestamp
          refine ⟨[], ?_, (if_neg htimestamp).trans (readHeader_withApp s h)⟩
          rw [List.append_nil]
          refine turnHeader_app ?_ ?_ h <;> intros <;> rfl
  case payload i => exact turnPayload_record cb s h

/-- Reading in front of a handler is to collect the messages, and then to handle one after the
    other. -/
theorem chunkRead_record (cb : RtmpCallbacks α) (s : RtmpState α)
    (h : chunkRead recordHandler r data = .ok t) :
    ∃ messages, t.app = r.app ++ messages
      ∧ chunkRead cb.rtmpHandler (r.withApp s) data
          = replay cb s messages fun s => t.withApp s := by
  have hrecord := feeder_lawful recordHandler
  have hhandle := feeder_lawful cb.rtmpHandler
  unfold chunkRead at h ⊢
  induction hn : (feeder recordHandler).fuel r data using Nat.strongRecOn
    generalizing r data s with
  | ind n ih =>
      subst hn
      by_cases hdata : data = []
      · subst hdata
        cases h
        exact ⟨[], (List.append_nil _).symm, rfl⟩
      cases hturn : turn recordHandler r data with
      | error e =>
          rw [Feeder.feed_error hdata hturn] at h
          cases h
      | ok out =>
          obtain ⟨u, again, rest⟩ := out
          have hlt := hrecord.lowers r data u again rest hdata hturn
          rw [Feeder.feed_turn hrecord hdata hturn] at h
          obtain ⟨first, hfirst, hran⟩ := turn_record cb s hturn
          cases hhandled : handleAll cb s first with
          | error code =>
              -- the handler fails on the first message
              obtain ⟨more, hmore, -⟩ := ih _ hlt s h rfl
              refine ⟨first ++ more, by rw [hmore, hfirst, List.append_assoc], ?_⟩
              simp only [replay, hhandled] at hran
              simp only [replay, handleAll_append, hhandled]
              exact Feeder.feed_error hdata hran
          | ok s' =>
              obtain ⟨more, hmore, hrest⟩ := ih _ hlt s' h rfl
              refine ⟨first ++ more, by rw [hmore, hfirst, List.append_assoc], ?_⟩
              simp only [replay, hhandled] at hran
              rw [Feeder.feed_turn hhandle hdata hran, hrest]
              simp only [replay, handleAll_append, hhandled, ok_bind]

end ChunkReader

end SeastarLive
