/-
SeastarLive.Rtmp.ChunkStream — what a writer wrote, read.

* `chunkRead_header`: a reader on the header of a chunk.
* `chunkRead_rest`: on the chunks behind the first.
* `chunkRead_message`: on the chunks of a message.
-/
import SeastarLive.Rtmp.ChunkWrite

namespace SeastarLive

open ChunkReader

/-! ## Headers -/

section Headers

variable {σ : Type} {handler : ChunkHandler σ}

/-- A header that is all there is complete. -/
theorem readHeader_complete {size : Nat} {more taken : List UInt8} (rest : List UInt8)
    {wait : List UInt8 → ChunkReader σ}
    {complete : List UInt8 → List UInt8 → ChunkReader σ × List UInt8 × List UInt8}
    (hsize : (more ++ taken).length + 1 = size) :
    readHeader size more (taken ++ rest) wait complete = .ok (complete (more ++ taken) rest) := by
  have hmissing : size - (more.length + 1) = taken.length := by
    simp only [List.length_append] at hsize
    omega
  have hfits : ¬ size < more.length + 1 := by
    simp only [List.length_append] at hsize
    omega
  unfold readHeader
  simp only [if_neg hfits, hmissing, List.take_left', List.drop_left']
  rw [if_pos (Nat.le_of_eq hsize.symm)]

/-- A turn that reads nothing again. -/
theorem chunkRead_turn {r t : ChunkReader σ} {data rest : List UInt8} (hdata : data ≠ [])
    (hturn : turn handler r data = .ok (t, [], rest)) :
    chunkRead handler r data = chunkRead handler t rest :=
  Feeder.feed_turn (feeder_lawful handler) hdata hturn

section States

variable {r : ChunkReader σ} {first : UInt8} {more taken rest : List UInt8}

theorem turn_init (hstate : r.parser = .init) :
    turn handler r (first :: rest)
      = .ok ({ r with parser := .basicHeader first [] }, [], rest) := by
  unfold turn
  rw [hstate]

theorem turn_basicHeader (hstate : r.parser = .basicHeader first more)
    (hsize : (more ++ taken).length + 1 = basicHeaderBytes first) :
    turn handler r (taken ++ rest)
      = .ok ({ r with parser := .messageHeader first (more ++ taken) }, [], rest) := by
  unfold turn
  rw [hstate]
  exact readHeader_complete rest hsize

theorem turn_messageHeader (hstate : r.parser = .messageHeader first more)
    (hsize : (more ++ taken).length + 1 = messageHeaderBytes first) :
    turn handler r (taken ++ rest)
      = .ok ({ r with
          packets := (packetParse r.packets (first :: (more ++ taken))).2
          parser := .extendedTimestamp first (more ++ taken)
            (packetParse r.packets (first :: (more ++ taken))).1 }, [], rest) := by
  unfold turn
  rw [hstate]
  exact readHeader_complete rest hsize

theorem turn_extendedTimestamp {i : Fin 8}
    (hstate : r.parser = .extendedTimestamp first more (some i))
    (hmark : (r.packets i).header.timestamp ≤ extendedTimestampMark)
    (hsize : (more ++ taken).length + 1 = extendedHeaderBytes first (r.packets i).header) :
    turn handler r (taken ++ rest) = .ok (r.timestampTurn first (more ++ taken) i rest) := by
  unfold turn
  rw [hstate]
  simp only [turnExtendedTimestamp, if_neg (Nat.not_lt.mpr hmark)]
  exact readHeader_complete rest hsize

end States

/-- The packet of a chunk with its header. -/
def headerPacket (p : InPacket) (header : ChunkHeader) (timestamp : Nat) : InPacket :=
  let p := { p with header }
  if p.payload = [] then p.begin timestamp else p

/-- A reader on the header of a chunk whose packet is `i`: the packet takes it. -/
theorem chunkRead_header {r : ChunkReader σ} (hinit : r.parser = .init) {fmt : ChunkType}
    {cid : Nat} (hcid : validCid cid) {i : Fin 8} (hpacket : packetOf r.packets fmt cid = some i)
    {message extended rest : List UInt8} (hmessage : message.length = fmt.headerSize)
    {header : ChunkHeader}
    (hheader : chunkMessageHeaderRead message { (r.packets i).header with cid, fmt } = header)
    (hmark : header.timestamp ≤ extendedTimestampMark) (hfmt : header.fmt = fmt)
    (hlength : extended.length = if header.timestamp = extendedTimestampMark then 4 else 0)
    {timestamp : Nat}
    (htimestamp : timestamp = if header.timestamp = extendedTimestampMark then beValue extended
      else header.timestamp)
    (hsame : header.timestamp = extendedTimestampMark → fmt = .type3 →
      timestamp = (r.packets i).delta)
    (hrest : rest ≠ []) :
    chunkRead handler r (chunkBasicHeaderWrite fmt cid ++ message ++ extended ++ rest)
      = chunkRead handler
          { r with
            packets := Function.update r.packets i (headerPacket (r.packets i) header timestamp)
            parser := .payload i } rest := by
  obtain ⟨hbasic, htype, hread⟩ := chunkBasicHeaderRead_write fmt hcid message
  generalize chunkBasicHeaderWrite fmt cid = basic at *
  cases basic with
  | nil =>
      have hpos := basicHeaderBytes_pos (([] : List UInt8).getD 0 0)
      rw [← hbasic] at hpos
      exact absurd hpos (Nat.lt_irrefl 0)
  | cons first more =>
      simp only [List.getD_cons_zero, List.length_cons] at hbasic htype
      simp only [List.cons_append] at hread
      -- the packet of the header
      have hparse : packetParse r.packets (first :: (more ++ message))
          = (some i, Function.update r.packets i { r.packets i with header }) := by
        have hdrop : (first :: (more ++ message)).drop (basicHeaderBytes first) = message := by
          rw [← hbasic, List.drop_succ_cons, List.drop_left' rfl]
        simp only [packetParse, hread, hpacket, List.getD_cons_zero, hdrop, hheader]
      have hbytes : (more ++ message).length + 1 = messageHeaderBytes first := by
        rw [messageHeaderBytes, htype, ← hmessage, ← hbasic, List.length_append]
        omega
      have hextended : (more ++ message ++ extended).length + 1
          = extendedHeaderBytes first header := by
        rw [List.length_append, hlength]
        unfold extendedHeaderBytes messageHeaderBytes at *
        rw [hfmt, ← htype]
        simp only
        split <;> omega
      -- one turn for each part of the header
      let r1 : ChunkReader σ := { r with parser := .basicHeader first [] }
      let r2 : ChunkReader σ := { r with parser := .messageHeader first more }
      let packets := Function.update r.packets i { r.packets i with header }
      let r3 : ChunkReader σ :=
        { r with packets, parser := .extendedTimestamp first (more ++ message) (some i) }
      have hstep1 : chunkRead handler r (first :: (more ++ (message ++ (extended ++ rest))))
          = chunkRead handler r1 (more ++ (message ++ (extended ++ rest))) :=
        chunkRead_turn (List.cons_ne_nil _ _) (turn_init hinit)
      have hstep2 : chunkRead handler r1 (more ++ (message ++ (extended ++ rest)))
          = chunkRead handler r2 (message ++ (extended ++ rest)) :=
        chunkRead_turn (by simp [hrest])
          (turn_basicHeader rfl (show ([] ++ more).length + 1 = _ from hbasic))
      have hstep3 : chunkRead handler r2 (message ++ (extended ++ rest))
          = chunkRead handler r3 (extended ++ rest) := by
        refine chunkRead_turn (by simp [hrest]) ((turn_messageHeader rfl hbytes).trans ?_)
        rw [hparse]
      have hpacket3 : r3.packets i = { r.packets i with header } := Function.update_self ..
      have hheader3 : (r3.packets i).header = header := by rw [hpacket3]
      -- the timestamp is not taken for payload
      have htaken :
          ((first :: (more ++ message ++ extended)).drop (messageHeaderBytes first)).take 4
          = extended := by
        have hdrop : (first :: (more ++ message ++ extended)).drop (messageHeaderBytes first)
            = extended := by
          rw [← hbytes, List.drop_succ_cons, List.drop_left' rfl]
        rw [hdrop, List.take_of_length_le]
        rw [hlength]
        split <;> decide
      have hturn : r3.timestampTurn first (more ++ message ++ extended) i rest
          = ({ r with
              packets := Function.update r.packets i (headerPacket (r.packets i) header timestamp)
              parser := .payload i }, [], rest) := by
        have hread' : (if header.timestamp = extendedTimestampMark then
            chunkExtendedTimestampRead extended else header.timestamp) = timestamp := by
          rw [htimestamp]
          unfold chunkExtendedTimestampRead
          split
          · rename_i hext
            rw [if_pos hext] at hlength
            rw [List.take_of_length_le (Nat.le_of_eq hlength)]
          · rfl
        have hagain : ¬ (header.timestamp = extendedTimestampMark ∧ header.fmt = .type3
            ∧ timestamp ≠ (r.packets i).delta) :=
          fun h => h.2.2 (hsame h.1 (hfmt ▸ h.2.1))
        unfold timestampTurn
        simp only [hpacket3, htaken, hread', if_neg hagain]
        simp only [r3, packets, Function.update_idem, headerPacket]
      have hstep4 : chunkRead handler r3 (extended ++ rest)
          = chunkRead handler
              { r with
                packets := Function.update r.packets i (headerPacket (r.packets i) header timestamp)
                parser := .payload i } rest :=
        chunkRead_turn (by simp [hrest])
          ((turn_extendedTimestamp rfl (hheader3 ▸ hmark) (hheader3 ▸ hextended)).trans
            (congrArg _ hturn))
      simp only [List.cons_append, List.append_assoc]
      rw [hstep1, hstep2, hstep3, hstep4]

/-! ## Payloads -/

section Payloads

variable {r : ChunkReader σ} {i : Fin 8} {piece rest : List UInt8}

/-- The last chunk of a message. -/
theorem turn_payload_last (hstate : r.parser = .payload i) (hsize : r.inChunkSize ≠ 0)
    (hcapacity : (r.packets i).capacity ≠ 0)
    (hfits : (r.packets i).header.length ≤ (r.packets i).capacity)
    (hlength : ((r.packets i).payload ++ piece).length = (r.packets i).header.length)
    (hchunk : piece.length ≤ r.inChunkSize - (r.packets i).payload.length % r.inChunkSize)
    {inChunkSize : Nat} {app : σ}
    (hran : handler { (r.packets i).header with timestamp := (r.packets i).clock }
      ((r.packets i).payload ++ piece) r.inChunkSize r.app = .ok (inChunkSize, app)) :
    turn handler r (piece ++ rest)
      = .ok ({ inChunkSize
               packets := Function.update r.packets i { r.packets i with payload := [] }
               parser := .init
               app }, [], rest) := by
  have hsum := hlength
  rw [List.length_append] at hsum
  have hroom : min (r.inChunkSize - (r.packets i).payload.length % r.inChunkSize)
      ((r.packets i).header.length - (r.packets i).payload.length) = piece.length := by omega
  unfold turn
  rw [hstate]
  simp only [turnPayload]
  rw [if_neg (by omega), if_neg hsize, hroom, List.take_left' rfl, List.drop_left' rfl,
    if_pos (Nat.le_of_eq hlength.symm), hran]

/-- A chunk with more behind it. -/
theorem turn_payload_more (hstate : r.parser = .payload i) (hsize : r.inChunkSize ≠ 0)
    (hfits : (r.packets i).header.length ≤ (r.packets i).capacity)
    (hlength : ((r.packets i).payload ++ piece).length < (r.packets i).header.length)
    (hchunk : piece.length = r.inChunkSize - (r.packets i).payload.length % r.inChunkSize) :
    turn handler r (piece ++ rest)
      = .ok ({ r with
          packets := Function.update r.packets i
            { r.packets i with payload := (r.packets i).payload ++ piece }
          parser := .init }, [], rest) := by
  have hsum := hlength
  rw [List.length_append] at hsum
  have hroom : min (r.inChunkSize - (r.packets i).payload.length % r.inChunkSize)
      ((r.packets i).header.length - (r.packets i).payload.length) = piece.length := by omega
  have hends : ((r.packets i).payload ++ piece).length % r.inChunkSize = 0 := by
    rw [List.length_append, hchunk]
    exact chunk_ends _ hsize
  unfold turn
  rw [hstate]
  simp only [turnPayload]
  rw [if_neg (by omega), if_neg hsize, hroom, List.take_left' rfl, List.drop_left' rfl,
    if_neg (Nat.not_le.mpr hlength), if_pos hends]

end Payloads

/-! ## Messages -/

theorem packetFind_eq {packets : Fin 8 → InPacket} {cid : Nat} {i : Fin 8}
    (hi : (packets i).header.cid = cid) (honly : ∀ j, (packets j).header.cid = cid → j = i) :
    packetFind packets cid = some i := by
  cases hfind : packetFind packets cid with
  | none => exact absurd hi (packetFind_none hfind i)
  | some j => rw [honly j (packetFind_some hfind)]

theorem packetOf_eq {packets : Fin 8 → InPacket} {cid : Nat} {i : Fin 8} (fmt : ChunkType)
    (hi : (packets i).header.cid = cid) (honly : ∀ j, (packets j).header.cid = cid → j = i) :
    packetOf packets fmt cid = some i := by
  unfold packetOf
  rw [packetFind_eq hi honly]

/-- The extended timestamp of a chunk, where its packet has one. -/
def packetTimestampBytes (p : InPacket) : List UInt8 :=
  if p.header.timestamp = extendedTimestampMark then chunkExtendedTimestampWrite p.delta else []

/-- A reader at the start of a chunk of a message of `total` bytes. -/
structure Collects (r : ChunkReader σ) (i : Fin 8) (total : Nat) : Prop where
  state : r.parser = .payload i
  size : r.inChunkSize ≠ 0
  cid : validCid (r.packets i).header.cid
  only : ∀ j, (r.packets j).header.cid = (r.packets i).header.cid → j = i
  atChunk : (r.packets i).payload.length % r.inChunkSize = 0
  length : (r.packets i).header.length = total
  capacity : (r.packets i).capacity ≠ 0
  fits : total ≤ (r.packets i).capacity
  timestamp : (r.packets i).header.timestamp ≤ extendedTimestampMark
  delta : (r.packets i).delta < 4294967296

/-- The header of a chunk that goes on with a message changes nothing but the type. -/
theorem chunkRead_next {r : ChunkReader σ} {i : Fin 8} {rest : List UInt8}
    (hinit : r.parser = .init) (hcid : validCid (r.packets i).header.cid)
    (honly : ∀ j, (r.packets j).header.cid = (r.packets i).header.cid → j = i)
    (htimestamp : (r.packets i).header.timestamp ≤ extendedTimestampMark)
    (hdelta : (r.packets i).delta < 4294967296) (hpayload : (r.packets i).payload ≠ [])
    (hrest : rest ≠ []) :
    chunkRead handler r (chunkBasicHeaderWrite .type3 (r.packets i).header.cid
        ++ packetTimestampBytes (r.packets i) ++ rest)
      = chunkRead handler
          { r with
            packets := Function.update r.packets i
              { r.packets i with header := { (r.packets i).header with fmt := .type3 } }
            parser := .payload i } rest := by
  have hlength : (packetTimestampBytes (r.packets i)).length
      = if (r.packets i).header.timestamp = extendedTimestampMark then 4 else 0 := by
    unfold packetTimestampBytes chunkExtendedTimestampWrite
    split <;> simp
  have hheader : chunkMessageHeaderRead []
      { (r.packets i).header with cid := (r.packets i).header.cid, fmt := .type3 }
        = { (r.packets i).header with fmt := .type3 } := rfl
  refine ((congrArg _ (by rw [List.append_nil])).trans (chunkRead_header hinit hcid
    (packetOf_eq .type3 rfl honly) rfl hheader htimestamp rfl hlength rfl ?_ hrest)).trans ?_
  · intro hmark _
    have hdelta' : (r.packets i).delta < 256 ^ 4 := hdelta
    unfold packetTimestampBytes chunkExtendedTimestampWrite
    simp only at hmark
    rw [if_pos hmark, if_pos hmark, beValue_beBytes, Nat.mod_eq_of_lt hdelta']
  · unfold headerPacket
    simp only [if_neg hpayload]

end Headers

/-- A reader behind a message of its packet `i`. -/
def received (r : ChunkReader (List RtmpMessage)) (i : Fin 8) (fmt : ChunkType)
    (inChunkSize : Nat) (payload : List UInt8) : ChunkReader (List RtmpMessage) where
  inChunkSize := inChunkSize
  packets := Function.update r.packets i
    { r.packets i with header := { (r.packets i).header with fmt }, payload := [] }
  parser := .init
  app := r.app
    ++ [ChunkHeader.message { (r.packets i).header with timestamp := (r.packets i).clock } payload]

theorem recordHandler_ok (header : ChunkHeader) {payload : List UInt8} {size size' : Nat}
    (hafter : chunkSizeAfter header.type payload size = .ok size') (messages : List RtmpMessage) :
    recordHandler header payload size messages
      = .ok (size', messages ++ [header.message payload]) := by
  unfold recordHandler
  rw [hafter]

section Rest

variable {r : ChunkReader (List RtmpMessage)} {i : Fin 8} {back rest : List UInt8}

theorem chunkRead_lastChunk (hr : Collects r i ((r.packets i).payload ++ back).length)
    (hback : back ≠ []) (hle : back.length ≤ r.inChunkSize) {size : Nat}
    (hafter : chunkSizeAfter (r.packets i).header.type ((r.packets i).payload ++ back)
      r.inChunkSize = .ok size) :
    chunkRead recordHandler r (back ++ rest)
      = chunkRead recordHandler
          (received r i (r.packets i).header.fmt size ((r.packets i).payload ++ back)) rest := by
  have hchunk := hr.atChunk
  have hran := recordHandler_ok { (r.packets i).header with timestamp := (r.packets i).clock }
    hafter r.app
  exact chunkRead_turn (by simp [hback]) (turn_payload_last hr.state hr.size hr.capacity
    (hr.length ▸ hr.fits) hr.length.symm (by omega) hran)

/-- A reader behind a chunk of its packet `i`, and on the header of the next. -/
def goesOn (r : ChunkReader (List RtmpMessage)) (i : Fin 8) (piece : List UInt8) :
    ChunkReader (List RtmpMessage) :=
  { r with
    packets := Function.update r.packets i
      { r.packets i with
        header := { (r.packets i).header with fmt := .type3 }
        payload := (r.packets i).payload ++ piece } }

@[simp] theorem packets_goesOn (r : ChunkReader (List RtmpMessage)) (i : Fin 8)
    (piece : List UInt8) :
    (goesOn r i piece).packets i
      = { r.packets i with
          header := { (r.packets i).header with fmt := .type3 }
          payload := (r.packets i).payload ++ piece } := Function.update_self ..

theorem received_goesOn (r : ChunkReader (List RtmpMessage)) (i : Fin 8) (piece : List UInt8)
    (fmt : ChunkType) (size : Nat) (payload : List UInt8) :
    received (goesOn r i piece) i fmt size payload = received r i fmt size payload := by
  unfold received
  rw [packets_goesOn]
  simp only [goesOn, Function.update_idem]
  rfl

theorem Collects.goesOn {total : Nat} (hr : Collects r i total) {piece : List UInt8}
    (hpiece : piece.length = r.inChunkSize) : Collects (goesOn r i piece) i total where
  state := hr.state
  size := hr.size
  cid := by
    rw [packets_goesOn]
    exact hr.cid
  only := by
    intro j hj
    by_cases hji : j = i
    · exact hji
    · rw [packets_goesOn] at hj
      simp only [SeastarLive.goesOn, Function.update_of_ne hji] at hj
      exact hr.only j hj
  atChunk := by
    have hchunk := hr.atChunk
    rw [packets_goesOn]
    simp only [SeastarLive.goesOn, List.length_append, hpiece, Nat.add_mod_right, hchunk]
  length := by
    rw [packets_goesOn]
    exact hr.length
  capacity := by
    rw [packets_goesOn]
    exact hr.capacity
  fits := by
    rw [packets_goesOn]
    exact hr.fits
  timestamp := by
    rw [packets_goesOn]
    exact hr.timestamp
  delta := by
    rw [packets_goesOn]
    exact hr.delta

theorem chunkRead_moreChunk (hr : Collects r i ((r.packets i).payload ++ back).length)
    (hlt : r.inChunkSize < back.length) (hrest : rest ≠ []) :
    chunkRead recordHandler r (back.take r.inChunkSize
        ++ (chunkBasicHeaderWrite .type3 (r.packets i).header.cid
          ++ packetTimestampBytes (r.packets i) ++ rest))
      = chunkRead recordHandler (goesOn r i (back.take r.inChunkSize)) rest := by
  have hpiece : (back.take r.inChunkSize).length = r.inChunkSize :=
    List.length_take_of_le (Nat.le_of_lt hlt)
  have hsize := hr.size
  have hchunk := hr.atChunk
  have hne : back.take r.inChunkSize ≠ [] := by
    rw [← List.length_pos_iff, hpiece]
    exact Nat.pos_of_ne_zero hsize
  have hshort : ((r.packets i).payload ++ back.take r.inChunkSize).length
      < (r.packets i).header.length := by
    rw [hr.length, List.length_append, List.length_append, hpiece]
    omega
  let p : InPacket :=
    { r.packets i with payload := (r.packets i).payload ++ back.take r.inChunkSize }
  let r1 : ChunkReader (List RtmpMessage) :=
    { r with packets := Function.update r.packets i p, parser := .init }
  have hp : r1.packets i = p := Function.update_self ..
  have honly : ∀ j, (r1.packets j).header.cid = (r1.packets i).header.cid → j = i := by
    intro j hj
    by_cases hji : j = i
    · exact hji
    · rw [hp] at hj
      simp only [r1, Function.update_of_ne hji] at hj
      exact hr.only j hj
  have hstep1 : chunkRead recordHandler r (back.take r.inChunkSize
        ++ (chunkBasicHeaderWrite .type3 (r.packets i).header.cid
          ++ packetTimestampBytes (r.packets i) ++ rest))
      = chunkRead recordHandler r1 (chunkBasicHeaderWrite .type3 (r.packets i).header.cid
          ++ packetTimestampBytes (r.packets i) ++ rest) :=
    chunkRead_turn (by simp [hne])
      (turn_payload_more hr.state hsize (hr.length ▸ hr.fits) hshort (by omega))
  have hstep2 : chunkRead recordHandler r1 (chunkBasicHeaderWrite .type3 (r1.packets i).header.cid
          ++ packetTimestampBytes (r1.packets i) ++ rest)
      = chunkRead recordHandler
          { r1 with
            packets := Function.update r1.packets i
              { r1.packets i with header := { (r1.packets i).header with fmt := .type3 } }
            parser := .payload i } rest :=
    chunkRead_next rfl (hp ▸ hr.cid) honly (hp ▸ hr.timestamp) (hp ▸ hr.delta)
      (by rw [hp]; simp [p, hne]) hrest
  rw [hp] at hstep2
  rw [hstep1]
  refine hstep2.trans ?_
  simp only [goesOn, r1, p, Function.update_idem, hr.state]

end Rest

/-- A reader on the rest of a message. The induction is on the chunks that are left. -/
theorem chunkRead_rest (fuel : Nat) :
    ∀ {r : ChunkReader (List RtmpMessage)} {i : Fin 8} {back rest : List UInt8} {size : Nat},
      Collects r i ((r.packets i).payload ++ back).length → back ≠ [] →
      (back.drop r.inChunkSize).length ≤ fuel →
      chunkSizeAfter (r.packets i).header.type ((r.packets i).payload ++ back) r.inChunkSize
        = .ok size →
      ∃ fmt, chunkRead recordHandler r (back.take r.inChunkSize
          ++ chunkBytes (chunkWriteLoop r.inChunkSize
            (chunkBasicHeaderWrite .type3 (r.packets i).header.cid
              ++ packetTimestampBytes (r.packets i)) fuel
            (chunkBasicHeaderWrite .type3 (r.packets i).header.cid
              ++ packetTimestampBytes (r.packets i)) (back.drop r.inChunkSize)) ++ rest)
        = chunkRead recordHandler (received r i fmt size ((r.packets i).payload ++ back)) rest := by
  induction fuel with
  | zero =>
      intro r i back rest size hr hback hfuel hafter
      have hle : back.length ≤ r.inChunkSize := by
        simp only [List.length_drop] at hfuel
        omega
      refine ⟨(r.packets i).header.fmt, ?_⟩
      rw [List.take_of_length_le hle, List.drop_of_length_le hle, chunkWriteLoop_nil,
        chunkBytes_nil, List.append_nil]
      exact chunkRead_lastChunk hr hback hle hafter
  | succ fuel ih =>
      intro r i back rest size hr hback hfuel hafter
      rcases Nat.lt_or_ge r.inChunkSize back.length with hlt | hle
      · have hrest : back.drop r.inChunkSize ≠ [] := by
          rw [← List.length_pos_iff, List.length_drop]
          omega
        have hpiece : (back.take r.inChunkSize).length = r.inChunkSize :=
          List.length_take_of_le (Nat.le_of_lt hlt)
        have hsum : (r.packets i).payload ++ back.take r.inChunkSize ++ back.drop r.inChunkSize
            = (r.packets i).payload ++ back := by
          rw [List.append_assoc, List.take_append_drop]
        have hsize := Nat.pos_of_ne_zero hr.size
        have hmore := hr.goesOn hpiece
        rw [← hsum] at hmore hafter
        have hnext := @ih (goesOn r i (back.take r.inChunkSize)) i (back.drop r.inChunkSize) rest
          size
        rw [packets_goesOn] at hnext
        obtain ⟨fmt, hread⟩ := hnext hmore hrest (by
          simp only [goesOn, List.length_drop] at hfuel ⊢
          omega) hafter
        refine ⟨fmt, ?_⟩
        rw [hsum, received_goesOn] at hread
        refine Eq.trans ?_ hread
        have hloop : ∀ next, chunkWriteLoop r.inChunkSize next (fuel + 1) next
            (back.drop r.inChunkSize)
              = ⟨next, (back.drop r.inChunkSize).take r.inChunkSize⟩
                :: chunkWriteLoop r.inChunkSize next fuel next
                    ((back.drop r.inChunkSize).drop r.inChunkSize) :=
          fun _ => if_neg hrest
        rw [hloop, chunkBytes_cons]
        have htail : ∀ tail, (back.drop r.inChunkSize).take r.inChunkSize ++ tail ≠ [] := by
          intro tail
          simp [hrest, hr.size]
        have hfirst := fun tail => chunkRead_moreChunk hr hlt (htail tail)
        simp only [List.append_assoc] at hfirst ⊢
        exact hfirst _
      · refine ⟨(r.packets i).header.fmt, ?_⟩
        rw [List.take_of_length_le hle, List.drop_of_length_le hle, chunkWriteLoop_nil,
          chunkBytes_nil, List.append_nil]
        exact chunkRead_lastChunk hr hback hle hafter

/-- The clock of a packet on the first chunk of a message. -/
def clockAfter (clock : Nat) (h : ChunkHeader) : Nat :=
  match h.fmt with
  | .type0 => h.timestamp
  | _ => (clock + h.timestamp) % 4294967296

/-- A packet that takes the header of a message. -/
theorem headerPacket_begin {p : InPacket} (hpayload : p.payload = []) (header : ChunkHeader)
    (timestamp : Nat) :
    let q := headerPacket p header timestamp
    q.header = header ∧ q.delta = timestamp ∧ q.payload = []
      ∧ q.clock = clockAfter p.clock { header with timestamp }
      ∧ q.capacity ≠ 0 ∧ header.length ≤ q.capacity := by
  unfold headerPacket InPacket.begin InPacket.alloc clockAfter
  simp only [if_pos hpayload]
  split
  · exact ⟨rfl, rfl, hpayload, rfl, by simp, by simp⟩
  · rename_i hcapacity
    exact ⟨rfl, rfl, hpayload, rfl, by simp only at hcapacity ⊢; omega,
      by simp only at hcapacity ⊢; omega⟩

/-- The reader behind the header of a message. -/
def headed (r : ChunkReader (List RtmpMessage)) (i : Fin 8) (h : ChunkHeader) :
    ChunkReader (List RtmpMessage) :=
  { r with
    packets := Function.update r.packets i
      (headerPacket (r.packets i) ((r.packets i).header.afterChunk h) h.timestamp)
    parser := .payload i }

/-- What a reader needs to know of the message before to read the next on its packet `i`. -/
structure Reads (r : ChunkReader (List RtmpMessage)) (i : Fin 8) (h : ChunkHeader)
    (payload : List UInt8) : Prop where
  state : r.parser = .init
  size : r.inChunkSize ≠ 0
  cid : validCid h.cid
  packet : packetOf r.packets h.fmt h.cid = some i
  only : ∀ j, (r.packets j).header.cid = h.cid → j = i
  idle : (r.packets i).payload = []
  nonempty : payload ≠ []
  length : ((r.packets i).header.afterChunk h).length = payload.length
  /-- The fields fit, and the packet knows whether the timestamp is extended. -/
  fits : h.length < 16777216 ∧ h.streamId < 4294967296 ∧ h.timestamp < 4294967296
  timestamp : ((r.packets i).header.afterChunk h).timestamp = min h.timestamp extendedTimestampMark
  repeated : h.fmt = .type3 → h.timestamp < extendedTimestampMark

theorem afterChunk_fmt (header h : ChunkHeader) :
    (header.afterChunk h).fmt = h.fmt ∧ (header.afterChunk h).cid = h.cid := by
  unfold ChunkHeader.afterChunk
  cases h.fmt <;> simp

theorem Reads.collects {r : ChunkReader (List RtmpMessage)} {i : Fin 8} {h : ChunkHeader}
    {payload : List UInt8} (hr : Reads r i h payload) :
    Collects (headed r i h) i payload.length := by
  obtain ⟨hheader, hdelta, hpayload, -, hcapacity, hfits⟩ :=
    headerPacket_begin hr.idle ((r.packets i).header.afterChunk h) h.timestamp
  have hp : (headed r i h).packets i
      = headerPacket (r.packets i) ((r.packets i).header.afterChunk h) h.timestamp :=
    Function.update_self ..
  have hcid := (afterChunk_fmt (r.packets i).header h).2
  refine ⟨rfl, hr.size, ?_, ?_, ?_, ?_, ?_, ?_, ?_, ?_⟩ <;> rw [hp]
  · rw [hheader, hcid]
    exact hr.cid
  · intro j hj
    by_cases hji : j = i
    · exact hji
    · rw [hheader, hcid] at hj
      simp only [headed, Function.update_of_ne hji] at hj
      exact hr.only j hj
  · rw [hpayload]
    exact Nat.zero_mod _
  · rw [hheader]
    exact hr.length
  · exact hcapacity
  · exact hr.length ▸ hfits
  · rw [hheader, hr.timestamp]
    exact Nat.min_le_right _ _
  · rw [hdelta]
    exact hr.fits.2.2

/-- The chunks behind the first have the header that the reader expects. -/
theorem Reads.nextHeader {r : ChunkReader (List RtmpMessage)} {i : Fin 8} {h : ChunkHeader}
    {payload : List UInt8} (hr : Reads r i h payload) :
    nextHeaderBytes h = chunkBasicHeaderWrite .type3 ((headed r i h).packets i).header.cid
      ++ packetTimestampBytes ((headed r i h).packets i) := by
  obtain ⟨hheader, hdelta, -⟩ :=
    headerPacket_begin hr.idle ((r.packets i).header.afterChunk h) h.timestamp
  have hp : (headed r i h).packets i
      = headerPacket (r.packets i) ((r.packets i).header.afterChunk h) h.timestamp :=
    Function.update_self ..
  unfold nextHeaderBytes packetTimestampBytes extendedTimestampBytes
  rw [hp, hheader, hdelta, (afterChunk_fmt _ h).2, hr.timestamp]
  congr 1
  split <;> split <;> first | rfl | omega

/-- A reader on the header of a message. -/
theorem Reads.header {r : ChunkReader (List RtmpMessage)} {i : Fin 8} {h : ChunkHeader}
    {payload : List UInt8} (hr : Reads r i h payload) {rest : List UInt8} (hrest : rest ≠ []) :
    chunkRead recordHandler r (firstHeaderBytes h ++ rest)
      = chunkRead recordHandler (headed r i h) rest := by
  obtain ⟨hlength, hstream, htimestamp⟩ := hr.fits
  have hread := chunkMessageHeaderRead_write (r.packets i).header h hlength hstream []
  rw [List.append_nil] at hread
  have hfmt := (afterChunk_fmt (r.packets i).header h).1
  have hextended : (extendedTimestampBytes h).length
      = if ((r.packets i).header.afterChunk h).timestamp = extendedTimestampMark then 4 else 0 := by
    rw [hr.timestamp]
    unfold extendedTimestampBytes chunkExtendedTimestampWrite
    split <;> split <;> first | omega | simp
  have hvalue : h.timestamp
      = if ((r.packets i).header.afterChunk h).timestamp = extendedTimestampMark then
          beValue (extendedTimestampBytes h)
        else ((r.packets i).header.afterChunk h).timestamp := by
    have hfits : h.timestamp < 256 ^ 4 := htimestamp
    rw [hr.timestamp]
    unfold extendedTimestampBytes chunkExtendedTimestampWrite
    split
    · rw [if_pos (by omega), beValue_beBytes, Nat.mod_eq_of_lt hfits]
    · omega
  refine chunkRead_header hr.state hr.cid hr.packet (length_chunkMessageHeaderWrite h) hread ?_ hfmt
    hextended hvalue ?_ hrest
  · rw [hr.timestamp]
    exact Nat.min_le_right _ _
  · intro hmark htype
    have hshort := hr.repeated htype
    rw [hr.timestamp] at hmark
    omega

/-- A reader on the chunks of a message. -/
theorem chunkRead_message {r : ChunkReader (List RtmpMessage)} {i : Fin 8} {h : ChunkHeader}
    {payload : List UInt8} (hr : Reads r i h payload) {size : Nat}
    (hafter : chunkSizeAfter ((r.packets i).header.afterChunk h).type payload r.inChunkSize
      = .ok size) (rest : List UInt8) :
    ∃ fmt, chunkRead recordHandler r (chunkBytes (chunkWriteLoop r.inChunkSize (nextHeaderBytes h)
        payload.length (firstHeaderBytes h) payload) ++ rest)
      = chunkRead recordHandler (received (headed r i h) i fmt size payload) rest := by
  have hpos := List.length_pos_iff.mpr hr.nonempty
  have hsize := Nat.pos_of_ne_zero hr.size
  obtain ⟨hheader, -, hpayload, -⟩ :=
    headerPacket_begin hr.idle ((r.packets i).header.afterChunk h) h.timestamp
  have hp : (headed r i h).packets i
      = headerPacket (r.packets i) ((r.packets i).header.afterChunk h) h.timestamp :=
    Function.update_self ..
  have hidle : ((headed r i h).packets i).payload ++ payload = payload := by
    rw [hp, hpayload, List.nil_append]
  have hafter' : chunkSizeAfter ((headed r i h).packets i).header.type
      (((headed r i h).packets i).payload ++ payload) r.inChunkSize = .ok size := by
    rw [hidle, hp, hheader]
    exact hafter
  have hcollects := hr.collects
  rw [← congrArg List.length hidle] at hcollects
  obtain ⟨fmt, hrest⟩ := @chunkRead_rest (payload.length - 1) (headed r i h) i payload rest size
    hcollects hr.nonempty (by
      simp only [headed, List.length_drop]
      omega) hafter'
  rw [hidle, ← hr.nextHeader] at hrest
  refine ⟨fmt, Eq.trans ?_ hrest⟩
  have hloop : chunkWriteLoop r.inChunkSize (nextHeaderBytes h) payload.length (firstHeaderBytes h)
      payload
        = ⟨firstHeaderBytes h, payload.take r.inChunkSize⟩
          :: chunkWriteLoop r.inChunkSize (nextHeaderBytes h) (payload.length - 1)
              (nextHeaderBytes h) (payload.drop r.inChunkSize) := by
    obtain ⟨n, hn⟩ := Nat.exists_eq_add_of_lt hpos
    rw [show payload.length = n + 1 by omega]
    exact if_neg hr.nonempty
  rw [hloop, chunkBytes_cons]
  have hne : ∀ tail, payload.take r.inChunkSize ++ tail ≠ [] := by
    simp [hr.nonempty, hr.size]
  have hfirst := fun tail => hr.header (hne tail)
  simp only [List.append_assoc]
  exact hfirst _

end SeastarLive
