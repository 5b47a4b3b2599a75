/-
SeastarLive.Rtmp.StopOnce — what a connection sends when it stops.

`stop_once` with `flush_out` and `on_write_buffers`, in its two copies:
`connection` of `src/rtmp/rtmp.cc` and `client::connection` of
`src/rtmp/client.cc`, and the messages that `rtmp_server_stop` and
`rtmp_client_stop` of `3rd/librtmp` queue. Any number of flushes may be in
progress; those of the client write one after the other, under a lock.

Both copies set `_done` before they flush, and a flush that finds it set drops
its buffers: nothing that is in the cache at a stop is ever written
(`stopOnce_lost`).

* The commands are written field by field. That they are those of `Rtmp/InvokeHandler`, and the
  chunks those of `Rtmp/ChunkWrite`, is proved there.
* A buffer carries the number of its `on_send_new_buffer`, which no step
  reads, so that two buffers with the same bytes can be told apart.
* A write that throws ends its loop and is not a step here.
-/
import SeastarLive.Flv.Tag
import SeastarLive.Rtmp.ServerOutput

namespace SeastarLive

/-! ## Messages -/

/-- The bytes of an ASCII string. -/
def asciiBytes (s : String) : List UInt8 := s.toList.map fun c => UInt8.ofNat c.toNat

/-- `AMFWriteString16`. -/
def amfWriteString16 (s : List UInt8) : List UInt8 :=
  [UInt8.ofNat (s.length / 256), UInt8.ofNat s.length] ++ s

/-- `AMFWriteString`. -/
def amfWriteString (s : List UInt8) : List UInt8 :=
  if s.length < 65536 then 2 :: amfWriteString16 s
  else 12 :: (Flv.beWriteUint32 s.length ++ s)

/-- The bits of a `double` with a natural value below 2^53. -/
def doubleBits (n : Nat) : Nat :=
  if n = 0 then 0
  else (n.log2 + 1023) * 4503599627370496
    + (n - Nat.pow 2 n.log2) * (4503599627370496 / Nat.pow 2 n.log2)

/-- `AMFWriteDouble`. -/
def amfWriteDouble (n : Nat) : List UInt8 :=
  0 :: (Flv.beWriteUint32 (doubleBits n / 4294967296)
    ++ Flv.beWriteUint32 (doubleBits n % 4294967296))

/-- `AMFWriteNamedString`. -/
def amfWriteNamedString (name value : List UInt8) : List UInt8 :=
  amfWriteString16 name ++ amfWriteString value

/-- `rtmp_netstream_onstatus`. -/
def netstreamOnstatus (transaction : Nat) (level code description : List UInt8) : List UInt8 :=
  amfWriteString (asciiBytes "onStatus") ++ amfWriteDouble transaction ++ [5] ++ [3]
    ++ amfWriteNamedString (asciiBytes "level") level
    ++ amfWriteNamedString (asciiBytes "code") code
    ++ amfWriteNamedString (asciiBytes "description") description ++ [0, 0, 9]

/-- `rtmp_netstream_fcunpublish`. -/
def netstreamFcunpublish (transaction : Nat) (streamName : List UInt8) : List UInt8 :=
  amfWriteString (asciiBytes "FCUnpublish") ++ amfWriteDouble transaction ++ [5]
    ++ amfWriteString streamName

/-- `rtmp_netstream_delete_stream`. -/
def netstreamDeleteStream (transaction streamId : Nat) : List UInt8 :=
  amfWriteString (asciiBytes "deleteStream") ++ amfWriteDouble transaction ++ [5]
    ++ amfWriteDouble streamId

/-- What a stop reads of `rtmp_server_t` or `rtmp_client_t`. -/
structure StopContext where
  streamId : Nat
  /-- `out_chunk_size`. -/
  chunkSize : Nat
  /-- `rtmp_client_t::publish`: 0 publishes. -/
  publish : Nat := 0
  streamName : List UInt8 := []
  chunkSize_pos : 0 < chunkSize := by decide

/-- The header of a message of type 20 on chunk stream 3. -/
def controlHeader (streamId length : Nat) : List UInt8 :=
  [3] ++ Flv.be24 0 ++ Flv.be24 length ++ [20] ++ (Flv.beWriteUint32 streamId).reverse

/-- The loop of `rtmp_chunk_write`, with the header of the next chunk; the chunks behind the
    first have the header of a continuation. -/
def chunkLoop (size : Nat) : Nat → List UInt8 → List UInt8 → List Chunk
  | 0, _, _ => []
  | fuel + 1, header, payload =>
      if payload = [] then []
      else ⟨header, payload.take size⟩ :: chunkLoop size fuel [0xC3] (payload.drop size)

/-- `rtmp_server_send_control` and `rtmp_client_send_control`. -/
def sendControl (ctx : StopContext) (payload : List UInt8) : List Chunk :=
  chunkLoop ctx.chunkSize payload.length (controlHeader ctx.streamId payload.length) payload

/-- The two copies of the code. -/
inductive ConnectionCopy
  | server
  | client
deriving DecidableEq

/-- The messages of `rtmp_server_stop` and `rtmp_client_stop`. -/
def stopMessages (ctx : StopContext) : ConnectionCopy → List (List UInt8)
  | .server =>
      [netstreamOnstatus 0 (asciiBytes "status") (asciiBytes "NetStream.Play.Stop") []]
  | .client =>
      (if ctx.publish = 0 then [netstreamFcunpublish 0 ctx.streamName] else [])
        ++ [netstreamDeleteStream 0 ctx.streamId]

/-- What a stop hands to `rtmp_handler_send`. -/
def stopChunks (ctx : StopContext) (copy : ConnectionCopy) : List Chunk :=
  (stopMessages ctx copy).flatMap (sendControl ctx)

/-- The chunks carry the message: a chunk has at least one byte of it. -/
theorem chunkLoop_payload {size : Nat} (hsize : 0 < size) (fuel : Nat) :
    ∀ (header payload : List UInt8), payload.length ≤ fuel →
      (chunkLoop size fuel header payload).flatMap Chunk.payload = payload := by
  induction fuel with
  | zero =>
      intro header payload hfuel
      have hnil : payload = [] := List.length_eq_zero_iff.mp (by omega)
      simp [chunkLoop, hnil]
  | succ fuel ih =>
      intro header payload hfuel
      simp only [chunkLoop]
      split
      · rename_i hnil
        simp [hnil]
      · rename_i hne
        have hpos := List.length_pos_iff.mpr hne
        have hrest := ih [0xC3] (payload.drop size) (by simp only [List.length_drop]; omega)
        rw [List.flatMap_cons, hrest, List.take_append_drop]

/-- A message that is not empty has a first chunk, with its header. -/
theorem sendControl_first (ctx : StopContext) {payload : List UInt8} (h : payload ≠ []) :
    ∃ chunk ∈ sendControl ctx payload, chunk.header ≠ [] := by
  cases payload with
  | nil => exact absurd rfl h
  | cons b rest =>
      let header := controlHeader ctx.streamId (b :: rest).length
      have hheader : header ≠ [] := by simp [header, controlHeader]
      exact ⟨⟨header, (b :: rest).take ctx.chunkSize⟩, by simp [sendControl, chunkLoop, header],
        hheader⟩

/-- Every stop queues something. -/
theorem stopChunks_buffers_ne_nil (ctx : StopContext) (copy : ConnectionCopy) :
    (stopChunks ctx copy).flatMap Chunk.buffers ≠ [] := by
  have hmessage : ∃ message ∈ stopMessages ctx copy, message ≠ [] := by
    cases copy with
    | server =>
        refine ⟨_, List.mem_singleton_self _, ?_⟩
        simp [netstreamOnstatus]
    | client =>
        refine ⟨_, List.mem_append_right _ (List.mem_singleton_self _), ?_⟩
        simp [netstreamDeleteStream]
  obtain ⟨message, hmem, hne⟩ := hmessage
  obtain ⟨chunk, hchunk, hheader⟩ := sendControl_first ctx hne
  intro hnil
  have hbuffers := List.flatMap_eq_nil_iff.mp hnil chunk
    (List.mem_flatMap.mpr ⟨message, hmem, hchunk⟩)
  simp [Chunk.buffers, hheader] at hbuffers

/-! ## Connections -/

/-- A buffer with the number of its `on_send_new_buffer`. -/
structure OutBuffer where
  serial : Nat
  bytes : List UInt8
deriving DecidableEq

/-- The output side of a connection. -/
structure ConnectionOutput where
  /-- `_data_output_cache`. -/
  cache : List OutBuffer := []
  /-- What each flush in progress has still to write, in the order in which they started. -/
  flights : List (List OutBuffer) := []
  /-- What was written to `_write_buf`. -/
  written : List OutBuffer := []
  /-- `_started` of the server; the client is in `CREATE_STREAM` or `START`. -/
  streaming : Bool := false
  /-- `_stopped`. -/
  stopped : Bool := false
  /-- `_done`. -/
  done : Bool := false
  /-- The streams are closed. -/
  closed : Bool := false
  /-- The number of the next buffer. -/
  next : Nat := 0

inductive ConnectionEvent
  /-- `rtmp_handler_send`. -/
  | send (chunk : Chunk)
  /-- `flush_out` is called. -/
  | flush
  /-- The flush in place `i` comes to its next buffer. -/
  | write (i : Nat)
  /-- The flush in place `i` returns. -/
  | finish (i : Nat)
  /-- The connection starts streaming, or the client ends it. -/
  | setStreaming (b : Bool)
  /-- The client's `update_state` sets `_stopped`. -/
  | setStopped
  /-- The server's `read_one` sets `_done`. -/
  | setDone
  | stopOnce (ctx : StopContext)
  /-- `close_streams`, behind a `stop_once` that has returned. -/
  | closeStreams

namespace ConnectionOutput

/-- `on_send_new_buffer`. -/
def onSendNewBuffer (w : ConnectionOutput) (bytes : List UInt8) : ConnectionOutput :=
  { w with cache := w.cache ++ [⟨w.next, bytes⟩], next := w.next + 1 }

/-- `rtmp_handler_send` for some chunks. -/
def handlerSend (w : ConnectionOutput) (chunks : List Chunk) : ConnectionOutput :=
  (chunks.flatMap Chunk.buffers).foldl onSendNewBuffer w

/-- `flush_out`: both copies move the cache out, and drop it when the connection is done. -/
def flushOut (w : ConnectionOutput) : ConnectionOutput :=
  if w.cache.isEmpty || w.done then { w with cache := [] }
  else { w with cache := [], flights := w.flights ++ [w.cache] }

/-- One turn of `on_write_buffers`; the server looks at `_done` again. -/
def writeBuffer (w : ConnectionOutput) (copy : ConnectionCopy) (i : Nat) : ConnectionOutput :=
  match w.flights[i]? with
  | some (buf :: bufs) =>
      { w with
        flights := w.flights.set i bufs
        written := if copy = .server ∧ w.done = true then w.written else w.written ++ [buf] }
  | _ => w

/-- The guard of `stop_once`. -/
def performsStop (w : ConnectionOutput) : Bool := w.streaming && !w.stopped

/-- `rtmp_server_stop` or `rtmp_client_stop`. -/
def queueStop (w : ConnectionOutput) (copy : ConnectionCopy) (ctx : StopContext) :
    ConnectionOutput := w.handlerSend (stopChunks ctx copy)

/-- `stop_once`. -/
def stopOnce (w : ConnectionOutput) (copy : ConnectionCopy) (ctx : StopContext) :
    ConnectionOutput :=
  if w.performsStop then
    { w.queueStop copy ctx with stopped := true, done := true }.flushOut
  else w

/-- A flush of the client writes while it holds the lock, so the oldest one does. -/
def holdsLock (copy : ConnectionCopy) (i : Nat) : Bool := copy == .server || i == 0

def Enabled (w : ConnectionOutput) (copy : ConnectionCopy) : ConnectionEvent → Prop
  | .write i => holdsLock copy i = true ∧ ∃ buf bufs, w.flights[i]? = some (buf :: bufs)
  | .finish i => holdsLock copy i = true ∧ w.flights[i]? = some []
  | .closeStreams => w.performsStop = false
  | _ => True

def step (w : ConnectionOutput) (copy : ConnectionCopy) :
    ConnectionEvent → Except Empty ConnectionOutput
  | .send chunk => .ok (w.handlerSend [chunk])
  | .flush => .ok w.flushOut
  | .write i => .ok (w.writeBuffer copy i)
  | .finish i => .ok { w with flights := w.flights.eraseIdx i }
  | .setStreaming b => .ok { w with streaming := b }
  | .setStopped => .ok { w with stopped := true }
  | .setDone => .ok { w with done := true }
  | .stopOnce ctx => .ok (w.stopOnce copy ctx)
  | .closeStreams => .ok { w with closed := true }

end ConnectionOutput

/-- The output side of a connection, in one of the two copies. -/
def connectionOutput (copy : ConnectionCopy) : Machine ConnectionOutput ConnectionEvent Empty where
  init := {}
  enabled w := w.Enabled copy
  step w := w.step copy

namespace ConnectionOutput

/-! ## Where buffers go -/

/-- What was taken out of the cache: written, or in a flush. -/
def Taken (w : ConnectionOutput) (b : OutBuffer) : Prop :=
  b ∈ w.written ∨ b ∈ w.flights.flatten

/-- What a step does with the buffers there are: they move from the cache to a flush, and from
    there to `_write_buf`, or are dropped. -/
structure Moves (w t : ConnectionOutput) : Prop where
  next : t.next = w.next
  cache : t.cache ⊆ w.cache
  taken : ∀ b, t.Taken b → w.Taken b ∨ t.cache = [] ∧ b ∈ w.cache

/-- A step that leaves the buffers alone. -/
theorem Moves.of_eq {w t : ConnectionOutput} (hnext : t.next = w.next)
    (hcache : t.cache = w.cache) (hflights : t.flights = w.flights)
    (hwritten : t.written = w.written) : w.Moves t where
  next := hnext
  cache := by
    rw [hcache]
    exact List.Subset.refl _
  taken b hb := by
    rw [Taken, hwritten, hflights] at hb
    exact .inl hb

theorem flushOut_moves (w : ConnectionOutput) : w.Moves w.flushOut := by
  unfold flushOut
  split
  · exact ⟨rfl, List.nil_subset _, fun b hb => .inl hb⟩
  · refine ⟨rfl, List.nil_subset _, ?_⟩
    intro b hb
    rcases hb with hb | hb
    · exact .inl (.inl hb)
    · rw [List.flatten_append, List.mem_append] at hb
      rcases hb with hb | hb
      · exact .inl (.inr hb)
      · exact .inr ⟨rfl, by simpa using hb⟩

theorem writeBuffer_moves (w : ConnectionOutput) (copy : ConnectionCopy) (i : Nat) :
    w.Moves (w.writeBuffer copy i) := by
  unfold writeBuffer
  split
  · rename_i buf bufs hflight
    have hmem : (buf :: bufs) ∈ w.flights := List.mem_of_getElem? hflight
    refine ⟨rfl, List.Subset.refl _, ?_⟩
    intro b hb
    refine .inl ?_
    rcases hb with hb | hb
    · dsimp only at hb
      split at hb
      · exact .inl hb
      · rcases List.mem_append.mp hb with hb | hb
        · exact .inl hb
        · rw [List.mem_singleton.mp hb]
          exact .inr (List.mem_flatten.mpr ⟨_, hmem, List.mem_cons_self⟩)
    · obtain ⟨flight, hflight, hin⟩ := List.mem_flatten.mp hb
      refine .inr (List.mem_flatten.mpr ?_)
      rcases List.mem_or_eq_of_mem_set hflight with hold | heq
      · exact ⟨flight, hold, hin⟩
      · rw [heq] at hin
        exact ⟨_, hmem, List.mem_cons_of_mem _ hin⟩
  · exact .of_eq rfl rfl rfl rfl

theorem finish_moves (w : ConnectionOutput) (i : Nat) :
    w.Moves { w with flights := w.flights.eraseIdx i } := by
  refine ⟨rfl, List.Subset.refl _, ?_⟩
  intro b hb
  refine .inl ?_
  rcases hb with hb | hb
  · exact .inl hb
  · obtain ⟨flight, hflight, hb⟩ := List.mem_flatten.mp hb
    exact .inr (List.mem_flatten.mpr ⟨flight, List.mem_of_mem_eraseIdx hflight, hb⟩)

/-- Every step queues some chunks and moves buffers. -/
theorem step_moves {w t : ConnectionOutput} {copy : ConnectionCopy} {a : ConnectionEvent}
    (h : w.step copy a = .ok t) : ∃ chunks, (w.handlerSend chunks).Moves t := by
  cases a <;> cases h
  case send chunk => exact ⟨[chunk], .of_eq rfl rfl rfl rfl⟩
  case flush => exact ⟨[], w.flushOut_moves⟩
  case write i => exact ⟨[], w.writeBuffer_moves copy i⟩
  case finish i => exact ⟨[], w.finish_moves i⟩
  case setStreaming b => exact ⟨[], .of_eq rfl rfl rfl rfl⟩
  case setStopped => exact ⟨[], .of_eq rfl rfl rfl rfl⟩
  case setDone => exact ⟨[], .of_eq rfl rfl rfl rfl⟩
  case stopOnce ctx =>
    unfold stopOnce
    split
    · refine ⟨stopChunks ctx copy, ?_⟩
      have hmoves := flushOut_moves { w.queueStop copy ctx with stopped := true, done := true }
      exact ⟨hmoves.next, hmoves.cache, hmoves.taken⟩
    · exact ⟨[], .of_eq rfl rfl rfl rfl⟩
  case closeStreams => exact ⟨[], .of_eq rfl rfl rfl rfl⟩

/-! ## Numbers -/

/-- Buffers are numbered in the order in which they are queued, and leave the cache together:
    what is in it came after everything that was taken out. -/
structure Numbered (w : ConnectionOutput) : Prop where
  cache : ∀ b ∈ w.cache, b.serial < w.next
  taken : ∀ b, w.Taken b → b.serial < w.next
  later : ∀ b ∈ w.cache, ∀ b', w.Taken b' → b'.serial < b.serial

theorem Numbered.onSendNewBuffer {w : ConnectionOutput} (hw : w.Numbered) (bytes : List UInt8) :
    (w.onSendNewBuffer bytes).Numbered where
  cache b hb := by
    rcases List.mem_append.mp hb with hb | hb
    · exact Nat.lt_succ_of_lt (hw.cache b hb)
    · rw [List.mem_singleton.mp hb]
      exact Nat.lt_succ_self _
  taken b hb := Nat.lt_succ_of_lt (hw.taken b hb)
  later b hb b' hb' := by
    rcases List.mem_append.mp hb with hb | hb
    · exact hw.later b hb b' hb'
    · rw [List.mem_singleton.mp hb]
      exact hw.taken b' hb'

theorem Numbered.handlerSend {w : ConnectionOutput} (hw : w.Numbered) (chunks : List Chunk) :
    (w.handlerSend chunks).Numbered := by
  unfold ConnectionOutput.handlerSend
  induction chunks.flatMap Chunk.buffers generalizing w with
  | nil => exact hw
  | cons bytes rest ih => exact ih (hw.onSendNewBuffer bytes)

theorem Numbered.moves {w t : ConnectionOutput} (hw : w.Numbered) (h : w.Moves t) :
    t.Numbered where
  cache b hb := by
    rw [h.next]
    exact hw.cache b (h.cache hb)
  taken b hb := by
    rw [h.next]
    rcases h.taken b hb with hb | ⟨-, hb⟩
    · exact hw.taken b hb
    · exact hw.cache b hb
  later b hb b' hb' := by
    rcases h.taken b' hb' with hb' | ⟨hempty, -⟩
    · exact hw.later b (h.cache hb) b' hb'
    · rw [hempty] at hb
      cases hb

theorem numbered_init : Numbered {} where
  cache b hb := by cases hb
  taken b hb := by
    rcases hb with hb | hb
    · cases hb
    · cases hb
  later b hb := by cases hb

theorem numbered_of_reachable {copy : ConnectionCopy} {w : ConnectionOutput}
    (hw : (connectionOutput copy).Reachable w) : w.Numbered := by
  refine hw.invariant numbered_init ?_
  intro w a t hw _ hstep
  obtain ⟨chunks, hmoves⟩ := step_moves hstep
  exact (hw.handlerSend chunks).moves hmoves

/-! ## Lost buffers -/

/-- Buffers that are nowhere any more, and never will be. -/
def Lost (bufs : List OutBuffer) (w : ConnectionOutput) : Prop :=
  ∀ b ∈ bufs, b.serial < w.next ∧ b ∉ w.cache ∧ ¬ w.Taken b

theorem Lost.onSendNewBuffer {bufs : List OutBuffer} {w : ConnectionOutput}
    (hw : w.Lost bufs) (bytes : List UInt8) : (w.onSendNewBuffer bytes).Lost bufs := by
  intro b hb
  obtain ⟨hnext, hcache, htaken⟩ := hw b hb
  refine ⟨Nat.lt_succ_of_lt hnext, ?_, htaken⟩
  intro hmem
  rcases List.mem_append.mp hmem with hmem | hmem
  · exact hcache hmem
  · -- a new buffer has a new number
    rw [List.mem_singleton.mp hmem] at hnext
    exact Nat.lt_irrefl _ hnext

theorem Lost.handlerSend {bufs : List OutBuffer} {w : ConnectionOutput} (hw : w.Lost bufs)
    (chunks : List Chunk) : (w.handlerSend chunks).Lost bufs := by
  unfold ConnectionOutput.handlerSend
  induction chunks.flatMap Chunk.buffers generalizing w with
  | nil => exact hw
  | cons bytes rest ih => exact ih (hw.onSendNewBuffer bytes)

theorem Lost.moves {bufs : List OutBuffer} {w t : ConnectionOutput} (hw : w.Lost bufs)
    (h : w.Moves t) : t.Lost bufs := by
  intro b hb
  obtain ⟨hnext, hcache, htaken⟩ := hw b hb
  refine ⟨by rw [h.next]; exact hnext, fun hmem => hcache (h.cache hmem), ?_⟩
  intro hmem
  rcases h.taken b hmem with hmem | ⟨-, hmem⟩
  · exact htaken hmem
  · exact hcache hmem

/-- A run keeps lost what is lost. -/
theorem Lost.steps {bufs : List OutBuffer} {copy : ConnectionCopy} {w t : ConnectionOutput}
    (hw : w.Lost bufs) (ht : (connectionOutput copy).Steps w t) : t.Lost bufs := by
  refine ht.invariant hw ?_
  intro w a t hw _ hstep
  obtain ⟨chunks, hmoves⟩ := step_moves hstep
  exact (hw.handlerSend chunks).moves hmoves

/-- With nothing in the cache any more, what was in it is lost. -/
theorem Numbered.lost_of_dropped {w t : ConnectionOutput} (hw : w.Numbered)
    (hnext : t.next = w.next) (hcache : t.cache = []) (hflights : t.flights = w.flights)
    (hwritten : t.written = w.written) : t.Lost w.cache := by
  intro b hb
  refine ⟨by rw [hnext]; exact hw.cache b hb, by rw [hcache]; exact List.not_mem_nil, ?_⟩
  intro htaken
  rw [Taken, hwritten, hflights] at htaken
  exact Nat.lt_irrefl _ (hw.later b hb b htaken)

/-! ## The stop -/

/-- A stop sets `_done`, so its own flush drops the cache. -/
theorem stopOnce_eq (copy : ConnectionCopy) {w : ConnectionOutput}
    (hstop : w.performsStop = true) (ctx : StopContext) :
    w.stopOnce copy ctx
      = { w.queueStop copy ctx with stopped := true, done := true, cache := [] } := by
  simp [stopOnce, hstop, flushOut]

theorem stopOnce_lost_now (copy : ConnectionCopy) {w : ConnectionOutput} (hw : w.Numbered)
    (hstop : w.performsStop = true) (ctx : StopContext) :
    (w.stopOnce copy ctx).Lost (w.queueStop copy ctx).cache := by
  rw [stopOnce_eq copy hstop]
  exact (hw.handlerSend (stopChunks ctx copy)).lost_of_dropped rfl rfl rfl rfl

/-- Queueing buffers adds that many to the cache. -/
theorem length_foldl_onSendNewBuffer (bufs : List (List UInt8)) (w : ConnectionOutput) :
    (bufs.foldl onSendNewBuffer w).cache.length = w.cache.length + bufs.length := by
  induction bufs generalizing w with
  | nil => rfl
  | cons bytes rest ih =>
      simp only [List.foldl_cons, ih, onSendNewBuffer, List.length_append, List.length_cons,
        List.length_nil]
      omega

/-- At a stop there is something in the cache. -/
theorem queueStop_ne_nil (w : ConnectionOutput) (copy : ConnectionCopy) (ctx : StopContext) :
    (w.queueStop copy ctx).cache ≠ [] := by
  have hbufs := List.length_pos_iff.mpr (stopChunks_buffers_ne_nil ctx copy)
  refine List.length_pos_iff.mp ?_
  rw [queueStop, handlerSend, length_foldl_onSendNewBuffer]
  omega

/-- The buffers in the cache at a stop, those of the stop among them, are written before the
    streams are closed. -/
def StopReachesPeer (copy : ConnectionCopy) (w : ConnectionOutput) (ctx : StopContext) : Prop :=
  ∀ t, (connectionOutput copy).Steps (w.stopOnce copy ctx) t → t.closed = true →
    ∀ buf ∈ (w.queueStop copy ctx).cache, buf ∈ t.written

/-- Behind a stop the streams may be closed. -/
theorem stopOnce_closes (copy : ConnectionCopy) {w : ConnectionOutput}
    (hstop : w.performsStop = true) (ctx : StopContext) :
    ∃ t, (connectionOutput copy).Steps (w.stopOnce copy ctx) t ∧ t.closed = true := by
  refine ⟨{ w.stopOnce copy ctx with closed := true },
    .step .refl (a := .closeStreams) ?_ rfl, rfl⟩
  rw [stopOnce_eq copy hstop]
  simp [connectionOutput, Enabled, performsStop]

/-- In both copies no stop reaches the peer: there is always something in the cache, and none
    of it is written, whatever happens then. -/
theorem stopOnce_lost (copy : ConnectionCopy) (w : ConnectionOutput)
    (hw : (connectionOutput copy).Reachable w) (hstop : w.performsStop = true)
    (ctx : StopContext) :
    ¬ StopReachesPeer copy w ctx ∧ (w.queueStop copy ctx).cache ≠ []
      ∧ ∀ t, (connectionOutput copy).Steps (w.stopOnce copy ctx) t →
        ∀ buf ∈ (w.queueStop copy ctx).cache, buf ∉ t.written := by
  have hlost := stopOnce_lost_now copy (numbered_of_reachable hw) hstop ctx
  have hnever : ∀ t, (connectionOutput copy).Steps (w.stopOnce copy ctx) t →
      ∀ buf ∈ (w.queueStop copy ctx).cache, buf ∉ t.written := by
    intro t ht buf hbuf hwritten
    exact (hlost.steps ht buf hbuf).2.2 (.inl hwritten)
  refine ⟨?_, w.queueStop_ne_nil copy ctx, hnever⟩
  intro hreaches
  obtain ⟨t, ht, hclosed⟩ := stopOnce_closes copy hstop ctx
  obtain ⟨buf, hbuf⟩ := List.exists_mem_of_ne_nil _ (w.queueStop_ne_nil copy ctx)
  exact hnever t ht buf hbuf (hreaches t ht hclosed buf hbuf)

/-! ## A stop -/

/-- A message stream with chunks of 128 bytes. -/
def someContext : StopContext where
  streamId := 1
  chunkSize := 128

theorem streaming_reachable (copy : ConnectionCopy) :
    (connectionOutput copy).Reachable { streaming := true } :=
  .step .init (a := .setStreaming true) trivial rfl

/-- `stopOnce_lost` for a server and a client that have just started. -/
theorem stopOnce_lost_started :
    ¬ StopReachesPeer .server { streaming := true } someContext
      ∧ ¬ StopReachesPeer .client { streaming := true } someContext :=
  ⟨(stopOnce_lost .server _ (streaming_reachable .server) rfl someContext).1,
    (stopOnce_lost .client _ (streaming_reachable .client) rfl someContext).1⟩

/-- A connection that has just started stops, and its streams are closed: nothing was
    written. -/
theorem stopOnce_writes_nothing :
    ¬ ∀ (copy : ConnectionCopy) (w : ConnectionOutput), (connectionOutput copy).Reachable w →
      w.performsStop = true → ∀ ctx, StopReachesPeer copy w ctx := by
  intro hall
  have hreaches := hall .server { streaming := true } (streaming_reachable .server) rfl
    someContext
  have hne := queueStop_ne_nil { streaming := true } .server someContext
  obtain ⟨buf, hbuf⟩ := List.exists_mem_of_ne_nil _ hne
  obtain ⟨t, ht, hclosed⟩ := stopOnce_closes .server (w := { streaming := true }) rfl someContext
  have hnumbered := numbered_of_reachable (streaming_reachable .server)
  have hlost := (stopOnce_lost_now .server hnumbered rfl someContext).steps ht buf hbuf
  exact hlost.2.2 (.inl (hreaches t ht hclosed buf hbuf))

end ConnectionOutput

end SeastarLive
