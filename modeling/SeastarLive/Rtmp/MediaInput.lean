/-
SeastarLive.Rtmp.MediaInput — media messages through an input stream.

`rtmp_handler_onscript`, `rtmp_handler_onvideo`, `rtmp_handler_onaudio` and
`flush_in` of `src/rtmp/rtmp.cc`, `media_data_source_impl` of
`src/rtmp/stream.hh` and `input_stream::read` of `src/rtmp/stream.cc`, with
the read loop of `rtmp::publish_session::start_with`, which stops at the end
of the stream. A run is any interleaving of the parser, the flush, the reader,
and whoever closes the stream or aborts the queue.

* The connection of a publisher puts nothing to its own `_output` before it
  closes, so `input_loop` alone flushes, one flush at a time.
* An empty packet ends the stream. The one of `close` and one made from an
  empty message look alike (`mediaInput_eof`).
* `reported` and `received` are records, read by no step.
-/
import SeastarLive.Rtmp.MediaOutput

namespace SeastarLive

/-- `packet::empty`. -/
def Packet.empty (pkt : Packet) : Bool := pkt.data.isEmpty

/-- The packet a handler makes of a message. -/
def rtmpHandler (type : PacketType) (payload : List UInt8) (timestamp : Nat) : Packet where
  type := type
  data := payload
  dts := timestamp

/-- The packets that are not empty. -/
def payloads (pkts : List Packet) : List Packet := pkts.filter fun pkt => !pkt.empty

/-- The input side of a connection with the stream that reads from it. -/
structure MediaInput (cap : Nat) where
  /-- `_media_input_cache`. -/
  cache : List Packet := []
  /-- What the flush in progress has still to push. -/
  flushing : List Packet := []
  /-- `_media_input`. -/
  queue : BoundedQueue Packet cap := {}
  /-- `_media_input.abort` was called. -/
  aborted : Bool := false
  /-- `media_data_source_impl::_closed`. -/
  closed : Bool := false
  /-- The empty packet of `close` waits for room. -/
  ending : Bool := false
  /-- `input_stream::_eof`. -/
  eof : Bool := false
  /-- A read waits for a packet. -/
  reading : Bool := false
  reported : List Packet := []
  received : List Packet := []

inductive InputEvent
  /-- The parser reports a message. -/
  | report (type : PacketType) (payload : List UInt8) (timestamp : Nat)
  /-- `flush_in`, with something in the cache. -/
  | flushIn
  /-- `push_eventually` of the flush returns. -/
  | push
  /-- The session calls `input_stream::read`. -/
  | read
  /-- `pop_eventually` of the read returns. -/
  | pop
  /-- `media_data_source_impl::close`. -/
  | close
  /-- `push_eventually` of the close returns. -/
  | finishClose
  /-- `queue::abort`. -/
  | abort
deriving DecidableEq

/-- The steps of the connection and its reader for the messages they have. -/
def InputEvent.isInternal : InputEvent → Bool
  | .flushIn => true
  | .push => true
  | .read => true
  | .pop => true
  | _ => false

namespace MediaInput

variable {cap : Nat}

/-- `on_receive_new_packet`. -/
def onReceiveNewPacket (s : MediaInput cap) (pkt : Packet) : MediaInput cap :=
  { s with cache := s.cache ++ [pkt], reported := s.reported ++ [pkt] }

/-- `flush_in` moves the cache out; its first push throws when the queue is aborted. -/
def flushIn (s : MediaInput cap) : MediaInput cap :=
  { s with cache := [], flushing := if s.aborted then [] else s.cache }

def push (s : MediaInput cap) : MediaInput cap :=
  match s.flushing with
  | [] => s
  | pkt :: flushing => { s with flushing, queue := s.queue.push pkt }

/-- `input_stream::read` over `media_data_source_impl::get`. -/
def read (s : MediaInput cap) : MediaInput cap :=
  if s.closed then { s with eof := true }
  else if s.aborted then s
  else { s with reading := true }

/-- The continuation of `read`; the session ignores an empty packet. -/
def pop (s : MediaInput cap) : MediaInput cap :=
  match s.queue.pop with
  | none => s
  | some (pkt, queue) =>
      { s with
        queue
        reading := false
        eof := pkt.empty
        received := s.received ++ payloads [pkt] }

/-- `media_data_source_impl::close`. -/
def close (s : MediaInput cap) : MediaInput cap :=
  if s.closed then s else { s with closed := true, ending := !s.aborted }

/-- `queue::abort` empties the queue, and whoever waits for it gets an exception. -/
def abort (s : MediaInput cap) : MediaInput cap :=
  { s with aborted := true, queue := {}, flushing := [], reading := false, ending := false }

def Enabled (s : MediaInput cap) : InputEvent → Prop
  | .report _ _ _ => True
  | .flushIn => s.flushing = [] ∧ s.cache ≠ []
  | .push => s.flushing ≠ [] ∧ s.queue.full = false
  | .read => s.eof = false ∧ s.reading = false
  | .pop => s.reading = true ∧ s.queue.items ≠ []
  | .close => True
  | .finishClose => s.ending = true ∧ s.queue.full = false
  | .abort => True

instance (s : MediaInput cap) : ∀ a, Decidable (s.Enabled a)
  | .report _ _ _ => inferInstanceAs (Decidable True)
  | .flushIn => inferInstanceAs (Decidable (_ ∧ _))
  | .push => inferInstanceAs (Decidable (_ ∧ _))
  | .read => inferInstanceAs (Decidable (_ ∧ _))
  | .pop => inferInstanceAs (Decidable (_ ∧ _))
  | .close => inferInstanceAs (Decidable True)
  | .finishClose => inferInstanceAs (Decidable (_ ∧ _))
  | .abort => inferInstanceAs (Decidable True)

def step (s : MediaInput cap) : InputEvent → Except Empty (MediaInput cap)
  | .report type payload timestamp =>
      .ok (s.onReceiveNewPacket (rtmpHandler type payload timestamp))
  | .flushIn => .ok s.flushIn
  | .push => .ok s.push
  | .read => .ok s.read
  | .pop => .ok s.pop
  | .close => .ok s.close
  | .finishClose => .ok { s with ending := false, queue := s.queue.push emptyPacket }
  | .abort => .ok s.abort

/-- A message that is reported has a payload. -/
def HasPayload (_ : MediaInput cap) : InputEvent → Prop
  | .report _ payload _ => payload ≠ []
  | _ => True

instance (s : MediaInput cap) : ∀ a, Decidable (s.HasPayload a)
  | .report _ _ _ => inferInstanceAs (Decidable (_ ≠ _))
  | .flushIn => inferInstanceAs (Decidable True)
  | .push => inferInstanceAs (Decidable True)
  | .read => inferInstanceAs (Decidable True)
  | .pop => inferInstanceAs (Decidable True)
  | .close => inferInstanceAs (Decidable True)
  | .finishClose => inferInstanceAs (Decidable True)
  | .abort => inferInstanceAs (Decidable True)

/-- How much there is left to do for the messages reported so far. -/
def work (s : MediaInput cap) : Nat :=
  4 * s.cache.length + 3 * s.flushing.length + 2 * s.queue.items.length
    + if s.reading then 0 else 1

end MediaInput

/-- The input side of a connection as a machine. -/
def mediaInput (cap : Nat) : Machine (MediaInput cap) InputEvent Empty where
  init := {}
  enabled := MediaInput.Enabled
  step := MediaInput.step

namespace MediaInput

variable {cap : Nat}

@[simp] theorem payloads_append (a b : List Packet) :
    payloads (a ++ b) = payloads a ++ payloads b := by simp [payloads]

@[simp] theorem payloads_emptyPacket : payloads [emptyPacket] = [] := rfl

/-! ## Order -/

/-- Messages stay in the order in which they were reported, and none is lost unless the queue
    is aborted. -/
structure InOrder (s : MediaInput cap) : Prop where
  order : s.aborted = false →
    s.received ++ payloads (s.queue.items ++ s.flushing ++ s.cache) = payloads s.reported
  received_prefix : s.received <+: payloads s.reported
  aborted : s.aborted = true → s.reading = false ∧ s.flushing = [] ∧ s.queue.items = []
    ∧ s.ending = false

/-- While the queue is not aborted the second field follows from the first. -/
theorem InOrder.of_order {s : MediaInput cap} (haborted : s.aborted = false)
    (horder : s.received ++ payloads (s.queue.items ++ s.flushing ++ s.cache)
      = payloads s.reported) : s.InOrder where
  order _ := horder
  received_prefix := ⟨_, horder⟩
  aborted h := by
    rw [haborted] at h
    cases h

theorem InOrder.report {s : MediaInput cap} (hs : s.InOrder) (pkt : Packet) :
    (s.onReceiveNewPacket pkt).InOrder where
  order haborted := by
    have horder := hs.order haborted
    simp only [onReceiveNewPacket, payloads_append] at horder ⊢
    rw [← horder]
    simp only [List.append_assoc]
  received_prefix := by
    simp only [onReceiveNewPacket, payloads_append]
    exact hs.received_prefix.trans (List.prefix_append _ _)
  aborted := hs.aborted

theorem InOrder.flushIn {s : MediaInput cap} (hs : s.InOrder) (h : s.Enabled .flushIn) :
    s.flushIn.InOrder := by
  cases haborted : s.aborted with
  | true =>
      obtain ⟨hreading, -, hqueue, hending⟩ := hs.aborted haborted
      refine ⟨?_, hs.received_prefix, fun _ => ⟨hreading, ?_, hqueue, hending⟩⟩
      · intro hopen
        exact absurd (haborted.symm.trans hopen) (by decide)
      · simp [MediaInput.flushIn, haborted]
  | false =>
      refine .of_order haborted ?_
      have horder := hs.order haborted
      rw [h.1] at horder
      simpa [MediaInput.flushIn, haborted] using horder

theorem InOrder.push {s : MediaInput cap} (hs : s.InOrder) (h : s.Enabled .push) :
    s.push.InOrder := by
  obtain ⟨hflushing, hfull⟩ := h
  have haborted : s.aborted = false := by
    by_contra haborted
    exact hflushing (hs.aborted (by simpa using haborted)).2.1
  have horder := hs.order haborted
  unfold MediaInput.push
  split
  · exact hs
  · rename_i pkt flushing heq
    refine .of_order haborted ?_
    rw [heq] at horder
    simpa [BoundedQueue.push_items hfull] using horder

theorem InOrder.read {s : MediaInput cap} (hs : s.InOrder) : s.read.InOrder := by
  unfold MediaInput.read
  split
  · exact ⟨hs.order, hs.received_prefix, hs.aborted⟩
  split
  · exact hs
  · rename_i haborted
    exact .of_order (by simpa using haborted) (hs.order (by simpa using haborted))

theorem InOrder.pop {s : MediaInput cap} (hs : s.InOrder) (h : s.Enabled .pop) :
    s.pop.InOrder := by
  have haborted : s.aborted = false := by
    by_contra haborted
    have hreading := (hs.aborted (by simpa using haborted)).1
    exact absurd (hreading.symm.trans h.1) (by decide)
  have horder := hs.order haborted
  unfold MediaInput.pop
  split
  · exact hs
  · rename_i pkt queue hpop
    refine .of_order haborted ?_
    rw [BoundedQueue.pop_eq_some.mp hpop, ← List.singleton_append] at horder
    simp only [payloads_append, List.append_assoc] at horder ⊢
    exact horder

theorem InOrder.close {s : MediaInput cap} (hs : s.InOrder) : s.close.InOrder := by
  unfold MediaInput.close
  split
  · exact hs
  · refine ⟨hs.order, hs.received_prefix, ?_⟩
    intro haborted
    obtain ⟨hreading, hflushing, hqueue, -⟩ := hs.aborted haborted
    have htrue : s.aborted = true := haborted
    exact ⟨hreading, hflushing, hqueue, by simp [htrue]⟩

theorem InOrder.finishClose {s : MediaInput cap} (hs : s.InOrder)
    (h : s.Enabled .finishClose) :
    InOrder { s with ending := false, queue := s.queue.push emptyPacket } := by
  have haborted : s.aborted = false := by
    by_contra haborted
    have hending := (hs.aborted (by simpa using haborted)).2.2.2
    exact absurd (hending.symm.trans h.1) (by decide)
  have horder := hs.order haborted
  refine .of_order haborted ?_
  simp only [BoundedQueue.push_items h.2, payloads_append, payloads_emptyPacket,
    List.append_nil] at horder ⊢
  exact horder

theorem InOrder.abort {s : MediaInput cap} (hs : s.InOrder) : s.abort.InOrder where
  order h := by cases h
  received_prefix := hs.received_prefix
  aborted _ := ⟨rfl, rfl, rfl, rfl⟩

theorem inOrder_of_reachable {s : MediaInput cap} (hs : (mediaInput cap).Reachable s) :
    s.InOrder := by
  refine hs.invariant (.of_order rfl rfl) ?_
  intro s a t hs henabled hstep
  cases a <;> cases hstep
  case report type payload timestamp => exact hs.report _
  case flushIn => exact hs.flushIn henabled
  case push => exact hs.push henabled
  case read => exact hs.read
  case pop => exact hs.pop henabled
  case close => exact hs.close
  case finishClose => exact hs.finishClose henabled
  case abort => exact hs.abort

/-! ## The end of the stream -/

/-- Where every message has a payload, an empty packet is one of `close`. -/
structure EndsAtClose (s : MediaInput cap) : Prop where
  cache : ∀ pkt ∈ s.cache, pkt.empty = false
  flushing : ∀ pkt ∈ s.flushing, pkt.empty = false
  queue : ∀ pkt ∈ s.queue.items, pkt.empty = true → s.closed = true
  ending : s.ending = true → s.closed = true
  eof : s.eof = true → s.closed = true

theorem EndsAtClose.report {s : MediaInput cap} (hs : s.EndsAtClose) {pkt : Packet}
    (hpkt : pkt.empty = false) : (s.onReceiveNewPacket pkt).EndsAtClose where
  cache p hp := by
    rcases List.mem_append.mp hp with hp | hp
    · exact hs.cache p hp
    · rw [List.mem_singleton.mp hp]
      exact hpkt
  flushing := hs.flushing
  queue := hs.queue
  ending := hs.ending
  eof := hs.eof

theorem EndsAtClose.flushIn {s : MediaInput cap} (hs : s.EndsAtClose) : s.flushIn.EndsAtClose where
  cache p hp := absurd hp List.not_mem_nil
  flushing p hp := by
    simp only [MediaInput.flushIn] at hp
    split at hp
    · exact absurd hp List.not_mem_nil
    · exact hs.cache p hp
  queue := hs.queue
  ending := hs.ending
  eof := hs.eof

theorem EndsAtClose.push {s : MediaInput cap} (hs : s.EndsAtClose)
    (hfull : s.queue.full = false) : s.push.EndsAtClose := by
  unfold MediaInput.push
  split
  · exact hs
  · rename_i pkt flushing heq
    have hmem : ∀ p ∈ pkt :: flushing, p.empty = false := by
      rw [← heq]
      exact hs.flushing
    refine ⟨hs.cache, fun p hp => hmem p (List.mem_cons_of_mem _ hp), ?_, hs.ending, hs.eof⟩
    intro p hp hempty
    rw [BoundedQueue.push_items hfull] at hp
    rcases List.mem_append.mp hp with hp | hp
    · exact hs.queue p hp hempty
    · rw [List.mem_singleton.mp hp, hmem pkt List.mem_cons_self] at hempty
      cases hempty

theorem EndsAtClose.read {s : MediaInput cap} (hs : s.EndsAtClose) : s.read.EndsAtClose := by
  unfold MediaInput.read
  split
  · rename_i hclosed
    exact ⟨hs.cache, hs.flushing, hs.queue, hs.ending, fun _ => hclosed⟩
  split
  · exact hs
  · exact ⟨hs.cache, hs.flushing, hs.queue, hs.ending, hs.eof⟩

/-- An empty packet that is taken comes of `close`. -/
theorem EndsAtClose.pop {s : MediaInput cap} (hs : s.EndsAtClose) : s.pop.EndsAtClose := by
  unfold MediaInput.pop
  split
  · exact hs
  · rename_i pkt queue hpop
    have hitems := BoundedQueue.pop_eq_some.mp hpop
    refine ⟨hs.cache, hs.flushing, ?_, hs.ending, ?_⟩
    · intro p hp
      exact hs.queue p (by rw [hitems]; exact List.mem_cons_of_mem _ hp)
    · exact hs.queue pkt (by rw [hitems]; exact List.mem_cons_self)

theorem EndsAtClose.close {s : MediaInput cap} (hs : s.EndsAtClose) : s.close.EndsAtClose := by
  unfold MediaInput.close
  split
  · exact hs
  · exact ⟨hs.cache, hs.flushing, fun _ _ _ => rfl, fun _ => rfl, fun _ => rfl⟩

theorem EndsAtClose.abort {s : MediaInput cap} (hs : s.EndsAtClose) : s.abort.EndsAtClose where
  cache := hs.cache
  flushing p hp := absurd hp List.not_mem_nil
  queue p hp := absurd hp List.not_mem_nil
  ending h := by cases h
  eof := hs.eof

theorem endsAtClose_step {s t : MediaInput cap} {a : InputEvent} (hs : s.EndsAtClose)
    (henabled : s.Enabled a) (hpayload : s.HasPayload a) (hstep : s.step a = .ok t) :
    t.EndsAtClose := by
  cases a <;> cases hstep
  case report type payload timestamp =>
    have hne : payload ≠ [] := hpayload
    exact hs.report (by simpa [Packet.empty, rtmpHandler] using hne)
  case flushIn => exact hs.flushIn
  case push => exact hs.push henabled.2
  case read => exact hs.read
  case pop => exact hs.pop
  case close => exact hs.close
  case finishClose =>
    have hclosed := hs.ending henabled.1
    exact ⟨hs.cache, hs.flushing, fun _ _ _ => hclosed, fun _ => hclosed, hs.eof⟩
  case abort => exact hs.abort

theorem endsAtClose_init : EndsAtClose ({} : MediaInput cap) where
  cache _ h := absurd h List.not_mem_nil
  flushing _ h := absurd h List.not_mem_nil
  queue _ h := absurd h List.not_mem_nil
  ending h := by cases h
  eof h := by cases h

theorem endsAtClose_of_reachable {s : MediaInput cap}
    (hs : ((mediaInput cap).restrict HasPayload).Reachable s) : s.EndsAtClose := by
  refine hs.invariant endsAtClose_init ?_
  intro s a t hs henabled hstep
  exact endsAtClose_step hs henabled.1 henabled.2 hstep

/-- Packets that are not empty are all payload. -/
theorem eq_nil_of_payloads {pkts : List Packet} (h : ∀ pkt ∈ pkts, pkt.empty = false)
    (hnone : payloads pkts = []) : pkts = [] := by
  have hall : payloads pkts = pkts := by
    refine List.filter_eq_self.mpr ?_
    intro pkt hpkt
    simp [h pkt hpkt]
  rw [← hall, hnone]

/-- When every message was received, nothing is on its way to an open stream. -/
theorem EndsAtClose.nothing_left {s : MediaInput cap} (hs : s.EndsAtClose)
    (hclosed : s.closed = false) (haborted : s.aborted = false) (horder : s.InOrder)
    (hreceived : s.received = payloads s.reported) :
    s.queue.items = [] ∧ s.flushing = [] ∧ s.cache = [] := by
  have hnone := horder.order haborted
  rw [← hreceived] at hnone
  simp only [payloads_append, List.append_right_eq_self, List.append_eq_nil_iff] at hnone
  obtain ⟨⟨hqueue, hflushing⟩, hcache⟩ := hnone
  refine ⟨eq_nil_of_payloads ?_ hqueue, eq_nil_of_payloads hs.flushing hflushing,
    eq_nil_of_payloads hs.cache hcache⟩
  intro pkt hpkt
  by_contra hempty
  exact absurd ((hs.queue pkt hpkt (by simpa using hempty)).symm.trans hclosed) (by decide)

/-! ## Progress -/

/-- On a stream that is open and not at its end there is a step to take until every message
    was received. -/
theorem progress (hcap : 0 < cap) {s : MediaInput cap} (hs : s.InOrder)
    (haborted : s.aborted = false) (heof : s.eof = false)
    (hleft : s.received ≠ payloads s.reported) :
    ∃ a, InputEvent.isInternal a = true ∧ s.Enabled a := by
  cases hreading : s.reading with
  | false => exact ⟨.read, rfl, heof, hreading⟩
  | true =>
      by_cases hqueue : s.queue.items = []
      · by_cases hflushing : s.flushing = []
        · refine ⟨.flushIn, rfl, hflushing, ?_⟩
          intro hcache
          have horder := hs.order haborted
          rw [hqueue, hflushing, hcache] at horder
          exact hleft (by simpa [payloads] using horder)
        · exact ⟨.push, rfl, hflushing, BoundedQueue.not_full_of_empty hcap hqueue⟩
      · exact ⟨.pop, rfl, hreading, hqueue⟩

/-- A step for a message already reported leaves less to do. -/
theorem internal_work {s t : MediaInput cap} {a : InputEvent} (ha : a.isInternal = true)
    (hclosed : s.closed = false) (haborted : s.aborted = false) (henabled : s.Enabled a)
    (hstep : s.step a = .ok t) : t.work < s.work := by
  cases a <;> cases hstep
  case flushIn =>
    obtain ⟨hflushing, hcache⟩ := henabled
    have hlength := List.length_pos_iff.mpr hcache
    simp only [work, flushIn, haborted, hflushing, List.length_nil, Bool.false_eq_true, if_false]
    omega
  case push =>
    obtain ⟨hflushing, hfull⟩ := henabled
    cases heq : s.flushing with
    | nil => exact absurd heq hflushing
    | cons pkt flushing =>
        simp only [work, push, heq, BoundedQueue.push_items hfull, List.length_append,
          List.length_cons, List.length_nil]
        omega
  case read =>
    simp only [work, read, hclosed, haborted, henabled.2, Bool.false_eq_true, if_false, if_true]
    omega
  case pop =>
    obtain ⟨hreading, hqueue⟩ := henabled
    cases hpop : s.queue.pop with
    | none => exact absurd (BoundedQueue.pop_eq_none.mp hpop) hqueue
    | some r =>
        obtain ⟨pkt, queue⟩ := r
        simp only [work, pop, hpop, BoundedQueue.pop_eq_some.mp hpop, hreading, List.length_cons,
          Bool.false_eq_true, if_false, if_true]
        omega
  all_goals cases ha

/-! ## The messages a session receives -/

/-- The session receives the messages that are not empty, in order and, on a stream that
    stays open, all of them; and it comes to the end of the stream only when the stream was
    closed. -/
structure Survives (s : MediaInput cap) : Prop where
  eof_closed : s.eof = true → s.closed = true
  in_order : s.received <+: payloads s.reported
  goes_on : s.closed = false → s.aborted = false → s.received ≠ payloads s.reported →
    ∃ a, InputEvent.isInternal a = true ∧ s.Enabled a
  ends : s.closed = false → s.aborted = false → ∀ a t, InputEvent.isInternal a = true →
    s.Enabled a → s.step a = .ok t → t.work < s.work

/-- An empty message ends a stream that is open and has nothing else on its way. -/
theorem eof_of_empty (hcap : 0 < cap) {s : MediaInput cap} (hclosed : s.closed = false)
    (haborted : s.aborted = false) (heof : s.eof = false) (hcache : s.cache = [])
    (hflushing : s.flushing = []) (hqueue : s.queue.items = []) (type : PacketType)
    (timestamp : Nat) :
    ∃ t, (mediaInput cap).Steps s t ∧ t.reported = s.reported ++ [rtmpHandler type [] timestamp]
      ∧ t.eof = true ∧ t.closed = false := by
  -- a pending read comes before the message, or is made ahead of it
  let pending : MediaInput cap := { s with reading := true }
  have hread : (mediaInput cap).Steps s pending := by
    cases hreading : s.reading with
    | true =>
        have heq : pending = s := by simp only [pending, ← hreading]
        rw [heq]
        exact .refl
    | false =>
        refine .step .refl (a := .read) ⟨heof, hreading⟩ ?_
        simp [mediaInput, step, read, hclosed, haborted, pending]
  have hfull := BoundedQueue.not_full_of_empty hcap hqueue
  let pkt := rtmpHandler type [] timestamp
  let flushed : MediaInput cap :=
    { pending with flushing := [pkt], reported := s.reported ++ [pkt] }
  have hflush : (pending.onReceiveNewPacket pkt).flushIn = flushed := by
    simp [flushIn, onReceiveNewPacket, pending, flushed, haborted, hcache]
  let pushed : MediaInput cap := { flushed with flushing := [], queue := s.queue.push pkt }
  have hitems : pushed.queue.items = [pkt] := by
    simp only [pushed, BoundedQueue.push_items hfull, hqueue, List.nil_append]
  have hpushed : (mediaInput cap).Steps s pushed := by
    refine .step (a := .push) (.step (a := .flushIn) (.step (a := .report type [] timestamp)
      hread trivial rfl) ⟨hflushing, ?_⟩ rfl) ⟨?_, ?_⟩ ?_
    · simp [onReceiveNewPacket, pending]
    · rw [hflush]
      simp [flushed]
    · rw [hflush]
      exact hfull
    · rw [hflush]
      rfl
  refine ⟨pushed.pop, .step (a := .pop) hpushed ⟨rfl, ?_⟩ rfl, ?_⟩
  · rw [hitems]
    exact List.cons_ne_nil _ _
  · cases hpop : pushed.queue.pop with
    | none =>
        rw [BoundedQueue.pop_eq_none.mp hpop] at hitems
        cases hitems
    | some r =>
        obtain ⟨p, queue⟩ := r
        have hp := BoundedQueue.pop_eq_some.mp hpop
        rw [hitems] at hp
        obtain ⟨hpkt, -⟩ := List.cons.inj hp
        simp only [pop, hpop, ← hpkt]
        exact ⟨rfl, rfl, hclosed⟩

/-- A session survives the runs in which every message has a payload. An empty message, with
    nothing else on its way, ends a stream that is open. -/
theorem mediaInput_eof {cap : Nat} (hcap : 0 < cap) :
    (∀ s, ((mediaInput cap).restrict HasPayload).Reachable s → Survives s)
      ∧ ∀ s, ((mediaInput cap).restrict HasPayload).Reachable s → s.closed = false →
        s.aborted = false → s.received = payloads s.reported → ∀ type timestamp,
          ∃ t, (mediaInput cap).Steps s t ∧ ¬ Survives t
            ∧ t.reported = s.reported ++ [rtmpHandler type [] timestamp] := by
  constructor
  · intro s hs
    have horder := inOrder_of_reachable hs.of_restrict
    have hend := endsAtClose_of_reachable hs
    refine ⟨hend.eof, horder.received_prefix, ?_, ?_⟩
    · intro hclosed haborted hleft
      have heof : s.eof = false := by
        by_contra heof
        exact absurd ((hend.eof (by simpa using heof)).symm.trans hclosed) (by decide)
      exact progress hcap horder haborted heof hleft
    · intro hclosed haborted a t ha
      exact internal_work ha hclosed haborted
  · intro s hs hclosed haborted hreceived type timestamp
    have hend := endsAtClose_of_reachable hs
    have heof : s.eof = false := by
      by_contra heof
      exact absurd ((hend.eof (by simpa using heof)).symm.trans hclosed) (by decide)
    obtain ⟨hqueue, hflushing, hcache⟩ :=
      hend.nothing_left hclosed haborted (inOrder_of_reachable hs.of_restrict) hreceived
    obtain ⟨t, ht, hreported, heof, hopen⟩ :=
      eof_of_empty hcap hclosed haborted heof hcache hflushing hqueue type timestamp
    refine ⟨t, ht, ?_, hreported⟩
    intro hsurvives
    exact absurd ((hsurvives.eof_closed heof).symm.trans hopen) (by decide)

/-! ## One message -/

instance (cap : Nat) (s : MediaInput cap) (a : InputEvent) :
    Decidable ((mediaInput cap).enabled s a) :=
  inferInstanceAs (Decidable (s.Enabled a))

/-- `mediaInput_eof` for a message of one byte that was received. -/
theorem mediaInput_eof_received :
    ∃ s, ((mediaInput 10).restrict HasPayload).Reachable s ∧ s.received = [MediaOutput.somePacket]
      ∧ Survives s := by
  obtain ⟨s, hs, hreceived⟩ := Machine.reachable_of_runs
    (M := (mediaInput 10).restrict HasPayload)
    (p := fun s => s.received == [MediaOutput.somePacket])
    [.read, .report .video [1] 0, .flushIn, .push, .pop] (by decide)
  exact ⟨s, hs, eq_of_beq hreceived, (mediaInput_eof (by decide)).1 s hs⟩

/-- A message without payload ends a stream that nobody closed. -/
theorem mediaInput_eof_open : ¬ ∀ s, (mediaInput 10).Reachable s → Survives s := by
  intro hall
  obtain ⟨s, hs, hend⟩ := Machine.reachable_of_runs (M := mediaInput 10)
    (p := fun s => s.eof && !s.closed) [.read, .report .audio [] 0, .flushIn, .push, .pop]
    (by decide)
  obtain ⟨heof, hopen⟩ := Bool.and_eq_true_iff.mp hend
  simp [(hall s hs).eof_closed heof] at hopen

end MediaInput

end SeastarLive
