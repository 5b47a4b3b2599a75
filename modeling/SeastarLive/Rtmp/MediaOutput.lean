/-
SeastarLive.Rtmp.MediaOutput — packets through an output stream.

`output_stream` of `src/rtmp/stream.cc` over `media_data_sink_impl` of
`src/rtmp/stream.hh`, and the consumer at the other end of the queue. The
producer makes its calls one after the other, each when the future of the last
one is ready, and then calls `close`; every `put` waits while the queue is
full. A run is any interleaving of the producer and the consumer.

The sink's `close` runs `consume` on the queue, which throws away what is in
it. So everything is delivered when the queue is empty at that moment, and
something is lost when it is not (`mediaOutput_close`).
-/
import SeastarLive.Lib.BoundedQueue
import SeastarLive.Lib.Transition
import SeastarLive.Session.PublishSession

namespace SeastarLive

/-- `packet()`. -/
def emptyPacket : Packet := {}

/-! ## The stream -/

/-- `output_stream`: `_pkts` and `_size`. -/
structure OutputStream where
  pkts : List Packet := []
  size : Nat
deriving DecidableEq

namespace OutputStream

/-- `do_flush`: the stream without its packets, and the packets it puts. -/
def doFlush (s : OutputStream) : OutputStream × List Packet := ({ s with pkts := [] }, s.pkts)

/-- `flush`, where no error is outstanding. -/
def flush (s : OutputStream) : OutputStream × List Packet := s.doFlush

/-- `write`: the stream, and the packets it puts before its future is ready. -/
def write (s : OutputStream) (pkt : Packet) : OutputStream × List Packet :=
  if !s.pkts.isEmpty && decide (s.size < s.pkts.length + 1) then
    let (s, puts) := s.flush
    (s, puts ++ [pkt])
  else ({ s with pkts := s.pkts ++ [pkt] }, [])

/-- A write keeps the order: what it puts comes before what stays behind. -/
theorem write_order (s : OutputStream) (pkt : Packet) :
    (s.write pkt).2 ++ (s.write pkt).1.pkts = s.pkts ++ [pkt] := by
  simp only [write, flush, doFlush]
  split <;> simp

end OutputStream

/-- `media_data_sink_impl::close`. -/
def sinkClose {cap : Nat} (queue : BoundedQueue Packet cap) : BoundedQueue Packet cap :=
  (queue.consume fun _ => true).push emptyPacket

/-! ## The parties -/

/-- A call the producer makes. -/
inductive StreamCall
  | write (pkt : Packet)
  | flush
deriving DecidableEq

def StreamCall.written : StreamCall → List Packet
  | .write pkt => [pkt]
  | .flush => []

/-- The packets that calls write. -/
def written (calls : List StreamCall) : List Packet := calls.flatMap StreamCall.written

inductive StreamStage
  | writing
  /-- `close` was called; it flushes first. -/
  | closing
  /-- The sink is closed. -/
  | closed
deriving DecidableEq

/-- A stream with its producer, the queue behind it, and what the consumer popped. -/
structure MediaOutput (cap : Nat) where
  /-- The calls to make before `close`. -/
  calls : List StreamCall
  stream : OutputStream
  /-- What the call in progress has still to put. -/
  puts : List Packet := []
  stage : StreamStage := .writing
  queue : BoundedQueue Packet cap := {}
  popped : List Packet := []

inductive OutputParty
  | producer
  | consumer
deriving DecidableEq

namespace MediaOutput

variable {cap : Nat}

/-- The producer goes on: a put of the call in progress, or the next call. -/
def produce (s : MediaOutput cap) : MediaOutput cap :=
  match s.puts with
  | pkt :: puts => { s with puts, queue := s.queue.push pkt }
  | [] =>
      match s.stage with
      | .writing =>
          match s.calls with
          | .write pkt :: calls =>
              { s with calls, stream := (s.stream.write pkt).1, puts := (s.stream.write pkt).2 }
          | .flush :: calls =>
              { s with calls, stream := s.stream.flush.1, puts := s.stream.flush.2 }
          | [] =>
              { s with stream := s.stream.flush.1, puts := s.stream.flush.2, stage := .closing }
      | .closing => { s with stage := .closed, queue := sinkClose s.queue }
      | .closed => s

/-- `pop_eventually` returns. -/
def consume (s : MediaOutput cap) : MediaOutput cap :=
  match s.queue.pop with
  | some (pkt, queue) => { s with queue, popped := s.popped ++ [pkt] }
  | none => s

def Enabled (s : MediaOutput cap) : OutputParty → Prop
  | .producer => if s.puts = [] then s.stage ≠ .closed else s.queue.full = false
  | .consumer => s.queue.items ≠ []

instance (s : MediaOutput cap) : ∀ a, Decidable (s.Enabled a)
  | .producer => by
      unfold Enabled
      exact inferInstance
  | .consumer => inferInstanceAs (Decidable (_ ≠ _))

def step (s : MediaOutput cap) : OutputParty → Except Empty (MediaOutput cap)
  | .producer => .ok s.produce
  | .consumer => .ok s.consume

/-- The next thing the producer does is to close the sink. -/
def ClosesSink (s : MediaOutput cap) : Prop := s.puts = [] ∧ s.stage = .closing

instance (s : MediaOutput cap) : Decidable s.ClosesSink :=
  inferInstanceAs (Decidable (_ ∧ _))

/-- The consumer has popped everything when the sink is closed. -/
def DrainedAtClose (s : MediaOutput cap) (a : OutputParty) : Prop :=
  a = .producer → s.ClosesSink → s.queue.items = []

instance (s : MediaOutput cap) (a : OutputParty) : Decidable (s.DrainedAtClose a) :=
  inferInstanceAs (Decidable (_ → _ → _))

def Finished (s : MediaOutput cap) : Prop := s.stage = .closed ∧ s.queue.items = []

/-- How much there is left to do. -/
def work (s : MediaOutput cap) : Nat :=
  (s.calls.map fun call => match call with
      | .write _ => 4
      | .flush => 1).sum
    + 3 * s.stream.pkts.length + 2 * s.puts.length + s.queue.items.length
    + match s.stage with
      | .writing => 3
      | .closing => 2
      | .closed => 0

end MediaOutput

/-- A producer that makes the given calls, then `close`, and a consumer. -/
def mediaOutput (cap size : Nat) (calls : List StreamCall) :
    Machine (MediaOutput cap) OutputParty Empty where
  init := { calls, stream := { size } }
  enabled := MediaOutput.Enabled
  step := MediaOutput.step

namespace MediaOutput

variable {cap : Nat}

/-! ## Steps -/

/-- What the producer can do, with the state in which it does it. -/
theorem produce_cases {s : MediaOutput cap} (h : s.Enabled .producer) :
    (∃ pkt puts, s.puts = pkt :: puts ∧ s.queue.full = false
        ∧ s.produce = { s with puts, queue := s.queue.push pkt })
      ∨ (∃ pkt calls, s.puts = [] ∧ s.stage = .writing ∧ s.calls = .write pkt :: calls
          ∧ s.produce = { s with calls, stream := (s.stream.write pkt).1
                                 puts := (s.stream.write pkt).2 })
      ∨ (∃ calls, s.puts = [] ∧ s.stage = .writing ∧ s.calls = .flush :: calls
          ∧ s.produce = { s with calls, stream := s.stream.flush.1, puts := s.stream.flush.2 })
      ∨ (s.puts = [] ∧ s.stage = .writing ∧ s.calls = []
          ∧ s.produce = { s with stream := s.stream.flush.1, puts := s.stream.flush.2
                                 stage := .closing })
      ∨ (s.ClosesSink ∧ s.produce = { s with stage := .closed, queue := sinkClose s.queue }) := by
  cases hputs : s.puts with
  | cons pkt puts =>
      have hfull : s.queue.full = false := by simpa [Enabled, hputs] using h
      exact .inl ⟨pkt, puts, rfl, hfull, by simp [produce, hputs]⟩
  | nil =>
      have hopen : s.stage ≠ .closed := by simpa [Enabled, hputs] using h
      cases hstage : s.stage with
      | writing =>
          cases hcalls : s.calls with
          | nil => exact .inr (.inr (.inr (.inl ⟨rfl, rfl, rfl, by
              simp [produce, hputs, hstage, hcalls]⟩)))
          | cons call calls =>
              cases call with
              | write pkt => exact .inr (.inl ⟨pkt, calls, rfl, rfl, rfl, by
                  simp [produce, hputs, hstage, hcalls]⟩)
              | flush => exact .inr (.inr (.inl ⟨calls, rfl, rfl, rfl, by
                  simp [produce, hputs, hstage, hcalls]⟩))
      | closing => exact .inr (.inr (.inr (.inr ⟨⟨hputs, hstage⟩, by
          simp [produce, hputs, hstage]⟩)))
      | closed => exact absurd hstage hopen

/-- What the consumer can do. -/
theorem consume_cases {s : MediaOutput cap} (h : s.Enabled .consumer) :
    ∃ pkt queue, s.queue.items = pkt :: queue.items
      ∧ s.consume = { s with queue, popped := s.popped ++ [pkt] } := by
  cases hpop : s.queue.pop with
  | none => exact absurd (BoundedQueue.pop_eq_none.mp hpop) h
  | some r =>
      obtain ⟨pkt, queue⟩ := r
      exact ⟨pkt, queue, BoundedQueue.pop_eq_some.mp hpop, by simp [consume, hpop]⟩

/-- With room for one packet, a closed sink holds the empty packet alone. -/
theorem sinkClose_items (hcap : 0 < cap) (queue : BoundedQueue Packet cap) :
    (sinkClose queue).items = [emptyPacket] := by
  have hempty : (queue.consume fun _ => true).items = [] := by simp
  rw [sinkClose, BoundedQueue.push_items (BoundedQueue.not_full_of_empty hcap hempty), hempty]
  rfl

/-! ## Before the sink is closed -/

/-- Until the sink is closed, every packet is where its place in the order says. -/
structure InOrder (pkts : List Packet) (s : MediaOutput cap) : Prop where
  order : s.stage ≠ .closed →
    s.popped ++ s.queue.items ++ s.puts ++ s.stream.pkts ++ written s.calls = pkts
  flushed : s.stage ≠ .writing → s.calls = [] ∧ s.stream.pkts = []
  put : s.stage = .closed → s.puts = []

/-- While there are calls to make, the order is all there is to say. -/
theorem InOrder.of_writing {pkts : List Packet} {s : MediaOutput cap}
    (hstage : s.stage = .writing)
    (horder : s.popped ++ s.queue.items ++ s.puts ++ s.stream.pkts ++ written s.calls = pkts) :
    s.InOrder pkts where
  order _ := horder
  flushed h := absurd hstage h
  put h := by
    rw [hstage] at h
    cases h

theorem InOrder.produce {pkts : List Packet} {s : MediaOutput cap} (hs : s.InOrder pkts)
    (h : s.Enabled .producer) : s.produce.InOrder pkts := by
  rcases produce_cases h with ⟨pkt, puts, hputs, hfull, ht⟩
    | ⟨pkt, calls, hputs, hstage, hcalls, ht⟩ | ⟨calls, hputs, hstage, hcalls, ht⟩
    | ⟨hputs, hstage, hcalls, ht⟩ | ⟨⟨hputs, hstage⟩, ht⟩
  · rw [ht]
    refine ⟨?_, hs.flushed, ?_⟩
    · intro hopen
      have horder := hs.order hopen
      rw [hputs] at horder
      simpa [BoundedQueue.push_items hfull] using horder
    · intro hclosed
      have hnone := hs.put hclosed
      rw [hputs] at hnone
      cases hnone
  · have horder := hs.order (by simp [hstage])
    have hwrite := s.stream.write_order pkt
    rw [ht]
    refine .of_writing hstage ?_
    rw [← horder, hputs, hcalls]
    simp only [written, List.flatMap_cons, StreamCall.written, List.append_assoc, List.nil_append]
    rw [← List.append_assoc (s.stream.write pkt).2, hwrite]
    simp
  · have horder := hs.order (by simp [hstage])
    rw [ht]
    refine .of_writing hstage ?_
    rw [← horder, hputs, hcalls]
    simp [written, StreamCall.written, OutputStream.flush, OutputStream.doFlush]
  · have horder := hs.order (by simp [hstage])
    rw [ht]
    refine ⟨?_, fun _ => ⟨hcalls, rfl⟩, fun hclosed => by cases hclosed⟩
    intro _
    rw [← horder, hputs]
    simp [OutputStream.flush, OutputStream.doFlush]
  · have hflushed := hs.flushed (by simp [hstage])
    rw [ht]
    exact ⟨fun hopen => absurd rfl hopen, fun _ => hflushed, fun _ => hputs⟩

theorem InOrder.consume {pkts : List Packet} {s : MediaOutput cap} (hs : s.InOrder pkts)
    (h : s.Enabled .consumer) : s.consume.InOrder pkts := by
  obtain ⟨pkt, queue, hqueue, ht⟩ := consume_cases h
  rw [ht]
  refine ⟨?_, hs.flushed, hs.put⟩
  intro hopen
  have horder := hs.order hopen
  rw [hqueue] at horder
  simpa using horder

variable {size : Nat} {calls : List StreamCall}

theorem inOrder_init : (mediaOutput cap size calls).init.InOrder (written calls) :=
  .of_writing rfl (by simp [mediaOutput])

theorem inOrder_of_reachable {s : MediaOutput cap}
    (hs : (mediaOutput cap size calls).Reachable s) : s.InOrder (written calls) := by
  refine hs.invariant inOrder_init ?_
  intro s a t hs henabled hstep
  cases a with
  | producer =>
      cases hstep
      exact hs.produce henabled
  | consumer =>
      cases hstep
      exact hs.consume henabled

/-- When the sink is to be closed, everything written is popped or in the queue. -/
theorem InOrder.at_close {pkts : List Packet} {s : MediaOutput cap} (hs : s.InOrder pkts)
    (h : s.ClosesSink) : s.popped ++ s.queue.items = pkts := by
  obtain ⟨hputs, hstage⟩ := h
  obtain ⟨hcalls, hpkts⟩ := hs.flushed (by simp [hstage])
  have horder := hs.order (by simp [hstage])
  simpa [hputs, hcalls, hpkts, written] using horder

/-! ## Behind the close -/

/-- Once the sink is closed, what was popped and what is in the queue stay the same
    together. -/
theorem closed_step {s t : MediaOutput cap} {a : OutputParty} {pkts : List Packet}
    (hclosed : s.stage = .closed) (hputs : s.puts = [])
    (hpkts : s.popped ++ s.queue.items = pkts) (henabled : s.Enabled a)
    (hstep : s.step a = .ok t) :
    t.stage = .closed ∧ t.puts = [] ∧ t.popped ++ t.queue.items = pkts := by
  cases a with
  | producer => simp [Enabled, hputs, hclosed] at henabled
  | consumer =>
      cases hstep
      obtain ⟨pkt, queue, hqueue, ht⟩ := consume_cases henabled
      rw [ht]
      refine ⟨hclosed, hputs, ?_⟩
      rw [hqueue] at hpkts
      simpa using hpkts

/-- What the consumer pops in the end is fixed when the sink is closed: what it popped
    before, and the empty packet. -/
theorem popped_after_close (hcap : 0 < cap) {s t : MediaOutput cap} (hclose : s.ClosesSink)
    (ht : (mediaOutput cap size calls).Steps s.produce t) :
    t.stage = .closed ∧ t.puts = [] ∧ t.popped ++ t.queue.items = s.popped ++ [emptyPacket] := by
  have hproduce : s.produce = { s with stage := .closed, queue := sinkClose s.queue } := by
    simp [produce, hclose.1, hclose.2]
  rw [hproduce] at ht
  refine ht.invariant (P := fun t => t.stage = .closed ∧ t.puts = []
    ∧ t.popped ++ t.queue.items = s.popped ++ [emptyPacket]) ⟨rfl, hclose.1, ?_⟩ ?_
  · simp only [sinkClose_items hcap]
  · intro t u a ih henabled hstep
    obtain ⟨hclosed, hputs, hpkts⟩ := ih
    exact closed_step hclosed hputs hpkts henabled hstep

/-- In a run in which the queue is empty when the sink is closed, everything written comes
    out, and then the empty packet. -/
theorem closed_of_drained (hcap : 0 < cap) {s : MediaOutput cap}
    (hs : ((mediaOutput cap size calls).restrict DrainedAtClose).Reachable s)
    (hclosed : s.stage = .closed) : s.popped ++ s.queue.items = written calls ++ [emptyPacket] := by
  refine hs.invariant_reachable
    (P := fun s => s.stage = .closed → s.popped ++ s.queue.items = written calls ++ [emptyPacket])
    ?_ ?_ hclosed
  · intro h
    cases h
  · intro s a t hreach ih henabled hstep hclosed
    obtain ⟨henabled, hdrained⟩ := henabled
    have hinv := inOrder_of_reachable hreach.of_restrict
    by_cases hstage : s.stage = .closed
    · exact (closed_step hstage (hinv.put hstage) (ih hstage) henabled hstep).2.2
    · cases a with
      | producer =>
          cases hstep
          rcases produce_cases henabled with ⟨pkt, puts, -, -, ht⟩ | ⟨pkt, calls, -, hw, -, ht⟩
            | ⟨calls, -, hw, -, ht⟩ | ⟨-, hw, -, ht⟩ | ⟨hclose, ht⟩
          · rw [ht] at hclosed
            exact absurd hclosed hstage
          · rw [ht] at hclosed
            exact absurd hclosed hstage
          · rw [ht] at hclosed
            exact absurd hclosed hstage
          · rw [ht] at hclosed
            cases hclosed
          · have hpopped := hinv.at_close hclose
            rw [hdrained rfl hclose, List.append_nil] at hpopped
            rw [ht, hpopped]
            simp only [sinkClose_items hcap]
      | consumer =>
          cases hstep
          obtain ⟨pkt, queue, -, ht⟩ := consume_cases henabled
          rw [ht] at hclosed
          exact absurd hclosed hstage

/-! ## Progress -/

/-- Every step leaves less to do. -/
theorem step_work (hcap : 0 < cap) {s t : MediaOutput cap} {a : OutputParty}
    (henabled : s.Enabled a) (hstep : s.step a = .ok t) : t.work < s.work := by
  cases a with
  | producer =>
      cases hstep
      rcases produce_cases henabled with ⟨pkt, puts, hputs, hfull, ht⟩
        | ⟨pkt, calls, hputs, hstage, hcalls, ht⟩ | ⟨calls, hputs, hstage, hcalls, ht⟩
        | ⟨hputs, hstage, hcalls, ht⟩ | ⟨⟨hputs, hstage⟩, ht⟩
      · rw [ht]
        simp only [work, hputs, BoundedQueue.push_items hfull, List.length_append,
          List.length_cons, List.length_nil]
        omega
      · have hlength := congrArg List.length (s.stream.write_order pkt)
        simp only [List.length_append, List.length_cons, List.length_nil] at hlength
        rw [ht]
        simp only [work, hputs, hstage, hcalls, List.map_cons, List.sum_cons, List.length_nil]
        omega
      · rw [ht]
        simp only [work, hputs, hstage, hcalls, List.map_cons, List.sum_cons, List.length_nil,
          OutputStream.flush, OutputStream.doFlush]
        omega
      · rw [ht]
        simp only [work, hputs, hstage, List.length_nil, OutputStream.flush,
          OutputStream.doFlush]
        omega
      · rw [ht]
        simp only [work, hputs, hstage, sinkClose_items hcap, List.length_nil, List.length_cons]
        omega
  | consumer =>
      cases hstep
      obtain ⟨pkt, queue, hqueue, ht⟩ := consume_cases henabled
      rw [ht]
      simp only [work, hqueue, List.length_cons]
      omega

/-- A run that is not finished goes on: while the queue is not empty the consumer can pop, and
    otherwise nothing holds the producer back. -/
theorem progress (hcap : 0 < cap) {s : MediaOutput cap} (h : ¬ s.Finished) :
    ∃ a, s.Enabled a ∧ s.DrainedAtClose a := by
  by_cases hqueue : s.queue.items = []
  · refine ⟨.producer, ?_, fun _ _ => hqueue⟩
    simp only [Enabled]
    split
    · intro hclosed
      exact h ⟨hclosed, hqueue⟩
    · exact BoundedQueue.not_full_of_empty hcap hqueue
  · exact ⟨.consumer, hqueue, fun hparty => by cases hparty⟩

/-! ## Delivery -/

/-- The consumer pops the packets in order and then an empty one, and nothing after it: it
    never pops anything else, a run that is not finished can go on, and no run goes on for
    ever. -/
structure Delivers (pkts : List Packet) (s : MediaOutput cap) : Prop where
  in_order : s.popped <+: pkts ++ [emptyPacket]
  complete : s.Finished → s.popped = pkts ++ [emptyPacket]
  stops : s.Finished → ∀ a, ¬ s.Enabled a
  progress : ¬ s.Finished → ∃ a, s.Enabled a ∧ s.DrainedAtClose a
  ends : ∀ a t, s.Enabled a → s.step a = .ok t → t.work < s.work

/-- Everything written is delivered in the runs in which the queue is empty when the sink is
    closed. In the others what is in the queue then is lost. -/
theorem mediaOutput_close {cap : Nat} (hcap : 0 < cap) (size : Nat) (calls : List StreamCall) :
    (∀ s, ((mediaOutput cap size calls).restrict DrainedAtClose).Reachable s →
        Delivers (written calls) s)
      ∧ ∀ s, (mediaOutput cap size calls).Reachable s → s.ClosesSink → s.queue.items ≠ [] →
        ∀ t, (mediaOutput cap size calls).Steps s.produce t →
          t.popped ≠ written calls ++ [emptyPacket] := by
  constructor
  · intro s hs
    have hinv := inOrder_of_reachable hs.of_restrict
    refine ⟨?_, ?_, ?_, progress hcap, fun a t => step_work hcap⟩
    · by_cases hstage : s.stage = .closed
      · exact ⟨s.queue.items, closed_of_drained hcap hs hstage⟩
      · have horder := hinv.order hstage
        refine ⟨s.queue.items ++ s.puts ++ s.stream.pkts ++ written s.calls ++ [emptyPacket], ?_⟩
        rw [← horder]
        simp only [List.append_assoc]
    · intro hfinished
      have hpopped := closed_of_drained hcap hs hfinished.1
      rwa [hfinished.2, List.append_nil] at hpopped
    · intro hfinished a henabled
      cases a with
      | producer => simp [Enabled, hinv.put hfinished.1, hfinished.1] at henabled
      | consumer => exact henabled hfinished.2
  · intro s hs hclose hqueue t ht hall
    -- fewer packets come out than were written
    have hpopped := congrArg List.length (popped_after_close hcap hclose ht).2.2
    have hwritten := congrArg List.length ((inOrder_of_reachable hs).at_close hclose)
    have hlost := List.length_pos_iff.mpr hqueue
    rw [hall] at hpopped
    simp only [List.length_append, List.length_cons, List.length_nil] at hpopped hwritten
    omega

/-! ## Runs -/

instance (cap size : Nat) (calls : List StreamCall) (s : MediaOutput cap) (a : OutputParty) :
    Decidable ((mediaOutput cap size calls).enabled s a) :=
  inferInstanceAs (Decidable (s.Enabled a))

instance (s : MediaOutput cap) : Decidable s.Finished :=
  inferInstanceAs (Decidable (_ ∧ _))

/-- A packet with one byte. -/
def somePacket : Packet := { data := [1] }

/-- Three packets fill a stream with room for two, a fourth comes after a flush, and the queue
    has room for one. -/
def fourPackets : List StreamCall :=
  [.write { data := [1] }, .write { data := [2] }, .write { data := [3] }, .flush,
    .write { data := [4] }]

/-- `mediaOutput_close` where the consumer pops each packet before the next one is put. -/
theorem mediaOutput_close_four :
    ∃ s, ((mediaOutput 1 2 fourPackets).restrict DrainedAtClose).Reachable s
      ∧ s.Finished ∧ s.popped.map Packet.data = [[1], [2], [3], [4], []] := by
  obtain ⟨s, hs, hfinished⟩ := Machine.reachable_of_runs
    (M := (mediaOutput 1 2 fourPackets).restrict DrainedAtClose)
    (p := fun s => decide s.Finished)
    [.producer, .producer, .producer, .producer, .consumer, .producer, .consumer, .producer,
      .consumer, .producer, .producer, .producer, .producer, .consumer, .producer, .consumer]
    (by decide)
  have hfinished := of_decide_eq_true hfinished
  refine ⟨s, hs, hfinished, ?_⟩
  rw [((mediaOutput_close (by decide) 2 fourPackets).1 s hs).complete hfinished]
  rfl

/-- A packet is written, and the stream closed before the consumer runs: it pops the empty
    packet alone. -/
theorem mediaOutput_close_lost :
    ¬ ∀ s, (mediaOutput 10 10 [.write somePacket]).Reachable s →
      Delivers (written [.write somePacket]) s := by
  intro hall
  obtain ⟨s, hs, hlost⟩ := Machine.reachable_of_runs
    (M := mediaOutput 10 10 [.write somePacket])
    (p := fun s => decide (s.Finished ∧ s.popped = [emptyPacket]))
    [.producer, .producer, .producer, .producer, .consumer] (by decide)
  obtain ⟨hfinished, hpopped⟩ := of_decide_eq_true hlost
  have hcomplete := (hall s hs).complete hfinished
  rw [hpopped] at hcomplete
  cases hcomplete

end MediaOutput

end SeastarLive
