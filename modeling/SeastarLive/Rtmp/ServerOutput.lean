/-
SeastarLive.Rtmp.ServerOutput — the output side of an RTMP server connection.

`rtmp_handler_send`, `on_send_new_buffer`, `flush_out` and `on_write_buffers`
of `src/rtmp/rtmp.cc`. `input_loop` and `output_loop` each run one flush at a
time; a flush takes the whole cache when it starts and writes its buffers with
a suspension after each, so the two can alternate at any buffer.

* `flights` are the flushes in progress, in the order in which they started.
* `sends` is a record of the calls of `rtmp_handler_send`, read by no step.
* A write that throws ends its loop and is not a step here.
-/
import Mathlib.Data.List.Basic
import SeastarLive.Lib.Transition

namespace SeastarLive

inductive LoopId
  | input
  | output
deriving DecidableEq

/-- A chunk, as `rtmp_handler_send` is given it. -/
structure Chunk where
  header : List UInt8
  payload : List UInt8
deriving DecidableEq

/-- The buffers that `rtmp_handler_send` queues for a chunk; empty ones are left out. -/
def Chunk.buffers (c : Chunk) : List (List UInt8) :=
  (if c.header = [] then [] else [c.header]) ++ if c.payload = [] then [] else [c.payload]

/-- A flush in progress: its loop and the buffers it has still to write. -/
structure Flight where
  loop : LoopId
  bufs : List (List UInt8)
deriving DecidableEq

/-- The output state of `connection`. -/
structure ServerOutput where
  /-- `_data_output_cache`. -/
  cache : List (List UInt8) := []
  flights : List Flight := []
  /-- What was written to `_write_buf`. -/
  written : List (List UInt8) := []
  done : Bool := false
  sends : List Chunk := []

/-- The steps of the two loops. -/
inductive OutputEvent
  /-- `rtmp_handler_send`. -/
  | send (chunk : Chunk)
  /-- `flush_out` is called by a loop. -/
  | flush (loop : LoopId)
  /-- `on_write_buffers` of a loop comes to its next buffer. -/
  | write (loop : LoopId)
  /-- `on_write_buffers` of a loop returns. -/
  | finish (loop : LoopId)
  /-- `_done` is set. -/
  | stop
deriving DecidableEq

namespace ServerOutput

/-- Take the next buffer of a loop's flush. -/
def popBuffer (loop : LoopId) : List Flight → Option (List UInt8 × List Flight)
  | [] => none
  | flight :: flights =>
      if flight.loop = loop then
        match flight.bufs with
        | [] => none
        | buf :: bufs => some (buf, { flight with bufs } :: flights)
      else (popBuffer loop flights).map fun r => (r.1, flight :: r.2)

/-- `flush_out`: the cache is moved out, and dropped when there is nothing to do. -/
def flushOut (w : ServerOutput) (loop : LoopId) : ServerOutput :=
  if w.done || w.cache.isEmpty then { w with cache := [] }
  else { w with cache := [], flights := w.flights ++ [⟨loop, w.cache⟩] }

/-- One turn of `on_write_buffers`; a connection that is done drops the buffer. -/
def writeBuffer (w : ServerOutput) (loop : LoopId) : ServerOutput :=
  match popBuffer loop w.flights with
  | none => w
  | some (buf, flights) =>
      { w with flights, written := if w.done then w.written else w.written ++ [buf] }

/-- When a step may happen. -/
def Enabled (w : ServerOutput) : OutputEvent → Prop
  | .send _ => True
  | .flush loop => w.flights.all (fun flight => flight.loop != loop) = true
  | .write loop => (popBuffer loop w.flights).isSome = true
  | .finish loop => ⟨loop, []⟩ ∈ w.flights
  | .stop => True

instance (w : ServerOutput) : ∀ a, Decidable (w.Enabled a)
  | .send _ => inferInstanceAs (Decidable True)
  | .flush _ => inferInstanceAs (Decidable (_ = _))
  | .write _ => inferInstanceAs (Decidable (_ = _))
  | .finish _ => inferInstanceAs (Decidable (_ ∈ _))
  | .stop => inferInstanceAs (Decidable True)

def step (w : ServerOutput) : OutputEvent → Except Empty ServerOutput
  | .send chunk =>
      .ok { w with cache := w.cache ++ chunk.buffers, sends := w.sends ++ [chunk] }
  | .flush loop => .ok (w.flushOut loop)
  | .write loop => .ok (w.writeBuffer loop)
  | .finish loop => .ok { w with flights := w.flights.erase ⟨loop, []⟩ }
  | .stop => .ok { w with done := true }

/-- The buffers that `rtmp_handler_send` queued, in order. -/
def queued (w : ServerOutput) : List (List UInt8) := w.sends.flatMap Chunk.buffers

end ServerOutput

/-- The output side of a connection as a machine. -/
def serverOutput : Machine ServerOutput OutputEvent Empty where
  init := {}
  enabled := ServerOutput.Enabled
  step := ServerOutput.step

end SeastarLive
