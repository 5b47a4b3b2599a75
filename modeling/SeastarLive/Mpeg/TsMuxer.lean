/-
SeastarLive.Mpeg.TsMuxer — the muxer of transport streams.

`3rd/libmpeg/source/mpeg-ts-enc.c` past the packets of `Mpeg/TsPacket`: programs and their
streams, when the tables are sent, and `mpeg_ts_write`.

* PIDs are handed out one after the other, so a stream is found by its PID and a program by its
  PID as by a pointer. `pcr_period` and `pcr_clock` are read by nothing.
* Every call comes with what memory and output answer in it, so what was refused to one call may
  be granted to the next. A PID that a call took is gone, also if the call fails behind it.
* A call returns an `int`. `TsOutput.sent` is a record, read by no step: what the packets were
  made of, and whether all of it was written.
* `TsMuxer.machine`: any calls in any order. `Enabled` has the PIDs that there are, and the
  assertion of `mpeg_ts_write_section_header`; the one of `mpeg_ts_pmt_add_stream` is not
  compiled in, and the call returns -1.
-/
import SeastarLive.Lib.Transition
import SeastarLive.Mpeg.Sections

namespace SeastarLive

/-- A section or a PES packet, and whether the call that sent it wrote it whole. -/
structure TsUnit where
  pid : Nat
  bytes : List UInt8
  whole : Bool
deriving DecidableEq

/-- What was written. -/
structure TsOutput where
  packets : List (List UInt8) := []
  sent : List TsUnit := []
deriving DecidableEq

/-- What memory answers in a call: `realloc` for the array of programs, and `malloc` for the
    descriptors of a program or stream. -/
structure TsMemory where
  programs : Bool := true
  info : Bool := true

/-- `mpeg_ts_enc_context_t`. -/
structure TsMuxer where
  pat : PatT := { tsid := 1 }
  /-- `pmt_capacity` of the PAT; 0 before there is an array. -/
  pmtCapacity : Nat := 0
  withAud : Bool := false
  sdtPeriod : Int := 0
  patPeriod : Int := 0
  patCycle : Nat := 0
  /-- the next PID -/
  pid : Nat := 0x100
  output : TsOutput := {}
deriving DecidableEq

namespace TsMuxer

/-! ## Tables -/

/-- `mpeg_ts_write_section_header`: what it returns, the counter and what was written. -/
def writeSection (func : TsFunc) (pid cc : Nat) (bytes : List UInt8) (output : TsOutput) :
    Int × Nat × TsOutput :=
  if func.alloc output.packets = false then (enomem, cc, output)
  else
    let output : TsOutput := {
      packets := output.packets ++ [sectionPacket pid cc bytes]
      sent := output.sent ++ [⟨pid, sectionUnit bytes, true⟩] }
    (func.write output.packets, (cc + 1) % 16, output)

/-- A section with the counter of the PAT, which the SDT shares. -/
def emitSection (func : TsFunc) (pid : Nat) (bytes : List UInt8) (m : TsMuxer) : Int × TsMuxer :=
  let (r, cc, output) := writeSection func pid m.pat.cc bytes m.output
  (r, { m with pat := { m.pat with cc }, output })

/-- The loop of `mpeg_ts_write` over the programs. -/
def writePmts (func : TsFunc) : List PmtT → TsOutput → Int × List PmtT × TsOutput
  | [], output => (0, [], output)
  | pmt :: rest, output =>
      let (r, cc, output) := writeSection func pmt.pid pmt.cc (pmtWrite pmt) output
      if r ≠ 0 then (r, { pmt with cc } :: rest, output)
      else
        let (r, rest, output) := writePmts func rest output
        (r, { pmt with cc } :: rest, output)

def emitPmts (func : TsFunc) (m : TsMuxer) : Int × TsMuxer :=
  let (r, pmts, output) := writePmts func m.pat.pmts m.output
  (r, { m with pat := { m.pat with pmts }, output })

/-- `if (0 != r) return r`. -/
def andThen (x : Int × TsMuxer) (f : TsMuxer → Int × TsMuxer) : Int × TsMuxer :=
  if x.1 ≠ 0 then x else f x.2

/-- The SDT is sent until it was sent at a time that is not 0. -/
def emitSdt (func : TsFunc) (dts : Int) (m : TsMuxer) : Int × TsMuxer :=
  if m.sdtPeriod = 0 then emitSection func tsPidSdt (sdtWrite m.pat) { m with sdtPeriod := dts }
  else (0, m)

/-- SDT, PAT and PMTs. -/
def emitTables (func : TsFunc) (dts : Int) (m : TsMuxer) : Int × TsMuxer :=
  andThen (emitSdt func dts m) fun m =>
    andThen (emitSection func tsPidPat (patWrite m.pat) m) (emitPmts func)

/-! ## Frames -/

/-- `mpeg_ts_find`. -/
def find (m : TsMuxer) (pid : Nat) : Option (PmtT × PesT) :=
  m.pat.pmts.findSome? fun pmt => (pmt.streams.find? fun s => s.pid = pid).map fun s => (pmt, s)

/-- A stream of a program, changed. -/
def PmtT.put (stream : PesT) (pmt : PmtT) : PmtT :=
  { pmt with streams := pmt.streams.map fun s => if s.pid = stream.pid then stream else s }

/-- The clock of a program is that of the stream. -/
def PmtT.setPcr (pid pcrPid : Nat) (pmt : PmtT) : PmtT :=
  if pmt.pid = pid then { pmt with pcrPid } else pmt

/-- `ts_write_pes` for a stream of the muxer. -/
def sendFrame (func : TsFunc) (stream : PesT) (pcrPid : Nat) (data : List UInt8) (m : TsMuxer) :
    Int × TsMuxer :=
  let (r, stream', packets) := tsWritePes func pcrPid m.withAud stream m.output.packets data
  let unit : TsUnit := ⟨stream.pid, pesHead stream m.withAud data.length ++ data, r = 0⟩
  (r, { m with
    pat := { m.pat with pmts := m.pat.pmts.map (PmtT.put stream') }
    output := {
      packets
      sent := if packets = m.output.packets then m.output.sent else m.output.sent ++ [unit] } })

/-- `-ENOENT`. -/
def minusEnoent : Int := -2

/-- The program clock goes over to the stream: there is none, or it is of another stream than
    this one of video. -/
def changesPcr (pmt : PmtT) (stream : PesT) : Bool :=
  pmt.pcrPid = 0x1FFF || (stream.sid &&& pesSidVideo = pesSidVideo && pmt.pcrPid ≠ stream.pid)

/-- The muxer with what `mpeg_ts_write` notes of a frame. -/
def prepare (m : TsMuxer) (pmt : PmtT) (stream : PesT) (withAud : Bool) : TsMuxer :=
  let pmts := m.pat.pmts.map (PmtT.put stream)
  if changesPcr pmt stream then
    { m with
      pat := { m.pat with pmts := pmts.map (PmtT.setPcr pmt.pid stream.pid) }
      withAud
      patPeriod := 0
      patCycle := 1 }
  else
    { m with pat := { m.pat with pmts }, withAud, patCycle := m.patCycle + 1 }

/-- The tables are due. -/
def tablesDue (m : TsMuxer) (dts : Int) : Bool :=
  m.patCycle % 50 = 0 || m.patPeriod = 0 || m.patPeriod + 400 * 90 ≤ dts

/-- The stream at a frame. -/
def atFrame (stream : PesT) (flags : Nat) (pts dts : Int) : PesT :=
  { stream with pts, dts, dataAlignmentIndicator := flags % 2 = 1 }

/-- The tables, if they are due. -/
def sendTables (func : TsFunc) (dts : Int) (m : TsMuxer) : Int × TsMuxer :=
  if m.tablesDue dts then emitTables func dts { m with patCycle := 0, patPeriod := dts }
  else (0, m)

/-- `mpeg_ts_write`. -/
def write (func : TsFunc) (m : TsMuxer) (pid flags : Nat) (pts dts : Int) (data : List UInt8) :
    Int × TsMuxer :=
  match m.find pid with
  | none => (minusEnoent, m)
  | some (pmt, stream) =>
      let stream := atFrame stream flags pts dts
      let pcrPid := if changesPcr pmt stream then stream.pid else pmt.pcrPid
      andThen (sendTables func dts (m.prepare pmt stream (flags / 0x8000 % 2 = 1)))
        (sendFrame func stream pcrPid data)

/-! ## Programs and streams -/

/-- `mpeg_ts_reset`. -/
def reset (m : TsMuxer) : TsMuxer := { m with patPeriod := 0, patCycle := 0 }

/-- `pat_alloc_pmt`: the muxer with room for one program more. -/
def patAllocPmt (memory : TsMemory) (m : TsMuxer) : Option TsMuxer :=
  -- the array is `pmt_default` first, which has room for one
  let capacity := if m.pmtCapacity = 0 then 1 else m.pmtCapacity
  if m.pat.pmts.length < capacity then some { m with pmtCapacity := capacity }
  else if 65535 < m.pat.pmts.length + 1 then none
  else if memory.programs = false then none
  else some { m with pmtCapacity := capacity + capacity / 4 + 4 }

/-- `mpeg_ts_add_program`. -/
def addProgram (memory : TsMemory) (m : TsMuxer) (pn : Nat) (info : List UInt8) : Int × TsMuxer :=
  if pn < 1 ∨ 4096 ≤ info.length then (-1, m)
  else if m.pat.pmts.any fun pmt => pmt.pn = pn then (-1, m)
  else
    match patAllocPmt memory m with
    | none => (-1, m)
    | some m =>
        if info ≠ [] ∧ memory.info = false then (-1, { m with pid := m.pid + 1 })
        else
          (0, reset { m with
            pat := { m.pat with pmts := m.pat.pmts ++ [{ pid := m.pid, pn, pminfo := info }] }
            pid := m.pid + 1 })

/-- `mpeg_ts_remove_program`. -/
def removeProgram (m : TsMuxer) (pn : Nat) : Int × TsMuxer :=
  if m.pat.pmts.any fun pmt => pmt.pn = pn then
    (0, reset { m with pat := { m.pat with pmts := m.pat.pmts.eraseP fun pmt => pmt.pn = pn } })
  else (-1, m)

/-- `mpeg_stream_type_video`. -/
def streamTypeVideo (codecid : Int) : Bool :=
  codecid ∈ ([0x1b, 0x24, 0x01, 0x02, 0x10, 0xea, 0x80, 0xd1] : List Int)

/-- `mpeg_stream_type_audio`. -/
def streamTypeAudio (codecid : Int) : Bool :=
  codecid ∈ ([0x0f, 0x1c, 0x11, 0x03, 0x04, 0x81, 0x8a, 0x87, 0x9B, 0x90, 0x91, 0x92, 0x93, 0x99,
    0x9c] : List Int)

/-- The stream that `mpeg_ts_pmt_add_stream` makes. -/
def newStream (pid : Nat) (codecid : Int) (extra : List UInt8) : PesT where
  pid
  codecid := UInt8.ofInt codecid
  sid :=
    if streamTypeVideo codecid then pesSidVideo
    else if streamTypeAudio codecid then pesSidAudio
    else pesSidPrivate1
  -- `esinfo_len` has 16 bits
  esinfo := extra.take (extra.length % 65536)

/-- The program gets a stream and a version. -/
def PmtT.addStream (pid : Nat) (stream : PesT) (pmt : PmtT) : PmtT :=
  if pmt.pid = pid then
    { pmt with streams := pmt.streams ++ [stream], ver := (pmt.ver + 1) % 32 }
  else pmt

/-- `mpeg_ts_pmt_add_stream`. -/
def pmtAddStream (memory : TsMemory) (m : TsMuxer) (pmt : PmtT) (codecid : Int)
    (extra : List UInt8) : Int × TsMuxer :=
  if 4 ≤ pmt.streams.length then (-1, m)
  else if extra ≠ [] ∧ memory.info = false then (-enomem, { m with pid := m.pid + 1 })
  else
    let pmts := m.pat.pmts.map (PmtT.addStream pmt.pid (newStream m.pid codecid extra))
    (m.pid, reset { m with pat := { m.pat with pmts }, pid := m.pid + 1 })

/-- `mpeg_ts_add_program_stream`. -/
def addProgramStream (memory : TsMemory) (m : TsMuxer) (pn : Nat) (codecid : Int)
    (extra : List UInt8) : Int × TsMuxer :=
  match m.pat.pmts.find? fun pmt => pmt.pn = pn with
  | none => (-1, m)
  | some pmt => m.pmtAddStream memory pmt codecid extra

/-- The muxer with a program at least: the one that `mpeg_ts_add_stream` makes if there is none. -/
def withProgram (memory : TsMemory) (m : TsMuxer) : TsMuxer :=
  if m.pat.pmts = [] then (m.addProgram memory 1 []).2 else m

/-- `mpeg_ts_add_stream`: a stream of the first program. -/
def addStream (memory : TsMemory) (m : TsMuxer) (codecid : Int) (extra : List UInt8) :
    Int × TsMuxer :=
  let m := m.withProgram memory
  match m.pat.pmts with
  | [] => (-1, m)
  | pmt :: _ => m.pmtAddStream memory pmt codecid extra

/-! ## Runs -/

end TsMuxer

/-- A call of the muxer. -/
inductive TsCall
  | addProgram (memory : TsMemory) (pn : Nat) (info : List UInt8)
  | removeProgram (pn : Nat)
  | addProgramStream (memory : TsMemory) (pn : Nat) (codecid : Int) (extra : List UInt8)
  | addStream (memory : TsMemory) (codecid : Int) (extra : List UInt8)
  | reset
  | write (func : TsFunc) (pid flags : Nat) (pts dts : Int) (data : List UInt8)

namespace TsMuxer

/-- A call, and what it returns. -/
def call (m : TsMuxer) : TsCall → Int × TsMuxer
  | .addProgram memory pn info => m.addProgram memory pn info
  | .removeProgram pn => m.removeProgram pn
  | .addProgramStream memory pn codecid extra => m.addProgramStream memory pn codecid extra
  | .addStream memory codecid extra => m.addStream memory codecid extra
  | .reset => (0, m.reset)
  | .write func pid flags pts dts data => m.write func pid flags pts dts data

/-- What callers keep to: there is a PID for what is added (`0x1FFF` is none), the number of a
    program has 16 bits, and at a frame the tables fit in a packet each, as the code asserts. -/
def Enabled (m : TsMuxer) : TsCall → Prop
  | .addProgram _ pn _ => m.pid < 0x1FFF ∧ pn < 65536
  | .addProgramStream _ _ _ _ => m.pid < 0x1FFF
  | .addStream _ _ _ => m.pid + (if m.pat.pmts = [] then 1 else 0) < 0x1FFF
  | .write _ _ _ _ _ _ => m.pat.TablesFit
  | .removeProgram _ => True
  | .reset => True

instance (m : TsMuxer) : DecidablePred m.Enabled
  | .addProgram _ _ _ => inferInstanceAs (Decidable (_ ∧ _))
  | .addProgramStream _ _ _ _ => inferInstanceAs (Decidable (_ < _))
  | .addStream _ _ _ => inferInstanceAs (Decidable (_ < _))
  | .removeProgram _ => inferInstanceAs (Decidable True)
  | .reset => inferInstanceAs (Decidable True)
  | .write _ _ _ _ _ _ => inferInstanceAs (Decidable (PatT.TablesFit _))

/-- A muxer and its callers. -/
def machine : Machine TsMuxer TsCall Empty where
  init := {}
  enabled := Enabled
  step m c := .ok (m.call c).2

instance (m : TsMuxer) (c : TsCall) : Decidable (machine.enabled m c) :=
  inferInstanceAs (Decidable (m.Enabled c))

end TsMuxer

end SeastarLive
