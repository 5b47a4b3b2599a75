/-
SeastarLive.Mpeg.Pes — the header of a PES packet.

`3rd/libmpeg/source/mpeg-pes.c`, with the records of `3rd/libmpeg/include/mpeg-pes-proto.h`
that the muxer and the demultiplexer share. A buffer is a list of bytes.

* A clock of 90 kHz is an `int64_t`; 33 bits of it are written. The fields that nothing reads
  after `pes_read_header` are left out, and so is a buffer too small for the header
  (`ts_write_pes` leaves at least 176 bytes).
* The writer skips `PES_packet_length`; here it is given the value that `ts_write_pes` puts
  there.
* `pesReadHeader_pesWriteHeader`: the header is read back, whatever clocks it carries.
-/
import SeastarLive.Lib.Endian

namespace SeastarLive

/-! ## Streams -/

/-- `PTS_NO_VALUE`. -/
def ptsNoValue : Int := -9223372036854775808

def pesSidPrivate1 : UInt8 := 0xBD
def pesSidAudio : UInt8 := 0xC0
def pesSidVideo : UInt8 := 0xE0

/-- `packet_t`: the bytes of an access unit so far. -/
structure PacketT where
  sid : UInt8 := 0
  codecid : UInt8 := 0
  flags : Nat := 0
  pts : Int := 0
  dts : Int := 0
  data : List UInt8 := []
  vcl : Nat := 0
deriving DecidableEq

/-- `pes_t`: an elementary stream and the PES packet it is at. -/
structure PesT where
  pn : Nat := 0
  pid : Nat := 0
  sid : UInt8 := 0
  codecid : UInt8 := 0
  /-- `continuity_counter` -/
  cc : Nat := 0
  esinfo : List UInt8 := []
  /-- `PES_packet_length` -/
  len : Nat := 0
  dataAlignmentIndicator : Bool := false
  pts : Int := 0
  dts : Int := 0
  havePesHeader : Bool := false
  flags : Nat := 0
  pkt : PacketT := {}
deriving DecidableEq

/-! ## Clocks -/

/-- The part of a clock that is written. -/
def clock33 (t : Int) : Int := t % 8589934592

/-- A clock in five bytes, with a marker bit after each of its three parts. -/
def clockBytes (mark : Nat) (t : Int) : List UInt8 :=
  let n := (clock33 t).toNat
  [UInt8.ofNat (mark + n / 2 ^ 30 * 2 + 1), UInt8.ofNat (n / 2 ^ 22 % 256),
    UInt8.ofNat (n / 2 ^ 15 % 128 * 2 + 1), UInt8.ofNat (n / 2 ^ 7 % 256),
    UInt8.ofNat (n % 128 * 2 + 1)]

/-- `DATA(off)`, without the mark it sets when there is no such byte. -/
def dataAt (data : List UInt8) (off : Nat) : Nat := (data.getD off 0).toNat

/-- The clock at `i`. -/
def clockAt (data : List UInt8) (i : Nat) : Int :=
  ((dataAt data i / 2 % 8 * 2 ^ 30 + dataAt data (i + 1) * 2 ^ 22
    + dataAt data (i + 2) / 2 % 128 * 2 ^ 15 + dataAt data (i + 3) * 2 ^ 7
    + dataAt data (i + 4) / 2 % 128 : Nat) : Int)

@[simp] theorem length_clockBytes (mark : Nat) (t : Int) : (clockBytes mark t).length = 5 := rfl

theorem dataAt_append (front data : List UInt8) (i : Nat) :
    dataAt (front ++ data) (front.length + i) = dataAt data i := by
  unfold dataAt
  rw [List.getD_append_right _ _ _ _ (Nat.le_add_right _ _), Nat.add_sub_cancel_left]

theorem clockAt_append (front data : List UInt8) (i : Nat) :
    clockAt (front ++ data) (front.length + i) = clockAt data i := by
  unfold clockAt
  simp only [Nat.add_assoc, dataAt_append]

theorem clock33_nonneg (t : Int) : 0 ≤ clock33 t := Int.emod_nonneg _ (by decide)

theorem clock33_lt (t : Int) : clock33 t < 8589934592 := Int.emod_lt_of_pos _ (by decide)

/-- A clock is read back, whatever mark stands in front of it. -/
theorem clockAt_clockBytes {mark : Nat} (hmark : mark % 16 = 0) (hle : mark ≤ 240) (t : Int)
    (rest : List UInt8) : clockAt (clockBytes mark t ++ rest) 0 = clock33 t := by
  have hnonneg := clock33_nonneg t
  have hlt := clock33_lt t
  generalize hn : (clock33 t).toNat = n
  have hn33 : n < 8589934592 := by omega
  have h0 : dataAt (clockBytes mark t ++ rest) 0 = mark + n / 2 ^ 30 * 2 + 1 := by
    rw [← hn]
    exact toNat_byte (by omega)
  have h1 : dataAt (clockBytes mark t ++ rest) 1 = n / 2 ^ 22 % 256 := by
    rw [← hn]
    exact toNat_byte (by omega)
  have h2 : dataAt (clockBytes mark t ++ rest) 2 = n / 2 ^ 15 % 128 * 2 + 1 := by
    rw [← hn]
    exact toNat_byte (by omega)
  have h3 : dataAt (clockBytes mark t ++ rest) 3 = n / 2 ^ 7 % 256 := by
    rw [← hn]
    exact toNat_byte (by omega)
  have h4 : dataAt (clockBytes mark t ++ rest) 4 = n % 128 * 2 + 1 := by
    rw [← hn]
    exact toNat_byte (by omega)
  unfold clockAt
  rw [h0, h1, h2, h3, h4]
  omega

/-! ## Writing -/

/-- The header has a PTS. -/
def PesT.hasPts (pes : PesT) : Bool := pes.pts ≠ ptsNoValue

/-- The header has a DTS, since it is not the PTS. -/
def PesT.hasDts (pes : PesT) : Bool := pes.dts ≠ ptsNoValue && pes.dts ≠ pes.pts

/-- `PES_header_data_length`. -/
def PesT.headerDataLength (pes : PesT) : Nat :=
  (if pes.hasPts then 5 else 0) + (if pes.hasDts then 5 else 0)

/-- `pes_write_header`. -/
def pesWriteHeader (pes : PesT) (packetLength : Nat) : List UInt8 :=
  [0, 0, 1, pes.sid] ++ beBytes 2 packetLength
    ++ [if pes.dataAlignmentIndicator then 0x84 else 0x80,
      (if pes.hasPts then 0x80 else 0) + (if pes.hasDts then 0x40 else 0),
      UInt8.ofNat pes.headerDataLength]
    ++ (if pes.hasPts then clockBytes (if pes.hasDts then 0x30 else 0x20) pes.pts else [])
    ++ (if pes.hasDts then clockBytes 0x10 pes.dts else [])

theorem length_pesWriteHeader (pes : PesT) (packetLength : Nat) :
    (pesWriteHeader pes packetLength).length = 9 + pes.headerDataLength := by
  unfold pesWriteHeader PesT.headerDataLength
  cases pes.hasPts <;> cases pes.hasDts <;> rfl

theorem PesT.headerDataLength_le (pes : PesT) : pes.headerDataLength ≤ 10 := by
  unfold PesT.headerDataLength
  split <;> split <;> omega

/-! ## Reading -/

/-- `pes_read_header`: the length of the header, or 0, and what is known of the packet. -/
def pesReadHeader (pes : PesT) (data : List UInt8) : Nat × PesT :=
  if data.length < 3 + 6 then (0, pes)
  else
    let len := dataAt data 4 * 256 + dataAt data 5
    let hasPts := dataAt data 7 / 128 % 2 = 1
    let hasDts := dataAt data 7 / 64 % 2 = 1
    let escr := dataAt data 7 / 32 % 2 = 1
    let esRate := dataAt data 7 / 16 % 2 = 1
    let headerDataLength := dataAt data 8
    let pts := if hasPts then clockAt data 9 else pes.pts
    let i := if hasPts then 14 else 9
    let dts := if hasDts then clockAt data i else if hasPts then pts else pes.dts
    -- what is read of the other optional fields is the last byte of them that has to be there
    let i := if hasDts then i + 5 else i
    let i := if escr then i + 6 else i
    let i := if esRate then i + 3 else i
    let read : PesT :=
      { pes with
        sid := data.getD 3 0
        len
        dataAlignmentIndicator := dataAt data 6 / 4 % 2 = 1
        pts
        dts }
    if 0 < len ∧ len < headerDataLength + 3 then (0, read)
    else
      (if data.length < i then 0 else headerDataLength + 9,
        { read with len := if 0 < len then len - (headerDataLength + 3) else len })

/-! ## A header that is read back -/

/-- What a reader that knows `old` knows after the header of `pes`. -/
def PesT.afterHeader (old pes : PesT) (packetLength : Nat) : PesT :=
  { old with
    sid := pes.sid
    len := packetLength - (pes.headerDataLength + 3)
    dataAlignmentIndicator := pes.dataAlignmentIndicator
    pts := if pes.hasPts then clock33 pes.pts else old.pts
    dts :=
      if pes.hasDts then clock33 pes.dts
      else if pes.hasPts then clock33 pes.pts else old.dts }

/-- The nine bytes in front of the clocks. -/
def pesFront (pes : PesT) (packetLength : Nat) : List UInt8 :=
  [0, 0, 1, pes.sid, UInt8.ofNat (packetLength / 256), UInt8.ofNat packetLength,
    if pes.dataAlignmentIndicator then 0x84 else 0x80,
    (if pes.hasPts then 0x80 else 0) + (if pes.hasDts then 0x40 else 0),
    UInt8.ofNat pes.headerDataLength]

/-- The clocks. -/
def pesClocks (pes : PesT) : List UInt8 :=
  (if pes.hasPts then clockBytes (if pes.hasDts then 0x30 else 0x20) pes.pts else [])
    ++ (if pes.hasDts then clockBytes 0x10 pes.dts else [])

theorem pesWriteHeader_eq (pes : PesT) (packetLength : Nat) :
    pesWriteHeader pes packetLength = pesFront pes packetLength ++ pesClocks pes := by
  unfold pesWriteHeader pesClocks
  rw [List.append_assoc (_ ++ _)]
  rfl

theorem length_pesClocks (pes : PesT) : (pesClocks pes).length = pes.headerDataLength := by
  unfold pesClocks PesT.headerDataLength
  cases pes.hasPts <;> cases pes.hasDts <;> rfl

/-- The bits that say which clocks there are. -/
theorem pesFront_flags (pes : PesT) (packetLength : Nat) (rest : List UInt8) :
    let flags := dataAt (pesFront pes packetLength ++ rest) 7
    (flags / 128 % 2 = 1 ↔ pes.hasPts = true) ∧ (flags / 64 % 2 = 1 ↔ pes.hasDts = true)
      ∧ flags / 32 % 2 ≠ 1 ∧ flags / 16 % 2 ≠ 1 := by
  have hflags : dataAt (pesFront pes packetLength ++ rest) 7
      = ((if pes.hasPts then 0x80 else 0) + (if pes.hasDts then 0x40 else 0) : UInt8).toNat := rfl
  intro flags
  have hflags : flags = _ := hflags
  rw [hflags]
  cases pes.hasPts <;> cases pes.hasDts <;> decide

/-- The clocks behind the front. -/
theorem clockAt_pesFront (pes : PesT) (packetLength i : Nat) (rest : List UInt8) :
    clockAt (pesFront pes packetLength ++ rest) (9 + i) = clockAt rest i :=
  clockAt_append (pesFront pes packetLength) rest i

theorem clockAt_pts {pes : PesT} (h : pes.hasPts = true) (packetLength : Nat)
    (rest : List UInt8) :
    clockAt (pesFront pes packetLength ++ (pesClocks pes ++ rest)) 9 = clock33 pes.pts := by
  rw [clockAt_pesFront pes packetLength 0, pesClocks, if_pos h, List.append_assoc]
  split
  · exact clockAt_clockBytes (by decide) (by decide) _ _
  · exact clockAt_clockBytes (by decide) (by decide) _ _

theorem clockAt_dts {pes : PesT} (h : pes.hasDts = true) (packetLength : Nat)
    (rest : List UInt8) :
    clockAt (pesFront pes packetLength ++ (pesClocks pes ++ rest)) (if pes.hasPts then 14 else 9)
      = clock33 pes.dts := by
  unfold pesClocks
  rw [if_pos h, List.append_assoc]
  split
  · have hbehind := clockAt_append (clockBytes (if pes.hasDts then 0x30 else 0x20) pes.pts)
      (clockBytes 0x10 pes.dts ++ rest) 0
    rw [clockAt_pesFront pes packetLength 5]
    exact hbehind.trans (clockAt_clockBytes (by decide) (by decide) _ _)
  · rw [clockAt_pesFront pes packetLength 0]
    exact clockAt_clockBytes (by decide) (by decide) _ _

/-- The header is read back: a length of 0 stays 0, a clock is known by its 33 low bits, and a
    PTS without a DTS is both. -/
theorem pesReadHeader_pesWriteHeader (old pes : PesT) {packetLength : Nat}
    (hlt : packetLength < 65536)
    (hlen : packetLength = 0 ∨ pes.headerDataLength + 3 ≤ packetLength) (rest : List UInt8) :
    pesReadHeader old (pesWriteHeader pes packetLength ++ rest)
      = ((pesWriteHeader pes packetLength).length, old.afterHeader pes packetLength) := by
  have hhdl := pes.headerDataLength_le
  rw [length_pesWriteHeader, pesWriteHeader_eq, List.append_assoc]
  have hpts' := fun h : pes.hasPts = true => clockAt_pts h packetLength rest
  have hdts' := fun h : pes.hasDts = true => clockAt_dts h packetLength rest
  have hlength : (pesFront pes packetLength ++ (pesClocks pes ++ rest)).length
      = 9 + pes.headerDataLength + rest.length := by
    rw [List.length_append, List.length_append, length_pesClocks, ← Nat.add_assoc]
    rfl
  generalize pesClocks pes ++ rest = tail at hpts' hdts' hlength ⊢
  obtain ⟨hpts, hdts, hescr, hrate⟩ := pesFront_flags pes packetLength tail
  have h4 : dataAt (pesFront pes packetLength ++ tail) 4 = packetLength / 256 :=
    toNat_byte (by omega)
  have h5 : dataAt (pesFront pes packetLength ++ tail) 5 = packetLength % 256 :=
    UInt8.toNat_ofNat'
  have h8 : dataAt (pesFront pes packetLength ++ tail) 8 = pes.headerDataLength :=
    toNat_byte (by omega)
  have hread : dataAt (pesFront pes packetLength ++ tail) 4 * 256
      + dataAt (pesFront pes packetLength ++ tail) 5 = packetLength := by
    rw [h4, h5]
    omega
  have halign : decide (dataAt (pesFront pes packetLength ++ tail) 6 / 4 % 2 = 1)
      = pes.dataAlignmentIndicator := by
    have h6 : dataAt (pesFront pes packetLength ++ tail) 6
        = (if pes.dataAlignmentIndicator then 0x84 else 0x80 : UInt8).toNat := rfl
    rw [h6]
    cases pes.dataAlignmentIndicator <;> decide
  have hsid : (pesFront pes packetLength ++ tail).getD 3 0 = pes.sid := rfl
  have hshort : ¬ (0 < packetLength ∧ packetLength < pes.headerDataLength + 3) := by omega
  have hrest : (if 0 < packetLength then packetLength - (pes.headerDataLength + 3)
      else packetLength) = packetLength - (pes.headerDataLength + 3) := by
    split <;> omega
  have hreads : ¬ (pesFront pes packetLength ++ tail).length
      < if pes.hasDts then (if pes.hasPts then 14 else 9) + 5
        else if pes.hasPts then 14 else 9 := by
    rw [hlength]
    unfold PesT.headerDataLength
    cases pes.hasPts <;> cases pes.hasDts <;> simp
  unfold pesReadHeader
  rw [if_neg (show ¬ (pesFront pes packetLength ++ tail).length < 3 + 6 by omega)]
  simp only [hread, h8, hpts, hdts, if_neg hescr, if_neg hrate, halign, hsid, if_neg hshort,
    hrest, if_neg hreads, Nat.add_comm pes.headerDataLength 9]
  unfold PesT.afterHeader
  rw [ite_congr rfl hpts' fun _ => rfl, ite_congr rfl hdts' fun _ => rfl]
  cases pes.hasPts <;> rfl

end SeastarLive
