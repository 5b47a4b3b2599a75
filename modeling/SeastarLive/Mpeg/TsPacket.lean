/-
SeastarLive.Mpeg.TsPacket — the packets of a transport stream.

`ts_write_pes` and `mpeg_ts_write_section_header` of `3rd/libmpeg/source/mpeg-ts-enc.c` cut PES
packets and sections into packets of 188 bytes; the head of `ts_demuxer_input` of
`3rd/libmpeg/source/mpeg-ts-dec.c` takes a packet apart.

* `alloc` and `write` answer by the packets written so far. In one call no two packets are
  allocated or written behind the same ones, so for a call this is any answers; every call has
  functions of its own. What is written is a list of packets.
* Of an adaptation field the reader keeps what the muxer writes. The multiplication by 300 of a
  clock and its division cancel, so no extension is written; no `int64_t` overflows in it.
* `tsPacket_tsFrame`: a packet is taken apart into what it was made of.
* `tsWritePes_carries`: the packets of a PES packet have 188 bytes, are numbered, and carry the
  PES packet; if a write fails, the first part of it.
-/
import SeastarLive.Lib.Packets
import SeastarLive.Mpeg.Pes

namespace SeastarLive

open LinePacket

/-- `TS_PACKET_SIZE`. -/
def tsPacketSize : Nat := 188

def psiStreamH264 : UInt8 := 0x1b
def psiStreamH265 : UInt8 := 0x24

/-- `ENOMEM`. -/
def enomem : Int := 12

/-! ## Taking a packet apart -/

/-- `ts_adaptation_field_t`; of the clock reference, the base. -/
structure TsAdaptationField where
  length : Nat := 0
  randomAccessIndicator : Bool := false
  programClockReference : Option Int := none
deriving DecidableEq

/-- `adaptation_filed_read`. -/
def adaptationFieldRead (data : List UInt8) : TsAdaptationField :=
  if dataAt data 0 = 0 then {}
  else {
    length := dataAt data 0
    randomAccessIndicator := dataAt data 1 / 64 % 2 = 1
    programClockReference :=
      if dataAt data 1 / 16 % 2 = 1 then
        some ((dataAt data 2 * 2 ^ 25 + dataAt data 3 * 2 ^ 17 + dataAt data 4 * 2 ^ 9
          + dataAt data 5 * 2 + dataAt data 6 / 128 % 2 : Nat) : Int)
      else none }

/-- `adaptation_field_control`. -/
def adaptationFieldControl (data : List UInt8) : Nat := dataAt data 3 / 16 % 4

/-- Where the payload starts. -/
def payloadOffset (data : List UInt8) : Nat :=
  if adaptationFieldControl data / 2 % 2 = 1 then
    4 + ((adaptationFieldRead (data.drop 4)).length + 1)
  else 4

/-- What `ts_demuxer_input` sees of a packet; one without payload is of no use to it. -/
def tsPacket (data : List UInt8) : LinePacket Nat UInt8 where
  channel := (dataAt data 1 * 256 + dataAt data 2) % 8192
  starts := dataAt data 1 / 64 % 2 = 1
  counter := dataAt data 3 % 16
  payload := if adaptationFieldControl data % 2 = 1 then data.drop (payloadOffset data) else []

/-! ## Making a packet -/

/-- A packet: four bytes, the adaptation field if there is one, the payload. -/
def tsFrame (start : Bool) (pid cc : Nat) (field payload : List UInt8) : List UInt8 :=
  [0x47, UInt8.ofNat ((if start then 0x40 else 0) + pid / 256 % 32), UInt8.ofNat pid,
    UInt8.ofNat (0x10 + (if field = [] then 0 else 0x20) + cc % 16)] ++ field ++ payload

/-- An adaptation field whose first byte is the length of the rest. -/
structure FieldFits (field : List UInt8) : Prop where
  length_le : field.length ≤ 184
  head : field = [] ∨ dataAt field 0 + 1 = field.length

theorem length_tsFrame (start : Bool) (pid cc : Nat) (field payload : List UInt8) :
    (tsFrame start pid cc field payload).length = 4 + field.length + payload.length := by
  unfold tsFrame
  rw [List.length_append, List.length_append]
  rfl

theorem length_adaptationFieldRead (data : List UInt8) :
    (adaptationFieldRead data).length = dataAt data 0 := by
  unfold adaptationFieldRead
  split
  · rename_i h
    exact h.symm
  · rfl

/-- A packet is taken apart into what it was made of. -/
theorem tsPacket_tsFrame (start : Bool) (pid cc : Nat) {field : List UInt8}
    (hfield : FieldFits field) (payload : List UInt8) :
    tsPacket (tsFrame start pid cc field payload)
      = { channel := pid % 8192, starts := start, counter := cc % 16, payload } := by
  have hcc : cc % 16 < 16 := Nat.mod_lt _ (by decide)
  have h1 : dataAt (tsFrame start pid cc field payload) 1
      = (if start then 0x40 else 0) + pid / 256 % 32 := by
    refine toNat_byte ?_
    split <;> omega
  have h2 : dataAt (tsFrame start pid cc field payload) 2 = pid % 256 := UInt8.toNat_ofNat'
  have h3 : dataAt (tsFrame start pid cc field payload) 3
      = 0x10 + (if field = [] then 0 else 0x20) + cc % 16 := by
    refine toNat_byte ?_
    split <;> omega
  have hcontrol : adaptationFieldControl (tsFrame start pid cc field payload)
      = 1 + if field = [] then 0 else 2 := by
    rw [adaptationFieldControl, h3]
    split <;> omega
  have hdrop : (tsFrame start pid cc field payload).drop 4 = field ++ payload := rfl
  have hoffset : payloadOffset (tsFrame start pid cc field payload) = 4 + field.length := by
    rw [payloadOffset, hcontrol, hdrop, length_adaptationFieldRead]
    rcases hfield.head with rfl | hhead
    · rfl
    · have hne : field ≠ [] := by
        rintro rfl
        exact absurd hhead (by decide)
      have hfirst : dataAt (field ++ payload) 0 = dataAt field 0 := by
        unfold dataAt
        rw [List.getD_append _ _ _ _ (List.length_pos_of_ne_nil hne)]
      rw [if_neg hne, if_pos (by decide), hfirst, hhead]
  have hodd : (1 + if field = [] then 0 else 2) % 2 = 1 := by split <;> decide
  have hchannel : (((if start then 0x40 else 0) + pid / 256 % 32) * 256 + pid % 256) % 8192
      = pid % 8192 := by split <;> omega
  have hstart : decide (((if start then 0x40 else 0) + pid / 256 % 32) / 64 % 2 = 1)
      = start := by
    cases start with
    | true => exact decide_eq_true (show (64 + pid / 256 % 32) / 64 % 2 = 1 by omega)
    | false => exact decide_eq_false (show ¬ (0 + pid / 256 % 32) / 64 % 2 = 1 by omega)
  have hcounter : (0x10 + (if field = [] then 0 else 0x20) + cc % 16) % 16 = cc % 16 := by
    split <;> omega
  unfold tsPacket
  rw [hcontrol, if_pos hodd, hoffset, h1, h2, h3, hchannel, hstart, hcounter, ← List.drop_drop,
    hdrop, List.drop_left' rfl]

/-! ## PES packets -/

/-- `pcr_write`. -/
def pcrWrite (pcr : Int) : List UInt8 :=
  let base := (clock33 (pcr.tdiv 300)).toNat
  let ext := (pcr.tmod 300 % 512).toNat
  [UInt8.ofNat (base / 2 ^ 25), UInt8.ofNat (base / 2 ^ 17), UInt8.ofNat (base / 2 ^ 9),
    UInt8.ofNat (base / 2), UInt8.ofNat (base % 2 * 128 + 0x7E + ext / 256 % 2), UInt8.ofNat ext]

/-- The packet gets a program clock reference. -/
def needsPcr (stream : PesT) (pcrPid : Nat) (start : Bool) : Bool := start && stream.pid == pcrPid

/-- The packet is marked as one to start from. -/
def needsRandomAccess (stream : PesT) (start : Bool) : Bool :=
  start && stream.dataAlignmentIndicator && stream.pts != ptsNoValue

/-- What the adaptation field has besides its length and stuffing. -/
def fieldBody (stream : PesT) (pcrPid : Nat) (start : Bool) : List UInt8 :=
  let pcr := if stream.dts = ptsNoValue then stream.pts else stream.dts
  if needsPcr stream pcrPid start then
    (if needsRandomAccess stream start then 0x50 else 0x10) :: pcrWrite (pcr * 300)
  else if needsRandomAccess stream start then [0x40]
  else []

/-- The adaptation field with its stuffing; one that is only stuffing has a length of its own. -/
def adaptationField (body : List UInt8) (stuffing : Nat) : List UInt8 :=
  if body = [] then
    if stuffing = 0 then []
    else UInt8.ofNat (stuffing - 1)
      :: (if 1 < stuffing then 0 :: List.replicate (stuffing - 2) 0xFF else [])
  else UInt8.ofNat (body.length + stuffing) :: (body ++ List.replicate stuffing 0xFF)

/-- The access unit delimiter that `ts_write_pes` puts in front of a frame without one. -/
def accessUnitDelimiter (codecid : UInt8) (withAud : Bool) : List UInt8 :=
  if codecid = psiStreamH264 ∧ withAud = false then [0, 0, 0, 1, 0x09, 0xF0]
  else if codecid = psiStreamH265 ∧ withAud = false then [0, 0, 0, 1, 0x46, 0x01, 0x50]
  else []

/-- `PES_packet_length`: 0 for what does not fit in 16 bits. -/
def pesPacketLength (stream : PesT) (withAud : Bool) (bytes : Nat) : Nat :=
  let length := 3 + stream.headerDataLength
    + (accessUnitDelimiter stream.codecid withAud).length + bytes
  if 0xFFFF < length then 0 else length

/-- What comes in front of the payload of a PES packet. -/
def pesHead (stream : PesT) (withAud : Bool) (bytes : Nat) : List UInt8 :=
  pesWriteHeader stream (pesPacketLength stream withAud bytes)
    ++ accessUnitDelimiter stream.codecid withAud

/-- What comes in front of the payload of a packet. -/
def unitHead (stream : PesT) (withAud start : Bool) (bytes : Nat) : List UInt8 :=
  if start then pesHead stream withAud bytes else []

/-- The body of the loop of `ts_write_pes`: a packet, and how much of the payload is in it. -/
def tsPesPacket (stream : PesT) (pcrPid : Nat) (withAud start : Bool) (payload : List UInt8) :
    List UInt8 × Nat :=
  let body := fieldBody stream pcrPid start
  let head := unitHead stream withAud start payload.length
  let len := 4 + (adaptationField body 0).length + head.length
  if len + payload.length < tsPacketSize then
    let field := adaptationField body (tsPacketSize - (len + payload.length))
    (tsFrame start stream.pid stream.cc field (head ++ payload), payload.length)
  else
    (tsFrame start stream.pid stream.cc (adaptationField body 0)
      (head ++ payload.take (tsPacketSize - len)), tsPacketSize - len)

/-- `mpeg_ts_func_t`: what the functions answer in a call, by the packets written so far. -/
structure TsFunc where
  alloc : List (List UInt8) → Bool := fun _ => true
  write : List (List UInt8) → Int := fun _ => 0

/-- The loop of `ts_write_pes`, with at most `fuel` turns: what it returns, the stream and the
    packets written. -/
def tsWritePesLoop (func : TsFunc) (pcrPid : Nat) (withAud : Bool) :
    Nat → Bool → PesT → List (List UInt8) → List UInt8 → Int × PesT × List (List UInt8)
  | 0, _, stream, out, _ => (0, stream, out)
  | fuel + 1, start, stream, out, payload =>
      if payload = [] then (0, stream, out)
      else if func.alloc out = false then (enomem, stream, out)
      else
        let (packet, len) := tsPesPacket stream pcrPid withAud start payload
        let stream := { stream with cc := (stream.cc + 1) % 16 }
        let out := out ++ [packet]
        if func.write out ≠ 0 then (func.write out, stream, out)
        else tsWritePesLoop func pcrPid withAud fuel false stream out (payload.drop len)

/-- `ts_write_pes`; every turn takes a byte of the payload at least. -/
def tsWritePes (func : TsFunc) (pcrPid : Nat) (withAud : Bool) (stream : PesT)
    (out : List (List UInt8)) (payload : List UInt8) : Int × PesT × List (List UInt8) :=
  tsWritePesLoop func pcrPid withAud payload.length true stream out payload

/-! ## One packet of a PES packet -/

theorem length_fieldBody_le (stream : PesT) (pcrPid : Nat) (start : Bool) :
    (fieldBody stream pcrPid start).length ≤ 7 := by
  unfold fieldBody
  cases needsPcr stream pcrPid start with
  | true => exact Nat.le_refl 7
  | false =>
      cases needsRandomAccess stream start with
      | true => exact Nat.le_add_left 1 6
      | false => exact Nat.zero_le 7

theorem length_adaptationField (body : List UInt8) (stuffing : Nat) :
    (adaptationField body stuffing).length
      = (if body = [] then 0 else 1 + body.length) + stuffing := by
  unfold adaptationField
  split
  · split
    · rename_i h
      rw [h]
      rfl
    · rw [List.length_cons]
      split
      · rw [List.length_cons, List.length_replicate]
        omega
      · rw [List.length_nil]
        omega
  · rw [List.length_cons, List.length_append, List.length_replicate]
    omega

/-- The first byte is the length of the rest. -/
theorem adaptationField_shape (body : List UInt8) (stuffing : Nat) :
    adaptationField body stuffing = [] ∨
      ∃ rest, adaptationField body stuffing = UInt8.ofNat rest.length :: rest := by
  unfold adaptationField
  split
  · split
    · exact .inl rfl
    · refine .inr ⟨_, congrArg (· :: _) (congrArg UInt8.ofNat ?_)⟩
      split
      · rw [List.length_cons, List.length_replicate]
        omega
      · rw [List.length_nil]
        omega
  · refine .inr ⟨_, congrArg (· :: _) (congrArg UInt8.ofNat ?_)⟩
    rw [List.length_append, List.length_replicate]

theorem fieldFits_adaptationField {body : List UInt8} {stuffing : Nat}
    (h : (adaptationField body stuffing).length ≤ 184) :
    FieldFits (adaptationField body stuffing) := by
  refine ⟨h, ?_⟩
  obtain hnil | ⟨rest, hrest⟩ := adaptationField_shape body stuffing
  · exact .inl hnil
  · rw [hrest, List.length_cons] at h
    rw [hrest]
    exact .inr (congrArg (· + 1) (toNat_byte (by omega)))

theorem length_accessUnitDelimiter_le (codecid : UInt8) (withAud : Bool) :
    (accessUnitDelimiter codecid withAud).length ≤ 7 := by
  unfold accessUnitDelimiter
  split
  · decide
  · split <;> decide

theorem length_pesHead_le (stream : PesT) (withAud : Bool) (bytes : Nat) :
    (pesHead stream withAud bytes).length ≤ 26 := by
  have hclocks := stream.headerDataLength_le
  have haud := length_accessUnitDelimiter_le stream.codecid withAud
  rw [pesHead, List.length_append, length_pesWriteHeader]
  omega

/-- A packet has 188 bytes and is of its stream; what it carries is the head and the part of
    the payload it takes, which is not nothing. -/
theorem tsPesPacket_spec (stream : PesT) (pcrPid : Nat) (withAud start : Bool)
    {payload : List UInt8} (hpayload : payload ≠ []) :
    ∃ packet len, tsPesPacket stream pcrPid withAud start payload = (packet, len)
      ∧ packet.length = tsPacketSize ∧ 0 < len ∧ len ≤ payload.length
      ∧ tsPacket packet = {
          channel := stream.pid % 8192
          starts := start
          counter := stream.cc % 16
          payload := unitHead stream withAud start payload.length ++ payload.take len } := by
  have hpos := List.length_pos_of_ne_nil hpayload
  have hbody := length_fieldBody_le stream pcrPid start
  have hhead : (unitHead stream withAud start payload.length).length ≤ 26 := by
    unfold unitHead
    split
    · exact length_pesHead_le stream withAud payload.length
    · exact Nat.zero_le _
  have hfield0 := length_adaptationField (fieldBody stream pcrPid start) 0
  have hsmall : (adaptationField (fieldBody stream pcrPid start) 0).length ≤ 8 := by
    rw [hfield0]
    split <;> omega
  by_cases hlast : 4 + (adaptationField (fieldBody stream pcrPid start) 0).length
      + (unitHead stream withAud start payload.length).length + payload.length < 188
  · have hfield := length_adaptationField (fieldBody stream pcrPid start)
      (188 - (4 + (adaptationField (fieldBody stream pcrPid start) 0).length
        + (unitHead stream withAud start payload.length).length + payload.length))
    refine ⟨_, _, if_pos hlast, ?_, hpos, Nat.le_refl _, ?_⟩
    · rw [length_tsFrame, List.length_append]
      change 4 + (adaptationField _ (188 - _)).length + _ = 188
      omega
    · rw [tsPacket_tsFrame _ _ _ (fieldFits_adaptationField _), List.take_length]
      change (adaptationField _ (188 - _)).length ≤ 184
      omega
  · have htaken : 188 - (4 + (adaptationField (fieldBody stream pcrPid start) 0).length
        + (unitHead stream withAud start payload.length).length) ≤ payload.length := by omega
    refine ⟨_, _, if_neg hlast, ?_, ?_, htaken,
      tsPacket_tsFrame _ _ _ (fieldFits_adaptationField (by omega)) _⟩
    · change (tsFrame _ _ _ _ (_ ++ payload.take (188 - _))).length = 188
      rw [length_tsFrame, List.length_append, List.length_take, Nat.min_eq_left htaken]
      omega
    · change 0 < 188 - _
      omega

/-! ## All packets of a PES packet -/

/-- The packets `ps` are of the channel `pid` and take its counter from `cc` to `cc'`. -/
structure Sends (pid cc cc' : Nat) (ps : List (List UInt8)) : Prop where
  length : ∀ p ∈ ps, p.length = tsPacketSize
  channel : ∀ p ∈ ps.map tsPacket, p.channel = pid % 8192
  numbered : Numbered 16 cc (ps.map tsPacket)
  counter : cc' % 16 = (cc + ps.length) % 16

theorem Sends.nil (pid cc : Nat) : Sends pid cc cc [] where
  length := List.forall_mem_nil _
  channel := List.forall_mem_nil _
  numbered := trivial
  counter := rfl

/-- One packet more, in front. -/
theorem Sends.cons {pid cc cc' : Nat} {packet : List UInt8} {ps : List (List UInt8)}
    (hlength : packet.length = tsPacketSize) (hchannel : (tsPacket packet).channel = pid % 8192)
    (hcounter : (tsPacket packet).counter = cc % 16) (h : Sends pid ((cc + 1) % 16) cc' ps) :
    Sends pid cc cc' (packet :: ps) where
  length := List.forall_mem_cons.mpr ⟨hlength, h.length⟩
  channel := List.forall_mem_cons.mpr ⟨hchannel, h.channel⟩
  numbered := ⟨hcounter, h.numbered.congr (Nat.mod_mod _ _)⟩
  counter := by
    rw [h.counter, List.length_cons]
    omega

/-- The payloads of packets, one after the other. -/
def carried (ps : List (List UInt8)) : List UInt8 := ps.flatMap fun p => (tsPacket p).payload

/-- The loop behind the first packet: what it writes are parts of the payload, and all of it
    where it returns 0. -/
theorem tsWritePesLoop_spec (func : TsFunc) (pcrPid : Nat) (withAud : Bool) {fuel : Nat}
    {payload : List UInt8} (hfuel : payload.length ≤ fuel) (stream : PesT)
    (out : List (List UInt8)) :
    ∃ r cc ps, tsWritePesLoop func pcrPid withAud fuel false stream out payload
        = (r, { stream with cc }, out ++ ps)
      ∧ Sends stream.pid stream.cc cc ps ∧ (∀ p ∈ ps, (tsPacket p).starts = false)
      ∧ carried ps <+: payload ∧ (r = 0 → carried ps = payload) := by
  induction fuel generalizing payload stream out with
  | zero =>
      obtain rfl : payload = [] := List.eq_nil_of_length_eq_zero (Nat.le_zero.mp hfuel)
      exact ⟨0, stream.cc, [], congrArg (fun o => (0, stream, o)) (List.append_nil out).symm,
        .nil _ _, List.forall_mem_nil _, List.prefix_rfl, fun _ => rfl⟩
  | succ fuel ih =>
      unfold tsWritePesLoop
      split
      · rename_i hnil
        subst hnil
        exact ⟨0, stream.cc, [], congrArg (fun o => (0, stream, o)) (List.append_nil out).symm,
          .nil _ _, List.forall_mem_nil _, List.prefix_rfl, fun _ => rfl⟩
      rename_i hpayload
      split
      · exact ⟨enomem, stream.cc, [],
          congrArg (fun o => (enomem, stream, o)) (List.append_nil out).symm, .nil _ _,
          List.forall_mem_nil _, List.nil_prefix, fun h => absurd h (by decide)⟩
      obtain ⟨packet, len, hmade, hlength, hpos, hle, hpacket⟩ :=
        tsPesPacket_spec stream pcrPid withAud false hpayload
      rw [hmade]
      have hpart : (tsPacket packet).payload = payload.take len := by
        rw [hpacket]
        rfl
      have hstarts : (tsPacket packet).starts = false := by rw [hpacket]
      have hchannel : (tsPacket packet).channel = stream.pid % 8192 := by rw [hpacket]
      have hcounter : (tsPacket packet).counter = stream.cc % 16 := by rw [hpacket]
      dsimp only
      split
      · rename_i hr
        refine ⟨_, _, [packet], rfl, .cons hlength hchannel hcounter (.nil _ _),
          List.forall_mem_singleton.mpr hstarts, ?_, fun h => absurd h hr⟩
        rw [carried, List.flatMap_singleton, hpart]
        exact List.take_prefix len payload
      · have hdrop : (payload.drop len).length ≤ fuel := by
          rw [List.length_drop]
          omega
        obtain ⟨r, cc, ps, hrun, hsends, hps, hfront, hall⟩ :=
          ih hdrop { stream with cc := (stream.cc + 1) % 16 } (out ++ [packet])
        have hcarried : carried (packet :: ps) = payload.take len ++ carried ps := by
          rw [carried, List.flatMap_cons, hpart]
          rfl
        refine ⟨r, cc, packet :: ps, hrun.trans ?_, hsends.cons hlength hchannel hcounter,
          List.forall_mem_cons.mpr ⟨hstarts, hps⟩, ?_, fun hr => ?_⟩
        · rw [List.append_assoc]
          rfl
        · rw [hcarried]
          conv_rhs => rw [← List.take_append_drop len payload]
          exact (List.prefix_append_right_inj _).mpr hfront
        · rw [hcarried, hall hr, List.take_append_drop]

/-- What `ts_write_pes` does with a payload: its packets have 188 bytes, are numbered from the
    counter of the stream on and carry the head and the payload, as one unit; if it does not
    return 0, they carry a first part of that, or there are none. -/
theorem tsWritePes_carries (func : TsFunc) (pcrPid : Nat) (withAud : Bool) (stream : PesT)
    (out : List (List UInt8)) {payload : List UInt8} (hpayload : payload ≠ []) :
    ∃ r cc ps unit, tsWritePes func pcrPid withAud stream out payload
        = (r, { stream with cc }, out ++ ps)
      ∧ Sends stream.pid stream.cc cc ps
      ∧ (ps ≠ [] → Carries (stream.pid % 8192) unit (ps.map tsPacket))
      ∧ unit <+: pesHead stream withAud payload.length ++ payload
      ∧ (r = 0 → ps ≠ [] ∧ unit = pesHead stream withAud payload.length ++ payload) := by
  have hpos := List.length_pos_of_ne_nil hpayload
  obtain ⟨fuel, hfuel⟩ : ∃ fuel, payload.length = fuel + 1 :=
    ⟨payload.length - 1, by omega⟩
  obtain ⟨packet, len, hmade, hlength, hlen, hle, hpacket⟩ :=
    tsPesPacket_spec stream pcrPid withAud true hpayload
  have hloop : tsWritePes func pcrPid withAud stream out payload
      = tsWritePesLoop func pcrPid withAud (fuel + 1) true stream out payload :=
    congrArg (fun n => tsWritePesLoop func pcrPid withAud n true stream out payload) hfuel
  rw [hloop, tsWritePesLoop, if_neg hpayload]
  split
  · exact ⟨enomem, stream.cc, [], [],
      congrArg (fun o => (enomem, stream, o)) (List.append_nil out).symm, .nil _ _,
      fun h => absurd rfl h, List.nil_prefix, fun h => absurd h (by decide)⟩
  rw [hmade]
  have hpart : (tsPacket packet).payload
      = pesHead stream withAud payload.length ++ payload.take len := by
    rw [hpacket]
    rfl
  have hstarts : (tsPacket packet).starts = true := by rw [hpacket]
  have hchannel : (tsPacket packet).channel = stream.pid % 8192 := by rw [hpacket]
  have hcounter : (tsPacket packet).counter = stream.cc % 16 := by rw [hpacket]
  dsimp only
  split
  · rename_i hr
    refine ⟨_, _, [packet], pesHead stream withAud payload.length ++ payload.take len, rfl,
      .cons hlength hchannel hcounter (.nil _ _), fun _ => ⟨?_, ?_, ?_⟩, ?_, fun h => absurd h hr⟩
    · exact List.forall_mem_singleton.mpr hchannel
    · exact ⟨tsPacket packet, [], rfl, hstarts, List.forall_mem_nil _⟩
    · rw [List.map_singleton, List.flatMap_singleton, hpart]
    · exact (List.prefix_append_right_inj _).mpr (List.take_prefix len payload)
  · have hdrop : (payload.drop len).length ≤ fuel := by
      rw [List.length_drop]
      omega
    obtain ⟨r, cc, ps, hrun, hsends, hps, hfront, hall⟩ := tsWritePesLoop_spec func pcrPid
      withAud hdrop { stream with cc := (stream.cc + 1) % 16 } (out ++ [packet])
    have hsends := hsends.cons hlength hchannel hcounter
    refine ⟨r, cc, packet :: ps,
      pesHead stream withAud payload.length ++ (payload.take len ++ carried ps), hrun.trans ?_,
      hsends, fun _ => ⟨?_, ?_, ?_⟩, ?_, fun hr => ⟨List.cons_ne_nil _ _, ?_⟩⟩
    · rw [List.append_assoc]
      rfl
    · exact hsends.channel
    · exact ⟨tsPacket packet, ps.map tsPacket, rfl, hstarts, List.forall_mem_map.mpr hps⟩
    · rw [List.map_cons, List.flatMap_cons, hpart, List.append_assoc, List.flatMap_map]
      rfl
    · refine (List.prefix_append_right_inj _).mpr ?_
      conv_rhs => rw [← List.take_append_drop len payload]
      exact (List.prefix_append_right_inj _).mpr hfront
    · rw [hall hr, List.take_append_drop]

end SeastarLive
