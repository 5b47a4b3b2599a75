/-
SeastarLive.Flv.ConfigRecord — decoder configurations as the bytes of a union.

The loaders of the AVC, HEVC and AV1 configuration records of `3rd/libflv`,
`mpeg4_avc_rect_load`, `mpeg4_hevc_rect_load` and `copy` of
`src/util/codec.cc`, and the copies of `video_meta_t` in
`src/flv/metadata.cc`. The union of `video_meta_t` has `unionSize` bytes, and
an address; the records in it point at their own `data`.

* A loader is a list of writes that depends on its input only. What a load
  that fails leaves in the union is never looked at.
* The parsers of sequence parameter sets and of AAC configurations are
  parameters (`ConfigParsers`). Whether assertions are compiled in is one too.
* To follow a pointer out of the union, which the source leaves undefined,
  stops the process here.
-/
import SeastarLive.Flv.MetadataLoad
import SeastarLive.Lib.ByteMemory

namespace SeastarLive.Flv

open ByteMemory

/-! ## Loaders -/

inductive RecordFailure
  | aborts
  /-- A negative return value. -/
  | malformed (rt : { rt : Int // rt < 0 })
deriving DecidableEq

/-- `return -1`. -/
def minusOne : RecordFailure := .malformed ⟨-1, by decide⟩

/-- `assert(0); return -1`. -/
def assertFailed (asserts : Bool) : RecordFailure := if asserts then .aborts else minusOne

/-- `sizeof(v)`: that of `mpeg4_avc_t`, its largest member. -/
def unionSize : Nat := 8728

/-- `mpeg4_avc_t::sps[i]`: its `bytes`, and its `data` eight bytes further. -/
def avcSps (i : Nat) : Nat := 8 + 16 * i

/-- `mpeg4_avc_t::pps[i]`. -/
def avcPps (i : Nat) : Nat := 520 + 16 * i

/-- The offset of `mpeg4_avc_t::data`. -/
def avcData : Nat := 4619

/-- `mpeg4_hevc_t::nalu[i]`. -/
def hevcNalu (i : Nat) : Nat := 32 + 16 * i

/-- The offset of `mpeg4_hevc_t::data`. -/
def hevcData : Nat := 1057

/-- The size of both arrays `data`. -/
def dataSize : Nat := 4096

/-- The loops over parameter sets of `mpeg4_avc_decoder_configuration_record_load`, with the
    sets to go, the next entry, the input left and the bytes of `data` used; a set has to
    leave `slack` bytes of the input. -/
def avcSets (entry : Nat → Nat) (slack : Nat) :
    Nat → Nat → List UInt8 → Nat → Option (List MemWrite × List UInt8 × Nat)
  | 0, _, rest, used => some ([], rest, used)
  | n + 1, i, rest, used =>
      if rest.length ≤ 2 then some ([], rest, used)
      else
        let len := bigEndian (rest.take 2)
        let body := rest.drop 2
        if body.length < len + slack ∨ dataSize < used + len then none
        else do
          let (writes, rest, left) ← avcSets entry slack n (i + 1) (body.drop len) (used + len)
          return (.bytes (avcData + used) (body.take len) :: .pointer (entry i + 8) (avcData + used)
            :: .bytes (entry i) (leBytes 2 len) :: writes, rest, left)

/-- `mpeg4_avc_decoder_configuration_record_load`. -/
def avcConfigLoad (asserts : Bool) : List UInt8 → Except RecordFailure (List MemWrite)
  | d₀ :: d₁ :: d₂ :: d₃ :: d₄ :: d₅ :: d₆ :: rest =>
      if asserts && d₀ != 1 then .error .aborts
      else
        -- five bits: the check against the size of `sps` always holds
        let nbSps := d₅ &&& 0x1F
        match avcSets avcSps 1 nbSps.toNat 0 (d₆ :: rest) 0 with
        | some (sps, nbPps :: rest, used) =>
            match avcSets avcPps 0 nbPps.toNat 0 rest used with
            | some (pps, _, used) =>
                .ok ([.bytes 0 [d₁, d₂, d₃, (d₄ &&& 3) + 1, nbSps]] ++ sps
                  ++ [.bytes 5 [nbPps]] ++ pps ++ [.bytes 8720 (leBytes 8 used)])
            | none => .error (assertFailed asserts)
        | _ => .error (assertFailed asserts)
  | _ => .error minusOne

/-- An entry of `mpeg4_hevc_t::nalu`. -/
structure HevcNalu where
  nalutype : UInt8
  /-- Where it is in `data`. -/
  off : Nat
  content : List UInt8

/-- The inner loop of `mpeg4_hevc_decoder_configuration_record_load`: the units of an array. -/
def hevcUnits (asserts : Bool) : Nat → UInt8 → List HevcNalu → Nat → List UInt8 →
    Except RecordFailure (List HevcNalu × Nat × List UInt8)
  | 0, _, nalus, used, rest => .ok (nalus, used, rest)
  | n + 1, nalutype, nalus, used, rest =>
      if 64 ≤ nalus.length then .error (assertFailed asserts)
      else
        match rest with
        | b₀ :: b₁ :: body =>
            let k := b₀.toNat * 256 + b₁.toNat
            if body.length < k ∨ dataSize < used + k then .error (assertFailed asserts)
            else if asserts
                && (nalutype &&& (0x3F : UInt8)) != ((body.headD 0 >>> 1) &&& (0x3F : UInt8)) then
              .error .aborts
            else
              hevcUnits asserts n nalutype (nalus ++ [⟨nalutype, used, body.take k⟩]) (used + k)
                (body.drop k)
        | _ => .error minusOne

/-- The outer loop: the arrays. -/
def hevcArrays (asserts : Bool) : Nat → List HevcNalu → Nat → List UInt8 →
    Except RecordFailure (List HevcNalu × Nat)
  | 0, nalus, used, _ => .ok (nalus, used)
  | n + 1, nalus, used, nalutype :: b₁ :: b₂ :: rest => do
      let (nalus, used, rest) ←
        hevcUnits asserts (b₁.toNat * 256 + b₂.toNat) nalutype nalus used rest
      hevcArrays asserts n nalus used rest
  | _ + 1, _, _, _ => .error minusOne

def HevcNalu.writes (nalu : HevcNalu) (i : Nat) : List MemWrite :=
  [.bytes (hevcNalu i) [(nalu.nalutype >>> 7) &&& 1, nalu.nalutype &&& 0x3F],
    .bytes (hevcNalu i + 2) (leBytes 2 nalu.content.length),
    .pointer (hevcNalu i + 8) (hevcData + nalu.off),
    .bytes (hevcData + nalu.off) nalu.content]

/-- The fields in front of `numOfArrays`. -/
def hevcHeader (data : List UInt8) : List MemWrite :=
  let d (i : Nat) : UInt8 := data.getD i 0
  [.bytes 0 [d 0, (d 1 >>> 6) &&& 3, (d 1 >>> 5) &&& 1, d 1 &&& 0x1F],
    .bytes 4 [d 5, d 4, d 3, d 2],
    .bytes 8 [d 11, d 10, d 9, d 8, d 7, d 6, 0, 0],
    .bytes 16 [d 12],
    .bytes 18 [d 14, d 13 &&& 0x0F],
    .bytes 20 [d 15 &&& 3, d 16 &&& 3, d 17 &&& 7, d 18 &&& 7],
    .bytes 24 [d 20, d 19],
    .bytes 26 [(d 21 >>> 6) &&& 3, (d 21 >>> 3) &&& 7, (d 21 >>> 2) &&& 1, d 21 &&& 3]]

/-- `mpeg4_hevc_decoder_configuration_record_load`. -/
def hevcConfigLoad (asserts : Bool) (data : List UInt8) : Except RecordFailure (List MemWrite) :=
  if data.length < 23 then .error minusOne
  else if data.getD 0 0 != 1 then .error minusOne
  else do
    let (nalus, used) ← hevcArrays asserts (data.getD 22 0).toNat [] 0 (data.drop 23)
    return hevcHeader data ++ nalus.zipIdx.flatMap (fun r : HevcNalu × Nat => r.1.writes r.2)
      ++ [.bytes 30 [UInt8.ofNat nalus.length], .bytes 5160 (leBytes 8 used)]

/-- `aom_av1_codec_configuration_record_load`; the bit fields fill the first four bytes, from
    the lowest bit. -/
def av1ConfigLoad : List UInt8 → Except RecordFailure (List MemWrite)
  | d₀ :: d₁ :: d₂ :: d₃ :: rest =>
      if 2048 < rest.length then .error minusOne
      else
        .ok [.bytes 0
            [(d₀ >>> 7) ||| ((d₀ &&& 0x7F) <<< 1),
              (d₁ >>> 5) ||| ((d₁ &&& 0x1F) <<< 3),
              (d₂ >>> 7) ||| (((d₂ >>> 6) &&& 1) <<< 1) ||| (((d₂ >>> 5) &&& 1) <<< 2)
                ||| (((d₂ >>> 4) &&& 1) <<< 3) ||| (((d₂ >>> 3) &&& 1) <<< 4)
                ||| (((d₂ >>> 2) &&& 1) <<< 5) ||| ((d₂ &&& 3) <<< 6),
              (d₃ >>> 5) ||| (((d₃ >>> 4) &&& 1) <<< 3) ||| ((d₃ &&& 0x0F) <<< 4)],
          .bytes 16 (leBytes 2 rest.length), .bytes 18 rest]
  | _ => .error minusOne

/-! ## Widths and heights -/

/-- `mpeg4_aac_t`, with the two fields that `audio_meta_t` copies. -/
structure AacConfig where
  bytes : List UInt8
  channels : Nat
  samplingFrequency : Nat

/-- The parsers of vendored code the records rely on. -/
structure ConfigParsers where
  /-- Assertions are compiled in. -/
  asserts : Bool
  /-- `h264_sps` and `h264_display_rect`: the return value, width and height. -/
  h264 : List UInt8 → Int × Nat × Nat
  /-- `h265_sps` and `h265_display_rect`: width and height, unless one of them fails. -/
  h265 : List UInt8 → Option (Nat × Nat)
  /-- `mpeg4_aac_audio_specific_config_load`, which clears the configuration first; `none` is
      an assertion that fails. -/
  aac : List UInt8 → Option (Int × AacConfig)

/-- The bytes that a pointer in the union at `addr` points at. -/
def deref (addr : UInt64) (mem : ByteMemory) (p : UInt64) (len : Nat) :
    Except RecordFailure (List UInt8) :=
  let off := (p - addr).toNat
  if off + len ≤ unionSize then .ok (mem.read off len) else .error .aborts

/-- `mpeg4_avc_rect_load`: width and height, where they are set. -/
def avcRectLoad (parsers : ConfigParsers) (addr : UInt64) (mem : ByteMemory) :
    Except RecordFailure (Option (Nat × Nat)) :=
  if mem 4 = 0 then .error minusOne
  else do
    let len := leValue (mem.read (avcSps 0) 2)
    let sps ← deref addr mem (mem.readPointer (avcSps 0 + 8)) len
    -- `bytes - 1` of an empty set wraps
    if len = 0 then .error .aborts
    else
      let (rt, width, height) := parsers.h264 (sps.drop 1)
      if h : rt < 0 then .error (.malformed ⟨rt, h⟩)
      else .ok (if rt = 0 then some (width, height) else none)

/-- The loop of `mpeg4_hevc_rect_load`, with the entries to go. -/
def hevcRectLoop (parsers : ConfigParsers) (addr : UInt64) (mem : ByteMemory) :
    Nat → Nat → Except RecordFailure (Option (Nat × Nat))
  | 0, _ => .ok none
  | n + 1, i =>
      if mem (hevcNalu i + 1) ≠ 33 then hevcRectLoop parsers addr mem n (i + 1)
      else do
        let sps ← deref addr mem (mem.readPointer (hevcNalu i + 8))
          (leValue (mem.read (hevcNalu i + 2) 2))
        match parsers.h265 sps with
        | none => hevcRectLoop parsers addr mem n (i + 1)
        | some rect => .ok (some rect)

/-- `mpeg4_hevc_rect_load`. -/
def hevcRectLoad (parsers : ConfigParsers) (addr : UInt64) (mem : ByteMemory) :
    Except RecordFailure (Option (Nat × Nat)) :=
  hevcRectLoop parsers addr mem (mem 30).toNat 0

/-! ## The union of a value -/

def isAvc (cid : Int) : Bool := cid == flvVideoH264 || cid == flvVideoAvcc

def isHevc (cid : Int) : Bool := cid == flvVideoH265 || cid == flvVideoHvcc

def isAv1 (cid : Int) : Bool := cid == flvVideoAv1 || cid == flvVideoAv1c

/-- The cases of `video_meta_t::_load`: the union at `addr`, and the width and height that are
    set. -/
def unionLoad (parsers : ConfigParsers) (addr : UInt64) (cid : Int) (mem : ByteMemory)
    (data : List UInt8) : Except RecordFailure (ByteMemory × Option (Nat × Nat)) :=
  if isAvc cid then do
    let writes ← avcConfigLoad parsers.asserts data
    let rect ← avcRectLoad parsers addr (applyAll addr writes mem)
    return (applyAll addr writes mem, rect)
  else if isHevc cid then do
    let writes ← hevcConfigLoad parsers.asserts data
    let rect ← hevcRectLoad parsers addr (applyAll addr writes mem)
    return (applyAll addr writes mem, rect)
  else do
    let writes ← av1ConfigLoad data
    let loaded := applyAll addr writes mem
    return (loaded, some (leValue (loaded.read 8 4), leValue (loaded.read 12 4)))

/-- A value with its union, and the width and height that are set. -/
def VideoMeta.withUnion (video : VideoMeta) (mem : ByteMemory) (rect : Option (Nat × Nat)) :
    VideoMeta :=
  { video with
    v := pack unionSize mem
    width := (rect.map Prod.fst).getD video.width
    height := (rect.map Prod.snd).getD video.height }

/-- The records of a value whose union is at `addr`. -/
def configRecords (parsers : ConfigParsers) (addr : UInt64) : DecoderRecords where
  video cid video data :=
    match unionLoad parsers addr cid (unpack video.v) data with
    | .ok (mem, rect) => some (0, video.withUnion mem rect)
    | .error (.malformed rt) => some (rt.val, video)
    | .error .aborts => none
  audio _ audio data :=
    match parsers.aac data with
    | none => none
    | some (rt, config) =>
        if rt < 0 then some (rt, audio)
        else
          some (0, { audio with
            aac := config.bytes
            channelCount := config.channels
            samplerate := config.samplingFrequency })

/-! ## Copies -/

/-- The size of the member that a copy copies. -/
def copiedSize (cid : Int) : Nat :=
  if isAvc cid then unionSize else if isHevc cid then 5168 else if isAv1 cid then 2068 else 0

/-- The pointers that `codec::copy` moves. -/
def pointerSlots (cid : Int) (mem : ByteMemory) : List Nat :=
  if isAvc cid then
    (List.range (mem 4).toNat).map (fun i => avcSps i + 8)
      ++ (List.range (mem 5).toNat).map (fun i => avcPps i + 8)
  else if isHevc cid then (List.range (mem 30).toNat).map (fun i => hevcNalu i + 8)
  else []

/-- `codec::copy` from the union at `src` into one of zeros at `dst`. -/
def copyUnion (cid : Int) (src dst : UInt64) (mem : ByteMemory) : ByteMemory := fun i =>
  if i < copiedSize cid then mem.relocate (pointerSlots cid mem) (dst - src) i else 0

/-- The copy of a `video_meta_t`. -/
def VideoMeta.copyTo (video : VideoMeta) (src dst : UInt64) : VideoMeta :=
  { video with v := pack unionSize (copyUnion video.codecid src dst (unpack video.v)) }

/-- `metadata_t(const metadata_t &)`; the copy of an `audio_meta_t` is equal to it. -/
def Metadata.copyTo (m : Metadata) (src dst : UInt64) : Metadata :=
  { m with video := m.video.copyTo src dst }

end SeastarLive.Flv
