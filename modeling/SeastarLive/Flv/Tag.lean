/-
SeastarLive.Flv.Tag — FLV tags as bytes, and the FLV file format.

`src/flv/tag.cc` (`tag`, not `standard_tag`) over `flv_header_write`,
`flv_tag_header_write` and `flv_tag_size_write` of
`3rd/libflv/source/flv-header.c`.

* The second half says what an FLV file is, apart from the code: a header, a
  zero size, and tags that each end with their own size. `FlvFile.parse` reads
  one, and the tags of a file are self-delimiting.
* The three tag types are an enumeration, so the check of the type in
  `flv_tag_header_write` cannot fail, and every buffer is made large enough.
-/
import SeastarLive.Flv.Frame
import SeastarLive.Lib.SelfDelimiting

namespace SeastarLive.Flv

/-- `flv::type_t`. -/
inductive TagType
  | audio
  | video
  | script
deriving DecidableEq

/-- The values of `FLV_TYPE_AUDIO`, `FLV_TYPE_VIDEO` and `FLV_TYPE_SCRIPT`. -/
def TagType.code : TagType → Nat
  | audio => 8
  | video => 9
  | script => 18

/-- `be_write_uint32`. -/
def beWriteUint32 (val : Nat) : List UInt8 :=
  [UInt8.ofNat (val / 16777216), UInt8.ofNat (val / 65536), UInt8.ofNat (val / 256),
    UInt8.ofNat val]

/-! ## Writing -/

/-- `flv_header_write`. -/
def headerWrite (audio video : Bool) : List UInt8 :=
  [0x46, 0x4C, 0x56, 0x01,
    UInt8.ofNat ((if audio then 1 else 0) * 4) ||| UInt8.ofNat (if video then 1 else 0)]
    ++ beWriteUint32 9

/-- `flv_tag_header_t`. -/
structure FlvTagHeader where
  filter : Nat := 0
  type : TagType
  size : Nat
  timestamp : Nat
  streamId : Nat := 0

/-- `flv_tag_header_write`. -/
def tagHeaderWrite (tag : FlvTagHeader) : List UInt8 :=
  [UInt8.ofNat (tag.type.code % 32) ||| UInt8.ofNat (tag.filter % 2 * 32),
    UInt8.ofNat (tag.size / 65536), UInt8.ofNat (tag.size / 256), UInt8.ofNat tag.size,
    UInt8.ofNat (tag.timestamp / 65536), UInt8.ofNat (tag.timestamp / 256),
    UInt8.ofNat tag.timestamp, UInt8.ofNat (tag.timestamp / 16777216),
    UInt8.ofNat (tag.streamId / 65536), UInt8.ofNat (tag.streamId / 256),
    UInt8.ofNat tag.streamId]

/-- `tag::make_tag_data`; sizes and timestamps are 32 bits wide. -/
def makeTagData (type : TagType) (tagBody : List UInt8) (timestamp : Int) : List UInt8 :=
  tagHeaderWrite
      { type
        size := tagBody.length % 4294967296
        timestamp := (timestamp % 4294967296).toNat }
    ++ tagBody ++ beWriteUint32 ((11 + tagBody.length) % 4294967296)

/-- `tag::header_data`. -/
def headerData (allowAudio allowVideo : Bool) : List UInt8 :=
  headerWrite allowAudio allowVideo ++ beWriteUint32 0

/-! ## The format of a tag -/

/-- A tag of a file: its type, its timestamp and its body. -/
structure FileTag where
  type : TagType
  timestamp : Nat
  body : List UInt8
deriving DecidableEq

/-- The fields of a tag fit in their bytes. -/
structure FileTag.WellFormed (tag : FileTag) : Prop where
  body : tag.body.length < 16777216
  timestamp : tag.timestamp < 4294967296

/-- Three bytes, the most significant first. -/
def be24 (n : Nat) : List UInt8 :=
  [UInt8.ofNat (n / 65536), UInt8.ofNat (n / 256), UInt8.ofNat n]

/-- Eleven bytes of header (type, body length, timestamp with its upper byte last, stream),
    the body, and the length of both. -/
def FileTag.encode (tag : FileTag) : List UInt8 :=
  [UInt8.ofNat tag.type.code] ++ be24 tag.body.length ++ be24 (tag.timestamp % 16777216)
    ++ [UInt8.ofNat (tag.timestamp / 16777216)] ++ be24 0
    ++ tag.body ++ beWriteUint32 (11 + tag.body.length)

def readBe24 (b₀ b₁ b₂ : UInt8) : Nat := b₀.toNat * 65536 + b₁.toNat * 256 + b₂.toNat

/-- The type of a tag, from its first byte. -/
def TagType.ofByte (b : UInt8) : Option TagType :=
  if b = 8 then some .audio else if b = 9 then some .video else if b = 18 then some .script
  else none

/-- Take one tag off the front; its stream is 0 and its trailing size is its own. -/
def readTag : List UInt8 → Option (FileTag × List UInt8)
  | type :: l₀ :: l₁ :: l₂ :: t₀ :: t₁ :: t₂ :: t₃ :: 0 :: 0 :: 0 :: rest =>
      match TagType.ofByte type with
      | none => none
      | some type =>
          let size := readBe24 l₀ l₁ l₂
          let body := rest.take size
          let after := rest.drop size
          if body.length = size ∧ after.take 4 = beWriteUint32 (11 + size) then
            some (⟨type, t₃.toNat * 16777216 + readBe24 t₀ t₁ t₂, body⟩, after.drop 4)
          else none
  | _ => none

/-! ## The format of a file -/

/-- An FLV file: what its header announces, and its tags. -/
structure FlvFile where
  audio : Bool
  video : Bool
  tags : List FileTag
deriving DecidableEq

namespace FlvFile

/-- The flags byte of the header. -/
def flags (audio video : Bool) : UInt8 :=
  match audio, video with
  | false, false => 0
  | false, true => 1
  | true, false => 4
  | true, true => 5

/-- Nine bytes of header, four zero bytes, and the tags. -/
def bytes (file : FlvFile) : List UInt8 :=
  [0x46, 0x4C, 0x56, 0x01, flags file.audio file.video, 0, 0, 0, 9] ++ [0, 0, 0, 0]
    ++ file.tags.flatMap FileTag.encode

def WellFormed (file : FlvFile) : Prop := ∀ tag ∈ file.tags, tag.WellFormed

/-- What the flags byte announces. -/
def readFlags (b : UInt8) : Option (Bool × Bool) :=
  if b = 0 then some (false, false) else if b = 1 then some (false, true)
  else if b = 4 then some (true, false) else if b = 5 then some (true, true) else none

/-- Read a file from its first byte to its last. -/
def parse : List UInt8 → Option FlvFile
  | 0x46 :: 0x4C :: 0x56 :: 0x01 :: b :: 0 :: 0 :: 0 :: 9 :: 0 :: 0 :: 0 :: 0 :: rest =>
      match readFlags b with
      | none => none
      | some (audio, video) =>
          (SelfDelimiting.readAll readTag rest.length rest).map fun tags => ⟨audio, video, tags⟩
  | _ => none

end FlvFile

/-! ## Reading back -/

theorem readBe24_be24 {n : Nat} (h : n < 16777216) :
    readBe24 (UInt8.ofNat (n / 65536)) (UInt8.ofNat (n / 256)) (UInt8.ofNat n) = n := by
  simp only [readBe24, UInt8.toNat_ofNat']
  omega

theorem TagType.ofByte_code (type : TagType) :
    TagType.ofByte (UInt8.ofNat type.code) = some type := by
  cases type <;> decide

theorem beWriteUint32_length (n : Nat) : (beWriteUint32 n).length = 4 := rfl

/-- A tag is read back, whatever follows it. -/
theorem readTag_encode {tag : FileTag} (h : tag.WellFormed) (rest : List UInt8) :
    readTag (tag.encode ++ rest) = some (tag, rest) := by
  obtain ⟨type, timestamp, body⟩ := tag
  have hbody : body.length < 16777216 := h.body
  have htime : timestamp < 4294967296 := h.timestamp
  have hsize := readBe24_be24 hbody
  have hlow : readBe24 (UInt8.ofNat (timestamp % 16777216 / 65536))
      (UInt8.ofNat (timestamp % 16777216 / 256)) (UInt8.ofNat (timestamp % 16777216))
        = timestamp % 16777216 :=
    readBe24_be24 (Nat.mod_lt _ (by decide))
  have hhigh : (UInt8.ofNat (timestamp / 16777216)).toNat = timestamp / 16777216 := by
    rw [UInt8.toNat_ofNat']
    omega
  have hall : timestamp / 16777216 * 16777216 + timestamp % 16777216 = timestamp := by omega
  have hbytes : FileTag.encode ⟨type, timestamp, body⟩ ++ rest
      = UInt8.ofNat type.code :: UInt8.ofNat (body.length / 65536)
        :: UInt8.ofNat (body.length / 256) :: UInt8.ofNat body.length
        :: UInt8.ofNat (timestamp % 16777216 / 65536)
        :: UInt8.ofNat (timestamp % 16777216 / 256) :: UInt8.ofNat (timestamp % 16777216)
        :: UInt8.ofNat (timestamp / 16777216) :: 0 :: 0 :: 0
        :: (body ++ (beWriteUint32 (11 + body.length) ++ rest)) := by
    simp [FileTag.encode, be24]
  rw [hbytes, readTag, TagType.ofByte_code]
  simp only [hsize, hlow, hhigh, hall, List.take_left, List.drop_left, true_and]
  rw [List.take_left' (beWriteUint32_length _), List.drop_left' (beWriteUint32_length _),
    if_pos rfl]

theorem inverts_encode : SelfDelimiting.Inverts FileTag.WellFormed FileTag.encode readTag where
  encode_ne_nil tag _ := by simp [FileTag.encode]
  read_encode _ rest h := readTag_encode h rest

namespace FlvFile

theorem readFlags_flags (audio video : Bool) :
    readFlags (flags audio video) = some (audio, video) := by
  cases audio <;> cases video <;> decide

/-- A well-formed file is read back from its bytes. -/
theorem parse_bytes {file : FlvFile} (h : file.WellFormed) : parse file.bytes = some file := by
  have htags : SelfDelimiting.readAll readTag (file.tags.flatMap FileTag.encode).length
      (file.tags.flatMap FileTag.encode) = some file.tags :=
    SelfDelimiting.readAll_flatMap inverts_encode h
      (SelfDelimiting.length_le_flatMap inverts_encode h)
  show parse (0x46 :: 0x4C :: 0x56 :: 0x01 :: flags file.audio file.video :: 0 :: 0 :: 0 :: 9
    :: 0 :: 0 :: 0 :: 0 :: file.tags.flatMap FileTag.encode) = some file
  simp only [parse, readFlags_flags, htags, Option.map_some]

/-- No other well-formed file has these bytes. -/
theorem bytes_inj {file file' : FlvFile} (h : file.WellFormed) (h' : file'.WellFormed)
    (heq : file.bytes = file'.bytes) : file = file' := by
  have hleft := parse_bytes h
  rw [heq, parse_bytes h'] at hleft
  exact (Option.some.inj hleft).symm

end FlvFile

/-! ## What the code writes is in the format -/

theorem headerData_eq (audio video : Bool) :
    headerData audio video = (FlvFile.mk audio video []).bytes := by
  cases audio <;> cases video <;> decide

/-- The tag that `make_tag_data` writes. -/
def FileTag.of (type : TagType) (tagBody : List UInt8) (timestamp : Int) : FileTag :=
  ⟨type, (timestamp % 4294967296).toNat, tagBody⟩

theorem FileTag.of_wellFormed {type : TagType} {tagBody : List UInt8} (timestamp : Int)
    (h : tagBody.length < 16777216) : (FileTag.of type tagBody timestamp).WellFormed := by
  refine ⟨h, ?_⟩
  show (timestamp % 4294967296).toNat < 4294967296
  omega

theorem makeTagData_eq {type : TagType} {tagBody : List UInt8} (timestamp : Int)
    (h : tagBody.length < 16777216) :
    makeTagData type tagBody timestamp = (FileTag.of type tagBody timestamp).encode := by
  have hsize : tagBody.length % 4294967296 = tagBody.length := by omega
  have hall : (11 + tagBody.length) % 4294967296 = 11 + tagBody.length := by omega
  have hbyte : ∀ t : Nat, UInt8.ofNat (t / 65536) = UInt8.ofNat (t % 16777216 / 65536)
      ∧ UInt8.ofNat (t / 256) = UInt8.ofNat (t % 16777216 / 256)
      ∧ UInt8.ofNat t = UInt8.ofNat (t % 16777216) := by
    intro t
    refine ⟨?_, ?_, ?_⟩ <;> (apply UInt8.toNat_inj.mp; simp only [UInt8.toNat_ofNat']; omega)
  obtain ⟨h₀, h₁, h₂⟩ := hbyte (timestamp % 4294967296).toNat
  have htype : UInt8.ofNat (type.code % 32) ||| UInt8.ofNat (0 % 2 * 32)
      = UInt8.ofNat type.code := by
    cases type <;> decide
  simp only [makeTagData, tagHeaderWrite, FileTag.encode, FileTag.of, be24, hsize, hall, htype,
    h₀, h₁, h₂]
  rfl

end SeastarLive.Flv
