/-
SeastarLive.Flv.MetadataWrite — the buffer `metadata_t::to_tag_data` writes to.

`metadata_t::to_tag_data` of `src/flv/metadata.cc` and the `AMFWrite`
functions of `3rd/libflv/source/amf0.c` with their two pointers: `ptr` is the
list of the bytes written so far, and `end` is the size of the buffer. `none`
is a null pointer; a write the source makes without a test is `none` where it
would go past the end.

`writeTagData_eq` connects them to the items of `Flv.MetadataTag`: what is
written is the bytes of the body, if these fit.
-/
import SeastarLive.Flv.MetadataTag
import SeastarLive.Lib.BoundedBuffer

namespace SeastarLive.Flv

open BoundedBuffer

/-- The bytes of a `double`, and the `double` in eight bytes. -/
structure DoubleBytes where
  write : Double → List UInt8
  read : List UInt8 → Double
  length_write : ∀ x, (write x).length = 8

/-- The characters of a string. -/
def stringBytes (s : List Char) : List UInt8 := s.map fun c => UInt8.ofNat c.toNat

/-! ## The writers -/

section Writers

variable (size : Nat) (codec : DoubleBytes)

/-- `AMFWriteInt16`. -/
def AmfBuffer.writeInt16 (value : Nat) (ptr : List UInt8) : Option (List UInt8) :=
  if size < ptr.length + 2 then none
  else some (ptr ++ [UInt8.ofNat (value / 256), UInt8.ofNat value])

/-- `AMFWriteInt32`. -/
def AmfBuffer.writeInt32 (value : Nat) (ptr : List UInt8) : Option (List UInt8) :=
  if size < ptr.length + 4 then none else some (ptr ++ beWriteUint32 value)

/-- `AMFWriteString16`. -/
def AmfBuffer.writeString16 (string : List Char) (ptr : List UInt8) : Option (List UInt8) :=
  if size < ptr.length + 2 + string.length then none
  else do
    let ptr ← AmfBuffer.writeInt16 size string.length ptr
    some (ptr ++ stringBytes string)

/-- `AMFWriteString32`. -/
def AmfBuffer.writeString32 (string : List Char) (ptr : List UInt8) : Option (List UInt8) :=
  if size < ptr.length + 4 + string.length then none
  else do
    let ptr ← AmfBuffer.writeInt32 size string.length ptr
    some (ptr ++ stringBytes string)

/-- `AMFWriteObjectEnd`. -/
def AmfBuffer.writeObjectEnd (ptr : List UInt8) : Option (List UInt8) :=
  if size < ptr.length + 3 then none else some (ptr ++ [0, 0, 9])

/-- `AMFWriteBoolean`. -/
def AmfBuffer.writeBoolean (value : Bool) (ptr : List UInt8) : Option (List UInt8) :=
  if size < ptr.length + 2 then none else some (ptr ++ [1, if value then 1 else 0])

/-- `AMFWriteDouble`. -/
def AmfBuffer.writeDouble (value : Double) (ptr : List UInt8) : Option (List UInt8) :=
  if size < ptr.length + 9 then none else some (ptr ++ 0 :: codec.write value)

/-- `AMFWriteString`: a long string from 65536 bytes on. -/
def AmfBuffer.writeString (string : List Char) (ptr : List UInt8) : Option (List UInt8) :=
  if size < ptr.length + 1 + (if string.length < 65536 then 2 else 4) + string.length
      ∨ 4294967295 < string.length then none
  else if string.length < 65536 then AmfBuffer.writeString16 size string (ptr ++ [2])
  else AmfBuffer.writeString32 size string (ptr ++ [12])

/-- `AMFWriteNamedBoolean`. -/
def AmfBuffer.writeNamedBoolean (name : List Char) (value : Bool) (ptr : List UInt8) :
    Option (List UInt8) :=
  if size < ptr.length + name.length + 2 + 2 then none
  else do
    let ptr ← AmfBuffer.writeString16 size name ptr
    AmfBuffer.writeBoolean size value ptr

/-- `AMFWriteNamedDouble`. -/
def AmfBuffer.writeNamedDouble (name : List Char) (value : Double) (ptr : List UInt8) :
    Option (List UInt8) :=
  if size < ptr.length + name.length + 2 + 8 + 1 then none
  else do
    let ptr ← AmfBuffer.writeString16 size name ptr
    AmfBuffer.writeDouble size codec value ptr

/-- `AMFWriteNamedString`. -/
def AmfBuffer.writeNamedString (name value : List Char) (ptr : List UInt8) : Option (List UInt8) :=
  if size < ptr.length + name.length + 2 + value.length + 3 then none
  else do
    let ptr ← AmfBuffer.writeString16 size name ptr
    AmfBuffer.writeString size value ptr

/-- The five bytes `to_tag_data` writes itself, without a test. -/
def AmfBuffer.writeArrayHeader (count : Nat) (ptr : List UInt8) : Option (List UInt8) :=
  if size < ptr.length + 5 then none else some (ptr ++ 8 :: beWriteUint32 count)

end Writers

/-! ## `metadata_t::to_tag_data` -/

section ToTagData

variable (codec : DoubleBytes)

/-- The entries of an enabled audio track. -/
def AudioMeta.putItems (size : Nat) (m : AudioMeta) (ptr : List UInt8) :
    Option (List UInt8) := do
  let codeNum := m.codecid / 16
  let ptr ← AmfBuffer.writeNamedDouble size codec "audiocodecid".toList codeNum ptr
  let ptr ← AmfBuffer.writeNamedDouble size codec "audiodatarate".toList m.datarate ptr
  let ptr ← AmfBuffer.writeNamedDouble size codec "audiosamplerate".toList m.samplerate ptr
  let ptr ← AmfBuffer.writeNamedDouble size codec "audiosamplesize".toList m.samplesize ptr
  AmfBuffer.writeNamedBoolean size "stereo".toList m.stereo ptr

/-- The entries of an enabled video track. -/
def VideoMeta.putItems (size : Nat) (m : VideoMeta) (ptr : List UInt8) :
    Option (List UInt8) := do
  let ptr ← AmfBuffer.writeNamedDouble size codec "videocodecid".toList m.codecid ptr
  let ptr ← AmfBuffer.writeNamedDouble size codec "videodatarate".toList m.datarate ptr
  let ptr ← AmfBuffer.writeNamedDouble size codec "framerate".toList m.framerate ptr
  let ptr ← AmfBuffer.writeNamedDouble size codec "height".toList m.height ptr
  let ptr ← AmfBuffer.writeNamedDouble size codec "width".toList m.width ptr
  let ptr ← AmfBuffer.writeNamedDouble size codec "displayWidth".toList m.width ptr
  let ptr ← AmfBuffer.writeNamedDouble size codec "displayHeight".toList m.height ptr
  let ptr ← AmfBuffer.writeNamedDouble size codec "fps".toList m.framerate ptr
  AmfBuffer.writeNamedString size "encoder".toList m.encoder ptr

/-- `metadata_t::to_tag_data`, in its buffer. -/
def Metadata.writeTagData (m : Metadata) : Option (List UInt8) :=
  if !m.audio.isEnabled && !m.video.isEnabled then some []
  else do
    let size := 1024
    let count := (if m.audio.isEnabled then 5 else 0) + if m.video.isEnabled then 9 else 0
    let ptr ← AmfBuffer.writeString size "onMetaData".toList []
    let ptr ← AmfBuffer.writeArrayHeader size count ptr
    let ptr ← if m.audio.isEnabled then m.audio.putItems codec size ptr else some ptr
    let ptr ← if m.video.isEnabled then m.video.putItems codec size ptr else some ptr
    AmfBuffer.writeObjectEnd size ptr

end ToTagData

/-! ## The writers are bounded writes -/

section Bounded

variable {size : Nat} (codec : DoubleBytes)

theorem AmfBuffer.writeObjectEnd_eq : AmfBuffer.writeObjectEnd size = put size [0, 0, 9] := rfl

theorem AmfBuffer.writeBoolean_eq (value : Bool) :
    AmfBuffer.writeBoolean size value = put size ((AmfValue.boolean value).bytes codec.write) := rfl

theorem AmfBuffer.writeArrayHeader_eq (count : Nat) :
    AmfBuffer.writeArrayHeader size count = put size (8 :: beWriteUint32 count) := rfl

theorem AmfBuffer.writeDouble_eq (value : Double) :
    AmfBuffer.writeDouble size codec value
      = put size ((AmfValue.number value).bytes codec.write) := by
  funext ptr
  simp only [AmfBuffer.writeDouble, put, AmfValue.bytes, List.length_cons, codec.length_write]

theorem length_stringBytes (s : List Char) : (stringBytes s).length = s.length := by
  rw [stringBytes, List.length_map]

theorem length_amfWriteString16 (s : List Char) :
    (amfWriteString16 s).length = s.length + 2 := by
  simp [amfWriteString16]

/-- The test in front covers the length and the characters. -/
theorem AmfBuffer.writeString16_eq (string : List Char) :
    AmfBuffer.writeString16 size string = put size (amfWriteString16 string) := by
  funext ptr
  have hinner : (do
      let ptr ← AmfBuffer.writeInt16 size string.length ptr
      some (ptr ++ stringBytes string)) = if size < ptr.length + 2 then none
        else some (ptr ++ amfWriteString16 string) := by
    unfold AmfBuffer.writeInt16
    split
    · rfl
    · simp [amfWriteString16, stringBytes]
  unfold AmfBuffer.writeString16 put
  rw [hinner, length_amfWriteString16]
  split
  · rw [if_pos (by omega)]
  · rw [if_neg (by omega), if_neg (by omega)]

/-- A string that is not a long one. -/
theorem AmfBuffer.writeString_eq {string : List Char} (hshort : string.length < 65536) :
    AmfBuffer.writeString size string
      = put size ((AmfValue.string string).bytes codec.write) := by
  funext ptr
  have hbytes : (AmfValue.string string).bytes codec.write = [2] ++ amfWriteString16 string := rfl
  have hguard : (size < ptr.length + 1 + 2 + string.length ∨ 4294967295 < string.length)
      ↔ size < ptr.length + 1 + 2 + string.length := or_iff_left (by omega)
  simp only [writeString, if_pos hshort, hguard, writeString16_eq, put_append, hbytes]
  refine put_of_guard ?_
  rw [List.length_append, length_amfWriteString16]
  simp only [List.length_cons, List.length_nil]
  omega

/-- A named value: the test in front covers the name and the value. -/
theorem AmfBuffer.writeNamed_eq (item : AmfItem) {n : Nat} {ptr : List UInt8}
    {write : List UInt8 → Option (List UInt8)}
    (hwrite : write = put size (item.value.bytes codec.write))
    (hn : n ≤ ptr.length + (item.bytes codec.write).length) :
    (if size < n then none
      else do
        let ptr ← writeString16 size item.name ptr
        write ptr) = put size (item.bytes codec.write) ptr := by
  rw [hwrite, writeString16_eq]
  simp only [put_bind_put]
  exact put_of_guard hn

theorem length_boolean_bytes (value : Bool) :
    ((AmfValue.boolean value).bytes codec.write).length = 2 := rfl

theorem length_number_bytes (value : Double) :
    ((AmfValue.number value).bytes codec.write).length = 9 := by
  simp [AmfValue.bytes, codec.length_write]

theorem length_string_bytes (value : List Char) :
    ((AmfValue.string value).bytes codec.write).length = value.length + 3 := by
  simp [AmfValue.bytes, length_amfWriteString16]

theorem length_item_bytes (name : List Char) (value : AmfValue) :
    (AmfItem.bytes codec.write ⟨name, value⟩).length
      = name.length + 2 + (value.bytes codec.write).length := by
  simp [AmfItem.bytes, length_amfWriteString16]

theorem AmfBuffer.writeNamedBoolean_eq (name : List Char) (value : Bool) :
    writeNamedBoolean size name value
      = put size (AmfItem.bytes codec.write ⟨name, .boolean value⟩) := by
  funext ptr
  refine writeNamed_eq codec ⟨name, .boolean value⟩ (writeBoolean_eq codec value) ?_
  rw [length_item_bytes, length_boolean_bytes]
  omega

theorem AmfBuffer.writeNamedDouble_eq (name : List Char) (value : Double) :
    writeNamedDouble size codec name value
      = put size (AmfItem.bytes codec.write ⟨name, .number value⟩) := by
  funext ptr
  refine writeNamed_eq codec ⟨name, .number value⟩ (writeDouble_eq codec value) ?_
  rw [length_item_bytes, length_number_bytes]
  omega

theorem AmfBuffer.writeNamedString_eq (name : List Char) {value : List Char}
    (hshort : value.length < 65536) :
    writeNamedString size name value
      = put size (AmfItem.bytes codec.write ⟨name, .string value⟩) := by
  funext ptr
  refine writeNamed_eq codec ⟨name, .string value⟩ (writeString_eq codec hshort) ?_
  rw [length_item_bytes, length_string_bytes]
  omega

theorem AudioMeta.putItems_eq (m : AudioMeta) (ptr : List UInt8) :
    m.putItems codec size ptr = put size (m.items.flatMap (AmfItem.bytes codec.write)) ptr := by
  simp only [AudioMeta.putItems, AmfBuffer.writeNamedDouble_eq,
    AmfBuffer.writeNamedBoolean_eq codec, put_bind_put, AudioMeta.items, List.flatMap_cons,
    List.flatMap_nil, List.append_nil]

theorem VideoMeta.putItems_eq {m : VideoMeta} (hshort : m.encoder.length < 65536)
    (ptr : List UInt8) :
    m.putItems codec size ptr = put size (m.items.flatMap (AmfItem.bytes codec.write)) ptr := by
  simp only [VideoMeta.putItems, AmfBuffer.writeNamedDouble_eq,
    AmfBuffer.writeNamedString_eq codec _ hshort, put_bind_put, VideoMeta.items,
    List.flatMap_cons, List.flatMap_nil, List.append_nil]

end Bounded

/-- The chunks of a body, in the order they are written. -/
theorem TagBody.bytes_onMetaData (double : Double → List UInt8) (count : Nat)
    (items : List AmfItem) :
    (TagBody.onMetaData count items).bytes double
      = (AmfValue.string "onMetaData".toList).bytes double ++ ((8 :: beWriteUint32 count)
        ++ (items.flatMap (AmfItem.bytes double) ++ [0, 0, 9])) := by
  simp only [TagBody.bytes, AmfValue.bytes, List.append_assoc]

/-- What `to_tag_data` writes is the body of the tag, if it fits in the buffer. -/
theorem Metadata.writeTagData_eq (codec : DoubleBytes) {m : Metadata}
    (hshort : m.video.isEnabled = true → m.video.encoder.length < 65536) :
    m.writeTagData codec = put 1024 (m.toTagData.bytes codec.write) [] := by
  have hname : "onMetaData".toList.length < 65536 := by decide
  have hvideoItems : m.video.isEnabled = true → ∀ ptr, m.video.putItems codec 1024 ptr
      = put 1024 (m.video.items.flatMap (AmfItem.bytes codec.write)) ptr :=
    fun h => VideoMeta.putItems_eq codec (hshort h)
  have hdone : ∀ ptr : List UInt8, (do
      let ptr ← some ptr
      put 1024 [0, 0, 9] ptr) = put 1024 [0, 0, 9] ptr := fun _ => rfl
  unfold Metadata.writeTagData Metadata.toTagData
  cases haudio : m.audio.isEnabled <;> cases hvideo : m.video.isEnabled
  · rfl
  all_goals
    simp only [Bool.not_true, Bool.not_false, Bool.and_true, Bool.and_false, Bool.false_eq_true,
      if_true, if_false, AmfBuffer.writeString_eq codec hname, AmfBuffer.writeArrayHeader_eq,
      AudioMeta.putItems_eq, AmfBuffer.writeObjectEnd_eq, TagBody.bytes_onMetaData]
  · simp only [Option.bind_eq_bind, Option.bind_some, hvideoItems hvideo]
    simp only [← Option.bind_eq_bind, put_bind_put, List.nil_append]
  · simp only [hdone, put_bind_put, List.append_nil]
  · simp only [hvideoItems hvideo, put_bind_put, List.flatMap_append, List.append_assoc]

end SeastarLive.Flv
