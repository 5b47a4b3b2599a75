/-
SeastarLive.Flv.MetadataRoundTrip — what a metadata says, written and read back.

`to_tag_data` and `load` of `metadata_t` are written independently, and meet in
the AMF values of `onMetaData`: `amf_read_object` hands the entries of an
array to its table one by one, in order (`amfReadObject_items`), so that a
track is in the variables of `load` as `stored` has it, and `load` makes a
track that agrees with it (`agrees_stored`).

* `AudioMeta.Announced` and `VideoMeta.Announced` are the values that survive:
  those the types of the source hold, and codecs and encoder names that the
  shifts and the rewriting in `load` do not change.
* The bytes of a `double` are a parameter; of the numbers written it is asked
  that they are read back.
-/
import Mathlib.Data.List.TakeWhile
import SeastarLive.Flv.MetadataLoad
import SeastarLive.Flv.MetadataWrite

namespace SeastarLive.Flv

open BoundedBuffer

/-! ## One entry -/

/-- The type byte of a value. -/
def AmfValue.type : AmfValue → UInt8
  | number _ => amfNumber
  | boolean _ => amfBoolean
  | string _ => amfString

/-- The bytes of a value behind its type. -/
def AmfValue.payload (codec : DoubleBytes) : AmfValue → List UInt8
  | number x => codec.write x
  | boolean b => [if b then 1 else 0]
  | string s => amfWriteString16 s

theorem AmfValue.bytes_eq (codec : DoubleBytes) (v : AmfValue) :
    v.bytes codec.write = v.type :: v.payload codec := by
  cases v <;> rfl

/-- Where a value goes that is read into a slot. -/
def AmfSlot.put {σ : Type} (codec : DoubleBytes) (values : σ) : AmfSlot σ → AmfValue → σ
  | .number store, .number x => store (codec.write x) values
  | .boolean store, .boolean b => store (if b then 1 else 0) values
  | .string size store, .string s =>
      if s.length < size then store (stringBytes s) values else values
  | _, _ => values

/-- Where an entry goes. -/
def AmfItem.put {σ : Type} (codec : DoubleBytes) (props : List (AmfObjectItem σ)) (values : σ)
    (item : AmfItem) : σ :=
  (amfFindItem props (stringBytes item.name) item.value.type).put codec values item.value

/-- The length of a string in its two bytes. -/
theorem length_bytes {n : Nat} (hn : n < 65536) :
    (UInt8.ofNat (n / 256)).toNat * 256 + (UInt8.ofNat n).toNat = n := by
  simp only [UInt8.toNat_ofNat']
  omega

/-- A value whose string fits the two bytes of its length. -/
def AmfValue.Short : AmfValue → Prop
  | number _ => True
  | boolean _ => True
  | string s => s.length < 65536

section Read

variable {σ : Type} (codec : DoubleBytes) (asserts : Bool)

theorem amfReadStringItem_string {s : List Char} (hs : s.length < 65536) (slot : AmfSlot σ)
    (values : σ) (rest : List UInt8) :
    amfReadStringItem 2 slot values (amfWriteString16 s ++ rest)
      = .done (slot.put codec values (.string s)) rest := by
  have hbytes := length_stringBytes s
  have htext : (amfWriteString16 s ++ rest).drop 2 = stringBytes s ++ rest := rfl
  have hlen : bigEndian ((amfWriteString16 s ++ rest).take 2) = s.length := by
    have hlength := length_bytes hs
    simpa [bigEndian, amfWriteString16] using hlength
  have htwo : ¬ (amfWriteString16 s ++ rest).length < 2 := by
    rw [List.length_append, length_amfWriteString16]
    omega
  simp only [amfReadStringItem, if_neg htwo, htext, hlen]
  rw [if_neg (by simp [hbytes]), List.take_left' hbytes, List.drop_left' hbytes]
  cases slot <;> rfl

/-- A value is read into its slot. -/
theorem amfReadItem_value {v : AmfValue} (hv : v.Short) (fuel : Nat) (slot : AmfSlot σ)
    (values : σ) (rest : List UInt8) :
    amfReadItem asserts (fuel + 1) v.type slot values (v.payload codec ++ rest)
      = .done (slot.put codec values v) rest := by
  cases v with
  | number x =>
      have hlength := codec.length_write x
      have hread : amfReadDouble slot values (codec.write x ++ rest)
          = .done (slot.put codec values (.number x)) rest := by
        unfold amfReadDouble
        rw [if_neg (by simp [hlength]), List.take_left' hlength, List.drop_left' hlength]
        cases slot <;> rfl
      rw [amfReadItem]
      exact hread
  | boolean b =>
      rw [amfReadItem]
      cases slot <;> rfl
  | string s =>
      rw [amfReadItem]
      exact amfReadStringItem_string codec hv slot values rest

/-- An entry whose name and value fit the two bytes of their lengths. -/
structure AmfItem.Short (item : AmfItem) : Prop where
  name_ne_nil : item.name ≠ []
  name : item.name.length < 65536
  value : item.value.Short

/-- The loop of `amf_read_object` takes one entry off the front. -/
theorem amfReadObject_item {item : AmfItem} (hitem : item.Short) (fuel : Nat)
    (props : List (AmfObjectItem σ)) (values : σ) (rest : List UInt8) :
    amfReadObject asserts (fuel + 2) props values (item.bytes codec.write ++ rest)
      = amfReadObject asserts (fuel + 1) props (item.put codec props values) rest := by
  have hname := length_stringBytes item.name
  have hlength := length_bytes hitem.name
  have hpositive : item.name.length ≠ 0 := mt List.length_eq_zero_iff.mp hitem.name_ne_nil
  have hbytes : item.bytes codec.write ++ rest
      = UInt8.ofNat (item.name.length / 256) :: UInt8.ofNat item.name.length
        :: (stringBytes item.name ++ item.value.type :: (item.value.payload codec ++ rest)) := by
    simp [AmfItem.bytes, amfWriteString16, AmfValue.bytes_eq, stringBytes]
  rw [hbytes, amfReadObject]
  simp only [hlength, if_neg hpositive, List.drop_left' hname, List.take_left' hname,
    amfReadItem_value codec asserts hitem.value]
  rfl

/-- The entries go to the table one by one, in order. -/
theorem amfReadObject_items (props : List (AmfObjectItem σ)) {items : List AmfItem}
    (hitems : ∀ item ∈ items, item.Short) {fuel : Nat} (hfuel : items.length < fuel)
    (values : σ) :
    amfReadObject asserts fuel props values
        (items.flatMap (AmfItem.bytes codec.write) ++ [0, 0, 9])
      = .done (items.foldl (AmfItem.put codec props) values) [] := by
  induction items generalizing fuel values with
  | nil =>
      obtain ⟨fuel, rfl⟩ := Nat.exists_eq_add_one.mpr hfuel
      rw [List.flatMap_nil, List.nil_append, amfReadObject]
      simp [amfReadObjectEnd, amfObjectEnd]
  | cons item items ih =>
      rw [List.length_cons] at hfuel
      obtain ⟨fuel, rfl⟩ : ∃ k, fuel = k + 2 := ⟨fuel - 2, by omega⟩
      rw [List.flatMap_cons, List.append_assoc,
        amfReadObject_item codec asserts (hitems item List.mem_cons_self)]
      exact ih (fun x hx => hitems x (List.mem_cons_of_mem item hx)) (by omega) _

/-- Every entry takes at least two bytes. -/
theorem length_le_flatMap_bytes (items : List AmfItem) :
    items.length ≤ (items.flatMap (AmfItem.bytes codec.write)).length := by
  induction items with
  | nil => exact Nat.zero_le 0
  | cons item items ih =>
      have hitem : (item.bytes codec.write).length
          = item.name.length + 2 + (item.value.bytes codec.write).length :=
        length_item_bytes codec item.name item.value
      rw [List.length_cons, List.flatMap_cons, List.length_append]
      omega

/-- `amf_read_items` on an array as `to_tag_data` writes it. -/
theorem amfReadItems_array (props : List (AmfObjectItem σ)) {items : List AmfItem}
    (hitems : ∀ item ∈ items, item.Short) (count : Nat) (values : σ) :
    amfReadItems asserts props values (8 :: beWriteUint32 count
        ++ (items.flatMap (AmfItem.bytes codec.write) ++ [0, 0, 9]))
      = .done (items.foldl (AmfItem.put codec props) values) [] := by
  have hlength := length_le_flatMap_bytes codec items
  have hcount := beWriteUint32_length count
  rw [List.cons_append, amfReadItems, if_neg (by decide), if_pos (by decide),
    if_neg (by simp [hcount]), List.drop_left' hcount]
  refine amfReadObject_items codec asserts props hitems ?_ values
  simp only [List.length_append, List.length_cons, List.length_nil]
  omega

end Read

/-! ## The table of `load` -/

/-- Characters that are one byte. -/
def SingleBytes (s : List Char) : Prop := ∀ c ∈ s, c.toNat < 256

instance (s : List Char) : Decidable (SingleBytes s) :=
  List.decidableBAll (fun c : Char => c.toNat < 256) s

theorem map_stringBytes {s : List Char} (hs : SingleBytes s) :
    (stringBytes s).map (fun b => Char.ofNat b.toNat) = s := by
  rw [stringBytes, List.map_map]
  refine (List.map_congr_left fun c hc => ?_).trans (List.map_id s)
  have hlt := hs c hc
  show Char.ofNat (UInt8.ofNat c.toNat).toNat = c
  rw [UInt8.toNat_ofNat', Nat.mod_eq_of_lt (by omega), Char.ofNat_toNat]

/-- A property of a table whose names differ is found by its name. -/
theorem amfFindItem_of_mem {σ : Type} {props : List (AmfObjectItem σ)}
    (hnodup : (props.map AmfObjectItem.name).Nodup) {prop : AmfObjectItem σ}
    (hprop : prop ∈ props) (hname : SingleBytes prop.name.toList) :
    amfFindItem props (stringBytes prop.name.toList) prop.type = prop.slot := by
  have htype : amfReadItemTypeCheck prop.type prop.type = true := by simp [amfReadItemTypeCheck]
  unfold amfFindItem
  rw [map_stringBytes hname]
  induction props with
  | nil => cases hprop
  | cons first props ih =>
      rw [List.map_cons, List.nodup_cons] at hnodup
      rcases List.mem_cons.mp hprop with rfl | hprop
      · rw [List.find?_cons_of_pos (by simp [htype])]
      · have hne : first.name ≠ prop.name := fun h =>
          hnodup.1 (h ▸ List.mem_map_of_mem hprop)
        rw [List.find?_cons_of_neg (by simp [String.toList_inj, hne])]
        exact ih hnodup.2 hprop

/-- A name that is not in the table. -/
theorem amfFindItem_of_not_mem {σ : Type} {props : List (AmfObjectItem σ)} {name : String}
    (hname : SingleBytes name.toList) (hprops : name ∉ props.map AmfObjectItem.name)
    (type : UInt8) : amfFindItem props (stringBytes name.toList) type = .ignored := by
  have hnone : props.find? (fun item => item.name.toList
      == (stringBytes name.toList).map (fun b => Char.ofNat b.toNat)
        && amfReadItemTypeCheck type item.type) = none := by
    rw [map_stringBytes hname, List.find?_eq_none]
    intro prop hprop hfound
    have heq := (Bool.and_eq_true_iff.mp hfound).1
    rw [beq_iff_eq, String.toList_inj] at heq
    exact hprops (heq ▸ List.mem_map_of_mem hprop)
  unfold amfFindItem
  rw [hnone]

/-- The names of the table, which do not depend on how numbers are read. -/
def propNames : List String := (metadataProps fun _ => 0).map AmfObjectItem.name

theorem propNames_eq (double : List UInt8 → Double) :
    (metadataProps double).map AmfObjectItem.name = propNames := rfl

theorem propNames_nodup : propNames.Nodup := by decide

theorem propNames_singleBytes : ∀ name ∈ propNames, SingleBytes name.toList := by decide

section Entries

variable (codec : DoubleBytes)

/-- An entry that the table has goes to its slot. -/
theorem put_prop {prop : AmfObjectItem MetaItems} {i : Nat}
    (hprop : (metadataProps codec.read)[i]? = some prop) (values : MetaItems) {value : AmfValue}
    (htype : value.type = prop.type) :
    AmfItem.put codec (metadataProps codec.read) values ⟨prop.name.toList, value⟩
      = prop.slot.put codec values value := by
  have hmem := List.mem_of_getElem? hprop
  have hname := propNames_singleBytes prop.name
    (propNames_eq codec.read ▸ List.mem_map_of_mem hmem)
  unfold AmfItem.put
  rw [htype, amfFindItem_of_mem (propNames_eq codec.read ▸ propNames_nodup) hmem hname]

/-- An entry that it does not have is read past. -/
theorem put_other {name : String} (hname : SingleBytes name.toList) (hprops : name ∉ propNames)
    (values : MetaItems) (value : AmfValue) :
    AmfItem.put codec (metadataProps codec.read) values ⟨name.toList, value⟩ = values := by
  unfold AmfItem.put
  rw [amfFindItem_of_not_mem hname (propNames_eq codec.read ▸ hprops)]
  cases value <;> rfl

/-- A number that the eight bytes of a `double` hold. -/
def AmfValue.Exact : AmfValue → Prop
  | number x => codec.read (codec.write x) = x
  | boolean _ => True
  | string _ => True

instance : DecidablePred (AmfValue.Exact codec)
  | .number x => inferInstanceAs (Decidable (codec.read (codec.write x) = x))
  | .boolean _ => instDecidableTrue
  | .string _ => instDecidableTrue

/-- The values of an audio track, where `load` reads them into. -/
def AudioMeta.stored (m : AudioMeta) (values : MetaItems) : MetaItems :=
  { values with
    audiocodecid := ((m.codecid / 16 : Int) : Double)
    audiodatarate := m.datarate
    audiosamplerate := m.samplerate
    audiosamplesize := m.samplesize
    stereo := if m.stereo then 1 else 0 }

/-- The values of a video track, where `load` reads them into. -/
def VideoMeta.stored (m : VideoMeta) (values : MetaItems) : MetaItems :=
  { values with
    videocodecid := m.codecid
    videodatarate := m.datarate
    framerate := m.framerate
    height := m.height
    width := m.width
    fps := m.framerate
    encoder := stringBytes m.encoder }

theorem AudioMeta.foldl_items {m : AudioMeta}
    (hexact : ∀ item ∈ m.items, item.value.Exact codec) (values : MetaItems) :
    m.items.foldl (AmfItem.put codec (metadataProps codec.read)) values = m.stored values := by
  simp only [AudioMeta.items, List.forall_mem_cons, AmfValue.Exact] at hexact
  obtain ⟨hcodecid, hdatarate, hsamplerate, hsamplesize, -⟩ := hexact
  simp only [AudioMeta.items, List.foldl_cons, List.foldl_nil]
  rw [put_prop codec (i := 0) rfl _ rfl, put_prop codec (i := 1) rfl _ rfl,
    put_prop codec (i := 3) rfl _ rfl, put_prop codec (i := 4) rfl _ rfl,
    put_prop codec (i := 5) rfl _ rfl]
  simp only [AmfSlot.put, hcodecid, hdatarate, hsamplerate, hsamplesize, AudioMeta.stored]

theorem VideoMeta.foldl_items {m : VideoMeta}
    (hexact : ∀ item ∈ m.items, item.value.Exact codec) (hencoder : m.encoder.length < 256)
    (values : MetaItems) :
    m.items.foldl (AmfItem.put codec (metadataProps codec.read)) values = m.stored values := by
  simp only [VideoMeta.items, List.forall_mem_cons, AmfValue.Exact] at hexact
  obtain ⟨hcodecid, hdatarate, hframerate, hheight, hwidth, -⟩ := hexact
  -- two of the entries are for players only
  have hdisplayWidth := put_other codec (show SingleBytes "displayWidth".toList by decide)
    (show "displayWidth" ∉ propNames by decide)
  have hdisplayHeight := put_other codec (show SingleBytes "displayHeight".toList by decide)
    (show "displayHeight" ∉ propNames by decide)
  simp only [VideoMeta.items, List.foldl_cons, List.foldl_nil]
  rw [put_prop codec (i := 10) rfl _ rfl, put_prop codec (i := 11) rfl _ rfl,
    put_prop codec (i := 12) rfl _ rfl, put_prop codec (i := 13) rfl _ rfl,
    put_prop codec (i := 14) rfl _ rfl, hdisplayWidth, hdisplayHeight,
    put_prop codec (i := 17) rfl _ rfl, put_prop codec (i := 16) rfl _ rfl]
  simp only [AmfSlot.put, hcodecid, hdatarate, hframerate, hheight, hwidth, if_pos hencoder,
    VideoMeta.stored]

end Entries

/-! ## Conversions -/

theorem toInt32_of_le {n : Int} (hnonneg : 0 ≤ n) (hle : n ≤ 2147483647) : toInt32 n = n := by
  unfold toInt32
  omega

@[simp] theorem truncate_intCast (n : Int) : truncate n = n := by
  change (if 0 ≤ (n : Rat) then (n : Rat).floor else (n : Rat).ceil) = n
  split
  · exact Rat.floor_intCast n
  · exact Rat.ceil_intCast n

@[simp] theorem truncate_natCast (n : Nat) : truncate n = n := by
  have hcast : (n : Double) = ((n : Int) : Double) := congrArg Double.number (Int.cast_natCast n).symm
  rw [hcast, truncate_intCast]

theorem toUInt32_natCast {n : Nat} (hn : n < 4294967296) : toUInt32 n = n := by
  have htruncate : truncate n = n := truncate_natCast n
  unfold toUInt32
  omega

theorem toUInt8_natCast {n : Nat} (hn : n < 256) : toUInt8 n = n := by
  have htruncate : truncate n = n := truncate_natCast n
  unfold toUInt8
  omega

/-- The bytes of a C string. -/
def CStringBytes (s : List Char) : Prop := ∀ c ∈ s, 0 < c.toNat ∧ c.toNat < 256

instance (s : List Char) : Decidable (CStringBytes s) :=
  List.decidableBAll (fun c : Char => 0 < c.toNat ∧ c.toNat < 256) s

theorem CStringBytes.singleBytes {s : List Char} (hs : CStringBytes s) : SingleBytes s :=
  fun c hc => (hs c hc).2

theorem cString_stringBytes {s : List Char} (hs : CStringBytes s) :
    cString (stringBytes s) = s := by
  have hnul : ∀ b ∈ stringBytes s, (b != 0) = true := by
    intro b hb
    obtain ⟨c, hc, rfl⟩ := List.mem_map.mp hb
    have hbyte := hs c hc
    rw [bne_iff_ne]
    intro hzero
    have hnat := congrArg UInt8.toNat hzero
    rw [UInt8.toNat_ofNat', Nat.mod_eq_of_lt (by omega), UInt8.toNat_zero] at hnat
    omega
  rw [cString, List.takeWhile_eq_self_iff.mpr hnul, map_stringBytes hs.singleBytes]

/-- A pattern that does not occur. -/
theorem beforeFirst_eq_none {pattern s : List Char} (h : ¬ pattern <:+: s) :
    beforeFirst pattern s = none := by
  induction s with
  | nil =>
      have hne : pattern ≠ [] := fun hnil => h (hnil ▸ List.nil_infix)
      rw [beforeFirst, if_neg (by simpa using hne)]
  | cons c s ih =>
      have hhead : ¬ pattern <+: c :: s := fun hhead => h hhead.isInfix
      have htail : ¬ pattern <:+: s := fun htail => h (List.infix_cons htail)
      rw [beforeFirst, if_neg (by simpa using hhead), ih htail, Option.map_none]

/-- A name that none of the three rules of `load` matches. -/
structure PlainEncoder (encoder : List Char) : Prop where
  obsModule : ¬ "obs-output module ".toList <+: encoder
  obs : ¬ "Open Broadcaster Software".toList <+: encoder
  windows : ¬ " (Windows)".toList <:+: encoder

theorem PlainEncoder.compressEncoder_eq {encoder : List Char} (h : PlainEncoder encoder) :
    compressEncoder encoder = encoder := by
  unfold compressEncoder
  rw [if_neg (by simpa using h.obsModule), if_neg (by simpa using h.obs),
    beforeFirst_eq_none h.windows]

/-! ## The round trip -/

/-- An enabled audio track that `load` reads back: the ranges are those of its types. -/
structure AudioMeta.Announced (m : AudioMeta) : Prop where
  codecid_pos : 0 < m.codecid
  codecid_dvd : 16 ∣ m.codecid
  codecid_le : m.codecid ≤ 2147483647
  samplerate_lt : m.samplerate < 4294967296
  samplesize_lt : m.samplesize < 4294967296

/-- An enabled video track that `load` reads back: the ranges are those of its types. -/
structure VideoMeta.Announced (m : VideoMeta) : Prop where
  codecid_pos : 0 < m.codecid
  codecid_le : m.codecid ≤ 2147483647
  framerate_lt : m.framerate < 256
  width_lt : m.width < 4294967296
  height_lt : m.height < 4294967296
  encoder_le : m.encoder.length ≤ 255
  encoder_bytes : CStringBytes m.encoder
  encoder_plain : PlainEncoder m.encoder

/-- What `onMetaData` says about the audio of a metadata. -/
structure AudioMeta.Agrees (x y : AudioMeta) : Prop where
  codecid : y.codecid = x.codecid
  datarate : y.datarate = x.datarate
  samplerate : y.samplerate = x.samplerate
  samplesize : y.samplesize = x.samplesize
  stereo : y.stereo = x.stereo

/-- What `onMetaData` says about the video of a metadata. -/
structure VideoMeta.Agrees (x y : VideoMeta) : Prop where
  codecid : y.codecid = x.codecid
  datarate : y.datarate = x.datarate
  framerate : y.framerate = x.framerate
  width : y.width = x.width
  height : y.height = x.height
  encoder : y.encoder = x.encoder

@[simp] theorem VideoMeta.stored_assignAudio (m : VideoMeta) (values : MetaItems) :
    (m.stored values).assignAudio = values.assignAudio := rfl

@[simp] theorem AudioMeta.stored_assignVideo (m : AudioMeta) (values : MetaItems) :
    (m.stored values).assignVideo = values.assignVideo := rfl

theorem AudioMeta.agrees_stored {m : AudioMeta} (hm : m.Announced) (values : MetaItems)
    (audio : AudioMeta) : m.Agrees ((m.stored values).assignAudio audio) := by
  have hle := hm.codecid_le
  have hquotient : 0 < m.codecid / 16 := by
    have hpos := hm.codecid_pos
    have hdvd := hm.codecid_dvd
    omega
  have hshift : toInt32 (toInt32 (m.codecid / 16) * 16) = m.codecid := by
    rw [toInt32_of_le hquotient.le (by omega), Int.ediv_mul_cancel hm.codecid_dvd,
      toInt32_of_le hm.codecid_pos.le hle]
  have hpos : ((m.codecid / 16 : Int) : Double).Positive := Double.positive_intCast hquotient
  unfold AudioMeta.stored MetaItems.assignAudio
  rw [if_pos hpos, truncate_intCast, hshift, toUInt32_natCast hm.samplerate_lt,
    toUInt32_natCast hm.samplesize_lt]
  exact
    { codecid := rfl
      datarate := rfl
      samplerate := rfl
      samplesize := rfl
      stereo := by cases m.stereo <;> rfl }

theorem VideoMeta.agrees_stored {m : VideoMeta} (hm : m.Announced) (values : MetaItems)
    (video : VideoMeta) : m.Agrees ((m.stored values).assignVideo video) := by
  have hpos : (m.codecid : Double).Positive := Double.positive_intCast hm.codecid_pos
  unfold VideoMeta.stored MetaItems.assignVideo
  rw [if_pos hpos, ite_self, truncate_intCast, toUInt8_natCast hm.framerate_lt,
    toUInt32_natCast hm.width_lt, toUInt32_natCast hm.height_lt,
    cString_stringBytes hm.encoder_bytes, hm.encoder_plain.compressEncoder_eq,
    toInt32_of_le hm.codecid_pos.le hm.codecid_le]
  exact
    { codecid := rfl
      datarate := rfl
      framerate := rfl
      width := rfl
      height := rfl
      encoder := rfl }

/-- The entries of `onMetaData`. -/
def Metadata.entries (m : Metadata) : List AmfItem :=
  (if m.audio.isEnabled then m.audio.items else [])
    ++ if m.video.isEnabled then m.video.items else []

/-- A metadata whose enabled tracks are announced, in numbers that a `double` holds. -/
structure Metadata.Announced (codec : DoubleBytes) (m : Metadata) : Prop where
  enabled : m.isEnabled = true
  audio : m.audio.isEnabled = true → m.audio.Announced
  video : m.video.isEnabled = true → m.video.Announced
  exact : ∀ item ∈ m.entries, item.value.Exact codec

section RoundTrip

variable {codec : DoubleBytes} {m : Metadata}

theorem Metadata.toTagData_of_enabled (h : m.isEnabled = true) :
    m.toTagData = .onMetaData m.entries.length m.entries := by
  have hsome : ¬ (!m.audio.isEnabled && !m.video.isEnabled) = true := by
    intro hnone
    rw [Bool.and_eq_true, Bool.not_eq_true', Bool.not_eq_true'] at hnone
    rw [Metadata.isEnabled, hnone.1, hnone.2] at h
    cases h
  have hbody : m.toTagData = .onMetaData _ m.entries := if_neg hsome
  rw [hbody, Metadata.toTagData_count hbody]

theorem AudioMeta.short_items (m : AudioMeta) : ∀ item ∈ m.items, item.Short := by
  have hnames : ∀ name ∈ ({} : AudioMeta).items.map AmfItem.name,
      name ≠ [] ∧ name.length < 65536 := by decide
  have hvalues : ∀ item ∈ m.items, item.value.Short := by simp [AudioMeta.items, AmfValue.Short]
  intro item hitem
  have hmem : item.name ∈ m.items.map AmfItem.name := List.mem_map_of_mem hitem
  have hname := hnames item.name hmem
  exact ⟨hname.1, hname.2, hvalues item hitem⟩

theorem VideoMeta.short_items {m : VideoMeta} (hm : m.encoder.length < 65536) :
    ∀ item ∈ m.items, item.Short := by
  have hnames : ∀ name ∈ ({} : VideoMeta).items.map AmfItem.name,
      name ≠ [] ∧ name.length < 65536 := by decide
  have hvalues : ∀ item ∈ m.items, item.value.Short := by
    simp [VideoMeta.items, AmfValue.Short, hm]
  intro item hitem
  have hmem : item.name ∈ m.items.map AmfItem.name := List.mem_map_of_mem hitem
  have hname := hnames item.name hmem
  exact ⟨hname.1, hname.2, hvalues item hitem⟩

theorem AudioMeta.length_items_bytes (codec : DoubleBytes) (m : AudioMeta) :
    (m.items.flatMap (AmfItem.bytes codec.write)).length = 109 := by
  simp [AudioMeta.items, length_item_bytes, length_number_bytes, length_boolean_bytes]

theorem VideoMeta.length_items_bytes (codec : DoubleBytes) (m : VideoMeta) :
    (m.items.flatMap (AmfItem.bytes codec.write)).length = m.encoder.length + 173 := by
  simp [VideoMeta.items, length_item_bytes, length_number_bytes, length_string_bytes]
  omega

/-- A command name in front of the arguments is taken off. -/
theorem parseCommandName_bytes {name : List Char} (hname : SingleBytes name)
    (hlength : name.length < commandNameBuffer) (double : Double → List UInt8)
    (rest : List UInt8) :
    parseCommandName ((AmfValue.string name).bytes double ++ rest) = some (name, rest) := by
  have hshort : name.length < 65536 := hlength.trans (by decide)
  have hbytes := length_stringBytes name
  have hfront : (AmfValue.string name).bytes double ++ rest
      = amfString :: UInt8.ofNat (name.length / 256) :: UInt8.ofNat name.length
        :: (stringBytes name ++ rest) := rfl
  rw [hfront, parseCommandName, if_pos rfl, amfReadString]
  simp only [length_bytes hshort, List.take_left' hbytes, List.drop_left' hbytes,
    map_stringBytes hname, if_pos hlength]
  exact if_neg (by simp [hbytes])

theorem Metadata.short_entries (hvideo : m.video.isEnabled = true → m.video.encoder.length ≤ 255) :
    ∀ item ∈ m.entries, item.Short := by
  intro item hitem
  rcases List.mem_append.mp hitem with hitem | hitem
  · cases henabled : m.audio.isEnabled <;> rw [henabled] at hitem
    · cases hitem
    · exact m.audio.short_items item hitem
  · cases henabled : m.video.isEnabled <;> rw [henabled] at hitem
    · cases hitem
    · exact VideoMeta.short_items ((hvideo henabled).trans_lt (by decide)) item hitem

/-- Both tracks take at most 537 bytes, which they do with an encoder of 255 bytes. -/
theorem Metadata.length_entries_bytes (codec : DoubleBytes)
    (hvideo : m.video.isEnabled = true → m.video.encoder.length ≤ 255) :
    (m.entries.flatMap (AmfItem.bytes codec.write)).length ≤ 537 := by
  have haudioLength := AudioMeta.length_items_bytes codec m.audio
  have hvideoLength := VideoMeta.length_items_bytes codec m.video
  rw [Metadata.entries, List.flatMap_append, List.length_append]
  have hfirst : ((if m.audio.isEnabled then m.audio.items else []).flatMap
      (AmfItem.bytes codec.write)).length ≤ 109 := by
    split
    · omega
    · simp
  have hsecond : ((if m.video.isEnabled then m.video.items else []).flatMap
      (AmfItem.bytes codec.write)).length ≤ 428 := by
    split
    · rename_i henabled
      have hencoder := hvideo henabled
      omega
    · simp
  omega

/-- The entries one by one, into the variables of `load`. -/
theorem Metadata.foldl_entries (hm : m.Announced codec) :
    m.entries.foldl (AmfItem.put codec (metadataProps codec.read)) {}
      = (if m.video.isEnabled then m.video.stored else id)
          ((if m.audio.isEnabled then m.audio.stored else id) {}) := by
  have hexact := hm.exact
  simp only [Metadata.entries, List.forall_mem_append] at hexact
  rw [Metadata.entries, List.foldl_append]
  have haudio : (if m.audio.isEnabled then m.audio.items else []).foldl
      (AmfItem.put codec (metadataProps codec.read)) {}
        = (if m.audio.isEnabled then m.audio.stored else id) {} := by
    split
    · rename_i henabled
      exact AudioMeta.foldl_items codec (by simpa [henabled] using hexact.1) {}
    · rfl
  have hvideo : ∀ values, (if m.video.isEnabled then m.video.items else []).foldl
      (AmfItem.put codec (metadataProps codec.read)) values
        = (if m.video.isEnabled then m.video.stored else id) values := by
    intro values
    split
    · rename_i henabled
      have hencoder := (hm.video henabled).encoder_le
      exact VideoMeta.foldl_items codec (by simpa [henabled] using hexact.2) (by omega) values
    · rfl
  rw [haudio, hvideo]

/-- `metadata_t::load` on the entries. -/
theorem Metadata.load_entries (asserts : Bool) (hm : ∀ item ∈ m.entries, item.Short) (count : Nat)
    (y : Metadata) :
    metadataLoad asserts codec.read y (8 :: beWriteUint32 count
        ++ (m.entries.flatMap (AmfItem.bytes codec.write) ++ [0, 0, 9]))
      = some (0, (m.entries.foldl (AmfItem.put codec (metadataProps codec.read)) {}).assign y) := by
  unfold metadataLoad
  rw [amfReadItems_array codec asserts _ hm]

/-- What the receiver of the entries holds. -/
structure Metadata.Restored (x z : Metadata) : Prop where
  audio : x.audio.isEnabled = true → x.audio.Agrees z.audio
  video : x.video.isEnabled = true → x.video.Agrees z.video
  audio_default : x.audio.isEnabled = false → z.audio = {}
  video_default : x.video.isEnabled = false → z.video = {}

/-- A half that is not in the entries is reset. -/
theorem Metadata.restored_entries (hm : m.Announced codec) (y : Metadata) :
    m.Restored
      ((m.entries.foldl (AmfItem.put codec (metadataProps codec.read)) {}).assign y) := by
  have haudio : ∀ values : MetaItems, ((if m.video.isEnabled then m.video.stored else id)
      values).assignAudio = values.assignAudio := by
    intro values
    split
    · exact m.video.stored_assignAudio values
    · rfl
  have hvideo : ∀ values : MetaItems, ((if m.audio.isEnabled then m.audio.stored else id)
      values).assignVideo = values.assignVideo := by
    intro values
    split
    · exact m.audio.stored_assignVideo values
    · rfl
  rw [Metadata.foldl_entries hm]
  constructor
  · intro henabled
    simp only [MetaItems.assign, haudio, henabled, if_true]
    exact AudioMeta.agrees_stored (hm.audio henabled) {} y.audio
  · intro henabled
    simp only [MetaItems.assign, henabled, if_true]
    exact VideoMeta.agrees_stored (hm.video henabled) _ y.video
  · intro hdisabled
    simp only [MetaItems.assign, haudio, hdisabled, Bool.false_eq_true, if_false]
    rfl
  · intro hdisabled
    simp only [MetaItems.assign, hdisabled, Bool.false_eq_true, if_false, id, hvideo]
    rfl

theorem bigEndian_beWriteUint32 {n : Nat} (hn : n < 4294967296) :
    bigEndian (beWriteUint32 n) = n := by
  simp only [bigEndian, beWriteUint32, List.foldl_cons, List.foldl_nil, UInt8.toNat_ofNat']
  omega

/-- Five entries and nine. -/
theorem Metadata.length_entries_le (m : Metadata) : m.entries.length ≤ 14 := by
  unfold Metadata.entries
  cases m.audio.isEnabled <;> cases m.video.isEnabled <;> simp [AudioMeta.items, VideoMeta.items]

/-- The name takes 13 bytes, the count five and the end three. -/
theorem Metadata.length_bytes_le (hm : m.Announced codec) :
    (m.toTagData.bytes codec.write).length ≤ 1024 := by
  have hentries := Metadata.length_entries_bytes codec fun h => (hm.video h).encoder_le
  have hname : ((AmfValue.string "onMetaData".toList).bytes codec.write).length = 13 :=
    length_string_bytes codec _
  have hcount := beWriteUint32_length m.entries.length
  rw [Metadata.toTagData_of_enabled hm.enabled, TagBody.bytes_onMetaData]
  simp only [List.length_append, List.length_cons, List.length_nil]
  omega

/-- An announced metadata is written into its buffer, and read back into any other. -/
theorem Metadata.writeTagData_roundTrip (hm : m.Announced codec) :
    ∃ bytes rest count, m.writeTagData codec = some bytes ∧ bytes.length ≤ 1024
      ∧ parseCommandName bytes = some ("onMetaData".toList, rest)
      ∧ rest = 8 :: count ++ (m.entries.flatMap (AmfItem.bytes codec.write) ++ [0, 0, 9])
      ∧ count.length = 4 ∧ bigEndian count = m.entries.length
      ∧ ∀ asserts y, ∃ z, metadataLoad asserts codec.read y rest = some (0, z)
        ∧ m.Restored z := by
  have hencoder := fun h => (hm.video h).encoder_le
  have hwrite : m.writeTagData codec = some (m.toTagData.bytes codec.write) := by
    rw [Metadata.writeTagData_eq codec fun h => (hencoder h).trans_lt (by decide)]
    exact put_of_fits (by rw [List.length_nil, Nat.zero_add]; exact Metadata.length_bytes_le hm)
  have hparse : parseCommandName (m.toTagData.bytes codec.write)
      = some ("onMetaData".toList, 8 :: beWriteUint32 m.entries.length
        ++ (m.entries.flatMap (AmfItem.bytes codec.write) ++ [0, 0, 9])) := by
    rw [Metadata.toTagData_of_enabled hm.enabled, TagBody.bytes_onMetaData]
    exact parseCommandName_bytes (by decide) (by decide) codec.write _
  have hentries := m.length_entries_le
  refine ⟨_, _, beWriteUint32 m.entries.length, hwrite, Metadata.length_bytes_le hm, hparse, rfl,
    beWriteUint32_length _, bigEndian_beWriteUint32 (by omega), ?_⟩
  intro asserts y
  exact ⟨_, Metadata.load_entries asserts (Metadata.short_entries hencoder) _ y,
    Metadata.restored_entries hm y⟩

end RoundTrip

/-- The eight bytes of the `double` with a natural value below 2^53. -/
def naturalDoubles : DoubleBytes where
  write x :=
    let n := (truncate x).toNat
    let bits := if n = 0 then 0
      else (n.log2 + 1022) * 4503599627370496 + n * 2 ^ (52 - n.log2)
    beWriteUint32 (bits / 4294967296) ++ beWriteUint32 (bits % 4294967296)
  read bytes := .ofBits (bigEndian bytes)
  length_write _ := rfl

/-- A camera with sound. -/
def announcedCamera : Metadata where
  audio := { codecid := 160, datarate := 128, samplerate := 44100, samplesize := 16, stereo := true,
             valid := true }
  video := { codecid := 7, datarate := 2500, framerate := 30, width := 1280, height := 720,
             encoder := "Lavf58.29.100".toList, valid := true }

theorem announcedCamera_announced : announcedCamera.Announced naturalDoubles where
  enabled := by decide
  audio _ :=
    { codecid_pos := by decide
      codecid_dvd := by decide
      codecid_le := by decide
      samplerate_lt := by decide
      samplesize_lt := by decide }
  video _ :=
    { codecid_pos := by decide
      codecid_le := by decide
      framerate_lt := by decide
      width_lt := by decide
      height_lt := by decide
      encoder_le := by decide
      encoder_bytes := by decide
      encoder_plain :=
        { obsModule := by decide
          obs := by decide
          windows := fun h =>
            absurd (h.subset (show '(' ∈ " (Windows)".toList by decide)) (by decide) } }
  exact := by decide +kernel

theorem writeTagData_roundTrip_announcedCamera :
    ∃ bytes rest count, announcedCamera.writeTagData naturalDoubles = some bytes
      ∧ bytes.length ≤ 1024 ∧ parseCommandName bytes = some ("onMetaData".toList, rest)
      ∧ rest = 8 :: count ++ (announcedCamera.entries.flatMap
        (AmfItem.bytes naturalDoubles.write) ++ [0, 0, 9])
      ∧ count.length = 4 ∧ bigEndian count = 14
      ∧ ∀ asserts y, ∃ z, metadataLoad asserts naturalDoubles.read y rest = some (0, z)
        ∧ announcedCamera.Restored z :=
  Metadata.writeTagData_roundTrip announcedCamera_announced

end SeastarLive.Flv
