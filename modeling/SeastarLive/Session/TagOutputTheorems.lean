/-
SeastarLive.Session.TagOutputTheorems — what the written tags amount to.

* The bytes that an HTTP-FLV player writes are one FLV file, and no other.
  `emit` stops at a fault, so this holds of what was written before one too.
* An RTMP player writes about the tracks of its media type only. An HTTP-FLV
  player filters the media frames and nothing else, so it does so, and writes
  the tags of the RTMP player, under a condition on the frames (`suits`).
-/
import SeastarLive.Session.TagOutput

namespace SeastarLive

open Flv

/-! ## The file of an HTTP-FLV player -/

section File

variable (double : Double → List UInt8)

/-- The tags among the buffers. -/
def fileTags (buffers : List PlayBuffer) : List FileTag :=
  buffers.filterMap fun
    | .flvHeader _ _ => none
    | .tag type body timestamp => some (FileTag.of type (body.bytes double) timestamp)

/-- The body of a tag has less than 2^24 bytes. -/
def PlayBuffer.Short : PlayBuffer → Prop
  | flvHeader _ _ => True
  | tag _ body _ => (body.bytes double).length < 16777216

instance : DecidablePred (PlayBuffer.Short double)
  | .flvHeader _ _ => isTrue trivial
  | .tag _ body _ => inferInstanceAs (Decidable ((body.bytes double).length < 16777216))

def PlayBuffer.isHeader : PlayBuffer → Bool
  | flvHeader _ _ => true
  | tag _ _ _ => false

/-- The file that is written: what the first metadata enables, and the tags. -/
def httpFlvFile (saver : ConfigSaver) (metadata : Metadata) (frames : List Frame) : FlvFile where
  audio := metadata.audio.isEnabled
  video := metadata.video.isEnabled
  tags := fileTags double (emit (HttpFlv.writeFrame saver) {} (.metadata metadata :: frames))

variable {double}

theorem fileTags_wellFormed {buffers : List PlayBuffer} (h : ∀ c ∈ buffers, c.Short double) :
    ∀ tag ∈ fileTags double buffers, tag.WellFormed := by
  intro tag htag
  obtain ⟨c, hc, htag⟩ := List.mem_filterMap.mp htag
  cases c with
  | flvHeader audio video => cases htag
  | tag type body timestamp =>
      cases htag
      exact FileTag.of_wellFormed timestamp (h _ hc)

/-- Without a file header among them, buffers are the tags one after the other. -/
theorem flatMap_bytes {buffers : List PlayBuffer} (hshort : ∀ c ∈ buffers, c.Short double)
    (hheader : ∀ c ∈ buffers, c.isHeader = false) :
    buffers.flatMap (PlayBuffer.bytes double) =
      (fileTags double buffers).flatMap FileTag.encode := by
  induction buffers with
  | nil => rfl
  | cons c buffers ih =>
      have hrest := ih (fun x hx => hshort x (List.mem_cons_of_mem c hx))
        fun x hx => hheader x (List.mem_cons_of_mem c hx)
      cases c with
      | flvHeader audio video =>
          exact absurd (hheader _ List.mem_cons_self) (by simp [PlayBuffer.isHeader])
      | tag type body timestamp =>
          have hbody : (body.bytes double).length < 16777216 := hshort _ List.mem_cons_self
          have htag : (PlayBuffer.tag type body timestamp).bytes double
              = (FileTag.of type (body.bytes double) timestamp).encode :=
            makeTagData_eq timestamp hbody
          rw [List.flatMap_cons, htag, hrest]
          rfl

end File

theorem HttpFlv.writeMeta_sent (saver : ConfigSaver) {st : PipeState}
    (hsent : st.flvHeaderSent = true) (m : Metadata) :
    ∀ c ∈ (HttpFlv.writeMeta saver st m).2, c.isHeader = false := by
  intro c hc
  simp only [HttpFlv.writeMeta, hsent, if_true, List.nil_append, List.mem_append,
    List.mem_singleton] at hc
  rcases hc with (rfl | hc) | hc
  · rfl
  · cases haudio : m.audio.isEnabled <;> simp [haudio] at hc
    subst hc
    rfl
  · cases hvideo : m.video.isEnabled <;> simp [hvideo] at hc
    subst hc
    rfl

theorem HttpFlv.writeMedia_no_header {st : PipeState} {frame : Frame} {buffers : List PlayBuffer}
    (h : HttpFlv.writeMedia st frame = .ok buffers) : ∀ c ∈ buffers, c.isHeader = false := by
  unfold HttpFlv.writeMedia at h
  obtain ⟨_, _, h⟩ := bind_eq_ok h
  intro c hc
  split at h
  · cases h
    cases hc
  · obtain ⟨media, _, h⟩ := bind_eq_ok h
    obtain ⟨body, _, h⟩ := bind_eq_ok h
    cases h
    rw [List.mem_singleton.mp hc]
    rfl

/-- Once the file header is sent it is not sent again. -/
theorem HttpFlv.writeFrame_sent {saver : ConfigSaver} {st st' : PipeState} {frame : Frame}
    {buffers : List PlayBuffer} (hsent : st.flvHeaderSent = true)
    (h : HttpFlv.writeFrame saver st frame = .ok (st', buffers)) :
    st'.flvHeaderSent = true ∧ ∀ c ∈ buffers, c.isHeader = false := by
  unfold HttpFlv.writeFrame at h
  split at h
  · obtain ⟨m, _, h⟩ := bind_eq_ok h
    cases h
    exact ⟨rfl, HttpFlv.writeMeta_sent saver hsent m⟩
  · obtain ⟨written, hwritten, h⟩ := bind_eq_ok h
    cases h
    exact ⟨hsent, HttpFlv.writeMedia_no_header hwritten⟩

theorem emit_no_header {saver : ConfigSaver} {st : PipeState} (hsent : st.flvHeaderSent = true)
    (frames : List Frame) :
    ∀ c ∈ emit (HttpFlv.writeFrame saver) st frames, c.isHeader = false := by
  induction frames generalizing st with
  | nil =>
      intro c hc
      cases hc
  | cons frame frames ih =>
      intro c hc
      unfold emit at hc
      split at hc
      · cases hc
      · rename_i st' buffers hwrite
        obtain ⟨hsent', hbuffers⟩ := HttpFlv.writeFrame_sent hsent hwrite
        rcases List.mem_append.mp hc with hc | hc
        · exact hbuffers c hc
        · exact ih hsent' c hc

/-- What is written for a sequence that starts with a metadata: the file header, and then
    tags only. -/
theorem emit_metadata_cons (saver : ConfigSaver) (m : Metadata) (frames : List Frame) :
    ∃ buffers, emit (HttpFlv.writeFrame saver) {} (.metadata m :: frames)
        = .flvHeader m.audio.isEnabled m.video.isEnabled :: buffers
      ∧ ∀ c ∈ buffers, c.isHeader = false := by
  have hfirst : HttpFlv.writeFrame saver {} (.metadata m)
      = .ok (⟨true, some m⟩, .flvHeader m.audio.isEnabled m.video.isEnabled
          :: (HttpFlv.writeMeta saver ⟨true, some m⟩ m).2) := rfl
  refine ⟨(HttpFlv.writeMeta saver ⟨true, some m⟩ m).2
    ++ emit (HttpFlv.writeFrame saver) ⟨true, some m⟩ frames, ?_, ?_⟩
  · rw [emit, hfirst]
    rfl
  · intro c hc
    rcases List.mem_append.mp hc with hc | hc
    · exact HttpFlv.writeMeta_sent saver rfl m c hc
    · exact emit_no_header rfl frames c hc

/-- Of any frames that start with a metadata, an HTTP-FLV player writes one FLV file: the
    bytes parse as the file header and the tags in order, they are the bytes of no other
    file, and the header is written once and first. -/
theorem httpFlv_writes_file (saver : ConfigSaver) (double : Double → List UInt8) (metadata : Metadata)
    (frames : List Frame)
    (hshort : ∀ c ∈ emit (HttpFlv.writeFrame saver) {} (.metadata metadata :: frames),
      c.Short double) :
    FlvFile.parse ((emit (HttpFlv.writeFrame saver) {} (.metadata metadata :: frames)).flatMap
        (PlayBuffer.bytes double)) = some (httpFlvFile double saver metadata frames)
      ∧ (∀ file : FlvFile, file.WellFormed → file.bytes
          = (emit (HttpFlv.writeFrame saver) {} (.metadata metadata :: frames)).flatMap
              (PlayBuffer.bytes double) → file = httpFlvFile double saver metadata frames)
      ∧ ∃ buffers, emit (HttpFlv.writeFrame saver) {} (.metadata metadata :: frames)
            = .flvHeader metadata.audio.isEnabled metadata.video.isEnabled :: buffers
          ∧ ∀ c ∈ buffers, c.isHeader = false := by
  obtain ⟨buffers, hbuffers, hheader⟩ := emit_metadata_cons saver metadata frames
  have htags : (httpFlvFile double saver metadata frames).tags = fileTags double buffers := by
    simp only [httpFlvFile, hbuffers]
    rfl
  have hshort' : ∀ c ∈ buffers, c.Short double := by
    intro c hc
    exact hshort c (hbuffers ▸ List.mem_cons_of_mem _ hc)
  have hwell : (httpFlvFile double saver metadata frames).WellFormed := by
    show ∀ tag ∈ (httpFlvFile double saver metadata frames).tags, tag.WellFormed
    rw [htags]
    exact fileTags_wellFormed hshort'
  have hbytes : (emit (HttpFlv.writeFrame saver) {} (.metadata metadata :: frames)).flatMap
      (PlayBuffer.bytes double) = (httpFlvFile double saver metadata frames).bytes := by
    rw [hbuffers, List.flatMap_cons, flatMap_bytes hshort' hheader, ← htags]
    show headerData _ _ ++ _ = _
    rw [headerData_eq]
    simp [FlvFile.bytes, httpFlvFile]
  refine ⟨?_, ?_, buffers, hbuffers, hheader⟩
  · rw [hbytes]
    exact FlvFile.parse_bytes hwell
  · intro file hfile heq
    exact FlvFile.bytes_inj hfile hwell (heq.trans hbytes)

/-- A metadata with an audio track, and a frame of it. -/
theorem httpFlv_writes_aac_file :
    FlvFile.parse ((emit (HttpFlv.writeFrame ⟨some, some, some, some⟩) {}
        [.metadata { audio := { codecid := 160, aac := [18, 16], valid := true } },
          .media { dts := 16777300, data := [33] }]).flatMap
        (PlayBuffer.bytes fun _ => [0, 0, 0, 0, 0, 0, 0, 0]))
      = some (httpFlvFile (fun _ => [0, 0, 0, 0, 0, 0, 0, 0]) ⟨some, some, some, some⟩
          { audio := { codecid := 160, aac := [18, 16], valid := true } }
          [.media { dts := 16777300, data := [33] }]) :=
  (httpFlv_writes_file ⟨some, some, some, some⟩ (fun _ => [0, 0, 0, 0, 0, 0, 0, 0])
    { audio := { codecid := 160, aac := [18, 16], valid := true } }
    [.media { dts := 16777300, data := [33] }] (by decide +kernel)).1

/-! ## The media type of a player -/

/-- The names under which `onMetaData` describes the audio track. -/
def audioEntries : List (List Char) :=
  ["audiocodecid".toList, "audiodatarate".toList, "audiosamplerate".toList,
    "audiosamplesize".toList, "stereo".toList]

/-- The names under which `onMetaData` describes the video track. -/
def videoEntries : List (List Char) :=
  ["videocodecid".toList, "videodatarate".toList, "framerate".toList, "height".toList,
    "width".toList, "displayWidth".toList, "displayHeight".toList, "fps".toList, "encoder".toList]

/-- The item describes a track of the media type, or none. -/
def Flv.AmfItem.within (t : MediaType) (item : AmfItem) : Bool :=
  (!decide (item.name ∈ audioEntries) || t.audio) && (!decide (item.name ∈ videoEntries) || t.video)

/-- The buffer concerns only tracks of the media type. -/
def PlayBuffer.within (t : MediaType) : PlayBuffer → Bool
  | flvHeader audio video => (!audio || t.audio) && (!video || t.video)
  | tag .audio _ _ => t.audio
  | tag .video _ _ => t.video
  | tag .script (.onMetaData _ items) _ => items.all (AmfItem.within t)
  | tag .script (.raw _) _ => true

/-- The types and bodies of the tags. -/
def typesAndBodies (buffers : List PlayBuffer) : List (TagType × TagBody) :=
  buffers.filterMap fun
    | .flvHeader _ _ => none
    | .tag type body _ => some (type, body)

theorem typesAndBodies_append (xs ys : List PlayBuffer) :
    typesAndBodies (xs ++ ys) = typesAndBodies xs ++ typesAndBodies ys :=
  List.filterMap_append

/-- What the two kinds of player write of the frames is about tracks of the media type, and
    is the same tags. -/
structure Alike (t : MediaType) (xs xs' : List PlayBuffer) : Prop where
  rtmp : ∀ c ∈ xs, c.within t = true
  httpFlv : ∀ c ∈ xs', c.within t = true
  same : typesAndBodies xs = typesAndBodies xs'

theorem Alike.nil (t : MediaType) : Alike t [] [] := ⟨nofun, nofun, rfl⟩

theorem Alike.append_iff {t : MediaType} {xs ys xs' ys' : List PlayBuffer} (h : Alike t xs xs') :
    Alike t (xs ++ ys) (xs' ++ ys') ↔ Alike t ys ys' := by
  constructor
  · intro hall
    refine ⟨fun c hc => hall.rtmp c (List.mem_append_right xs hc),
      fun c hc => hall.httpFlv c (List.mem_append_right xs' hc), ?_⟩
    have hsame := hall.same
    rw [typesAndBodies_append, typesAndBodies_append, h.same] at hsame
    exact List.append_cancel_left hsame
  · intro hrest
    refine ⟨?_, ?_, ?_⟩
    · intro c hc
      exact (List.mem_append.mp hc).elim (h.rtmp c) (hrest.rtmp c)
    · intro c hc
      exact (List.mem_append.mp hc).elim (h.httpFlv c) (hrest.httpFlv c)
    · rw [typesAndBodies_append, typesAndBodies_append, h.same, hrest.same]

/-! ### Metadata -/

/-- A metadata enables a track, none but those of the media type, and has a sequence header
    for each. -/
def Flv.Metadata.suits (saver : ConfigSaver) (t : MediaType) (m : Metadata) : Bool :=
  m.isEnabled
    && (!m.audio.isEnabled || (t.audio && !(m.audio.toTagData saver).isEmpty))
    && (!m.video.isEnabled || (t.video && !(m.video.toTagData saver).isEmpty))

theorem audioItems_within {t : MediaType} (h : t.audio = true) (m : AudioMeta) :
    m.items.all (AmfItem.within t) = true := by
  simp [AudioMeta.items, AmfItem.within, audioEntries, videoEntries, h]

theorem videoItems_within {t : MediaType} (h : t.video = true) (m : VideoMeta) :
    m.items.all (AmfItem.within t) = true := by
  simp [VideoMeta.items, AmfItem.within, audioEntries, videoEntries, h]

/-- A metadata whose tracks are of the media type is described within it. -/
theorem script_within {t : MediaType} {m : Metadata}
    (haudio : m.audio.isEnabled = true → t.audio = true)
    (hvideo : m.video.isEnabled = true → t.video = true) (timestamp : Int) :
    (PlayBuffer.tag .script m.toTagData timestamp).within t = true := by
  unfold Metadata.toTagData
  cases ha : m.audio.isEnabled <;> cases hv : m.video.isEnabled <;>
    simp [PlayBuffer.within]
  · simpa using videoItems_within (hvideo hv) m.video
  · simpa using audioItems_within (haudio ha) m.audio
  · constructor
    · simpa using audioItems_within (haudio ha) m.audio
    · simpa using videoItems_within (hvideo hv) m.video

/-- The copy that an RTMP player makes enables nothing beyond its media type. -/
theorem wanted_enabled (t : MediaType) (m : Metadata) :
    ((RtmpPlay.wanted t m).audio.isEnabled = true → t.audio = true)
      ∧ ((RtmpPlay.wanted t m).video.isEnabled = true → t.video = true) := by
  unfold RtmpPlay.wanted
  cases t with
  | mk video audio =>
      cases ha : m.audio.isEnabled <;> cases hv : m.video.isEnabled <;>
          cases video <;> cases audio <;>
        simp [Metadata.mediaOptions, MediaType.and, MediaType.compl, MediaType.none, ha, hv]

theorem wanted_of_within {t : MediaType} {m : Metadata}
    (haudio : m.audio.isEnabled = true → t.audio = true)
    (hvideo : m.video.isEnabled = true → t.video = true) : RtmpPlay.wanted t m = m := by
  unfold RtmpPlay.wanted
  cases t with
  | mk video audio =>
      cases ha : m.audio.isEnabled <;> cases hv : m.video.isEnabled <;>
          cases video <;> cases audio <;>
        simp_all [Metadata.mediaOptions, MediaType.and, MediaType.compl, MediaType.none]

theorem writeAudioMetadata_within {saver : ConfigSaver} {t : MediaType} {audio : AudioMeta}
    {c : PlayBuffer} (hc : c ∈ RtmpPlay.writeAudioMetadata saver t audio) : c.within t = true := by
  simp only [RtmpPlay.writeAudioMetadata] at hc
  split at hc
  · cases hc
  · split at hc
    · cases hc
    · rename_i hwritten
      rw [List.mem_singleton.mp hc]
      show t.audio = true
      cases t with
      | mk video audio =>
          cases audio <;>
            simp_all [MediaType.allows, MediaType.and, MediaType.onlyAudio, MediaType.none]

theorem writeVideoMetadata_within {saver : ConfigSaver} {t : MediaType} {video : VideoMeta}
    {c : PlayBuffer} (hc : c ∈ RtmpPlay.writeVideoMetadata saver t video) : c.within t = true := by
  simp only [RtmpPlay.writeVideoMetadata] at hc
  split at hc
  · cases hc
  · split at hc
    · cases hc
    · rename_i hwritten
      rw [List.mem_singleton.mp hc]
      show t.video = true
      cases t with
      | mk video audio =>
          cases video <;>
            simp_all [MediaType.allows, MediaType.and, MediaType.onlyVideo, MediaType.none]

/-- An RTMP player describes only tracks of its media type. -/
theorem writeMetadata_within (saver : ConfigSaver) (t : MediaType) (m : Metadata) :
    ∀ c ∈ RtmpPlay.writeMetadata saver t m, c.within t = true := by
  intro c hc
  obtain ⟨haudio, hvideo⟩ := wanted_enabled t m
  simp only [RtmpPlay.writeMetadata, List.mem_append] at hc
  rcases hc with (hc | hc) | hc
  · split at hc
    · cases hc
    · rw [List.mem_singleton.mp hc]
      exact script_within haudio hvideo 0
  · exact writeAudioMetadata_within hc
  · exact writeVideoMetadata_within hc

/-- The tags of an HTTP-FLV player for a metadata. -/
theorem typesAndBodies_writeMeta (saver : ConfigSaver) (st : PipeState) (m : Metadata) :
    typesAndBodies (HttpFlv.writeMeta saver st m).2
      = [(.script, m.toTagData)]
        ++ (if m.audio.isEnabled then [(.audio, .raw (m.audio.toTagData saver))] else [])
        ++ if m.video.isEnabled then [(.video, .raw (m.video.toTagData saver))] else [] := by
  cases st with
  | mk sent metadata =>
      cases sent <;> cases ha : m.audio.isEnabled <;> cases hv : m.video.isEnabled <;>
        simp [HttpFlv.writeMeta, typesAndBodies, ha, hv]

/-- The tags of an RTMP player for a metadata of tracks it wants. -/
theorem typesAndBodies_writeMetadata {saver : ConfigSaver} {t : MediaType} {m : Metadata}
    (haudio : m.audio.isEnabled = true → t.audio = true)
    (hvideo : m.video.isEnabled = true → t.video = true) :
    typesAndBodies (RtmpPlay.writeMetadata saver t m)
      = (if m.isEnabled then [(.script, m.toTagData)] else [])
        ++ (if m.audio.isEnabled && !(m.audio.toTagData saver).isEmpty then
              [(.audio, .raw (m.audio.toTagData saver))] else [])
        ++ if m.video.isEnabled && !(m.video.toTagData saver).isEmpty then
              [(.video, .raw (m.video.toTagData saver))] else [] := by
  have hwanted := wanted_of_within haudio hvideo
  cases ha : m.audio.isEnabled <;> cases hv : m.video.isEnabled <;>
    cases hae : (m.audio.toTagData saver).isEmpty <;>
      cases hve : (m.video.toTagData saver).isEmpty <;>
    simp_all [RtmpPlay.writeMetadata, RtmpPlay.writeAudioMetadata, RtmpPlay.writeVideoMetadata,
      typesAndBodies, Metadata.toTagData, Metadata.isEnabled, MediaType.allows, MediaType.and,
      MediaType.onlyAudio, MediaType.onlyVideo, MediaType.none]

theorem writeMeta_within {saver : ConfigSaver} {t : MediaType} {m : Metadata} (st : PipeState)
    (haudio : m.audio.isEnabled = true → t.audio = true)
    (hvideo : m.video.isEnabled = true → t.video = true) :
    ∀ c ∈ (HttpFlv.writeMeta saver st m).2, c.within t = true := by
  intro c hc
  simp only [HttpFlv.writeMeta, List.mem_append, List.mem_singleton] at hc
  rcases hc with ((hc | rfl) | hc) | hc
  · cases hsent : st.flvHeaderSent <;> simp [hsent] at hc
    subst hc
    cases ha : m.audio.isEnabled <;> cases hv : m.video.isEnabled <;> simp_all [PlayBuffer.within]
  · exact script_within haudio hvideo 0
  · cases ha : m.audio.isEnabled <;> simp [ha] at hc
    subst hc
    exact haudio ha
  · cases hv : m.video.isEnabled <;> simp [hv] at hc
    subst hc
    exact hvideo hv

/-- The two kinds of player write alike for a metadata exactly if it suits the media type. -/
theorem writeMeta_alike_iff (saver : ConfigSaver) (t : MediaType) (st : PipeState) (m : Metadata) :
    Alike t (RtmpPlay.writeMetadata saver t m) (HttpFlv.writeMeta saver st m).2
      ↔ m.suits saver t = true := by
  constructor
  · intro halike
    have haudio : m.audio.isEnabled = true → t.audio = true := by
      intro ha
      exact halike.httpFlv (.tag .audio (.raw (m.audio.toTagData saver)) 0)
        (by simp [HttpFlv.writeMeta, ha])
    have hvideo : m.video.isEnabled = true → t.video = true := by
      intro hv
      exact halike.httpFlv (.tag .video (.raw (m.video.toTagData saver)) 0)
        (by simp [HttpFlv.writeMeta, hv])
    have hsame := halike.same
    rw [typesAndBodies_writeMetadata haudio hvideo, typesAndBodies_writeMeta] at hsame
    unfold Metadata.suits
    cases ha : m.audio.isEnabled <;> cases hv : m.video.isEnabled <;>
      cases hae : (m.audio.toTagData saver).isEmpty <;>
      cases hve : (m.video.toTagData saver).isEmpty <;>
      simp_all [Metadata.isEnabled]
  · intro hsuits
    simp only [Metadata.suits, Bool.and_eq_true, Bool.or_eq_true, Bool.not_eq_true'] at hsuits
    obtain ⟨⟨henabled, ha⟩, hv⟩ := hsuits
    have haudio : m.audio.isEnabled = true → t.audio = true := by
      intro h
      simpa [h] using (ha.resolve_left (by simp [h])).1
    have hvideo : m.video.isEnabled = true → t.video = true := by
      intro h
      simpa [h] using (hv.resolve_left (by simp [h])).1
    refine ⟨writeMetadata_within saver t m, writeMeta_within st haudio hvideo, ?_⟩
    rw [typesAndBodies_writeMetadata haudio hvideo, typesAndBodies_writeMeta, henabled]
    rcases ha with ha | ⟨_, ha⟩ <;> rcases hv with hv | ⟨_, hv⟩ <;> simp [ha, hv]

/-! ### Media -/

theorem videoTagHeaderWrite_ne_nil (video : VideoTagHeader) : videoTagHeaderWrite video ≠ [] := by
  unfold videoTagHeaderWrite
  cases hasAvcPacketType video.codecid <;> simp

theorem audioTagHeaderWrite_ne_nil (audio : AudioTagHeader) : audioTagHeaderWrite audio ≠ [] := by
  unfold audioTagHeaderWrite
  cases hasAacPacketType audio.codecid <;> simp

theorem toTagData_ne_nil {media : Media} {m : Metadata} {body : List UInt8}
    (h : media.toTagData m = .ok body) : body ≠ [] := by
  unfold Media.toTagData at h
  obtain ⟨header, hheader, h⟩ := bind_eq_ok h
  cases h
  have hne : header ≠ [] := by
    unfold Media.tagHeader at hheader
    split at hheader
    · obtain ⟨_, _, hheader⟩ := bind_eq_ok hheader
      cases hheader
      exact videoTagHeaderWrite_ne_nil _
    · obtain ⟨_, _, hheader⟩ := bind_eq_ok hheader
      cases hheader
      exact audioTagHeaderWrite_ne_nil _
  simp [hne]

theorem tagType_within {t : MediaType} {media : Media} (h : t.allows media.mediaType = true)
    (body : List UInt8) (timestamp : Int) :
    (PlayBuffer.tag media.tagType (.raw body) timestamp).within t = true := by
  unfold Media.tagType
  cases t with
  | mk video audio =>
      cases hv : media.isVideo <;> cases video <;> cases audio <;>
        simp_all [PlayBuffer.within, MediaType.allows, MediaType.and, Media.mediaType,
          MediaType.onlyVideo, MediaType.onlyAudio, MediaType.none]

/-- A media frame of a track that the latest metadata enables is one tag, for either kind. -/
theorem writeMedia_ok (saver : ConfigSaver) (t : MediaType) {stR stF : PipeState} {m : Metadata}
    {media : Media} (hR : stR.metadata = some m) (hF : stF.metadata = some m)
    (h : m.enables media.mediaType = true) :
    ∃ body, RtmpPlay.writeFrame saver t stR (.media media)
        = .ok (stR, [.tag media.tagType (.raw body) media.dts])
      ∧ HttpFlv.writeFrame saver stF (.media media)
        = .ok (stF, [.tag media.tagType (.raw body) media.dts]) := by
  rcases media.toTagData_cases m with ⟨_, body, hbody⟩ | ⟨hnot, _⟩
  · have hne : body ≠ [] := toTagData_ne_nil hbody
    refine ⟨body, ?_, ?_⟩
    · simp [RtmpPlay.writeFrame, RtmpPlay.writeMedia, hR, hbody, hne, Media.tagType]
    · simp [HttpFlv.writeFrame, HttpFlv.writeMedia, hF, hbody]
  · rw [hnot] at h
    cases h

/-- Without such a metadata an assertion of either kind fails. -/
theorem writeMedia_error (saver : ConfigSaver) (t : MediaType) {stR stF : PipeState}
    {media : Media} (hsame : stR.metadata = stF.metadata)
    (h : ∀ m, stF.metadata = some m → m.enables media.mediaType = false) :
    (∃ e, RtmpPlay.writeFrame saver t stR (.media media) = .error e)
      ∧ ∃ e, HttpFlv.writeFrame saver stF (.media media) = .error e := by
  cases hF : stF.metadata with
  | none =>
      rw [hF] at hsame
      simp [RtmpPlay.writeFrame, RtmpPlay.writeMedia, HttpFlv.writeFrame, HttpFlv.writeMedia,
        hsame, hF]
  | some m =>
      rw [hF] at hsame
      rcases media.toTagData_cases m with ⟨henabled, _⟩ | ⟨_, herror⟩
      · rw [h m hF] at henabled
        cases henabled
      · simp [RtmpPlay.writeFrame, RtmpPlay.writeMedia, HttpFlv.writeFrame, HttpFlv.writeMedia,
          hsame, hF, herror]

/-! ### Sequences of frames -/

/-- Each metadata suits the media type, and no script is among the frames. What follows a
    media frame that fails the assertion of `to_tag_data` does not matter. -/
def framesSuit (saver : ConfigSaver) (t : MediaType) : Option Metadata → List Frame → Bool
  | _, [] => true
  | _, .metadata m :: frames => m.suits saver t && framesSuit saver t (some m) frames
  | _, .script _ :: _ => false
  | latest, .media media :: frames =>
      if !t.allows media.mediaType then framesSuit saver t latest frames
      else
        match latest with
        | none => true
        | some m => !m.enables media.mediaType || framesSuit saver t (some m) frames

theorem forall_prefix_cons {β : Type} {P : List β → Prop} (hnil : P []) (x : β) (xs : List β) :
    (∀ pre, pre <+: x :: xs → P pre) ↔ ∀ pre, pre <+: xs → P (x :: pre) := by
  constructor
  · intro h pre hpre
    exact h (x :: pre) ((List.cons_prefix_cons).mpr ⟨rfl, hpre⟩)
  · intro h pre hpre
    cases pre with
    | nil => exact hnil
    | cons y pre =>
        obtain ⟨rfl, hrest⟩ := List.cons_prefix_cons.mp hpre
        exact h pre hrest

/-- What two players write of the frames they receive from these states on is alike. -/
def AlikeFrom (saver : ConfigSaver) (t : MediaType) (stR stF : PipeState) (frames : List Frame) :
    Prop :=
  Alike t (emit (RtmpPlay.writeFrame saver t) stR (frames.filter (admits t)))
    (emit (HttpFlv.writeFrame saver) stF (frames.filter (admits t)))

/-- An admitted media frame without a metadata that enables it ends what either player writes. -/
theorem alikeFrom_media_error {saver : ConfigSaver} {t : MediaType} {stR stF : PipeState}
    {media : Media} (hallows : t.allows media.mediaType = true)
    (hsame : stR.metadata = stF.metadata)
    (h : ∀ m, stF.metadata = some m → m.enables media.mediaType = false) (frames : List Frame) :
    AlikeFrom saver t stR stF (.media media :: frames) := by
  obtain ⟨⟨e, hR⟩, e', hF⟩ := writeMedia_error saver t hsame h
  unfold AlikeFrom
  simp only [List.filter_cons, admits, hallows, if_true, emit, hR, hF]
  exact Alike.nil t

/-- With one, either player writes the same tag. -/
theorem alikeFrom_media_ok {saver : ConfigSaver} {t : MediaType} {stR stF : PipeState}
    {media : Media} {m : Metadata} (hallows : t.allows media.mediaType = true)
    (hR : stR.metadata = some m) (hF : stF.metadata = some m)
    (henables : m.enables media.mediaType = true) (frames : List Frame) :
    AlikeFrom saver t stR stF (.media media :: frames) ↔ AlikeFrom saver t stR stF frames := by
  obtain ⟨body, hR, hF⟩ := writeMedia_ok saver t hR hF henables
  have halike : Alike t [.tag media.tagType (.raw body) media.dts]
      [.tag media.tagType (.raw body) media.dts] := by
    have hwithin : ∀ c ∈ [PlayBuffer.tag media.tagType (.raw body) media.dts],
        c.within t = true := by
      intro c hc
      rw [List.mem_singleton.mp hc]
      exact tagType_within hallows body media.dts
    exact ⟨hwithin, hwithin, rfl⟩
  unfold AlikeFrom
  simp only [List.filter_cons, admits, hallows, if_true, emit, hR, hF, halike.append_iff]

/-- A script is written by an RTMP player, and fails an assertion of an HTTP-FLV player. -/
theorem not_alikeFrom_script (saver : ConfigSaver) (t : MediaType) (stR stF : PipeState)
    (s : Script) : ¬AlikeFrom saver t stR stF [.script s] := by
  intro halike
  have hR : RtmpPlay.writeFrame saver t stR (.script s)
      = .ok (stR, [.tag .script (.raw s.data) 0]) := rfl
  have hF : ∃ e, HttpFlv.writeFrame saver stF (.script s) = .error e := by
    cases hst : stF.metadata <;> simp [HttpFlv.writeFrame, HttpFlv.writeMedia, hst]
  obtain ⟨e, hF⟩ := hF
  have hsame := halike.same
  have hpass : [Frame.script s].filter (admits t) = [.script s] := rfl
  rw [hpass] at hsame
  simp [emit, hR, hF, typesAndBodies] at hsame

theorem alikeFrom_iff_framesSuit (saver : ConfigSaver) (t : MediaType) (frames : List Frame)
    {stR stF : PipeState} (hsame : stR.metadata = stF.metadata) :
    (∀ pre, pre <+: frames → AlikeFrom saver t stR stF pre)
      ↔ framesSuit saver t stF.metadata frames = true := by
  induction frames generalizing stR stF with
  | nil =>
      refine iff_of_true ?_ rfl
      intro pre hpre
      rw [List.prefix_nil.mp hpre]
      exact Alike.nil t
  | cons frame frames ih =>
      have hnil : AlikeFrom saver t stR stF [] := Alike.nil t
      rw [forall_prefix_cons hnil]
      cases frame with
      | metadata m =>
          have hR : RtmpPlay.writeFrame saver t stR (.metadata m)
              = .ok ({ stR with metadata := some m }, RtmpPlay.writeMetadata saver t m) := rfl
          have hF : HttpFlv.writeFrame saver stF (.metadata m)
              = .ok (HttpFlv.writeMeta saver { stF with metadata := some m } m) := rfl
          have hiff := writeMeta_alike_iff saver t { stF with metadata := some m } m
          unfold AlikeFrom at ih ⊢
          simp only [List.filter_cons, admits, if_true, emit, hR, hF, framesSuit,
            Bool.and_eq_true]
          by_cases hsuits : m.suits saver t = true
          · simp only [(hiff.mpr hsuits).append_iff, hsuits, true_and]
            exact ih rfl
          · refine iff_of_false (fun hall => hsuits ?_) fun h => hsuits h.1
            have hfirst := hall [] List.nil_prefix
            simp only [List.filter_nil, emit, List.append_nil] at hfirst
            exact hiff.mp hfirst
      | script s =>
          refine iff_of_false (fun hall => ?_) Bool.false_ne_true
          exact not_alikeFrom_script saver t stR stF s (hall [] List.nil_prefix)
      | media media =>
          cases hallows : t.allows media.mediaType with
          | false =>
              unfold AlikeFrom at ih ⊢
              simp only [List.filter_cons, admits, hallows, framesSuit]
              exact ih hsame
          | true =>
              cases hmeta : stF.metadata with
              | none =>
                  have hnone : ∀ m, stF.metadata = some m → m.enables media.mediaType = false := by
                    intro m hm
                    rw [hmeta] at hm
                    cases hm
                  refine iff_of_true ?_ (by simp [framesSuit, hallows])
                  exact fun pre _ => alikeFrom_media_error hallows hsame hnone pre
              | some m =>
                  cases henables : m.enables media.mediaType with
                  | false =>
                      have hnone : ∀ m, stF.metadata = some m →
                          m.enables media.mediaType = false := by
                        intro m' hm
                        rw [hmeta] at hm
                        cases hm
                        exact henables
                      refine iff_of_true ?_ (by simp [framesSuit, hallows, henables])
                      exact fun pre _ => alikeFrom_media_error hallows hsame hnone pre
                  | true =>
                      have hiff : ∀ pre, _ ↔ AlikeFrom saver t stR stF pre :=
                        alikeFrom_media_ok hallows (hsame.trans hmeta) hmeta henables
                      simp only [hiff, framesSuit, hallows, henables, Bool.not_true,
                        Bool.false_or, Bool.false_eq_true, if_false]
                      rw [← hmeta]
                      exact ih hsame

/-- At every moment the two kinds of player have written alike exactly if the frames suit
    the media type. -/
theorem players_alike_iff (saver : ConfigSaver) (t : MediaType) (frames : List Frame) :
    (∀ pre, pre <+: frames → Alike t (emitRtmp saver t pre) (emitHttpFlv saver t pre))
      ↔ framesSuit saver t none frames = true :=
  alikeFrom_iff_framesSuit saver t frames rfl

/-- An HTTP-FLV player of the audio announces and describes the video as well. -/
theorem httpFlv_describes_video :
    ¬ ∀ (saver : ConfigSaver) (t : MediaType) (frames : List Frame),
      Alike t (emitRtmp saver t frames) (emitHttpFlv saver t frames) := by
  intro hall
  have halike := hall ⟨some, some, some, some⟩ .onlyAudio
    [.metadata
      { video := { codecid := 7, v := [66, 0, 30], valid := true }
        audio := { codecid := 160, aac := [2, 4, 2], valid := true } }]
  have hheader := halike.httpFlv (.flvHeader true true) (by decide +kernel)
  cases hheader

/-! ### RTMP players keep to their media type -/

theorem RtmpPlay.writeFrame_within {saver : ConfigSaver} {t : MediaType} {st st' : PipeState}
    {frame : Frame} {buffers : List PlayBuffer} (hadmits : admits t frame = true)
    (h : RtmpPlay.writeFrame saver t st frame = .ok (st', buffers)) :
    ∀ c ∈ buffers, c.within t = true := by
  cases frame with
  | metadata m =>
      cases h
      exact writeMetadata_within saver t m
  | script s =>
      cases h
      intro c hc
      rw [List.mem_singleton.mp hc]
      rfl
  | media media =>
      obtain ⟨written, hwritten, h⟩ := bind_eq_ok h
      cases h
      unfold RtmpPlay.writeMedia at hwritten
      obtain ⟨_, _, hwritten⟩ := bind_eq_ok hwritten
      intro c hc
      split at hwritten
      · cases hwritten
        cases hc
      · obtain ⟨media', hmedia, hwritten⟩ := bind_eq_ok hwritten
        cases hmedia
        obtain ⟨body, _, hwritten⟩ := bind_eq_ok hwritten
        split at hwritten
        · cases hwritten
          cases hc
        · cases hwritten
          rw [List.mem_singleton.mp hc]
          exact tagType_within hadmits body media.dts

/-- Whatever an RTMP player receives, it writes about tracks of its media type only. -/
theorem emitRtmp_within (saver : ConfigSaver) (t : MediaType) (frames : List Frame) :
    ∀ c ∈ emitRtmp saver t frames, c.within t = true := by
  have hfrom : ∀ (frames : List Frame) (st : PipeState), (∀ f ∈ frames, admits t f = true) →
      ∀ c ∈ emit (RtmpPlay.writeFrame saver t) st frames, c.within t = true := by
    intro frames
    induction frames with
    | nil => exact fun _ _ _ hc => nomatch hc
    | cons frame frames ih =>
        intro st hadmits c hc
        unfold emit at hc
        split at hc
        · cases hc
        · rename_i st' buffers hwrite
          rcases List.mem_append.mp hc with hc | hc
          · exact RtmpPlay.writeFrame_within (hadmits frame List.mem_cons_self) hwrite c hc
          · exact ih st' (fun f hf => hadmits f (List.mem_cons_of_mem frame hf)) c hc
  exact hfrom _ {} fun f hf => (List.mem_filter.mp hf).2

end SeastarLive
