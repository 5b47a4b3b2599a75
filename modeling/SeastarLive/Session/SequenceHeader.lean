/-
SeastarLive.Session.SequenceHeader — which packets change the metadata of a session.

`on_recv_video` and `on_recv_audio` ask for `avpacket == FLV_SEQUENCE_HEADER`.
The header of a codec without a packet type has one byte, and leaves
`avpacket` at zero, which is that value: such a packet is a sequence header
unless nothing is behind its header (`onRecv_oneByteHeader`).

`on_recv_script` asks for a negative return value of `metadata_t::load`. On
values that `amf_read_items` rejects the load fails an assertion, or returns
the positive `EINVAL`: they are never an error (`onRecvScript_malformed`).
-/
import SeastarLive.Flv.MetadataLoad
import SeastarLive.Session.PublishSessionTheorems

namespace SeastarLive

open Flv

/-! ## The loaders of the source -/

/-- The handlers test the sign of what a load returns. -/
def LoadResult.ofReturn {α : Type} : Option (Int × α) → LoadResult α
  | none => .aborts
  | some (rt, a) => if rt < 0 then .malformed rt else .loaded a

/-- The loads of `src/flv/metadata.cc`. -/
def metadataLoader (asserts : Bool) (double : List UInt8 → Double) (records : DecoderRecords) :
    Loader where
  metadata m data := .ofReturn (metadataLoad asserts double m data)
  video m cid data := .ofReturn (videoLoad records m cid data)
  audio m cid data := .ofReturn (audioLoad records m cid data)

namespace PublishSession

/-! ## Codecs without a packet type -/

/-- A handler that does not take a packet for a sequence header: no loader is called, as
    what the loaders do makes no difference, and neither is a metadata passed on nor does
    the session fail. -/
structure IgnoresSequenceHeader (recv : Loader → Except Fault Received) : Prop where
  no_load : ∀ loader loader', recv loader = recv loader'
  keeps_metadata : ∀ loader m, recv loader ≠ .ok (.frame (.metadata m))
  no_exception : ∀ loader what, recv loader ≠ .ok (.exception what)
  no_fault : ∀ loader e, recv loader ≠ .error e

/-- A packet there is nothing to do for is not a sequence header. -/
theorem IgnoresSequenceHeader.of_ready {recv : Loader → Except Fault Received}
    (h : ∀ loader, recv loader = .ok .ready) : IgnoresSequenceHeader recv where
  no_load loader loader' := (h loader).trans (h loader').symm
  keeps_metadata loader m hrecv := by
    rw [h loader] at hrecv
    cases hrecv
  no_exception loader what hrecv := by
    rw [h loader] at hrecv
    cases hrecv
  no_fault loader e hrecv := by
    rw [h loader] at hrecv
    cases hrecv

/-- A header of one byte leaves `avpacket` at zero. -/
theorem videoTagHeaderRead_one {data : List UInt8} {header : VideoTagHeader}
    (h : videoTagHeaderRead data = .ok (some (header, 1))) :
    ∃ b rest, data = b :: rest ∧ header.avpacket = flvSequenceHeader
      ∧ header.codecid = b.toNat % 16 ∧ hasAvcPacketType header.codecid = false := by
  cases data with
  | nil => cases h
  | cons b rest =>
      simp only [videoTagHeaderRead] at h
      split at h
      · -- a codec with a packet type reads five bytes
        split at h
        · obtain ⟨_, _, h⟩ := bind_eq_ok h
          cases h
        · cases h
      · rename_i hcodec
        cases h
        exact ⟨b, rest, rfl, rfl, rfl, by simpa using hcodec⟩

theorem audioTagHeaderRead_one {data : List UInt8} {header : AudioTagHeader}
    (h : audioTagHeaderRead data = .ok (some (header, 1))) :
    ∃ b rest, data = b :: rest ∧ header.avpacket = flvSequenceHeader
      ∧ header.codecid = b.toNat / 16 * 16 ∧ hasAacPacketType header.codecid = false := by
  cases data with
  | nil => cases h
  | cons b rest =>
      simp only [audioTagHeaderRead] at h
      split at h
      · split at h
        · cases h
        · obtain ⟨_, _, h⟩ := bind_eq_ok h
          cases h
      · rename_i hcodec
        cases h
        exact ⟨b, rest, rfl, rfl, rfl, by simpa using hcodec⟩

theorem drop_one_ne_nil {pkt : Packet} {b : UInt8} {rest : List UInt8}
    (hdata : pkt.data = b :: rest) (hsize : pkt.size ≠ 1) : pkt.data.drop 1 ≠ [] := by
  rw [hdata]
  intro hnil
  have hrest : rest = [] := hnil
  exact hsize (by rw [Packet.size, hdata, hrest]; rfl)

section Handlers

variable (loader : Loader) (metadata : Option Metadata) {pkt : Packet}

/-- With nothing behind the header there is nothing to do. -/
theorem onRecvVideo_empty {header : VideoTagHeader}
    (h : videoTagHeaderRead pkt.data = .ok (some (header, 1))) (hsize : pkt.size = 1) :
    onRecvVideo loader metadata pkt = .ok .ready := by
  have hempty : pkt.data.drop 1 = [] := List.drop_eq_nil_of_le (Nat.le_of_eq hsize)
  rw [onRecvVideo_eq, onRecvTag_empty h (by omega) hempty]

/-- With something behind it the loader decides. -/
theorem onRecvVideo_payload {header : VideoTagHeader}
    (h : videoTagHeaderRead pkt.data = .ok (some (header, 1))) (hsize : pkt.size ≠ 1) :
    onRecvVideo loader metadata pkt
      = onLoaded "failed to parse video header: "
          (fun video => { metadata.getD {} with video })
          (loader.video (metadata.getD {}).video header.codecid (pkt.data.drop 1)) := by
  obtain ⟨b, rest, hdata, havpacket, -, -⟩ := videoTagHeaderRead_one h
  rw [onRecvVideo_eq, onRecvTag_payload h (drop_one_ne_nil hdata hsize) havpacket]

theorem onRecvAudio_empty {header : AudioTagHeader}
    (h : audioTagHeaderRead pkt.data = .ok (some (header, 1))) (hsize : pkt.size = 1) :
    onRecvAudio loader metadata pkt = .ok .ready := by
  have hempty : pkt.data.drop 1 = [] := List.drop_eq_nil_of_le (Nat.le_of_eq hsize)
  rw [onRecvAudio_eq, onRecvTag_empty h (by omega) hempty]

theorem onRecvAudio_payload {header : AudioTagHeader}
    (h : audioTagHeaderRead pkt.data = .ok (some (header, 1))) (hsize : pkt.size ≠ 1) :
    onRecvAudio loader metadata pkt
      = onLoaded "failed to parse audio header: "
          (fun audio => { metadata.getD {} with audio })
          (loader.audio (metadata.getD {}).audio header.codecid (pkt.data.drop 1)) := by
  obtain ⟨b, rest, hdata, havpacket, -, -⟩ := audioTagHeaderRead_one h
  rw [onRecvAudio_eq, onRecvTag_payload h (drop_one_ne_nil hdata hsize) havpacket]

end Handlers

/-- A loader that stops the process. -/
def abortingLoader : Loader where
  metadata _ _ := .aborts
  video _ _ _ := .aborts
  audio _ _ _ := .aborts

/-- With the loads of the source such a packet fails the session: they know no codec whose
    header has one byte. -/
theorem onRecvVideo_oneByteHeader_fails (asserts : Bool) (double : List UInt8 → Double)
    (records : DecoderRecords) (metadata : Option Metadata) (pkt : Packet)
    {header : VideoTagHeader} (h : videoTagHeaderRead pkt.data = .ok (some (header, 1)))
    (hsize : pkt.size ≠ 1) :
    onRecvVideo (metadataLoader asserts double records) metadata pkt
      = .ok (.exception "failed to parse video header: -1".toList) := by
  obtain ⟨b, rest, hdata, -, hcodec, htype⟩ := videoTagHeaderRead_one h
  have hsmall : header.codecid < 16 := by omega
  have hrecord : hasVideoRecord header.codecid = false := by
    simp only [hasAvcPacketType, flvVideoH264, flvVideoH265, flvVideoAv1, Bool.or_eq_false_iff,
      beq_eq_false_iff_ne] at htype
    simp only [hasVideoRecord, flvVideoH264, flvVideoH265, flvVideoAv1, flvVideoAvcc,
      flvVideoHvcc, flvVideoAv1c, Bool.or_eq_false_iff, beq_eq_false_iff_ne]
    omega
  rw [onRecvVideo_payload _ metadata h hsize]
  simp only [metadataLoader, videoLoad_unknown records _ hrecord]
  rfl

theorem onRecvAudio_oneByteHeader_fails (asserts : Bool) (double : List UInt8 → Double)
    (records : DecoderRecords) (metadata : Option Metadata) (pkt : Packet)
    {header : AudioTagHeader} (h : audioTagHeaderRead pkt.data = .ok (some (header, 1)))
    (hsize : pkt.size ≠ 1) :
    onRecvAudio (metadataLoader asserts double records) metadata pkt
      = .ok (.exception "failed to parse audio header: -1".toList) := by
  obtain ⟨b, rest, hdata, -, hcodec, htype⟩ := audioTagHeaderRead_one h
  have hsmall : header.codecid < 256 := by
    have := b.toNat_lt
    omega
  have hrecord : hasAudioRecord header.codecid = false := by
    simp only [hasAacPacketType, flvAudioAac, flvAudioOpus, Bool.or_eq_false_iff,
      beq_eq_false_iff_ne] at htype
    simp only [hasAudioRecord, flvAudioAac, flvAudioAsc, Bool.or_eq_false_iff,
      beq_eq_false_iff_ne]
    omega
  rw [onRecvAudio_payload _ metadata h hsize]
  simp only [metadataLoader, audioLoad_unknown records _ hrecord]
  rfl

/-- A packet whose header has one byte is taken for a sequence header, unless it has nothing
    behind that byte. -/
theorem onRecv_oneByteHeader (metadata : Option Metadata) (pkt : Packet) :
    (∀ header, videoTagHeaderRead pkt.data = .ok (some (header, 1)) →
        (IgnoresSequenceHeader (fun loader => onRecvVideo loader metadata pkt)
          ↔ pkt.size = 1))
      ∧ ∀ header, audioTagHeaderRead pkt.data = .ok (some (header, 1)) →
        (IgnoresSequenceHeader (fun loader => onRecvAudio loader metadata pkt)
          ↔ pkt.size = 1) := by
  constructor
  · intro header hread
    constructor
    · intro hignores
      by_contra hsize
      -- a loader that aborts shows that it is called
      refine hignores.no_fault abortingLoader (.assertion .metadataLoad) ?_
      simp only [onRecvVideo_payload _ metadata hread hsize, abortingLoader, onLoaded]
    · intro hsize
      exact .of_ready fun loader => onRecvVideo_empty loader metadata hread hsize
  · intro header hread
    constructor
    · intro hignores
      by_contra hsize
      refine hignores.no_fault abortingLoader (.assertion .metadataLoad) ?_
      simp only [onRecvAudio_payload _ metadata hread hsize, abortingLoader, onLoaded]
    · intro hsize
      exact .of_ready fun loader => onRecvAudio_empty loader metadata hread hsize

/-- Records that know no codec. -/
def noRecords : DecoderRecords where
  video _ video _ := some (-1, video)
  audio _ audio _ := some (-1, audio)

/-- A key frame of H.263. -/
def h263Packet : Packet := { type := .video, data := [0x12, 0] }

/-- An MP3 frame. -/
def mp3Packet : Packet := { type := .audio, data := [0x2f, 0] }

theorem onRecv_oneByteHeader_h263 :
    IgnoresSequenceHeader (fun loader => onRecvVideo loader none { data := [0x12] })
      ∧ ¬ IgnoresSequenceHeader (fun loader => onRecvVideo loader none h263Packet)
      ∧ ¬ IgnoresSequenceHeader (fun loader => onRecvAudio loader none mp3Packet) := by
  refine ⟨?_, ?_, ?_⟩
  · exact ((onRecv_oneByteHeader none { data := [0x12] }).1 _ rfl).mpr rfl
  · rw [(onRecv_oneByteHeader none h263Packet).1 _ rfl]
    decide
  · rw [(onRecv_oneByteHeader none mp3Packet).2 _ rfl]
    decide

/-- Two bytes of H.263 fail a session, and so do two of MP3. -/
theorem onRecv_oneByteHeader_taken :
    ¬ IgnoresSequenceHeader (fun loader => onRecvVideo loader none h263Packet)
      ∧ onRecvVideo (metadataLoader true (fun _ => 0) noRecords) none h263Packet
        = .ok (.exception "failed to parse video header: -1".toList)
      ∧ ¬ IgnoresSequenceHeader (fun loader => onRecvAudio loader none mp3Packet)
      ∧ onRecvAudio (metadataLoader true (fun _ => 0) noRecords) none mp3Packet
        = .ok (.exception "failed to parse audio header: -1".toList) := by
  have hvideo := onRecvVideo_oneByteHeader_fails true (fun _ => 0) noRecords none
    h263Packet rfl (by decide)
  have haudio := onRecvAudio_oneByteHeader_fails true (fun _ => 0) noRecords none
    mp3Packet rfl (by decide)
  exact ⟨fun h => h.no_exception _ _ hvideo, hvideo, fun h => h.no_exception _ _ haudio, haudio⟩

/-! ## Malformed onMetaData -/

/-- `on_recv_script` answers a packet with an exception, no assertion fails, and neither the
    metadata of the session nor its cache nor its players change. -/
structure RejectsMetadata (loader : Loader) (s : PublishSession) (pkt : Packet) : Prop where
  exception : onRecvScript loader s.metadata pkt
    = .ok (.exception "failed to parse metadata".toList)
  unchanged : ∀ g t, s.onRecvPacket g loader pkt = .ok t → t.metadata = s.metadata
    ∧ t.world.pub.cache = s.world.pub.cache ∧ t.world.players = s.world.players

/-- `amf_read_items` rejects these values: it does not reach their end. -/
def AmfRejects (asserts : Bool) (double : List UInt8 → Double) (data : List UInt8) : Prop :=
  ∀ items rest, amfReadItems asserts (metadataProps double) {} data ≠ .done items rest

/-- On values that `amf_read_items` rejects, `metadata_t::load` aborts or returns a positive
    number. -/
theorem metadataLoad_rejected {asserts : Bool} {double : List UInt8 → Double} {data : List UInt8}
    (h : AmfRejects asserts double data) (metadata : Metadata) :
    metadataLoad asserts double metadata data
      = if asserts then none else some (einval, metadata) := by
  have hsettled := amfReadItems_settled asserts (metadataProps double) {} data
  unfold metadataLoad
  cases hread : amfReadItems asserts (metadataProps double) {} data with
  | done items rest => exact absurd hread (h items rest)
  | null => rfl
  | aborts =>
      rw [hread] at hsettled
      have hasserts : asserts = true := hsettled
      simp [hasserts]
  | outOfFuel =>
      rw [hread] at hsettled
      exact hsettled.elim

/-- The process stops, or a copy of the metadata goes on as if it was loaded. -/
theorem onRecvScript_rejected (asserts : Bool) (double : List UInt8 → Double)
    (records : DecoderRecords) (metadata : Option Metadata) (pkt : Packet) {b : UInt8}
    {rest : List UInt8} (hcommand : parseAmfCommand pkt.data = some (.metaData, b :: rest))
    (hrejects : AmfRejects asserts double (b :: rest)) :
    onRecvScript (metadataLoader asserts double records) metadata pkt
      = if asserts then .error (.assertion .metadataLoad)
        else .ok (.frame (.metadata (metadata.getD {}))) := by
  have hpositive : (pkt.size != 0) = true := by
    cases hdata : pkt.data with
    | nil =>
        rw [hdata] at hcommand
        cases hcommand
    | cons c data => simp [Packet.size, hdata]
  simp only [onRecvScript, hpositive, assert_true, hcommand, metadataLoader,
    metadataLoad_rejected hrejects, ok_bind]
  cases asserts <;> rfl

/-- Where assertions are not compiled in, a session without metadata has some behind it. -/
theorem onRecvPacket_rejected (g : GlobalSettings) (double : List UInt8 → Double)
    (records : DecoderRecords) (s : PublishSession) (pkt : Packet) {b : UInt8}
    {rest : List UInt8} (hcomplete : s.world.pub.impl.isComplete = false)
    (hvalid : validatePacket g pkt = true) (htype : pkt.type = .script)
    (hcommand : parseAmfCommand pkt.data = some (.metaData, b :: rest))
    (hrejects : AmfRejects false double (b :: rest)) (hnone : s.metadata = none) :
    s.onRecvPacket g (metadataLoader false double records) pkt
      = .ok { s with metadata := some {}, headerSent := false } := by
  have hhandler : onRecvScript (metadataLoader false double records) none pkt
      = .ok (.frame (.metadata {})) := onRecvScript_rejected false double records none
        pkt hcommand hrejects
  have hadd : s.addFrameTo (.metadata {})
      = .ok { s with metadata := some {}, headerSent := false } := by
    simp [addFrameTo, hnone, Metadata.isEnabled, AudioMeta.isEnabled, VideoMeta.isEnabled]
  simp only [onRecvPacket, hcomplete, hvalid, handlePacket, htype, hnone, hhandler, ok_bind,
    hadd, Bool.false_eq_true, if_false, Bool.not_true]

/-- An `onMetaData` that `amf_read_items` rejects is never an error: an assertion fails, or,
    where assertions are not compiled in, a metadata is passed on. -/
theorem onRecvScript_malformed (asserts : Bool) (double : List UInt8 → Double)
    (records : DecoderRecords) (s : PublishSession) (pkt : Packet) {b : UInt8}
    {rest : List UInt8} (hcommand : parseAmfCommand pkt.data = some (.metaData, b :: rest))
    (hrejects : AmfRejects asserts double (b :: rest)) :
    ¬ RejectsMetadata (metadataLoader asserts double records) s pkt
      ∧ onRecvScript (metadataLoader asserts double records) s.metadata pkt
        = if asserts then .error (.assertion .metadataLoad)
          else .ok (.frame (.metadata (s.metadata.getD {}))) := by
  have hresult := onRecvScript_rejected asserts double records s.metadata pkt hcommand hrejects
  refine ⟨?_, hresult⟩
  intro h
  have hexception := h.exception
  rw [hresult] at hexception
  cases asserts <;> cases hexception

/-- `onMetaData` with a string where an object is due. -/
def stringMetadata : Packet where
  type := .script
  data := [2, 0, 10] ++ ("onMetaData".toList.map fun c => UInt8.ofNat c.toNat) ++ [2]

/-- A session that took no packet yet. -/
def freshSession : PublishSession :=
  (publishing {} strictLoader fun _ => (.rtmp, .all)).init

theorem amfRejects_string (asserts : Bool) : AmfRejects asserts (fun _ => 0) [2] := by
  intro items rest hread
  cases hread

theorem onRecvScript_malformed_string :
    (¬ RejectsMetadata (metadataLoader true (fun _ => 0) noRecords) freshSession stringMetadata)
      ∧ ¬ RejectsMetadata (metadataLoader false (fun _ => 0) noRecords) freshSession
          stringMetadata :=
  ⟨(onRecvScript_malformed true _ noRecords freshSession stringMetadata (by decide)
      (amfRejects_string true)).1,
    (onRecvScript_malformed false _ noRecords freshSession stringMetadata (by decide)
      (amfRejects_string false)).1⟩

/-- One packet of fourteen bytes stops the process, or gives a session a metadata. -/
theorem onRecvScript_string_accepted :
    (¬ RejectsMetadata (metadataLoader true (fun _ => 0) noRecords) freshSession stringMetadata
      ∧ onRecvScript (metadataLoader true (fun _ => 0) noRecords) none stringMetadata
        = .error (.assertion .metadataLoad))
    ∧ ¬ RejectsMetadata (metadataLoader false (fun _ => 0) noRecords) freshSession
          stringMetadata
      ∧ freshSession.metadata = none
      ∧ freshSession.onRecvPacket {} (metadataLoader false (fun _ => 0) noRecords)
          stringMetadata = .ok { freshSession with metadata := some {}, headerSent := false } := by
  have haborts := onRecvScript_rejected true (fun _ => 0) noRecords none
    stringMetadata (by decide) (amfRejects_string true)
  have haccepts := onRecvPacket_rejected {} (fun _ => 0) noRecords freshSession stringMetadata
    rfl (by decide) rfl (by decide) (amfRejects_string false) rfl
  refine ⟨⟨?_, haborts⟩, ?_, rfl, haccepts⟩
  · intro h
    have hexception := h.exception.symm.trans haborts
    cases hexception
  · intro h
    have hmetadata := (h.unchanged {} _ haccepts).1
    cases hmetadata

end PublishSession

end SeastarLive
