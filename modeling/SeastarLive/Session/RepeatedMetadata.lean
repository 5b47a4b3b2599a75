/-
SeastarLive.Session.RepeatedMetadata — a metadata that a session has already.

`add_frame(st, frame)` ignores a metadata that is equal to the one of the
session. The handlers of sequence headers and of `onMetaData` load into a copy
of that one, at another address (`onRecvPacketAt`), and `operator==` compares
the bytes of the unions.

`repeats_iff`: a metadata that is received again is recognised exactly if its
record has no pointer, nothing is behind it, and no rate is NaN. That is never so
after an AVC sequence header (`avc_not_selfContained`).
-/
import SeastarLive.Flv.ConfigRecordTheorems
import SeastarLive.Session.SequenceHeader

namespace SeastarLive

open Flv ByteMemory

/-! ## Metadata with an address -/

/-- The loads of the source, into a metadata whose union is at `addr`. -/
def loaderAt (parsers : ConfigParsers) (double : List UInt8 → Double) (addr : UInt64) : Loader :=
  metadataLoader parsers.asserts double (configRecords parsers addr)

/-- The metadata that loads and copies make, with the addresses of their unions. -/
inductive Loaded (parsers : ConfigParsers) (double : List UInt8 → Double) : UInt64 → Metadata → Prop
  | fresh (addr : UInt64) : Loaded parsers double addr {}
  | copy {src : UInt64} {m : Metadata} (dst : UInt64) (hne : dst ≠ src)
      (h : Loaded parsers double src m) : Loaded parsers double dst (m.copyTo src dst)
  /-- `onMetaData`. -/
  | metadata {addr : UInt64} {m x : Metadata} {data : List UInt8}
      (h : Loaded parsers double addr m)
      (hload : (loaderAt parsers double addr).metadata m data = .loaded x) :
      Loaded parsers double addr x
  /-- A video sequence header. -/
  | video {addr : UInt64} {m : Metadata} {cid : Nat} {data : List UInt8} {video : VideoMeta}
      (h : Loaded parsers double addr m)
      (hload : (loaderAt parsers double addr).video m.video cid data = .loaded video) :
      Loaded parsers double addr { m with video }
  /-- An audio sequence header. -/
  | audio {addr : UInt64} {m : Metadata} {cid : Nat} {data : List UInt8} {audio : AudioMeta}
      (h : Loaded parsers double addr m)
      (hload : (loaderAt parsers double addr).audio m.audio cid data = .loaded audio) :
      Loaded parsers double addr { m with audio }

/-- A load whose value is taken did not return a negative number. -/
theorem LoadResult.ofReturn_loaded {α : Type} {r : Option (Int × α)} {a : α}
    (h : LoadResult.ofReturn r = .loaded a) : ∃ rt, r = some (rt, a) ∧ 0 ≤ rt := by
  cases r with
  | none => cases h
  | some r =>
      obtain ⟨rt, b⟩ := r
      rw [LoadResult.ofReturn] at h
      split at h
      · cases h
      · cases h
        exact ⟨rt, rfl, by omega⟩

theorem LoadResult.ofReturn_some {α : Type} {rt : Int} (a : α) (h : 0 ≤ rt) :
    LoadResult.ofReturn (some (rt, a)) = .loaded a := by
  rw [LoadResult.ofReturn, if_neg (by omega)]

section

variable {parsers : ConfigParsers} {double : List UInt8 → Double} {addr addr' : UInt64}

/-- The bytes of every metadata have one spelling. -/
theorem Loaded.canonical {m : Metadata} (h : Loaded parsers double addr m) :
    m.video.Canonical := by
  induction h with
  | fresh addr => exact VideoMeta.canonical_empty rfl
  | copy dst hne h ih => exact VideoMeta.canonical_pack (VideoMeta.copyTo_v _ _ _)
  | metadata h hload ih =>
      obtain ⟨rt, hload, -⟩ := LoadResult.ofReturn_loaded hload
      unfold metadataLoad at hload
      split at hload
      · rename_i items _ _
        cases hload
        simp only [MetaItems.assign, MetaItems.assignVideo]
        split
        · exact ih
        · exact VideoMeta.canonical_empty rfl
      · split at hload
        · cases hload
        · cases hload
          exact ih
      · cases hload
  | @video addr m cid data video h hload ih =>
      obtain ⟨rt, hload, hrt⟩ := LoadResult.ofReturn_loaded hload
      obtain ⟨-, -, -, mem, rect, -, rfl⟩ := videoLoad_ok hload hrt
      exact VideoMeta.canonical_pack
        (VideoMeta.withUnion_v { m.video with codecid := cid } mem rect)
  | audio h hload ih => exact ih

/-! ## Loads that are done again -/

theorem loaderAt_metadata_again {m x : Metadata} {data : List UInt8}
    (h : (loaderAt parsers double addr).metadata m data = .loaded x) :
    (loaderAt parsers double addr').metadata x data = .loaded x := by
  obtain ⟨rt, h, hrt⟩ := LoadResult.ofReturn_loaded h
  have hagain := metadataLoad_again h
  simp only [loaderAt, metadataLoader, hagain, LoadResult.ofReturn_some x hrt]

theorem loaderAt_video_again {video x : VideoMeta} {cid : Nat} {data : List UInt8}
    (h : (loaderAt parsers double addr).video video cid data = .loaded x)
    (hself : x.SelfContained) :
    (loaderAt parsers double addr').video x cid data = .loaded x := by
  obtain ⟨rt, h, hrt⟩ := LoadResult.ofReturn_loaded h
  have hagain : videoLoad (configRecords parsers addr') x cid data = some (rt, x) :=
    videoLoad_again h hrt hself
  simp only [loaderAt, metadataLoader, hagain, LoadResult.ofReturn_some x hrt]

theorem loaderAt_audio_again {audio x : AudioMeta} {cid : Nat} {data : List UInt8}
    (h : (loaderAt parsers double addr).audio audio cid data = .loaded x) :
    (loaderAt parsers double addr').audio x cid data = .loaded x := by
  obtain ⟨rt, h, hrt⟩ := LoadResult.ofReturn_loaded h
  have hagain : audioLoad (configRecords parsers addr') x cid data = some (rt, x) :=
    audioLoad_again h hrt
  simp only [loaderAt, metadataLoader, hagain, LoadResult.ofReturn_some x hrt]

end

namespace PublishSession

section Handlers

variable {loader loader' : Loader} {metadata : Option Metadata} {pkt : Packet} {m : Metadata}

theorem onRecvScript_again (h : onRecvScript loader metadata pkt = .ok (.frame (.metadata m)))
    (hload : ∀ data, loader.metadata (metadata.getD {}) data = .loaded m →
      loader'.metadata m data = .loaded m) :
    onRecvScript loader' (some m) pkt = .ok (.frame (.metadata m)) := by
  unfold onRecvScript at h ⊢
  obtain ⟨_, hsize, h⟩ := bind_eq_ok h
  rw [hsize, ok_bind]
  split at h
  · cases h
  · cases h
  · rename_i b rest hcommand
    simp only [Option.getD_some]
    split at h
    · cases h
    · cases h
    · rename_i loaded hloaded
      cases h
      rw [hload _ hloaded]
  · split at h <;> cases h
  · cases h

theorem onRecvVideo_again (h : onRecvVideo loader metadata pkt = .ok (.frame (.metadata m)))
    (hload : ∀ cid data, loader.video (metadata.getD {}).video cid data = .loaded m.video →
      loader'.video m.video cid data = .loaded m.video) :
    onRecvVideo loader' (some m) pkt = .ok (.frame (.metadata m)) := by
  rw [onRecvVideo_eq] at h ⊢
  obtain ⟨header, n, hread, hpayload, hsequence, h⟩ := onRecvTag_metadata h
  obtain ⟨video, hvideo, rfl⟩ := onLoaded_metadata h
  rw [onRecvTag_payload hread hpayload hsequence, Option.getD_some, hload _ _ hvideo]
  rfl

theorem onRecvAudio_again (h : onRecvAudio loader metadata pkt = .ok (.frame (.metadata m)))
    (hload : ∀ cid data, loader.audio (metadata.getD {}).audio cid data = .loaded m.audio →
      loader'.audio m.audio cid data = .loaded m.audio) :
    onRecvAudio loader' (some m) pkt = .ok (.frame (.metadata m)) := by
  rw [onRecvAudio_eq] at h ⊢
  obtain ⟨header, n, hread, hpayload, hsequence, h⟩ := onRecvTag_metadata h
  obtain ⟨audio, haudio, rfl⟩ := onLoaded_metadata h
  rw [onRecvTag_payload hread hpayload hsequence, Option.getD_some, hload _ _ haudio]
  rfl

end Handlers

variable {parsers : ConfigParsers} {double : List UInt8 → Double}

/-- A packet that made a self-contained metadata makes it again of a session that has it. -/
theorem handlePacket_again {addr addr' : UInt64} {metadata : Option Metadata} {pkt : Packet}
    {m : Metadata} (hself : m.video.SelfContained)
    (h : handlePacket (loaderAt parsers double addr) metadata pkt = .ok (.frame (.metadata m))) :
    handlePacket (loaderAt parsers double addr') (some m) pkt = .ok (.frame (.metadata m)) := by
  unfold handlePacket at h ⊢
  cases htype : pkt.type with
  | script =>
      rw [htype] at h
      exact onRecvScript_again h fun data hload => loaderAt_metadata_again hload
  | video =>
      rw [htype] at h
      exact onRecvVideo_again h fun cid data hload => loaderAt_video_again hload hself
  | audio =>
      rw [htype] at h
      exact onRecvAudio_again h fun cid data hload => loaderAt_audio_again hload

/-! ## Sessions -/

/-- `on_recv_packet` of a session that has a metadata with its union at `src`, where the
    handlers copy it to `dst`. -/
def onRecvPacketAt (parsers : ConfigParsers) (double : List UInt8 → Double) (g : GlobalSettings)
    (src dst : UInt64) (s : PublishSession) (pkt : Packet) : Except Fault PublishSession :=
  if s.world.pub.impl.isComplete then .ok s
  else if !validatePacket g pkt then .ok (s.recvFails "invalid packet".toList)
  else do
    match ← handlePacket (loaderAt parsers double dst) (s.metadata.map (·.copyTo src dst)) pkt with
    | .ready => .ok s
    | .exception what => .ok (s.recvFails what)
    | .frame frame => s.addFrameTo frame

/-- A session whose metadata is copied as it is takes packets as `onRecvPacket` says. -/
theorem onRecvPacketAt_eq (g : GlobalSettings) {src dst : UInt64} {s : PublishSession}
    (hcopy : s.metadata.map (·.copyTo src dst) = s.metadata) (pkt : Packet) :
    s.onRecvPacketAt parsers double g src dst pkt
      = s.onRecvPacket g (loaderAt parsers double dst) pkt := by
  unfold onRecvPacketAt onRecvPacket
  generalize s.metadata.map (·.copyTo src dst) = metadata at hcopy
  subst hcopy
  rfl

/-- `add_frame(st, frame)` ignores the metadata that the session has, if no rate is NaN. -/
theorem addFrameTo_same {s : PublishSession} {m : Metadata} (h : s.metadata = some m)
    (hcomparable : m.Comparable) : s.addFrameTo (.metadata m) = .ok s := by
  have hequal := m.equal_self.mpr hcomparable
  simp [addFrameTo, h, hequal]

end PublishSession

open PublishSession

/-- What the sessions rely on for a metadata whose union is at `addr`: its copies are equal to
    it, and a session that has it ignores the packet it was made of. -/
structure Repeats (parsers : ConfigParsers) (double : List UInt8 → Double) (addr : UInt64)
    (m : Metadata) : Prop where
  copy_equal : ∀ dst, dst ≠ addr → (m.copyTo addr dst).equal m = true
  ignored : ∀ (metadata : Option Metadata) (pkt : Packet),
    handlePacket (loaderAt parsers double addr) metadata pkt = .ok (.frame (.metadata m)) →
    ∀ (g : GlobalSettings) (s : PublishSession) (dst : UInt64), dst ≠ addr →
      s.metadata = some m → validatePacket g pkt = true →
      s.onRecvPacketAt parsers double g addr dst pkt = .ok s

section

variable {parsers : ConfigParsers} {double : List UInt8 → Double} {addr : UInt64} {m : Metadata}

theorem Loaded.copyTo_eq (h : Loaded parsers double addr m) (hself : m.video.SelfContained)
    (dst : UInt64) : m.copyTo addr dst = m := by
  rw [Metadata.copyTo, hself.copyTo_eq h.canonical]

/-- A copy is equal to its original exactly if the original is self-contained and no rate of it
    is NaN. -/
theorem Loaded.copyTo_equal_iff (h : Loaded parsers double addr m) {dst : UInt64}
    (hne : dst ≠ addr) :
    (m.copyTo addr dst).equal m = true ↔ m.video.SelfContained ∧ m.Comparable := by
  rw [Metadata.equal, Bool.and_eq_true, Metadata.copyTo, VideoMeta.copyTo_equal_iff h.canonical hne,
    AudioMeta.equal_self, Metadata.Comparable, and_assoc]

/-- A session that has a self-contained metadata ignores the packet it was made of, if no rate is
    NaN. -/
theorem Loaded.ignored (h : Loaded parsers double addr m) (hself : m.video.SelfContained)
    (hcomparable : m.Comparable) {metadata : Option Metadata} {pkt : Packet}
    (hpkt : handlePacket (loaderAt parsers double addr) metadata pkt
      = .ok (.frame (.metadata m)))
    {g : GlobalSettings} {s : PublishSession} (dst : UInt64) (hmetadata : s.metadata = some m)
    (hvalid : validatePacket g pkt = true) :
    s.onRecvPacketAt parsers double g addr dst pkt = .ok s := by
  have hcopy : s.metadata.map (·.copyTo addr dst) = s.metadata := by
    rw [hmetadata, Option.map_some, h.copyTo_eq hself]
  rw [onRecvPacketAt_eq g hcopy, onRecvPacket]
  split
  · rfl
  · rw [hvalid, hmetadata, handlePacket_again hself hpkt]
    exact addFrameTo_same hmetadata hcomparable

/-- A value with an AVC sequence header never is. -/
theorem avc_not_selfContained {video x : VideoMeta} {cid : Nat} {data : List UInt8}
    (h : (loaderAt parsers double addr).video video cid data = .loaded x)
    (havc : isAvc cid = true) : ¬ x.SelfContained := by
  intro hself
  obtain ⟨rt, h, hrt⟩ := LoadResult.ofReturn_loaded h
  obtain ⟨-, -, -, mem, rect, hunion, rfl⟩ := videoLoad_ok h hrt
  have hslots : pointerSlots cid mem = [] :=
    hself.slots (VideoMeta.withUnion_v { video with codecid := cid } mem rect)
  exact unionLoad_avc parsers hunion havc hslots

/-- A metadata is recognised when it is received again exactly if its union is self-contained
    and no rate of it is NaN. -/
theorem repeats_iff (h : Loaded parsers double addr m) :
    Repeats parsers double addr m ↔ m.video.SelfContained ∧ m.Comparable := by
  constructor
  · intro hrepeats
    have hne : addr + 1 ≠ addr := by simp
    exact (h.copyTo_equal_iff hne).mp (hrepeats.copy_equal _ hne)
  · rintro ⟨hself, hcomparable⟩
    exact
      { copy_equal := fun dst hne => (h.copyTo_equal_iff hne).mpr ⟨hself, hcomparable⟩
        ignored := fun metadata pkt hpkt g s dst _ hmetadata hvalid =>
          h.ignored hself hcomparable hpkt dst hmetadata hvalid }

end

/-- Assertions are compiled in, and no sequence parameter set or configuration is valid. -/
def noParsers : ConfigParsers where
  asserts := true
  h264 _ := (-1, 0, 0)
  h265 _ := none
  aac _ := some (-1, ⟨[], 0, 0⟩)

/-- The union after an AV1 record of four bytes. -/
def av1Union : ByteMemory :=
  applyAll 0 [.bytes 0 [3, 0, 0, 0], .bytes 16 [0, 0], .bytes 18 []] (unpack [])

def av1Metadata : Metadata where
  video := { ({ codecid := 13 } : VideoMeta).withUnion av1Union (some (0, 0)) with valid := true }

theorem av1Metadata_loaded : Loaded noParsers (fun _ => 0) 0 av1Metadata := by
  have hunion : unionLoad noParsers 0 13 (unpack []) [0x81, 0, 0, 0]
      = .ok (av1Union, some (0, 0)) := rfl
  have hload : (loaderAt noParsers (fun _ => 0) 0).video {} 13 [0x81, 0, 0, 0]
      = .loaded av1Metadata.video := by
    simp only [loaderAt, metadataLoader]
    rw [videoLoad_of_union rfl rfl hunion]
    rfl
  exact .video (.fresh 0) hload

theorem av1Metadata_selfContained : av1Metadata.video.SelfContained := by
  constructor
  · rfl
  · intro i hcopied hi
    have hbehind : 2068 ≤ i := hcopied
    have hbyte : unpack av1Metadata.video.v i = av1Union i := (unpack_pack _ _ _).trans (if_pos hi)
    rw [hbyte, av1Union, applyAll]
    simp only [List.foldl_cons, List.foldl_nil, MemWrite.off, MemWrite.content]
    rw [write_of_not_mem _ (by simp), write_of_not_mem _ (by simp; omega),
      write_of_not_mem _ (by simp; omega), unpack_nil]

theorem repeats_av1 : Repeats noParsers (fun _ => 0) 0 av1Metadata :=
  (repeats_iff av1Metadata_loaded).mpr ⟨av1Metadata_selfContained, by decide⟩

/-- A HEVC sequence header with one video parameter set. -/
def hevcPacket : Packet where
  data := [0x1c, 0, 0, 0, 0] ++ 1 :: List.replicate 21 0 ++ [1, 32, 0, 1, 0, 2, 0x40, 1]

/-- The union it is loaded into, at 4096. -/
def hevcUnion : ByteMemory :=
  applyAll 4096 (hevcHeader (hevcPacket.data.drop 5)
    ++ (HevcNalu.writes ⟨32, 0, [0x40, 1]⟩ 0 ++ [.bytes 30 [1], .bytes 5160 (leBytes 8 2)]))
    (unpack [])

def hevcMetadata : Metadata where
  video := { ({ codecid := 12 } : VideoMeta).withUnion hevcUnion none with valid := true }

theorem hevcMetadata_loaded : (loaderAt noParsers (fun _ => 0) 4096).video {} 12
    (hevcPacket.data.drop 5) = .loaded hevcMetadata.video := by
  have hunion : unionLoad noParsers 4096 12 (unpack []) (hevcPacket.data.drop 5)
      = .ok (hevcUnion, none) := rfl
  simp only [loaderAt, metadataLoader]
  rw [videoLoad_of_union rfl rfl hunion]
  rfl

/-- A copy of what a session makes of this packet is not equal to it. -/
theorem not_repeats_hevc :
    handlePacket (loaderAt noParsers (fun _ => 0) 4096) none hevcPacket
        = .ok (.frame (.metadata hevcMetadata))
      ∧ Loaded noParsers (fun _ => 0) 4096 hevcMetadata
      ∧ (hevcMetadata.copyTo 4096 12288).equal hevcMetadata = false
      ∧ ¬ Repeats noParsers (fun _ => 0) 4096 hevcMetadata := by
  have hloaded : Loaded noParsers (fun _ => 0) 4096 hevcMetadata :=
    .video (.fresh 4096) hevcMetadata_loaded
  have hpointer : ¬ hevcMetadata.video.SelfContained := by
    intro hself
    have hslots : pointerSlots 12 hevcUnion = [] :=
      hself.slots (VideoMeta.withUnion_v { codecid := 12 } hevcUnion none)
    cases hslots
  have hcopy : ¬ (hevcMetadata.copyTo 4096 12288).equal hevcMetadata = true := fun hequal =>
    hpointer ((hloaded.copyTo_equal_iff (by decide)).mp hequal).1
  refine ⟨?_, hloaded, by simpa using hcopy, fun h => hcopy (h.copy_equal 12288 (by decide))⟩
  have hread : videoTagHeaderRead hevcPacket.data
      = .ok (some ({ codecid := 12, keyframe := 1 }, 5)) := by decide +kernel
  have hvideo : handlePacket (loaderAt noParsers (fun _ => 0) 4096) none hevcPacket
      = onRecvVideo (loaderAt noParsers (fun _ => 0) 4096) none hevcPacket := rfl
  rw [hvideo, onRecvVideo_eq, onRecvTag_payload hread (by decide) rfl]
  simp only [Option.getD_none, hevcMetadata_loaded]
  rfl

end SeastarLive
