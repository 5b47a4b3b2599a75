/-
SeastarLive.Hls.PlaySessionV3Theorems — how the calls of an HLS session end.

`DumpEnds`, `WriteEnds` and `FrameEnds` list all ends of `dump_fragment`, of
`write_ts_frame` and of a media frame as a whole, with the state that each
leaves behind. What is proved about all runs starts from these.
-/
import SeastarLive.Hls.PlaySessionV3

namespace SeastarLive

open Flv PlayItem

namespace HlsSession

variable {converter : TsConverter} {directory : List Char} {s t u : HlsSession} {frag : Fragment}
  {frame : Media} {o : WriteOutcome}

/-! ## Tracers -/

/-- A writer lists no fragments but those that another one lists, and `new`. -/
def Lists (new : List PlayItem) (old writer : Option M3u8Writer) : Prop :=
  ∀ w ∈ writer, ∀ item ∈ media w.playlist, (∃ v ∈ old, item ∈ media v.playlist) ∨ item ∈ new

theorem Lists.refl (new : List PlayItem) (writer : Option M3u8Writer) :
    Lists new writer writer := by
  intro w hw item hitem
  exact .inl ⟨w, hw, hitem⟩

theorem Lists.trans {new : List PlayItem} {old writer writer' : Option M3u8Writer}
    (h : Lists new old writer) (h' : Lists [] writer writer') : Lists new old writer' := by
  intro w hw item hitem
  obtain ⟨v, hv, hlisted⟩ := (h' w hw item hitem).resolve_right List.not_mem_nil
  exact h v hv item hlisted

/-- A fragment comes in at the end. -/
theorem lists_onAddPlayitem (item : PlayItem) (writer : Option M3u8Writer) :
    Lists [item] writer (writer.map fun w => w.onAddPlayitem item) := by
  intro x hx y hy
  obtain ⟨w, hw, rfl⟩ := Option.map_eq_some_iff.mp hx
  have hy : y ∈ media (w.playlist ++ [item]) := hy
  rw [media_append, List.mem_append] at hy
  rcases hy with hold | hnew
  · exact .inl ⟨w, hw, hold⟩
  · exact .inr (List.mem_filter.mp hnew).1

/-- A header comes in at the end. -/
theorem lists_onUpdateHeader (header : Nat) (writer : Option M3u8Writer) :
    Lists [] writer (writer.map fun w => w.onUpdateHeader (.header header)) := by
  intro x hx y hy
  obtain ⟨w, hw, rfl⟩ := Option.map_eq_some_iff.mp hx
  have hmem : y ∈ media (w.playlist ++ [.header header]) :=
    ((List.drop_sublist _ _).filter _).subset hy
  rw [media_append, List.mem_append] at hmem
  exact .inl ⟨w, hw, hmem.resolve_right (by simp [media, PlayItem.header])⟩

/-- Fragments and useless headers go. -/
theorem lists_removed (removed : List PlayItem) (writer : Option M3u8Writer) :
    Lists [] writer (writer.map fun w => removed.foldl M3u8Writer.onRemovePlayitem w) := by
  intro x hx y hy
  obtain ⟨w, hw, rfl⟩ := Option.map_eq_some_iff.mp hx
  refine .inl ⟨w, hw, ?_⟩
  clear hx hw
  induction removed generalizing w with
  | nil => exact hy
  | cons item rest ih =>
      have hsublist : List.Sublist (w.onRemovePlayitem item).playlist w.playlist :=
        (List.drop_sublist _ _).trans List.eraseP_sublist
      exact (hsublist.filter _).subset (ih _ hy)

theorem onRemovePlayitem_eq (s : HlsSession) (item : PlayItem) (written : Bool) :
    ∃ c, s.onRemovePlayitem item written =
        { s with writer := s.writer.map fun w => w.onRemovePlayitem item, cleaner := c }
      ∧ (written = true → c = s.cleaner.map fun c => c.onRemovePlayitem item) := by
  by_cases htold : ((s.writer.map fun w => w.onRemovePlayitem item).isNone || written) = true
  · exact ⟨_, if_pos htold, fun _ => rfl⟩
  · refine ⟨s.cleaner, if_neg htold, ?_⟩
    intro hwritten
    exact absurd (by simp [hwritten]) htold

/-- Removals change the tracers only. -/
theorem removePlayItems_eq (s : HlsSession) (removed : List PlayItem) (failedRemovals : List Nat) :
    ∃ c, s.removePlayItems removed failedRemovals =
        { s with
          writer := s.writer.map fun w => removed.foldl M3u8Writer.onRemovePlayitem w
          cleaner := c }
      ∧ (failedRemovals = [] →
          c = s.cleaner.map fun c => removed.foldl FileCleaner.onRemovePlayitem c) := by
  unfold removePlayItems
  induction removed generalizing s with
  | nil => exact ⟨s.cleaner, by simp, by simp⟩
  | cons item rest ih =>
      obtain ⟨c, hitem, hc⟩ := s.onRemovePlayitem_eq item (decide (item.address ∉ failedRemovals))
      obtain ⟨c', hrest, hc'⟩ := ih { s with
        writer := s.writer.map fun w => w.onRemovePlayitem item, cleaner := c }
      rw [List.foldl_cons, hitem, hrest]
      refine ⟨c', by simp [Function.comp_def], ?_⟩
      intro hnone
      rw [hc' hnone, hc (by simp [hnone])]
      simp [Function.comp_def]

/-- The items of a list that go if `n` are kept. -/
def removedItems (playlist : List PlayItem) (n : Nat) : List PlayItem :=
  playlist.take (playlist.length - n)

/-- An item is added: the oldest items may go, or the playlist file is not written. -/
theorem addPlayItem_cases (s : HlsSession) (item : PlayItem) (o : WriteOutcome) :
    (∃ n c, s.addPlayItem item o = .ok { s with
        playlist := (s.playlist ++ [item]).rtake n
        writer := (s.writer.map fun w => w.onAddPlayitem item).map fun w =>
          (removedItems (s.playlist ++ [item]) n).foldl M3u8Writer.onRemovePlayitem w
        cleaner := c }
      ∧ (o.failedRemovals = [] → c = (s.cleaner.map fun c => c.onAddPlayitem item).map fun c =>
          (removedItems (s.playlist ++ [item]) n).foldl FileCleaner.onRemovePlayitem c))
      ∨ o.playlistWritten = false ∧ s.addPlayItem item o = .error { s with
        playlist := s.playlist ++ [item]
        writer := s.writer.map fun w => w.onAddPlayitem item } := by
  unfold addPlayItem onAddPlayitem
  dsimp only
  split
  · obtain ⟨c, heq, hc⟩ := removePlayItems_eq { s with
      playlist := (s.playlist ++ [item]).rtake (keptItems (s.playlist ++ [item]) item o)
      writer := s.writer.map fun w => w.onAddPlayitem item
      cleaner := s.cleaner.map fun c => c.onAddPlayitem item }
      (removedItems (s.playlist ++ [item]) (keptItems (s.playlist ++ [item]) item o))
      o.failedRemovals
    exact .inl ⟨_, c, congrArg Except.ok heq, hc⟩
  · rename_i hnot
    rw [Bool.or_eq_true, not_or] at hnot
    exact .inr ⟨by simpa using hnot.2, rfl⟩

/-! ## Dumping -/

/-- The item of a fragment with data. -/
def infoOf (directory : List Char) (s : HlsSession) (frag : Fragment) (frame : Media) :
    PlayItem where
  address := s.made
  pts := frag.firstPts
  duration := frame.dts - frag.firstDts
  startByKeyframe := frag.startByKeyframe
  id := frag.id
  size := frag.size
  isHeader := false
  filepath := fragmentPath directory frag.id

/-- A session with a fragment file more. -/
def withFile (directory : List Char) (s : HlsSession) (frag : Fragment) (frame : Media) :
    HlsSession :=
  { s with
    made := s.made + 1
    dumped := s.dumped
      ++ [{ info := infoOf directory s frag frame, fragment := frag, closingDts := frame.dts }] }

/-- How `dump_fragment` ends in a session that is not complete. -/
inductive DumpEnds (directory : List Char) (s : HlsSession) (frag : Fragment) (frame : Media)
    (o : WriteOutcome) : Except HlsSession HlsSession → Prop
  /-- There is nothing to write. -/
  | empty : frag.size = 0 → DumpEnds directory s frag frame o (.ok s)
  | unwritten : frag.size ≠ 0 → o.fileWritten = false →
      DumpEnds directory s frag frame o (.error { s with made := s.made + 1 })
  /-- The file is written, and the playlist file is not. -/
  | unlisted : frag.size ≠ 0 → o.fileWritten = true → o.playlistWritten = false →
      DumpEnds directory s frag frame o (.error { withFile directory s frag frame with
        playlist := s.playlist ++ [infoOf directory s frag frame]
        writer := s.writer.map fun w => w.onAddPlayitem (infoOf directory s frag frame) })
  /-- Both are written, and the oldest items may go. -/
  | listed (n : Nat) (c : Option FileCleaner) : frag.size ≠ 0 → o.fileWritten = true →
      (o.failedRemovals = [] →
        c = (s.cleaner.map fun c => c.onAddPlayitem (infoOf directory s frag frame)).map fun c =>
          (removedItems (s.playlist ++ [infoOf directory s frag frame]) n).foldl
            FileCleaner.onRemovePlayitem c) →
      DumpEnds directory s frag frame o (.ok { withFile directory s frag frame with
        playlist := (s.playlist ++ [infoOf directory s frag frame]).rtake n
        writer := (s.writer.map fun w => w.onAddPlayitem (infoOf directory s frag frame)).map
          fun w => (removedItems (s.playlist ++ [infoOf directory s frag frame]) n).foldl
            M3u8Writer.onRemovePlayitem w
        cleaner := c })

theorem dumpFragment_ends (directory : List Char) (frag : Fragment) (frame : Media)
    (o : WriteOutcome) (hs : s.impl.isComplete = false) :
    DumpEnds directory s frag frame o (s.dumpFragment directory frag frame o) := by
  unfold dumpFragment makeFragmentInfo
  by_cases hsize : frag.size = 0
  · rw [if_pos hsize]
    exact .empty hsize
  · rw [if_neg hsize]
    show DumpEnds directory s frag frame o (addFragmentFile { s with made := s.made + 1 }
      (infoOf directory s frag frame) frag frame o)
    unfold addFragmentFile
    rw [if_neg (by simp [hs])]
    cases hfile : o.fileWritten with
    | false => exact .unwritten hsize hfile
    | true =>
        show DumpEnds directory s frag frame o (addPlayItem (withFile directory s frag frame)
          (infoOf directory s frag frame) o)
        rcases addPlayItem_cases (withFile directory s frag frame) (infoOf directory s frag frame) o
          with ⟨n, c, heq, hc⟩ | ⟨hplaylist, heq⟩
        · rw [heq]
          exact .listed n c hsize hfile hc
        · rw [heq]
          exact .unlisted hsize hfile hplaylist

/-! ## Writing -/

/-- A session that has called a converter. -/
def called (s : HlsSession) (frame : Media) : HlsSession :=
  { s with conversions := s.conversions ++ (s.conversion? frame).toList }

theorem onData_id (frag : Fragment) (packets : List (List UInt8)) :
    (onData frag packets).id = frag.id := by
  unfold onData
  induction packets generalizing frag with
  | nil => rfl
  | cons data packets ih =>
      rw [List.foldl_cons, ih]
      unfold Fragment.write
      split <;> rfl

/-- A fragment with the packets of a frame more. -/
def withFrame (frag : Fragment) (n : Nat) (o : WriteOutcome) : Fragment :=
  { onData frag o.packets with frames := (onData frag o.packets).frames ++ [n] }

/-- How `write_ts_frame` ends in a session that has a fragment. -/
inductive WriteEnds (converter : TsConverter) (s : HlsSession) (frag : Fragment) (frame : Media)
    (o : WriteOutcome) : Except HlsSession HlsSession → Prop
  | unconverted : s.makeTsFrame converter frame = none →
      WriteEnds converter s frag frame o (.error (s.called frame))
  | unmuxed (mpegFrame : MpegFrame) : s.makeTsFrame converter frame = some mpegFrame → o.ret ≠ 0 →
      WriteEnds converter s frag frame o
        (.error { s.called frame with fragment := some (onData frag o.packets) })
  | accepted (mpegFrame : MpegFrame) : s.makeTsFrame converter frame = some mpegFrame → o.ret = 0 →
      WriteEnds converter s frag frame o (.ok { s.called frame with
        fragment := some (withFrame frag s.accepted.length o)
        accepted := s.accepted ++ [{ frame, mpegFrame, packets := o.packets }] })

theorem writeTsFrame_ends (converter : TsConverter) (frame : Media) (o : WriteOutcome)
    (hfrag : s.fragment = some frag) :
    WriteEnds converter s frag frame o (s.writeTsFrame converter frame o) := by
  have hensure : s.ensureFragment frame = s := by
    simp [ensureFragment, hfrag]
  have hmux : (s.called frame).mpegTsWrite o =
      { s.called frame with fragment := some (onData frag o.packets) } := by
    simp [mpegTsWrite, called, hfrag]
  cases hframe : s.makeTsFrame converter frame with
  | none =>
      have heq : s.writeTsFrame converter frame o = .error (s.called frame) := by
        simp only [writeTsFrame, hensure, hframe]
        rfl
      rw [heq]
      exact .unconverted hframe
  | some mpegFrame =>
      have heq : s.writeTsFrame converter frame o =
          if o.ret ≠ 0 then .error ((s.called frame).mpegTsWrite o)
          else .ok (((s.called frame).mpegTsWrite o).accept frame mpegFrame o) := by
        simp only [writeTsFrame, hensure, hframe]
        rfl
      rw [heq, hmux]
      by_cases hret : o.ret = 0
      · rw [if_neg (not_not.mpr hret)]
        exact .accepted mpegFrame hframe hret
      · rw [if_pos hret]
        exact .unmuxed mpegFrame hframe hret

/-! ## Frames -/

/-- A fragment that was just made. -/
def freshFragment (id : Int) (frame : Media) : Fragment where
  id := id
  firstDts := frame.dts
  firstPts := (frame.dts + frame.cts).bmod 18446744073709551616
  startByKeyframe := frame.isKeyframe

theorem ensureFragment_cases (s : HlsSession) (frame : Media) :
    (∃ frag, s.fragment = some frag ∧ s.ensureFragment frame = s)
      ∨ s.fragment = none ∧ s.ensureFragment frame = s.makeFragment frame := by
  unfold ensureFragment
  cases hfrag : s.fragment with
  | none => exact .inr ⟨rfl, rfl⟩
  | some frag => exact .inl ⟨frag, rfl, rfl⟩

theorem ensureFragment_fragment (s : HlsSession) (frame : Media) :
    ∃ frag, (s.ensureFragment frame).fragment = some frag := by
  rcases s.ensureFragment_cases frame with ⟨frag, hfrag, heq⟩ | ⟨-, heq⟩
  · exact ⟨frag, by rw [heq, hfrag]⟩
  · refine ⟨freshFragment (s.nextFragmentId + 1) frame, ?_⟩
    rw [heq]
    rfl

theorem ensureFragment_impl (s : HlsSession) (frame : Media) :
    (s.ensureFragment frame).impl = s.impl := by
  rcases s.ensureFragment_cases frame with ⟨-, -, heq⟩ | ⟨-, heq⟩
  · rw [heq]
  · rw [heq]
    rfl

/-- How a media frame ends in a session that is not complete: it is written to the open
    fragment, the fragment cannot be dumped, or the frame is written to a new one. -/
inductive FrameEnds (converter : TsConverter) (directory : List Char) (s : HlsSession)
    (frame : Media) (o : WriteOutcome) : Except HlsSession HlsSession → Prop
  | continued (frag : Fragment) (r : Except HlsSession HlsSession) :
      (s.ensureFragment frame).fragment = some frag →
      isFragmentHeaderFrame frag frame o.fragmentDuration = false →
      WriteEnds converter (s.ensureFragment frame) frag frame o r →
      FrameEnds converter directory s frame o r
  | undumped (frag : Fragment) (t : HlsSession) :
      (s.ensureFragment frame).fragment = some frag →
      isFragmentHeaderFrame frag frame o.fragmentDuration = true →
      DumpEnds directory (s.ensureFragment frame) frag frame o (.error t) →
      FrameEnds converter directory s frame o (.error t)
  | cut (frag : Fragment) (u : HlsSession) (r : Except HlsSession HlsSession) :
      (s.ensureFragment frame).fragment = some frag →
      isFragmentHeaderFrame frag frame o.fragmentDuration = true →
      DumpEnds directory (s.ensureFragment frame) frag frame o (.ok u) →
      WriteEnds converter (u.makeFragment frame) (freshFragment (u.nextFragmentId + 1) frame)
        frame o r →
      FrameEnds converter directory s frame o r

theorem handleFrame_ends (converter : TsConverter) (directory : List Char) (frame : Media)
    (o : WriteOutcome) (hs : s.impl.isComplete = false) :
    FrameEnds converter directory s frame o (s.handleFrame converter directory frame o) := by
  obtain ⟨frag, hfrag⟩ := s.ensureFragment_fragment frame
  have himpl : (s.ensureFragment frame).impl.isComplete = false := by
    rw [s.ensureFragment_impl frame, hs]
  unfold handleFrame
  simp only [hfrag]
  cases hheader : isFragmentHeaderFrame frag frame o.fragmentDuration with
  | false =>
      simp only [Bool.false_eq_true, if_false]
      exact .continued frag _ hfrag hheader (writeTsFrame_ends converter frame o hfrag)
  | true =>
      simp only [if_true]
      have hdump := dumpFragment_ends directory frag frame o himpl
      cases hresult : (s.ensureFragment frame).dumpFragment directory frag frame o with
      | error t =>
          rw [hresult] at hdump
          exact .undumped frag t hfrag hheader hdump
      | ok u =>
          rw [hresult] at hdump
          refine .cut frag u _ hfrag hheader hdump ?_
          exact writeTsFrame_ends (s := u.makeFragment frame) converter frame o rfl

/-- A media frame that a complete session is handed is dropped. -/
theorem doWriteFrame_complete (converter : TsConverter) (directory : List Char) (frame : Frame)
    (o : WriteOutcome) (hs : s.impl.isComplete = true) :
    s.doWriteFrame converter directory frame o = .ok s := by
  simp [doWriteFrame, hs]

theorem doWriteFrame_media (converter : TsConverter) (directory : List Char) (frame : Media)
    (o : WriteOutcome) (hs : s.impl.isComplete = false) :
    s.doWriteFrame converter directory (.media frame) o =
      s.handleFrame converter directory frame o := by
  simp [doWriteFrame, hs]

/-! ## Tracks -/

/-- The streams and the records of metadata are the same. -/
structure SameTracks (s t : HlsSession) : Prop where
  video : t.videoStream = s.videoStream
  audio : t.audioStream = s.audioStream
  latestVideo : t.latestVideo = s.latestVideo
  latestAudio : t.latestAudio = s.latestAudio

theorem SameTracks.trans (hst : SameTracks s t) (htu : SameTracks t u) : SameTracks s u where
  video := htu.video.trans hst.video
  audio := htu.audio.trans hst.audio
  latestVideo := htu.latestVideo.trans hst.latestVideo
  latestAudio := htu.latestAudio.trans hst.latestAudio

/-- What a frame is converted with and what becomes of it depend on the tracks only. -/
theorem SameTracks.conversion (h : SameTracks s t) (frame : Media) :
    t.conversion? frame = s.conversion? frame := by
  simp [conversion?, configOf, h.video, h.audio, h.latestVideo, h.latestAudio]

theorem SameTracks.makeTsFrame (h : SameTracks s t) (converter : TsConverter) (frame : Media) :
    t.makeTsFrame converter frame = s.makeTsFrame converter frame := by
  simp [HlsSession.makeTsFrame, configOf, h.video, h.audio]

theorem sameTracks_ensureFragment (s : HlsSession) (frame : Media) :
    SameTracks s (s.ensureFragment frame)
      ∧ (s.ensureFragment frame).conversions = s.conversions := by
  rcases s.ensureFragment_cases frame with ⟨-, -, heq⟩ | ⟨-, heq⟩
  · rw [heq]
    exact ⟨⟨rfl, rfl, rfl, rfl⟩, rfl⟩
  · rw [heq]
    exact ⟨⟨rfl, rfl, rfl, rfl⟩, rfl⟩

/-- A dump converts nothing. -/
theorem sameTracks_dump {frag : Fragment} {r : Except HlsSession HlsSession}
    (h : DumpEnds directory s frag frame o r) :
    SameTracks s (settled r) ∧ (settled r).conversions = s.conversions := by
  cases h with
  | empty _ => exact ⟨⟨rfl, rfl, rfl, rfl⟩, rfl⟩
  | unwritten _ _ => exact ⟨⟨rfl, rfl, rfl, rfl⟩, rfl⟩
  | unlisted _ _ _ => exact ⟨⟨rfl, rfl, rfl, rfl⟩, rfl⟩
  | listed _ _ _ _ _ => exact ⟨⟨rfl, rfl, rfl, rfl⟩, rfl⟩

/-- A write converts once, with what the tracks have. -/
theorem sameTracks_write {frag : Fragment} {r : Except HlsSession HlsSession}
    (h : WriteEnds converter s frag frame o r) :
    SameTracks s (settled r)
      ∧ (settled r).conversions = s.conversions ++ (s.conversion? frame).toList := by
  cases h with
  | unconverted _ => exact ⟨⟨rfl, rfl, rfl, rfl⟩, rfl⟩
  | unmuxed _ _ _ => exact ⟨⟨rfl, rfl, rfl, rfl⟩, rfl⟩
  | accepted _ _ _ => exact ⟨⟨rfl, rfl, rfl, rfl⟩, rfl⟩

/-! ## Metadata -/

/-- A stream stays, or is made from a configuration with a profile. -/
def StreamMade (codecs : List Int) (streamId codecid : Int) (config : List UInt8)
    (old new : Option TsStreamInfo) : Prop :=
  new = old ∨ old = none ∧ 0 < profile config ∧ codecid ∈ codecs ∧ 0 ≤ streamId
    ∧ new = some ⟨streamId, codecid, config⟩

def videoCodecs : List Int := [flvVideoH264, flvVideoAvcc, flvVideoH265, flvVideoHvcc]

def audioCodecs : List Int := [flvAudioAac, flvAudioAsc]

theorem makeVideoTrack_cases (s : HlsSession) (m : VideoMeta) (o : WriteOutcome) :
    ∃ v, StreamMade videoCodecs o.videoStreamId m.codecid m.v s.videoStream v
      ∧ (s.makeVideoTrack m o = .ok { s with videoStream := v }
        ∨ s.makeVideoTrack m o = .error { s with videoStream := v }) := by
  unfold makeVideoTrack addVideoStream
  split
  · rename_i hmade
    split
    · exact ⟨s.videoStream, .inl rfl, .inr rfl⟩
    · rename_i hstreamId
      split
      · rename_i hcodec
        have hnone : s.videoStream = none := by simpa using hmade.2
        have hmem : m.codecid ∈ videoCodecs := by simpa [videoCodecs] using hcodec
        exact ⟨_, .inr ⟨hnone, hmade.1, hmem, Int.not_lt.mp hstreamId, rfl⟩, .inl rfl⟩
      · exact ⟨s.videoStream, .inl rfl, .inr rfl⟩
  · exact ⟨s.videoStream, .inl rfl, .inl rfl⟩

theorem makeAudioTrack_cases (s : HlsSession) (m : AudioMeta) (o : WriteOutcome) :
    ∃ a, StreamMade audioCodecs o.audioStreamId m.codecid m.aac s.audioStream a
      ∧ (s.makeAudioTrack m o = .ok { s with audioStream := a }
        ∨ s.makeAudioTrack m o = .error { s with audioStream := a }) := by
  unfold makeAudioTrack addAudioStream
  split
  · rename_i hmade
    split
    · exact ⟨s.audioStream, .inl rfl, .inr rfl⟩
    · rename_i hstreamId
      split
      · rename_i hcodec
        have hnone : s.audioStream = none := by simpa using hmade.2
        have hmem : m.codecid ∈ audioCodecs := by simpa [audioCodecs] using hcodec
        exact ⟨_, .inr ⟨hnone, hmade.1, hmem, Int.not_lt.mp hstreamId, rfl⟩, .inl rfl⟩
      · exact ⟨s.audioStream, .inl rfl, .inr rfl⟩
  · exact ⟨s.audioStream, .inl rfl, .inl rfl⟩

/-- Metadata may make streams, and changes nothing besides but the tracers and the records of
    metadata. -/
theorem handleMeta_eq (s : HlsSession) (m : Metadata) (o : WriteOutcome) :
    ∃ v a w c n, settled (s.handleMeta m o) = { s.noteMeta m with
        programEnabled := true, videoStream := v, audioStream := a, writer := w, cleaner := c
        made := n }
      ∧ StreamMade videoCodecs o.videoStreamId m.video.codecid m.video.v s.videoStream v
      ∧ StreamMade audioCodecs o.audioStreamId m.audio.codecid m.audio.aac s.audioStream a
      ∧ (w = s.writer ∧ c = s.cleaner ∧ n = s.made
        ∨ w = (s.writer.map fun w => w.onUpdateHeader (.header s.made))
          ∧ c = (s.cleaner.map fun c => c.onUpdateHeader (.header s.made)) ∧ n = s.made + 1) := by
  obtain ⟨v, hv, hvideo⟩ :=
    makeVideoTrack_cases { s.noteMeta m with programEnabled := true } m.video o
  unfold handleMeta
  rcases hvideo with hvideo | hvideo
  · obtain ⟨a, ha, haudio⟩ := makeAudioTrack_cases
      { s.noteMeta m with programEnabled := true, videoStream := v } m.audio o
    rcases haudio with haudio | haudio
    · simp only [hvideo, haudio, bind, Except.bind]
      exact ⟨v, a, _, _, _, rfl, hv, ha, .inr ⟨rfl, rfl, rfl⟩⟩
    · simp only [hvideo, haudio, bind, Except.bind]
      exact ⟨v, a, _, _, _, rfl, hv, ha, .inl ⟨rfl, rfl, rfl⟩⟩
  · simp only [hvideo, bind, Except.bind]
    exact ⟨v, _, _, _, _, rfl, hv, .inl rfl, .inl ⟨rfl, rfl, rfl⟩⟩

/-! ## Steps -/

/-- The fragments are the same, and no other ones are listed. -/
structure SameFragments (s t : HlsSession) : Prop where
  fragment : t.fragment = s.fragment
  nextFragmentId : t.nextFragmentId = s.nextFragmentId
  playlist : t.playlist = s.playlist
  accepted : t.accepted = s.accepted
  dumped : t.dumped = s.dumped
  writer : Lists [] s.writer t.writer

theorem SameFragments.refl (s : HlsSession) : SameFragments s s :=
  ⟨rfl, rfl, rfl, rfl, rfl, .refl [] s.writer⟩

/-- How a step ends. -/
inductive StepEnds (converter : TsConverter) (directory : List Char) (s : HlsSession) :
    HlsCall → HlsSession → Prop
  | media (frame : Media) (o : WriteOutcome) (r : Except HlsSession HlsSession) :
      s.impl.isComplete = false → FrameEnds converter directory s frame o r →
      StepEnds converter directory s (.write (.media frame) o) (settled r)
  | metadata (m : Metadata) (o : WriteOutcome) : s.impl.isComplete = false →
      StepEnds converter directory s (.write (.metadata m) o) (settled (s.handleMeta m o))
  /-- The session is complete, or the frame is a script. -/
  | dropped (frame : Frame) (o : WriteOutcome) :
      StepEnds converter directory s (.write frame o) s
  | settings (deleteDelay : Bool) :
      StepEnds converter directory s (.settings deleteDelay) (s.createTracers deleteDelay)
  | complete (how : Completion) :
      StepEnds converter directory s (.complete how) { s with impl := s.impl.complete how }
  | timeout : StepEnds converter directory s .timeout { s with impl := s.impl.onTimeout }
  | close : StepEnds converter directory s .close
      { s with closed := true, writer := s.writer.map M3u8Writer.closed }

theorem step_ends {a : HlsCall} (ht : step converter directory s a = .ok t) :
    StepEnds converter directory s a t := by
  cases a with
  | write frame o =>
      cases ht
      cases hcomplete : s.impl.isComplete with
      | true =>
          rw [doWriteFrame_complete converter directory frame o hcomplete]
          exact .dropped frame o
      | false =>
          cases frame with
          | media m =>
              rw [doWriteFrame_media converter directory m o hcomplete]
              exact .media m o _ hcomplete (handleFrame_ends converter directory m o hcomplete)
          | metadata m =>
              simp only [doWriteFrame, hcomplete, Bool.false_eq_true, if_false]
              exact .metadata m o hcomplete
          | script x =>
              simp only [doWriteFrame, hcomplete, Bool.false_eq_true, if_false]
              exact .dropped (.script x) o
  | settings deleteDelay =>
      cases ht
      exact .settings deleteDelay
  | complete how =>
      cases ht
      exact .complete how
  | timeout =>
      cases ht
      exact .timeout
  | close =>
      cases ht
      exact .close

/-- A step is that of a media frame, or leaves the fragments as they are. -/
theorem step_cases {a : HlsCall} (ht : step converter directory s a = .ok t) :
    (∃ frame o r, a = .write (.media frame) o ∧ s.impl.isComplete = false
        ∧ FrameEnds converter directory s frame o r ∧ t = settled r)
      ∨ SameFragments s t := by
  cases step_ends ht with
  | media frame o r hcomplete hends => exact .inl ⟨frame, o, r, rfl, hcomplete, hends, rfl⟩
  | metadata m o _ =>
      obtain ⟨v, a, w, c, n, heq, -, -, htracers⟩ := s.handleMeta_eq m o
      rw [heq]
      refine .inr ⟨rfl, rfl, rfl, rfl, rfl, ?_⟩
      rcases htracers with ⟨rfl, -⟩ | ⟨rfl, -⟩
      · exact .refl [] s.writer
      · exact lists_onUpdateHeader s.made s.writer
  | dropped frame o => exact .inr (.refl s)
  | settings deleteDelay =>
      refine .inr ⟨rfl, rfl, rfl, rfl, rfl, ?_⟩
      intro w hw item hitem
      have hw : w ∈ if deleteDelay then some {} else none := hw
      split at hw
      · obtain rfl := Option.mem_some.mp hw
        cases hitem
      · cases hw
  | complete how => exact .inr ⟨rfl, rfl, rfl, rfl, rfl, .refl [] s.writer⟩
  | timeout => exact .inr ⟨rfl, rfl, rfl, rfl, rfl, .refl [] s.writer⟩
  | close =>
      refine .inr ⟨rfl, rfl, rfl, rfl, rfl, ?_⟩
      intro x hx item hitem
      obtain ⟨w, hw, rfl⟩ := Option.map_eq_some_iff.mp hx
      rw [M3u8Writer.closed_playlist] at hitem
      exact .inl ⟨w, hw, hitem⟩

/-! ## Steps that succeed -/

/-- The condition on a step: a media frame that is not dropped is converted, muxed and, where it
    cuts, written. -/
def Succeeds (converter : TsConverter) (s : HlsSession) : HlsCall → Prop
  | .write (.media frame) o => s.impl.isComplete = false →
      (s.makeTsFrame converter frame).isSome = true ∧ o.ret = 0 ∧ o.fileWritten = true
        ∧ o.playlistWritten = true
  | _ => True

instance (converter : TsConverter) (s : HlsSession) : DecidablePred (s.Succeeds converter)
  | .write (.media frame) o => inferInstanceAs (Decidable (s.impl.isComplete = false →
      (s.makeTsFrame converter frame).isSome = true ∧ o.ret = 0 ∧ o.fileWritten = true
        ∧ o.playlistWritten = true))
  | .write (.metadata _) _ => .isTrue trivial
  | .write (.script _) _ => .isTrue trivial
  | .settings _ => .isTrue trivial
  | .complete _ => .isTrue trivial
  | .timeout => .isTrue trivial
  | .close => .isTrue trivial

/-- How a media frame that succeeds changes the fragments: it goes into the open one, or into a
    new one behind the open one, which is dumped if it has data. -/
inductive FrameGoes (directory : List Char) (s : HlsSession) (frame : Media) (o : WriteOutcome)
    (t : HlsSession) : Prop
  | continued (frag : Fragment) : s.fragment = some frag →
      isFragmentHeaderFrame frag frame o.fragmentDuration = false →
      t.fragment = some (withFrame frag s.accepted.length o) → t.dumped = s.dumped →
      t.writer = s.writer → FrameGoes directory s frame o t
  | started (id : Int) (new : List DumpedFragment) :
      (∀ frag ∈ s.fragment, isFragmentHeaderFrame frag frame o.fragmentDuration = true) →
      t.fragment = some (withFrame (freshFragment id frame) s.accepted.length o) →
      new = ((s.fragment.filter fun frag => frag.size ≠ 0).map fun frag =>
        { info := infoOf directory s frag frame, fragment := frag,
          closingDts := frame.dts }).toList →
      t.dumped = s.dumped ++ new → Lists (new.map fun d => d.info) s.writer t.writer →
      FrameGoes directory s frame o t

theorem filter_of_data (h : frag.size ≠ 0) :
    (some frag).filter (fun x => decide (x.size ≠ 0)) = some frag := by
  simp [h]

theorem filter_of_empty (h : frag.size = 0) :
    (some frag).filter (fun x => decide (x.size ≠ 0)) = none := by
  simp [h]

/-- A write that succeeds adds the frame. -/
theorem WriteEnds.succeeds {r : Except HlsSession HlsSession}
    (h : WriteEnds converter s frag frame o r)
    (hframe : (s.makeTsFrame converter frame).isSome = true) (hret : o.ret = 0) :
    ∃ mpegFrame, r = .ok { s.called frame with
      fragment := some (withFrame frag s.accepted.length o)
      accepted := s.accepted ++ [{ frame, mpegFrame, packets := o.packets }] } := by
  cases h with
  | unconverted hnone =>
      rw [hnone] at hframe
      cases hframe
  | unmuxed _ _ hne => exact absurd hret hne
  | accepted mpegFrame _ _ => exact ⟨mpegFrame, rfl⟩

theorem frame_goes {r : Except HlsSession HlsSession}
    (hr : FrameEnds converter directory s frame o r)
    (hcomplete : s.impl.isComplete = false)
    (hsucceeds : s.Succeeds converter (.write (.media frame) o)) :
    FrameGoes directory s frame o (settled r)
      ∧ ∃ mpegFrame, (settled r).accepted =
          s.accepted ++ [{ frame, mpegFrame, packets := o.packets }] := by
  obtain ⟨hframe, hret, hfile, hplaylist⟩ := hsucceeds hcomplete
  have htracks := (s.sameTracks_ensureFragment frame).1
  have hframe' := hframe
  rw [← htracks.makeTsFrame converter frame] at hframe'
  cases hr with
  | continued frag r hfrag hheader hwrite =>
      obtain ⟨mpegFrame, rfl⟩ := hwrite.succeeds hframe' hret
      rcases s.ensureFragment_cases frame with ⟨old, hold, heq⟩ | ⟨hnone, heq⟩
      · rw [heq] at hfrag ⊢
        exact ⟨.continued frag hfrag hheader rfl rfl rfl, mpegFrame, rfl⟩
      · rw [heq] at hfrag ⊢
        obtain rfl := Option.some.inj hfrag
        refine ⟨.started (s.nextFragmentId + 1) [] ?_ rfl ?_ (List.append_nil _).symm (.refl _ _),
          mpegFrame, rfl⟩
        · rw [hnone]
          exact nofun
        · rw [hnone]
          rfl
  | undumped frag t _ _ hdump =>
      cases hdump with
      | unwritten _ hnot =>
          rw [hnot] at hfile
          cases hfile
      | unlisted _ _ hnot =>
          rw [hnot] at hplaylist
          cases hplaylist
  | cut frag u r hfrag hheader hdump hwrite =>
      have hdumped := (sameTracks_dump hdump).1
      have hframe'' : ((u.makeFragment frame).makeTsFrame converter frame).isSome = true := by
        rw [← hdumped.makeTsFrame converter frame] at hframe'
        exact hframe'
      obtain ⟨mpegFrame, rfl⟩ := hwrite.succeeds hframe'' hret
      rcases s.ensureFragment_cases frame with ⟨old, hold, heq⟩ | ⟨hnone, heq⟩
      · rw [heq] at hfrag hdump
        have hcut : ∀ x ∈ s.fragment, isFragmentHeaderFrame x frame o.fragmentDuration = true := by
          intro x hx
          rw [hfrag] at hx
          obtain rfl := Option.mem_some.mp hx
          exact hheader
        cases hdump with
        | empty hsize =>
            refine ⟨.started (s.nextFragmentId + 1) [] hcut rfl ?_ (List.append_nil _).symm
              (.refl _ _), mpegFrame, rfl⟩
            rw [hfrag, filter_of_empty hsize]
            rfl
        | listed n c hsize _ _ =>
            refine ⟨.started (s.nextFragmentId + 1) [_] hcut rfl ?_ rfl
              ((lists_onAddPlayitem _ s.writer).trans (lists_removed _ _)), mpegFrame, rfl⟩
            rw [hfrag, filter_of_data hsize]
            rfl
      · -- a new fragment has no data, and is dropped
        rw [heq] at hfrag hdump
        obtain rfl := Option.some.inj hfrag
        have hcut : ∀ x ∈ s.fragment, isFragmentHeaderFrame x frame o.fragmentDuration = true := by
          rw [hnone]
          exact nofun
        cases hdump with
        | empty _ =>
            refine ⟨.started (s.nextFragmentId + 1 + 1) [] hcut rfl ?_ (List.append_nil _).symm
              (.refl _ _), mpegFrame, rfl⟩
            rw [hnone]
            rfl
        | listed _ _ hsize _ _ => exact absurd rfl hsize

/-! ## Runs on fixed inputs -/

/-- What the converters do to a frame of one NAL unit that is not an IDR slice, and to AAC LC
    at 44.1 kHz in stereo. -/
def singleNalUnit : TsConverter where
  h264 _ data := some ([0, 0, 0, 1] ++ data.drop 4)
  hevc _ data := some ([0, 0, 0, 1] ++ data.drop 4)
  adts _ len :=
    let n := len + 7
    some [0xFF, 0xF1, 0x50, UInt8.ofNat (0x80 + n / 2048), UInt8.ofNat (n / 8),
      UInt8.ofNat (n % 8 * 32 + 31), 0xFC]

/-- An H.264 track with a profile, and an MP3 track, which has no AAC profile. -/
def avcMp3 (profile : UInt8) : Metadata where
  video := { codecid := flvVideoH264, v := [profile, 0xE0, 0x1F, 4], valid := true }
  audio := { codecid := 32, valid := true }

/-- A video frame of one slice. -/
def slice (isKeyframe : Bool) (dts : Int) : Media :=
  { isVideo := true, isKeyframe, dts, data := [0, 0, 0, 2, 0x41, 0x9A] }

end HlsSession

end SeastarLive
