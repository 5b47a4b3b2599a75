/-
SeastarLive.Hls.TracedSession — what a session tells its tracers.

`tracedPlaylist` of `Hls.Tracer` is a playlist whose tracers are told of one
thing at a time. A session in which every file is written runs it: a metadata
is a header, a fragment that is cut is added under the id it has by then, and
the oldest fragments are removed one by one. So the first thing that the
tracers are told of is a header, and they list what the session lists.
-/
import SeastarLive.Hls.PlaySessionV3Theorems
import SeastarLive.Hls.TracerTheorems

namespace SeastarLive

open Flv PlayItem

namespace TracedPlaylist

/-! ## Several removals -/

variable {directory : List Char} {start : Int}

/-- A playlist without its first items. -/
def withoutFront (w : TracedPlaylist) (front rest : List PlayItem) : TracedPlaylist :=
  { w with
    playlist := rest
    writer := front.foldl M3u8Writer.onRemovePlayitem w.writer
    cleaner := front.foldl FileCleaner.onRemovePlayitem w.cleaner }

theorem steps_withoutFront {w : TracedPlaylist} {front rest : List PlayItem}
    (hplaylist : w.playlist = front ++ rest) :
    (tracedPlaylist directory start).Steps w (w.withoutFront front rest) := by
  induction front generalizing w with
  | nil =>
      have hsame : w.withoutFront [] rest = w := by
        show { w with playlist := rest } = w
        rw [← hplaylist.trans (List.nil_append rest)]
      rw [hsame]
      exact .refl
  | cons item front ih =>
      have hone : (tracedPlaylist directory start).Steps w
          (w.withoutFront [item] (front ++ rest)) := by
        refine Machine.Steps.refl.step (a := TracerCall.removeFirst) ?_ ?_
        · show w.playlist ≠ []
          rw [hplaylist]
          exact List.cons_ne_nil item _
        · show step directory w .removeFirst = _
          simp only [step, hplaylist, List.cons_append]
          rfl
      exact hone.trans (ih rfl)

end TracedPlaylist

namespace HlsSession

variable {converter : TsConverter} {directory : List Char} {start : Int} {s t u : HlsSession}
  {w : TracedPlaylist} {frag : Fragment} {frame : Media} {o : WriteOutcome}

/-! ## The condition -/

/-- The condition on a step: every file is written, no metadata is refused, and the tracers
    stay. -/
def FilesWritten (s : HlsSession) : HlsCall → Prop
  | .write (.media _) o => s.impl.isComplete = false →
      o.fileWritten = true ∧ o.playlistWritten = true ∧ o.failedRemovals = []
  | .write (.metadata m) o => s.impl.isComplete = false → ∃ t, s.handleMeta m o = .ok t
  | .settings _ => False
  | _ => True

/-! ## The simulation -/

/-- A track has a stream. -/
def HasStream (s : HlsSession) : Prop :=
  s.videoStream ≠ none ∨ s.audioStream ≠ none

/-- A session and a playlist whose tracers were told the same. The open fragment gets a later
    id than all that are listed, and a header comes before a stream. -/
structure Traces (s : HlsSession) (w : TracedPlaylist) : Prop where
  playlist : s.playlist = w.playlist
  writer : s.writer = some w.writer
  cleaner : s.cleaner = some w.cleaner
  made : s.made = w.made
  numbered : w.nextFragmentId ≤ s.nextFragmentId
  opened : ∀ frag ∈ s.fragment, w.nextFragmentId < frag.id ∧ frag.id ≤ s.nextFragmentId
  data : ∀ frag ∈ s.fragment, frag.size ≠ 0 → s.HasStream
  headed : s.HasStream → w.issued ≠ []

/-- A metadata that is not refused makes a header. -/
theorem handleMeta_made {m : Metadata} (ht : s.handleMeta m o = .ok t) : t.made = s.made + 1 := by
  obtain ⟨v, -, hvideo⟩ :=
    makeVideoTrack_cases { s.noteMeta m with programEnabled := true } m.video o
  unfold handleMeta at ht
  rcases hvideo with hvideo | hvideo
  · obtain ⟨a, -, haudio⟩ := makeAudioTrack_cases
      { s.noteMeta m with programEnabled := true, videoStream := v } m.audio o
    rcases haudio with haudio | haudio
    · simp only [hvideo, haudio, bind, Except.bind] at ht
      cases ht
      rfl
    · simp only [hvideo, haudio, bind, Except.bind] at ht
      cases ht
  · simp only [hvideo, bind, Except.bind] at ht
    cases ht

/-- A stream is never taken away. -/
theorem StreamMade.ne_none {codecs : List Int} {streamId codecid : Int} {config : List UInt8}
    {old new : Option TsStreamInfo} (h : StreamMade codecs streamId codecid config old new)
    (hold : old ≠ none) : new ≠ none := by
  rcases h with rfl | ⟨hnone, -⟩
  · exact hold
  · exact absurd hnone hold

/-- A frame that is converted has a stream. -/
theorem hasStream_of_makeTsFrame {mpegFrame : MpegFrame}
    (h : s.makeTsFrame converter frame = some mpegFrame) : s.HasStream := by
  by_contra hnone
  obtain ⟨hvideo, haudio⟩ := not_or.mp hnone
  have hvideo := not_not.mp hvideo
  have haudio := not_not.mp haudio
  cases hkind : frame.isVideo <;> simp [makeTsFrame, hkind, hvideo, haudio] at h

namespace Traces

theorem init : Traces (createTracers { nextFragmentId := start } true)
    { nextFragmentId := start } where
  playlist := rfl
  writer := rfl
  cleaner := rfl
  made := rfl
  numbered := Int.le_refl start
  opened := by
    intro frag hfrag
    cases hfrag
  data := by
    intro frag hfrag
    cases hfrag
  headed := by
    rintro (h | h)
    · exact absurd rfl h
    · exact absurd rfl h

/-- The new fragment gets the next id. -/
theorem makeFragment (h : s.Traces w) (frame : Media) : (s.makeFragment frame).Traces w where
  playlist := h.playlist
  writer := h.writer
  cleaner := h.cleaner
  made := h.made
  numbered := by
    show w.nextFragmentId ≤ s.nextFragmentId + 1
    have hnumbered := h.numbered
    omega
  opened := by
    intro frag hfrag
    obtain rfl := Option.mem_some.mp hfrag
    have hnumbered := h.numbered
    exact ⟨Int.lt_add_one_of_le hnumbered, Int.le_refl _⟩
  data := by
    intro frag hfrag hsize
    obtain rfl := Option.mem_some.mp hfrag
    exact absurd rfl hsize
  headed := h.headed

theorem ensureFragment (h : s.Traces w) (frame : Media) : (s.ensureFragment frame).Traces w := by
  rcases s.ensureFragment_cases frame with ⟨-, -, heq⟩ | ⟨-, heq⟩
  · rw [heq]
    exact h
  · rw [heq]
    exact h.makeFragment frame

/-- The tracers are not told of a write. Data is written for a stream only. -/
theorem write {r : Except HlsSession HlsSession} (h : s.Traces w) (hfrag : s.fragment = some frag)
    (hr : WriteEnds converter s frag frame o r) : (settled r).Traces w := by
  have hopened := h.opened frag hfrag
  cases hr with
  | unconverted _ => exact { h with }
  | unmuxed mpegFrame hframe _ =>
      have hstream : s.HasStream := hasStream_of_makeTsFrame hframe
      refine { h with opened := ?_, data := ?_ }
      · intro x hx
        obtain rfl := Option.mem_some.mp hx
        rw [onData_id]
        exact hopened
      · intro x _ _
        exact hstream
  | accepted mpegFrame hframe _ =>
      have hstream : s.HasStream := hasStream_of_makeTsFrame hframe
      refine { h with opened := ?_, data := ?_ }
      · intro x hx
        obtain rfl := Option.mem_some.mp hx
        show w.nextFragmentId < (onData frag o.packets).id ∧ (onData frag o.packets).id ≤ _
        rw [onData_id]
        exact hopened
      · intro x _ _
        exact hstream

/-- A fragment that is dumped is added under its id, and what goes is removed one by one. -/
theorem dump (start : Int) (h : s.Traces w) (hfrag : s.fragment = some frag)
    (hwritten : o.fileWritten = true ∧ o.playlistWritten = true ∧ o.failedRemovals = [])
    {r : Except HlsSession HlsSession} (hr : DumpEnds directory s frag frame o r) :
    ∃ u, r = .ok u ∧ ∃ w', (tracedPlaylist directory start).Steps w w'
      ∧ Traces { u with fragment := none } w' := by
  obtain ⟨hfile, hplaylist, hremovals⟩ := hwritten
  cases hr with
  | empty _ =>
      refine ⟨s, rfl, w, .refl, { h with opened := ?_, data := ?_ }⟩
      · intro x hx
        cases hx
      · intro x hx
        cases hx
  | unwritten _ hnot => simp [hfile] at hnot
  | unlisted _ _ hnot => simp [hplaylist] at hnot
  | listed n c hsize _ hcleaner =>
      obtain ⟨hlt, hle⟩ := h.opened frag hfrag
      obtain ⟨skipped, hid⟩ : ∃ skipped : Nat, frag.id = w.nextFragmentId + skipped + 1 :=
        ⟨(frag.id - w.nextFragmentId - 1).toNat, by omega⟩
      have hinfo : w.makeItem directory skipped frag.firstPts (frame.dts - frag.firstDts)
          frag.startByKeyframe frag.size = infoOf directory s frag frame := by
        simp [TracedPlaylist.makeItem, infoOf, hid, h.made]
      have hissued : w.issued ≠ [] := h.headed (h.data frag hfrag hsize)
      -- the playlist to which the fragment was added
      let added : TracedPlaylist := { w with
        playlist := w.playlist ++ [infoOf directory s frag frame]
        writer := w.writer.onAddPlayitem (infoOf directory s frag frame)
        cleaner := w.cleaner.onAddPlayitem (infoOf directory s frag frame)
        made := w.made + 1
        nextFragmentId := frag.id
        issued := w.issued ++ [infoOf directory s frag frame] }
      have hadd : (tracedPlaylist directory start).Steps w added := by
        refine Machine.Steps.refl.step (a := TracerCall.add skipped frag.firstPts
          (frame.dts - frag.firstDts) frag.startByKeyframe frag.size) hissued ?_
        show TracedPlaylist.step directory w (.add skipped frag.firstPts
          (frame.dts - frag.firstDts) frag.startByKeyframe frag.size) = .ok added
        simp only [TracedPlaylist.step, hinfo]
        rfl
      let front := removedItems added.playlist n
      let rest := added.playlist.rtake n
      have hremove : (tracedPlaylist directory start).Steps added (added.withoutFront front rest) :=
        TracedPlaylist.steps_withoutFront (List.take_append_drop _ _).symm
      refine ⟨_, rfl, _, hadd.trans hremove, ?_⟩
      constructor
      · show (s.playlist ++ _).rtake n = _
        rw [h.playlist]
        rfl
      · show (s.writer.map _).map _ = _
        rw [h.writer, h.playlist]
        rfl
      · show c = _
        rw [hcleaner hremovals, h.cleaner, h.playlist]
        rfl
      · show s.made + 1 = w.made + 1
        rw [h.made]
      · exact hle
      · intro x hx
        cases hx
      · intro x hx
        cases hx
      · intro _
        exact List.append_ne_nil_of_right_ne_nil w.issued (List.cons_ne_nil _ [])

theorem media {r : Except HlsSession HlsSession} (h : s.Traces w)
    (hwritten : o.fileWritten = true ∧ o.playlistWritten = true ∧ o.failedRemovals = [])
    (hr : FrameEnds converter directory s frame o r) :
    ∃ w', (tracedPlaylist directory start).Steps w w' ∧ (settled r).Traces w' := by
  have hensure := h.ensureFragment frame
  cases hr with
  | continued frag r hfrag _ hwrite => exact ⟨w, .refl, hensure.write hfrag hwrite⟩
  | undumped frag t hfrag _ hdump =>
      obtain ⟨u, hok, -⟩ := hensure.dump start hfrag hwritten hdump
      cases hok
  | cut frag u r hfrag _ hdump hwrite =>
      obtain ⟨v, hok, w', hsteps, hdumped⟩ := hensure.dump start hfrag hwritten hdump
      cases hok
      exact ⟨w', hsteps, (hdumped.makeFragment frame).write rfl hwrite⟩

/-- A metadata that is not refused is a header. -/
theorem metadata {m : Metadata} (h : s.Traces w) (ht : s.handleMeta m o = .ok t) :
    ∃ w', (tracedPlaylist directory start).Steps w w' ∧ t.Traces w' := by
  obtain ⟨v, a, x, c, n, heq, hv, ha, htracers⟩ := s.handleMeta_eq m o
  have hmade := handleMeta_made ht
  rw [ht] at heq
  have heq : t = _ := heq
  rcases htracers with ⟨-, -, rfl⟩ | ⟨rfl, rfl, rfl⟩
  · rw [heq] at hmade
    exact absurd hmade (Nat.lt_succ_self s.made).ne
  · refine ⟨_, Machine.Steps.refl.step (a := TracerCall.updateHeader) trivial rfl, ?_⟩
    rw [heq]
    constructor
    · exact h.playlist
    · show s.writer.map _ = _
      rw [h.writer, h.made]
      rfl
    · show s.cleaner.map _ = _
      rw [h.cleaner, h.made]
      rfl
    · show s.made + 1 = w.made + 1
      rw [h.made]
    · exact h.numbered
    · exact h.opened
    · intro frag hfrag hsize
      rcases h.data frag hfrag hsize with hvideo | haudio
      · exact .inl (hv.ne_none hvideo)
      · exact .inr (ha.ne_none haudio)
    · intro _
      exact List.append_ne_nil_of_right_ne_nil w.issued (List.cons_ne_nil _ [])

end Traces

/-! ## Runs -/

theorem traces_step {a : HlsCall} (h : s.Traces w) (hwritten : s.FilesWritten a)
    (ht : step converter directory s a = .ok t) :
    ∃ w', (tracedPlaylist directory start).Steps w w' ∧ t.Traces w' := by
  cases step_ends ht with
  | media frame o r hcomplete hends => exact h.media (hwritten hcomplete) hends
  | metadata m o hcomplete =>
      obtain ⟨t, hmeta⟩ := hwritten hcomplete
      rw [hmeta]
      exact h.metadata hmeta
  | dropped frame o => exact ⟨w, .refl, h⟩
  | settings deleteDelay => exact hwritten.elim
  | complete how => exact ⟨w, .refl, { h with }⟩
  | timeout => exact ⟨w, .refl, { h with }⟩
  | close =>
      refine ⟨_, Machine.Steps.refl.step (a := TracerCall.closed) trivial rfl, ?_⟩
      refine { h with writer := ?_ }
      show s.writer.map M3u8Writer.closed = _
      rw [h.writer]
      rfl

/-- A session in which every file is written runs the traced playlist. -/
theorem traced_of_reachable
    (hreach : ((hlsSession converter directory start true).restrict FilesWritten).Reachable s) :
    ∃ w, (tracedPlaylist directory start).Reachable w ∧ s.Traces w := by
  refine hreach.invariant
    (P := fun s => ∃ w, (tracedPlaylist directory start).Reachable w ∧ s.Traces w)
    ⟨_, .init, .init⟩ ?_
  rintro s a t ⟨w, hw, htraces⟩ henabled hstep
  obtain ⟨w', hsteps, htraces'⟩ := traces_step htraces henabled.2 hstep
  exact ⟨w', hw.steps hsteps, htraces'⟩

/-- So its tracers list the fragments that it lists, and delete none of their files. -/
theorem tracers_of_reachable
    (hreach : ((hlsSession converter directory start true).restrict FilesWritten).Reachable s) :
    ∃ v c, s.writer = some v ∧ s.cleaner = some c ∧ media v.playlist = s.playlist
      ∧ media c.playlist = s.playlist ∧ ∀ item ∈ s.playlist, item.filepath ∉ c.scheduled := by
  obtain ⟨w, hw, htraces⟩ := traced_of_reachable hreach
  have hmirrors := TracedPlaylist.mirrors_of_reachable hw
  obtain ⟨hwriter, hcleaner⟩ := hmirrors.media_tracers
  refine ⟨w.writer, w.cleaner, htraces.writer, htraces.cleaner, ?_, ?_, ?_⟩
  · rw [hwriter, htraces.playlist]
  · rw [hcleaner, htraces.playlist]
  · intro item hitem
    rw [htraces.playlist] at hitem
    exact hmirrors.retained_kept hitem

end HlsSession

end SeastarLive
