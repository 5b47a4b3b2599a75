/-
SeastarLive.Hls.StreamTail — what is left of a stream in the last playlist file.

The fragment that is open when the loop stops is not dumped, and it holds the
last frame that was accepted. So the last playlist file never has all frames
from its oldest fragment on, unless it lists no fragment at all.
-/
import SeastarLive.Hls.FragmentConservation

namespace SeastarLive

open Flv PlayItem

namespace HlsSession

variable {converter : TsConverter} {directory : List Char} {start : Int} {deleteDelay : Bool}
  {s t : HlsSession} {frame : Media} {o : WriteOutcome}

/-! ## The invariant -/

/-- The last accepted frame is in the open fragment and in no file, and each fragment that is
    listed has a file with frames. -/
structure KeepsLast (s : HlsSession) : Prop where
  last : s.accepted ≠ [] → ∃ frag ∈ s.fragment, s.accepted.length - 1 ∈ frag.frames
  opened : ∀ frag ∈ s.fragment, frag.frames ≠ [] ∧ ∀ n ∈ frag.frames, n < s.accepted.length
  dumped : ∀ d ∈ s.dumped, d.fragment.frames ≠ [] ∧
    ∀ n ∈ d.fragment.frames, n < s.accepted.length ∧ ∀ frag ∈ s.fragment, n ∉ frag.frames
  listed : ∀ w ∈ s.writer, ∀ item ∈ media w.playlist, ∃ d ∈ s.dumped, d.info = item

namespace KeepsLast

/-- What is listed later has a file, if what is new has one. -/
theorem listed_of_lists (h : s.KeepsLast) {new : List DumpedFragment}
    (hdumped : t.dumped = s.dumped ++ new)
    (hlists : Lists (new.map fun d => d.info) s.writer t.writer) :
    ∀ w ∈ t.writer, ∀ item ∈ media w.playlist, ∃ d ∈ t.dumped, d.info = item := by
  intro w hw item hitem
  rw [hdumped]
  rcases hlists w hw item hitem with ⟨v, hv, hold⟩ | hnew
  · obtain ⟨d, hd, hinfo⟩ := h.listed v hv item hold
    exact ⟨d, List.mem_append_left new hd, hinfo⟩
  · obtain ⟨d, hd, hinfo⟩ := List.mem_map.mp hnew
    exact ⟨d, List.mem_append_right s.dumped hd, hinfo⟩

theorem congr (h : s.KeepsLast) (hsame : SameFragments s t) : t.KeepsLast := by
  constructor
  · rw [hsame.accepted, hsame.fragment]
    exact h.last
  · rw [hsame.accepted, hsame.fragment]
    exact h.opened
  · rw [hsame.dumped, hsame.accepted, hsame.fragment]
    exact h.dumped
  · have hdumped : t.dumped = s.dumped ++ [] := by
      rw [hsame.dumped, List.append_nil]
    exact h.listed_of_lists hdumped hsame.writer

/-- A frame that ends the open fragment, behind the frames `old`, which no file has. -/
theorem of_open {frag : Fragment} (hfragment : t.fragment = some frag)
    (hlength : t.accepted.length = s.accepted.length + 1) {old : List Nat}
    (hframes : frag.frames = old ++ [s.accepted.length])
    (hold : ∀ n ∈ old, n < s.accepted.length)
    (hdumped : ∀ d ∈ t.dumped, d.fragment.frames ≠ [] ∧
      ∀ n ∈ d.fragment.frames, n < s.accepted.length ∧ n ∉ old)
    (hlisted : ∀ w ∈ t.writer, ∀ item ∈ media w.playlist, ∃ d ∈ t.dumped, d.info = item) :
    t.KeepsLast where
  last := by
    intro _
    refine ⟨frag, hfragment, ?_⟩
    rw [hframes, hlength]
    simp
  opened := by
    intro x hx
    rw [hfragment] at hx
    obtain rfl := Option.mem_some.mp hx
    rw [hframes, hlength]
    refine ⟨by simp, ?_⟩
    intro n hn
    rcases List.mem_append.mp hn with hn | hn
    · exact Nat.lt_succ_of_lt (hold n hn)
    · obtain rfl := List.mem_singleton.mp hn
      exact Nat.lt_succ_self _
  dumped := by
    intro d hd
    obtain ⟨hne, hall⟩ := hdumped d hd
    refine ⟨hne, ?_⟩
    intro n hn
    obtain ⟨hlt, hnot⟩ := hall n hn
    refine ⟨by omega, ?_⟩
    intro x hx hmem
    rw [hfragment] at hx
    obtain rfl := Option.mem_some.mp hx
    rw [hframes] at hmem
    rcases List.mem_append.mp hmem with hmem | hmem
    · exact hnot hmem
    · obtain rfl := List.mem_singleton.mp hmem
      exact Nat.lt_irrefl _ hlt
  listed := hlisted

/-- A frame that succeeds is the last one of the open fragment, and no file has it. -/
theorem goes (h : s.KeepsLast) (ht : FrameGoes directory s frame o t) {mpegFrame : MpegFrame}
    (haccepted : t.accepted = s.accepted ++ [{ frame, mpegFrame, packets := o.packets }]) :
    t.KeepsLast := by
  have hlength : t.accepted.length = s.accepted.length + 1 := by
    rw [haccepted, List.length_append, List.length_singleton]
  cases ht with
  | continued frag hfrag _ hfragment hdumped hwriter =>
      have hframes : (withFrame frag s.accepted.length o).frames =
          frag.frames ++ [s.accepted.length] := by
        simp [withFrame, onData_eq]
      refine of_open hfragment hlength hframes (h.opened frag hfrag).2 ?_ ?_
      · intro d hd
        rw [hdumped] at hd
        obtain ⟨hne, hall⟩ := h.dumped d hd
        exact ⟨hne, fun n hn => ⟨(hall n hn).1, (hall n hn).2 frag hfrag⟩⟩
      · rw [hdumped, hwriter]
        exact h.listed
  | started id new _ hfragment hnew hdumped hlists =>
      have hframes : (withFrame (freshFragment id frame) s.accepted.length o).frames =
          [] ++ [s.accepted.length] := by
        simp [withFrame, onData_eq, freshFragment]
      refine of_open hfragment hlength hframes (fun n hn => absurd hn List.not_mem_nil) ?_
        (h.listed_of_lists hdumped hlists)
      -- what is dumped now has the frames of the fragment that was open
      intro d hd
      rw [hdumped, List.mem_append] at hd
      rcases hd with hd | hd
      · obtain ⟨hne, hall⟩ := h.dumped d hd
        exact ⟨hne, fun n hn => ⟨(hall n hn).1, List.not_mem_nil⟩⟩
      · rw [hnew, Option.mem_toList] at hd
        obtain ⟨frag, hfrag, rfl⟩ := Option.map_eq_some_iff.mp hd
        obtain ⟨hne, hlt⟩ := h.opened frag (Option.filter_eq_some_iff.mp hfrag).1
        exact ⟨hne, fun n hn => ⟨hlt n hn, List.not_mem_nil⟩⟩

end KeepsLast

theorem keepsLast_step {a : HlsCall} (h : s.KeepsLast) (hsucceeds : s.Succeeds converter a)
    (ht : step converter directory s a = .ok t) : t.KeepsLast := by
  rcases step_cases ht with ⟨frame, o, r, rfl, hcomplete, hr, rfl⟩ | hsame
  · obtain ⟨hgoes, mpegFrame, haccepted⟩ := frame_goes hr hcomplete hsucceeds
    exact h.goes hgoes haccepted
  · exact h.congr hsame

theorem keepsLast_init :
    (HlsSession.createTracers { nextFragmentId := start } deleteDelay).KeepsLast where
  last := fun hne => absurd rfl hne
  opened := fun _ hfrag => absurd hfrag (Option.not_mem_none _)
  dumped := fun _ hd => absurd hd List.not_mem_nil
  listed := by
    intro w hw item hitem
    have hw : w ∈ if deleteDelay then some {} else none := hw
    split at hw
    · obtain rfl := Option.mem_some.mp hw
      cases hitem
    · cases hw

theorem keepsLast_of_reachable
    (hreach : ((hlsSession converter directory start deleteDelay).restrict
      (Succeeds converter)).Reachable s) : s.KeepsLast := by
  refine hreach.invariant (P := KeepsLast) keepsLast_init ?_
  intro s a t h henabled hstep
  exact keepsLast_step h henabled.2 hstep

/-! ## The last playlist file -/

/-- The playlist file that `closed` wrote. -/
def Closing (s t : HlsSession) (file : M3u8File) : Prop :=
  .endList ∈ file.content ∧ ∃ v ∈ s.writer, ∃ w ∈ t.writer, w.files = v.files ++ [file]

/-- Every frame that was accepted since the oldest fragment that is listed is in the file of a
    fragment that is listed. -/
def TailKept (s : HlsSession) (file : M3u8File) : Prop :=
  ∀ oldest ∈ (media file.playlist).head?, ∀ d ∈ s.dumped, d.info = oldest →
    ∀ m ∈ d.fragment.frames, ∀ n, m ≤ n → n < s.accepted.length →
      ∃ e ∈ s.dumped, e.info ∈ media file.playlist ∧ n ∈ e.fragment.frames

/-- The session ended through `_end`. -/
def EndedNormally (s : HlsSession) : Prop :=
  s.impl.done = true ∧ s.impl.canceled = false ∧ s.impl.failed = false ∧ s.impl.timeout = false

theorem endList_mem_makeContent {playlist : List PlayItem} (hne : playlist ≠ []) :
    .endList ∈ M3u8.makeContent playlist [.endList] := by
  unfold M3u8.makeContent
  rw [if_neg (by simpa using hne)]
  simp

/-- What `closed` writes. -/
theorem closing_iff (ht : step converter directory s .close = .ok t) (file : M3u8File) :
    Closing s t file ↔ ∃ w ∈ s.writer, w.playlist ≠ []
      ∧ file = { playlist := w.playlist, content := M3u8.makeContent w.playlist [.endList] } := by
  cases ht
  constructor
  · rintro ⟨-, v, hv, w, hw, hfiles⟩
    have hclosed : v.closed = w := by
      have hw : s.writer.map M3u8Writer.closed = some w := hw
      rw [Option.mem_def.mp hv] at hw
      exact Option.some.inj hw
    by_cases hnil : v.playlist = []
    · have hsame : w.files = v.files := by
        rw [← hclosed]
        simp [M3u8Writer.closed, hnil]
      rw [hsame] at hfiles
      have hlength := congrArg List.length hfiles
      simp at hlength
    · have hnew : w.files = v.files ++
          [{ playlist := v.playlist, content := M3u8.makeContent v.playlist [.endList] }] := by
        rw [← hclosed]
        simp [M3u8Writer.closed, M3u8Writer.makeFile, hnil]
      rw [hnew] at hfiles
      exact ⟨v, hv, hnil, (List.cons.inj (List.append_cancel_left hfiles)).1.symm⟩
  · rintro ⟨w, hw, hne, rfl⟩
    refine ⟨endList_mem_makeContent hne, w, hw, w.closed, ?_, ?_⟩
    · show s.writer.map M3u8Writer.closed = some w.closed
      rw [Option.mem_def.mp hw]
      rfl
    · simp [M3u8Writer.closed, M3u8Writer.makeFile, hne]

/-- A list that has fragments does not have the one with the last frame. -/
theorem KeepsLast.not_tailKept (h : s.KeepsLast) {w : M3u8Writer} (hw : w ∈ s.writer)
    (hne : media w.playlist ≠ []) {content : List M3u8Line} :
    ¬TailKept s { playlist := w.playlist, content } := by
  intro hkept
  obtain ⟨oldest, rest, hmedia⟩ := List.exists_cons_of_ne_nil hne
  obtain ⟨d, hd, hinfo⟩ := h.listed w hw oldest (by simp [hmedia])
  obtain ⟨hframes, hlt⟩ := h.dumped d hd
  obtain ⟨m, hm⟩ := List.exists_mem_of_ne_nil _ hframes
  have hm' := (hlt m hm).1
  -- the last frame is in the open fragment
  have haccepted : s.accepted ≠ [] := by
    rintro hnil
    rw [hnil] at hm'
    exact Nat.not_lt_zero m hm'
  obtain ⟨frag, hfrag, hlast⟩ := h.last haccepted
  obtain ⟨e, he, -, hn⟩ := hkept oldest (by simp [hmedia]) d hd hinfo m hm (s.accepted.length - 1)
    (by omega) (by omega)
  exact ((h.dumped e he).2 _ hn).2 frag hfrag hlast

/-- When a session in which all goes well is closed, the last playlist file has the tail of the
    stream exactly if it lists no fragment. -/
theorem tailKept_iff
    (hreach : ((hlsSession converter directory start deleteDelay).restrict
      (Succeeds converter)).Reachable s)
    (ht : step converter directory s .close = .ok t) :
    (∀ file, Closing s t file → TailKept t file) ↔ ∀ w ∈ s.writer, media w.playlist = [] := by
  have hlast := keepsLast_of_reachable hreach
  have hsame : ∀ file, TailKept t file ↔ TailKept s file := by
    cases ht
    exact fun file => Iff.rfl
  constructor
  · intro hkept w hw
    by_contra hne
    have hplaylist : w.playlist ≠ [] := fun hnil => hne (by rw [hnil]; rfl)
    have hfile := hkept _ ((closing_iff ht _).mpr ⟨w, hw, hplaylist, rfl⟩)
    exact hlast.not_tailKept hw hne ((hsame _).mp hfile)
  · intro hnone file hfile
    obtain ⟨w, hw, -, rfl⟩ := (closing_iff ht file).mp hfile
    intro oldest holdest
    rw [hnone w hw] at holdest
    cases holdest

/-- One keyframe: no fragment is cut before the end, and the last playlist file has the header
    only. -/
theorem tailKept_one_frame :
    ∃ s t : HlsSession, s.EndedNormally ∧ s.accepted.length = 1
      ∧ step singleNalUnit "d".toList s .close = .ok t
      ∧ ∀ file, Closing s t file → TailKept t file := by
  obtain ⟨s, hreach, hs⟩ := Machine.reachable_of_runs
    (M := (hlsSession singleNalUnit "d".toList 0 true).restrict (Succeeds singleNalUnit))
    (p := fun s => (s.impl.done = true ∧ s.impl.canceled = false ∧ s.impl.failed = false
      ∧ s.impl.timeout = false) ∧ s.accepted.length = 1 ∧ ∀ w ∈ s.writer, media w.playlist = [])
    [.write (.metadata (avcMp3 0x42)) {}, .write (.media (slice true 0)) {}, .complete .done]
    (by decide +kernel)
  obtain ⟨hend, haccepted, hnone⟩ := of_decide_eq_true hs
  exact ⟨s, _, hend, haccepted, rfl, (tailKept_iff hreach rfl).mpr hnone⟩

/-- Two keyframes: the first fragment is listed, and the second frame is in no file. -/
theorem tail_lost :
    ¬∀ (converter : TsConverter) (directory : List Char) (start : Int) (deleteDelay : Bool)
      (s t : HlsSession),
      ((hlsSession converter directory start deleteDelay).restrict
        (Succeeds converter)).Reachable s →
      s.EndedNormally → step converter directory s .close = .ok t →
      ∀ file, Closing s t file → TailKept t file := by
  intro hclaim
  obtain ⟨s, hreach, hs⟩ := Machine.reachable_of_runs
    (M := (hlsSession singleNalUnit "d".toList 0 true).restrict (Succeeds singleNalUnit))
    (p := fun s => (s.impl.done = true ∧ s.impl.canceled = false ∧ s.impl.failed = false
      ∧ s.impl.timeout = false) ∧ ∃ w ∈ s.writer, media w.playlist ≠ [])
    [.write (.metadata (avcMp3 0x42)) {}, .write (.media (slice true 0)) {},
      .write (.media (slice true 1000)) {}, .complete .done]
    (by decide +kernel)
  obtain ⟨hend, w, hw, hne⟩ := of_decide_eq_true hs
  have hplaylist : w.playlist ≠ [] := fun hnil => hne (by rw [hnil]; rfl)
  have hclose : step singleNalUnit "d".toList s .close = .ok _ := rfl
  have hkept := hclaim _ _ _ _ s _ hreach hend hclose _
    ((closing_iff hclose _).mpr ⟨w, hw, hplaylist, rfl⟩)
  exact (keepsLast_of_reachable hreach).not_tailKept hw hne hkept

end HlsSession

end SeastarLive
