/-
SeastarLive.Hls.FragmentConservation — where the packets of a frame end up.

As long as frames are converted, muxed and written, the fragments cut the
accepted frames into segments (`fragments_push`): a frame goes into the last
fragment or starts one. The buffers of a fragment are the packets of its
frames, and each fragment starts at the dts at which the one before it was cut.
-/
import SeastarLive.Hls.PlaySessionV3Theorems
import SeastarLive.Lib.Segments

namespace SeastarLive

open Flv

namespace HlsSession

variable {converter : TsConverter} {directory : List Char} {start : Int} {deleteDelay : Bool}
  {s t : HlsSession} {frame : Media} {o : WriteOutcome}

/-! ## Packets -/

/-- The packets that are not empty. -/
def dataOf (packets : List (List UInt8)) : List (List UInt8) := packets.filter fun data => data ≠ []

/-- The packets with data of the `n`-th accepted frame. -/
def packetsOf (accepted : List AcceptedFrame) (n : Nat) : List (List UInt8) :=
  match accepted[n]? with
  | some frame => dataOf frame.packets
  | none => []

theorem packetsOf_append {accepted : List AcceptedFrame} {n : Nat} (h : n < accepted.length)
    (new : List AcceptedFrame) : packetsOf (accepted ++ new) n = packetsOf accepted n := by
  unfold packetsOf
  rw [List.getElem?_append_left h]

theorem packetsOf_last (accepted : List AcceptedFrame) (new : AcceptedFrame) :
    packetsOf (accepted ++ [new]) accepted.length = dataOf new.packets := by
  simp [packetsOf]

theorem flatten_flatMap {α β : Type} (l : List α) (f : α → List (List β)) :
    (l.flatMap f).flatten = l.flatMap fun x => (f x).flatten := by
  induction l with
  | nil => rfl
  | cons x l ih => simp [ih]

theorem flatten_dataOf (packets : List (List UInt8)) :
    (dataOf packets).flatten = packets.flatten := by
  unfold dataOf
  induction packets with
  | nil => rfl
  | cons data packets ih =>
      cases data with
      | nil => simpa using ih
      | cons b data => simpa using ih

/-- The packets of all accepted frames, one after the other. -/
theorem flatMap_packetsOf (accepted : List AcceptedFrame) :
    (List.range accepted.length).flatMap (packetsOf accepted) =
      accepted.flatMap fun frame => dataOf frame.packets := by
  induction accepted using List.reverseRecOn with
  | nil => rfl
  | append_singleton accepted new ih =>
      have hold : (List.range accepted.length).flatMap (packetsOf (accepted ++ [new])) =
          (List.range accepted.length).flatMap (packetsOf accepted) := by
        refine List.flatMap_congr ?_
        intro n hn
        exact packetsOf_append (List.mem_range.mp hn) [new]
      rw [List.length_append, List.length_singleton, List.range_succ, List.flatMap_append, hold, ih]
      simp [packetsOf_last]

/-- What a fragment gets of a frame. -/
theorem onData_eq (frag : Fragment) (packets : List (List UInt8)) :
    onData frag packets = { frag with
      size := frag.size + (packets.map List.length).sum
      bufs := frag.bufs ++ dataOf packets } := by
  unfold onData dataOf
  induction packets generalizing frag with
  | nil => simp
  | cons data packets ih =>
      rw [List.foldl_cons, ih]
      unfold Fragment.write
      cases data with
      | nil => simp
      | cons b data =>
          simp
          omega

/-! ## Fragments -/

/-- The fragments so far, the open one last. -/
def fragments (s : HlsSession) : List Fragment :=
  s.dumped.map (fun d => d.fragment) ++ s.fragment.toList

/-- A frame starts a fragment if it is the first one, a video keyframe, or late enough. -/
def Starts (s : HlsSession) (frame : Media) (o : WriteOutcome) : Prop :=
  s.accepted = [] ∨ (frame.isVideo = true ∧ frame.isKeyframe = true)
    ∨ ∃ frag ∈ s.fragment, o.fragmentDuration * 1000 ≤ ((frame.dts - frag.firstDts : Int) : Rat)

/-- The muxer writes something. -/
def Emits : HlsCall → Prop
  | .write (.media _) o => ∃ data ∈ o.packets, data ≠ []
  | _ => True

instance : DecidablePred Emits
  | .write (.media _) o => inferInstanceAs (Decidable (∃ data ∈ o.packets, data ≠ []))
  | .write (.metadata _) _ => .isTrue trivial
  | .write (.script _) _ => .isTrue trivial
  | .settings _ => .isTrue trivial
  | .complete _ => .isTrue trivial
  | .timeout => .isTrue trivial
  | .close => .isTrue trivial

/-- A frame goes into the last fragment, or into a new one behind all others. -/
theorem fragments_step (h : FrameGoes directory s frame o t)
    (hsize : ∀ frag ∈ s.fragment, frag.size ≠ 0) :
    (∃ front frag, s.fragment = some frag
        ∧ isFragmentHeaderFrame frag frame o.fragmentDuration = false
        ∧ s.fragments = front ++ [frag]
        ∧ t.fragments = front ++ [withFrame frag s.accepted.length o])
      ∨ (∀ frag ∈ s.fragment, isFragmentHeaderFrame frag frame o.fragmentDuration = true)
        ∧ ∃ id, t.fragments =
          s.fragments ++ [withFrame (freshFragment id frame) s.accepted.length o] := by
  cases h with
  | continued frag hfrag hheader hfragment hdumped _ =>
      refine .inl ⟨s.dumped.map fun d => d.fragment, frag, hfrag, hheader, ?_, ?_⟩
      · rw [fragments, hfrag]
        rfl
      · rw [fragments, hdumped, hfragment]
        rfl
  | started id new hheader hfragment hnew hdumped _ =>
      rw [hnew] at hdumped
      refine .inr ⟨hheader, id, ?_⟩
      cases hfrag : s.fragment with
      | none =>
          rw [hfrag] at hdumped
          simp [fragments, hdumped, hfragment, hfrag]
      | some frag =>
          rw [hfrag, filter_of_data (hsize frag hfrag)] at hdumped
          simp [fragments, hdumped, hfragment, hfrag]

/-! ## The invariant -/

/-- What holds between the accepted frames and the fragments. -/
structure Conserves (s : HlsSession) : Prop where
  partition : (s.fragments.map fun frag => frag.frames).flatten = List.range s.accepted.length
  ne_nil : ∀ frag ∈ s.fragments, frag.frames ≠ []
  bufs : ∀ frag ∈ s.fragments, frag.bufs = frag.frames.flatMap (packetsOf s.accepted)
  size : ∀ frag ∈ s.fragment, frag.size ≠ 0
  first : s.fragment = none → s.dumped = []

namespace Conserves

theorem frame_lt (h : s.Conserves) {frag : Fragment} (hfrag : frag ∈ s.fragments) :
    ∀ n ∈ frag.frames, n < s.accepted.length := by
  intro n hn
  have hmem : n ∈ (s.fragments.map fun frag => frag.frames).flatten :=
    List.mem_flatten.mpr ⟨frag.frames, List.mem_map_of_mem hfrag, hn⟩
  rw [h.partition] at hmem
  exact List.mem_range.mp hmem

/-- There is an open fragment from the first frame on. -/
theorem accepted_eq_nil_iff (h : s.Conserves) : s.accepted = [] ↔ s.fragment = none := by
  constructor
  · intro hnil
    cases hfrag : s.fragment with
    | none => rfl
    | some frag =>
        have hmem : frag ∈ s.fragments := by
          rw [fragments, hfrag]
          simp
        obtain ⟨n, hn⟩ := List.exists_mem_of_ne_nil _ (h.ne_nil frag hmem)
        have hlt := h.frame_lt hmem n hn
        rw [hnil] at hlt
        exact absurd hlt (Nat.not_lt_zero n)
  · intro hnone
    have hpartition := h.partition
    rw [fragments, hnone, h.first hnone] at hpartition
    cases hlength : s.accepted.length with
    | zero => exact List.eq_nil_of_length_eq_zero hlength
    | succ n =>
        rw [hlength, List.range_succ] at hpartition
        simp at hpartition

/-- The fragments follow the segments that a sequence is cut into. -/
theorem fragments_push (h : s.Conserves) (ht : FrameGoes directory s frame o t) :
    ∃ starts, (t.fragments.map fun frag => frag.frames) =
      Segments.push starts (s.fragments.map fun frag => frag.frames) s.accepted.length := by
  rcases fragments_step ht h.size with ⟨front, frag, -, -, hs, ht⟩ | ⟨-, id, ht⟩
  · refine ⟨false, ?_⟩
    rw [hs, ht, List.map_append, List.map_append, List.map_singleton, List.map_singleton,
      Segments.push_continue]
    simp [withFrame, onData_eq]
  · refine ⟨true, ?_⟩
    rw [ht, List.map_append, List.map_singleton, Segments.push_start]
    simp [withFrame, onData_eq, freshFragment]

/-- A fragment that gets a frame has the packets of one frame more. -/
theorem bufs_withFrame {accepted : List AcceptedFrame} {frag : Fragment} {new : AcceptedFrame}
    (hlt : ∀ n ∈ frag.frames, n < accepted.length)
    (hbufs : frag.bufs = frag.frames.flatMap (packetsOf accepted))
    (hnew : new.packets = o.packets) :
    (withFrame frag accepted.length o).bufs =
      (withFrame frag accepted.length o).frames.flatMap (packetsOf (accepted ++ [new])) := by
  have hold : frag.frames.flatMap (packetsOf (accepted ++ [new])) =
      frag.frames.flatMap (packetsOf accepted) := by
    refine List.flatMap_congr ?_
    intro n hn
    exact packetsOf_append (hlt n hn) [new]
  have hwith : (withFrame frag accepted.length o).frames = frag.frames ++ [accepted.length] := by
    simp [withFrame, onData_eq]
  rw [hwith, List.flatMap_append, hold, ← hbufs]
  simp [withFrame, onData_eq, packetsOf_last, hnew]

theorem size_withFrame {frag : Fragment} {n : Nat} (hemits : ∃ data ∈ o.packets, data ≠ []) :
    (withFrame frag n o).size ≠ 0 := by
  obtain ⟨data, hmem, hne⟩ := hemits
  have hsum : (o.packets.map List.length).sum ≠ 0 := by
    intro hzero
    have hlength := List.sum_eq_zero_iff_forall_eq_nat.mp hzero _ (List.mem_map_of_mem hmem)
    exact hne (List.eq_nil_of_length_eq_zero hlength)
  simp only [withFrame, onData_eq]
  omega

/-- A frame that succeeds keeps the invariant. -/
theorem media (h : s.Conserves) (ht : FrameGoes directory s frame o t) {mpegFrame : MpegFrame}
    (haccepted : t.accepted = s.accepted ++ [{ frame, mpegFrame, packets := o.packets }])
    (hemits : ∃ data ∈ o.packets, data ≠ []) : t.Conserves := by
  have hpush := h.fragments_push ht
  have hopen : ∃ frag n, t.fragment = some (withFrame frag n o) := by
    cases ht with
    | continued frag _ _ hfragment _ _ => exact ⟨frag, _, hfragment⟩
    | started id _ _ hfragment _ _ _ => exact ⟨_, _, hfragment⟩
  obtain ⟨last, n, hlast⟩ := hopen
  -- the fragments behind the last one have what they had
  have hold : ∀ frag ∈ s.fragments, frag.bufs = frag.frames.flatMap (packetsOf t.accepted) := by
    intro frag hfrag
    rw [h.bufs frag hfrag, haccepted]
    refine List.flatMap_congr ?_
    intro n hn
    exact (packetsOf_append (h.frame_lt hfrag n hn) _).symm
  constructor
  · obtain ⟨starts, hpush⟩ := hpush
    rw [hpush, Segments.flatten_push, h.partition, haccepted, List.length_append,
      List.length_singleton, List.range_succ]
  · obtain ⟨starts, hpush⟩ := hpush
    intro frag hfrag
    have hsegments := Segments.ne_nil_of_mem_push starts s.accepted.length
      (List.forall_mem_map.mpr h.ne_nil)
    rw [← hpush] at hsegments
    exact hsegments frag.frames (List.mem_map_of_mem hfrag)
  · rcases fragments_step ht h.size with ⟨front, frag, -, -, hs, ht⟩ | ⟨-, id, ht⟩
    · intro x hx
      rw [ht, List.mem_append, List.mem_singleton] at hx
      rcases hx with hx | rfl
      · exact hold x (hs ▸ List.mem_append_left [frag] hx)
      · have hmem : frag ∈ s.fragments :=
          hs ▸ List.mem_append_right front (List.mem_singleton_self frag)
        rw [haccepted]
        exact bufs_withFrame (h.frame_lt hmem) (h.bufs frag hmem) rfl
    · intro x hx
      rw [ht, List.mem_append, List.mem_singleton] at hx
      rcases hx with hx | rfl
      · exact hold x hx
      · rw [haccepted]
        exact bufs_withFrame nofun rfl rfl
  · intro frag hfrag
    rw [hlast] at hfrag
    obtain rfl := Option.mem_some.mp hfrag
    exact size_withFrame hemits
  · intro hnone
    rw [hlast] at hnone
    cases hnone

theorem congr (h : s.Conserves) (hsame : SameFragments s t) : t.Conserves := by
  have hfragments : t.fragments = s.fragments := by
    rw [fragments, fragments, hsame.dumped, hsame.fragment]
  constructor
  · rw [hfragments, hsame.accepted]
    exact h.partition
  · rw [hfragments]
    exact h.ne_nil
  · rw [hfragments, hsame.accepted]
    exact h.bufs
  · rw [hsame.fragment]
    exact h.size
  · rw [hsame.fragment, hsame.dumped]
    exact h.first

end Conserves

/-! ## Where fragments start -/

theorem isFragmentHeaderFrame_iff {frag : Fragment} {duration : Rat} :
    isFragmentHeaderFrame frag frame duration = true ↔
      (frame.isVideo = true ∧ frame.isKeyframe = true)
        ∨ duration * 1000 ≤ ((frame.dts - frag.firstDts : Int) : Rat) := by
  simp [isFragmentHeaderFrame, isTimeoutFragment]

/-- A frame is the first of its fragment exactly if it starts one. -/
theorem Conserves.starts_iff (h : s.Conserves) (ht : FrameGoes directory s frame o t) :
    (∃ frag, t.fragment = some frag ∧ frag.frames = [s.accepted.length]) ↔ s.Starts frame o := by
  cases ht with
  | continued frag hfrag hheader hfragment _ _ =>
      have hmem : frag ∈ s.fragments := by
        rw [fragments, hfrag]
        simp
      refine iff_of_false ?_ ?_
      · rintro ⟨x, hx, hframes⟩
        rw [hfragment] at hx
        obtain rfl := Option.some.inj hx
        simp only [withFrame, onData_eq] at hframes
        have hlength := congrArg List.length hframes
        simp at hlength
        exact h.ne_nil frag hmem hlength
      · rintro (hnil | hkey | ⟨x, hx, hlate⟩)
        · rw [h.accepted_eq_nil_iff, hfrag] at hnil
          cases hnil
        · rw [isFragmentHeaderFrame_iff.mpr (.inl hkey)] at hheader
          cases hheader
        · rw [hfrag] at hx
          obtain rfl := Option.mem_some.mp hx
          rw [isFragmentHeaderFrame_iff.mpr (.inr hlate)] at hheader
          cases hheader
  | started id _ hheader hfragment _ _ _ =>
      refine iff_of_true ⟨_, hfragment, by simp [withFrame, onData_eq, freshFragment]⟩ ?_
      cases hfrag : s.fragment with
      | none => exact .inl (h.accepted_eq_nil_iff.mpr hfrag)
      | some frag =>
          rcases isFragmentHeaderFrame_iff.mp (hheader frag hfrag) with hkey | hlate
          · exact .inr (.inl hkey)
          · exact .inr (.inr ⟨frag, hfrag, hlate⟩)

/-! ## Durations -/

/-- Each fragment starts where the one before it was cut. -/
structure Telescopes (s : HlsSession) : Prop where
  chain : s.dumped.IsChain fun a b => b.fragment.firstDts = a.closingDts
  opened : ∀ last ∈ s.dumped.getLast?, ∀ frag ∈ s.fragment, frag.firstDts = last.closingDts
  duration : ∀ d ∈ s.dumped, d.info.duration = d.closingDts - d.fragment.firstDts

namespace Telescopes

theorem media (h : s.Telescopes) (hs : s.Conserves) (ht : FrameGoes directory s frame o t) :
    t.Telescopes := by
  cases ht with
  | continued frag hfrag _ hfragment hdumped _ =>
      refine ⟨hdumped ▸ h.chain, ?_, hdumped ▸ h.duration⟩
      intro last hlast x hx
      rw [hfragment] at hx
      obtain rfl := Option.mem_some.mp hx
      rw [hdumped] at hlast
      rw [← h.opened last hlast frag hfrag]
      simp [withFrame, onData_eq]
  | started id new _ hfragment hnew hdumped _ =>
      rw [hnew] at hdumped
      have hfirst : ∀ x ∈ t.fragment, x.firstDts = frame.dts := by
        intro x hx
        rw [hfragment] at hx
        obtain rfl := Option.mem_some.mp hx
        simp [withFrame, onData_eq, freshFragment]
      cases hfrag : s.fragment with
      | none =>
          rw [hfrag, hs.first hfrag] at hdumped
          have hnil : t.dumped = [] := hdumped
          constructor
          · rw [hnil]
            exact .nil
          · intro last hlast
            rw [hnil] at hlast
            cases hlast
          · intro d hd
            rw [hnil] at hd
            cases hd
      | some frag =>
          rw [hfrag, filter_of_data (hs.size frag hfrag)] at hdumped
          constructor
          · rw [hdumped, List.isChain_append]
            refine ⟨h.chain, List.isChain_singleton _, ?_⟩
            intro last hlast d hd
            obtain rfl := Option.mem_some.mp hd
            exact h.opened last hlast frag hfrag
          · intro last hlast x hx
            rw [hdumped] at hlast
            have hlast : last ∈ (s.dumped ++ [_]).getLast? := hlast
            rw [List.getLast?_concat] at hlast
            obtain rfl := Option.mem_some.mp hlast
            exact hfirst x hx
          · intro d hd
            rw [hdumped] at hd
            rcases List.mem_append.mp hd with hd | hd
            · exact h.duration d hd
            · obtain rfl := List.mem_singleton.mp hd
              rfl

theorem congr (h : s.Telescopes) (hsame : SameFragments s t) : t.Telescopes := by
  constructor
  · rw [hsame.dumped]
    exact h.chain
  · rw [hsame.dumped, hsame.fragment]
    exact h.opened
  · rw [hsame.dumped]
    exact h.duration

/-- The durations of a run of dumped fragments add up. -/
theorem sum_duration (h : s.Telescopes) {run : List DumpedFragment} (hrun : run <:+: s.dumped)
    {first last : DumpedFragment} (hfirst : first ∈ run.head?) (hlast : last ∈ run.getLast?) :
    (run.map fun d => d.info.duration).sum = last.closingDts - first.fragment.firstDts := by
  have hdurations : (run.map fun d => d.info.duration) =
      run.map fun d => d.closingDts - d.fragment.firstDts := by
    refine List.map_congr_left ?_
    intro d hd
    exact h.duration d (hrun.subset hd)
  have hchain := h.chain.infix hrun
  rw [hdurations]
  exact Segments.sum_telescope hchain hfirst hlast

end Telescopes

/-! ## Runs -/

/-- The condition on a step of a run in which all goes well. -/
def GoesWell (converter : TsConverter) (s : HlsSession) (a : HlsCall) : Prop :=
  s.Succeeds converter a ∧ Emits a

instance (converter : TsConverter) (s : HlsSession) : DecidablePred (s.GoesWell converter) :=
  fun a => inferInstanceAs (Decidable (s.Succeeds converter a ∧ Emits a))

theorem conserves_step {a : HlsCall} (h : s.Conserves ∧ s.Telescopes)
    (hwell : s.GoesWell converter a) (ht : step converter directory s a = .ok t) :
    t.Conserves ∧ t.Telescopes := by
  rcases step_cases ht with ⟨frame, o, r, rfl, hcomplete, hr, rfl⟩ | hsame
  · obtain ⟨hgoes, mpegFrame, haccepted⟩ := frame_goes hr hcomplete hwell.1
    exact ⟨h.1.media hgoes haccepted hwell.2, h.2.media h.1 hgoes⟩
  · exact ⟨h.1.congr hsame, h.2.congr hsame⟩

theorem conserves_init :
    (HlsSession.createTracers { nextFragmentId := start } deleteDelay).Conserves where
  partition := rfl
  ne_nil := fun _ hfrag => absurd hfrag List.not_mem_nil
  bufs := fun _ hfrag => absurd hfrag List.not_mem_nil
  size := fun _ hfrag => absurd hfrag (Option.not_mem_none _)
  first := fun _ => rfl

theorem telescopes_init :
    (HlsSession.createTracers { nextFragmentId := start } deleteDelay).Telescopes where
  chain := .nil
  opened := fun _ hlast => absurd hlast (Option.not_mem_none _)
  duration := fun _ hd => absurd hd List.not_mem_nil

theorem conserves_of_reachable
    (hreach : ((hlsSession converter directory start deleteDelay).restrict
      (GoesWell converter)).Reachable s) : s.Conserves ∧ s.Telescopes := by
  refine hreach.invariant (P := fun s => s.Conserves ∧ s.Telescopes)
    ⟨conserves_init, telescopes_init⟩ ?_
  intro s a t h henabled hstep
  exact conserves_step h henabled.2 hstep

/-- In a run in which all goes well, the fragments have the packets of the accepted frames in
    order, each frame is in exactly one fragment, fragments start where they should, and the
    durations of dumped fragments add up. -/
theorem fragments_conserve
    (hreach : ((hlsSession converter directory start deleteDelay).restrict
      (GoesWell converter)).Reachable s) :
    (s.dumped.flatMap fun d => d.fragment.bufs.flatten)
        ++ (s.fragment.toList.flatMap fun frag => frag.bufs.flatten) =
      (s.accepted.flatMap fun frame => frame.packets.flatten)
    ∧ ((s.fragments.flatMap fun frag => frag.frames) = List.range s.accepted.length
      ∧ ∀ frag ∈ s.fragments, frag.bufs = frag.frames.flatMap (packetsOf s.accepted))
    ∧ (∀ frame o t, s.impl.isComplete = false → s.GoesWell converter (.write (.media frame) o) →
        step converter directory s (.write (.media frame) o) = .ok t →
        ((∃ frag, t.fragment = some frag ∧ frag.frames = [s.accepted.length])
          ↔ s.Starts frame o))
    ∧ ∀ run, run <:+: s.dumped → ∀ first ∈ run.head?, ∀ last ∈ run.getLast?,
        (run.map fun d => d.info.duration).sum = last.closingDts - first.fragment.firstDts := by
  obtain ⟨hconserves, htelescopes⟩ := conserves_of_reachable hreach
  have hframes : (s.fragments.flatMap fun frag => frag.frames) = List.range s.accepted.length :=
    hconserves.partition
  refine ⟨?_, ⟨hframes, hconserves.bufs⟩, ?_, ?_⟩
  · have hbufs : (s.fragments.flatMap fun frag => frag.bufs) =
        s.accepted.flatMap fun frame => dataOf frame.packets := by
      rw [← flatMap_packetsOf, ← hframes, List.flatMap_assoc]
      exact List.flatMap_congr hconserves.bufs
    have hflatten := congrArg List.flatten hbufs
    simpa [fragments, List.flatMap_append, flatten_flatMap, flatten_dataOf, List.flatMap_map]
      using hflatten
  · intro frame o t hcomplete hwell ht
    cases ht
    rw [doWriteFrame_media converter directory frame o hcomplete]
    have hends := handleFrame_ends converter directory frame o hcomplete
    exact hconserves.starts_iff (frame_goes hends hcomplete hwell.1).1
  · intro run hrun first hfirst last hlast
    exact htelescopes.sum_duration hrun hfirst hlast

/-- Three keyframes: two fragments are dumped, which last two seconds. -/
theorem fragments_conserve_keyframes :
    ∃ s : HlsSession, s.dumped.length = 2 ∧ s.accepted.length = 3
      ∧ ((s.fragments.flatMap fun frag => frag.frames) = List.range s.accepted.length
        ∧ ∀ frag ∈ s.fragments, frag.bufs = frag.frames.flatMap (packetsOf s.accepted)) := by
  obtain ⟨s, hreach, hs⟩ := Machine.reachable_of_runs
    (M := (hlsSession singleNalUnit "d".toList 0 true).restrict (GoesWell singleNalUnit))
    (p := fun s => s.dumped.length = 2 ∧ s.accepted.length = 3)
    [.write (.metadata (avcMp3 0x42)) {}, .write (.media (slice true 0)) {},
      .write (.media (slice true 1000)) {}, .write (.media (slice true 2000)) {}]
    (by decide +kernel)
  obtain ⟨hdumped, haccepted⟩ := of_decide_eq_true hs
  exact ⟨s, hdumped, haccepted, (fragments_conserve hreach).2.1⟩

end HlsSession

end SeastarLive
