/-
SeastarLive.Hls.Playlist — which fragments stay in the playlist of an HLS player.

`add_play_item`, `out_of_gop_duration`, `find_second_key_frame_play_item` and
`remove_first_gop_play_items` of `src/session/hls/play_session.cc`.

* An item is a pointer. Every call is given a new object (`make_fragment_info`
  of `src/session/hls/play_session_v3.cc`), so `address` numbers the objects in
  the order in which they are added.
* Of the object only what decides about eviction is kept. The tracers are told
  of every item added and removed; here they succeed.
* The settings are read anew for each item, so the limit is an argument of the
  call; `hls_ts_max_fragments` is not negative here. `float` values are exact
  rationals.
-/
import Mathlib.Data.List.DropRight
import Mathlib.Data.List.Nodup
import Mathlib.Data.Rat.Defs
import SeastarLive.Lib.Transition

namespace SeastarLive

/-- A pointer to a `fragment_info`; times are in milliseconds. -/
structure FragmentInfo where
  address : Nat
  pts : Int
  duration : Int
  startByKeyframe : Bool
deriving DecidableEq

namespace Hls

/-- The loop of `find_second_key_frame_play_item`; `first` is what it has found so far. -/
def findKeyFrameAfter (first : Option FragmentInfo) : List FragmentInfo → Option FragmentInfo
  | [] => none
  | item :: rest =>
      if !item.startByKeyframe then findKeyFrameAfter first rest
      else if first.isSome then some item
      else findKeyFrameAfter (some item) rest

/-- `find_second_key_frame_play_item`. -/
def findSecondKeyFrame (playlist : List FragmentInfo) : Option FragmentInfo :=
  findKeyFrameAfter none playlist

/-- `out_of_gop_duration`. -/
def outOfGopDuration (maxFragments : Nat) (playlist : List FragmentInfo) (pts : Int)
    (minDuration : Rat) : Bool :=
  if playlist.length ≤ 1 then false
  else if maxFragments < playlist.length then true
  else
    match findSecondKeyFrame playlist with
    | none => false
    | some ski => decide (minDuration * 1000 < ((pts - ski.pts : Int) : Rat))

/-- `remove_first_gop_play_items`: up to the next item that starts by a keyframe. -/
def removeFirstGop : List FragmentInfo → List FragmentInfo
  | [] => []
  | first :: rest =>
      (first :: rest).dropWhile fun item =>
        !(item.startByKeyframe && decide (item.address ≠ first.address))

theorem removeFirstGop_cons (first : FragmentInfo) (rest : List FragmentInfo) :
    removeFirstGop (first :: rest) = rest.dropWhile fun item =>
      !(item.startByKeyframe && decide (item.address ≠ first.address)) := by
  simp [removeFirstGop]

theorem removeFirstGop_length_lt {playlist : List FragmentInfo} (h : playlist ≠ []) :
    (removeFirstGop playlist).length < playlist.length := by
  cases playlist with
  | nil => exact absurd rfl h
  | cons first rest =>
      rw [removeFirstGop_cons, List.length_cons]
      exact Nat.lt_succ_of_le (List.dropWhile_suffix _).length_le

theorem ne_nil_of_out {maxFragments : Nat} {playlist : List FragmentInfo} {pts : Int}
    {minDuration : Rat} (h : outOfGopDuration maxFragments playlist pts minDuration = true) :
    playlist ≠ [] := by
  rintro rfl
  cases h

/-- The `do_until` of `add_play_item`. -/
def evict (maxFragments : Nat) (pts : Int) (minDuration : Rat) (playlist : List FragmentInfo) :
    List FragmentInfo :=
  if _h : outOfGopDuration maxFragments playlist pts minDuration = true then
    evict maxFragments pts minDuration (removeFirstGop playlist)
  else playlist
termination_by playlist.length
decreasing_by exact removeFirstGop_length_lt (ne_nil_of_out _h)

/-- `add_play_item`. -/
def addPlayItem (maxFragments : Nat) (playlist : List FragmentInfo) (item : FragmentInfo)
    (minDuration : Rat) : List FragmentInfo :=
  evict maxFragments (item.pts + item.duration) minDuration (playlist ++ [item])

end Hls

/-! ## The machine -/

/-- The playlist of a player and the number of fragments made so far. -/
structure HlsPlayer where
  playlist : List FragmentInfo := []
  made : Nat := 0

/-- What a fragment and the settings at its time are. -/
structure AddPlayItem where
  pts : Int
  duration : Int
  startByKeyframe : Bool
  minDuration : Rat
  maxFragments : Nat
deriving DecidableEq

namespace HlsPlayer

/-- The object that `make_fragment_info` makes. -/
def makeFragmentInfo (w : HlsPlayer) (a : AddPlayItem) : FragmentInfo :=
  ⟨w.made, a.pts, a.duration, a.startByKeyframe⟩

def step (w : HlsPlayer) (a : AddPlayItem) : Except Empty HlsPlayer :=
  .ok {
    playlist := Hls.addPlayItem a.maxFragments w.playlist (w.makeFragmentInfo a) a.minDuration
    made := w.made + 1 }

end HlsPlayer

/-- An HLS player that adds fragments, whatever they are. -/
def hlsPlayer : Machine HlsPlayer AddPlayItem Empty where
  init := {}
  enabled _ _ := True
  step := HlsPlayer.step

instance (w : HlsPlayer) (a : AddPlayItem) : Decidable (hlsPlayer.enabled w a) :=
  inferInstanceAs (Decidable True)

namespace Hls

/-! ## The end of a list -/

section Rtake

variable {β : Type} {l q : List β} {n : Nat}

theorem rtake_of_suffix (h : q <:+ l) (hn : n ≤ q.length) : l.rtake n = q.rtake n := by
  obtain ⟨a, rfl⟩ := h
  have hlength : (a ++ q).length - n = a.length + (q.length - n) := by
    rw [List.length_append]
    omega
  rw [List.rtake, List.rtake, hlength, List.drop_append, List.drop_eq_nil_of_le (by omega),
    List.nil_append, Nat.add_sub_cancel_left]

theorem suffix_rtake (h : q <:+ l) (hn : q.length ≤ n) : q <:+ l.rtake n := by
  obtain ⟨a, rfl⟩ := h
  have hle : (a ++ q).length - n ≤ a.length := by
    rw [List.length_append]
    omega
  rw [List.rtake, List.drop_append_of_le_length hle]
  exact List.suffix_append _ q

theorem rtake_subset_tail (x : β) (hn : n ≤ l.length) : (x :: l).rtake n ⊆ l := by
  rw [rtake_of_suffix (List.suffix_cons x l) hn]
  exact (List.drop_suffix _ l).subset

end Rtake

/-! ## One eviction -/

/-- What the search finds is an item of the list that starts by a keyframe. -/
theorem findKeyFrameAfter_mem {first : Option FragmentInfo} {items : List FragmentInfo}
    {ski : FragmentInfo} (h : findKeyFrameAfter first items = some ski) :
    ski ∈ items ∧ ski.startByKeyframe = true := by
  induction items generalizing first with
  | nil => cases h
  | cons item rest ih =>
      by_cases hkey : item.startByKeyframe = true
      · rw [findKeyFrameAfter, if_neg (by simp [hkey])] at h
        split at h
        · cases h
          exact ⟨List.mem_cons_self, hkey⟩
        · exact ⟨List.mem_cons_of_mem item (ih h).1, (ih h).2⟩
      · rw [findKeyFrameAfter, if_pos (by simpa using hkey)] at h
        exact ⟨List.mem_cons_of_mem item (ih h).1, (ih h).2⟩

/-- A second keyframe is behind the first item. -/
theorem findSecondKeyFrame_mem {first ski : FragmentInfo} {rest : List FragmentInfo}
    (h : findSecondKeyFrame (first :: rest) = some ski) :
    ski ∈ rest ∧ ski.startByKeyframe = true := by
  rw [findSecondKeyFrame, findKeyFrameAfter] at h
  split at h
  · exact findKeyFrameAfter_mem h
  · rw [Option.isSome_none, if_neg Bool.false_ne_true] at h
    exact findKeyFrameAfter_mem h

section Out

variable {maxFragments : Nat} {pts : Int} {minDuration : Rat} {playlist : List FragmentInfo}

/-- A playlist that is not out of its duration is short enough. -/
theorem length_le_of_not_out (hmax : 1 ≤ maxFragments)
    (h : ¬ outOfGopDuration maxFragments playlist pts minDuration = true) :
    playlist.length ≤ maxFragments := by
  by_contra hlong
  apply h
  rw [outOfGopDuration, if_neg (by omega), if_pos (by omega)]

/-- A playlist that is out of its duration is too long or has a keyframe behind its front. -/
theorem long_or_key_of_out {first : FragmentInfo} {rest : List FragmentInfo}
    (h : outOfGopDuration maxFragments (first :: rest) pts minDuration = true) :
    maxFragments < (first :: rest).length ∨ ∃ item ∈ rest, item.startByKeyframe = true := by
  unfold outOfGopDuration at h
  split at h
  · cases h
  · split at h
    · exact .inl ‹_›
    · split at h
      · cases h
      · exact .inr ⟨_, findSecondKeyFrame_mem ‹_›⟩

end Out

/-- The items of a playlist are different objects. -/
def Distinct (playlist : List FragmentInfo) : Prop :=
  (playlist.map FragmentInfo.address).Nodup

theorem Distinct.suffix {playlist q : List FragmentInfo} (h : Distinct playlist)
    (hq : q <:+ playlist) : Distinct q := h.sublist (hq.sublist.map _)

theorem removeFirstGop_suffix (first : FragmentInfo) (rest : List FragmentInfo) :
    removeFirstGop (first :: rest) <:+ rest := by
  rw [removeFirstGop_cons]
  exact List.dropWhile_suffix _

/-- The first group is removed: nothing is left, or what starts by the next keyframe. -/
theorem removeFirstGop_cases {first : FragmentInfo} {rest : List FragmentInfo}
    (h : Distinct (first :: rest)) :
    removeFirstGop (first :: rest) = [] ∧ (∀ item ∈ rest, item.startByKeyframe = false)
      ∨ ∃ item tail, removeFirstGop (first :: rest) = item :: tail
        ∧ item.startByKeyframe = true := by
  rw [removeFirstGop_cons]
  cases hleft : rest.dropWhile fun item =>
      !(item.startByKeyframe && decide (item.address ≠ first.address)) with
  | nil =>
      refine .inl ⟨rfl, fun item hitem => ?_⟩
      have hne : item.address ≠ first.address := by
        intro heq
        exact (List.nodup_cons.mp h).1 (heq ▸ List.mem_map_of_mem hitem)
      have hdropped := List.dropWhile_eq_nil_iff.mp hleft item hitem
      simpa [hne] using hdropped
  | cons item tail =>
      refine .inr ⟨item, tail, rfl, ?_⟩
      have hkept := List.head?_dropWhile_not (fun item =>
        !(item.startByKeyframe && decide (item.address ≠ first.address))) rest
      rw [hleft] at hkept
      have hboth : (item.startByKeyframe && decide (item.address ≠ first.address)) = true := by
        simpa using hkept
      exact ((Bool.and_eq_true _ _).mp hboth).1

/-! ## All evictions of a call -/

section Evict

variable {maxFragments : Nat} {pts : Int} {minDuration : Rat}

theorem evict_suffix (playlist : List FragmentInfo) :
    evict maxFragments pts minDuration playlist <:+ playlist := by
  induction playlist using evict.induct maxFragments pts minDuration with
  | case1 playlist hout ih =>
      rw [evict, dif_pos hout]
      cases playlist with
      | nil => exact ih
      | cons first rest =>
          exact (ih.trans (removeFirstGop_suffix first rest)).trans (List.suffix_cons first rest)
  | case2 playlist hnot =>
      have hkept : evict maxFragments pts minDuration playlist = playlist := by
        rw [evict, dif_neg hnot]
      exact ⟨[], hkept⟩

theorem evict_length_le (hmax : 1 ≤ maxFragments) (playlist : List FragmentInfo) :
    (evict maxFragments pts minDuration playlist).length ≤ maxFragments := by
  induction playlist using evict.induct maxFragments pts minDuration with
  | case1 playlist hout ih =>
      rw [evict, dif_pos hout]
      exact ih
  | case2 playlist hnot =>
      rw [evict, dif_neg hnot]
      exact length_le_of_not_out hmax hnot

theorem evict_nil : evict maxFragments pts minDuration [] = [] := by
  rw [evict, dif_neg nofun]

/-- A playlist that starts by a keyframe has one among its last items, if it is no longer
    than they are; what was in front of it does not matter. -/
theorem key_in_rtake_iff {playlist q : List FragmentInfo} (hq : q <:+ playlist)
    {item : FragmentInfo} {tail : List FragmentInfo} (hitem : q = item :: tail)
    (hkey : item.startByKeyframe = true) (hlong : maxFragments < playlist.length) :
    (q.length ≤ maxFragments ∨ ∃ k ∈ q.rtake maxFragments, k.startByKeyframe = true)
      ↔ playlist.length ≤ maxFragments
        ∨ ∃ k ∈ playlist.rtake maxFragments, k.startByKeyframe = true := by
  have hnot : ¬ playlist.length ≤ maxFragments := by omega
  by_cases hle : q.length ≤ maxFragments
  · have hmem : item ∈ playlist.rtake maxFragments :=
      (suffix_rtake hq hle).subset (hitem ▸ List.mem_cons_self)
    exact iff_of_true (.inl hle) (.inr ⟨item, hmem, hkey⟩)
  · rw [rtake_of_suffix hq (by omega)]
    simp only [hle, hnot]

theorem evict_ne_nil_iff {playlist : List FragmentInfo} (hne : playlist ≠ [])
    (hmax : 1 ≤ maxFragments) (hdistinct : Distinct playlist) :
    evict maxFragments pts minDuration playlist ≠ []
      ↔ playlist.length ≤ maxFragments
        ∨ ∃ item ∈ playlist.rtake maxFragments, item.startByKeyframe = true := by
  induction playlist using evict.induct maxFragments pts minDuration with
  | case1 playlist hout ih =>
      rw [evict, dif_pos hout]
      cases playlist with
      | nil => exact absurd rfl hne
      | cons first rest =>
          have hsuffix : removeFirstGop (first :: rest) <:+ first :: rest :=
            (removeFirstGop_suffix first rest).trans (List.suffix_cons first rest)
          rcases removeFirstGop_cases hdistinct with ⟨hnil, hnone⟩ | ⟨item, tail, hleft, hkey⟩
          · -- no keyframe is left, and the playlist was too long
            have hlong : maxFragments < (first :: rest).length := by
              rcases long_or_key_of_out hout with hlong | ⟨k, hk, hkey⟩
              · exact hlong
              · cases (hnone k hk).symm.trans hkey
            rw [hnil, evict_nil]
            refine iff_of_false (fun h => h rfl) ?_
            rintro (hshort | ⟨k, hk, hkey⟩)
            · omega
            · have hk' := rtake_subset_tail first (Nat.lt_succ_iff.mp hlong) hk
              cases (hnone k hk').symm.trans hkey
          · have hleft' : removeFirstGop (first :: rest) ≠ [] := by
              rw [hleft]
              exact List.cons_ne_nil item tail
            rw [ih hleft' (hdistinct.suffix hsuffix)]
            by_cases hlong : maxFragments < (first :: rest).length
            · exact key_in_rtake_iff hsuffix hleft hkey hlong
            · have hshorter := removeFirstGop_length_lt hne
              exact iff_of_true (.inl (by omega)) (.inl (by omega))
  | case2 playlist hnot =>
      rw [evict, dif_neg hnot]
      exact iff_of_true hne (.inl (length_le_of_not_out hmax hnot))

end Evict

end Hls

/-! ## Runs -/

/-- The fragments of a playlist are different objects, made before the next one. -/
structure HlsPlayer.Inv (w : HlsPlayer) : Prop where
  distinct : Hls.Distinct w.playlist
  made : ∀ item ∈ w.playlist, item.address < w.made

theorem HlsPlayer.Inv.pushBack {w : HlsPlayer} (h : w.Inv) (a : AddPlayItem) :
    Hls.Distinct (w.playlist ++ [w.makeFragmentInfo a]) := by
  rw [Hls.Distinct, List.map_append, List.map_singleton, ← List.concat_eq_append,
    List.nodup_concat]
  refine ⟨fun hmem => ?_, h.distinct⟩
  obtain ⟨item, hitem, haddress⟩ := List.mem_map.mp hmem
  have hlt := h.made item hitem
  have hnew : item.address = w.made := haddress
  omega

theorem HlsPlayer.Inv.step {w t : HlsPlayer} {a : AddPlayItem} (h : w.Inv)
    (hrun : w.step a = .ok t) : t.Inv := by
  cases hrun
  have hsuffix : Hls.addPlayItem a.maxFragments w.playlist (w.makeFragmentInfo a) a.minDuration
      <:+ w.playlist ++ [w.makeFragmentInfo a] := Hls.evict_suffix _
  refine ⟨(h.pushBack a).suffix hsuffix, fun item hitem => ?_⟩
  rcases List.mem_append.mp (hsuffix.subset hitem) with hold | hnew
  · exact Nat.lt_succ_of_lt (h.made item hold)
  · rw [List.mem_singleton.mp hnew]
    exact Nat.lt_succ_self w.made

theorem hlsPlayer_inv {w : HlsPlayer} (hw : hlsPlayer.Reachable w) : w.Inv :=
  hw.invariant ⟨List.nodup_nil, nofun⟩ fun _ _ _ h _ hrun => h.step hrun

/-- The playlist `new` is a non-empty end of the old one with the item, within the limit. -/
structure KeepsNewest (maxFragments : Nat) (old : List FragmentInfo) (item : FragmentInfo)
    (new : List FragmentInfo) : Prop where
  ne_nil : new ≠ []
  suffix : new <:+ old ++ [item]
  mem : item ∈ new
  length_le : new.length ≤ maxFragments

/-- In any playlist that a player reaches, adding any item keeps the newest fragments if and
    only if the playlist with the item is within the limit, or one of its last items, as many
    as the limit allows, starts by a keyframe. -/
theorem playlist_keeps_newest_iff {w : HlsPlayer} (hw : hlsPlayer.Reachable w) (a : AddPlayItem)
    (hmax : 1 ≤ a.maxFragments) :
    KeepsNewest a.maxFragments w.playlist (w.makeFragmentInfo a)
        (Hls.addPlayItem a.maxFragments w.playlist (w.makeFragmentInfo a) a.minDuration)
      ↔ (w.playlist ++ [w.makeFragmentInfo a]).length ≤ a.maxFragments
        ∨ ∃ item ∈ (w.playlist ++ [w.makeFragmentInfo a]).rtake a.maxFragments,
            item.startByKeyframe = true := by
  have hne : w.playlist ++ [w.makeFragmentInfo a] ≠ [] := by simp
  have hsuffix : Hls.addPlayItem a.maxFragments w.playlist (w.makeFragmentInfo a) a.minDuration
      <:+ w.playlist ++ [w.makeFragmentInfo a] := Hls.evict_suffix _
  have hleft : Hls.addPlayItem a.maxFragments w.playlist (w.makeFragmentInfo a) a.minDuration ≠ []
      ↔ _ := Hls.evict_ne_nil_iff hne hmax ((hlsPlayer_inv hw).pushBack a)
  rw [← hleft]
  constructor
  · exact KeepsNewest.ne_nil
  · intro hnew
    refine ⟨hnew, hsuffix, ?_, Hls.evict_length_le hmax _⟩
    have hlast := hsuffix.getLast hnew
    rw [List.getLast_concat] at hlast
    have hmem := List.getLast_mem hnew
    rwa [hlast] at hmem

/-- Three fragments that start by a keyframe, and room for two. -/
theorem playlist_keeps_newest_keyframe :
    ∃ w, hlsPlayer.Reachable w ∧ w.playlist.length = 2
      ∧ KeepsNewest 2 w.playlist ⟨w.made, 8000, 4000, true⟩
          (Hls.addPlayItem 2 w.playlist ⟨w.made, 8000, 4000, true⟩ 6) := by
  obtain ⟨w, hw, hlength⟩ := Machine.reachable_of_runs (M := hlsPlayer)
    (p := fun w => decide (w.playlist.length = 2))
    [⟨0, 4000, true, 6, 2⟩, ⟨4000, 4000, true, 6, 2⟩] (by decide +kernel)
  refine ⟨w, hw, of_decide_eq_true hlength, ?_⟩
  refine (playlist_keeps_newest_iff hw ⟨8000, 4000, true, 6, 2⟩ (by decide)).mpr (.inr ?_)
  refine ⟨⟨w.made, 8000, 4000, true⟩, ?_, rfl⟩
  change _ ∈ (w.playlist ++ [_]).rtake 2
  rw [List.rtake_concat_succ]
  exact List.mem_append_right _ (List.mem_singleton_self _)

/-- Audio only, and room for one fragment: the second one is removed with the first. -/
theorem playlist_empties :
    ¬ ∀ w, hlsPlayer.Reachable w → ∀ a : AddPlayItem, 1 ≤ a.maxFragments →
      KeepsNewest a.maxFragments w.playlist (w.makeFragmentInfo a)
        (Hls.addPlayItem a.maxFragments w.playlist (w.makeFragmentInfo a) a.minDuration) := by
  intro hall
  obtain ⟨w, hw, hempty⟩ := Machine.reachable_of_runs (M := hlsPlayer)
    (p := fun w => decide (Hls.addPlayItem 1 w.playlist
      (w.makeFragmentInfo ⟨4000, 4000, false, 6, 1⟩) 6 = []))
    [⟨0, 4000, false, 6, 1⟩] (by decide +kernel)
  exact (hall w hw ⟨4000, 4000, false, 6, 1⟩ (by decide)).ne_nil (of_decide_eq_true hempty)

end SeastarLive
