/-
SeastarLive.Hls.PlaylistRetention — how far back the playlist of an HLS player goes.

The `do_until` of `add_play_item` turn by turn, with what it tells the tracers:
`remove_first_gop_play_items` calls `on_remove_playitem` for every item it
erases (`src/session/hls/play_session.cc`).

* `_playlist` has the new item in it when the loop runs.
* The test looks at the second item that starts by a keyframe, and the removal
  stops at the first one that is not the front. They are the same item where the
  front starts by a keyframe, and else the one removed up to is the earlier.
-/
import Mathlib.Algebra.Order.Ring.Rat
import SeastarLive.Hls.Playlist
import SeastarLive.Lib.Loop

namespace SeastarLive

namespace Hls

/-! ## The loop -/

/-- `_playlist`, and the items `on_remove_playitem` was called with so far. -/
structure Eviction where
  playlist : List FragmentInfo
  removed : List FragmentInfo := []
deriving DecidableEq

/-- What `remove_first_gop_play_items` erases. -/
def firstGop : List FragmentInfo → List FragmentInfo
  | [] => []
  | first :: rest =>
      (first :: rest).takeWhile fun item =>
        !(item.startByKeyframe && decide (item.address ≠ first.address))

/-- The `do_until` of `add_play_item`. -/
def evictBody (maxFragments : Nat) (pts : Int) (minDuration : Rat) (e : Eviction) :
    Eviction ⊕ Eviction :=
  if outOfGopDuration maxFragments e.playlist pts minDuration then
    .inl ⟨removeFirstGop e.playlist, e.removed ++ firstGop e.playlist⟩
  else .inr e

theorem firstGop_append (playlist : List FragmentInfo) :
    firstGop playlist ++ removeFirstGop playlist = playlist := by
  cases playlist with
  | nil => rfl
  | cons first rest => exact List.takeWhile_append_dropWhile

section Body

variable {maxFragments : Nat} {pts : Int} {minDuration : Rat} {e e' : Eviction}

theorem evictBody_again (h : evictBody maxFragments pts minDuration e = .inl e') :
    outOfGopDuration maxFragments e.playlist pts minDuration = true
      ∧ e' = ⟨removeFirstGop e.playlist, e.removed ++ firstGop e.playlist⟩ := by
  unfold evictBody at h
  split at h
  · cases h
    exact ⟨‹_›, rfl⟩
  · cases h

theorem evictBody_left (h : evictBody maxFragments pts minDuration e = .inr e') :
    ¬ outOfGopDuration maxFragments e.playlist pts minDuration = true ∧ e' = e := by
  unfold evictBody at h
  split at h
  · cases h
  · cases h
    exact ⟨‹_›, rfl⟩

/-- In every turn, what was reported is what is gone from the front. -/
theorem turns_removed {playlist : List FragmentInfo}
    (h : Turns (evictBody maxFragments pts minDuration) ⟨playlist, []⟩ e) :
    e.removed ++ e.playlist = playlist := by
  refine h.invariant (P := fun e => e.removed ++ e.playlist = playlist) ?_ rfl
  intro t u ht hbody
  obtain ⟨_, rfl⟩ := evictBody_again hbody
  show (t.removed ++ firstGop t.playlist) ++ removeFirstGop t.playlist = playlist
  rw [List.append_assoc, firstGop_append, ht]

theorem evict_leaves (playlist : List FragmentInfo) :
    ∃ e, Leaves (evictBody maxFragments pts minDuration) ⟨playlist, []⟩ e := by
  refine exists_leaves (P := fun _ => True) (fun e => e.playlist.length) ?_ trivial
  intro t u _ hbody
  obtain ⟨hout, rfl⟩ := evictBody_again hbody
  exact ⟨trivial, removeFirstGop_length_lt (ne_nil_of_out hout)⟩

/-- The loop leaves the playlist that `evict` computes. -/
theorem leaves_playlist {playlist : List FragmentInfo}
    (h : Leaves (evictBody maxFragments pts minDuration) ⟨playlist, []⟩ e) :
    e.playlist = evict maxFragments pts minDuration playlist := by
  obtain ⟨t, ht, hbody⟩ := h.turns
  obtain ⟨hnot, rfl⟩ := evictBody_left hbody
  have hsame : evict maxFragments pts minDuration e.playlist
      = evict maxFragments pts minDuration playlist := by
    refine ht.invariant (P := fun e => evict maxFragments pts minDuration e.playlist
      = evict maxFragments pts minDuration playlist) ?_ rfl
    intro t u ht hbody
    obtain ⟨hout, rfl⟩ := evictBody_again hbody
    rw [← ht, evict.eq_def _ _ _ t.playlist, dif_pos hout]
  rw [← hsame, evict, dif_neg hnot]

end Body

/-! ## Keyframes in order -/

/-- The items that start by a keyframe. -/
def keyframes (playlist : List FragmentInfo) : List FragmentInfo :=
  playlist.filter FragmentInfo.startByKeyframe

/-- They are in the order of their `pts`. -/
def KeysInOrder (playlist : List FragmentInfo) : Prop :=
  (keyframes playlist).Pairwise fun a b => a.pts ≤ b.pts

theorem KeysInOrder.suffix {playlist q : List FragmentInfo} (h : KeysInOrder playlist)
    (hq : q <:+ playlist) : KeysInOrder q := h.sublist (hq.sublist.filter _)

theorem findKeyFrameAfter_eq (playlist : List FragmentInfo) :
    findKeyFrameAfter none playlist = (keyframes playlist)[1]?
      ∧ ∀ first, findKeyFrameAfter (some first) playlist = (keyframes playlist)[0]? := by
  induction playlist with
  | nil => exact ⟨rfl, fun _ => rfl⟩
  | cons item rest ih =>
      obtain ⟨hnone, hsome⟩ := ih
      by_cases hkey : item.startByKeyframe = true
      · simp [findKeyFrameAfter, keyframes, hkey, hsome]
      · simp [findKeyFrameAfter, keyframes, hkey, hnone, hsome]

/-- `find_second_key_frame_play_item` finds the second of them. -/
theorem findSecondKeyFrame_eq (playlist : List FragmentInfo) :
    findSecondKeyFrame playlist = (keyframes playlist)[1]? := (findKeyFrameAfter_eq playlist).1

/-! ## One turn -/

section Turn

variable {maxFragments : Nat} {pts : Int} {minDuration : Rat}

/-- A playlist that is short enough is out of its duration by its second keyframe. -/
theorem second_of_out {playlist : List FragmentInfo} (hlength : playlist.length ≤ maxFragments)
    (h : outOfGopDuration maxFragments playlist pts minDuration = true) :
    ∃ ski, findSecondKeyFrame playlist = some ski
      ∧ minDuration * 1000 < ((pts - ski.pts : Int) : Rat) := by
  unfold outOfGopDuration at h
  split at h
  · cases h
  · rw [if_neg (Nat.not_lt.mpr hlength)] at h
    split at h
    · cases h
    · exact ⟨_, ‹_›, of_decide_eq_true h⟩

/-- The second keyframe is not erased with the first group. -/
theorem mem_removeFirstGop {first : FragmentInfo} {rest : List FragmentInfo}
    (hdistinct : Distinct (first :: rest)) {ski : FragmentInfo} (hmem : ski ∈ rest)
    (hkey : ski.startByKeyframe = true) : ski ∈ removeFirstGop (first :: rest) := by
  have hne : ski.address ≠ first.address := by
    intro heq
    exact (List.nodup_cons.mp hdistinct).1 (heq ▸ List.mem_map_of_mem hmem)
  have hsplit := firstGop_append (first :: rest)
  rcases List.mem_append.mp (hsplit ▸ List.mem_cons_of_mem first hmem) with hgone | hleft
  · have herased := List.mem_takeWhile_imp hgone
    simp [hkey, hne] at herased
  · exact hleft

/-- After a turn the playlist starts by a keyframe that is out of the duration itself. -/
theorem starts_of_out {playlist : List FragmentInfo} (hdistinct : Distinct playlist)
    (hkeys : KeysInOrder playlist) (hlength : playlist.length ≤ maxFragments)
    (h : outOfGopDuration maxFragments playlist pts minDuration = true) :
    ∃ item tail, removeFirstGop playlist = item :: tail ∧ item.startByKeyframe = true
      ∧ minDuration * 1000 < ((pts - item.pts : Int) : Rat) := by
  obtain ⟨ski, hski, hout⟩ := second_of_out hlength h
  cases playlist with
  | nil => cases hski
  | cons first rest =>
      obtain ⟨hmem, hkey⟩ := findSecondKeyFrame_mem hski
      have hleft := mem_removeFirstGop hdistinct hmem hkey
      rcases removeFirstGop_cases hdistinct with ⟨hnil, _⟩ | ⟨item, tail, hcons, hitem⟩
      · rw [hnil] at hleft
        cases hleft
      · refine ⟨item, tail, hcons, hitem, ?_⟩
        have hsuffix : item :: tail <:+ first :: rest :=
          hcons ▸ (removeFirstGop_suffix first rest).trans (List.suffix_cons first rest)
        have horder := hkeys.suffix hsuffix
        rw [KeysInOrder, keyframes, List.filter_cons_of_pos hitem, List.pairwise_cons] at horder
        -- the item removed up to is the second keyframe or an earlier one
        have hle : item.pts ≤ ski.pts := by
          rw [hcons] at hleft
          rcases List.mem_cons.mp hleft with rfl | htail
          · exact Int.le_refl _
          · exact horder.1 ski (List.mem_filter.mpr ⟨htail, hkey⟩)
        refine lt_of_lt_of_le hout ?_
        exact_mod_cast Int.sub_le_sub_left hle pts

end Turn

/-! ## All turns of a call -/

/-- What the loop of `add_play_item` does to `playlist`, whose last item ends at `pts`. -/
structure Retains (maxFragments : Nat) (pts : Int) (minDuration : Rat)
    (playlist : List FragmentInfo) : Prop where
  /-- The loop ends. -/
  ends : ∃ e, Leaves (evictBody maxFragments pts minDuration) ⟨playlist, []⟩ e
  /-- The items reported are those that are gone from the front, in order. -/
  front : ∀ e, Turns (evictBody maxFragments pts minDuration) ⟨playlist, []⟩ e →
    e.removed ++ e.playlist = playlist
  /-- No item is reported twice. -/
  once : ∀ e, Turns (evictBody maxFragments pts minDuration) ⟨playlist, []⟩ e → e.removed.Nodup
  /-- Each turn leaves a playlist that starts by a keyframe out of the duration. -/
  starts : ∀ e e', Turns (evictBody maxFragments pts minDuration) ⟨playlist, []⟩ e →
    evictBody maxFragments pts minDuration e = .inl e' →
    ∃ item tail, e'.playlist = item :: tail ∧ item.startByKeyframe = true
      ∧ minDuration * 1000 < ((pts - item.pts : Int) : Rat)
  /-- At the end there is one item, one keyframe or a second keyframe within the duration. -/
  exit : ∀ e, Leaves (evictBody maxFragments pts minDuration) ⟨playlist, []⟩ e →
    e.playlist.length ≤ 1 ∨ (keyframes e.playlist).length < 2
      ∨ ∃ k, (keyframes e.playlist)[1]? = some k
          ∧ ((pts - k.pts : Int) : Rat) ≤ minDuration * 1000

/-- A short enough playlist that is not out of its duration. -/
theorem within_of_not_out {maxFragments : Nat} {pts : Int} {minDuration : Rat}
    {playlist : List FragmentInfo}
    (h : ¬ outOfGopDuration maxFragments playlist pts minDuration = true) :
    playlist.length ≤ 1 ∨ (keyframes playlist).length < 2
      ∨ ∃ k, (keyframes playlist)[1]? = some k
          ∧ ((pts - k.pts : Int) : Rat) ≤ minDuration * 1000 := by
  by_cases hone : playlist.length ≤ 1
  · exact .inl hone
  · refine .inr ?_
    cases hsecond : (keyframes playlist)[1]? with
    | none => exact .inl (Nat.lt_succ_of_le (List.getElem?_eq_none_iff.mp hsecond))
    | some k =>
        refine .inr ⟨k, rfl, ?_⟩
        by_contra hout
        apply h
        unfold outOfGopDuration
        rw [if_neg hone]
        split
        · rfl
        · rw [findSecondKeyFrame_eq, hsecond]
          exact decide_eq_true (not_le.mp hout)

/-- The loop on a playlist of different objects that is short enough and has its keyframes
    in order. -/
theorem retains {maxFragments : Nat} {playlist : List FragmentInfo}
    (hdistinct : Distinct playlist) (hkeys : KeysInOrder playlist)
    (hlength : playlist.length ≤ maxFragments) (pts : Int) (minDuration : Rat) :
    Retains maxFragments pts minDuration playlist where
  ends := evict_leaves playlist
  front _ h := turns_removed h
  once e h := by
    have hall : (e.removed ++ e.playlist).Nodup := turns_removed h ▸ hdistinct.of_map _
    exact hall.of_append_left
  starts e e' h hbody := by
    obtain ⟨hout, rfl⟩ := evictBody_again hbody
    have hsuffix : e.playlist <:+ playlist := ⟨e.removed, turns_removed h⟩
    exact starts_of_out (hdistinct.suffix hsuffix) (hkeys.suffix hsuffix)
      (hsuffix.length_le.trans hlength) hout
  exit e h := by
    obtain ⟨t, _, hbody⟩ := h.turns
    obtain ⟨hnot, rfl⟩ := evictBody_left hbody
    exact within_of_not_out hnot

end Hls

/-- In every playlist that a player reaches, adding any item evicts by duration: the playlist
    with the item has its keyframes in order and is within the limit. -/
theorem playlist_retains {w : HlsPlayer} (hw : hlsPlayer.Reachable w) (a : AddPlayItem)
    (hkeys : Hls.KeysInOrder (w.playlist ++ [w.makeFragmentInfo a]))
    (hlength : (w.playlist ++ [w.makeFragmentInfo a]).length ≤ a.maxFragments) :
    Hls.Retains a.maxFragments (a.pts + a.duration) a.minDuration
      (w.playlist ++ [w.makeFragmentInfo a]) :=
  Hls.retains ((hlsPlayer_inv hw).pushBack a) hkeys hlength _ _

/-- An item that starts by no keyframe is in front, and a third keyframe evicts up to the
    first. -/
theorem playlist_retains_three :
    ∃ w, hlsPlayer.Reachable w ∧ w.playlist.length = 3
      ∧ Hls.Retains 10 12000 6 (w.playlist ++ [w.makeFragmentInfo ⟨8000, 4000, true, 6, 10⟩]) := by
  obtain ⟨w, hw, hw'⟩ := Machine.reachable_of_runs (M := hlsPlayer)
    (p := fun w => decide (w.playlist
      = [⟨0, 0, 1000, false⟩, ⟨1, 1000, 3000, true⟩, ⟨2, 4000, 4000, true⟩] ∧ w.made = 3))
    [⟨0, 1000, false, 6, 10⟩, ⟨1000, 3000, true, 6, 10⟩, ⟨4000, 4000, true, 6, 10⟩]
    (by decide +kernel)
  obtain ⟨hplaylist, hmade⟩ := of_decide_eq_true hw'
  have hitem : w.makeFragmentInfo ⟨8000, 4000, true, 6, 10⟩ = ⟨3, 8000, 4000, true⟩ := by
    rw [HlsPlayer.makeFragmentInfo, hmade]
  refine ⟨w, hw, by rw [hplaylist]; rfl, ?_⟩
  refine playlist_retains hw ⟨8000, 4000, true, 6, 10⟩ ?_ ?_
  · rw [hplaylist, hitem]
    simp [Hls.KeysInOrder, Hls.keyframes]
  · rw [hplaylist]
    simp

end SeastarLive
