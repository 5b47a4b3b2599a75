/-
SeastarLive.Hls.FragmentIds — the ids of the listed fragments.

A fragment gets the next id when it is opened. The ids of the playlist are
consecutive as long as no id is lost on the way and none is used twice: a
fragment that is cut without data loses its id, and a fragment that was listed
before its playlist file failed is cut once more.
-/
import Mathlib.Data.List.Chain
import SeastarLive.Hls.PlaySessionV3Theorems

namespace SeastarLive

open Flv

/-! ## Consecutive ids -/

/-- Each item has the id behind that of the item before it. -/
def Consecutive (playlist : List PlayItem) : Prop := playlist.IsChain fun a b => b.id = a.id + 1

namespace Consecutive

theorem push {playlist : List PlayItem} {item : PlayItem} (h : Consecutive playlist)
    (hlast : ∀ last ∈ playlist.getLast?, item.id = last.id + 1) :
    Consecutive (playlist ++ [item]) := by
  unfold Consecutive
  rw [List.isChain_append]
  refine ⟨h, List.isChain_singleton item, ?_⟩
  intro last hmem x hx
  obtain rfl := Option.mem_some.mp hx
  exact hlast last hmem

/-- The `k`-th item has the id of the first one and `k`. -/
theorem id_eq {first : PlayItem} {rest : List PlayItem} (h : Consecutive (first :: rest)) {k : Nat}
    {item : PlayItem} (hitem : (first :: rest)[k]? = some item) : item.id = first.id + k := by
  induction rest generalizing first k with
  | nil =>
      cases k with
      | zero =>
          obtain rfl := Option.some.inj hitem
          omega
      | succ k => simp at hitem
  | cons second rest ih =>
      obtain ⟨hsecond, hrest⟩ := List.isChain_cons_cons.mp h
      cases k with
      | zero =>
          obtain rfl := Option.some.inj hitem
          omega
      | succ k =>
          have hk := ih hrest hitem
          omega

/-- No id is listed twice. -/
theorem nodup {playlist : List PlayItem} (h : Consecutive playlist) :
    (playlist.map fun item => item.id).Nodup := by
  have hless : (playlist.map fun item => item.id).IsChain (· < ·) := by
    rw [List.isChain_map]
    refine h.imp ?_
    intro a b hab
    omega
  refine (List.isChain_iff_pairwise.mp hless).imp ?_
  intro a b hab
  omega

end Consecutive

theorem mem_getLast?_rtake {β : Type} {l : List β} {n : Nat} {x : β}
    (h : x ∈ (l.rtake n).getLast?) : x ∈ l.getLast? := by
  have hsuffix : l.rtake n <:+ l := List.drop_suffix _ l
  obtain ⟨front, hfront⟩ := hsuffix
  rw [← hfront, List.getLast?_append, Option.mem_def.mp h]
  rfl

namespace HlsSession

variable {converter : TsConverter} {directory : List Char} {start : Int} {deleteDelay : Bool}
  {s t u : HlsSession} {frag : Fragment} {frame : Media} {o : WriteOutcome}

/-! ## The condition -/

/-- The condition on a step: a frame that cuts the open fragment finds one that is not listed
    yet, and one with data unless nothing is listed. -/
def CutsWell (s : HlsSession) : HlsCall → Prop
  | .write (.media frame) o => s.impl.isComplete = false → ∀ frag ∈ s.fragment,
      isFragmentHeaderFrame frag frame o.fragmentDuration = true →
        (∀ item ∈ s.playlist, item.id ≠ frag.id) ∧ (frag.size = 0 → s.playlist = [])
  | _ => True

instance (s : HlsSession) : DecidablePred s.CutsWell
  | .write (.media frame) o => inferInstanceAs (Decidable (s.impl.isComplete = false →
      ∀ frag ∈ s.fragment, isFragmentHeaderFrame frag frame o.fragmentDuration = true →
        (∀ item ∈ s.playlist, item.id ≠ frag.id) ∧ (frag.size = 0 → s.playlist = [])))
  | .write (.metadata _) _ => .isTrue trivial
  | .write (.script _) _ => .isTrue trivial
  | .settings _ => .isTrue trivial
  | .complete _ => .isTrue trivial
  | .timeout => .isTrue trivial
  | .close => .isTrue trivial

/-! ## The invariant -/

/-- The open fragment has the last id that was given, and is listed last or comes next. -/
structure Opened (s : HlsSession) (frag : Fragment) : Prop where
  fragment : s.fragment = some frag
  id_eq : frag.id = s.nextFragmentId
  chain : Consecutive s.playlist
  last : ∀ item ∈ s.playlist.getLast?, item.id = frag.id ∨ frag.id = item.id + 1

/-- Before the first frame nothing is listed. -/
def Numbers (s : HlsSession) : Prop :=
  s.fragment = none ∧ s.playlist = [] ∨ ∃ frag, s.Opened frag

/-- A fragment is made behind the last one. -/
theorem opened_makeFragment (hchain : Consecutive s.playlist)
    (hlast : ∀ item ∈ s.playlist.getLast?, item.id = s.nextFragmentId) :
    (s.makeFragment frame).Opened (freshFragment (s.nextFragmentId + 1) frame) where
  fragment := rfl
  id_eq := rfl
  chain := hchain
  last := by
    intro item hitem
    right
    show s.nextFragmentId + 1 = item.id + 1
    rw [hlast item hitem]

theorem Numbers.ensureFragment (h : s.Numbers)
    (hfrag : (s.ensureFragment frame).fragment = some frag) :
    (s.ensureFragment frame).Opened frag ∧ (s.fragment = some frag ∨ s.playlist = []) := by
  rcases s.ensureFragment_cases frame with ⟨old, hold, heq⟩ | ⟨hnone, heq⟩
  · rw [heq] at hfrag ⊢
    rcases h with ⟨hnone, -⟩ | ⟨frag', hopened⟩
    · rw [hold] at hnone
      cases hnone
    · have hsame := hopened.fragment
      rw [hfrag] at hsame
      obtain rfl := Option.some.inj hsame
      exact ⟨hopened, .inl hfrag⟩
  · rcases h with ⟨-, hnil⟩ | ⟨frag', hopened⟩
    · rw [heq] at hfrag ⊢
      obtain rfl := Option.some.inj hfrag
      refine ⟨opened_makeFragment ?_ ?_, .inr hnil⟩
      · rw [hnil]
        exact .nil
      · rw [hnil]
        exact nofun
    · rw [hopened.fragment] at hnone
      cases hnone

/-- A write leaves the ids as they are. -/
theorem Opened.write {r : Except HlsSession HlsSession} (h : s.Opened frag)
    (hr : WriteEnds converter s frag frame o r) : (settled r).Numbers := by
  cases hr with
  | unconverted _ => exact .inr ⟨frag, h.fragment, h.id_eq, h.chain, h.last⟩
  | unmuxed _ _ _ =>
      refine .inr ⟨_, rfl, ?_, h.chain, ?_⟩
      · rw [onData_id]
        exact h.id_eq
      · rw [onData_id]
        exact h.last
  | accepted _ _ _ =>
      refine .inr ⟨_, rfl, ?_, h.chain, ?_⟩
      · show (onData frag o.packets).id = s.nextFragmentId
        rw [onData_id]
        exact h.id_eq
      · intro item hitem
        show item.id = (onData frag o.packets).id ∨ (onData frag o.packets).id = item.id + 1
        rw [onData_id]
        exact h.last item hitem

/-- The item of the open fragment comes behind the last one, if it is not listed yet. -/
theorem Opened.push (h : s.Opened frag) (hnew : ∀ item ∈ s.playlist, item.id ≠ frag.id) :
    Consecutive (s.playlist ++ [infoOf directory s frag frame]) := by
  refine h.chain.push ?_
  intro last hlast
  exact (h.last last hlast).resolve_left (hnew last (List.mem_of_mem_getLast? hlast))

/-- A dump that throws leaves the fragment open, and maybe listed. -/
theorem Opened.undumped (h : s.Opened frag) (hnew : ∀ item ∈ s.playlist, item.id ≠ frag.id)
    (ht : DumpEnds directory s frag frame o (.error t)) : t.Numbers := by
  cases ht with
  | unwritten _ _ => exact .inr ⟨frag, h.fragment, h.id_eq, h.chain, h.last⟩
  | unlisted _ _ _ =>
      refine .inr ⟨frag, h.fragment, h.id_eq, h.push hnew, ?_⟩
      intro item hitem
      have hitem : item ∈ (s.playlist ++ [infoOf directory s frag frame]).getLast? := hitem
      rw [List.getLast?_concat] at hitem
      obtain rfl := Option.mem_some.mp hitem
      exact .inl rfl

/-- A dump lists the fragment last, or nothing is listed. -/
theorem Opened.dumped (h : s.Opened frag) (hnew : ∀ item ∈ s.playlist, item.id ≠ frag.id)
    (hdata : frag.size = 0 → s.playlist = []) (hu : DumpEnds directory s frag frame o (.ok u)) :
    Consecutive u.playlist ∧ ∀ item ∈ u.playlist.getLast?, item.id = u.nextFragmentId := by
  cases hu with
  | empty hsize =>
      refine ⟨h.chain, ?_⟩
      rw [hdata hsize]
      exact nofun
  | listed n c _ _ _ =>
      refine ⟨(h.push hnew).suffix (List.drop_suffix _ _), ?_⟩
      intro item hitem
      have hitem := mem_getLast?_rtake hitem
      rw [List.getLast?_concat] at hitem
      obtain rfl := Option.mem_some.mp hitem
      exact h.id_eq

theorem Numbers.media (h : s.Numbers) (hcomplete : s.impl.isComplete = false)
    (hcuts : s.CutsWell (.write (.media frame) o)) {r : Except HlsSession HlsSession}
    (hr : FrameEnds converter directory s frame o r) : (settled r).Numbers := by
  have hplaylist : (s.ensureFragment frame).playlist = s.playlist := by
    rcases s.ensureFragment_cases frame with ⟨-, -, heq⟩ | ⟨-, heq⟩
    · rw [heq]
    · rw [heq]
      rfl
  -- what the condition says of the fragment that is cut, be it a new one
  have hcut : ∀ frag, (s.ensureFragment frame).fragment = some frag →
      isFragmentHeaderFrame frag frame o.fragmentDuration = true →
      (∀ item ∈ (s.ensureFragment frame).playlist, item.id ≠ frag.id)
        ∧ (frag.size = 0 → (s.ensureFragment frame).playlist = []) := by
    intro frag hfrag hheader
    rw [hplaylist]
    rcases (h.ensureFragment hfrag).2 with hopen | hnil
    · exact hcuts hcomplete frag hopen hheader
    · rw [hnil]
      exact ⟨nofun, fun _ => rfl⟩
  cases hr with
  | continued frag r hfrag _ hwrite => exact (h.ensureFragment hfrag).1.write hwrite
  | undumped frag t hfrag hheader hdump =>
      exact (h.ensureFragment hfrag).1.undumped (hcut frag hfrag hheader).1 hdump
  | cut frag u r hfrag hheader hdump hwrite =>
      obtain ⟨hnew, hdata⟩ := hcut frag hfrag hheader
      obtain ⟨hchain, hlast⟩ := (h.ensureFragment hfrag).1.dumped hnew hdata hdump
      exact (opened_makeFragment hchain hlast).write hwrite

/-- What else changes leaves the fragments as they are. -/
theorem Numbers.congr (h : s.Numbers) (hsame : SameFragments s t) : t.Numbers := by
  rcases h with ⟨hnone, hnil⟩ | ⟨frag, hopened⟩
  · exact .inl ⟨hsame.fragment.trans hnone, hsame.playlist.trans hnil⟩
  · refine .inr ⟨frag, hsame.fragment.trans hopened.fragment,
      hopened.id_eq.trans hsame.nextFragmentId.symm, ?_, ?_⟩
    · rw [hsame.playlist]
      exact hopened.chain
    · rw [hsame.playlist]
      exact hopened.last

theorem numbers_step {a : HlsCall} (h : s.Numbers) (hcuts : s.CutsWell a)
    (ht : step converter directory s a = .ok t) : t.Numbers := by
  rcases step_cases ht with ⟨frame, o, r, rfl, hcomplete, hr, rfl⟩ | hsame
  · exact h.media hcomplete hcuts hr
  · exact h.congr hsame

/-- In a run whose cuts are well, no id is listed twice, each is one more than the one before
    it, and the `k`-th is `k` more than the first. -/
theorem playlist_ids_consecutive
    (hreach : ((hlsSession converter directory start deleteDelay).restrict CutsWell).Reachable s) :
    (s.playlist.map fun item => item.id).Nodup
      ∧ (s.playlist.IsChain fun a b => b.id = a.id + 1)
      ∧ ∀ first rest, s.playlist = first :: rest → ∀ (k : Nat) (item : PlayItem),
          s.playlist[k]? = some item → item.id = first.id + k := by
  have h : s.Numbers := by
    refine hreach.invariant (.inl ⟨rfl, rfl⟩) ?_
    intro s a t h henabled hstep
    exact numbers_step h henabled.2 hstep
  have hchain : Consecutive s.playlist := by
    rcases h with ⟨-, hnil⟩ | ⟨frag, hopened⟩
    · rw [hnil]
      exact .nil
    · exact hopened.chain
  refine ⟨hchain.nodup, hchain, ?_⟩
  intro first rest hplaylist k item hitem
  rw [hplaylist] at hchain hitem
  exact hchain.id_eq hitem

/-- Three keyframes: the first two fragments are listed. -/
theorem playlist_ids_consecutive_keyframes :
    ∃ s : HlsSession, (s.playlist.map fun item => item.id) = [2, 3]
      ∧ s.playlist.IsChain fun a b => b.id = a.id + 1 := by
  obtain ⟨s, hreach, hs⟩ := Machine.reachable_of_runs
    (M := (hlsSession singleNalUnit "d".toList 0 true).restrict CutsWell)
    (p := fun s => (s.playlist.map fun item => item.id) = [2, 3])
    [.write (.metadata (avcMp3 0x42)) {}, .write (.media (slice true 0)) {},
      .write (.media (slice true 1000)) {}, .write (.media (slice true 2000)) {}]
    (by decide +kernel)
  exact ⟨s, of_decide_eq_true hs, (playlist_ids_consecutive hreach).2.1⟩

/-- An MP3 frame cuts a fragment and opens one without data, since it has no track. The next
    keyframe drops that one: the fragments 2 and 4 are listed. -/
theorem playlist_skips_id :
    ¬∀ (converter : TsConverter) (directory : List Char) (start : Int) (deleteDelay : Bool)
      (s : HlsSession), (hlsSession converter directory start deleteDelay).Reachable s →
      (s.playlist.map fun item => item.id).Nodup
        ∧ s.playlist.IsChain fun a b => b.id = a.id + 1 := by
  intro hclaim
  obtain ⟨s, hreach, hs⟩ := Machine.reachable_of_runs
    (M := hlsSession singleNalUnit "d".toList 0 true)
    (p := fun s => (s.playlist.map fun item => item.id) = [2, 4])
    [.write (.metadata (avcMp3 0x42)) {}, .write (.media (slice true 0)) {},
      .write (.media { dts := 1000, data := [0xFF, 0xFB] }) {},
      .write (.media (slice true 1040)) {}, .write (.media (slice true 2040)) {}]
    (by decide +kernel)
  have hids := of_decide_eq_true hs
  obtain ⟨-, hchain⟩ := hclaim _ _ _ _ s hreach
  have hchain : (s.playlist.map fun item => item.id).IsChain fun a b => b = a + 1 :=
    (List.isChain_map _).mpr hchain
  rw [hids] at hchain
  revert hchain
  decide

end HlsSession

end SeastarLive
