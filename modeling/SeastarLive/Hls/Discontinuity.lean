/-
SeastarLive.Hls.Discontinuity — where a playlist file says `#EXT-X-DISCONTINUITY`.

The text of `m3u8_writer_v3::make_content` (`src/hls/m3u8.cc`) against the calls
that the writer was given. A header asks for a mark between the fragment before
it and the one after it; any number of headers there ask for one mark.

* `make_content` writes a line for every header but the first and the last entry
  of the list, so two headers side by side give two lines, or a line in front of
  the first fragment or behind the last.
* `remove_useless_headers` takes such headers away in front of the first
  fragment only, and is not called when a fragment is added.
* The target duration is rounded in single precision before it is rounded up. A
  fragment of more than 4 hours and 39 minutes may be longer than it
  (`secondsKept_of_le`).
-/
import Mathlib.Data.List.Chain
import SeastarLive.Hls.TracerTheorems

namespace SeastarLive

open PlayItem Hls

namespace M3u8

/-! ## What should be listed -/

/-- A header was issued after `a` and before `b`. -/
def headerBetween (issued : List PlayItem) (a b : PlayItem) : Bool :=
  ((issued.dropWhile fun x => decide (x ≠ a)).takeWhile fun x => decide (x ≠ b)).any
    PlayItem.isHeader

/-- The fragments in order, with one mark between those that have a header between them. -/
def listing (between : PlayItem → PlayItem → Bool) : List PlayItem → List M3u8Line
  | [] => []
  | [item] => [makePlayitemContent item]
  | item :: next :: rest =>
      makePlayitemContent item
        :: ((if between item next then [.discontinuity] else []) ++ listing between (next :: rest))

/-- No two headers are side by side. -/
def HeadersApart (playlist : List PlayItem) : Prop :=
  playlist.IsChain fun a b => ¬ (a.isHeader = true ∧ b.isHeader = true)

theorem headerBetween_eq {issued front mid back : List PlayItem} {a b : PlayItem}
    (hissued : issued = front ++ a :: (mid ++ b :: back)) (hnodup : issued.Nodup)
    (ha : a.isHeader = false) (hmid : ∀ h ∈ mid, h.isHeader = true) :
    headerBetween issued a b = !mid.isEmpty := by
  subst hissued
  obtain ⟨-, hback, hdisjoint⟩ := List.nodup_append.mp hnodup
  have hfront : ∀ x ∈ front, decide (x ≠ a) = true := fun x hx =>
    decide_eq_true (hdisjoint x hx a List.mem_cons_self)
  have hdrop : (front ++ a :: (mid ++ b :: back)).dropWhile (fun x => decide (x ≠ a))
      = a :: (mid ++ b :: back) := by
    rw [List.dropWhile_append_of_pos hfront, List.dropWhile_cons_of_neg (by simp)]
  have hbefore : ∀ x ∈ a :: mid, decide (x ≠ b) = true := by
    intro x hx
    rw [← List.cons_append, List.nodup_append] at hback
    exact decide_eq_true (hback.2.2 x hx b List.mem_cons_self)
  have htake : (a :: (mid ++ b :: back)).takeWhile (fun x => decide (x ≠ b)) = a :: mid := by
    rw [← List.cons_append, List.takeWhile_append_of_pos hbefore,
      List.takeWhile_cons_of_neg (by simp), List.append_nil]
  rw [headerBetween, hdrop, htake, List.any_cons, ha, Bool.false_or]
  cases mid with
  | nil => rfl
  | cons h mid => simp [hmid h List.mem_cons_self]

/-! ## What is listed -/

section Listed

variable {between : PlayItem → PlayItem → Bool} {item : PlayItem}

/-- `between` tells of each two fragments next to each other whether headers are between. -/
def Tells (between : PlayItem → PlayItem → Bool) (playlist : List PlayItem) : Prop :=
  ∀ front a mid b back, playlist = front ++ a :: (mid ++ b :: back) → a.isHeader = false →
    (∀ h ∈ mid, h.isHeader = true) → b.isHeader = false → between a b = !mid.isEmpty

theorem Tells.suffix {playlist q : List PlayItem} (h : Tells between playlist)
    (hq : q <:+ playlist) : Tells between q := by
  intro front a mid b back heq
  obtain ⟨lead, rfl⟩ := hq
  exact h (lead ++ front) a mid b back (by rw [heq, List.append_assoc])

theorem itemLines_media (hitem : item.isHeader = false) (rest : List PlayItem) (first : Bool) :
    itemLines first (item :: rest) = makePlayitemContent item :: itemLines false rest := by
  simp [itemLines, hitem]

theorem itemLines_header (hitem : item.isHeader = true) {rest : List PlayItem} (hne : rest ≠ []) :
    itemLines false (item :: rest) = .discontinuity :: itemLines false rest := by
  simp [itemLines, hitem, hne]

theorem listing_head (between : PlayItem → PlayItem → Bool) (item : PlayItem)
    (rest : List PlayItem) :
    ∃ lines, listing between (item :: rest) = makePlayitemContent item :: lines := by
  cases rest with
  | nil => exact ⟨[], rfl⟩
  | cons next rest => exact ⟨_, rfl⟩

theorem headersApart_cons_media (hitem : item.isHeader = false) (rest : List PlayItem) :
    HeadersApart (item :: rest) ↔ HeadersApart rest := by
  unfold HeadersApart
  rw [List.isChain_cons]
  simp [hitem]

/-- Two marks in a row are no listing. -/
theorem lines_ne_listing {third : PlayItem} (hthird : third.isHeader = true)
    (rest : List PlayItem) :
    makePlayitemContent item :: .discontinuity :: itemLines false (third :: rest)
      ≠ listing between (item :: media rest) := by
  intro heq
  cases hrest : media rest with
  | nil =>
      rw [hrest] at heq
      cases (List.cons.inj heq).2
  | cons next more =>
      have hne : rest ≠ [] := by
        rintro rfl
        cases hrest
      obtain ⟨lines, hlines⟩ := listing_head between next more
      rw [hrest, itemLines_header hthird hne, listing, hlines, List.cons_inj_right] at heq
      split at heq
      · cases (List.cons.inj (List.cons.inj heq).2).1
      · cases (List.cons.inj heq).1

/-- From a fragment on, the text is right exactly if the headers are apart. -/
theorem itemLines_eq_listing_iff (hitem : item.isHeader = false) (rest : List PlayItem)
    (h : Tells between (item :: rest)) :
    itemLines false (item :: rest) = listing between (media (item :: rest))
      ↔ HeadersApart (item :: rest) := by
  induction hn : rest.length using Nat.strongRecOn generalizing item rest with
  | ind n ih =>
      rw [itemLines_media hitem, media_cons_media hitem, headersApart_cons_media hitem]
      cases rest with
      | nil => exact iff_of_true rfl .nil
      | cons next rest =>
          cases hnext : next.isHeader with
          | false =>
              -- a fragment comes next
              have hbetween : between item next = false :=
                h [] item [] next rest rfl hitem nofun hnext
              rw [media_cons_media hnext, listing, hbetween, if_neg Bool.false_ne_true,
                List.nil_append, List.cons_inj_right, ← media_cons_media hnext]
              exact ih rest.length (by simp [← hn]) hnext rest
                (h.suffix (List.suffix_cons item _)) rfl
          | true =>
              rw [media_cons_header hnext]
              cases rest with
              | nil =>
                  refine iff_of_true ?_ (List.isChain_singleton next)
                  simp [itemLines, hnext, listing]
              | cons third rest =>
                  rw [itemLines_header hnext (List.cons_ne_nil third rest)]
                  cases hthird : third.isHeader with
                  | false =>
                      -- one header, and a fragment behind it
                      have hbetween : between item third = true :=
                        h [] item [next] third rest rfl hitem (by simpa using hnext) hthird
                      have hapart : HeadersApart (next :: third :: rest)
                          ↔ HeadersApart (third :: rest) := by
                        unfold HeadersApart
                        rw [List.isChain_cons_cons]
                        simp [hthird]
                      rw [hapart, media_cons_media hthird, listing, hbetween, if_pos rfl,
                        List.singleton_append, List.cons_inj_right, List.cons_inj_right,
                        ← media_cons_media hthird]
                      have hless : rest.length < n := by
                        rw [← hn]
                        simp only [List.length_cons]
                        omega
                      exact ih rest.length hless hthird rest (h.suffix ⟨[item, next], rfl⟩) rfl
                  | true =>
                      -- two headers side by side
                      refine iff_of_false ?_ ?_
                      · rw [media_cons_header hthird]
                        exact lines_ne_listing hthird rest
                      · intro hchain
                        exact (List.isChain_cons_cons.mp hchain).1 ⟨hnext, hthird⟩

/-- Headers in front of the first fragment: the first of them gives no line. -/
theorem itemLines_headers_append {header : PlayItem} {lead kept : List PlayItem}
    (hheader : header.isHeader = true) (hlead : ∀ h ∈ lead, h.isHeader = true)
    (hkept : kept ≠ []) :
    itemLines true (header :: lead ++ kept)
      = List.replicate lead.length .discontinuity ++ itemLines false kept := by
  have hlines : itemLines false (lead ++ kept)
      = List.replicate lead.length .discontinuity ++ itemLines false kept := by
    induction lead with
    | nil => rfl
    | cons h lead ih =>
        rw [List.cons_append, itemLines_header (hlead h List.mem_cons_self) (by simp [hkept]),
          ih fun x hx => hlead x (List.mem_cons_of_mem h hx)]
        rfl
  rw [← hlines]
  simp [itemLines, hheader]

theorem itemLines_headers {lead : List PlayItem} (hlead : ∀ h ∈ lead, h.isHeader = true) :
    itemLines true lead = List.replicate (lead.length - 2) .discontinuity := by
  have hlines : ∀ lead : List PlayItem, (∀ h ∈ lead, h.isHeader = true) →
      itemLines false lead = List.replicate (lead.length - 1) .discontinuity := by
    intro lead hlead
    induction lead with
    | nil => rfl
    | cons h lead ih =>
        have hrest := ih fun x hx => hlead x (List.mem_cons_of_mem h hx)
        have hh := hlead h List.mem_cons_self
        cases lead with
        | nil => simp [itemLines, hh]
        | cons h' lead =>
            rw [itemLines_header hh (List.cons_ne_nil h' lead), hrest]
            rfl
  cases lead with
  | nil => rfl
  | cons h lead =>
      have hrest := hlines lead fun x hx => hlead x (List.mem_cons_of_mem h hx)
      simp [itemLines, hlead h List.mem_cons_self, hrest]

/-- Headers, and behind them what starts by a fragment: the text is right exactly if the
    headers are apart. -/
theorem itemLines_append_iff {lead kept : List PlayItem} (hne : lead ≠ [])
    (hlead : ∀ h ∈ lead, h.isHeader = true) (hkept : ∀ x ∈ kept.head?, x.isHeader = false)
    (h : Tells between kept) :
    itemLines true (lead ++ kept) = listing between (media kept)
      ↔ if kept = [] then lead.length ≤ 2 else HeadersApart (lead ++ kept) := by
  cases kept with
  | nil =>
      rw [if_pos rfl, List.append_nil, itemLines_headers hlead]
      show List.replicate _ _ = [] ↔ _
      rw [List.replicate_eq_nil_iff]
      omega
  | cons item rest =>
      have hitem : item.isHeader = false := hkept item rfl
      rw [if_neg (List.cons_ne_nil item rest)]
      obtain ⟨header, lead, rfl⟩ := List.exists_cons_of_ne_nil hne
      rw [itemLines_headers_append (hlead header List.mem_cons_self)
        (fun x hx => hlead x (List.mem_cons_of_mem header hx)) (List.cons_ne_nil item rest)]
      cases lead with
      | nil =>
          rw [List.length_nil, List.replicate_zero, List.nil_append,
            itemLines_eq_listing_iff hitem rest h]
          show _ ↔ HeadersApart (header :: item :: rest)
          unfold HeadersApart
          rw [List.isChain_cons_cons]
          simp [hitem]
      | cons second lead =>
          refine iff_of_false ?_ ?_
          · intro heq
            obtain ⟨lines, hlines⟩ := listing_head between item (media rest)
            rw [media_cons_media hitem, hlines] at heq
            cases (List.cons.inj heq).1
          · intro hchain
            exact (List.isChain_cons_cons.mp hchain).1
              ⟨hlead header List.mem_cons_self,
                hlead second (List.mem_cons_of_mem header List.mem_cons_self)⟩

/-! ## The target duration -/

theorem le_maxDuration (longest : Int) (playlist : List PlayItem) :
    longest ≤ maxDuration longest playlist
      ∧ ∀ item ∈ media playlist, item.duration ≤ maxDuration longest playlist := by
  induction playlist generalizing longest with
  | nil => exact ⟨Int.le_refl _, nofun⟩
  | cons item rest ih =>
      cases hitem : item.isHeader with
      | true =>
          rw [media_cons_header hitem, maxDuration, if_pos hitem]
          exact ih longest
      | false =>
          obtain ⟨hlongest, hrest⟩ := ih (max longest item.duration)
          rw [media_cons_media hitem, maxDuration, if_neg (by simp [hitem])]
          refine ⟨(Int.le_max_left _ _).trans hlongest, ?_⟩
          intro x hx
          rcases List.mem_cons.mp hx with rfl | hx
          · exact (Int.le_max_right _ _).trans hlongest
          · exact hrest x hx

/-- The longest duration is that of a fragment, if there is a fragment of any length. -/
theorem maxDuration_mem (longest : Int) (playlist : List PlayItem) :
    maxDuration longest playlist = longest
      ∨ ∃ item ∈ media playlist, item.duration = maxDuration longest playlist := by
  induction playlist generalizing longest with
  | nil => exact .inl rfl
  | cons item rest ih =>
      cases hitem : item.isHeader with
      | true =>
          rw [media_cons_header hitem, maxDuration, if_pos hitem]
          exact ih longest
      | false =>
          rw [media_cons_media hitem, maxDuration, if_neg (by simp [hitem])]
          rcases ih (max longest item.duration) with hmax | ⟨x, hx, hmax⟩
          · rw [hmax]
            rcases max_choice longest item.duration with hlongest | hitem
            · exact .inl hlongest
            · exact .inr ⟨item, List.mem_cons_self, hitem.symm⟩
          · exact .inr ⟨x, List.mem_cons_of_mem item hx, hmax⟩

/-- A duration whose quotient in single precision is above the whole seconds below it. -/
def SecondsKept (duration : Int) : Prop :=
  0 < duration → (((duration - 1) / 1000 : Int) : Rat) < singleSeconds duration

instance (duration : Int) : Decidable (SecondsKept duration) :=
  inferInstanceAs (Decidable (_ → _))

/-- A duration in seconds, rounded up. -/
theorem ceil_seconds (duration : Int) :
    ⌈(duration : Rat) / 1000⌉ = (duration - 1) / 1000 + 1 := by
  have hlow : ((duration - 1) / 1000 : Int) * 1000 < duration := by omega
  have hhigh : duration ≤ ((duration - 1) / 1000 + 1 : Int) * 1000 := by omega
  rw [Int.ceil_eq_iff, lt_div_iff₀ (by norm_num), div_le_iff₀ (by norm_num)]
  constructor
  · push_cast
    rw [add_sub_cancel_right]
    exact_mod_cast hlow
  · exact_mod_cast hhigh

/-- The target duration is not less than the longest duration in seconds, rounded up, exactly if
    that keeps its seconds. -/
theorem ceil_le_target_iff {duration : Int} (hpos : 0 ≤ duration) :
    ⌈(duration : Rat) / 1000⌉ ≤ ⌈singleSeconds duration⌉ ↔ SecondsKept duration := by
  rw [ceil_seconds, Int.add_one_le_iff, Int.lt_ceil]
  rcases hpos.eq_or_lt with rfl | hpos
  · refine iff_of_true ?_ fun hlt => absurd hlt (lt_irrefl 0)
    decide +kernel
  · exact ⟨fun h _ => h, fun h => h hpos⟩

/-- No fragment listed is longer than the target duration, in seconds and rounded up, exactly if
    the longest keeps its seconds. -/
theorem target_iff (playlist : List PlayItem) :
    (∀ item ∈ media playlist,
        ⌈(item.duration : Rat) / 1000⌉ ≤ ⌈singleSeconds (maxDuration 0 playlist)⌉)
      ↔ SecondsKept (maxDuration 0 playlist) := by
  obtain ⟨hpos, hle⟩ := le_maxDuration 0 playlist
  rw [← ceil_le_target_iff hpos]
  constructor
  · intro hall
    rcases maxDuration_mem 0 playlist with hzero | ⟨item, hitem, hmax⟩
    · rw [hzero]
      decide +kernel
    · exact hmax ▸ hall item hitem
  · intro hmax item hitem
    refine (Int.ceil_le_ceil ?_).trans hmax
    have hduration : (item.duration : Rat) ≤ maxDuration 0 playlist := by
      exact_mod_cast hle item hitem
    gcongr

/-- Where every fragment keeps its seconds, the longest does. -/
theorem secondsKept_maxDuration {playlist : List PlayItem}
    (h : ∀ item ∈ media playlist, SecondsKept item.duration) :
    SecondsKept (maxDuration 0 playlist) := by
  rcases maxDuration_mem 0 playlist with hzero | ⟨item, hitem, hmax⟩
  · rw [hzero]
    exact fun hlt => absurd hlt (lt_irrefl 0)
  · exact hmax ▸ h item hitem

/-- Up to 16778000 milliseconds every duration keeps its seconds. -/
theorem secondsKept_of_le {duration : Int} (h : duration ≤ 16778000) : SecondsKept duration := by
  intro hpos
  have hdivision := (abs_le.mp (abs_roundBinary_sub_le 24 (roundBinary 24 duration / 1000))).1
  unfold singleSeconds
  by_cases hexact : duration < 2 ^ 24
  · -- the conversion is exact, and the error of the division less than a millisecond
    have hconversion : roundBinary 24 duration = duration :=
      roundBinary_intCast (abs_lt.mpr ⟨by omega, hexact⟩)
    have hwhole : (((duration - 1) / 1000 : Int) : Rat) * 1000 ≤ duration - 1 := by
      have hle : (duration - 1) / 1000 * 1000 ≤ duration - 1 := by omega
      exact_mod_cast hle
    have hlow : (0 : Rat) < duration := by exact_mod_cast hpos
    have hhigh : (duration : Rat) < 2 ^ 24 := by exact_mod_cast hexact
    have hquotient : (0 : Rat) < duration / 1000 := by linarith
    rw [hconversion, abs_of_pos hquotient] at hdivision
    rw [hconversion]
    linarith
  · -- the seconds below are 16777, and the first duration is 216 milliseconds behind them
    have hconversion := (abs_le.mp (abs_roundBinary_sub_le 24 (duration : Rat))).1
    have hwhole : (((duration - 1) / 1000 : Int) : Rat) ≤ 16777 := by
      have hle : (duration - 1) / 1000 ≤ 16777 := by omega
      exact_mod_cast hle
    have hlow : (2 : Rat) ^ 24 ≤ duration := by exact_mod_cast Int.not_lt.mp hexact
    have hduration : (0 : Rat) < duration := by linarith
    rw [abs_of_pos hduration] at hconversion
    have hquotient : (0 : Rat) < roundBinary 24 duration / 1000 := by linarith
    rw [abs_of_pos hquotient] at hdivision
    linarith

example : ¬ SecondsKept 16778001 := by decide +kernel

end Listed

end M3u8

/-! ## The text in a state -/

theorem Window.kept_eq_nil_iff {issued playlist traced gone lead kept : List PlayItem}
    (h : Window issued playlist traced gone lead kept) : playlist = [] ↔ kept = [] := by
  rw [← h.media_kept]
  constructor
  · intro hmedia
    cases kept with
    | nil => rfl
    | cons item kept =>
        rw [media_cons_media (h.kept_head item rfl)] at hmedia
        cases hmedia
  · rintro rfl
    rfl

namespace TracedPlaylist

open M3u8

variable {directory : List Char} {start : Int} {w t u : TracedPlaylist}

/-- `make_content` lists the fragments in order, with one mark between two of them if a header
    was issued between them and none else, and a target duration that none exceeds. -/
def MarksExact (w : TracedPlaylist) (ended : List M3u8Line) : Prop :=
  ∃ sequence target,
    makeContent w.writer.playlist ended
      = [.extM3u, .version, .start, .mediaSequence sequence, .targetDuration target]
        ++ listing (headerBetween w.issued) w.playlist ++ ended
    ∧ ∀ item ∈ w.playlist, ⌈(item.duration : Rat) / 1000⌉ ≤ target

theorem MarksExact.lines {ended : List M3u8Line} (h : w.MarksExact ended)
    (hne : w.writer.playlist ≠ []) :
    itemLines true w.writer.playlist = listing (headerBetween w.issued) w.playlist
      ∧ ∀ item ∈ w.playlist,
        ⌈(item.duration : Rat) / 1000⌉ ≤ ⌈singleSeconds (maxDuration 0 w.writer.playlist)⌉ := by
  obtain ⟨sequence, target, heq, htarget⟩ := h
  unfold makeContent at heq
  rw [if_neg (by simpa using hne), List.append_cancel_right_eq] at heq
  obtain ⟨hfront, hlines⟩ := List.append_inj heq rfl
  obtain rfl : ⌈singleSeconds (maxDuration 0 w.writer.playlist)⌉ = target := by
    simp only [List.cons.injEq, M3u8Line.targetDuration.injEq] at hfront
    exact hfront.2.2.2.2.1
  exact ⟨hlines, htarget⟩

theorem Mirrors.marksExact_of_lines (h : w.Mirrors directory) (hne : w.writer.playlist ≠ [])
    (heq : itemLines true w.writer.playlist = listing (headerBetween w.issued) w.playlist)
    (hseconds : SecondsKept (maxDuration 0 w.writer.playlist)) (ended : List M3u8Line) :
    w.MarksExact ended := by
  refine ⟨(sequence 0 w.writer.playlist).tmod 100000000,
    ⌈singleSeconds (maxDuration 0 w.writer.playlist)⌉, ?_, ?_⟩
  · unfold makeContent
    rw [if_neg (by simpa using hne), heq]
  · rw [← h.media_tracers.1]
    exact (target_iff _).mpr hseconds

/-- Headers of the writer are side by side only while nothing is listed, and then there are
    no more than two of them. -/
def HeadersOnce (w : TracedPlaylist) : Prop :=
  if w.playlist = [] then w.writer.playlist.length ≤ 2 else HeadersApart w.writer.playlist

theorem Mirrors.writer_ne_nil (h : w.Mirrors directory) (hissued : w.issued ≠ []) :
    w.writer.playlist ≠ [] := by
  obtain ⟨-, ⟨hnil, -⟩ | ⟨gone, lead, kept, hmirrored⟩⟩ := h
  · exact absurd hnil hissued
  · rw [hmirrored.window.traced_eq]
    exact List.append_ne_nil_of_left_ne_nil hmirrored.window.lead_ne_nil kept

/-- In every state reached, the text is right exactly if the headers are apart and the longest
    fragment keeps its seconds. -/
theorem Mirrors.marksExact_iff (h : w.Mirrors directory) (hissued : w.issued ≠ [])
    (ended : List M3u8Line) :
    w.MarksExact ended ↔ w.HeadersOnce ∧ SecondsKept (maxDuration 0 w.writer.playlist) := by
  have hne := h.writer_ne_nil hissued
  have hlines : w.MarksExact ended ↔ itemLines true w.writer.playlist
      = listing (headerBetween w.issued) w.playlist
      ∧ SecondsKept (maxDuration 0 w.writer.playlist) := by
    constructor
    · intro hexact
      obtain ⟨heq, htarget⟩ := hexact.lines hne
      rw [← h.media_tracers.1] at htarget
      exact ⟨heq, (target_iff _).mp htarget⟩
    · intro hboth
      exact h.marksExact_of_lines hne hboth.1 hboth.2 ended
  rw [hlines, and_congr_left_iff]
  intro
  obtain ⟨hnumbered, ⟨hnil, -⟩ | ⟨gone, lead, kept, hmirrored⟩⟩ := h
  · exact absurd hnil hissued
  · have hwindow := hmirrored.window
    have htells : Tells (headerBetween w.issued) kept := by
      intro front a mid b back heq ha hmid _
      have hissued : w.issued = (gone ++ front) ++ a :: (mid ++ b :: back) := by
        rw [hwindow.issued_eq, heq, List.append_assoc]
      exact headerBetween_eq hissued (hnumbered.nodup.of_map _) ha hmid
    have hkept := hwindow.kept_eq_nil_iff
    have hiff := itemLines_append_iff hwindow.lead_ne_nil hwindow.lead_isHeader hwindow.kept_head
      htells
    rw [hwindow.media_kept, ← hwindow.traced_eq] at hiff
    rw [hiff, HeadersOnce]
    by_cases hnil : kept = []
    · rw [if_pos hnil, if_pos (hkept.mpr hnil), hwindow.traced_eq, hnil, List.append_nil]
    · rw [if_neg hnil, if_neg (fun h => hnil (hkept.mp h))]

/-! ## Runs that keep the headers apart -/

/-- The last entry of the writer's list is no header. -/
def EndsInFragment (w : TracedPlaylist) : Prop :=
  ∀ last ∈ w.writer.playlist.getLast?, last.isHeader = false

/-- No header comes while the writer's list ends in one, and the only fragment listed is not
    removed while a header is behind it. -/
def KeepsApart (w : TracedPlaylist) : TracerCall → Prop
  | .updateHeader => w.EndsInFragment
  | .add _ _ _ _ _ => True
  | .removeFirst => w.playlist.length ≤ 1 → w.EndsInFragment
  | .closed => True

instance (w : TracedPlaylist) : Decidable w.EndsInFragment :=
  inferInstanceAs (Decidable (∀ last ∈ w.writer.playlist.getLast?, last.isHeader = false))

instance (w : TracedPlaylist) (a : TracerCall) : Decidable (w.KeepsApart a) :=
  match a with
  | .updateHeader => inferInstanceAs (Decidable w.EndsInFragment)
  | .add _ _ _ _ _ => inferInstanceAs (Decidable True)
  | .removeFirst => inferInstanceAs (Decidable (w.playlist.length ≤ 1 → w.EndsInFragment))
  | .closed => inferInstanceAs (Decidable True)

theorem headersApart_push {playlist : List PlayItem} {item : PlayItem}
    (h : HeadersApart playlist)
    (hlast : ∀ last ∈ playlist.getLast?, ¬ (last.isHeader = true ∧ item.isHeader = true)) :
    HeadersApart (playlist ++ [item]) := by
  refine List.IsChain.append h (List.isChain_singleton item) ?_
  intro last hlast' x hx
  obtain rfl := Option.mem_some.mp hx
  exact hlast last hlast'

theorem headersApart_prune {playlist : List PlayItem} (h : HeadersApart playlist) :
    HeadersApart (removeUselessHeaders playlist) := h.drop _

/-- Headers that are apart are one header. -/
theorem singleton_of_apart {lead kept : List PlayItem} (hne : lead ≠ [])
    (hlead : ∀ h ∈ lead, h.isHeader = true) (h : HeadersApart (lead ++ kept)) :
    ∃ header, lead = [header] := by
  obtain ⟨header, rest, rfl⟩ := List.exists_cons_of_ne_nil hne
  cases rest with
  | nil => exact ⟨header, rfl⟩
  | cons second rest =>
      exact absurd ⟨hlead header List.mem_cons_self,
        hlead second (List.mem_cons_of_mem header List.mem_cons_self)⟩
        (List.isChain_cons_cons.mp h).1

/-- The first fragment goes, and a header behind it takes the place of the one in front. -/
theorem headersApart_erase {header item : PlayItem} {tail : List PlayItem}
    (h : HeadersApart (header :: item :: tail))
    (hend : media tail = [] → ∀ last ∈ tail.getLast?, last.isHeader = false) :
    HeadersApart (removeUselessHeaders ([header] ++ tail)) := by
  have htail : HeadersApart tail := h.suffix ⟨[header, item], rfl⟩
  cases tail with
  | nil => exact headersApart_prune (List.isChain_singleton header)
  | cons second rest =>
      cases hsecond : second.isHeader with
      | false =>
          refine headersApart_prune ?_
          show HeadersApart (header :: second :: rest)
          exact List.isChain_cons_cons.mpr ⟨by simp [hsecond], htail⟩
      | true =>
          cases rest with
          | nil =>
              have hlast := hend (media_of_headers (by simpa using hsecond)) second rfl
              cases hsecond.symm.trans hlast
          | cons third rest =>
              have hthird : third.isHeader = false := by
                have hnot := (List.isChain_cons_cons.mp htail).1
                simpa [hsecond] using hnot
              have huseless : uselessHeaders (header :: [second] ++ third :: rest) = 1 :=
                uselessHeaders_append header (by simpa using hsecond) (by simpa using hthird)
              have hprune : removeUselessHeaders ([header] ++ second :: third :: rest)
                  = second :: third :: rest := by
                unfold removeUselessHeaders
                show List.drop (uselessHeaders (header :: [second] ++ third :: rest)) _ = _
                rw [huseless]
                rfl
              rw [hprune]
              exact htail

/-- The headers stay apart in a step that keeps them so. -/
theorem headersApart_step {a : TracerCall} (hmirrors : w.Mirrors directory)
    (h : HeadersApart w.writer.playlist) (henabled : w.Enabled a) (hkeeps : w.KeepsApart a)
    (ht : step directory w a = .ok t) : HeadersApart t.writer.playlist := by
  cases a with
  | updateHeader =>
      cases ht
      refine headersApart_prune (headersApart_push h ?_)
      intro last hlast
      simp [hkeeps last hlast]
  | add skipped pts duration startByKeyframe size =>
      cases ht
      refine headersApart_push h ?_
      rintro last - ⟨-, hitem⟩
      cases hitem
  | removeFirst =>
      obtain ⟨hnumbered, ⟨-, hnil, -⟩ | ⟨gone, lead, kept, hmirrored⟩⟩ := hmirrors
      · exact absurd hnil henabled
      · have hwindow := hmirrored.window
        cases hplaylist : w.playlist with
        | nil => exact absurd hplaylist henabled
        | cons item rest =>
            rw [hplaylist] at hwindow
            obtain ⟨tail, rfl, hrest, herase⟩ := hwindow.eraseItem_eq hnumbered.nodup
            have htraced := hwindow.traced_eq
            obtain ⟨header, rfl⟩ :=
              singleton_of_apart hwindow.lead_ne_nil hwindow.lead_isHeader (htraced ▸ h)
            simp only [step, hplaylist] at ht
            cases ht
            show HeadersApart (removeUselessHeaders (eraseItem w.writer.playlist item))
            rw [herase]
            refine headersApart_erase (htraced ▸ h) ?_
            -- the fragment is the only one listed, so the guard says what is last
            intro hmedia last hlast
            refine hkeeps ?_ last ?_
            · rw [hplaylist, hrest, hmedia]
              simp
            · rw [htraced]
              simp only [Option.mem_def] at hlast ⊢
              simp [List.getLast?_cons, hlast]
  | closed =>
      cases ht
      rw [show (w.writer.closed).playlist = w.writer.playlist from w.writer.closed_playlist]
      exact h

/-! ## Steps that bring headers together -/

theorem removeUselessHeaders_headers {lead : List PlayItem}
    (hlead : ∀ h ∈ lead, h.isHeader = true) : removeUselessHeaders lead = lead := by
  cases lead with
  | nil => rfl
  | cons header lead =>
      have huseless : uselessHeaders (header :: lead ++ []) = 0 :=
        uselessHeaders_append header (fun x hx => hlead x (List.mem_cons_of_mem header hx)) nofun
      rw [List.append_nil] at huseless
      rw [removeUselessHeaders, huseless, List.drop_zero]

theorem not_headersApart_push {playlist : List PlayItem} {last header : PlayItem}
    (hmem : last ∈ playlist.getLast?) (hlast : last.isHeader = true)
    (hheader : header.isHeader = true) : ¬ HeadersApart (playlist ++ [header]) := by
  intro h
  obtain ⟨front, rfl⟩ := List.getLast?_eq_some_iff.mp hmem
  rw [List.append_assoc] at h
  exact (List.isChain_cons_cons.mp h.right_of_append).1 ⟨hlast, hheader⟩

theorem exists_header_of_not_ends (h : ¬ w.EndsInFragment) :
    ∃ last ∈ w.writer.playlist.getLast?, last.isHeader = true := by
  unfold EndsInFragment at h
  simpa using h

/-- A header behind a header, where the list is cut at its first fragment. -/
theorem not_headersApart_prune_push {lead kept : List PlayItem} {last header : PlayItem}
    (hne : lead ≠ []) (hlead : ∀ h ∈ lead, h.isHeader = true)
    (hkept : ∀ x ∈ kept.head?, x.isHeader = false) (hmem : last ∈ (lead ++ kept).getLast?)
    (hlast : last.isHeader = true) (hheader : header.isHeader = true) :
    ¬ HeadersApart (removeUselessHeaders (lead ++ kept ++ [header])) := by
  cases kept with
  | nil =>
      rw [List.append_nil] at hmem ⊢
      rw [removeUselessHeaders_headers]
      · exact not_headersApart_push hmem hlast hheader
      · intro x hx
        rcases List.mem_append.mp hx with hx | hx
        · exact hlead x hx
        · rw [List.mem_singleton.mp hx]
          exact hheader
  | cons item kept =>
      obtain ⟨lead', hprune, -, -⟩ := removeUselessHeaders_append hlead hne
        (show ∀ x ∈ (item :: kept ++ [header]).head?, x.isHeader = false from hkept)
      rw [List.append_assoc, hprune, ← List.append_assoc]
      refine not_headersApart_push ?_ hlast hheader
      simpa [List.getLast?_append] using hmem

/-- The only fragment goes, and a header behind it meets the one in front. -/
theorem not_headersApart_prune_erase {lead tail : List PlayItem} {item last : PlayItem}
    (hne : lead ≠ []) (hlead : ∀ h ∈ lead, h.isHeader = true) (hitem : item.isHeader = false)
    (hmedia : media tail = []) (hmem : last ∈ (lead ++ item :: tail).getLast?)
    (hlast : last.isHeader = true) : ¬ HeadersApart (removeUselessHeaders (lead ++ tail)) := by
  have hheaders : ∀ x ∈ lead ++ tail, x.isHeader = true := by
    intro x hx
    rcases List.mem_append.mp hx with hx | hx
    · exact hlead x hx
    · simpa using List.filter_eq_nil_iff.mp hmedia x hx
  rw [removeUselessHeaders_headers hheaders]
  cases tail with
  | nil =>
      obtain rfl : item = last := by simpa using hmem
      cases hitem.symm.trans hlast
  | cons header tail =>
      intro hchain
      obtain ⟨first, rfl⟩ := singleton_of_apart hne hlead hchain
      exact (List.isChain_cons_cons.mp hchain).1
        ⟨hheaders first (by simp), hheaders header (by simp)⟩

/-- A step that does not keep the headers apart brings two of them together. -/
theorem not_headersApart_step {a : TracerCall} (hmirrors : w.Mirrors directory)
    (henabled : w.Enabled a) (hkeeps : ¬ w.KeepsApart a)
    (ht : step directory w a = .ok t) : ¬ HeadersApart t.writer.playlist := by
  obtain ⟨hnumbered, hblank | ⟨gone, lead, kept, hmirrored⟩⟩ := hmirrors
  · -- without a header there is no last entry
    have hends : w.EndsInFragment := by
      unfold EndsInFragment
      rw [hblank.2.2.1]
      exact nofun
    cases a with
    | updateHeader => exact absurd hends hkeeps
    | removeFirst => exact absurd (fun _ => hends) hkeeps
    | add skipped pts duration startByKeyframe size => exact absurd trivial hkeeps
    | closed => exact absurd trivial hkeeps
  · have hwindow := hmirrored.window
    have htraced := hwindow.traced_eq
    cases a with
    | updateHeader =>
        obtain ⟨last, hmem, hlast⟩ := exists_header_of_not_ends hkeeps
        cases ht
        show ¬ HeadersApart (removeUselessHeaders (w.writer.playlist ++ [.header w.made]))
        rw [htraced] at hmem ⊢
        exact not_headersApart_prune_push hwindow.lead_ne_nil hwindow.lead_isHeader
          hwindow.kept_head hmem hlast rfl
    | removeFirst =>
        have hlength : w.playlist.length ≤ 1 := by
          by_contra hlong
          exact hkeeps fun h => absurd h hlong
        obtain ⟨last, hmem, hlast⟩ := exists_header_of_not_ends fun h => hkeeps fun _ => h
        cases hplaylist : w.playlist with
        | nil => exact absurd hplaylist henabled
        | cons item rest =>
            rw [hplaylist] at hwindow hlength
            obtain ⟨tail, rfl, hrest, herase⟩ := hwindow.eraseItem_eq hnumbered.nodup
            have hmedia : media tail = [] := by
              rw [← hrest]
              exact List.length_eq_zero_iff.mp (by simpa using hlength)
            simp only [step, hplaylist] at ht
            cases ht
            show ¬ HeadersApart (removeUselessHeaders (eraseItem w.writer.playlist item))
            rw [herase]
            exact not_headersApart_prune_erase hwindow.lead_ne_nil hwindow.lead_isHeader
              (hwindow.kept_head item rfl) hmedia (htraced ▸ hmem) hlast
    | add skipped pts duration startByKeyframe size => exact absurd trivial hkeeps
    | closed => exact absurd trivial hkeeps

theorem restrict_headersApart
    (h : ((tracedPlaylist directory start).restrict KeepsApart).Reachable w) :
    HeadersApart w.writer.playlist := by
  have hinit : HeadersApart (tracedPlaylist directory start).init.writer.playlist := .nil
  refine h.invariant_reachable (P := fun w => HeadersApart w.writer.playlist) hinit ?_
  intro s a t hs hapart henabled hrun
  exact headersApart_step (mirrors_of_reachable hs.of_restrict) hapart henabled.1 henabled.2 hrun

theorem headersOnce_of_apart (hmirrors : w.Mirrors directory)
    (h : HeadersApart w.writer.playlist) : w.HeadersOnce := by
  unfold HeadersOnce
  split
  · rename_i hempty
    obtain ⟨-, ⟨-, -, hnil, -⟩ | ⟨gone, lead, kept, hmirrored⟩⟩ := hmirrors
    · rw [hnil]
      exact Nat.zero_le 2
    · -- nothing is listed, so the list is one header
      have hwindow := hmirrored.window
      have htraced := hwindow.traced_eq
      rw [hwindow.kept_eq_nil_iff.mp hempty] at htraced
      obtain ⟨header, rfl⟩ :=
        singleton_of_apart hwindow.lead_ne_nil hwindow.lead_isHeader (htraced ▸ h)
      rw [htraced]
      exact Nat.le_succ 1
  · exact h

/-! ## Runs that keep the seconds -/

/-- A fragment that is added keeps its seconds. -/
def KeepsSeconds (_w : TracedPlaylist) : TracerCall → Prop
  | .add _ _ duration _ _ => SecondsKept duration
  | _ => True

/-- The headers stay apart, and every fragment keeps its seconds. -/
def KeepsExact (w : TracedPlaylist) (a : TracerCall) : Prop := w.KeepsApart a ∧ w.KeepsSeconds a

instance (w : TracedPlaylist) (a : TracerCall) : Decidable (w.KeepsSeconds a) :=
  match a with
  | .add _ _ _ _ _ => inferInstanceAs (Decidable (SecondsKept _))
  | .updateHeader | .removeFirst | .closed => inferInstanceAs (Decidable True)

instance (w : TracedPlaylist) (a : TracerCall) : Decidable (w.KeepsExact a) :=
  inferInstanceAs (Decidable (_ ∧ _))

/-- A fragment listed after a step was listed before it, or has just been added. -/
theorem secondsKept_step {a : TracerCall} (h : ∀ item ∈ w.playlist, SecondsKept item.duration)
    (hkeeps : w.KeepsSeconds a) (ht : step directory w a = .ok t) :
    ∀ item ∈ t.playlist, SecondsKept item.duration := by
  cases a with
  | updateHeader =>
      cases ht
      exact h
  | add skipped pts duration startByKeyframe size =>
      cases ht
      exact List.forall_mem_append.mpr ⟨h, List.forall_mem_singleton.mpr hkeeps⟩
  | removeFirst =>
      cases hplaylist : w.playlist with
      | nil =>
          simp only [step, hplaylist] at ht
          cases ht
          exact h
      | cons item rest =>
          simp only [step, hplaylist] at ht
          cases ht
          exact fun x hx => h x (hplaylist ▸ List.mem_cons_of_mem item hx)
  | closed =>
      cases ht
      exact h

theorem restrict_secondsKept
    (h : ((tracedPlaylist directory start).restrict KeepsExact).Reachable w) :
    ∀ item ∈ w.playlist, SecondsKept item.duration := by
  have hinit : ∀ item ∈ (tracedPlaylist directory start).init.playlist,
      SecondsKept item.duration := List.forall_mem_nil _
  refine h.invariant (P := fun w => ∀ item ∈ w.playlist, SecondsKept item.duration) hinit ?_
  intro s a t hs henabled hrun
  exact secondsKept_step hs henabled.2.2 hrun

/-- In every run whose steps keep the headers apart and add no fragment that loses a second, the
    text is right in every state. After a step that does not keep the headers apart, it is wrong
    as soon as a fragment is added; and it is wrong when a fragment that loses a second is added
    and is the longest one listed. -/
theorem discontinuities_exact (directory : List Char) (start : Int) :
    (∀ w, ((tracedPlaylist directory start).restrict KeepsExact).Reachable w → w.issued ≠ [] →
        ∀ ended, w.MarksExact ended)
    ∧ (∀ w a t skipped pts duration startByKeyframe size u,
        ((tracedPlaylist directory start).restrict KeepsApart).Reachable w →
        w.Enabled a → ¬ w.KeepsApart a → step directory w a = .ok t →
        t.Enabled (.add skipped pts duration startByKeyframe size) →
        step directory t (.add skipped pts duration startByKeyframe size) = .ok u →
        ∀ ended, ¬ u.MarksExact ended)
    ∧ ∀ w skipped pts duration startByKeyframe size u,
        (tracedPlaylist directory start).Reachable w →
        w.Enabled (.add skipped pts duration startByKeyframe size) → ¬ SecondsKept duration →
        (∀ item ∈ w.playlist, item.duration ≤ duration) →
        step directory w (.add skipped pts duration startByKeyframe size) = .ok u →
        ∀ ended, ¬ u.MarksExact ended := by
  refine ⟨?_, ?_, ?_⟩
  · intro w hw hissued ended
    have hmirrors := mirrors_of_reachable hw.of_restrict
    have hapart : ((tracedPlaylist directory start).restrict KeepsApart).Reachable w :=
      hw.restrict_mono fun _ _ _ _ hkeeps => hkeeps.1
    have hseconds := restrict_secondsKept hw
    rw [← hmirrors.media_tracers.1] at hseconds
    exact (hmirrors.marksExact_iff hissued ended).mpr
      ⟨headersOnce_of_apart hmirrors (restrict_headersApart hapart),
        secondsKept_maxDuration hseconds⟩
  · intro w a t skipped pts duration startByKeyframe size u hw henabled hkeeps ht hadd hu ended
    have hmirrors := mirrors_of_reachable hw.of_restrict
    have hnot := not_headersApart_step hmirrors henabled hkeeps ht
    have hu' := mirrors_step (mirrors_step hmirrors henabled ht) hadd hu
    cases hu
    rw [hu'.marksExact_iff (by simp)]
    rintro ⟨happart, -⟩
    unfold HeadersOnce at happart
    rw [if_neg (by simp)] at happart
    exact hnot (List.IsChain.left_of_append happart)
  · intro w skipped pts duration startByKeyframe size u hw henabled hlost hlongest hu ended
    have hmirrors := mirrors_step (mirrors_of_reachable hw) henabled hu
    have hplaylist : ∀ item ∈ u.playlist, item.duration ≤ duration := by
      cases hu
      exact List.forall_mem_append.mpr ⟨hlongest, List.forall_mem_singleton.mpr (Int.le_refl _)⟩
    obtain ⟨item, hitem, hduration⟩ : ∃ item ∈ u.playlist, item.duration = duration := by
      cases hu
      exact ⟨_, List.mem_append_right _ (List.mem_singleton_self _), rfl⟩
    have hissued : u.issued ≠ [] := by
      cases hu
      simp
    rw [← hmirrors.media_tracers.1] at hplaylist hitem
    rw [hmirrors.marksExact_iff hissued]
    rintro ⟨-, hkept⟩
    -- the new fragment is the longest
    have hpos : 0 < duration := by
      by_contra hneg
      exact hlost fun h => absurd h hneg
    have hmax : maxDuration 0 u.writer.playlist = duration := by
      refine le_antisymm ?_ (hduration ▸ (le_maxDuration 0 u.writer.playlist).2 item hitem)
      rcases maxDuration_mem 0 u.writer.playlist with hzero | ⟨x, hx, hx'⟩
      · rw [hzero]
        exact hpos.le
      · exact hx' ▸ hplaylist x hx
    exact hlost (hmax ▸ hkept)

/-- A header, a fragment, a header, a fragment; then the first fragment is removed. -/
theorem discontinuities_exact_two :
    ∃ w : TracedPlaylist, w.playlist.length = 1 ∧ (headers w.issued).length = 2
      ∧ w.MarksExact [] := by
  obtain ⟨w, hw, hp⟩ := Machine.reachable_of_runs
    (M := (tracedPlaylist "d".toList 0).restrict KeepsExact)
    (p := fun w => decide (w.playlist.length = 1 ∧ (headers w.issued).length = 2
      ∧ w.issued ≠ []))
    [.updateHeader, .add 0 0 1000 true 188, .updateHeader, .add 0 1000 1000 true 188,
      .removeFirst] (by decide +kernel)
  obtain ⟨hlength, hheaders, hissued⟩ := of_decide_eq_true hp
  exact ⟨w, hlength, hheaders, (discontinuities_exact "d".toList 0).1 w hw hissued []⟩

/-- Two headers between two fragments. -/
theorem discontinuities_double :
    ¬ ∀ (directory : List Char) (start : Int) (w : TracedPlaylist),
      (tracedPlaylist directory start).Reachable w → w.issued ≠ [] → w.MarksExact [] := by
  intro hall
  obtain ⟨w, hw, hp⟩ := Machine.reachable_of_runs (M := tracedPlaylist "d".toList 0)
    (p := fun w => decide (w.writer.playlist ≠ [] ∧ w.issued ≠ []
      ∧ itemLines true w.writer.playlist ≠ listing (headerBetween w.issued) w.playlist))
    [.updateHeader, .add 0 0 1000 true 188, .updateHeader, .updateHeader,
      .add 0 1000 1000 true 188] (by decide +kernel)
  obtain ⟨hne, hissued, hlines⟩ := of_decide_eq_true hp
  exact hlines ((hall _ _ w hw hissued).lines hne).1

end TracedPlaylist

end SeastarLive
