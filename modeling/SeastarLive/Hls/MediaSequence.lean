/-
SeastarLive.Hls.MediaSequence — the numbers behind `#EXT-X-MEDIA-SEQUENCE`.

The scan of `make_content` takes an id of 0 for "not found yet" and goes on to
the next fragment. What it finds never goes back while fragments come in at the
end with ids that do not fall and go at the front, and that is so in every run
of a session: whatever fails, and whichever writer is at work. What is printed
is its remainder by 10^8, and goes back where a multiple of 10^8 is passed.
-/
import SeastarLive.Hls.PlaySessionV3Theorems

namespace SeastarLive

open Flv PlayItem Hls

namespace M3u8

/-! ## The scan -/

theorem sequence_of_ne_zero {first : Int} (h : first ≠ 0) (playlist : List PlayItem) :
    sequence first playlist = first := by
  induction playlist with
  | nil => rfl
  | cons item rest ih => simp [sequence, h, ih]

theorem sequence_append (first : Int) (front back : List PlayItem) :
    sequence first (front ++ back) = sequence (sequence first front) back := by
  induction front generalizing first with
  | nil => rfl
  | cons item rest ih =>
      simp only [List.cons_append, sequence]
      split
      · exact ih first
      · split <;> exact ih _

/-- Headers are passed over. -/
theorem sequence_media (first : Int) (playlist : List PlayItem) :
    sequence first (media playlist) = sequence first playlist := by
  induction playlist generalizing first with
  | nil => rfl
  | cons item rest ih =>
      cases hitem : item.isHeader with
      | true =>
          rw [media_cons_header hitem, ih]
          simp [sequence, hitem]
      | false =>
          rw [media_cons_media hitem]
          simp [sequence, hitem, ih]

/-- What is found is the id of a fragment that is listed. -/
theorem sequence_mem {playlist : List PlayItem} (hne : playlist ≠ [])
    (hmedia : ∀ item ∈ playlist, item.isHeader = false) :
    ∃ item ∈ playlist, item.id = sequence 0 playlist := by
  induction playlist with
  | nil => exact absurd rfl hne
  | cons item rest ih =>
      have hitem : item.isHeader = false := hmedia item List.mem_cons_self
      by_cases hid : item.id = 0
      · have hskip : sequence 0 (item :: rest) = sequence 0 rest := by
          simp [sequence, hitem, hid]
        rw [hskip]
        by_cases hrest : rest = []
        · exact ⟨item, List.mem_cons_self, by rw [hrest, hid]; rfl⟩
        · obtain ⟨x, hx, hfound⟩ := ih hrest fun x hx => hmedia x (List.mem_cons_of_mem item hx)
          exact ⟨x, List.mem_cons_of_mem item hx, hfound⟩
      · refine ⟨item, List.mem_cons_self, ?_⟩
        simp [sequence, hitem, sequence_of_ne_zero hid]

/-- A fragment comes in at the end, and its id is not less than the others. -/
theorem sequence_push {playlist : List PlayItem} {item : PlayItem} (hne : playlist ≠ [])
    (hmedia : ∀ x ∈ playlist, x.isHeader = false) (hless : ∀ x ∈ playlist, x.id ≤ item.id)
    (hitem : item.isHeader = false) :
    sequence 0 playlist ≤ sequence 0 (playlist ++ [item]) := by
  rw [sequence_append]
  by_cases hzero : sequence 0 playlist = 0
  · obtain ⟨x, hx, hid⟩ := sequence_mem hne hmedia
    have hlt := hless x hx
    have hnew : sequence 0 [item] = item.id := by
      simp [sequence, hitem]
    rw [hzero, hnew]
    omega
  · exact Int.le_of_eq (sequence_of_ne_zero hzero [item]).symm

/-- Fragments go at the front. -/
theorem sequence_suffix {playlist kept : List PlayItem} (hsuffix : kept <:+ playlist)
    (hne : kept ≠ []) (hmedia : ∀ x ∈ playlist, x.isHeader = false)
    (hordered : playlist.Pairwise fun a b => a.id ≤ b.id) :
    sequence 0 playlist ≤ sequence 0 kept := by
  obtain ⟨front, rfl⟩ := hsuffix
  rw [sequence_append]
  by_cases hzero : sequence 0 front = 0
  · exact Int.le_of_eq (congrArg (fun n => sequence n kept) hzero)
  · rw [sequence_of_ne_zero hzero]
    have hfront : front ≠ [] := by
      rintro rfl
      exact hzero rfl
    obtain ⟨x, hx, hfound⟩ := sequence_mem hfront fun x hx =>
      hmedia x (List.mem_append_left kept hx)
    obtain ⟨y, hy, hfound'⟩ := sequence_mem hne fun y hy =>
      hmedia y (List.mem_append_right front hy)
    have hle := (List.pairwise_append.mp hordered).2.2 x hx y hy
    omega

/-! ## The remainder -/

/-- The number in a playlist file. -/
def mediaSequence? : List M3u8Line → Option Int
  | [] => none
  | .mediaSequence n :: _ => some n
  | _ :: rest => mediaSequence? rest

theorem mediaSequence_makeContent {playlist : List PlayItem} (hne : playlist ≠ [])
    (ended : List M3u8Line) :
    mediaSequence? (makeContent playlist ended) = some ((sequence 0 playlist).tmod 100000000) := by
  unfold makeContent
  rw [if_neg (by simpa using hne)]
  rfl

/-- The remainder of the greater number is the greater one unless a multiple is passed. -/
theorem tmod_le_tmod_iff {a b : Int} (hle : a ≤ b) (hlt : b < a + 100000000) :
    a.tmod 100000000 ≤ b.tmod 100000000 ↔ a.tdiv 100000000 = b.tdiv 100000000 := by
  have ha := Int.mul_tdiv_add_tmod a 100000000
  have hb := Int.mul_tdiv_add_tmod b 100000000
  have hquotient : a.tdiv 100000000 ≤ b.tdiv 100000000 := Int.tdiv_le_tdiv (by decide) hle
  omega

end M3u8

/-! ## Playlist files -/

/-- A list in order, with one more at its end. -/
theorem pairwise_concat {α : Type} {R : α → α → Prop} {xs : List α} {y : α}
    (hxs : xs.Pairwise R) (hy : ∀ x ∈ xs, R x y) : (xs ++ [y]).Pairwise R := by
  refine List.pairwise_append.mpr ⟨hxs, List.pairwise_singleton R y, ?_⟩
  intro x hx z hz
  rw [List.mem_singleton.mp hz]
  exact hy x hx

/-- The playlist files have the remainders of numbers that do not go back, up to `bound`. -/
structure Sequenced (files : List M3u8File) (bound : Int) : Prop where
  printed : ∀ p ∈ files, p.playlist ≠ [] →
    M3u8.mediaSequence? p.content = some ((M3u8.sequence 0 p.playlist).tmod 100000000)
  bounded : ∀ p ∈ files, media p.playlist ≠ [] → M3u8.sequence 0 p.playlist ≤ bound
  ordered : files.Pairwise fun p q => media p.playlist ≠ [] → media q.playlist ≠ [] →
    M3u8.sequence 0 p.playlist ≤ M3u8.sequence 0 q.playlist

namespace Sequenced

theorem mono {files : List M3u8File} {bound bound' : Int} (h : Sequenced files bound)
    (hle : bound ≤ bound') : Sequenced files bound' where
  printed := h.printed
  bounded := fun p hp hne => Int.le_trans (h.bounded p hp hne) hle
  ordered := h.ordered

/-- A file is made whose number is the bound. -/
theorem push {files : List M3u8File} {bound : Int} (h : Sequenced files bound)
    {playlist : List PlayItem} (ended : List M3u8Line)
    (hbound : media playlist ≠ [] → M3u8.sequence 0 playlist = bound) :
    Sequenced (files ++ [{ playlist, content := M3u8.makeContent playlist ended }]) bound where
  printed := by
    intro p hp hne
    rcases List.mem_append.mp hp with hp | hp
    · exact h.printed p hp hne
    · obtain rfl := List.mem_singleton.mp hp
      exact M3u8.mediaSequence_makeContent hne ended
  bounded := by
    intro p hp hne
    rcases List.mem_append.mp hp with hp | hp
    · exact h.bounded p hp hne
    · obtain rfl := List.mem_singleton.mp hp
      exact Int.le_of_eq (hbound hne)
  ordered := by
    refine pairwise_concat h.ordered ?_
    intro p hp hpne hqne
    exact Int.le_trans (h.bounded p hp hpne) (Int.le_of_eq (hbound hqne).symm)

end Sequenced

namespace HlsSession

/-! ## One writer -/

/-- The number of the next playlist file is not less than this, if `last` is the last id. -/
def sequenceBound (writer : Option M3u8Writer) (last : Int) : Int :=
  match writer with
  | some w => if media w.playlist = [] then last else M3u8.sequence 0 w.playlist
  | none => last

theorem media_drop_suffix (n : Nat) (playlist : List PlayItem) :
    PlayItem.media (playlist.drop n) <:+ PlayItem.media playlist := by
  refine ⟨PlayItem.media (playlist.take n), ?_⟩
  rw [← media_append, List.take_append_drop]

/-- A fragment that a list has first is taken off it, and headers in front of it stay. -/
theorem media_eraseItem_first {traced : List PlayItem} {item : PlayItem} {rest : List PlayItem}
    (htraced : traced.Pairwise fun a b => a.address < b.address)
    (hall : PlayItem.media traced = item :: rest) :
    PlayItem.media (eraseItem traced item) = rest := by
  have hfirst : item ∈ PlayItem.media traced := by
    rw [hall]
    exact List.mem_cons_self
  obtain ⟨hmem, hitem⟩ := List.mem_filter.mp hfirst
  have hitem : item.isHeader = false := by simpa using hitem
  obtain ⟨a, front, back, hfront, haddress, heq, herase⟩ :=
    List.exists_of_eraseP (p := fun x => x.address == item.address) hmem (by simp)
  have haddress : a.address = item.address := by simpa using haddress
  have hnot : item ∉ front := fun hin => hfront item hin (by simp)
  -- no other object has its address
  have hsame : a = item := by
    rw [heq, List.mem_append, List.mem_cons] at hmem
    rcases hmem with hin | hin | hin
    · exact absurd hin hnot
    · exact hin.symm
    · rw [heq, List.pairwise_append, List.pairwise_cons] at htraced
      have hlt := htraced.2.1.1 item hin
      omega
  have hmedia : PlayItem.media front ++ item :: PlayItem.media back = item :: rest := by
    rw [← hall, heq, media_append, hsame, media_cons_media hitem]
  have hnil : PlayItem.media front = [] := by
    cases hcase : PlayItem.media front with
    | nil => rfl
    | cons b r =>
        rw [hcase] at hmedia
        obtain rfl := (List.cons.inj hmedia).1
        have hin : b ∈ PlayItem.media front := by
          rw [hcase]
          exact List.mem_cons_self
        exact absurd (List.mem_filter.mp hin).1 hnot
  rw [hnil] at hmedia
  unfold eraseItem
  rw [herase, media_append, hnil]
  exact (List.cons.inj hmedia).2

/-- Where a fragment is not listed, a header is erased, if anything. -/
theorem media_eraseItem_unlisted {traced : List PlayItem} {item : PlayItem}
    (hother : ∀ a ∈ PlayItem.media traced, a.address ≠ item.address) :
    PlayItem.media (eraseItem traced item) = PlayItem.media traced := by
  unfold eraseItem
  rcases List.exists_or_eq_self_of_eraseP (fun x => x.address == item.address) traced with
    hself | ⟨a, front, back, -, haddress, heq, herase⟩
  · rw [hself]
  · cases hheader : a.isHeader with
    | true => rw [herase, heq, media_append, media_append, media_cons_header hheader]
    | false =>
        have hmem : a ∈ PlayItem.media traced := by
          rw [heq, media_append, media_cons_media hheader]
          simp
        have haddress : a.address = item.address := by simpa using haddress
        exact absurd haddress (hother a hmem)

/-- The removal of the first listed fragment takes it off a list, if it is there, and nothing
    else but headers. -/
theorem media_eraseItem {traced : List PlayItem} {item : PlayItem} {rest : List PlayItem}
    (htraced : traced.Pairwise fun a b => a.address < b.address)
    (haddresses : (item :: rest).Pairwise fun a b => a.address < b.address)
    (hsuffix : PlayItem.media traced <:+ item :: rest) :
    PlayItem.media (eraseItem traced item) <:+ rest
      ∧ PlayItem.media (eraseItem traced item) <:+ PlayItem.media traced := by
  rcases List.suffix_cons_iff.mp hsuffix with hall | hrest
  · rw [media_eraseItem_first htraced hall, hall]
    exact ⟨List.suffix_refl rest, List.suffix_cons item rest⟩
  · have hother : ∀ a ∈ PlayItem.media traced, a.address ≠ item.address := by
      intro a ha
      have hlt := (List.pairwise_cons.mp haddresses).1 a (hrest.subset ha)
      omega
    rw [media_eraseItem_unlisted hother]
    exact ⟨hrest, List.suffix_refl _⟩

/-- What is listed are fragments with ids that do not fall, the writer lists an end of it, and
    the numbers of the playlist files do not go back. -/
structure Publishes (playlist : List PlayItem) (writer : Option M3u8Writer)
    (published : List M3u8File) (made : Nat) (last : Int) : Prop where
  isMedia : ∀ item ∈ playlist, item.isHeader = false
  ordered : playlist.Pairwise fun a b => a.id ≤ b.id
  le : ∀ item ∈ playlist, item.id ≤ last
  addresses : playlist.Pairwise fun a b => a.address < b.address
  address_lt : ∀ item ∈ playlist, item.address < made
  suffix : ∀ w ∈ writer, media w.playlist <:+ playlist
  traced : ∀ w ∈ writer, w.playlist.Pairwise fun a b => a.address < b.address
  traced_lt : ∀ w ∈ writer, ∀ item ∈ w.playlist, item.address < made
  files : Sequenced (published ++ (writer.map fun w => w.files).getD []) (sequenceBound writer last)

namespace Publishes

variable {playlist : List PlayItem} {writer : Option M3u8Writer} {published : List M3u8File}
  {made : Nat} {last : Int} {item : PlayItem} {rest : List PlayItem}

/-- The number of a writer that lists something is an id that was given. -/
theorem sequence_le (h : Publishes playlist writer published made last) {w : M3u8Writer}
    (hw : w ∈ writer) (hne : media w.playlist ≠ []) : M3u8.sequence 0 w.playlist ≤ last := by
  have hsubset := (h.suffix w hw).subset
  obtain ⟨x, hx, hid⟩ := M3u8.sequence_mem hne fun x hx => h.isMedia x (hsubset hx)
  rw [← M3u8.sequence_media, ← hid]
  exact h.le x (hsubset hx)

theorem bound_le (h : Publishes playlist writer published made last) :
    sequenceBound writer last ≤ last := by
  cases writer with
  | none => exact Int.le_refl last
  | some w =>
      unfold sequenceBound
      dsimp only
      split
      · exact Int.le_refl last
      · rename_i hne
        exact h.sequence_le rfl hne

/-- The bound does not go back when a writer lists an end of what it listed. -/
theorem bound_le_of_suffix {w v : M3u8Writer} (h : Publishes playlist (some w) published made last)
    (hsuffix : media v.playlist <:+ media w.playlist) :
    sequenceBound (some w) last ≤ sequenceBound (some v) last := by
  by_cases hnil : media v.playlist = []
  · have hlast : sequenceBound (some v) last = last := if_pos hnil
    rw [hlast]
    exact h.bound_le
  · have hne : media w.playlist ≠ [] := by
      intro hw
      rw [hw, List.suffix_nil] at hsuffix
      exact hnil hsuffix
    have hw := h.suffix w rfl
    have hle := M3u8.sequence_suffix hsuffix hnil (fun x hx => h.isMedia x (hw.subset hx))
      (h.ordered.sublist hw.sublist)
    have hv : sequenceBound (some v) last = M3u8.sequence 0 v.playlist := if_neg hnil
    have hw' : sequenceBound (some w) last = M3u8.sequence 0 w.playlist := if_neg hne
    rw [hv, hw', ← M3u8.sequence_media, ← M3u8.sequence_media 0 v.playlist]
    exact hle

/-- More ids and more objects are given. -/
theorem mono (h : Publishes playlist writer published made last) {made' : Nat} {last' : Int}
    (hmade : made ≤ made') (hlast : last ≤ last') :
    Publishes playlist writer published made' last' where
  isMedia := h.isMedia
  ordered := h.ordered
  le := fun item hitem => Int.le_trans (h.le item hitem) hlast
  addresses := h.addresses
  address_lt := fun item hitem => Nat.lt_of_lt_of_le (h.address_lt item hitem) hmade
  suffix := h.suffix
  traced := h.traced
  traced_lt := fun w hw item hitem => Nat.lt_of_lt_of_le (h.traced_lt w hw item hitem) hmade
  files := by
    refine h.files.mono ?_
    cases writer with
    | none => exact hlast
    | some w =>
        unfold sequenceBound
        dsimp only
        split
        · exact hlast
        · exact Int.le_refl _

/-- A header comes in, and useless ones go. -/
theorem header (h : Publishes playlist writer published made last) :
    Publishes playlist (writer.map fun w => w.onUpdateHeader (.header made)) published (made + 1)
      last := by
  have hnext := h.mono (Nat.le_succ made) (Int.le_refl last)
  cases writer with
  | none => exact hnext
  | some w =>
      have hmedia : media (w.onUpdateHeader (.header made)).playlist <:+ media w.playlist := by
        have hsuffix := media_drop_suffix (uselessHeaders (w.playlist ++ [.header made]))
          (w.playlist ++ [.header made])
        have hheader : media [PlayItem.header made] = [] := rfl
        rw [media_append, hheader, List.append_nil] at hsuffix
        exact hsuffix
      have hsublist : List.Sublist (w.onUpdateHeader (.header made)).playlist
          (w.playlist ++ [.header made]) := List.drop_sublist _ _
      refine { hnext with suffix := ?_, traced := ?_, traced_lt := ?_, files := ?_ }
      · intro x hx
        obtain rfl := Option.mem_some.mp hx
        exact hmedia.trans (h.suffix w rfl)
      · intro x hx
        obtain rfl := Option.mem_some.mp hx
        refine List.Pairwise.sublist hsublist ?_
        exact pairwise_concat (h.traced w rfl) fun a ha => h.traced_lt w rfl a ha
      · intro x hx item hitem
        obtain rfl := Option.mem_some.mp hx
        rcases List.mem_append.mp (hsublist.subset hitem) with hold | hnew
        · exact Nat.lt_succ_of_lt (h.traced_lt w rfl item hold)
        · obtain rfl := List.mem_singleton.mp hnew
          exact Nat.lt_succ_self made
      · exact h.files.mono (h.bound_le_of_suffix hmedia)

theorem media_onAddPlayitem (w : M3u8Writer) (hitem : item.isHeader = false) :
    media (w.onAddPlayitem item).playlist = media w.playlist ++ [item] := by
  show media (w.playlist ++ [item]) = _
  rw [media_append, media_cons_media hitem, media_nil]

theorem sequenceBound_onAddPlayitem (w : M3u8Writer) (hitem : item.isHeader = false) :
    sequenceBound (some (w.onAddPlayitem item)) last
      = M3u8.sequence 0 (w.playlist ++ [item]) := by
  have hne : media (w.onAddPlayitem item).playlist ≠ [] := by
    simp [media_onAddPlayitem w hitem]
  exact if_neg hne

/-- A fragment with the last id does not lower the bound. -/
theorem bound_le_onAddPlayitem {w : M3u8Writer}
    (h : Publishes playlist (some w) published made last) (hitem : item.isHeader = false)
    (hid : item.id = last) :
    sequenceBound (some w) last ≤ M3u8.sequence 0 (w.playlist ++ [item]) := by
  have hmedia : media (w.playlist ++ [item]) = media w.playlist ++ [item] :=
    media_onAddPlayitem w hitem
  rw [← M3u8.sequence_media, hmedia]
  by_cases hnil : media w.playlist = []
  · have hlast : sequenceBound (some w) last = last := if_pos hnil
    have hnew : M3u8.sequence 0 (media w.playlist ++ [item]) = last := by
      simp [hnil, M3u8.sequence, hitem, hid]
    exact Int.le_of_eq (hlast.trans hnew.symm)
  · have hfound : sequenceBound (some w) last = M3u8.sequence 0 w.playlist := if_neg hnil
    have hw := (h.suffix w rfl).subset
    rw [hfound, ← M3u8.sequence_media]
    refine M3u8.sequence_push hnil (fun x hx => h.isMedia x (hw hx)) ?_ hitem
    intro x hx
    rw [hid]
    exact h.le x (hw hx)

/-- A fragment with the last id comes in at the end. -/
theorem add (h : Publishes playlist writer published made last) (haddress : item.address = made)
    (hitem : item.isHeader = false) (hid : item.id = last) :
    Publishes (playlist ++ [item]) (writer.map fun w => w.onAddPlayitem item) published (made + 1)
      last where
  isMedia := by
    intro x hx
    rcases List.mem_append.mp hx with hx | hx
    · exact h.isMedia x hx
    · rw [List.mem_singleton.mp hx, hitem]
  ordered := by
    refine pairwise_concat h.ordered fun a ha => ?_
    rw [hid]
    exact h.le a ha
  le := by
    intro x hx
    rcases List.mem_append.mp hx with hx | hx
    · exact h.le x hx
    · rw [List.mem_singleton.mp hx]
      exact Int.le_of_eq hid
  addresses := by
    refine pairwise_concat h.addresses fun a ha => ?_
    rw [haddress]
    exact h.address_lt a ha
  address_lt := by
    intro x hx
    rcases List.mem_append.mp hx with hx | hx
    · exact Nat.lt_succ_of_lt (h.address_lt x hx)
    · rw [List.mem_singleton.mp hx, haddress]
      exact Nat.lt_succ_self made
  suffix := by
    intro x hx
    obtain ⟨w, hw, rfl⟩ := Option.map_eq_some_iff.mp hx
    obtain ⟨front, hfront⟩ := h.suffix w hw
    refine ⟨front, ?_⟩
    show front ++ media (w.playlist ++ [item]) = playlist ++ [item]
    rw [media_append, media_cons_media hitem, media_nil, ← List.append_assoc, hfront]
  traced := by
    intro x hx
    obtain ⟨w, hw, rfl⟩ := Option.map_eq_some_iff.mp hx
    show (w.playlist ++ [item]).Pairwise _
    refine pairwise_concat (h.traced w hw) fun a ha => ?_
    rw [haddress]
    exact h.traced_lt w hw a ha
  traced_lt := by
    intro x hx y hy
    obtain ⟨w, hw, rfl⟩ := Option.map_eq_some_iff.mp hx
    rcases List.mem_append.mp hy with hy | hy
    · exact Nat.lt_succ_of_lt (h.traced_lt w hw y hy)
    · rw [List.mem_singleton.mp hy, haddress]
      exact Nat.lt_succ_self made
  files := by
    cases writer with
    | none => exact h.files
    | some w =>
        have hle := h.bound_le_onAddPlayitem hitem hid
        show Sequenced (published ++ (w.files ++ [_]))
          (sequenceBound (some (w.onAddPlayitem item)) last)
        rw [sequenceBound_onAddPlayitem w hitem, ← List.append_assoc]
        exact (h.files.mono hle).push [] fun _ => rfl

/-- The first fragment goes. -/
theorem removeFirst (h : Publishes (item :: rest) writer published made last) :
    Publishes rest (writer.map fun w => w.onRemovePlayitem item) published made last := by
  have hsublist := List.sublist_cons_self item rest
  have hleft : ∀ w ∈ writer,
      media (w.onRemovePlayitem item).playlist <:+ rest
        ∧ media (w.onRemovePlayitem item).playlist <:+ media w.playlist := by
    intro w hw
    obtain ⟨hrest, hold⟩ := media_eraseItem (h.traced w hw) h.addresses (h.suffix w hw)
    have hdrop := media_drop_suffix (uselessHeaders (eraseItem w.playlist item))
      (eraseItem w.playlist item)
    exact ⟨hdrop.trans hrest, hdrop.trans hold⟩
  have htraced : ∀ w : M3u8Writer, List.Sublist (w.onRemovePlayitem item).playlist w.playlist :=
    fun w => (List.drop_sublist _ _).trans List.eraseP_sublist
  constructor
  · intro x hx
    exact h.isMedia x (hsublist.subset hx)
  · exact h.ordered.sublist hsublist
  · intro x hx
    exact h.le x (hsublist.subset hx)
  · exact h.addresses.sublist hsublist
  · intro x hx
    exact h.address_lt x (hsublist.subset hx)
  · intro x hx
    obtain ⟨w, hw, rfl⟩ := Option.map_eq_some_iff.mp hx
    exact (hleft w hw).1
  · intro x hx
    obtain ⟨w, hw, rfl⟩ := Option.map_eq_some_iff.mp hx
    exact (h.traced w hw).sublist (htraced w)
  · intro x hx y hy
    obtain ⟨w, hw, rfl⟩ := Option.map_eq_some_iff.mp hx
    exact h.traced_lt w hw y ((htraced w).subset hy)
  · cases writer with
    | none => exact h.files
    | some w =>
        have hmono := h.files.mono (h.bound_le_of_suffix (hleft w rfl).2)
        have hbound : media (w.onRemovePlayitem item).playlist ≠ [] →
            M3u8.sequence 0 (w.onRemovePlayitem item).playlist =
              sequenceBound (some (w.onRemovePlayitem item)) last := by
          intro hne
          exact (if_neg hne : sequenceBound (some (w.onRemovePlayitem item)) last = _).symm
        show Sequenced (published ++ (w.files ++ [_])) _
        rw [← List.append_assoc]
        exact hmono.push [] hbound

/-- Fragments go at the front. -/
theorem removed {front : List PlayItem} (h : Publishes (front ++ rest) writer published made last) :
    Publishes rest (writer.map fun w => front.foldl M3u8Writer.onRemovePlayitem w) published made
      last := by
  induction front generalizing writer with
  | nil => simpa using h
  | cons item front ih =>
      have hnext := ih h.removeFirst
      simpa [Function.comp_def] using hnext

/-- A new writer lists nothing. -/
theorem reset (h : Publishes playlist writer published made last) (deleteDelay : Bool) :
    Publishes playlist (if deleteDelay then some {} else none)
      (published ++ (writer.map fun w => w.files).getD []) made last := by
  have hfiles := h.files.mono h.bound_le
  have hnew : ∀ w ∈ (if deleteDelay then some {} else none : Option M3u8Writer), w = {} := by
    intro w hw
    split at hw
    · exact (Option.mem_some.mp hw).symm
    · cases hw
  refine { h with suffix := ?_, traced := ?_, traced_lt := ?_, files := ?_ }
  · intro w hw
    rw [hnew w hw]
    exact List.nil_suffix
  · intro w hw
    rw [hnew w hw]
    exact .nil
  · intro w hw
    rw [hnew w hw]
    exact nofun
  · cases deleteDelay with
    | true => simpa [sequenceBound] using hfiles
    | false => simpa [sequenceBound] using hfiles

/-- The writer is closed. -/
theorem closed (h : Publishes playlist writer published made last) :
    Publishes playlist (writer.map M3u8Writer.closed) published made last := by
  cases writer with
  | none => exact h
  | some w =>
      have hplaylist := w.closed_playlist
      refine { h with suffix := ?_, traced := ?_, traced_lt := ?_, files := ?_ }
      · intro x hx
        obtain rfl := Option.mem_some.mp hx
        rw [hplaylist]
        exact h.suffix w rfl
      · intro x hx
        obtain rfl := Option.mem_some.mp hx
        rw [hplaylist]
        exact h.traced w rfl
      · intro x hx
        obtain rfl := Option.mem_some.mp hx
        rw [hplaylist]
        exact h.traced_lt w rfl
      · have hbound : sequenceBound (some w.closed) last = sequenceBound (some w) last := by
          simp [sequenceBound, hplaylist]
        show Sequenced (published ++ w.closed.files) (sequenceBound (some w.closed) last)
        rw [hbound]
        unfold M3u8Writer.closed
        split
        · exact h.files
        · show Sequenced (published ++ (w.files ++ [_])) _
          rw [← List.append_assoc]
          refine h.files.push [.endList] ?_
          intro hne
          exact (if_neg hne : sequenceBound (some w) last = _).symm

end Publishes

/-! ## Runs -/

variable {converter : TsConverter} {directory : List Char} {start : Int} {deleteDelay : Bool}
  {s t : HlsSession} {frag : Fragment} {frame : Media} {o : WriteOutcome}

/-- The invariant: the open fragment has the last id. -/
structure Publishing (s : HlsSession) : Prop where
  publishes : Publishes s.playlist s.writer s.published s.made s.nextFragmentId
  opened : ∀ frag ∈ s.fragment, frag.id = s.nextFragmentId

namespace Publishing

theorem makeFragment (h : s.Publishing) (frame : Media) : (s.makeFragment frame).Publishing where
  publishes := h.publishes.mono (Nat.le_refl s.made) (Int.le_add_one (Int.le_refl s.nextFragmentId))
  opened := by
    intro frag hfrag
    obtain rfl := Option.mem_some.mp hfrag
    rfl

theorem ensureFragment (h : s.Publishing) (frame : Media) :
    (s.ensureFragment frame).Publishing := by
  rcases s.ensureFragment_cases frame with ⟨-, -, heq⟩ | ⟨-, heq⟩
  · rw [heq]
    exact h
  · rw [heq]
    exact h.makeFragment frame

/-- A write makes no playlist file. -/
theorem write {r : Except HlsSession HlsSession} (h : s.Publishing)
    (hid : frag.id = s.nextFragmentId) (hr : WriteEnds converter s frag frame o r) :
    (settled r).Publishing := by
  cases hr with
  | unconverted _ => exact ⟨h.publishes, h.opened⟩
  | unmuxed _ _ _ =>
      refine ⟨h.publishes, ?_⟩
      intro x hx
      obtain rfl := Option.mem_some.mp hx
      rw [onData_id]
      exact hid
  | accepted _ _ _ =>
      refine ⟨h.publishes, ?_⟩
      intro x hx
      obtain rfl := Option.mem_some.mp hx
      show (onData frag o.packets).id = s.nextFragmentId
      rw [onData_id]
      exact hid

/-- A dump adds the fragment with the last id, and what goes, goes at the front. -/
theorem dump {r : Except HlsSession HlsSession} (h : s.Publishing)
    (hid : frag.id = s.nextFragmentId) (hr : DumpEnds directory s frag frame o r) :
    (settled r).Publishing := by
  have hadd : Publishes (s.playlist ++ [infoOf directory s frag frame])
      (s.writer.map fun w => w.onAddPlayitem (infoOf directory s frag frame)) s.published
      (s.made + 1) s.nextFragmentId := h.publishes.add rfl rfl hid
  cases hr with
  | empty _ => exact h
  | unwritten _ _ => exact ⟨h.publishes.mono (Nat.le_succ s.made) (Int.le_refl _), h.opened⟩
  | unlisted _ _ _ => exact ⟨hadd, h.opened⟩
  | listed n c _ _ _ =>
      have hsplit : removedItems (s.playlist ++ [infoOf directory s frag frame]) n
          ++ (s.playlist ++ [infoOf directory s frag frame]).rtake n =
            s.playlist ++ [infoOf directory s frag frame] := List.take_append_drop _ _
      rw [← hsplit] at hadd
      exact ⟨hadd.removed, h.opened⟩

theorem media {r : Except HlsSession HlsSession} (h : s.Publishing)
    (hr : FrameEnds converter directory s frame o r) : (settled r).Publishing := by
  have hensure := h.ensureFragment frame
  cases hr with
  | continued frag r hfrag _ hwrite => exact hensure.write (hensure.opened frag hfrag) hwrite
  | undumped frag t hfrag _ hdump => exact hensure.dump (hensure.opened frag hfrag) hdump
  | cut frag u r hfrag _ hdump hwrite =>
      have hdumped : u.Publishing := hensure.dump (hensure.opened frag hfrag) hdump
      exact (hdumped.makeFragment frame).write rfl hwrite

/-- Metadata may bring a header. -/
theorem metadata (h : s.Publishing) (m : Metadata) (o : WriteOutcome) :
    (settled (s.handleMeta m o)).Publishing := by
  obtain ⟨v, a, w, c, n, heq, -, -, htracers⟩ := s.handleMeta_eq m o
  rw [heq]
  rcases htracers with ⟨rfl, -, rfl⟩ | ⟨rfl, -, rfl⟩
  · exact ⟨h.publishes, h.opened⟩
  · exact ⟨h.publishes.header, h.opened⟩

end Publishing

theorem publishing_step {a : HlsCall} (h : s.Publishing)
    (ht : step converter directory s a = .ok t) : t.Publishing := by
  cases step_ends ht with
  | media frame o r _ hends => exact h.media hends
  | metadata m o _ => exact h.metadata m o
  | dropped frame o => exact h
  | settings deleteDelay => exact ⟨h.publishes.reset deleteDelay, h.opened⟩
  | complete how => exact ⟨h.publishes, h.opened⟩
  | timeout => exact ⟨h.publishes, h.opened⟩
  | close => exact ⟨h.publishes.closed, h.opened⟩

theorem publishing_of_reachable
    (hreach : (hlsSession converter directory start deleteDelay).Reachable s) : s.Publishing := by
  have hinit : Publishes [] none [] 0 start :=
    ⟨nofun, .nil, nofun, .nil, nofun, nofun, nofun, nofun, nofun, nofun, .nil⟩
  refine hreach.invariant (P := Publishing) ⟨hinit.reset deleteDelay, ?_⟩ ?_
  · intro frag hfrag
    cases hfrag
  · intro s a t h _ hstep
    exact publishing_step h hstep

/-- Of two playlist files that list fragments, the later one never has the smaller sequence
    number before the remainder is taken. The remainders are printed, and if the two numbers are
    less than 10^8 apart, the later one has the smaller number printed exactly if a multiple of
    10^8 lies between. -/
theorem mediaSequence_goes_back_iff
    (hreach : (hlsSession converter directory start deleteDelay).Reachable s) :
    s.files.Pairwise fun p q => PlayItem.media p.playlist ≠ [] → PlayItem.media q.playlist ≠ [] →
      M3u8.sequence 0 p.playlist ≤ M3u8.sequence 0 q.playlist
      ∧ ∃ m n, M3u8.mediaSequence? p.content = some m ∧ M3u8.mediaSequence? q.content = some n
        ∧ m = (M3u8.sequence 0 p.playlist).tmod 100000000
        ∧ n = (M3u8.sequence 0 q.playlist).tmod 100000000
        ∧ (M3u8.sequence 0 q.playlist < M3u8.sequence 0 p.playlist + 100000000 →
            (m ≤ n ↔ (M3u8.sequence 0 p.playlist).tdiv 100000000 =
              (M3u8.sequence 0 q.playlist).tdiv 100000000)) := by
  have h := (publishing_of_reachable hreach).publishes.files
  refine h.ordered.imp_of_mem ?_
  intro p q hp hq hordered hpne hqne
  have hle := hordered hpne hqne
  have hpne' : p.playlist ≠ [] := fun hnil => hpne (by rw [hnil]; rfl)
  have hqne' : q.playlist ≠ [] := fun hnil => hqne (by rw [hnil]; rfl)
  refine ⟨hle, _, _, h.printed p hp hpne', h.printed q hq hqne', rfl, rfl, ?_⟩
  intro hlt
  exact M3u8.tmod_le_tmod_iff hle hlt

/-- The numbers in the playlist files that list fragments. -/
def printed (s : HlsSession) : List Int :=
  (s.files.filter fun file => PlayItem.media file.playlist ≠ []).filterMap fun file =>
    M3u8.mediaSequence? file.content

/-- Across a multiple of 10^8 the numbers before the remainder still do not go back. -/
theorem mediaSequence_goes_back_iff_multiple :
    ∃ s : HlsSession, s.printed = [99999999, 99999999, 0]
      ∧ s.files.Pairwise fun p q =>
          PlayItem.media p.playlist ≠ [] → PlayItem.media q.playlist ≠ [] →
          M3u8.sequence 0 p.playlist ≤ M3u8.sequence 0 q.playlist := by
  obtain ⟨s, hreach, hs⟩ := Machine.reachable_of_runs
    (M := hlsSession singleNalUnit "d".toList 99999997 true)
    (p := fun s => s.printed = [99999999, 99999999, 0])
    [.write (.metadata (avcMp3 0x42)) {}, .write (.media (slice true 0)) {},
      .write (.media (slice true 1000)) {}, .write (.media (slice true 2000)) { maxFragments := 1 }]
    (by decide +kernel)
  refine ⟨s, of_decide_eq_true hs, (mediaSequence_goes_back_iff hreach).imp ?_⟩
  intro p q h hp hq
  exact (h hp hq).1

/-- The fragments 99999999 and 100000000 are listed, and the first of them goes. -/
theorem mediaSequence_wraps :
    ¬∀ (converter : TsConverter) (directory : List Char) (start : Int) (deleteDelay : Bool)
      (s : HlsSession), (hlsSession converter directory start deleteDelay).Reachable s →
      s.printed.Pairwise (· ≤ ·) := by
  intro hclaim
  obtain ⟨s, hreach, hs⟩ := Machine.reachable_of_runs
    (M := hlsSession singleNalUnit "d".toList 99999997 true)
    (p := fun s => s.printed = [99999999, 99999999, 0])
    [.write (.metadata (avcMp3 0x42)) {}, .write (.media (slice true 0)) {},
      .write (.media (slice true 1000)) {}, .write (.media (slice true 2000)) { maxFragments := 1 }]
    (by decide +kernel)
  have hordered := hclaim _ _ _ _ s hreach
  rw [of_decide_eq_true hs] at hordered
  revert hordered
  decide

end HlsSession

end SeastarLive
