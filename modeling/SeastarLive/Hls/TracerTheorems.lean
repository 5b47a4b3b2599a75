/-
SeastarLive.Hls.TracerTheorems — the tracers mirror the playlist.

All that a tracer was told of is `gone ++ kept`, where `kept` starts at the
first fragment that is still listed. The list of the tracer is `kept` behind a
non-empty end of the headers in `gone`: that is the invariant (`Window`), and
what `remove_useless_headers` may do is shorten that end.
-/
import SeastarLive.Hls.Tracer

namespace SeastarLive

open PlayItem Hls

/-! ## Paths -/

theorem toDigits_inj {a b : Nat} (h : Nat.toDigits 10 a = Nat.toDigits 10 b) : a = b := by
  have ha := Nat.ofDigitChars_ten_toDigits (n := a)
  rw [h, Nat.ofDigitChars_ten_toDigits] at ha
  exact ha.symm

theorem minus_not_mem_toDigits (n : Nat) : '-' ∉ Nat.toDigits 10 n := by
  intro h
  have hdigit := Nat.isDigit_of_mem_toDigits (by decide) (by decide) h
  cases hdigit

/-- Two numbers are written alike only if they are equal. -/
theorem toString_int_inj {a b : Int} (h : (toString a).toList = (toString b).toList) : a = b := by
  simp only [Int.toString_eq_repr, Int.repr_eq_if] at h
  split at h <;> split at h <;>
    simp only [Nat.toList_repr, String.toList_append] at h
  · have := toDigits_inj h
    omega
  · exact absurd (h ▸ List.mem_append_left _ (by decide)) (minus_not_mem_toDigits a.toNat)
  · exact absurd (h.symm ▸ List.mem_append_left _ (by decide)) (minus_not_mem_toDigits b.toNat)
  · have := toDigits_inj (List.append_cancel_left h)
    omega

/-- Fragments with different ids have different files. -/
theorem fragmentPath_inj {directory : List Char} {a b : Int}
    (h : fragmentPath directory a = fragmentPath directory b) : a = b := by
  have hname := joinName_inj h
  exact toString_int_inj (List.append_cancel_right hname)

theorem fragmentPath_ne_nil (directory : List Char) (id : Int) :
    fragmentPath directory id ≠ [] := by
  intro h
  unfold fragmentPath joinName at h
  split at h <;> simp at h

/-! ## Headers -/

/-- The headers of a playlist. -/
def PlayItem.headers (playlist : List PlayItem) : List PlayItem :=
  playlist.filter fun item => item.isHeader

@[simp] theorem PlayItem.headers_append (xs ys : List PlayItem) :
    headers (xs ++ ys) = headers xs ++ headers ys :=
  List.filter_append xs ys

theorem isHeader_of_mem_headers {playlist : List PlayItem} {item : PlayItem}
    (h : item ∈ headers playlist) : item.isHeader = true := by
  simpa using (List.mem_filter.mp h).2

theorem headers_self {playlist : List PlayItem} (h : ∀ item ∈ playlist, item.isHeader = true) :
    headers playlist = playlist := by
  unfold headers
  simpa using h

theorem headers_cons_media {item : PlayItem} (h : item.isHeader = false) (rest : List PlayItem) :
    headers (item :: rest) = headers rest := by
  simp [headers, h]

theorem media_of_headers {playlist : List PlayItem} (h : ∀ item ∈ playlist, item.isHeader = true) :
    media playlist = [] := by
  unfold media
  simpa using h

/-- Behind one header, all headers up to the first fragment but the last are useless. -/
theorem uselessHeaders_append (header : PlayItem) {lead kept : List PlayItem}
    (hlead : ∀ item ∈ lead, item.isHeader = true)
    (hkept : ∀ item ∈ kept.head?, item.isHeader = false) :
    uselessHeaders (header :: lead ++ kept) = if kept = [] then 0 else lead.length := by
  have hskip : lead.findIdx? (fun item => !item.isHeader) = none := by
    rw [List.findIdx?_eq_none_iff]
    intro item hitem
    simp [hlead item hitem]
  unfold uselessHeaders
  simp only [List.cons_append, List.drop_succ_cons, List.drop_zero, List.findIdx?_append, hskip]
  cases kept with
  | nil => simp
  | cons item kept =>
      have hitem : item.isHeader = false := hkept item rfl
      simp [List.findIdx?_cons, hitem]

/-- What is left in front is a non-empty end of the headers. -/
theorem removeUselessHeaders_append {lead kept : List PlayItem}
    (hlead : ∀ item ∈ lead, item.isHeader = true) (hne : lead ≠ [])
    (hkept : ∀ item ∈ kept.head?, item.isHeader = false) :
    ∃ lead', removeUselessHeaders (lead ++ kept) = lead' ++ kept ∧ lead' ≠ [] ∧ lead' <:+ lead := by
  cases lead with
  | nil => exact absurd rfl hne
  | cons header lead =>
      have huseless := uselessHeaders_append header
        (fun item hitem => hlead item (List.mem_cons_of_mem header hitem)) hkept
      unfold removeUselessHeaders
      rw [huseless]
      by_cases hnil : kept = []
      · simp only [hnil, if_true, List.drop_zero]
        exact ⟨header :: lead, rfl, List.cons_ne_nil header lead, List.suffix_refl _⟩
      · rw [if_neg hnil, List.drop_append_of_le_length (by simp)]
        refine ⟨(header :: lead).drop lead.length, rfl, ?_, List.drop_suffix _ _⟩
        intro hdrop
        have hlength := congrArg List.length hdrop
        simp at hlength

/-- Only headers are taken off. -/
theorem headers_of_useless {lead kept : List PlayItem}
    (hlead : ∀ item ∈ lead, item.isHeader = true) (hne : lead ≠ [])
    (hkept : ∀ item ∈ kept.head?, item.isHeader = false) :
    ∀ item ∈ (lead ++ kept).take (uselessHeaders (lead ++ kept)), item.isHeader = true := by
  cases lead with
  | nil => exact absurd rfl hne
  | cons header lead =>
      have huseless := uselessHeaders_append header
        (fun item hitem => hlead item (List.mem_cons_of_mem header hitem)) hkept
      intro item hitem
      rw [huseless] at hitem
      split at hitem
      · simp at hitem
      · rw [List.take_append_of_le_length (by simp)] at hitem
        exact hlead item (List.mem_of_mem_take hitem)

/-! ## The window of a tracer -/

/-- Of all that was issued, `gone` lies before the first fragment that is still listed and
    `kept` from it on. A tracer has `kept` behind the end `lead` of the headers in `gone`. -/
structure Window (issued playlist traced gone lead kept : List PlayItem) : Prop where
  issued_eq : issued = gone ++ kept
  traced_eq : traced = lead ++ kept
  lead_ne_nil : lead ≠ []
  lead_suffix : lead <:+ headers gone
  media_kept : media kept = playlist
  kept_head : ∀ item ∈ kept.head?, item.isHeader = false

namespace Window

variable {issued playlist traced gone lead kept : List PlayItem}

theorem lead_isHeader (h : Window issued playlist traced gone lead kept) :
    ∀ item ∈ lead, item.isHeader = true := by
  intro item hitem
  exact isHeader_of_mem_headers (h.lead_suffix.subset hitem)

/-- The first header of all. -/
theorem first {header : PlayItem} (hheader : header.isHeader = true) :
    Window [header] [] [header] [header] [header] [] where
  issued_eq := rfl
  traced_eq := rfl
  lead_ne_nil := List.cons_ne_nil header []
  lead_suffix := by simp [headers, hheader]
  media_kept := rfl
  kept_head := nofun

/-- Useless headers are removed. -/
theorem prune (h : Window issued playlist traced gone lead kept) :
    ∃ lead', Window issued playlist (removeUselessHeaders traced) gone lead' kept := by
  obtain ⟨lead', heq, hne, hsuffix⟩ :=
    removeUselessHeaders_append h.lead_isHeader h.lead_ne_nil h.kept_head
  refine ⟨lead', h.issued_eq, ?_, hne, hsuffix.trans h.lead_suffix, h.media_kept, h.kept_head⟩
  rw [h.traced_eq, heq]

/-- A header is issued: behind the fragments, or with the headers if there are none. -/
theorem pushHeader (h : Window issued playlist traced gone lead kept) {header : PlayItem}
    (hheader : header.isHeader = true) :
    ∃ gone' lead' kept', Window (issued ++ [header]) playlist (traced ++ [header]) gone' lead' kept'
      ∧ media gone' = media gone := by
  cases kept with
  | nil =>
      refine ⟨gone ++ [header], lead ++ [header], [], ?_, ?_⟩
      · refine ⟨?_, ?_, by simp, ?_, h.media_kept, nofun⟩
        · simp [h.issued_eq]
        · simp [h.traced_eq]
        · obtain ⟨rest, hrest⟩ := h.lead_suffix
          exact ⟨rest, by rw [← List.append_assoc, hrest]; simp [headers, hheader]⟩
      · simp [media, hheader]
  | cons item kept =>
      refine ⟨gone, lead, item :: kept ++ [header],
        ⟨?_, ?_, h.lead_ne_nil, h.lead_suffix, ?_, ?_⟩, rfl⟩
      · simp [h.issued_eq]
      · simp [h.traced_eq]
      · rw [media_append, h.media_kept]
        simp [media, hheader]
      · exact h.kept_head

/-- A fragment is added at the end. -/
theorem pushMedia (h : Window issued playlist traced gone lead kept) {item : PlayItem}
    (hitem : item.isHeader = false) :
    Window (issued ++ [item]) (playlist ++ [item]) (traced ++ [item]) gone lead
      (kept ++ [item]) where
  issued_eq := by simp [h.issued_eq]
  traced_eq := by simp [h.traced_eq]
  lead_ne_nil := h.lead_ne_nil
  lead_suffix := h.lead_suffix
  media_kept := by
    rw [media_append, h.media_kept]
    simp [media, hitem]
  kept_head := by
    cases kept with
    | nil => simpa using hitem
    | cons first kept => exact h.kept_head

/-- The headers behind the first fragment join those in front of it. -/
theorem dropFirst {item : PlayItem} {kept : List PlayItem}
    (h : Window issued playlist traced gone lead (item :: kept)) :
    Window issued (media kept) (lead ++ kept) (gone ++ item :: kept.takeWhile PlayItem.isHeader)
      (lead ++ kept.takeWhile PlayItem.isHeader) (kept.dropWhile PlayItem.isHeader) where
  issued_eq := by simp [h.issued_eq]
  traced_eq := by simp
  lead_ne_nil := by simp [h.lead_ne_nil]
  lead_suffix := by
    have hitem : item.isHeader = false := h.kept_head item rfl
    have hheaders : headers (kept.takeWhile PlayItem.isHeader) = kept.takeWhile PlayItem.isHeader :=
      headers_self fun _ hmem => List.mem_takeWhile_imp hmem
    obtain ⟨rest, hrest⟩ := h.lead_suffix
    exact ⟨rest, by simp [← List.append_assoc, hrest, headers_cons_media hitem, hheaders]⟩
  media_kept := by
    conv_rhs => rw [← List.takeWhile_append_dropWhile (p := PlayItem.isHeader) (l := kept)]
    rw [media_append, media_of_headers fun _ hmem => List.mem_takeWhile_imp hmem, List.nil_append]
  kept_head := by
    intro first hfirst
    have hnot := List.head?_dropWhile_not PlayItem.isHeader kept
    rw [Option.mem_def.mp hfirst] at hnot
    simpa using hnot

/-- The first fragment is erased, and not one in front of it. -/
theorem eraseItem_eq {item : PlayItem} {rest : List PlayItem}
    (h : Window issued (item :: rest) traced gone lead kept)
    (hdistinct : (issued.map fun x => x.address).Nodup) :
    ∃ tail, kept = item :: tail ∧ rest = media tail ∧ eraseItem traced item = lead ++ tail := by
  cases kept with
  | nil => cases h.media_kept
  | cons first kept =>
      have hmedia := h.media_kept
      rw [media_cons_media (h.kept_head first rfl)] at hmedia
      obtain ⟨rfl, hrest⟩ := List.cons.inj hmedia
      have hlead : ∀ x ∈ lead, ¬(x.address == first.address) = true := by
        intro x hx heq
        have hgone : x ∈ gone := (List.mem_filter.mp (h.lead_suffix.subset hx)).1
        rw [h.issued_eq, List.map_append, List.nodup_append] at hdistinct
        exact hdistinct.2.2 x.address (List.mem_map_of_mem hgone) first.address (by simp)
          (by simpa using heq)
      refine ⟨kept, rfl, hrest.symm, ?_⟩
      unfold eraseItem
      rw [h.traced_eq, List.eraseP_append_right _ hlead, List.eraseP_cons_of_pos (by simp)]

theorem eraseFirst {item : PlayItem} {rest : List PlayItem}
    (h : Window issued (item :: rest) traced gone lead kept)
    (hdistinct : (issued.map fun x => x.address).Nodup) :
    ∃ gone' lead' kept', Window issued rest (eraseItem traced item) gone' lead' kept'
      ∧ media gone' = media gone ++ [item] := by
  obtain ⟨tail, rfl, rfl, herase⟩ := h.eraseItem_eq hdistinct
  rw [herase]
  refine ⟨_, _, _, h.dropFirst, ?_⟩
  rw [media_append, media_cons_media (h.kept_head item rfl),
    media_of_headers fun _ hmem => List.mem_takeWhile_imp hmem]

/-- What is removed from the front are headers. -/
theorem useless_isHeader (h : Window issued playlist traced gone lead kept) :
    ∀ item ∈ traced.take (uselessHeaders traced), item.isHeader = true := by
  rw [h.traced_eq]
  exact headers_of_useless h.lead_isHeader h.lead_ne_nil h.kept_head

theorem media_traced (h : Window issued playlist traced gone lead kept) :
    media traced = playlist := by
  rw [h.traced_eq, media_append, media_of_headers h.lead_isHeader, h.media_kept, List.nil_append]

theorem media_issued (h : Window issued playlist traced gone lead kept) :
    media issued = media gone ++ playlist := by
  rw [h.issued_eq, media_append, h.media_kept]

theorem traced_subset (h : Window issued playlist traced gone lead kept) : traced ⊆ issued := by
  intro item hitem
  rw [h.traced_eq, List.mem_append] at hitem
  rw [h.issued_eq, List.mem_append]
  rcases hitem with hlead | hkept
  · exact .inl (List.mem_filter.mp (h.lead_suffix.subset hlead)).1
  · exact .inr hkept

/-- In front of the first fragment is the last header that was issued before it, and behind
    it all that was issued after it. -/
theorem around {item : PlayItem} {rest : List PlayItem}
    (h : Window issued (item :: rest) traced gone lead kept) :
    ∃ before after front header, issued = before ++ item :: after
      ∧ (headers before).getLast? = some header
      ∧ traced = front ++ header :: item :: after := by
  cases kept with
  | nil => cases h.media_kept
  | cons first kept =>
      have hmedia := h.media_kept
      rw [media_cons_media (h.kept_head first rfl)] at hmedia
      obtain ⟨rfl, -⟩ := List.cons.inj hmedia
      obtain ⟨front, header, hlead⟩ := List.eq_nil_or_concat lead |>.resolve_left h.lead_ne_nil
      obtain ⟨older, holder⟩ := h.lead_suffix
      refine ⟨gone, kept, front, header, h.issued_eq, ?_, ?_⟩
      · rw [← holder, hlead]
        simp
      · rw [h.traced_eq, hlead]
        simp

end Window

/-! ## What was issued -/

/-- The objects are new, the ids of the fragments grow, and the paths are those of the ids. -/
structure Numbered (directory : List Char) (w : TracedPlaylist) : Prop where
  address_lt : ∀ item ∈ w.issued, item.address < w.made
  nodup : (w.issued.map fun x => x.address).Nodup
  id_le : ∀ item ∈ media w.issued, item.id ≤ w.nextFragmentId
  increasing : (media w.issued).Pairwise fun a b => a.id < b.id
  header_path : ∀ item ∈ w.issued, item.isHeader = true → item.filepath = []
  media_path : ∀ item ∈ media w.issued, item.filepath = fragmentPath directory item.id

namespace Numbered

variable {directory : List Char} {w t : TracedPlaylist} {item : PlayItem}

/-- A new object has an address that no other has. -/
theorem nodup_push (h : Numbered directory w) (haddress : item.address = w.made) :
    ((w.issued ++ [item]).map fun x => x.address).Nodup := by
  rw [List.map_append, List.nodup_append]
  refine ⟨h.nodup, by simp, ?_⟩
  intro a ha b hb
  obtain ⟨x, hx, rfl⟩ := List.mem_map.mp ha
  have hlt := h.address_lt x hx
  have hb : b = item.address := by simpa using hb
  omega

theorem address_lt_push (h : Numbered directory w) (haddress : item.address = w.made) :
    ∀ x ∈ w.issued ++ [item], x.address < w.made + 1 := by
  intro x hx
  rcases List.mem_append.mp hx with hx | hx
  · have hlt := h.address_lt x hx
    omega
  · obtain rfl := List.mem_singleton.mp hx
    omega

theorem pushHeader (h : Numbered directory w) (hissued : t.issued = w.issued ++ [.header w.made])
    (hmade : t.made = w.made + 1) (hid : t.nextFragmentId = w.nextFragmentId) :
    Numbered directory t := by
  have hheader : media [PlayItem.header w.made] = [] := rfl
  have hmedia : media t.issued = media w.issued := by
    rw [hissued, media_append, hheader, List.append_nil]
  constructor
  · rw [hissued, hmade]
    exact h.address_lt_push rfl
  · rw [hissued]
    exact h.nodup_push rfl
  · rw [hmedia, hid]
    exact h.id_le
  · rw [hmedia]
    exact h.increasing
  · intro x hx hheader
    rw [hissued, List.mem_append, List.mem_singleton] at hx
    rcases hx with hx | rfl
    · exact h.header_path x hx hheader
    · rfl
  · rw [hmedia]
    exact h.media_path

theorem pushMedia (h : Numbered directory w) (hissued : t.issued = w.issued ++ [item])
    (hmade : t.made = w.made + 1) (hid : t.nextFragmentId = item.id)
    (haddress : item.address = w.made)
    (hitem : item.isHeader = false) (hnext : w.nextFragmentId < item.id)
    (hpath : item.filepath = fragmentPath directory item.id) : Numbered directory t := by
  have hmedia : media t.issued = media w.issued ++ [item] := by
    rw [hissued, media_append, media_cons_media hitem, media_nil]
  constructor
  · rw [hissued, hmade]
    exact h.address_lt_push haddress
  · rw [hissued]
    exact h.nodup_push haddress
  · intro x hx
    rw [hmedia, List.mem_append, List.mem_singleton] at hx
    rw [hid]
    rcases hx with hx | rfl
    · have hle := h.id_le x hx
      omega
    · exact Int.le_refl x.id
  · rw [hmedia, List.pairwise_append]
    refine ⟨h.increasing, List.pairwise_singleton _ item, ?_⟩
    intro a ha b hb
    obtain rfl := List.mem_singleton.mp hb
    have hle := h.id_le a ha
    omega
  · intro x hx hheader
    rw [hissued, List.mem_append, List.mem_singleton] at hx
    rcases hx with hx | rfl
    · exact h.header_path x hx hheader
    · rw [hitem] at hheader
      cases hheader
  · intro x hx
    rw [hmedia, List.mem_append, List.mem_singleton] at hx
    rcases hx with hx | rfl
    · exact h.media_path x hx
    · exact hpath

/-- No two fragments have one file. -/
theorem nodup_paths (h : Numbered directory w) :
    ((media w.issued).map PlayItem.filepath).Nodup := by
  unfold List.Nodup
  rw [List.pairwise_map]
  refine h.increasing.imp_of_mem ?_
  intro a b ha hb hlt heq
  rw [h.media_path a ha, h.media_path b hb] at heq
  have hid := fragmentPath_inj heq
  omega

theorem media_path_ne_nil (h : Numbered directory w) :
    ∀ x ∈ media w.issued, x.filepath ≠ [] := by
  intro x hx
  rw [h.media_path x hx]
  exact fragmentPath_ne_nil directory x.id

end Numbered

/-! ## The invariant -/

/-- Both tracers have the same window on what was issued, and the cleaner has asked to delete
    the files of the fragments that are gone. -/
structure Mirrored (w : TracedPlaylist) (gone lead kept : List PlayItem) : Prop where
  window : Window w.issued w.playlist w.writer.playlist gone lead kept
  same : w.cleaner.playlist = w.writer.playlist
  scheduled : w.cleaner.scheduled.filter (fun path => path ≠ []) =
    (media gone).map PlayItem.filepath

/-- The removal of headers deletes no file. -/
theorem scheduled_removeUselessHeaders {c : FileCleaner}
    {issued playlist gone lead kept : List PlayItem}
    (h : Window issued playlist c.playlist gone lead kept)
    (hpath : ∀ item ∈ issued, item.isHeader = true → item.filepath = []) :
    c.removeUselessHeaders.scheduled.filter (fun path => path ≠ []) =
      c.scheduled.filter fun path => path ≠ [] := by
  have hnone : ((c.playlist.take (uselessHeaders c.playlist)).map PlayItem.filepath).filter
      (fun path => path ≠ []) = [] := by
    rw [List.filter_eq_nil_iff]
    intro path hmem
    obtain ⟨item, hitem, rfl⟩ := List.mem_map.mp hmem
    have hissued := h.traced_subset (List.mem_of_mem_take hitem)
    simp [hpath item hissued (h.useless_isHeader item hitem)]
  unfold FileCleaner.removeUselessHeaders
  rw [List.filter_append, hnone, List.append_nil]

namespace TracedPlaylist

/-- Before the first header there is nothing. -/
def Blank (w : TracedPlaylist) : Prop :=
  w.issued = [] ∧ w.playlist = [] ∧ w.writer.playlist = [] ∧ w.cleaner = {}

/-- The invariant. -/
def Mirrors (directory : List Char) (w : TracedPlaylist) : Prop :=
  Numbered directory w ∧ (w.Blank ∨ ∃ gone lead kept, Mirrored w gone lead kept)

variable {directory : List Char} {start : Int} {w t : TracedPlaylist}

theorem mirrors_init : Mirrors directory (tracedPlaylist directory start).init := by
  refine ⟨⟨nofun, .nil, nofun, .nil, nofun, nofun⟩, .inl ⟨rfl, rfl, rfl, rfl⟩⟩

/-- The first header opens the window, and the others are pushed onto it. -/
theorem mirrors_updateHeader (h : w.Mirrors directory)
    (ht : step directory w .updateHeader = .ok t) : t.Mirrors directory := by
  obtain ⟨hnumbered, hmirrors⟩ := h
  cases ht
  refine ⟨hnumbered.pushHeader rfl rfl rfl, .inr ?_⟩
  rcases hmirrors with ⟨hissued, hplaylist, hwriter, hcleaner⟩ | ⟨gone, lead, kept, hmirrored⟩
  · refine ⟨[.header w.made], [.header w.made], [], ?_, ?_, ?_⟩
    · show Window (w.issued ++ _) w.playlist (removeUselessHeaders (w.writer.playlist ++ _)) _ _ _
      rw [hissued, hplaylist, hwriter]
      exact Window.first rfl
    · show removeUselessHeaders (w.cleaner.playlist ++ _) =
        removeUselessHeaders (w.writer.playlist ++ _)
      rw [hwriter, hcleaner]
    · show List.filter _ (w.cleaner.onUpdateHeader _).scheduled = _
      rw [hcleaner]
      rfl
  · obtain ⟨gone', lead', kept', hpush, hgone⟩ :=
      hmirrored.window.pushHeader (rfl : (PlayItem.header w.made).isHeader = true)
    obtain ⟨lead'', hprune⟩ := hpush.prune
    refine ⟨gone', lead'', kept', hprune, ?_, ?_⟩
    · show removeUselessHeaders (w.cleaner.playlist ++ _) =
        removeUselessHeaders (w.writer.playlist ++ _)
      rw [hmirrored.same]
    · have hnumbered' : Numbered directory _ := hnumbered.pushHeader (t := { w with
        made := w.made + 1, issued := w.issued ++ [.header w.made] }) rfl rfl rfl
      rw [← hmirrored.same] at hpush
      rw [hgone, ← hmirrored.scheduled]
      exact scheduled_removeUselessHeaders hpush hnumbered'.header_path

/-- A fragment is behind a header, so it only makes the window longer. -/
theorem mirrors_add {skipped : Nat} {pts duration : Int} {startByKeyframe : Bool} {size : Nat}
    (h : w.Mirrors directory) (henabled : w.issued ≠ [])
    (ht : step directory w (.add skipped pts duration startByKeyframe size) = .ok t) :
    t.Mirrors directory := by
  obtain ⟨hnumbered, hmirrors⟩ := h
  cases ht
  have hnext : w.nextFragmentId < w.nextFragmentId + skipped + 1 := by omega
  refine ⟨hnumbered.pushMedia rfl rfl rfl rfl rfl hnext rfl, .inr ?_⟩
  rcases hmirrors with ⟨hissued, -⟩ | ⟨gone, lead, kept, hmirrored⟩
  · exact absurd hissued henabled
  · refine ⟨gone, lead, _, hmirrored.window.pushMedia rfl, ?_, hmirrored.scheduled⟩
    show w.cleaner.playlist ++ _ = w.writer.playlist ++ _
    rw [hmirrored.same]

/-- The first fragment goes, and its file is deleted. -/
theorem mirrors_removeFirst (h : w.Mirrors directory) (henabled : w.playlist ≠ [])
    (ht : step directory w .removeFirst = .ok t) : t.Mirrors directory := by
  obtain ⟨hnumbered, hmirrors⟩ := h
  cases hplaylist : w.playlist with
  | nil => exact absurd hplaylist henabled
  | cons item rest =>
      simp only [step, hplaylist] at ht
      cases ht
      refine ⟨⟨hnumbered.1, hnumbered.2, hnumbered.3, hnumbered.4, hnumbered.5, hnumbered.6⟩,
        .inr ?_⟩
      rcases hmirrors with ⟨-, hnil, -⟩ | ⟨gone, lead, kept, hmirrored⟩
      · exact absurd hnil henabled
      · have hwindow := hmirrored.window
        rw [hplaylist] at hwindow
        obtain ⟨gone', lead', kept', herase, hgone⟩ := hwindow.eraseFirst hnumbered.nodup
        obtain ⟨lead'', hprune⟩ := herase.prune
        have hissued : item ∈ media w.issued := by
          rw [hwindow.media_issued]
          simp
        refine ⟨gone', lead'', kept', hprune, ?_, ?_⟩
        · show removeUselessHeaders (eraseItem w.cleaner.playlist item) =
            removeUselessHeaders (eraseItem w.writer.playlist item)
          rw [hmirrored.same]
        · rw [← hmirrored.same] at herase
          rw [hgone, List.map_append, ← hmirrored.scheduled]
          refine (scheduled_removeUselessHeaders herase hnumbered.header_path).trans ?_
          simp [List.filter_append, hnumbered.media_path_ne_nil item hissued]

theorem mirrors_step {a : TracerCall} (h : w.Mirrors directory) (henabled : w.Enabled a)
    (ht : step directory w a = .ok t) : t.Mirrors directory := by
  cases a with
  | updateHeader => exact mirrors_updateHeader h ht
  | add skipped pts duration startByKeyframe size => exact mirrors_add h henabled ht
  | removeFirst => exact mirrors_removeFirst h henabled ht
  | closed =>
      cases ht
      have hwriter := w.writer.closed_playlist
      obtain ⟨hnumbered, hmirrors⟩ := h
      refine ⟨⟨hnumbered.1, hnumbered.2, hnumbered.3, hnumbered.4, hnumbered.5, hnumbered.6⟩, ?_⟩
      rcases hmirrors with hblank | ⟨gone, lead, kept, hwindow, hsame, hscheduled⟩
      · exact .inl ⟨hblank.1, hblank.2.1, hwriter.trans hblank.2.2.1, hblank.2.2.2⟩
      · exact .inr ⟨gone, lead, kept, hwriter ▸ hwindow, hsame.trans hwriter.symm, hscheduled⟩

theorem mirrors_of_reachable (h : (tracedPlaylist directory start).Reachable w) :
    w.Mirrors directory :=
  h.invariant mirrors_init fun _ _ _ hmirrors henabled hstep =>
    mirrors_step hmirrors henabled hstep

/-! ## What the tracers list and what they delete -/

namespace Mirrors

/-- The fragments of the tracers are those of the playlist. -/
theorem media_tracers (h : w.Mirrors directory) :
    media w.writer.playlist = w.playlist ∧ media w.cleaner.playlist = w.playlist := by
  obtain ⟨-, ⟨-, hplaylist, hwriter, hcleaner⟩ | ⟨gone, lead, kept, hmirrored⟩⟩ := h
  · rw [hplaylist, hwriter, hcleaner]
    exact ⟨rfl, rfl⟩
  · rw [hmirrored.same]
    exact ⟨hmirrored.window.media_traced, hmirrored.window.media_traced⟩

/-- From the first listed fragment on, the tracers have all that was issued, and just in front
    of it the last header that was issued before it. -/
theorem tracers_around {item : PlayItem} {rest : List PlayItem} (h : w.Mirrors directory)
    (hplaylist : w.playlist = item :: rest) :
    ∃ before after front header, w.issued = before ++ item :: after
      ∧ (headers before).getLast? = some header
      ∧ w.writer.playlist = front ++ header :: item :: after
      ∧ w.cleaner.playlist = front ++ header :: item :: after := by
  obtain ⟨-, ⟨-, hnil, -⟩ | ⟨gone, lead, kept, hmirrored⟩⟩ := h
  · rw [hplaylist] at hnil
    cases hnil
  · have hwindow := hmirrored.window
    rw [hplaylist] at hwindow
    obtain ⟨before, after, front, header, hissued, hlast, htraced⟩ := hwindow.around
    exact ⟨before, after, front, header, hissued, hlast, htraced, hmirrored.same.trans htraced⟩

/-- A path of a fragment is scheduled as often as it is the path of a fragment that is gone. -/
theorem count_scheduled (h : w.Mirrors directory) :
    ∃ gone, media w.issued = gone ++ w.playlist ∧
      ∀ path ≠ [], w.cleaner.scheduled.count path = (gone.map PlayItem.filepath).count path := by
  obtain ⟨-, ⟨hissued, hplaylist, -, hcleaner⟩ | ⟨gone, lead, kept, hmirrored⟩⟩ := h
  · refine ⟨[], by rw [hissued, hplaylist]; rfl, ?_⟩
    intro path _
    rw [hcleaner]
    rfl
  · refine ⟨media gone, hmirrored.window.media_issued, ?_⟩
    intro path hpath
    rw [← hmirrored.scheduled, List.count_filter (by simpa using hpath)]

/-- An evicted fragment is deleted once. -/
theorem evicted_once {item : PlayItem} (h : w.Mirrors directory) (hitem : item ∈ media w.issued)
    (hevicted : item ∉ w.playlist) : w.cleaner.scheduled.count item.filepath = 1 := by
  obtain ⟨gone, hissued, hcount⟩ := h.count_scheduled
  have hpaths := h.1.nodup_paths
  rw [hissued, List.map_append] at hpaths
  rw [hcount _ (h.1.media_path_ne_nil item hitem)]
  rw [hissued, List.mem_append] at hitem
  exact List.count_eq_one_of_mem (List.nodup_append.mp hpaths).1
    (List.mem_map_of_mem (hitem.resolve_right hevicted))

/-- A listed fragment is not deleted. -/
theorem retained_kept {item : PlayItem} (h : w.Mirrors directory) (hitem : item ∈ w.playlist) :
    item.filepath ∉ w.cleaner.scheduled := by
  obtain ⟨gone, hissued, hcount⟩ := h.count_scheduled
  have hmem : item ∈ media w.issued := by
    rw [hissued]
    exact List.mem_append_right gone hitem
  have hpaths := h.1.nodup_paths
  rw [hissued, List.map_append] at hpaths
  rw [← List.count_eq_zero, hcount _ (h.1.media_path_ne_nil item hmem), List.count_eq_zero]
  intro hgone
  exact (List.nodup_append.mp hpaths).2.2 _ hgone _ (List.mem_map_of_mem hitem) rfl

end Mirrors

/-- The tracers mirror the playlist, and the cleaner deletes what is evicted and nothing else. -/
theorem tracers_mirror (hreach : (tracedPlaylist directory start).Reachable w) :
    (media w.writer.playlist = w.playlist ∧ media w.cleaner.playlist = w.playlist)
    ∧ (∀ item rest, w.playlist = item :: rest →
        ∃ before after front header, w.issued = before ++ item :: after
          ∧ (headers before).getLast? = some header
          ∧ w.writer.playlist = front ++ header :: item :: after
          ∧ w.cleaner.playlist = front ++ header :: item :: after)
    ∧ (∀ item ∈ media w.issued, item ∉ w.playlist →
        w.cleaner.scheduled.count item.filepath = 1)
    ∧ ∀ item ∈ w.playlist, item.filepath ∉ w.cleaner.scheduled := by
  have h := mirrors_of_reachable hreach
  refine ⟨h.media_tracers, ?_, ?_, ?_⟩
  · intro item rest hplaylist
    exact h.tracers_around hplaylist
  · intro item hitem hevicted
    exact h.evicted_once hitem hevicted
  · intro item hitem
    exact h.retained_kept hitem

/-- Two headers, a fragment, a header, two fragments; then the first fragment is evicted. -/
theorem tracers_mirror_two_headers :
    ∃ w : TracedPlaylist, (w.playlist.map fun item => item.id) = [2, 3]
      ∧ (media w.issued).length = 3
      ∧ (media w.writer.playlist = w.playlist ∧ media w.cleaner.playlist = w.playlist)
      ∧ ∀ item ∈ media w.issued, item ∉ w.playlist →
          w.cleaner.scheduled.count item.filepath = 1 := by
  obtain ⟨w, hreach, hw⟩ := Machine.reachable_of_runs (M := tracedPlaylist "d".toList 0)
    (p := fun w => (w.playlist.map fun item => item.id) = [2, 3] ∧ (media w.issued).length = 3)
    [.updateHeader, .updateHeader, .add 0 0 1000 true 188, .updateHeader, .add 0 1000 1000 true 188,
      .add 0 2000 1000 true 188, .removeFirst] (by decide +kernel)
  obtain ⟨hids, hissued⟩ := of_decide_eq_true hw
  obtain ⟨hmedia, -, hevicted, -⟩ := tracers_mirror hreach
  exact ⟨w, hids, hissued, hmedia, hevicted⟩

end TracedPlaylist

end SeastarLive
