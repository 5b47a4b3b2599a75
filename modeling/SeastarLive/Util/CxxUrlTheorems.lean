/-
SeastarLive.Util.CxxUrlTheorems — the path of a parsed URL is normalized.

`normalize_path` runs on the decoded path, so whatever the URL was, no
component of `url.path()` is `.` or `..` (`plain_of_mem_path`).
-/
import SeastarLive.Lib.Failure
import SeastarLive.Util.CxxUrl

namespace SeastarLive

/-! ## Components -/

/-- A component without a slash that is neither `.` nor `..`; it may be empty. -/
def Plain (c : List Char) : Prop := '/' ∉ c ∧ c ≠ ['.'] ∧ c ≠ ['.', '.']

theorem plain_nil : Plain [] := by
  refine ⟨by simp, by simp, by simp⟩

/-- What is split off at a character does not contain it. -/
theorem not_mem_of_mem_splitOn {a : Char} {s c : List Char} (hc : c ∈ s.splitOn a) : a ∉ c := by
  induction s generalizing c with
  | nil =>
      rw [List.splitOn_nil, List.mem_singleton] at hc
      simp [hc]
  | cons x s ih =>
      rw [List.splitOn_cons_eq_if_modifyHead] at hc
      by_cases hx : x == a
      · rw [if_pos hx] at hc
        rcases List.mem_cons.mp hc with hnil | hmem
        · simp [hnil]
        · exact ih hmem
      · rw [if_neg hx] at hc
        cases hs : s.splitOn a with
        | nil => exact absurd hs (List.splitOn_ne_nil a s)
        | cons y ys =>
            rw [hs, List.modifyHead_cons] at hc
            rcases List.mem_cons.mp hc with hhead | htail
            · have hy : a ∉ y := ih (by rw [hs]; exact List.mem_cons_self)
              have hax : ¬ a = x := fun h => hx (by simp [h])
              simp [hhead, hy, hax]
            · exact ih (by rw [hs]; exact List.mem_cons_of_mem y htail)

theorem plain_normalizeElem {elems : List (List Char)} {elem : List Char}
    (helems : ∀ c ∈ elems, Plain c) (helem : '/' ∉ elem) :
    ∀ c ∈ normalizeElem elems elem, Plain c := by
  intro c hc
  unfold normalizeElem at hc
  split at hc
  · exact helems c hc
  · rename_i hstay
    split at hc
    · exact helems c (List.dropLast_subset _ hc)
    · rename_i hup
      rcases List.mem_append.mp hc with hmem | hmem
      · exact helems c hmem
      · rw [List.mem_singleton.mp hmem]
        exact ⟨helem, fun h => hstay (.inr h), hup⟩

theorem plain_normalizeLast {elems : List (List Char)} {elem : List Char}
    (helems : ∀ c ∈ elems, Plain c) (helem : '/' ∉ elem) :
    ∀ c ∈ normalizeLast elems elem, Plain c := by
  intro c hc
  unfold normalizeLast at hc
  split at hc
  · rcases List.mem_append.mp hc with hmem | hmem
    · exact helems c hmem
    · rw [List.mem_singleton.mp hmem]
      exact plain_nil
  · rename_i hdot
    split at hc
    · exact helems c (List.dropLast_subset _ hc)
    · rename_i hup
      rcases List.mem_append.mp hc with hmem | hmem
      · exact helems c hmem
      · rw [List.mem_singleton.mp hmem]
        exact ⟨helem, hdot, hup⟩

/-- The loop of `normalize_path` keeps plain components only. -/
theorem plain_foldl_normalizeElem {parts elems : List (List Char)}
    (hparts : ∀ c ∈ parts, '/' ∉ c) (helems : ∀ c ∈ elems, Plain c) :
    ∀ c ∈ parts.foldl normalizeElem elems, Plain c := by
  induction parts generalizing elems with
  | nil => exact helems
  | cons part parts ih =>
      refine ih (fun c hc => hparts c (List.mem_cons_of_mem part hc)) ?_
      exact plain_normalizeElem helems (hparts part List.mem_cons_self)

theorem plain_of_mem_pathElems {s c : List Char} (hc : c ∈ pathElems s) : Plain c := by
  have hparts : ∀ c ∈ s.splitOn '/', '/' ∉ c := fun c hc => not_mem_of_mem_splitOn hc
  refine plain_normalizeLast ?_ ?_ c hc
  · refine plain_foldl_normalizeElem ?_ (fun c hc => by cases hc)
    exact fun c hc => hparts c (List.dropLast_subset _ hc)
  · rcases List.eq_nil_or_concat (s.splitOn '/') with hnil | ⟨parts, part, hconcat⟩
    · exact absurd hnil (List.splitOn_ne_nil _ s)
    · rw [List.concat_eq_append] at hconcat
      rw [hconcat, List.getLastD_concat]
      exact hparts part (by rw [hconcat]; simp)

/-- The components of a normalized path are plain. -/
theorem plain_of_mem_normalizePath {s c : List Char} (hc : c ∈ (normalizePath s).splitOn '/') :
    Plain c := by
  have hjoin : ∀ c ∈ (List.intercalate ['/'] (pathElems s)).splitOn '/', Plain c := by
    intro c hc
    by_cases hnil : pathElems s = []
    · rw [hnil] at hc
      rw [List.mem_singleton.mp hc]
      exact plain_nil
    · rw [List.splitOn_intercalate '/' (fun l hl => (plain_of_mem_pathElems hl).1) hnil] at hc
      exact plain_of_mem_pathElems hc
  unfold normalizePath at hc
  split at hc
  · rw [List.mem_singleton.mp hc]
    exact plain_nil
  · split at hc
    · rw [List.singleton_append, ← List.nil_append ('/' :: _), List.splitOn_append_cons_self] at hc
      rcases List.mem_append.mp hc with hmem | hmem
      · rw [List.mem_singleton.mp hmem]
        exact plain_nil
      · exact hjoin c hmem
    · exact hjoin c hc

/-! ## Parsed URLs -/

theorem parseHierarchy_path {s : List Char} {u : Url} (h : parseHierarchy s = .ok u) :
    ∃ path, u.path = normalizePath path := by
  unfold parseHierarchy at h
  obtain ⟨⟨⟨user, host, ipv⟩, rest⟩, -, h⟩ := bind_eq_ok h
  obtain ⟨-, -, h⟩ := bind_eq_ok h
  obtain ⟨-, -, h⟩ := bind_eq_ok h
  obtain ⟨-, -, h⟩ := bind_eq_ok h
  obtain ⟨-, -, h⟩ := bind_eq_ok h
  obtain ⟨path, -, h⟩ := bind_eq_ok h
  obtain ⟨query, -, h⟩ := bind_eq_ok h
  obtain ⟨-, -, h⟩ := bind_eq_ok h
  cases h
  exact ⟨path, rfl⟩

/-- The path of a URL is the outcome of `normalize_path`. -/
theorem Url.parse_path {url : List Char} {u : Url} (h : Url.parse url = .ok u) :
    ∃ path, u.path = normalizePath path := by
  unfold Url.parse at h
  split at h
  · cases h
    exact ⟨[], rfl⟩
  · split at h
    · cases h
    · split at h
      · obtain ⟨-, -, h⟩ := bind_eq_ok h
        obtain ⟨path, -, h⟩ := bind_eq_ok h
        cases h
        exact ⟨path, rfl⟩
      · obtain ⟨-, -, h⟩ := bind_eq_ok h
        exact parseHierarchy_path h
      · exact parseHierarchy_path h

/-- A component of the path of a URL is plain. -/
theorem plain_of_mem_path {url c : List Char} {u : Url} (h : Url.parse url = .ok u)
    (hc : c ∈ u.path.splitOn '/') : Plain c := by
  obtain ⟨path, hpath⟩ := Url.parse_path h
  rw [hpath] at hc
  exact plain_of_mem_normalizePath hc

end SeastarLive
