/-
SeastarLive.Util.FilePath — file paths as strings.

`lexical` reads a path as the moves of `Lib.LexicalPath`: an empty component
and `.` stay, `..` goes up, and a path with a slash in front starts at the
root. `filename`, `extension` and `stem` are those of `std::filesystem::path`.
-/
import Mathlib.Data.List.Basic
import SeastarLive.Lib.LexicalPath

namespace SeastarLive

open LexicalPath

/-! ## Lexical normal form -/

/-- One component of a path. -/
def toMove (component : List Char) : Move (List Char) :=
  if component = [] ∨ component = ['.'] then .stay
  else if component = ['.', '.'] then .up
  else .down component

/-- The components of a path. -/
def moves (path : List Char) : List (Move (List Char)) := (path.splitOn '/').map toMove

/-- Where a path leads, symbolic links apart. -/
def lexical (path : List Char) : Normal (List Char) :=
  (Normal.origin (path.head? == some '/')).follow (moves path)

/-- A component that names an entry of its directory. -/
def IsName (component : List Char) : Prop :=
  component ≠ [] ∧ component ≠ ['.'] ∧ component ≠ ['.', '.']

theorem toMove_of_isName {c : List Char} (hc : IsName c) : toMove c = .down c := by
  obtain ⟨hnil, hdot, hdots⟩ := hc
  simp [toMove, hnil, hdot, hdots]

/-- A component that is no name stays or goes up. -/
theorem toMove_cases (c : List Char) :
    (toMove c = .stay ∧ (c = [] ∨ c = ['.'])) ∨ (toMove c = .up ∧ c = ['.', '.'])
      ∨ (toMove c = .down c ∧ IsName c) := by
  by_cases hstay : c = [] ∨ c = ['.']
  · exact .inl ⟨by simp [toMove, hstay], hstay⟩
  · by_cases hup : c = ['.', '.']
    · exact .inr (.inl ⟨by simp [toMove, hup], hup⟩)
    · have hname : IsName c := ⟨fun h => hstay (.inl h), fun h => hstay (.inr h), hup⟩
      exact .inr (.inr ⟨toMove_of_isName hname, hname⟩)

@[simp] theorem moves_append_slash (a b : List Char) :
    moves (a ++ '/' :: b) = moves a ++ moves b := by
  simp [moves, List.splitOn_append_cons_self]

theorem moves_component {c : List Char} (hc : '/' ∉ c) : moves c = [toMove c] := by
  simp [moves, List.splitOn_eq_singleton hc]

@[simp] theorem moves_nil : moves [] = [.stay] := rfl

/-- A path under a directory is the directory, then the rest of the path. -/
theorem lexical_append_slash (dir rest : List Char) :
    lexical (dir ++ '/' :: rest) = (lexical (dir ++ ['/'])).follow (moves rest) := by
  have hhead : (dir ++ '/' :: rest).head? = (dir ++ ['/']).head? := by
    cases dir <;> rfl
  unfold lexical
  rw [hhead, moves_append_slash, moves_append_slash, Normal.follow_append, Normal.follow_append,
    moves_nil]
  rfl

/-- A directory that is not empty leads where it leads with a slash behind it. -/
theorem lexical_slash {dir : List Char} (hdir : dir ≠ []) :
    lexical (dir ++ ['/']) = lexical dir := by
  have hhead : (dir ++ ['/']).head? = dir.head? := by
    cases dir with
    | nil => exact absurd rfl hdir
    | cons c dir => rfl
  unfold lexical
  rw [hhead, moves_append_slash, Normal.follow_append, moves_nil]
  rfl

/-- The names of a normal form are names of its start, or components of the path. -/
theorem isName_of_mem_names {n : Normal (List Char)} {components : List (List Char)}
    {name : List Char} (h : name ∈ (n.follow (components.map toMove)).names) :
    name ∈ n.names ∨ IsName name := by
  induction components generalizing n with
  | nil => exact .inl h
  | cons c components ih =>
      rcases ih h with hmem | hname
      · rcases toMove_cases c with ⟨hc, -⟩ | ⟨hc, -⟩ | ⟨hc, hname⟩
        · rw [hc] at hmem
          exact .inl hmem
        · rw [hc] at hmem
          exact .inl (List.mem_of_mem_take hmem)
        · rw [hc] at hmem
          rcases List.mem_append.mp hmem with hmem | hmem
          · exact .inl hmem
          · rw [List.mem_singleton.mp hmem]
            exact .inr hname
      · exact .inr hname

theorem isName_of_mem_lexical {path name : List Char} (h : name ∈ (lexical path).names) :
    IsName name := by
  rcases isName_of_mem_names h with hmem | hname
  · cases habs : path.head? == some '/' with
    | true =>
        rw [habs] at hmem
        cases hmem
    | false =>
        rw [habs] at hmem
        cases hmem
  · exact hname

/-! ## Joining -/

/-- `operator/` with a name on the right. -/
def joinName (directory name : List Char) : List Char :=
  if directory = [] ∨ directory.getLast? = some '/' then directory ++ name
  else directory ++ '/' :: name

theorem joinName_inj {directory a b : List Char} (h : joinName directory a = joinName directory b) :
    a = b := by
  unfold joinName at h
  split at h
  · exact List.append_cancel_left h
  · exact (List.cons.inj (List.append_cancel_left h)).2

/-! ## Extension and stem -/

/-- `filename()`: what is behind the last slash. -/
def filename (path : List Char) : List Char := (path.splitOn '/').getLastD []

/-- The extension of a file name: what starts at its last dot, unless that is its first
    character. -/
def nameExtension (name : List Char) : List Char :=
  if name = ['.', '.'] then []
  else
    match name.reverse.span fun c => c != '.' with
    | (_, []) => []
    | (_, [_]) => []
    | (ext, _ :: _ :: _) => '.' :: ext.reverse

/-- `extension()`. -/
def extension (path : List Char) : List Char := nameExtension (filename path)

/-- `stem()`. -/
def stem (path : List Char) : List Char :=
  (filename path).take ((filename path).length - (extension path).length)

theorem filename_of_not_mem {name : List Char} (h : '/' ∉ name) : filename name = name := by
  simp [filename, List.splitOn_eq_singleton h]

theorem filename_append_slash (dir rest : List Char) :
    filename (dir ++ '/' :: rest) = filename rest := by
  rcases List.eq_nil_or_concat (rest.splitOn '/') with hnil | ⟨parts, part, hconcat⟩
  · exact absurd hnil (List.splitOn_ne_nil _ rest)
  · rw [List.concat_eq_append] at hconcat
    rw [filename, filename, List.splitOn_append_cons_self, hconcat, ← List.append_assoc,
      List.getLastD_concat, List.getLastD_concat]

/-- A file name with an extension names a file. -/
theorem isName_of_nameExtension {name : List Char} (h : nameExtension name ≠ []) :
    IsName name := by
  refine ⟨?_, ?_, ?_⟩
  · intro heq
    rw [heq] at h
    exact h rfl
  · intro heq
    rw [heq] at h
    exact h rfl
  · intro heq
    rw [heq] at h
    exact h rfl

end SeastarLive
