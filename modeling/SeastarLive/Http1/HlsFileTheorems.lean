/-
SeastarLive.Http1.HlsFileTheorems — which requests stay in the HLS directory.

The extension test keeps a file name from being `.` or `..`; nothing tests the
application and the stream. `hls_confined_iff` says which of them leave the
directory: two dots for the application, or one dot and then two, unless the
way back leads into the directory again.
-/
import SeastarLive.Http1.HlsFile

namespace SeastarLive

open LexicalPath

/-! ## The served name -/

/-- The file name is rewritten to one with the same extension. -/
theorem servedName_cases {req : HlsRequest} (hname : '/' ∉ req.filename) :
    nameExtension (servedName req) = extension req.filename ∧ '/' ∉ servedName req := by
  unfold servedName
  dsimp only
  split
  · rename_i h
    simp only [Bool.and_eq_true, beq_iff_eq] at h
    rw [h.1]
    exact ⟨by decide, by decide⟩
  · exact ⟨by rw [extension, filename_of_not_mem hname], hname⟩

theorem filename_hlsPath {dir app stream name : List Char} (hname : '/' ∉ name) :
    filename (dir ++ '/' :: (app ++ '/' :: (stream ++ '/' :: name))) = name := by
  rw [filename_append_slash, filename_append_slash, filename_append_slash,
    filename_of_not_mem hname]

/-! ## Confinement -/

/-- The extensions of the files that are sent. -/
def Supported (ext : List Char) : Prop := 1 < ext.length ∧ extensionToMimeType ext ≠ []

/-- An application and a stream that do not climb out of the directory, or climb out of
    it and back. -/
def DirectoryStays (tsDirectory app stream : List Char) : Prop :=
  (app ≠ ['.', '.'] ∧ ¬ (app = ['.'] ∧ stream = ['.', '.']))
    ∨ lexical (tsDirectory ++ ['/']) = Normal.root
    ∨ (app = ['.', '.'] ∧ (lexical (tsDirectory ++ ['/'])).names.getLast? = some stream)

/-- A request whose file name is not sent, or whose names stay in the directory. -/
def HlsNamesStay (tsDirectory : List Char) (req : HlsRequest) : Prop :=
  ¬ Supported (extension req.filename)
    ∨ DirectoryStays tsDirectory req.appName req.streamName

/-- The file that is sent, if its extension is supported and it exists. -/
theorem hlsFileHandle_file {dir : List Char} {stat : List Char → Bool} {req : HlsRequest}
    (hname : '/' ∉ req.filename) {filepath mimeType : List Char}
    (h : hlsFileHandle dir stat req = .file filepath mimeType) :
    Supported (extension req.filename)
      ∧ filepath = dir ++ '/' :: (req.appName ++ '/' :: (req.streamName
          ++ '/' :: servedName req)) := by
  obtain ⟨hext, hslash⟩ := servedName_cases hname
  unfold hlsFileHandle at h
  split at h
  · cases h
  · split at h
    · cases h
    · split at h
      · cases h
      · unfold readFile at h
        rw [extension, filename_hlsPath hslash, hext] at h
        split at h
        · cases h
        · rename_i hlong
          split at h
          · cases h
          · rename_i hmime
            split at h
            · cases h
            · cases h
              exact ⟨⟨by omega, hmime⟩, rfl⟩

/-- A supported file that exists is sent. -/
theorem hlsFileHandle_of_supported (dir : List Char) {req : HlsRequest}
    (happ : req.appName ≠ []) (hstream : req.streamName ≠ []) (hfile : req.filename ≠ [])
    (hname : '/' ∉ req.filename) (hsupported : Supported (extension req.filename)) :
    ∃ mimeType, hlsFileHandle dir (fun _ => true) req
      = .file (dir ++ '/' :: (req.appName ++ '/' :: (req.streamName ++ '/' :: servedName req)))
          mimeType := by
  obtain ⟨hext, hslash⟩ := servedName_cases hname
  have hshort : ¬ (extension req.filename).length ≤ 1 := by
    have hlong := hsupported.1
    omega
  refine ⟨extensionToMimeType (extension req.filename), ?_⟩
  simp only [hlsFileHandle, happ, hstream, hfile, if_false, readFile]
  rw [extension, filename_hlsPath hslash, hext, if_neg hshort, if_neg hsupported.2]
  rfl

/-- Where the file lies, by what the names of the application and the stream are. -/
theorem beneath_hlsPath_iff {dir app stream name : List Char} (happ : '/' ∉ app)
    (hstream : '/' ∉ stream) (hslash : '/' ∉ name) (hname : IsName name)
    (happ' : app ≠ []) (hstream' : stream ≠ []) :
    Normal.Beneath (lexical (dir ++ ['/']))
        (lexical (dir ++ '/' :: (app ++ '/' :: (stream ++ '/' :: name))))
      ↔ DirectoryStays dir app stream := by
  have hpath : lexical (dir ++ '/' :: (app ++ '/' :: (stream ++ '/' :: name)))
      = (lexical (dir ++ ['/'])).follow [toMove app, toMove stream, .down name] := by
    rw [lexical_append_slash dir (app ++ '/' :: (stream ++ '/' :: name)), moves_append_slash,
      moves_append_slash, moves_component happ, moves_component hstream, moves_component hslash,
      toMove_of_isName hname]
    rfl
  rw [hpath, Normal.beneath_follow_iff]
  unfold DirectoryStays
  have hdots : ¬ IsName ['.', '.'] := fun h => h.2.2 rfl
  have hdot : ¬ IsName ['.'] := fun h => h.2.1 rfl
  have hlast : ∀ c, (lexical (dir ++ ['/'])).names.getLast? = some c → IsName c :=
    fun c hc => isName_of_mem_lexical (List.mem_of_getLast? hc)
  rcases toMove_cases app with ⟨-, happ₂⟩ | ⟨-, happ₂⟩ | ⟨happ₁, happ₂⟩
  · -- the application stays
    have happ₃ : app = ['.'] := happ₂.resolve_left happ'
    subst happ₃
    rcases toMove_cases stream with ⟨-, hs₂⟩ | ⟨-, hs₂⟩ | ⟨hs₁, hs₂⟩
    · have hs₃ : stream = ['.'] := hs₂.resolve_left hstream'
      subst hs₃
      exact iff_of_true Normal.returns_zero (.inl ⟨by decide, by decide⟩)
    · subst hs₂
      refine Iff.trans (Normal.returns_one_name (k := 0)) ?_
      simp
    · rw [hs₁]
      exact iff_of_true Normal.returns_zero (.inl ⟨by decide, fun h => hs₂.2.2 h.2⟩)
  · -- the application goes up
    subst happ₂
    rcases toMove_cases stream with ⟨-, hs₂⟩ | ⟨-, hs₂⟩ | ⟨hs₁, hs₂⟩
    · have hs₃ : stream = ['.'] := hs₂.resolve_left hstream'
      subst hs₃
      refine Iff.trans (Normal.returns_one_name (k := 0)) ?_
      have hno : ¬ (lexical (dir ++ ['/'])).names.getLast? = some ['.'] := fun h => hdot (hlast _ h)
      simp [hno]
    · subst hs₂
      refine Iff.trans (Normal.returns_one_name (k := 1)) ?_
      have hno : ¬ (lexical (dir ++ ['/'])).names.getLast? = some ['.', '.'] :=
        fun h => hdots (hlast _ h)
      simp [hno]
    · rw [hs₁]
      refine Iff.trans Normal.returns_two_names ?_
      simp
  · -- the application names a directory
    refine iff_of_true ?_ (.inl ⟨happ₂.2.2, fun h => happ₂.2.1 h.1⟩)
    rw [happ₁]
    rcases toMove_cases stream with ⟨hs₁, -⟩ | ⟨hs₁, -⟩ | ⟨hs₁, -⟩
    · rw [hs₁]
      exact Normal.returns_zero
    · rw [hs₁]
      exact Normal.returns_zero
    · rw [hs₁]
      exact Normal.returns_zero

/-- A request stays in the directory exactly when its names do. -/
theorem hls_confined_iff (dir : List Char) (req : HlsRequest)
    (happ : req.appName ≠ [] ∧ '/' ∉ req.appName)
    (hstream : req.streamName ≠ [] ∧ '/' ∉ req.streamName)
    (hfile : req.filename ≠ [] ∧ '/' ∉ req.filename) :
    HlsConfined dir req ↔ HlsNamesStay dir req := by
  obtain ⟨hext, hslash⟩ := servedName_cases hfile.2
  have hiff : Supported (extension req.filename) →
      (Normal.Beneath (lexical (dir ++ ['/']))
        (lexical (dir ++ '/' :: (req.appName ++ '/' :: (req.streamName ++ '/' :: servedName req))))
      ↔ DirectoryStays dir req.appName req.streamName) := by
    intro hsupported
    refine beneath_hlsPath_iff happ.2 hstream.2 hslash (isName_of_nameExtension ?_) happ.1
      hstream.1
    intro hnil
    have hlong := hsupported.1
    rw [← hext, hnil] at hlong
    cases hlong
  constructor
  · intro hconfined
    by_cases hsupported : Supported (extension req.filename)
    · obtain ⟨mimeType, hrun⟩ := hlsFileHandle_of_supported dir happ.1 hstream.1
        hfile.1 hfile.2 hsupported
      exact .inr ((hiff hsupported).mp (hconfined _ _ _ hrun))
    · exact .inl hsupported
  · intro hstays stat filepath mimeType hrun
    obtain ⟨hsupported, rfl⟩ := hlsFileHandle_file hfile.2 hrun
    exact (hiff hsupported).mpr (hstays.resolve_left fun h => h hsupported)

/-- A request for a file of the stream `room` of the application `live`. -/
theorem hls_confined_iff_live :
    HlsConfined "/home/amadeus/ts".toList
        ⟨"live".toList, "room".toList, "index.m3u8".toList, fun _ => []⟩
      ↔ HlsNamesStay "/home/amadeus/ts".toList
        ⟨"live".toList, "room".toList, "index.m3u8".toList, fun _ => []⟩ :=
  hls_confined_iff _ _ (by decide) (by decide) (by decide)

/-- Two dots for the application open a file beside the directory. -/
theorem hls_not_confined :
    ¬ HlsConfined "/home/amadeus/ts".toList
      ⟨"..".toList, "keys".toList, "server.key".toList, fun _ => []⟩ := by
  intro hconfined
  have hrun : hlsFileHandle "/home/amadeus/ts".toList (fun _ => true)
      ⟨"..".toList, "keys".toList, "server.key".toList, fun _ => []⟩
        = .file "/home/amadeus/ts/../keys/server.key".toList "application/pkcs8".toList := by
    decide +kernel
  obtain ⟨-, -, rest, -, hrest⟩ := hconfined _ _ _ hrun
  have hfile : (lexical "/home/amadeus/ts/../keys/server.key".toList).names
      = ["home".toList, "amadeus".toList, "keys".toList, "server.key".toList] := by
    decide +kernel
  have hdir : (lexical ("/home/amadeus/ts".toList ++ ['/'])).names
      = ["home".toList, "amadeus".toList, "ts".toList] := by
    decide +kernel
  rw [hfile, hdir] at hrest
  simp at hrest

end SeastarLive
