/-
SeastarLive.Rtmp.PublishTheorems — which publish commands stay in the base directory.

A name taken from the path of the URL is safe: `normalize_path` runs after the
decoding, so a component of the path is empty or names an entry. The
`streamname` argument goes into the directory as it was decoded.
`publish_confined_iff` says for which of its values the directory still lies
strictly beneath the base: those that do not climb out of the application's
directory, and those that climb and come back down into the base.
-/
import SeastarLive.Rtmp.Publish
import SeastarLive.Util.CxxUrlTheorems

namespace SeastarLive

open LexicalPath

/-! ## Arguments -/

/-- The last value that a query gives to a key. -/
def lastValue (key : List Char) (query : List (List Char × List Char)) : Option (List Char) :=
  query.reverse.lookup key

theorem lookup_filter_ne {key k : List Char} {args : Arguments} (h : key ≠ k) :
    (args.filter fun arg => arg.1 != k).lookup key = args.lookup key := by
  induction args with
  | nil => rfl
  | cons arg args ih =>
      obtain ⟨k', v⟩ := arg
      by_cases hk : k' = k
      · have hne : (key == k) = false := by simp [h]
        simp [hk, List.lookup_cons, ih, hne]
      · by_cases hkey : key = k' <;> simp [List.lookup_cons, hk, hkey, ih]

theorem lookup_setArgs (key : List Char) (args : Arguments)
    (query : List (List Char × List Char)) :
    (setArgs args query).lookup key = (lastValue key query).or (args.lookup key) := by
  induction query generalizing args with
  | nil => rfl
  | cons kv query ih =>
      obtain ⟨k, v⟩ := kv
      have hset : setArgs args ((k, v) :: query)
          = setArgs ((k, v) :: args.filter fun arg => arg.1 != k) query := rfl
      have hlast : lastValue key ((k, v) :: query)
          = (lastValue key query).or (List.lookup key [(k, v)]) := by
        simp [lastValue, List.lookup_append]
      rw [hset, ih, hlast, Option.or_assoc]
      congr 1
      by_cases hkey : key = k
      · simp [hkey]
      · have hne : (key == k) = false := by simp [hkey]
        simp [List.lookup_cons, hne, lookup_filter_ne hkey]

/-- `streamname` comes from the URL of the two names if that has one, else from `tcurl`. -/
theorem lookup_streamname (first second : List (List Char × List Char)) :
    (setArgs (setArgs [] first) second).lookup deprecatedStreamNameKey
      = lastValue deprecatedStreamNameKey (first ++ second) := by
  rw [lookup_setArgs, lookup_setArgs]
  simp [lastValue, List.lookup_append]

/-! ## Directories -/

/-- Where an application's directory leads from the base. -/
theorem lexical_hlsDirectory {base app stream : List Char} (happ : Plain app)
    (hne : app ≠ []) :
    lexical (hlsDirectory base app stream)
      = (lexical (base ++ ['/'])).follow (.down app :: moves stream) := by
  have hname : IsName app := ⟨hne, happ.2.1, happ.2.2⟩
  rw [hlsDirectory, lexical_append_slash, moves_append_slash, moves_component happ.1,
    toMove_of_isName hname]
  rfl

/-- A stream name stays in the base directory: it does not climb out of the directory of
    its application, or it comes back down into the base. -/
def StaysBeneath (base stream : List Char) : Prop :=
  (Normal.relative (moves stream)).ups = 0
    ∨ Normal.Returns (lexical (base ++ ['/'])) ((Normal.relative (moves stream)).ups - 1)
        (Normal.relative (moves stream)).names

theorem beneath_hlsDirectory_iff {base app stream : List Char} (happ : Plain app)
    (hne : app ≠ []) :
    Normal.Beneath (lexical (base ++ ['/'])) (lexical (hlsDirectory base app stream))
      ↔ StaysBeneath base stream := by
  obtain ⟨hups, hnames⟩ := Normal.relative_cons_down app (moves stream)
  rw [lexical_hlsDirectory happ hne, Normal.beneath_follow_iff, hups, hnames]
  unfold StaysBeneath
  by_cases hzero : (Normal.relative (moves stream)).ups = 0
  · simp only [hzero, if_true, true_or, iff_true]
    refine ⟨.inr (Nat.zero_le _), app :: (Normal.relative (moves stream)).names, ?_, ?_⟩
    · exact List.cons_ne_nil _ _
    · simp
  · simp [hzero]

/-- A stream name from the path of the URL stays. -/
theorem staysBeneath_of_plain {base stream : List Char} (hstream : Plain stream)
    (hne : stream ≠ []) : StaysBeneath base stream := by
  have hname : IsName stream := ⟨hne, hstream.2.1, hstream.2.2⟩
  refine .inl ?_
  rw [moves_component hstream.1, toMove_of_isName hname]
  rfl

/-! ## The command -/

/-- If the URL has one component, and so the stream name is the last `streamname` of the
    two queries, that name stays in the base directory. -/
def StreamNameStays (base app stream tcurl : List Char) : Prop :=
  ∀ first second root appName name, Url.parse tcurl = .ok first →
    Url.parse (publishUrl app stream) = .ok second →
    second.path.splitOn '/' = [root, appName] → appName ≠ [] →
    lastValue deprecatedStreamNameKey (first.query ++ second.query) = some name → name ≠ [] →
    StaysBeneath base name

/-- What `on_publish` returns, for the shapes the path of the URL can have. -/
theorem onPublish_cases {app stream tcurl : List Char} {req : PublishRequest}
    (h : onPublish app stream tcurl = .ok (some req)) :
    ∃ first second, Url.parse tcurl = .ok first ∧ Url.parse (publishUrl app stream) = .ok second
      ∧ ((∃ root, second.path.splitOn '/' = [root, req.appName]
            ∧ lastValue deprecatedStreamNameKey (first.query ++ second.query)
                = some req.streamName)
          ∨ ∃ root, second.path.splitOn '/' = [root, req.appName, req.streamName]) := by
  unfold onPublish at h
  obtain ⟨first, hfirst, h⟩ := bind_eq_ok h
  obtain ⟨second, hsecond, h⟩ := bind_eq_ok h
  refine ⟨first, second, hfirst, hsecond, ?_⟩
  dsimp only at h
  split at h
  · rename_i root appName hpath
    rw [lookup_streamname] at h
    split at h
    · cases h
    · rename_i name hname
      cases h
      exact .inl ⟨root, hpath, hname⟩
  · rename_i root appName streamName hpath
    cases h
    exact .inr ⟨root, hpath⟩
  · cases h

theorem onPublish_of_streamname {app stream tcurl : List Char} {first second : Url}
    {root appName name : List Char} (hfirst : Url.parse tcurl = .ok first)
    (hsecond : Url.parse (publishUrl app stream) = .ok second)
    (hpath : second.path.splitOn '/' = [root, appName])
    (hname : lastValue deprecatedStreamNameKey (first.query ++ second.query) = some name) :
    ∃ req, onPublish app stream tcurl = .ok (some req) ∧ req.appName = appName
      ∧ req.streamName = name := by
  simp only [onPublish, hfirst, hsecond, ok_bind, hpath, lookup_streamname, hname]
  exact ⟨_, rfl, rfl, rfl⟩

/-- A publish command stays in the base directory exactly when its `streamname` does, if
    it is the one that is used. -/
theorem publish_confined_iff (base app stream tcurl : List Char) :
    PublishConfined base app stream tcurl ↔ StreamNameStays base app stream tcurl := by
  constructor
  · intro hconfined first second root appName name hfirst hsecond hpath happ hname hne
    obtain ⟨req, hrun, rfl, rfl⟩ := onPublish_of_streamname hfirst hsecond hpath hname
    have hplain : Plain req.appName := plain_of_mem_path hsecond (by simp [hpath])
    refine (beneath_hlsDirectory_iff hplain happ).mp (hconfined req hrun ?_)
    simp [PublishRequest.notFound, happ, hne]
  · intro hstays req hrun hfound
    simp only [PublishRequest.notFound, Bool.or_eq_false_iff, List.isEmpty_eq_false_iff]
      at hfound
    obtain ⟨happ, hne⟩ := hfound
    obtain ⟨first, second, hfirst, hsecond, hshape⟩ := onPublish_cases hrun
    have hplain : Plain req.appName := by
      rcases hshape with ⟨root, hpath, -⟩ | ⟨root, hpath⟩
      · exact plain_of_mem_path hsecond (by simp [hpath])
      · exact plain_of_mem_path hsecond (by simp [hpath])
    refine (beneath_hlsDirectory_iff hplain happ).mpr ?_
    rcases hshape with ⟨root, hpath, hname⟩ | ⟨root, hpath⟩
    · exact hstays first second root _ _ hfirst hsecond hpath happ hname hne
    · exact staysBeneath_of_plain (plain_of_mem_path hsecond (by simp [hpath])) hne

/-- `rtmp://host/live` with the stream `?streamname=..` clears the base directory itself. -/
theorem publish_not_confined :
    ¬ PublishConfined "/home/amadeus/ts".toList "live".toList "?streamname=..".toList
      "rtmp://host/live".toList := by
  intro hconfined
  have hrun : onPublish "live".toList "?streamname=..".toList "rtmp://host/live".toList
      = .ok (some ⟨"live".toList, "..".toList, "rtmp://host/live".toList, []⟩) := by
    decide +kernel
  obtain ⟨-, -, rest, hne, hrest⟩ := hconfined _ hrun rfl
  rw [lexical_slash (by decide)] at hrest
  have hbase : (lexical (hlsDirectory "/home/amadeus/ts".toList "live".toList "..".toList)).names
      = (lexical "/home/amadeus/ts".toList).names := by
    decide +kernel
  rw [hbase] at hrest
  exact hne (List.self_eq_append_right.mp hrest)

end SeastarLive
