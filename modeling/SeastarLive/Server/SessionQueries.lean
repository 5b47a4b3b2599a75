/-
SeastarLive.Server.SessionQueries — what the queries of a list of sessions answer.

`size_when`, `find_any_when`, `find_all_when`, `is_exist_when`, `for_each_when`,
`remove_when` and the queries by application and stream of `session_list` in
`src/server/transmition.cc`; `remove_players`, which finds players with one of
them and removes them with another.

* A query casts to a type `S`. Here `isA` tells which sessions of the list are
  of that type (`dynamic_pointer_cast`); a base of the element type is `true` of
  all of them.
* Conditions answer by looking at a session and write nothing. A null
  `std::function` is `none`.
* `size` answers a filter of wildcards only without looking at the list, and
  `is_exist` casts to the element type whatever type it is asked for.
-/
import SeastarLive.Server.PublishStop

namespace SeastarLive

/-- The arguments of a query by application and stream. -/
structure SessionFilter where
  key : StreamKey
  os : Ownership := .ignored
  fmt : Format := .ignored
  prot : Protocol := .none
deriving DecidableEq

/-- Every part is a wildcard: the test of `size`. -/
def SessionFilter.IsWildcard (f : SessionFilter) : Prop :=
  f.key.app = [] ∧ f.key.stream = [] ∧ f.os = .ignored ∧ f.fmt = .ignored ∧ f.prot = .none

instance (f : SessionFilter) : Decidable f.IsWildcard :=
  inferInstanceAs (Decidable (_ ∧ _))

/-- `default_session_condition`. -/
def defaultSessionCondition (f : SessionFilter) (condition : Option (SessionRef → Bool))
    (s : SessionRef) : Bool :=
  match condition with
  | none => defaultSessionComparation s f.key f.os f.fmt f.prot
  | some condition => defaultSessionComparation s f.key f.os f.fmt f.prot && condition s

namespace SessionList

variable (isA : SessionRef → Bool)

/-! ## The loops -/

/-- `size_when`. -/
def sizeWhen (condition : SessionRef → Bool) (sessions : List SessionRef) : Nat :=
  sessions.foldl (fun size s => if isA s && condition s then size + 1 else size) 0

/-- `find_any_when`. -/
def findAnyWhen (condition : SessionRef → Bool) : List SessionRef → Option SessionRef
  | [] => none
  | s :: sessions => if isA s && condition s then some s else findAnyWhen condition sessions

/-- `find_all_when`. -/
def findAllWhen (condition : SessionRef → Bool) (sessions : List SessionRef) :
    List SessionRef :=
  sessions.foldl (fun found s => if isA s && condition s then found ++ [s] else found) []

/-- `is_exist_when`. -/
def isExistWhen (condition : SessionRef → Bool) : List SessionRef → Bool
  | [] => false
  | s :: sessions => if isA s && condition s then true else isExistWhen condition sessions

/-- `for_each_when`; the action changes a state. -/
def forEachWhen {α : Type} (condition : SessionRef → Bool) (action : SessionRef → α → α)
    (sessions : List SessionRef) (a : α) : α :=
  sessions.foldl (fun a s => if isA s && condition s then action s a else a) a

/-- `remove_when`. -/
def removeWhen (condition : SessionRef → Bool) : List SessionRef → List SessionRef
  | [] => []
  | s :: sessions =>
      if isA s && condition s then removeWhen condition sessions
      else s :: removeWhen condition sessions

/-! ## The queries -/

variable (sessions : List SessionRef) (f : SessionFilter) (condition : Option (SessionRef → Bool))

/-- `size`. -/
def size : Nat :=
  if f.IsWildcard then sessions.length
  else sizeWhen isA (defaultSessionCondition f condition) sessions

/-- `find_any`. -/
def findAny : Option SessionRef :=
  findAnyWhen isA (defaultSessionCondition f condition) sessions

/-- `find_all`. -/
def findAll : List SessionRef :=
  findAllWhen isA (defaultSessionCondition f condition) sessions

/-- `is_exist`: `is_exist_when<T>`, and `S` is not used. -/
def isExistAs (_isA : SessionRef → Bool) : Bool :=
  isExistWhen (fun _ => true) (defaultSessionCondition f condition) sessions

/-- `for_each`. -/
def forEach {α : Type} (action : SessionRef → α → α) (a : α) : α :=
  forEachWhen isA (defaultSessionCondition f condition) action sessions a

/-! ## The loops by their results -/

section Loops

variable {isA} (cond : SessionRef → Bool)

/-- What a loop of the list looks at. -/
def selected (isA cond : SessionRef → Bool) (sessions : List SessionRef) : List SessionRef :=
  sessions.filter fun s => isA s && cond s

variable {cond} {s : SessionRef}

theorem selected_cons_of_pos (hs : (isA s && cond s) = true) (sessions : List SessionRef) :
    selected isA cond (s :: sessions) = s :: selected isA cond sessions :=
  List.filter_cons_of_pos hs

theorem selected_cons_of_neg (hs : ¬ (isA s && cond s) = true) (sessions : List SessionRef) :
    selected isA cond (s :: sessions) = selected isA cond sessions :=
  List.filter_cons_of_neg hs

variable (cond)

theorem findAllWhen_eq (sessions : List SessionRef) :
    findAllWhen isA cond sessions = selected isA cond sessions := by
  have hfold : ∀ found, sessions.foldl
      (fun found s => if isA s && cond s then found ++ [s] else found) found
        = found ++ selected isA cond sessions := by
    induction sessions with
    | nil => simp [selected]
    | cons s sessions ih =>
        intro found
        rw [List.foldl_cons, ih]
        by_cases hs : (isA s && cond s) = true
        · rw [if_pos hs, selected_cons_of_pos hs, List.append_assoc, List.singleton_append]
        · rw [if_neg hs, selected_cons_of_neg hs]
  exact hfold []

theorem sizeWhen_eq (sessions : List SessionRef) :
    sizeWhen isA cond sessions = (selected isA cond sessions).length := by
  have hfold : ∀ n, sessions.foldl
      (fun size s => if isA s && cond s then size + 1 else size) n
        = n + (selected isA cond sessions).length := by
    induction sessions with
    | nil => simp [selected]
    | cons s sessions ih =>
        intro n
        rw [List.foldl_cons, ih]
        by_cases hs : (isA s && cond s) = true
        · rw [if_pos hs, selected_cons_of_pos hs, List.length_cons]
          omega
        · rw [if_neg hs, selected_cons_of_neg hs]
  exact (hfold 0).trans (Nat.zero_add _)

theorem findAnyWhen_eq (sessions : List SessionRef) :
    findAnyWhen isA cond sessions = (selected isA cond sessions).head? := by
  induction sessions with
  | nil => rfl
  | cons s sessions ih =>
      rw [findAnyWhen]
      by_cases hs : (isA s && cond s) = true
      · rw [if_pos hs, selected_cons_of_pos hs, List.head?_cons]
      · rw [if_neg hs, selected_cons_of_neg hs, ih]

theorem isExistWhen_iff (sessions : List SessionRef) :
    isExistWhen isA cond sessions = true ↔ selected isA cond sessions ≠ [] := by
  induction sessions with
  | nil => simp [isExistWhen, selected]
  | cons s sessions ih =>
      rw [isExistWhen]
      by_cases hs : (isA s && cond s) = true
      · rw [if_pos hs, selected_cons_of_pos hs]
        exact iff_of_true rfl (List.cons_ne_nil _ _)
      · rw [if_neg hs, selected_cons_of_neg hs]
        exact ih

theorem forEachWhen_eq {α : Type} (action : SessionRef → α → α) (sessions : List SessionRef)
    (a : α) :
    forEachWhen isA cond action sessions a
      = (selected isA cond sessions).foldl (fun a s => action s a) a := by
  induction sessions generalizing a with
  | nil => rfl
  | cons s sessions ih =>
      unfold forEachWhen at ih ⊢
      rw [List.foldl_cons, ih]
      by_cases hs : (isA s && cond s) = true
      · rw [if_pos hs, selected_cons_of_pos hs, List.foldl_cons]
      · rw [if_neg hs, selected_cons_of_neg hs]

/-- What `remove_when` leaves is what it does not look at, in order. -/
theorem removeWhen_eq (sessions : List SessionRef) :
    removeWhen isA cond sessions = sessions.filter fun s => !(isA s && cond s) := by
  induction sessions with
  | nil => rfl
  | cons s sessions ih =>
      rw [removeWhen]
      by_cases hs : (isA s && cond s) = true
      · rw [if_pos hs, ih, List.filter_cons_of_neg (by simp [hs])]
      · rw [if_neg hs, ih, List.filter_cons_of_pos (by simp [hs])]

end Loops

/-! ## One selection behind all queries -/

section Queries

variable {isA} {sessions : List SessionRef} {f : SessionFilter}
  {condition : Option (SessionRef → Bool)}

/-- The sessions that the queries are about. -/
theorem mem_findAll {s : SessionRef} :
    s ∈ findAll isA sessions f condition
      ↔ s ∈ sessions ∧ isA s = true ∧ defaultSessionCondition f condition s = true := by
  rw [findAll, findAllWhen_eq, selected, List.mem_filter, Bool.and_eq_true]

theorem findAny_eq : findAny isA sessions f condition
    = (findAll isA sessions f condition).head? := by
  rw [findAny, findAll, findAllWhen_eq, findAnyWhen_eq]

theorem forEach_eq {α : Type} (action : SessionRef → α → α) (a : α) :
    forEach isA sessions f condition action a
      = (findAll isA sessions f condition).foldl (fun a s => action s a) a := by
  rw [forEach, findAll, findAllWhen_eq, forEachWhen_eq]

/-- The extra condition of a query holds; a null one does. -/
def MeetsCondition (condition : Option (SessionRef → Bool)) (s : SessionRef) : Prop :=
  ∀ c, condition = some c → c s = true

/-- A filter of wildcards leaves the choice to the condition. -/
theorem defaultSessionCondition_wildcard (h : f.IsWildcard) (s : SessionRef) :
    defaultSessionCondition f condition s = true ↔ MeetsCondition condition s := by
  obtain ⟨happ, hstream, hos, hfmt, hprot⟩ := h
  have hall : defaultSessionComparation s f.key f.os f.fmt f.prot = true := by
    simp [defaultSessionComparation, happ, hstream, hos, hfmt, hprot]
  cases condition with
  | none => exact iff_of_true hall fun c hc => absurd hc (Option.some_ne_none c).symm
  | some c =>
      unfold defaultSessionCondition
      rw [hall]
      show (true && c s) = true ↔ _
      rw [Bool.true_and]
      exact ⟨fun hc _ h => Option.some.inj h ▸ hc, fun h => h c rfl⟩

/-- `size` counts what `find_all` finds, but for a filter of wildcards it counts the list. -/
theorem size_eq_iff :
    size isA sessions f condition = (findAll isA sessions f condition).length
      ↔ (f.IsWildcard → ∀ s ∈ sessions, isA s = true ∧ MeetsCondition condition s) := by
  unfold size
  by_cases hf : f.IsWildcard
  · rw [if_pos hf, findAll, findAllWhen_eq, selected, eq_comm, List.length_filter_eq_length_iff]
    simp only [hf, forall_const, Bool.and_eq_true, defaultSessionCondition_wildcard hf]
  · rw [if_neg hf, findAll, findAllWhen_eq, sizeWhen_eq]
    exact iff_of_true rfl fun h => absurd h hf

/-- `is_exist` asks whether any session matches, whatever its type. -/
theorem isExistAs_iff :
    isExistAs sessions f condition isA = true
      ↔ ∃ s ∈ sessions, defaultSessionCondition f condition s = true := by
  rw [isExistAs, isExistWhen_iff, selected]
  simp only [Bool.true_and, ne_eq, List.filter_eq_nil_iff, not_forall, not_not, exists_prop]

/-- The query that the registry uses is the one for the element type. -/
theorem isExist_eq_isExistAs :
    isExist sessions f.key f.os f.fmt f.prot = isExistAs sessions f none fun _ => true := by
  rw [Bool.eq_iff_iff, isExistAs_iff, isExist, List.any_eq_true]
  rfl

theorem findAll_ne_nil_iff :
    findAll isA sessions f condition ≠ []
      ↔ ∃ s ∈ sessions, isA s = true ∧ defaultSessionCondition f condition s = true := by
  constructor
  · intro h
    obtain ⟨s, hs⟩ := List.exists_mem_of_ne_nil _ h
    exact ⟨s, mem_findAll.mp hs⟩
  · rintro ⟨s, hs⟩
    exact List.ne_nil_of_mem (mem_findAll.mpr hs)

end Queries

/-- The queries for the same sessions answer the same. -/
structure QueriesAgree (sessions : List SessionRef) (f : SessionFilter)
    (condition : Option (SessionRef → Bool)) : Prop where
  size : size isA sessions f condition = (findAll isA sessions f condition).length
  exist : isExistAs sessions f condition isA = true ↔ findAll isA sessions f condition ≠ []
  any : findAny isA sessions f condition = (findAll isA sessions f condition).head?
  each : ∀ (α : Type) (action : SessionRef → α → α) (a : α),
    forEach isA sessions f condition action a
      = (findAll isA sessions f condition).foldl (fun a s => action s a) a

/-- The queries agree exactly where a filter of wildcards finds the whole list to be of the
    type and to meet the condition, and a match of any type comes with a match of the type. -/
theorem queriesAgree_iff (isA : SessionRef → Bool) (sessions : List SessionRef)
    (f : SessionFilter) (condition : Option (SessionRef → Bool)) :
    QueriesAgree isA sessions f condition
      ↔ (f.IsWildcard → ∀ s ∈ sessions, isA s = true ∧ MeetsCondition condition s)
        ∧ ((∃ s ∈ sessions, defaultSessionCondition f condition s = true) →
            ∃ s ∈ sessions, isA s = true ∧ defaultSessionCondition f condition s = true) := by
  constructor
  · intro h
    refine ⟨size_eq_iff.mp h.size, fun hexist => ?_⟩
    exact findAll_ne_nil_iff.mp (h.exist.mp (isExistAs_iff.mpr hexist))
  · rintro ⟨hsize, hexist⟩
    refine ⟨size_eq_iff.mpr hsize, ?_, findAny_eq, fun _ => forEach_eq⟩
    rw [isExistAs_iff, findAll_ne_nil_iff]
    refine ⟨hexist, ?_⟩
    rintro ⟨s, hs, _, hcondition⟩
    exact ⟨s, hs, hcondition⟩

/-- Two publishers, and the first only is of the type that is counted. -/
theorem queries_disagree :
    ¬ ∀ (isA : SessionRef → Bool) (sessions : List SessionRef) (f : SessionFilter)
      (condition : Option (SessionRef → Bool)), QueriesAgree isA sessions f condition := by
  intro hall
  have hsize := (hall (fun s => s.address == 0)
    [⟨0, ⟨['a'], ['b']⟩, .user, .flv, .rtmp⟩, ⟨1, ⟨['a'], ['c']⟩, .internal, .hls, .rtmp⟩]
    ⟨⟨[], []⟩, .ignored, .ignored, .none⟩ none).size
  revert hsize
  decide

end SessionList

/-! ## Removing players by application and stream -/

/-- The queries of the registry are `find_all` and `remove_when` with the element type. -/
theorem SessionList.removeAll_eq_removeWhen (sessions : List SessionRef) (key : StreamKey) :
    SessionList.removeAll sessions key
      = SessionList.removeWhen (fun _ => true)
          (fun s => s.key.app == key.app && s.key.stream == key.stream) sessions := by
  rw [SessionList.removeWhen_eq]
  simp only [SessionList.removeAll, Bool.true_and]

namespace Transmition

variable (t : Transmition)

theorem findPlayers_eq_findAll (key : StreamKey) :
    t.findPlayers key
      = SessionList.findAll (fun _ => true) t.players
          ⟨key, .ignored, .ignored, .none⟩ none := by
  rw [SessionList.findAll, SessionList.findAllWhen_eq]
  simp only [SessionList.selected, Bool.true_and, findPlayers, defaultSessionCondition]

/-- What `remove_players` removes is what it reports: no player twice, those that were
    registered and are not any more, and the others stay in order. -/
def RemovesReported (key : StreamKey) : Prop :=
  ∃ t' reported, t.remove (.players key) = some (t', reported)
    ∧ reported.Nodup
    ∧ (∀ plyr, plyr ∈ reported ↔ plyr ∈ t.players ∧ plyr ∉ t'.players)
    ∧ t'.players = t.players.filter fun plyr => decide (plyr ∉ reported)

theorem players_nodup : t.players.Nodup := t.distinct.of_map _

/-- A player with the names, where an empty name stands for any. -/
def Matches (key : StreamKey) (plyr : SessionRef) : Prop :=
  (key.app = [] ∨ plyr.key.app = key.app) ∧ (key.stream = [] ∨ plyr.key.stream = key.stream)

instance (key : StreamKey) (plyr : SessionRef) : Decidable (Matches key plyr) :=
  inferInstanceAs (Decidable (_ ∧ _))

theorem mem_findPlayers_iff {key : StreamKey} {plyr : SessionRef} :
    plyr ∈ t.findPlayers key ↔ plyr ∈ t.players ∧ Matches key plyr := by
  rw [findPlayers, List.mem_filter]
  simp [defaultSessionComparation, Matches]

/-- What `remove_players` does when its assertion holds. -/
theorem remove_players_eq {key : StreamKey} (haccept : ¬ (key.app = [] ∧ key.stream = [])) :
    t.remove (.players key) =
      if (t.findPlayers key).isEmpty then some (t, [])
      else some (⟨SessionList.removeAll t.players key, t.publishers, t.distinct_removeAll key⟩,
        t.findPlayers key) := by
  rw [remove, if_neg haccept]

/-- `remove_players` removes what it reports exactly where every registered player that has
    the names, an empty one standing for any, has them to the letter. -/
theorem removesReported_iff (key : StreamKey) (haccept : ¬ (key.app = [] ∧ key.stream = [])) :
    t.RemovesReported key ↔ ∀ plyr ∈ t.players, Matches key plyr → plyr.key = key := by
  unfold RemovesReported
  rw [t.remove_players_eq haccept]
  split
  · rename_i hempty
    have hnone : t.findPlayers key = [] := List.isEmpty_iff.mp hempty
    refine iff_of_true ⟨t, [], rfl, List.nodup_nil, by simp, by simp⟩ ?_
    intro plyr hplyr hmatches
    have hfound := t.mem_findPlayers_iff.mpr ⟨hplyr, hmatches⟩
    rw [hnone] at hfound
    cases hfound
  · constructor
    · rintro ⟨t', reported, hremove, -, hreported, -⟩ plyr hplyr hmatches
      cases hremove
      have hgone := ((hreported plyr).mp (t.mem_findPlayers_iff.mpr ⟨hplyr, hmatches⟩)).2
      by_contra hkey
      exact hgone (SessionList.mem_removeAll.mpr ⟨hplyr, hkey⟩)
    · intro hexact
      -- what is found and what is removed are the players of the key
      have hfound : ∀ plyr, plyr ∈ t.findPlayers key ↔ plyr ∈ t.players ∧ plyr.key = key := by
        intro plyr
        rw [t.mem_findPlayers_iff]
        refine and_congr_right fun hplyr => ⟨hexact plyr hplyr, ?_⟩
        rintro rfl
        exact ⟨.inr rfl, .inr rfl⟩
      refine ⟨_, _, rfl, t.players_nodup.filter _, ?_, ?_⟩
      · intro plyr
        rw [hfound]
        refine and_congr_right fun hplyr => ?_
        simp only [SessionList.mem_removeAll, hplyr, true_and, not_not]
      · show SessionList.removeAll t.players key = _
        refine List.filter_congr fun plyr hplyr => ?_
        rw [SessionList.keeps_eq]
        simp only [hfound, hplyr, true_and, decide_not]

end Transmition

/-- Removing the two players of a stream by both names, beside a player of another stream of the
    application and one of another application. -/
theorem Transmition.removesReported_two :
    (⟨[⟨0, ⟨['a'], ['b']⟩, .user, .flv, .rtmp⟩, ⟨1, ⟨['a'], ['c']⟩, .user, .flv, .rtmp⟩,
        ⟨2, ⟨['a'], ['b']⟩, .user, .flv, .rtmp⟩, ⟨3, ⟨['d'], ['b']⟩, .user, .flv, .rtmp⟩], [],
      by decide⟩ : Transmition).RemovesReported ⟨['a'], ['b']⟩ :=
  (Transmition.removesReported_iff _ ⟨['a'], ['b']⟩ (by decide)).mpr (by decide)

/-- The application only is named: its player is reported and stays registered. -/
theorem Transmition.reports_more :
    ¬ ∀ (t : Transmition) (key : StreamKey), ¬ (key.app = [] ∧ key.stream = []) →
      t.RemovesReported key := by
  intro hall
  obtain ⟨t', reported, hremove, -, hreported, -⟩ :=
    hall ⟨[⟨0, ⟨['a'], ['b']⟩, .user, .flv, .rtmp⟩], [], by decide⟩ ⟨['a'], []⟩ (by decide)
  rw [Transmition.remove_players_eq _ (by decide)] at hremove
  cases hremove
  have hgone := (hreported ⟨0, ⟨['a'], ['b']⟩, .user, .flv, .rtmp⟩).mp (by decide)
  exact hgone.2 (by decide)

end SeastarLive
