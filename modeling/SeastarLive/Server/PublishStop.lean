/-
SeastarLive.Server.PublishStop — which publishers the end of a player stops.

`remove_player`, `remove_players`, `on_remove_player` and
`stop_publisher_after_player_shutdown` of `src/server/transmition.cc`.

* Publishers are cancelled later and on their own shard; here a removal tells
  which ones will be.
* `add` refuses an object that is in the list, so the players of a registry are
  different objects.
* `find_players` takes an empty `app` or `stream` for a wildcard, and
  `remove_all` does not.
-/
import SeastarLive.Server.SessionList

namespace SeastarLive

/-- The two lists of `transmition`. -/
structure Transmition where
  players : List SessionRef
  publishers : List SessionRef
  distinct : (players.map SessionRef.address).Nodup

/-- The ways to remove players. -/
inductive Removal
  /-- `remove_player(player_ptr)`. -/
  | player (plyr : SessionRef)
  /-- `remove_player(play_session *)`. -/
  | playerAt (address : Nat)
  /-- `remove_players(app, stream)`. -/
  | players (key : StreamKey)

namespace Transmition

variable (t : Transmition)

/-- `find_publisher`: the first that matches. -/
def findPublisher (key : StreamKey) (os : Ownership) : Option SessionRef :=
  t.publishers.find? fun s => defaultSessionComparation s key os .ignored .none

/-- `find_players`. -/
def findPlayers (key : StreamKey) : List SessionRef :=
  t.players.filter fun s => defaultSessionComparation s key .ignored .ignored .none

/-! ## Stopping publishers -/

/-- The owner that `stop_publisher_after_player_shutdown` looks for. -/
def stopOwner (mode : List Char) : Ownership :=
  if mode = "user".toList then .user
  else if mode = "internal".toList then .internal
  else .ignored

/-- `stop_publisher_after_player_shutdown`: the publisher that is cancelled. -/
def stopPublisherAfterPlayerShutdown (plyr : SessionRef) (mode : List Char) : Option SessionRef :=
  t.findPublisher plyr.key (stopOwner mode)

/-- `on_remove_player`, in a mode of `auto_stop_publish_mode`. -/
def onRemovePlayer (mode : List Char) (plyr : SessionRef) : Option SessionRef :=
  if plyr.owner ≠ .user then none
  else if mode = "none".toList then none
  else t.stopPublisherAfterPlayerShutdown plyr mode

/-! ## Removing players -/

theorem distinct_remove (plyr : SessionRef) :
    ((SessionList.remove t.players plyr).map SessionRef.address).Nodup :=
  t.distinct.sublist ((SessionList.remove_sublist t.players plyr).map SessionRef.address)

theorem distinct_removeAll (key : StreamKey) :
    ((SessionList.removeAll t.players key).map SessionRef.address).Nodup :=
  t.distinct.sublist ((SessionList.removeAll_sublist t.players key).map SessionRef.address)

/-- `_players.remove(plyr)`. -/
def erase (plyr : SessionRef) : Transmition :=
  ⟨SessionList.remove t.players plyr, t.publishers, t.distinct_remove plyr⟩

/-- A removal: the registry after it, and the players `on_remove_player` is called with. A
    failed assertion is `none`. -/
def remove : Removal → Option (Transmition × List SessionRef)
  | .player plyr => some (t.erase plyr, [plyr])
  | .playerAt address =>
      match t.players.find? fun s => s.address == address with
      | none => some (t, [])
      | some plyr => some (t.erase plyr, [plyr])
  | .players key =>
      if key.app = [] ∧ key.stream = [] then none
      else
        let plyrs := t.findPlayers key
        if plyrs.isEmpty then some (t, [])
        else
          some (⟨SessionList.removeAll t.players key, t.publishers, t.distinct_removeAll key⟩,
            plyrs)

/-! ## Who is left -/

/-- A user-owned player of the stream is registered. -/
def HasViewer (key : StreamKey) : Prop :=
  ∃ q ∈ t.players, q.owner = .user ∧ q.key = key

/-- Taking the player off cancels a publisher of its stream only if no viewer is left. -/
def StopsFor (mode : List Char) (plyr : SessionRef) : Prop :=
  ∀ pub, t.onRemovePlayer mode plyr = some pub → pub.key = plyr.key → ¬ t.HasViewer plyr.key

/-- A removal cancels a publisher of a removed player's stream only if it leaves no
    user-owned player of the stream. -/
def StopsLast (mode : List Char) (r : Removal) : Prop :=
  ∀ t' plyrs, t.remove r = some (t', plyrs) → ∀ plyr ∈ plyrs, t'.StopsFor mode plyr

/-- The publisher that the mode selects for the player is one of its stream. -/
def Selects (mode : List Char) (plyr : SessionRef) : Prop :=
  ∃ pub, t.findPublisher plyr.key (stopOwner mode) = some pub ∧ pub.key = plyr.key

/-- A player of the stream of `plyr` is registered, user-owned and another object. -/
def HasOtherViewer (plyr : SessionRef) : Prop :=
  ∃ q ∈ t.players, q.address ≠ plyr.address ∧ q.owner = .user ∧ q.key = plyr.key

/-- What must hold of the registry before a removal: where the mode selects a publisher for a
    user-owned player, this is the last such player of its stream. Where a removal by
    application and stream finds it, it is a player of exactly these. -/
def LastViewers (mode : List Char) : Removal → Prop
  | .player plyr => plyr.owner = .user → t.Selects mode plyr → ¬ t.HasOtherViewer plyr
  | .playerAt address => ∀ plyr ∈ t.players, plyr.address = address → plyr.owner = .user →
      t.Selects mode plyr → ¬ t.HasOtherViewer plyr
  | .players key => ¬ (key.app = [] ∧ key.stream = []) →
      ∀ plyr ∈ t.findPlayers key, plyr.owner = .user → t.Selects mode plyr → plyr.key = key

/-! ## The lists after a removal -/

theorem hasViewer_erase_iff (plyr : SessionRef) :
    (t.erase plyr).HasViewer plyr.key ↔ t.HasOtherViewer plyr := by
  constructor
  · rintro ⟨q, hq, howner, hkey⟩
    obtain ⟨hmem, hne⟩ := (SessionList.mem_remove_iff t.distinct).mp hq
    exact ⟨q, hmem, hne, howner, hkey⟩
  · rintro ⟨q, hmem, hne, howner, hkey⟩
    exact ⟨q, (SessionList.mem_remove_iff t.distinct).mpr ⟨hmem, hne⟩, howner, hkey⟩

/-- A player that is found by an application and a stream, with its wildcards. -/
theorem mem_findPlayers {key : StreamKey} {plyr : SessionRef} :
    plyr ∈ t.findPlayers key ↔ plyr ∈ t.players
      ∧ defaultSessionComparation plyr key .ignored .ignored .none = true := by
  unfold findPlayers
  exact List.mem_filter

theorem hasViewer_removeAll_iff {key : StreamKey} {plyr : SessionRef}
    (hmem : plyr ∈ t.players) (howner : plyr.owner = .user) :
    (⟨SessionList.removeAll t.players key, t.publishers, t.distinct_removeAll key⟩
        : Transmition).HasViewer plyr.key ↔ plyr.key ≠ key := by
  constructor
  · rintro ⟨q, hq, _, hkey⟩
    exact hkey ▸ (SessionList.mem_removeAll.mp hq).2
  · intro hne
    exact ⟨plyr, SessionList.mem_removeAll.mpr ⟨hmem, hne⟩, howner, rfl⟩

/-- A removal that names an application and a stream takes off every player it finds. -/
theorem lastViewers_players (mode : List Char) {key : StreamKey} (happ : key.app ≠ [])
    (hstream : key.stream ≠ []) : t.LastViewers mode (.players key) := by
  intro _ plyr hplyr _ _
  exact (SessionList.defaultSessionComparation_iff happ hstream).mp (t.mem_findPlayers.mp hplyr).2

/-! ## The rule -/

/-- In a mode that stops publishers, what `on_remove_player` cancels. -/
theorem onRemovePlayer_iff {mode : List Char} (hmode : mode ≠ "none".toList) {plyr : SessionRef} :
    (∃ pub, t.onRemovePlayer mode plyr = some pub ∧ pub.key = plyr.key)
      ↔ plyr.owner = .user ∧ t.Selects mode plyr := by
  unfold onRemovePlayer Selects stopPublisherAfterPlayerShutdown
  by_cases howner : plyr.owner = .user
  · rw [if_neg (by simpa using howner), if_neg hmode]
    simp only [howner, true_and]
  · rw [if_pos howner]
    simp [howner]

theorem stopsFor_iff {mode : List Char} (hmode : mode ≠ "none".toList) (plyr : SessionRef) :
    t.StopsFor mode plyr
      ↔ (plyr.owner = .user → t.Selects mode plyr → ¬ t.HasViewer plyr.key) := by
  constructor
  · intro h howner hselects
    obtain ⟨pub, hpub, hkey⟩ := (t.onRemovePlayer_iff hmode).mpr ⟨howner, hselects⟩
    exact h pub hpub hkey
  · intro h pub hpub hkey
    obtain ⟨howner, hselects⟩ := (t.onRemovePlayer_iff hmode).mp ⟨pub, hpub, hkey⟩
    exact h howner hselects

theorem stopsFor_erase_iff {mode : List Char} (hmode : mode ≠ "none".toList) (plyr : SessionRef) :
    (t.erase plyr).StopsFor mode plyr
      ↔ (plyr.owner = .user → t.Selects mode plyr → ¬ t.HasOtherViewer plyr) := by
  rw [stopsFor_iff _ hmode, hasViewer_erase_iff]
  rfl

theorem stopsLast_of_remove {mode : List Char} {r : Removal} {t' : Transmition}
    {plyrs : List SessionRef} (h : t.remove r = some (t', plyrs)) :
    t.StopsLast mode r ↔ ∀ plyr ∈ plyrs, t'.StopsFor mode plyr := by
  constructor
  · intro hstops
    exact hstops t' plyrs h
  · intro hall t'' plyrs' h'
    rw [h] at h'
    cases h'
    exact hall

/-- A removal stops publishers only after the last viewer exactly if the players it concerns
    are the last viewers of their streams. -/
theorem stopsLast_iff {mode : List Char} (hmode : mode ≠ "none".toList) (r : Removal) :
    t.StopsLast mode r ↔ t.LastViewers mode r := by
  cases r with
  | player plyr =>
      rw [stopsLast_of_remove t rfl, List.forall_mem_singleton]
      exact t.stopsFor_erase_iff hmode plyr
  | playerAt address =>
      unfold LastViewers
      cases hfind : t.players.find? fun s => s.address == address with
      | none =>
          have hremove : t.remove (.playerAt address) = some (t, []) := by
            simp only [remove, hfind]
          rw [stopsLast_of_remove t hremove]
          refine iff_of_true (fun _ hplyr => nomatch hplyr) fun plyr hplyr haddress => ?_
          exact absurd haddress (by simpa using List.find?_eq_none.mp hfind plyr hplyr)
      | some plyr =>
          have hremove : t.remove (.playerAt address) = some (t.erase plyr, [plyr]) := by
            simp only [remove, hfind]
          have hmem : plyr ∈ t.players := List.mem_of_find?_eq_some hfind
          have haddress : plyr.address = address := by simpa using List.find?_some hfind
          rw [stopsLast_of_remove t hremove, List.forall_mem_singleton,
            t.stopsFor_erase_iff hmode plyr]
          constructor
          · intro h plyr' hmem' haddress'
            have hsame : plyr' = plyr :=
              List.inj_on_of_nodup_map t.distinct hmem' hmem (haddress'.trans haddress.symm)
            rw [hsame]
            exact h
          · intro h
            exact h plyr hmem haddress
  | players key =>
      unfold LastViewers
      by_cases hassert : key.app = [] ∧ key.stream = []
      · refine iff_of_true (fun t' plyrs hremove => ?_) fun h => absurd hassert h
        simp only [remove, if_pos hassert] at hremove
        cases hremove
      · simp only [hassert, not_false_eq_true, forall_const]
        cases hempty : (t.findPlayers key).isEmpty with
        | true =>
            have hnil : t.findPlayers key = [] := by simpa using hempty
            have hremove : t.remove (.players key) = some (t, []) := by
              simp only [remove, if_neg hassert, hempty, if_true]
            rw [stopsLast_of_remove t hremove, hnil]
            exact iff_of_true (fun _ hplyr => nomatch hplyr) fun _ hplyr => nomatch hplyr
        | false =>
            have hremove : t.remove (.players key)
                = some (⟨SessionList.removeAll t.players key, t.publishers,
                    t.distinct_removeAll key⟩, t.findPlayers key) := by
              simp only [remove, if_neg hassert, hempty, Bool.false_eq_true, if_false]
            rw [stopsLast_of_remove t hremove]
            refine forall₂_congr fun plyr hplyr => ?_
            rw [stopsFor_iff _ hmode]
            refine forall_congr' fun howner => ?_
            rw [t.hasViewer_removeAll_iff (t.mem_findPlayers.mp hplyr).1 howner, not_not]
            rfl

end Transmition

/-- Two viewers of a stream, and its publisher. -/
def twoViewers : Transmition where
  players := [{ address := 1, key := ⟨['a'], ['b']⟩ }, { address := 2, key := ⟨['a'], ['b']⟩ }]
  publishers := [{ address := 0, key := ⟨['a'], ['b']⟩ }]
  distinct := by decide

/-- The first of the two leaves, and the publisher is cancelled. -/
theorem first_viewer_stops_publisher :
    ¬ ∀ (t : Transmition) (mode : List Char), mode ≠ "none".toList → ∀ r, t.StopsLast mode r := by
  intro hall
  have hstops := hall twoViewers "user".toList (by decide) (.playerAt 1) _ _ rfl
    { address := 1, key := ⟨['a'], ['b']⟩ } (List.mem_singleton_self _)
    { address := 0, key := ⟨['a'], ['b']⟩ } (by decide) rfl
  exact hstops ⟨{ address := 2, key := ⟨['a'], ['b']⟩ }, by decide, rfl, rfl⟩

/-- One viewer leaves a stream that has a second one, which only the server itself plays. -/
theorem stopsLast_last_viewer :
    (⟨[{ address := 1, key := ⟨['a'], ['b']⟩ },
        { address := 2, key := ⟨['a'], ['b']⟩, owner := .invisible }],
      [{ address := 0, key := ⟨['a'], ['b']⟩ }], by decide⟩ : Transmition).StopsLast "user".toList
        (.playerAt 1) := by
  refine (Transmition.stopsLast_iff _ (by decide) (.playerAt 1)).mpr ?_
  rintro plyr _ haddress _ _ ⟨q, hq, hne, howner, _⟩
  simp only [List.mem_cons, List.not_mem_nil, or_false] at hq
  rcases hq with rfl | rfl
  · exact hne haddress.symm
  · cases howner

end SeastarLive
