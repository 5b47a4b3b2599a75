/-
SeastarLive.Server.SessionList — the lists of sessions that all shards share.

`session_list` of `src/server/transmition.cc`, as far as publishers use it.
Every function here runs under the lock of the list.

* `_sessions` is a list of pointers; `SessionRef` is a pointer with what is
  read of the object behind it. An object a pointer holds is not freed, so
  the objects of a run are numbered in the order in which they are made.
* The wildcards of `default_session_comparation` (an empty `app`, an empty
  `stream`, `ignored` and `none`) are kept.
-/
import Mathlib.Data.List.Nodup

namespace SeastarLive

/-- `ownership_t`. -/
inductive Ownership
  | ignored
  | internal
  | user
  | invisible
deriving DecidableEq

/-- `format_t`. -/
inductive Format
  | unknown
  | flv
  | hls
  | ts
  | ignored
deriving DecidableEq

/-- `protocol_t`, a set of bits. -/
abbrev Protocol := BitVec 32

namespace Protocol

def none : Protocol := 0
def rtmp : Protocol := 1 <<< 1

end Protocol

/-- An application and a stream in it. -/
structure StreamKey where
  app : List Char
  stream : List Char
deriving DecidableEq

/-- A pointer to a session: the object pointed to, and what the list reads of it. -/
structure SessionRef where
  address : Nat
  key : StreamKey
  owner : Ownership := .user
  format : Format := .flv
  protocol : Protocol := .rtmp
deriving DecidableEq

/-- `default_session_comparation`. -/
def defaultSessionComparation (s : SessionRef) (key : StreamKey) (os : Ownership)
    (fmt : Format) (prot : Protocol) : Bool :=
  let appEqual := decide (key.app = []) || decide (s.key.app = key.app)
  let streamEqual := decide (key.stream = []) || decide (s.key.stream = key.stream)
  let ownershipEqual := decide (os = .ignored) || decide (s.owner = os)
  let formatEqual := decide (fmt = .ignored) || decide (s.format = fmt)
  let protocolContains := decide (prot = .none) || decide (s.protocol &&& prot ≠ .none)
  appEqual && streamEqual && ownershipEqual && formatEqual && protocolContains

namespace SessionList

/-- `is_exist(app, stream, …)`, with no condition of the caller's. -/
def isExist (sessions : List SessionRef) (key : StreamKey) (os : Ownership := .ignored)
    (fmt : Format := .ignored) (prot : Protocol := .none) : Bool :=
  sessions.any fun s => defaultSessionComparation s key os fmt prot

/-- `is_exist(session)`: two pointers are equal when they point to one object. -/
def isExistSession (sessions : List SessionRef) (session : SessionRef) : Bool :=
  sessions.any fun s => s.address == session.address

/-- The locked half of `add`. -/
def pushBack (sessions : List SessionRef) (session : SessionRef) : List SessionRef :=
  sessions ++ [session]

/-- `remove`. -/
def remove (sessions : List SessionRef) (session : SessionRef) : List SessionRef :=
  sessions.eraseP fun s => s.address == session.address

/-- `remove_all`; an empty `app` or `stream` is no wildcard here. -/
def removeAll (sessions : List SessionRef) (key : StreamKey) : List SessionRef :=
  sessions.filter fun s => !(s.key.app == key.app && s.key.stream == key.stream)

/-! ## Queries and the list -/

theorem defaultSessionComparation_self (s : SessionRef) :
    defaultSessionComparation s s.key .ignored .ignored .none = true := by
  simp [defaultSessionComparation]

/-- Without wildcards the comparison is of the application and the stream. -/
theorem defaultSessionComparation_iff {s : SessionRef} {key : StreamKey} (happ : key.app ≠ [])
    (hstream : key.stream ≠ []) :
    defaultSessionComparation s key .ignored .ignored .none = true ↔ s.key = key := by
  cases s with
  | mk address skey owner format protocol =>
      cases skey
      cases key
      simp_all [defaultSessionComparation]

theorem key_not_mem_of_isExist {sessions : List SessionRef} {pub : SessionRef}
    (h : isExist sessions pub.key = false) : pub.key ∉ sessions.map SessionRef.key := by
  intro hmem
  obtain ⟨s, hs, hkey⟩ := List.mem_map.mp hmem
  have hfalse := List.any_eq_false.mp h s hs
  rw [← hkey] at hfalse
  exact hfalse (defaultSessionComparation_self s)

theorem isExist_eq_false_iff {sessions : List SessionRef} {key : StreamKey}
    (happ : key.app ≠ []) (hstream : key.stream ≠ []) :
    isExist sessions key = false ↔ key ∉ sessions.map SessionRef.key := by
  unfold isExist
  rw [List.any_eq_false, List.mem_map]
  constructor
  · rintro h ⟨s, hs, hkey⟩
    exact h s hs ((defaultSessionComparation_iff happ hstream).mpr hkey)
  · intro h s hs heq
    exact h ⟨s, hs, (defaultSessionComparation_iff happ hstream).mp heq⟩

theorem nodup_map_pushBack {β : Type} (f : SessionRef → β) (sessions : List SessionRef)
    (pub : SessionRef) :
    ((pushBack sessions pub).map f).Nodup ↔ f pub ∉ sessions.map f ∧ (sessions.map f).Nodup := by
  unfold pushBack
  rw [List.map_append, List.map_singleton, ← List.concat_eq_append, List.nodup_concat]

theorem remove_sublist (sessions : List SessionRef) (pub : SessionRef) :
    (remove sessions pub).Sublist sessions := List.eraseP_sublist

/-- In a list of different objects the one is gone, and every other stays. -/
theorem mem_remove_iff {sessions : List SessionRef} {pub s : SessionRef}
    (hdistinct : (sessions.map SessionRef.address).Nodup) :
    s ∈ remove sessions pub ↔ s ∈ sessions ∧ s.address ≠ pub.address := by
  constructor
  · intro hs
    refine ⟨(remove_sublist sessions pub).subset hs, ?_⟩
    unfold remove at hs
    induction sessions with
    | nil => cases hs
    | cons t sessions ih =>
        rw [List.map_cons, List.nodup_cons] at hdistinct
        by_cases ht : t.address = pub.address
        · rw [List.eraseP_cons_of_pos (by simpa using ht)] at hs
          intro haddress
          exact hdistinct.1 (ht ▸ haddress ▸ List.mem_map_of_mem hs)
        · rw [List.eraseP_cons_of_neg (by simpa using ht)] at hs
          rcases List.mem_cons.mp hs with rfl | hs
          · exact ht
          · exact ih hdistinct.2 hs
  · rintro ⟨hs, hne⟩
    exact (List.mem_eraseP_of_neg (by simpa using hne)).mpr hs

theorem isExistSession_remove {sessions : List SessionRef} {pub : SessionRef}
    (h : isExistSession sessions pub = false) (s : SessionRef) :
    isExistSession (remove sessions s) pub = false := by
  rw [isExistSession, List.any_eq_false] at h ⊢
  exact fun t ht => h t ((remove_sublist sessions s).subset ht)

theorem isExistSession_pushBack {sessions : List SessionRef} {pub s : SessionRef}
    (h : isExistSession sessions pub = false) (hs : s.address ≠ pub.address) :
    isExistSession (pushBack sessions s) pub = false := by
  rw [isExistSession, pushBack, List.any_append, Bool.or_eq_false_iff]
  exact ⟨h, by simp [hs]⟩

theorem remove_of_not_exists {sessions : List SessionRef} {pub : SessionRef}
    (h : isExistSession sessions pub = false) : remove sessions pub = sessions :=
  List.eraseP_of_forall_not fun s hs => List.any_eq_false.mp h s hs

/-- A session that was not in the list is taken off again. -/
theorem remove_pushBack_self {sessions : List SessionRef} {pub : SessionRef}
    (h : isExistSession sessions pub = false) : remove (pushBack sessions pub) pub = sessions := by
  have hpub : [pub].eraseP (fun s => s.address == pub.address) = [] := by simp
  rw [remove, pushBack, List.eraseP_append_right _ (fun s hs => List.any_eq_false.mp h s hs), hpub,
    List.append_nil]

theorem remove_pushBack {pub s : SessionRef} (hs : s.address ≠ pub.address)
    (sessions : List SessionRef) :
    remove (pushBack sessions s) pub = pushBack (remove sessions pub) s := by
  have hkept : [s].eraseP (fun t => t.address == pub.address) = [s] := by simp [hs]
  rw [remove, pushBack, List.eraseP_append]
  split
  · rfl
  · rename_i hnot
    rw [hkept, remove_of_not_exists (by simpa [isExistSession] using hnot)]
    rfl

theorem remove_comm {pub s : SessionRef} (hs : s.address ≠ pub.address)
    (sessions : List SessionRef) :
    remove (remove sessions s) pub = remove (remove sessions pub) s := by
  refine List.eraseP_comm fun t _ => ?_
  simp only [beq_iff_eq]
  by_cases ht : t.address = s.address
  · exact .inr fun h => hs (ht.symm.trans h)
  · exact .inl ht

/-- What `remove_all` keeps of the list. -/
theorem keeps_eq (s : SessionRef) (key : StreamKey) :
    (!(s.key.app == key.app && s.key.stream == key.stream)) = decide (s.key ≠ key) := by
  obtain ⟨address, ⟨app, stream⟩, owner, format, protocol⟩ := s
  obtain ⟨app', stream'⟩ := key
  by_cases happ : app = app' <;> by_cases hstream : stream = stream' <;> simp [happ, hstream]

theorem mem_removeAll {sessions : List SessionRef} {key : StreamKey} {s : SessionRef} :
    s ∈ removeAll sessions key ↔ s ∈ sessions ∧ s.key ≠ key := by
  rw [removeAll, List.mem_filter, keeps_eq, decide_eq_true_iff]

theorem removeAll_sublist (sessions : List SessionRef) (key : StreamKey) :
    (removeAll sessions key).Sublist sessions := List.filter_sublist

end SessionList

end SeastarLive
