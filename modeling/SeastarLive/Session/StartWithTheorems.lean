/-
SeastarLive.Session.StartWithTheorems — how the life of a session can go wrong.

Three things can happen between the registration of a session and its loop,
and after each the session does not end as its flags say:

* `on_begin` clears the flags of a session that was canceled before it
  (`session_stays_complete`, `session_cancel_lost`);
* a player whose publisher is done goes to `on_terminate` without a flag of
  its own (`session_ends_once`, `session_end_aborts`);
* a player copies the metadata that its publisher does not have yet.

Every step of the four programs says what must still follow it
(`StartStep.Before`). That order, with the flags, gives both results.
-/
import SeastarLive.Session.StartWith

namespace SeastarLive

/-! ## The order of the steps -/

/-- What is to follow a step. -/
def StartStep.Before : StartStep → List StartStep → Prop
  | .onLaunch, rest => .finallyEnd ∈ rest ∧ .onTerminate ∈ rest
  | .testDone, rest => .finallyEnd ∈ rest ∧ .onTerminate ∈ rest
  | .onBegin, rest => .onBegin ∉ rest ∧ .finallyEnd ∈ rest ∧ .onTerminate ∈ rest
  | .initDirectory, rest => .onBegin ∉ rest ∧ .finallyEnd ∈ rest ∧ .onTerminate ∈ rest
  | .loop, rest => .onBegin ∉ rest ∧ .finallyEnd ∈ rest ∧ .onTerminate ∈ rest
  | .thenWrapped, rest => .onBegin ∉ rest ∧ .finallyEnd ∈ rest ∧ .onTerminate ∈ rest
  | .finallyEnd, rest => .onBegin ∉ rest ∧ .onTerminate ∈ rest
  | .startThenWrapped, rest => .onBegin ∉ rest ∧ .onTerminate ∈ rest
  | .onEnd, rest => .onBegin ∉ rest ∧ .onTerminate ∈ rest
  | .onTerminate, rest => rest = [] ∨ rest = [.throwNoContent]
  | .throwNoContent, rest => rest = []

instance : ∀ (st : StartStep) (rest : List StartStep), Decidable (st.Before rest)
  | .onLaunch, _ => inferInstanceAs (Decidable (_ ∧ _))
  | .testDone, _ => inferInstanceAs (Decidable (_ ∧ _))
  | .onBegin, _ => inferInstanceAs (Decidable (_ ∧ _))
  | .initDirectory, _ => inferInstanceAs (Decidable (_ ∧ _))
  | .loop, _ => inferInstanceAs (Decidable (_ ∧ _))
  | .thenWrapped, _ => inferInstanceAs (Decidable (_ ∧ _))
  | .finallyEnd, _ => inferInstanceAs (Decidable (_ ∧ _))
  | .startThenWrapped, _ => inferInstanceAs (Decidable (_ ∧ _))
  | .onEnd, _ => inferInstanceAs (Decidable (_ ∧ _))
  | .onTerminate, _ => inferInstanceAs (Decidable (_ ∨ _))
  | .throwNoContent, _ => inferInstanceAs (Decidable (_ = _))

/-- Every step is followed by what is to follow it. -/
def Ordered : List StartStep → Prop
  | [] => True
  | st :: rest => st.Before rest ∧ Ordered rest

instance Ordered.decide : ∀ todo : List StartStep, Decidable (Ordered todo)
  | [] => inferInstanceAs (Decidable True)
  | _ :: rest =>
      have := Ordered.decide rest
      inferInstanceAs (Decidable (_ ∧ _))

theorem ordered_startSteps (kind : SessionKind) : Ordered (startSteps kind) := by
  rcases kind with _ | _ | _ | _ <;> decide

theorem ordered_afterDone (kind : SessionKind) : Ordered (afterDone kind) := by
  rcases kind with _ | _ | _ | _ <;> decide

theorem ordered_afterDirectory : Ordered afterDirectory := by decide

theorem Ordered.head {st : StartStep} {rest : List StartStep} (h : Ordered (st :: rest)) :
    st.Before rest := h.1

theorem Ordered.tail {todo : List StartStep} (h : Ordered todo) : Ordered todo.tail := by
  cases todo with
  | nil => trivial
  | cons st rest => exact h.2

theorem onTerminate_mem_startSteps (kind : SessionKind) : .onTerminate ∈ startSteps kind := by
  rcases kind with _ | _ | _ | _ <;> decide

theorem finallyEnd_mem_startSteps (kind : SessionKind) : .finallyEnd ∈ startSteps kind := by
  rcases kind with _ | _ | _ | _ <;> decide

theorem onTerminate_mem_afterDone (kind : SessionKind) : .onTerminate ∈ afterDone kind := by
  rcases kind with _ | _ | _ | _ <;> decide

theorem not_mem_afterDone (kind : SessionKind) :
    .onBegin ∉ afterDone kind ∧ .testDone ∉ afterDone kind := by
  rcases kind with _ | _ | _ | _ <;> decide

theorem eq_throwNoContent_of_before {rest : List StartStep}
    (h : StartStep.onTerminate.Before rest) : ∀ st ∈ rest, st = .throwNoContent := by
  rcases h with rfl | rfl
  · exact fun st hmem => nomatch hmem
  · exact fun st hmem => List.mem_singleton.mp hmem

/-- What comes before `on_begin`. -/
theorem StartStep.Before.early {st : StartStep} {rest : List StartStep} (h : st.Before rest)
    (hmem : .onBegin ∈ st :: rest) : st = .onLaunch ∨ st = .testDone ∨ st = .onBegin := by
  by_contra hnot
  simp only [not_or] at hnot
  obtain ⟨hlaunch, htest, hbegin⟩ := hnot
  have hrest : .onBegin ∈ rest := List.mem_of_ne_of_mem (Ne.symm hbegin) hmem
  cases st with
  | onLaunch => exact hlaunch rfl
  | testDone => exact htest rfl
  | onBegin => exact hbegin rfl
  | initDirectory | loop | thenWrapped | finallyEnd | startThenWrapped | onEnd =>
      exact h.1 hrest
  | onTerminate => cases eq_throwNoContent_of_before h _ hrest
  | throwNoContent => cases (show rest = [] from h) ▸ hrest

theorem not_mem_afterDirectory : .onBegin ∉ afterDirectory ∧ .testDone ∉ afterDirectory := by
  decide

/-- Who asks whether the publisher is done has one. -/
theorem isSome_madeWith {kind : SessionKind} (h : .testDone ∈ startSteps kind) :
    (madeWith kind).isSome = true := by
  cases kind with
  | publisher => exact absurd h (by decide)
  | player kind => rfl

/-! ## What a step does -/

namespace SessionImpl

theorem isComplete_iff (s : SessionImpl) :
    s.isComplete = true
      ↔ s.done = true ∨ s.canceled = true ∨ s.failed = true ∨ s.timeout = true := by
  simp only [isComplete, Bool.or_eq_true, or_assoc]

theorem isComplete_of_eq_or {s t : SessionImpl} (hs : s.isComplete = true)
    (h : t = s ∨ ∃ how, t = s.complete how) : t.isComplete = true := by
  rcases h with rfl | ⟨how, rfl⟩
  · exact hs
  · exact s.isComplete_complete how

end SessionImpl

namespace LiveSession

theorem thenWrapped_eq (m : LiveSession) :
    m.thenWrapped = m.impl ∨ ∃ how, m.thenWrapped = m.impl.complete how := by
  unfold thenWrapped
  split
  · split
    · exact .inl rfl
    · exact .inr ⟨_, rfl⟩
  · exact .inl rfl

theorem isComplete_finallyEnd (m : LiveSession) : m.finallyEnd.isComplete = true := by
  unfold finallyEnd
  split
  · rename_i hflag
    simp only [Bool.or_eq_true] at hflag
    rw [SessionImpl.isComplete_iff]
    tauto
  · exact SessionImpl.isComplete_complete _ _

theorem isComplete_startThenWrapped (m : LiveSession) : m.startThenWrapped.isComplete = true := by
  unfold startThenWrapped
  split
  · exact SessionImpl.isComplete_complete _ _
  · split
    · rename_i hfailed
      exact m.impl.isComplete_iff.mpr (.inr (.inr (.inl hfailed)))
    · exact SessionImpl.isComplete_complete _ _
  · split
    · rename_i hfailed
      exact m.impl.isComplete_iff.mpr (.inr (.inr (.inl hfailed)))
    · exact SessionImpl.isComplete_complete _ _

/-- What a step makes of the session being complete, before it and after it. -/
def CompletesTo (before after : Bool) : StartStep → Prop
  | .onBegin => after = false
  | .thenWrapped => before = true → after = true
  | .finallyEnd => after = true
  | .startThenWrapped => after = true
  | _ => after = before

/-- What an `advance` that does not fault does. -/
inductive Advances (m : LiveSession) : LiveSession → Prop
  | idle : m.todo = [] → Advances m m
  | passes {st : StartStep} {rest : List StartStep} (impl : SessionImpl) :
      m.todo = st :: rest → st ≠ .onTerminate →
      CompletesTo m.impl.isComplete impl.isComplete st →
      Advances m { m with impl, todo := rest }
  | gives {rest : List StartStep} (pub : SessionImpl) :
      m.todo = .testDone :: rest → m.pub = some pub → pub.done = true →
      Advances m { m with todo := afterDone m.kind }
  | iterates {rest : List StartStep} : m.todo = .loop :: rest → m.impl.isComplete = false →
      Advances m { m with iterating := true, iterations := m.iterations + 1 }
  | ends {rest : List StartStep} (e : LifecycleEnd) : m.todo = .onTerminate :: rest →
      m.impl.isComplete = true → Advances m { m.sessionEnd e with todo := rest }
  | forgotten {rest : List StartStep} : m.todo = .onTerminate :: rest → m.lifecycle = false →
      Advances m { m with pub := none, todo := rest }

/-- The kinds whose `on_begin` copies the metadata of the publisher. -/
def copiesMeta : SessionKind → Bool
  | .publisher => false
  | .player .hls => false
  | .player _ => true

/-- When an `advance` faults. -/
inductive Faults (m : LiveSession) : StartFault → Prop
  | nullPub {st : StartStep} {rest : List StartStep} : m.todo = st :: rest →
      st = .testDone ∨ st = .throwNoContent → m.pub = none → Faults m .nullPub
  | nullMeta {rest : List StartStep} (pub : SessionImpl) : m.todo = .onBegin :: rest →
      copiesMeta m.kind = true → m.pub = some pub → pub.sessionMeta = none → Faults m .nullMeta
  | noFlag {rest : List StartStep} : m.todo = .onTerminate :: rest → m.lifecycle = true →
      m.impl.isComplete = false → Faults m .noFlag

theorem onBegin_spec {m : LiveSession} {rest : List StartStep} (htodo : m.todo = .onBegin :: rest) :
    (∃ impl, m.onBegin = .ok { m with impl } ∧ impl.isComplete = false)
      ∨ ∃ e, m.onBegin = .error e ∧ Faults m e := by
  unfold onBegin
  split
  · exact .inl ⟨_, rfl, rfl⟩
  · exact .inl ⟨_, rfl, rfl⟩
  · rename_i kind hnot hkind
    split
    · exact .inl ⟨_, rfl, rfl⟩
    · rename_i pub hpub
      split
      · rename_i hmeta
        refine .inr ⟨_, rfl, .nullMeta pub htodo ?_ hpub hmeta⟩
        rw [hkind]
        cases kind with
        | rtmp | httpFlv => rfl
        | hls => exact absurd rfl hnot
      · exact .inl ⟨_, rfl, rfl⟩

theorem onTerminate_spec {m : LiveSession} {rest : List StartStep}
    (htodo : m.todo = .onTerminate :: rest) :
    (∃ t, m.onTerminate = .ok t ∧ Advances m { t with todo := rest })
      ∨ ∃ e, m.onTerminate = .error e ∧ Faults m e := by
  unfold onTerminate
  split
  · rename_i hlife
    exact .inl ⟨_, rfl, .forgotten htodo (by simpa using hlife)⟩
  · rename_i hlife
    have hlife : m.lifecycle = true := by simpa using hlife
    by_cases hfail : (m.impl.failed || m.impl.timeout) = true
    · rw [if_pos hfail]
      refine .inl ⟨_, rfl, .ends _ htodo (m.impl.isComplete_iff.mpr ?_)⟩
      exact .inr (.inr (Bool.or_eq_true _ _ ▸ hfail))
    · rw [if_neg hfail]
      by_cases hcanceled : m.impl.canceled = true
      · rw [if_pos hcanceled]
        exact .inl ⟨_, rfl, .ends _ htodo (m.impl.isComplete_iff.mpr (.inr (.inl hcanceled)))⟩
      · rw [if_neg hcanceled]
        by_cases hdone : m.impl.done = true
        · rw [if_pos hdone]
          exact .inl ⟨_, rfl, .ends _ htodo (m.impl.isComplete_iff.mpr (.inl hdone))⟩
        · rw [if_neg hdone]
          refine .inr ⟨_, rfl, .noFlag htodo hlife ?_⟩
          simp_all [SessionImpl.isComplete]

theorem advance_spec (m : LiveSession) :
    (∃ t, m.advance = .ok t ∧ Advances m t) ∨ ∃ e, m.advance = .error e ∧ Faults m e := by
  unfold advance
  split
  · rename_i htodo
    exact .inl ⟨_, rfl, .idle htodo⟩
  · rename_i rest htodo
    exact .inl ⟨_, rfl, .passes _ htodo nofun rfl⟩
  · rename_i rest htodo
    split
    · rename_i hpub
      exact .inr ⟨_, rfl, .nullPub htodo (.inl rfl) hpub⟩
    · rename_i pub hpub
      by_cases hdone : pub.done = true
      · rw [if_pos hdone]
        exact .inl ⟨_, rfl, .gives pub htodo hpub hdone⟩
      · rw [if_neg hdone]
        exact .inl ⟨_, rfl, .passes m.impl htodo nofun rfl⟩
  · rename_i rest htodo
    rcases onBegin_spec htodo with ⟨impl, hok, himpl⟩ | ⟨e, hfault, he⟩
    · rw [hok]
      exact .inl ⟨_, rfl, .passes impl htodo nofun himpl⟩
    · rw [hfault]
      exact .inr ⟨e, rfl, he⟩
  · rename_i rest htodo
    exact .inl ⟨_, rfl, .passes m.impl htodo nofun rfl⟩
  · rename_i rest htodo
    split
    · exact .inl ⟨_, rfl, .passes m.impl htodo nofun rfl⟩
    · rename_i hcomplete
      exact .inl ⟨_, rfl, .iterates htodo (by simpa using hcomplete)⟩
  · rename_i rest htodo
    refine .inl ⟨_, rfl, .passes m.thenWrapped htodo nofun fun hs => ?_⟩
    exact SessionImpl.isComplete_of_eq_or hs m.thenWrapped_eq
  · rename_i rest htodo
    exact .inl ⟨_, rfl, .passes m.finallyEnd htodo nofun m.isComplete_finallyEnd⟩
  · rename_i rest htodo
    exact .inl ⟨_, rfl,
      .passes m.startThenWrapped htodo nofun m.isComplete_startThenWrapped⟩
  · rename_i rest htodo
    exact .inl ⟨_, rfl, .passes m.impl htodo nofun rfl⟩
  · rename_i rest htodo
    rcases onTerminate_spec htodo with ⟨t, hok, ht⟩ | ⟨e, hfault, he⟩
    · rw [hok]
      exact .inl ⟨_, rfl, ht⟩
    · rw [hfault]
      exact .inr ⟨e, rfl, he⟩
  · rename_i rest htodo
    split
    · rename_i hpub
      exact .inr ⟨_, rfl, .nullPub htodo (.inr rfl) hpub⟩
    · exact .inl ⟨_, rfl, .passes m.impl htodo nofun rfl⟩

theorem advances_of_ok {m t : LiveSession} (h : m.advance = .ok t) : Advances m t := by
  rcases m.advance_spec with ⟨t', hok, ht⟩ | ⟨e, hfault, -⟩
  · cases hok.symm.trans h
    exact ht
  · cases hfault.symm.trans h

/-! ## What every run keeps -/

/-- What holds of a session whatever its publisher and the other shards do. -/
structure Started (m : LiveSession) : Prop where
  ordered : Ordered m.todo
  iterating : m.iterating = true → m.registered = true ∧ m.todo.head? = some .loop
  publisher : .testDone ∈ m.todo → m.pub.isSome = true
  unregistered : m.registered = false → .onTerminate ∈ m.todo ∧ m.impl.isComplete = false

theorem started_init (kind : SessionKind) (self : SessionRef) (others : List SessionRef) :
    Started (liveSession kind self others).init where
  ordered := ordered_startSteps kind
  iterating h := by cases h
  publisher := isSome_madeWith
  unregistered _ := ⟨onTerminate_mem_startSteps kind, rfl⟩

/-- Between two steps it is only what is left of the program that counts. -/
theorem Started.of_ordered {m : LiveSession} (hreg : m.registered = true)
    (hidle : m.iterating = false) (hordered : Ordered m.todo)
    (hpub : .testDone ∈ m.todo → m.pub.isSome = true) : Started m where
  ordered := hordered
  iterating hiter := by cases hidle.symm.trans hiter
  publisher := hpub
  unregistered hnot := by cases hreg.symm.trans hnot

/-- The first step of the program is done. -/
theorem Started.pass {m : LiveSession} (h : Started m) (hreg : m.registered = true)
    (impl : SessionImpl) (error : Option Exception) :
    Started { m with impl, error, todo := m.todo.tail, iterating := false } :=
  .of_ordered hreg rfl h.ordered.tail fun hmem => h.publisher (List.mem_of_mem_tail hmem)

theorem Started.advance {m t : LiveSession} (h : Started m) (hreg : m.registered = true)
    (hidle : m.iterating = false) (ht : Advances m t) : Started t := by
  cases ht with
  | idle htodo => exact h
  | passes impl htodo =>
      have hpass := h.pass hreg impl m.error
      rw [htodo] at hpass
      exact .of_ordered hreg hidle hpass.ordered hpass.publisher
  | gives pub htodo =>
      refine .of_ordered hreg hidle (ordered_afterDone m.kind) fun hmem => ?_
      exact absurd hmem (not_mem_afterDone m.kind).2
  | iterates htodo =>
      refine ⟨h.ordered, fun _ => ⟨hreg, ?_⟩, h.publisher, fun hnot => ?_⟩
      · exact congrArg List.head? htodo
      · cases hreg.symm.trans hnot
  | ends e htodo =>
      have hordered := htodo ▸ h.ordered
      refine .of_ordered hreg hidle hordered.tail fun hmem => ?_
      cases eq_throwNoContent_of_before hordered.head _ hmem
  | forgotten htodo =>
      have hordered := htodo ▸ h.ordered
      refine .of_ordered hreg hidle hordered.tail fun hmem => ?_
      cases eq_throwNoContent_of_before hordered.head _ hmem

theorem Started.step {m t : LiveSession} {a : LiveEvent} (h : Started m) (ha : m.Enabled a)
    (hrun : m.step a = .ok t) : Started t := by
  cases a with
  | advance => exact h.advance ha.1 ha.2 (advances_of_ok hrun)
  | register =>
      cases hrun
      exact ⟨h.ordered, fun hiter => ⟨rfl, (h.iterating hiter).2⟩, h.publisher, nofun⟩
  | eof =>
      cases hrun
      obtain ⟨-, hreg, hidle, -⟩ := ha
      have hpass := h.pass hreg m.impl m.error
      rwa [← hidle] at hpass
  | returned =>
      cases hrun
      exact ⟨h.ordered, nofun, h.publisher, h.unregistered⟩
  | endOfStream =>
      cases hrun
      refine ⟨h.ordered, nofun, h.publisher, fun hnot => ?_⟩
      cases (h.iterating ha.1).1.symm.trans hnot
  | timedOut what =>
      cases hrun
      exact h.pass (h.iterating ha).1 _ _
  | threw what =>
      cases hrun
      exact h.pass (h.iterating ha.1).1 m.impl _
  | directoryFails what =>
      cases hrun
      have hidle : m.iterating = false := by
        rw [Bool.eq_false_iff]
        intro hiter
        cases ha.2.symm.trans (h.iterating hiter).2
      refine .of_ordered ha.1 hidle ordered_afterDirectory fun hmem => ?_
      exact absurd hmem not_mem_afterDirectory.2
  | complete how =>
      cases hrun
      refine ⟨h.ordered, h.iterating, h.publisher, fun hnot => ?_⟩
      cases Eq.trans (Eq.symm ha) hnot
  | publisher p =>
      cases hrun
      refine ⟨h.ordered, h.iterating, fun hmem => ?_, h.unregistered⟩
      exact Option.isSome_map.trans (h.publisher hmem)
  | joins s =>
      cases hrun
      exact ⟨h.ordered, h.iterating, h.publisher, h.unregistered⟩
  | leaves s =>
      cases hrun
      exact ⟨h.ordered, h.iterating, h.publisher, h.unregistered⟩

theorem started {kind : SessionKind} {self : SessionRef} {others : List SessionRef}
    {m : LiveSession} (hm : (liveSession kind self others).Reachable m) : Started m :=
  hm.invariant (started_init kind self others) fun _ _ _ h ha hrun => h.step ha hrun

/-! ## A complete session -/

/-- No step but `on_begin` makes a complete session incomplete. -/
theorem CompletesTo.keeps {before after : Bool} {st : StartStep} (h : CompletesTo before after st)
    (hst : st ≠ .onBegin) (hbefore : before = true) : after = true := by
  cases st with
  | onBegin => exact absurd rfl hst
  | thenWrapped => exact h hbefore
  | finallyEnd | startThenWrapped => exact h
  | onLaunch | testDone | initDirectory | loop | onEnd | onTerminate | throwNoContent =>
      exact Eq.trans h hbefore

/-- Before `on_begin`, no step makes a session complete. -/
theorem CompletesTo.incomplete {before after : Bool} {st : StartStep}
    (h : CompletesTo before after st) {rest : List StartStep} (hst : st.Before rest)
    (hmem : .onBegin ∈ st :: rest) (hbefore : before = false) : after = false := by
  rcases hst.early hmem with rfl | rfl | rfl
  · exact Eq.trans h hbefore
  · exact Eq.trans h hbefore
  · exact h

/-- A session that is complete, has `on_begin` behind it and has begun `n` iterations. -/
structure Settled (n : Nat) (m : LiveSession) : Prop where
  complete : m.impl.isComplete = true
  begun : .onBegin ∉ m.todo
  iterations : m.iterations = n

theorem Settled.advance {n : Nat} {m t : LiveSession} (h : Settled n m) (ht : Advances m t) :
    Settled n t := by
  cases ht with
  | idle htodo => exact h
  | @passes st rest impl htodo hst himpl =>
      have hbegun : .onBegin ∉ st :: rest := htodo ▸ h.begun
      obtain ⟨hne, hrest⟩ := List.ne_and_not_mem_of_not_mem_cons hbegun
      exact ⟨himpl.keeps hne.symm h.complete, hrest, h.iterations⟩
  | gives pub htodo =>
      exact ⟨h.complete, (not_mem_afterDone m.kind).1, h.iterations⟩
  | iterates htodo hincomplete => cases h.complete.symm.trans hincomplete
  | @ends rest e htodo =>
      have hbegun : .onBegin ∉ _ :: rest := htodo ▸ h.begun
      exact ⟨h.complete, List.not_mem_of_not_mem_cons hbegun, h.iterations⟩
  | @forgotten rest htodo =>
      have hbegun : .onBegin ∉ _ :: rest := htodo ▸ h.begun
      exact ⟨h.complete, List.not_mem_of_not_mem_cons hbegun, h.iterations⟩

theorem onBegin_not_mem_tail {todo : List StartStep} (h : .onBegin ∉ todo) :
    .onBegin ∉ todo.tail := fun hmem => h (List.mem_of_mem_tail hmem)

theorem Settled.step {n : Nat} {m t : LiveSession} {a : LiveEvent} (h : Settled n m)
    (hrun : m.step a = .ok t) : Settled n t := by
  cases a with
  | advance => exact h.advance (advances_of_ok hrun)
  | register | returned | publisher | joins | leaves =>
      cases hrun
      exact ⟨h.complete, h.begun, h.iterations⟩
  | eof | threw =>
      cases hrun
      exact ⟨h.complete, onBegin_not_mem_tail h.begun, h.iterations⟩
  | endOfStream | complete =>
      cases hrun
      exact ⟨SessionImpl.isComplete_complete _ _, h.begun, h.iterations⟩
  | timedOut what =>
      cases hrun
      exact ⟨SessionImpl.isComplete_onTimeout _, onBegin_not_mem_tail h.begun, h.iterations⟩
  | directoryFails what =>
      cases hrun
      exact ⟨h.complete, not_mem_afterDirectory.1, h.iterations⟩

theorem Started.begun_of_loop {m : LiveSession} (h : Started m)
    (hhead : m.todo.head? = some .loop) : .onBegin ∉ m.todo := by
  obtain ⟨rest, htodo⟩ := List.head?_eq_some_iff.mp hhead
  intro hmem
  rcases (htodo ▸ h.ordered).head.early (htodo ▸ hmem) with hst | hst | hst <;> cases hst

/-- `end`, `cancel` and `fail` come after `on_begin` only. -/
def CompletesBegun (m : LiveSession) : LiveEvent → Prop
  | .complete _ => .onBegin ∉ m.todo
  | _ => True

instance (m : LiveSession) : ∀ a, Decidable (m.CompletesBegun a)
  | .complete _ => inferInstanceAs (Decidable (_ ∉ _))
  | .register | .advance | .eof | .returned | .endOfStream | .timedOut _ | .threw _
  | .directoryFails _ | .publisher _ | .joins _ | .leaves _ => inferInstanceAs (Decidable True)

/-- As long as they do, a session that is complete has `on_begin` behind it. -/
theorem incomplete_step {m t : LiveSession} {a : LiveEvent} (h : Started m)
    (hm : .onBegin ∈ m.todo → m.impl.isComplete = false) (ha : m.Enabled a)
    (hbegun : m.CompletesBegun a) (hrun : m.step a = .ok t) :
    .onBegin ∈ t.todo → t.impl.isComplete = false := by
  cases a with
  | advance =>
      intro hmem
      cases advances_of_ok hrun with
      | idle htodo => exact hm hmem
      | @passes st rest impl htodo hst himpl =>
          have hmem' : .onBegin ∈ st :: rest := List.mem_cons_of_mem st hmem
          exact himpl.incomplete (htodo ▸ h.ordered).head hmem' (hm (htodo ▸ hmem'))
      | gives pub htodo => exact absurd hmem (not_mem_afterDone m.kind).1
      | iterates htodo hincomplete => exact hincomplete
      | ends e htodo =>
          have hordered := htodo ▸ h.ordered
          cases eq_throwNoContent_of_before hordered.head _ hmem
      | forgotten htodo =>
          have hordered := htodo ▸ h.ordered
          cases eq_throwNoContent_of_before hordered.head _ hmem
  | register | returned | publisher | joins | leaves =>
      cases hrun
      exact hm
  | eof =>
      cases hrun
      exact fun hmem => absurd hmem (onBegin_not_mem_tail (h.begun_of_loop ha.2.2.2))
  | endOfStream =>
      cases hrun
      exact fun hmem => absurd hmem (h.begun_of_loop (h.iterating ha.1).2)
  | timedOut what =>
      cases hrun
      exact fun hmem => absurd hmem (onBegin_not_mem_tail (h.begun_of_loop (h.iterating ha).2))
  | threw what =>
      cases hrun
      exact fun hmem => absurd hmem (onBegin_not_mem_tail (h.begun_of_loop (h.iterating ha.1).2))
  | directoryFails what =>
      cases hrun
      exact fun hmem => absurd hmem not_mem_afterDirectory.1
  | complete how =>
      cases hrun
      exact fun hmem => absurd hmem hbegun

/-- With `on_begin` ahead and a publisher that has metadata and is not done, the next step of
    the program is done. -/
theorem Started.advance_early {m : LiveSession} (h : Started m)
    (hpub : ∀ pub, m.pub = some pub → pub.done = false ∧ pub.sessionMeta.isSome = true)
    {st : StartStep} {rest : List StartStep} (hn : m.todo = st :: rest)
    (hmem : .onBegin ∈ st :: rest) :
    ∃ impl, m.advance = .ok { m with impl, todo := rest }
      ∧ CompletesTo m.impl.isComplete impl.isComplete st := by
  have hearly := (hn ▸ h.ordered).head.early hmem
  rcases m.advance_spec with ⟨t, hok, ht⟩ | ⟨e, -, he⟩
  · cases ht with
    | idle htodo => cases htodo.symm.trans hn
    | passes impl htodo hst himpl =>
        cases htodo.symm.trans hn
        exact ⟨impl, hok, himpl⟩
    | gives pub htodo hsome hdone => cases (hpub pub hsome).1.symm.trans hdone
    | iterates htodo | ends e htodo | forgotten htodo =>
        cases htodo.symm.trans hn
        rcases hearly with hst | hst | hst <;> cases hst
  · cases he with
    | nullPub htodo hst hnone =>
        cases htodo.symm.trans hn
        rcases hst with rfl | rfl
        · have hsome := h.publisher (hn ▸ List.mem_cons_self)
          rw [hnone] at hsome
          cases hsome
        · rcases hearly with hst | hst | hst <;> cases hst
    | nullMeta pub htodo hkind hsome hnone =>
        have hmeta := (hpub pub hsome).2
        rw [hnone] at hmeta
        cases hmeta
    | noFlag htodo =>
        cases htodo.symm.trans hn
        rcases hearly with hst | hst | hst <;> cases hst

/-- From there a run leads through `on_begin`. -/
theorem steps_to_incomplete {kind : SessionKind} {self : SessionRef} {others : List SessionRef}
    {m : LiveSession} (h : Started m) (hreg : m.registered = true) (hidle : m.iterating = false)
    (hpub : ∀ pub, m.pub = some pub → pub.done = false ∧ pub.sessionMeta.isSome = true)
    (hmem : .onBegin ∈ m.todo) :
    ∃ t, (liveSession kind self others).Steps m t ∧ t.impl.isComplete = false := by
  induction hn : m.todo generalizing m with
  | nil => cases hn ▸ hmem
  | cons st rest ih =>
      obtain ⟨impl, hok, himpl⟩ := h.advance_early hpub hn (hn ▸ hmem)
      have hstep : (liveSession kind self others).Steps m { m with impl, todo := rest } :=
        .step (a := .advance) .refl ⟨hreg, hidle⟩ hok
      by_cases hbegin : st = .onBegin
      · subst hbegin
        exact ⟨_, hstep, himpl⟩
      · have hrest : .onBegin ∈ rest := List.mem_of_ne_of_mem (Ne.symm hbegin) (hn ▸ hmem)
        have hstarted := h.advance hreg hidle (advances_of_ok hok)
        obtain ⟨t, ht, hincomplete⟩ := ih hstarted hreg hidle hpub hrest rfl
        exact ⟨t, hstep.trans ht, hincomplete⟩

/-- The publisher of a session can always begin and be given metadata. -/
theorem steps_to_begun (kind : SessionKind) (self : SessionRef) (others : List SessionRef)
    (m : LiveSession) : ∃ pub, (liveSession kind self others).Steps m { m with pub }
      ∧ ∀ p, pub = some p → p.done = false ∧ p.sessionMeta.isSome = true := by
  refine ⟨(m.pub.map fun s => s.publisherStep .begin).map
    fun s => s.publisherStep (.onMeta {}), ?_, ?_⟩
  · have hbegin : (liveSession kind self others).Steps m
        { m with pub := m.pub.map fun s => s.publisherStep .begin } :=
      .step (a := .publisher .begin) .refl trivial rfl
    exact hbegin.step (a := .publisher (.onMeta {})) trivial rfl
  · intro p hp
    rw [Option.map_map, Option.map_eq_some_iff] at hp
    obtain ⟨q, -, rfl⟩ := hp
    exact ⟨rfl, rfl⟩

end LiveSession

/-- Over the runs of a session of any kind. Where `end`, `cancel` and `fail` reach it after its
    `on_begin` only, once it is complete it stays complete and begins no iteration. A session
    that is complete with `on_begin` ahead of it has a run on which it is not. -/
theorem session_stays_complete (kind : SessionKind) (self : SessionRef)
    (others : List SessionRef) :
    (∀ m, ((liveSession kind self others).restrict LiveSession.CompletesBegun).Reachable m →
      m.impl.isComplete = true → ∀ t, (liveSession kind self others).Steps m t →
        t.impl.isComplete = true ∧ t.iterations = m.iterations)
      ∧ ∀ m, (liveSession kind self others).Reachable m → m.impl.isComplete = true →
        ((∀ t, (liveSession kind self others).Steps m t →
            t.impl.isComplete = true ∧ t.iterations = m.iterations)
          ↔ .onBegin ∉ m.todo) := by
  have hstays : ∀ m, m.impl.isComplete = true → .onBegin ∉ m.todo → ∀ t,
      (liveSession kind self others).Steps m t →
        t.impl.isComplete = true ∧ t.iterations = m.iterations := by
    intro m hcomplete hbegun t ht
    have hsettled : LiveSession.Settled m.iterations t :=
      ht.invariant ⟨hcomplete, hbegun, rfl⟩ fun _ _ _ h _ hrun => h.step hrun
    exact ⟨hsettled.complete, hsettled.iterations⟩
  constructor
  · intro m hm hcomplete
    have hbegun : .onBegin ∈ m.todo → m.impl.isComplete = false :=
      hm.invariant_reachable (P := fun m => .onBegin ∈ m.todo → m.impl.isComplete = false)
        (fun _ => rfl) fun s a t hs h ha hrun =>
          LiveSession.incomplete_step (LiveSession.started hs.of_restrict) h ha.1 ha.2 hrun
    refine hstays m hcomplete fun hmem => ?_
    cases hcomplete.symm.trans (hbegun hmem)
  · intro m hm hcomplete
    refine ⟨?_, hstays m hcomplete⟩
    intro hall hmem
    have hstarted := LiveSession.started hm
    have hreg : m.registered = true := by
      by_contra hnot
      cases hcomplete.symm.trans (hstarted.unregistered (by simpa using hnot)).2
    have hidle : m.iterating = false := by
      rw [Bool.eq_false_iff]
      exact fun hiter => hstarted.begun_of_loop (hstarted.iterating hiter).2 hmem
    obtain ⟨pub, hsteps, hpub⟩ := LiveSession.steps_to_begun kind self others m
    obtain ⟨t, ht, hincomplete⟩ := LiveSession.steps_to_incomplete
      (LiveSession.started (hm.steps hsteps)) hreg hidle hpub hmem
    cases hincomplete.symm.trans (hall t (hsteps.trans ht)).1

/-- A player that is canceled before it is started, as its publisher goes away. -/
def canceledPlayer : SessionRef := ⟨0, ⟨"live".toList, "a".toList⟩, .user, .flv, .rtmp⟩

/-- An HLS player is canceled in its loop; nothing undoes that. -/
theorem session_stays_complete_canceled :
    ∃ m, (liveSession (.player .hls) canceledPlayer []).Reachable m ∧ m.impl.isComplete = true ∧
      ∀ t, (liveSession (.player .hls) canceledPlayer []).Steps m t →
        t.impl.isComplete = true ∧ t.iterations = m.iterations := by
  obtain ⟨m, hm, hcomplete⟩ := Machine.reachable_of_runs
    (M := (liveSession (.player .hls) canceledPlayer []).restrict LiveSession.CompletesBegun)
    (p := fun m => m.impl.isComplete)
    [.register, .advance, .advance, .advance, .complete .canceled] (by decide +kernel)
  exact ⟨m, hm.of_restrict, hcomplete, (session_stays_complete _ _ _).1 m hm hcomplete⟩

/-- An HLS player is canceled between `add_player` and its start, and plays all the same. -/
theorem session_cancel_lost :
    ¬ ∀ kind self others m, (liveSession kind self others).Reachable m →
      m.impl.isComplete = true → ∀ t, (liveSession kind self others).Steps m t →
        t.impl.isComplete = true ∧ t.iterations = m.iterations := by
  intro hall
  have hlost : ∃ m, (liveSession (.player .hls) canceledPlayer []).Reachable m ∧
      (m.impl.isComplete
        && ((liveSession (.player .hls) canceledPlayer []).runs m [.advance, .advance]).any
          fun t => !t.impl.isComplete) = true :=
    Machine.reachable_of_runs [.register, .complete .canceled] (by decide +kernel)
  obtain ⟨m, hm, hlost⟩ := hlost
  obtain ⟨hcomplete, hlater⟩ := (Bool.and_eq_true _ _).mp hlost
  obtain ⟨t, ht, hincomplete⟩ := (Option.any_eq_true _ _).mp hlater
  have hkept := (hall _ _ _ m hm hcomplete t (.of_runs .refl ht)).1
  rw [hkept] at hincomplete
  cases hincomplete

/-! ## The end of a session -/

namespace LiveSession

/-- A player asks for its publisher only while that is not done, unless the player is
    complete already, and copies the metadata of a publisher that has some. -/
def FindsPublisher (m : LiveSession) (a : LiveEvent) : Prop :=
  a = .advance →
    (m.todo.head? = some .testDone →
      (m.pub.all fun pub => !pub.done || m.impl.isComplete) = true)
    ∧ (m.todo.head? = some .onBegin →
      copiesMeta m.kind = true → (m.pub.all fun pub => pub.sessionMeta.isSome) = true)

instance (m : LiveSession) (a : LiveEvent) : Decidable (m.FindsPublisher a) :=
  inferInstanceAs (Decidable (_ → _))

/-- The lifecycle of a session is told once, by its `on_terminate`. -/
structure Live (m : LiveSession) : Prop where
  started : Started m
  flagged : .finallyEnd ∈ m.todo ∨ .startThenWrapped ∈ m.todo ∨ m.impl.isComplete = true
  pending : .onTerminate ∈ m.todo → m.ends = [] ∧ (m.registered = true → m.lifecycle = true)
  listed : m.registered = true →
    SessionList.isExistSession (SessionList.remove m.sessions m.self) m.self = false
  ended : .onTerminate ∉ m.todo → m.ends.length = 1
    ∧ SessionList.isExistSession m.sessions m.self = false

theorem live_init (kind : SessionKind) (self : SessionRef) (others : List SessionRef) :
    Live (liveSession kind self others).init where
  started := started_init kind self others
  flagged := .inl (finallyEnd_mem_startSteps kind)
  pending _ := ⟨rfl, nofun⟩
  listed := nofun
  ended hnot := absurd (onTerminate_mem_startSteps kind) hnot

/-- What completes a session is ahead of it or done. -/
theorem CompletesTo.flagged {before after : Bool} {st : StartStep} {rest : List StartStep}
    (h : CompletesTo before after st) (hbefore : st.Before rest) (hst : st ≠ .onTerminate)
    (hflag : .finallyEnd ∈ st :: rest ∨ .startThenWrapped ∈ st :: rest ∨ before = true) :
    .finallyEnd ∈ rest ∨ .startThenWrapped ∈ rest ∨ after = true := by
  cases st with
  | onLaunch | testDone => exact .inl hbefore.1
  | onBegin | initDirectory | loop | thenWrapped => exact .inl hbefore.2.1
  | finallyEnd | startThenWrapped => exact .inr (.inr h)
  | onEnd | throwNoContent =>
      rcases hflag with hmem | hmem | hcomplete
      · exact .inl (List.mem_of_ne_of_mem (by decide) hmem)
      · exact .inr (.inl (List.mem_of_ne_of_mem (by decide) hmem))
      · exact .inr (.inr (Eq.trans h hcomplete))
  | onTerminate => exact absurd rfl hst

/-- At `on_terminate` a session is complete. -/
theorem Live.complete_of_onTerminate {m : LiveSession} (h : Live m) {rest : List StartStep}
    (htodo : m.todo = .onTerminate :: rest) : m.impl.isComplete = true := by
  have hrest := eq_throwNoContent_of_before (htodo ▸ h.started.ordered).head
  have hflag := htodo ▸ h.flagged
  rcases hflag with hmem | hmem | hcomplete
  · cases hrest _ (List.mem_of_ne_of_mem (by decide) hmem)
  · cases hrest _ (List.mem_of_ne_of_mem (by decide) hmem)
  · exact hcomplete

theorem Live.advance {m t : LiveSession} (h : Live m) (hstarted : Started t)
    (hreg : m.registered = true) (hfinds : m.FindsPublisher .advance) (ht : Advances m t) :
    Live t := by
  cases ht with
  | idle htodo => exact h
  | @passes st rest impl htodo hst himpl =>
      have hordered := htodo ▸ h.started.ordered
      refine ⟨hstarted, ?_, fun hmem => ?_, h.listed, fun hnot => ?_⟩
      · exact himpl.flagged hordered.head hst (htodo ▸ h.flagged)
      · exact h.pending (htodo ▸ List.mem_cons_of_mem st hmem)
      · refine h.ended fun hmem => hnot ?_
        exact List.mem_of_ne_of_mem hst.symm (htodo ▸ hmem)
  | gives pub htodo hsome hdone =>
      have hordered := htodo ▸ h.started.ordered
      have hcomplete := (hfinds rfl).1 (congrArg List.head? htodo)
      rw [hsome, Option.all_some, hdone, Bool.not_true, Bool.false_or] at hcomplete
      refine ⟨hstarted, .inr (.inr hcomplete), fun _ => ?_, h.listed, fun hnot => ?_⟩
      · exact h.pending (htodo ▸ List.mem_cons_of_mem _ hordered.head.2)
      · exact absurd (onTerminate_mem_afterDone m.kind) hnot
  | iterates htodo => exact ⟨hstarted, h.flagged, h.pending, h.listed, h.ended⟩
  | @ends rest e htodo hcomplete =>
      have hrest := eq_throwNoContent_of_before (htodo ▸ h.started.ordered).head
      obtain ⟨hends, -⟩ := h.pending (htodo ▸ List.mem_cons_self)
      have hgone := h.listed hreg
      refine ⟨hstarted, .inr (.inr hcomplete), fun hmem => ?_, fun _ => ?_, fun _ => ⟨?_, hgone⟩⟩
      · cases hrest _ hmem
      · exact SessionList.isExistSession_remove hgone m.self
      · exact congrArg (fun ends => (ends ++ [e]).length) hends
  | forgotten htodo hlife =>
      have hpending := h.pending (htodo ▸ List.mem_cons_self)
      cases hlife.symm.trans (hpending.2 hreg)

/-- The loop is left; what ends the session is still ahead. -/
theorem Live.pass {m : LiveSession} (h : Live m) (hreg : m.registered = true)
    (hhead : m.todo.head? = some .loop) (impl : SessionImpl) (error : Option Exception) :
    Live { m with impl, error, todo := m.todo.tail, iterating := false } := by
  obtain ⟨rest, htodo⟩ := List.head?_eq_some_iff.mp hhead
  have htail : m.todo.tail = rest := by rw [htodo, List.tail_cons]
  obtain ⟨-, hfinally, hterminate⟩ := (htodo ▸ h.started.ordered).head
  refine ⟨h.started.pass hreg impl error, .inl ?_, fun hmem => ?_, h.listed, fun hnot => ?_⟩
  · exact htail.symm ▸ hfinally
  · exact h.pending (List.mem_of_mem_tail hmem)
  · exact absurd (htail.symm ▸ hterminate) hnot

theorem Live.step {m t : LiveSession} {a : LiveEvent} (h : Live m) (ha : m.Enabled a)
    (hfinds : m.FindsPublisher a) (hrun : m.step a = .ok t) : Live t := by
  have hstarted := h.started.step ha hrun
  cases a with
  | advance => exact h.advance hstarted ha.1 hfinds (advances_of_ok hrun)
  | register =>
      cases hrun
      obtain ⟨hnew, habsent⟩ := ha
      have hmem := (h.started.unregistered hnew).1
      refine ⟨hstarted, h.flagged, fun _ => ?_, fun _ => ?_, fun hnot => absurd hmem hnot⟩
      · exact ⟨(h.pending hmem).1, fun _ => rfl⟩
      · change SessionList.isExistSession (SessionList.remove (SessionList.pushBack _ _) _) _ = _
        rwa [SessionList.remove_pushBack_self habsent]
  | eof =>
      cases hrun
      obtain ⟨-, hreg, hidle, hhead⟩ := ha
      have hpass := h.pass hreg hhead m.impl m.error
      rwa [← hidle] at hpass
  | returned =>
      cases hrun
      exact ⟨hstarted, h.flagged, h.pending, h.listed, h.ended⟩
  | endOfStream | complete =>
      cases hrun
      refine ⟨hstarted, .inr (.inr ?_), h.pending, h.listed, h.ended⟩
      exact SessionImpl.isComplete_complete _ _
  | timedOut what =>
      cases hrun
      obtain ⟨hreg, hhead⟩ := h.started.iterating ha
      exact h.pass hreg hhead _ _
  | threw what =>
      cases hrun
      obtain ⟨hreg, hhead⟩ := h.started.iterating ha.1
      exact h.pass hreg hhead m.impl _
  | directoryFails what =>
      cases hrun
      obtain ⟨rest, htodo⟩ := List.head?_eq_some_iff.mp ha.2
      have hmem : .onTerminate ∈ m.todo :=
        htodo ▸ List.mem_cons_of_mem _ (htodo ▸ h.started.ordered).head.2.2
      refine ⟨hstarted, .inr (.inl ?_), fun _ => h.pending hmem, h.listed, fun hnot => ?_⟩
      · exact List.mem_cons_self
      · exact absurd (List.mem_of_getLast? rfl) hnot
  | publisher p =>
      cases hrun
      exact ⟨hstarted, h.flagged, h.pending, h.listed, h.ended⟩
  | joins s =>
      cases hrun
      refine ⟨hstarted, h.flagged, h.pending, fun hreg => ?_, fun hnot => ?_⟩
      · change SessionList.isExistSession (SessionList.remove (SessionList.pushBack _ s) _) _ = _
        rw [SessionList.remove_pushBack ha]
        exact SessionList.isExistSession_pushBack (h.listed hreg) ha
      · obtain ⟨hends, hgone⟩ := h.ended hnot
        exact ⟨hends, SessionList.isExistSession_pushBack hgone ha⟩
  | leaves s =>
      cases hrun
      refine ⟨hstarted, h.flagged, h.pending, fun hreg => ?_, fun hnot => ?_⟩
      · change SessionList.isExistSession (SessionList.remove (SessionList.remove _ s) _) _ = _
        rw [SessionList.remove_comm ha]
        exact SessionList.isExistSession_remove (h.listed hreg) s
      · obtain ⟨hends, hgone⟩ := h.ended hnot
        exact ⟨hends, SessionList.isExistSession_remove hgone s⟩

theorem live {kind : SessionKind} {self : SessionRef} {others : List SessionRef} {m : LiveSession}
    (hm : ((liveSession kind self others).restrict FindsPublisher).Reachable m) : Live m :=
  hm.invariant (M := (liveSession kind self others).restrict FindsPublisher)
    (live_init kind self others) fun _ _ _ h ha hrun => h.step ha.1 ha.2 hrun

/-- Where the publisher is found as it should be, only the message of the HTTP-FLV player is
    made from a publisher that is gone, and only behind `on_terminate`. -/
theorem Live.fault {m : LiveSession} {e : StartFault} (h : Live m)
    (hfinds : m.FindsPublisher .advance) (he : Faults m e) :
    e = .nullPub ∧ .onTerminate ∉ m.todo := by
  cases he with
  | @nullPub st rest htodo hst hnone =>
      rcases hst with rfl | rfl
      · have hsome := h.started.publisher (htodo ▸ List.mem_cons_self)
        rw [hnone] at hsome
        cases hsome
      · have hrest : rest = [] := (htodo ▸ h.started.ordered).head
        rw [htodo, hrest]
        exact ⟨rfl, by decide⟩
  | nullMeta pub htodo hkind hsome hnone =>
      have hall := (hfinds rfl).2 (congrArg List.head? htodo) hkind
      rw [hsome, Option.all_some, hnone] at hall
      cases hall
  | noFlag htodo hlife hincomplete => cases (h.complete_of_onTerminate htodo).symm.trans hincomplete

theorem faults_of_step {m : LiveSession} {a : LiveEvent} {e : StartFault}
    (hrun : m.step a = .error e) : a = .advance ∧ Faults m e := by
  cases a with
  | advance =>
      rcases m.advance_spec with ⟨t, hok, -⟩ | ⟨e', hfault, he⟩
      · cases hok.symm.trans hrun
      · cases hfault.symm.trans hrun
        exact ⟨rfl, he⟩
  | register | eof | returned | endOfStream | timedOut | threw | directoryFails | complete
  | publisher | joins | leaves => cases hrun

theorem advance_noFlag {m : LiveSession} {rest : List StartStep}
    (htodo : m.todo = .onTerminate :: rest) (hlife : m.lifecycle = true)
    (hincomplete : m.impl.isComplete = false) : m.advance = .error .noFlag := by
  have hflags : m.onTerminate = .error .noFlag := by
    simp_all [onTerminate, SessionImpl.isComplete]
  simp only [advance, htodo, hflags]
  rfl

theorem advance_afterDone {m : LiveSession} {rest : List StartStep} {pub : SessionImpl}
    (htodo : m.todo = .testDone :: rest) (hpub : m.pub = some pub) (hdone : pub.done = true) :
    m.advance = .ok { m with todo := afterDone m.kind } := by
  simp only [advance, htodo]
  split
  · rename_i hnone
    cases hpub.symm.trans hnone
  · rename_i pub' hsome
    cases hpub.symm.trans hsome
    rw [if_pos hdone]

theorem advance_nullMeta {m : LiveSession} {rest : List StartStep} {pub : SessionImpl}
    (htodo : m.todo = .onBegin :: rest) (hkind : copiesMeta m.kind = true)
    (hpub : m.pub = some pub) (hmeta : pub.sessionMeta = none) :
    m.advance = .error .nullMeta := by
  have hbegin : m.onBegin = .error .nullMeta := by
    unfold onBegin
    split
    · rename_i hk
      rw [hk] at hkind
      cases hkind
    · rename_i hk
      rw [hk] at hkind
      cases hkind
    · rw [hpub]
      dsimp only
      rw [hmeta]
  simp only [advance, htodo, hbegin]
  rfl

theorem afterDone_eq_cons (kind : SessionKind) : ∃ rest, afterDone kind = .onTerminate :: rest := by
  rcases kind with _ | _ | _ | _ <;> exact ⟨_, rfl⟩

/-- Where the publisher is not found as it should be, the session faults before its lifecycle
    is told, unless something else completes it before its next step. -/
theorem Live.aborts {m : LiveSession} (h : Live m) (ha : m.Enabled .advance)
    (hfinds : ¬ m.FindsPublisher .advance) :
    m.step .advance = .error .nullMeta
      ∨ ∃ t, m.step .advance = .ok t ∧ t.Enabled .advance
        ∧ t.step .advance = .error .noFlag := by
  simp only [FindsPublisher, forall_const, not_and_or, Classical.not_imp] at hfinds
  rcases hfinds with ⟨hhead, hdone⟩ | ⟨hhead, hkind, hmeta⟩
  · obtain ⟨rest, htodo⟩ := List.head?_eq_some_iff.mp hhead
    have hordered := htodo ▸ h.started.ordered
    obtain ⟨pub, hpub⟩ := Option.isSome_iff_exists.mp
      (h.started.publisher (htodo ▸ List.mem_cons_self))
    have hends := h.pending (htodo ▸ List.mem_cons_of_mem _ hordered.head.2)
    rw [hpub, Option.all_some, Bool.or_eq_true, not_or, Bool.not_eq_true', Bool.not_eq_false,
      Bool.not_eq_true] at hdone
    obtain ⟨rest', hafter⟩ := afterDone_eq_cons m.kind
    refine .inr ⟨_, advance_afterDone htodo hpub hdone.1, ha, ?_⟩
    exact advance_noFlag hafter (hends.2 ha.1) hdone.2
  · obtain ⟨rest, htodo⟩ := List.head?_eq_some_iff.mp hhead
    cases hpub : m.pub with
    | none => exact absurd (by rw [hpub, Option.all_none]) hmeta
    | some pub =>
        rw [hpub, Option.all_some, Bool.not_eq_true, Option.isSome_eq_false_iff,
          Option.isNone_iff_eq_none] at hmeta
        exact .inl (advance_nullMeta htodo hkind hpub hmeta)

end LiveSession

/-- Over the runs of a session of any kind on which every player finds its publisher as it
    should: no assertion of `on_terminate` fails, the lifecycle is told nothing before
    `on_terminate` and one end by it, and from then on the session is not in the list. On
    any other run the step that finds it otherwise leads to a fault. -/
theorem session_ends_once {kind : SessionKind} {self : SessionRef} {others : List SessionRef}
    {m : LiveSession}
    (hm : ((liveSession kind self others).restrict LiveSession.FindsPublisher).Reachable m) :
    (∀ a e, m.Enabled a → m.FindsPublisher a → m.step a = .error e →
        e = .nullPub ∧ .onTerminate ∉ m.todo)
      ∧ (.onTerminate ∈ m.todo → m.ends = [])
      ∧ (.onTerminate ∉ m.todo → m.ends.length = 1
        ∧ SessionList.isExistSession m.sessions m.self = false)
      ∧ (m.Enabled .advance → ¬ m.FindsPublisher .advance →
        m.step .advance = .error .nullMeta
          ∨ ∃ t, m.step .advance = .ok t ∧ t.Enabled .advance
            ∧ t.step .advance = .error .noFlag) := by
  have hlive := LiveSession.live hm
  refine ⟨?_, fun hmem => (hlive.pending hmem).1, hlive.ended, hlive.aborts⟩
  intro a e ha hfinds hrun
  obtain ⟨rfl, he⟩ := LiveSession.faults_of_step hrun
  exact hlive.fault hfinds he

/-- An RTMP player whose publisher ends while it plays is taken off the list. -/
theorem session_ends_once_played :
    ∃ m, ((liveSession (.player .rtmp) canceledPlayer []).restrict
        LiveSession.FindsPublisher).Reachable m
      ∧ .onTerminate ∉ m.todo ∧ m.ends.length = 1
      ∧ SessionList.isExistSession m.sessions m.self = false := by
  obtain ⟨m, hm, hend⟩ := Machine.reachable_of_runs
    (M := (liveSession (.player .rtmp) canceledPlayer []).restrict LiveSession.FindsPublisher)
    (p := fun m => decide (.onTerminate ∉ m.todo))
    [.register, .publisher .begin, .publisher (.onMeta {}), .advance, .advance, .advance,
      .advance, .publisher (.call (.complete .done)), .endOfStream, .advance, .advance, .advance,
      .advance, .advance] (by decide +kernel)
  have hnot := of_decide_eq_true hend
  exact ⟨m, hm, hnot, (session_ends_once hm).2.2.1 hnot⟩

/-- An RTMP player is started after its publisher is done: `on_terminate` finds no flag. -/
theorem session_end_aborts :
    ¬ ∀ kind self others m, (liveSession kind self others).Reachable m →
      ∀ a, m.Enabled a → m.step a ≠ .error .noFlag := by
  intro hall
  obtain ⟨m, hm, hfault⟩ := Machine.reachable_of_runs
    (M := liveSession (.player .rtmp) canceledPlayer [])
    (p := fun m => decide (m.Enabled .advance) && match m.step .advance with
      | .error .noFlag => true
      | _ => false)
    [.register, .publisher (.call (.complete .done)), .advance, .advance] (by decide +kernel)
  obtain ⟨ha, hfault⟩ := (Bool.and_eq_true _ _).mp hfault
  refine hall _ _ _ m hm .advance (of_decide_eq_true ha) ?_
  split at hfault
  · assumption
  · cases hfault

end SeastarLive
