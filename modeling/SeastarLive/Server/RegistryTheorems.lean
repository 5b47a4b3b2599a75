/-
SeastarLive.Server.RegistryTheorems — when publishers are unique.

A session is made by one request and pushed by it once, so no session is in
the list twice, whatever the requests do. Two requests for one application
and stream can both have found it absent before either of them pushes.

* `registry_unique`: along the runs that meet `StillAbsent` the publishers
  are unique, and a push that does not meet it makes them not unique.
* `registry_duplicate`: a run with two publishers of one stream.
* `registry_exclusive_unique`: one request at a time between the check and
  the push is enough.
-/
import SeastarLive.Server.Registry

namespace SeastarLive

/-- The request does not push a session whose application and stream are in the list. -/
def pushesAbsent (sessions : List SessionRef) : Progress → Bool
  | .sessionAbsent pub => !SessionList.isExist sessions pub.key
  | _ => true

/-- A request that pushes its session finds its application and stream still absent. -/
def StillAbsent (w : Registry) : RegistryEvent → Prop
  | .advance i => pushesAbsent w.publishers (w.requests i) = true
  | .removePublishers _ => True

instance (w : Registry) : ∀ a, Decidable (StillAbsent w a)
  | .advance _ => inferInstanceAs (Decidable (_ = _))
  | .removePublishers _ => inferInstanceAs (Decidable True)

theorem stillAbsent_push_iff {w : Registry} {i : Nat} {pub : SessionRef}
    (hi : w.requests i = .sessionAbsent pub) :
    StillAbsent w (.advance i) ↔ SessionList.isExist w.publishers pub.key = false := by
  change pushesAbsent w.publishers (w.requests i) = true ↔ _
  rw [hi, pushesAbsent, Bool.not_eq_true']

theorem exists_push_of_not_stillAbsent {w : Registry} {a : RegistryEvent}
    (ha : ¬ StillAbsent w a) : ∃ i pub, a = .advance i ∧ w.requests i = .sessionAbsent pub := by
  cases a with
  | advance i =>
      change ¬ pushesAbsent w.publishers (w.requests i) = true at ha
      cases hi : w.requests i with
      | sessionAbsent pub => exact ⟨i, pub, rfl, hi⟩
      | arrived | absent | made | keyAbsent | added | refused | removed | replied =>
          rw [hi] at ha
          exact absurd rfl ha
  | removePublishers key => exact absurd trivial ha

/-! ## What a step of a request does -/

/-- Both names are given. -/
def StreamKey.Named (key : StreamKey) : Prop := key.app ≠ [] ∧ key.stream ≠ []

/-- The session that a request has made and not pushed. -/
def Progress.held : Progress → Option SessionRef
  | .made pub => some pub
  | .keyAbsent pub => some pub
  | .sessionAbsent pub => some pub
  | _ => none

/-- The session that a request is about to push, `add_publisher` having found its
    application and stream absent. -/
def Progress.checked : Progress → Option SessionRef
  | .keyAbsent pub => some pub
  | .sessionAbsent pub => some pub
  | _ => none

/-- `add_publisher` makes its check while no other request for the same application and
    stream is between check and push. -/
def CheckedAlone (w : Registry) : RegistryEvent → Prop
  | .advance i =>
      ∀ pub, w.requests i = .made pub →
        ∀ j q, (w.requests j).checked = some q → q.key ≠ pub.key
  | .removePublishers _ => True

namespace Registry

/-- A step of request `i` moves it on, makes its session, pushes it or removes it. -/
inductive Advances (w : Registry) (key : StreamKey) (i : Nat) : Registry → Prop
  | moves (p : Progress) : (p = .absent → key.Named) →
      (∀ pub, p.held = some pub → (w.requests i).held = some pub) →
      (∀ pub, p = .keyAbsent pub →
        w.requests i = .made pub ∧ SessionList.isExist w.publishers pub.key = false) →
      (∀ pub, p = .sessionAbsent pub → w.requests i = .keyAbsent pub) →
      Advances w key i (w.goTo i p)
  | makes : w.requests i = .absent → Advances w key i
      { w.goTo i (.made (w.makePublisher key)) with made := w.made + 1 }
  | pushes (pub : SessionRef) : w.requests i = .sessionAbsent pub → Advances w key i
      { w.goTo i (.added pub) with publishers := SessionList.pushBack w.publishers pub }
  | removes (pub : SessionRef) : w.requests i = .added pub → Advances w key i
      { w.goTo i (.removed pub) with publishers := SessionList.remove w.publishers pub }

theorem advances_replied (w : Registry) (key : StreamKey) (i : Nat) (status : ReplyStatus) :
    Advances w key i (w.goTo i (.replied status)) :=
  .moves _ nofun nofun nofun nofun

theorem advances_refused (w : Registry) (key : StreamKey) (i : Nat) (pub : SessionRef) :
    Advances w key i (w.goTo i (.refused pub)) :=
  .moves _ nofun nofun nofun nofun

theorem advance_spec {w : Registry} {key : StreamKey} {i : Nat}
    (h : pending (w.requests i) = true) : Advances w key i (w.advance key i) := by
  unfold advance
  cases hi : w.requests i with
  | arrived =>
      dsimp only
      split
      · exact advances_replied w key i _
      · rename_i hnamed
        split
        · exact advances_replied w key i _
        · exact .moves _ (fun _ => not_or.mp hnamed) nofun nofun nofun
  | absent =>
      dsimp only
      split
      · exact advances_replied w key i _
      · exact .makes hi
  | made pub =>
      dsimp only
      split
      · exact advances_refused w key i pub
      · rename_i habsent
        refine .moves _ nofun ?_ ?_ nofun
        · intro q hq
          rw [hi]
          exact hq
        · intro q hq
          cases hq
          exact ⟨hi, Bool.eq_false_iff.mpr habsent⟩
  | keyAbsent pub =>
      dsimp only
      split
      · exact advances_refused w key i pub
      · refine .moves _ nofun ?_ nofun ?_
        · intro q hq
          rw [hi]
          exact hq
        · intro q hq
          cases hq
          exact hi
  | sessionAbsent pub => exact .pushes pub hi
  | added pub => exact .removes pub hi
  | refused pub =>
      rw [hi] at h
      cases h
  | removed pub =>
      rw [hi] at h
      cases h
  | replied status =>
      rw [hi] at h
      cases h

theorem advances_of_step {targets : Nat → StreamKey} {w t : Registry} {i : Nat}
    (ha : w.Enabled (.advance i)) (hrun : w.step targets (.advance i) = .ok t) :
    Advances w (targets i) i t := by
  cases hrun
  exact advance_spec ha

@[simp] theorem goTo_requests_self (w : Registry) (i : Nat) (p : Progress) :
    (w.goTo i p).requests i = p := Function.update_self ..

@[simp] theorem goTo_requests_of_ne (w : Registry) {i j : Nat} (p : Progress) (h : j ≠ i) :
    (w.goTo i p).requests j = w.requests j := Function.update_of_ne h ..

theorem held_of_push {w : Registry} {i : Nat} {pub : SessionRef}
    (hi : w.requests i = .sessionAbsent pub) : (w.requests i).held = some pub := by
  rw [hi]
  rfl

theorem checked_of_push {w : Registry} {i : Nat} {pub : SessionRef}
    (hi : w.requests i = .sessionAbsent pub) : (w.requests i).checked = some pub := by
  rw [hi]
  rfl

/-- After request `i` has gone on to `p`, what is found with a request is found with `p`,
    or was there before. -/
theorem goTo_cases {α : Type} {sel : Progress → Option α} {w : Registry} {i j : Nat}
    {p : Progress} {x : α} (h : sel ((w.goTo i p).requests j) = some x) :
    j = i ∧ sel p = some x ∨ j ≠ i ∧ sel (w.requests j) = some x := by
  by_cases hji : j = i
  · subst hji
    rw [goTo_requests_self] at h
    exact .inl ⟨rfl, h⟩
  · rw [goTo_requests_of_ne w p hji] at h
    exact .inr ⟨hji, h⟩

/-! ## Sessions apart -/

/-- The sessions that `sel` finds with the requests differ in `f` from the publishers and
    from each other. -/
structure Apart {β : Type} (sel : Progress → Option SessionRef) (f : SessionRef → β)
    (w : Registry) : Prop where
  listed : ∀ i pub, sel (w.requests i) = some pub → f pub ∉ w.publishers.map f
  single : ∀ i j p q, sel (w.requests i) = some p → sel (w.requests j) = some q →
    f p = f q → i = j

section Apart

variable {β : Type} {sel : Progress → Option SessionRef} {f : SessionRef → β} {w t : Registry}

theorem Apart.of_none (h : ∀ i, sel (w.requests i) = none) : w.Apart sel f where
  listed i pub hi := by
    rw [h i] at hi
    cases hi
  single i j p q hi := by
    rw [h i] at hi
    cases hi

/-- Nothing is lost when sessions are dropped. -/
theorem Apart.drop (hw : w.Apart sel f) (hsub : t.publishers.Sublist w.publishers)
    (hsel : ∀ i pub, sel (t.requests i) = some pub → sel (w.requests i) = some pub) :
    t.Apart sel f where
  listed i pub hi hmem := hw.listed i pub (hsel i pub hi) ((hsub.map _).subset hmem)
  single i j p q hi hj := hw.single i j p q (hsel i p hi) (hsel j q hj)

/-- A request may take up a session that differs from all the others. -/
theorem Apart.goTo (hw : w.Apart sel f) {i : Nat} {p : Progress}
    (hnew : ∀ pub, sel p = some pub → sel (w.requests i) = some pub
      ∨ f pub ∉ w.publishers.map f
          ∧ ∀ j q, sel (w.requests j) = some q → f q ≠ f pub) :
    (w.goTo i p).Apart sel f := by
  have hcases : ∀ j pub, sel ((w.goTo i p).requests j) = some pub →
      sel (w.requests j) = some pub
        ∨ j = i ∧ f pub ∉ w.publishers.map f
            ∧ ∀ k q, sel (w.requests k) = some q → f q ≠ f pub := by
    intro j pub hj
    rcases goTo_cases hj with ⟨rfl, hp⟩ | ⟨_, hold⟩
    · rcases hnew pub hp with hold | ⟨hlisted, hothers⟩
      · exact .inl hold
      · exact .inr ⟨rfl, hlisted, hothers⟩
    · exact .inl hold
  constructor
  · intro j pub hj
    rcases hcases j pub hj with hold | ⟨_, hlisted, _⟩
    · exact hw.listed j pub hold
    · exact hlisted
  · intro j k q r hj hk heq
    rcases hcases j q hj with hq | ⟨rfl, _, hothers⟩
    · rcases hcases k r hk with hr | ⟨rfl, _, hothers⟩
      · exact hw.single j k q r hq hr heq
      · exact absurd heq (hothers j q hq)
    · rcases hcases k r hk with hr | ⟨rfl, _, _⟩
      · exact absurd heq.symm (hothers k r hr)
      · rfl

/-- A session that is pushed differs from those that stay with the other requests. -/
theorem Apart.pushes (hw : w.Apart sel f) {i : Nat} {pub : SessionRef}
    (hi : sel (w.requests i) = some pub) (hadded : sel (.added pub) = none) :
    Apart sel f { w.goTo i (.added pub) with
      publishers := SessionList.pushBack w.publishers pub } := by
  have hcases : ∀ j q, sel ((w.goTo i (.added pub)).requests j) = some q →
      j ≠ i ∧ sel (w.requests j) = some q := by
    intro j q hj
    rcases goTo_cases hj with ⟨_, hq⟩ | hold
    · rw [hadded] at hq
      cases hq
    · exact hold
  constructor
  · intro j q hj hmem
    obtain ⟨hji, hq⟩ := hcases j q hj
    simp only [SessionList.pushBack, List.map_append, List.map_singleton, List.mem_append,
      List.mem_singleton] at hmem
    rcases hmem with hmem | heq
    · exact hw.listed j q hq hmem
    · exact hji (hw.single j i q pub hq hi heq)
  · intro j k q r hj hk
    exact hw.single j k q r (hcases j q hj).2 (hcases k r hk).2

end Apart

/-! ## Sessions -/

/-- Each object is in one place: in the list once, or held by one request. -/
structure Owned (w : Registry) : Prop where
  listed : ∀ s ∈ w.publishers, s.address < w.made
  nodup : (w.publishers.map SessionRef.address).Nodup
  held : ∀ i pub, (w.requests i).held = some pub → pub.address < w.made
  apart : w.Apart Progress.held SessionRef.address

theorem Owned.drop {w t : Registry} (hw : w.Owned) (hsub : t.publishers.Sublist w.publishers)
    (hmade : t.made = w.made)
    (hheld : ∀ i pub, (t.requests i).held = some pub → (w.requests i).held = some pub) :
    t.Owned where
  listed s hs := by
    rw [hmade]
    exact hw.listed s (hsub.subset hs)
  nodup := hw.nodup.sublist (hsub.map _)
  held i pub hi := by
    rw [hmade]
    exact hw.held i pub (hheld i pub hi)
  apart := hw.apart.drop hsub hheld

/-- A request that moves on holds what it held or less. -/
theorem held_goTo {w : Registry} {i : Nat} {p : Progress}
    (hp : ∀ pub, p.held = some pub → (w.requests i).held = some pub) (j : Nat)
    (pub : SessionRef) (hj : ((w.goTo i p).requests j).held = some pub) :
    (w.requests j).held = some pub := by
  rcases goTo_cases hj with ⟨rfl, hpub⟩ | ⟨_, hold⟩
  · exact hp pub hpub
  · exact hold

theorem Owned.makes {w : Registry} (hw : w.Owned) (key : StreamKey) (i : Nat) :
    Owned { w.goTo i (.made (w.makePublisher key)) with made := w.made + 1 } := by
  have hapart : (w.goTo i (.made (w.makePublisher key))).Apart Progress.held
      SessionRef.address := by
    refine hw.apart.goTo ?_
    intro pub hpub
    cases hpub
    refine .inr ⟨?_, ?_⟩
    · intro hmem
      obtain ⟨s, hs, haddress⟩ := List.mem_map.mp hmem
      have hlt := hw.listed s hs
      have hnew : s.address = w.made := haddress
      omega
    · intro j q hq
      exact Nat.ne_of_lt (hw.held j q hq)
  constructor
  · intro s hs
    exact Nat.lt_succ_of_lt (hw.listed s hs)
  · exact hw.nodup
  · intro j pub hj
    rcases goTo_cases hj with ⟨_, hpub⟩ | ⟨_, hold⟩
    · cases hpub
      exact Nat.lt_succ_self w.made
    · exact Nat.lt_succ_of_lt (hw.held j pub hold)
  · exact ⟨hapart.listed, hapart.single⟩

theorem Owned.pushes {w : Registry} (hw : w.Owned) {i : Nat} {pub : SessionRef}
    (hi : w.requests i = .sessionAbsent pub) :
    Owned { w.goTo i (.added pub) with publishers := SessionList.pushBack w.publishers pub } := by
  have hpub := held_of_push hi
  constructor
  · intro s hs
    rcases List.mem_append.mp hs with hs | hs
    · exact hw.listed s hs
    · rw [List.mem_singleton.mp hs]
      exact hw.held i pub hpub
  · exact (SessionList.nodup_map_pushBack _ _ _).mpr ⟨hw.apart.listed i pub hpub, hw.nodup⟩
  · intro j q hj
    exact hw.held j q (held_goTo (p := .added pub) nofun j q hj)
  · exact hw.apart.pushes hpub rfl

theorem Owned.step {targets : Nat → StreamKey} {w t : Registry} (hw : w.Owned)
    {a : RegistryEvent} (ha : w.Enabled a) (hrun : w.step targets a = .ok t) : t.Owned := by
  cases a with
  | advance i =>
      cases advances_of_step ha hrun with
      | moves p _ hheld =>
          exact hw.drop (List.Sublist.refl _) rfl (held_goTo hheld)
      | makes _ => exact hw.makes (targets i) i
      | pushes pub hi => exact hw.pushes hi
      | removes pub _ =>
          exact hw.drop (SessionList.remove_sublist _ _) rfl (held_goTo nofun)
  | removePublishers key =>
      cases hrun
      exact hw.drop (SessionList.removeAll_sublist _ _) rfl fun _ _ h => h

/-! ## Applications and streams -/

/-- What is known of the names of the requests that have come past `handle`. -/
structure Addressed (targets : Nat → StreamKey) (w : Registry) : Prop where
  absent : ∀ i, w.requests i = .absent → (targets i).Named
  held : ∀ i pub, (w.requests i).held = some pub → pub.key = targets i ∧ (targets i).Named

theorem Addressed.goTo {targets : Nat → StreamKey} {w : Registry} (hw : w.Addressed targets)
    {i : Nat} {p : Progress} (habsent : p = .absent → (targets i).Named)
    (hheld : ∀ pub, p.held = some pub → pub.key = targets i ∧ (targets i).Named) :
    (w.goTo i p).Addressed targets := by
  constructor
  · intro j hj
    by_cases hji : j = i
    · subst hji
      rw [goTo_requests_self] at hj
      exact habsent hj
    · rw [goTo_requests_of_ne w p hji] at hj
      exact hw.absent j hj
  · intro j pub hj
    rcases goTo_cases hj with ⟨rfl, hpub⟩ | ⟨_, hold⟩
    · exact hheld pub hpub
    · exact hw.held j pub hold

theorem Addressed.step {targets : Nat → StreamKey} {w t : Registry} (hw : w.Addressed targets)
    {a : RegistryEvent} (ha : w.Enabled a) (hrun : w.step targets a = .ok t) :
    t.Addressed targets := by
  cases a with
  | advance i =>
      cases advances_of_step ha hrun with
      | moves p habsent hheld =>
          exact hw.goTo habsent fun pub hpub => hw.held i pub (hheld pub hpub)
      | makes hi =>
          have hgo := hw.goTo (i := i) (p := .made (w.makePublisher (targets i))) nofun ?_
          · exact ⟨hgo.absent, hgo.held⟩
          · intro pub hpub
            cases hpub
            exact ⟨rfl, hw.absent i hi⟩
      | pushes pub _ =>
          have hgo := hw.goTo (i := i) (p := .added pub) nofun nofun
          exact ⟨hgo.absent, hgo.held⟩
      | removes pub _ =>
          have hgo := hw.goTo (i := i) (p := .removed pub) nofun nofun
          exact ⟨hgo.absent, hgo.held⟩
  | removePublishers key =>
      cases hrun
      exact ⟨hw.absent, hw.held⟩

/-- A step keeps the applications and streams apart unless it pushes one that is there. -/
theorem keys_nodup_step {targets : Nat → StreamKey} {w t : Registry}
    (hw : (w.publishers.map SessionRef.key).Nodup) {a : RegistryEvent} (ha : w.Enabled a)
    (habsent : StillAbsent w a) (hrun : w.step targets a = .ok t) :
    (t.publishers.map SessionRef.key).Nodup := by
  cases a with
  | advance i =>
      cases advances_of_step ha hrun with
      | moves p _ _ => exact hw
      | makes _ => exact hw
      | pushes pub hi =>
          have hfalse := (stillAbsent_push_iff hi).mp habsent
          exact (SessionList.nodup_map_pushBack _ _ _).mpr
            ⟨SessionList.key_not_mem_of_isExist hfalse, hw⟩
      | removes pub _ => exact hw.sublist ((SessionList.remove_sublist _ _).map _)
  | removePublishers key =>
      cases hrun
      exact hw.sublist ((SessionList.removeAll_sublist _ _).map _)

/-- A step that pushes what is there makes the publishers not unique. -/
theorem not_unique_of_push {targets : Nat → StreamKey} {w t : Registry}
    (hw : w.Addressed targets) {a : RegistryEvent} (ha : w.Enabled a)
    (hpresent : ¬ StillAbsent w a) (hrun : w.step targets a = .ok t) : ¬ t.Unique := by
  obtain ⟨i, pub, rfl, hi⟩ := exists_push_of_not_stillAbsent hpresent
  have hheld := held_of_push hi
  obtain ⟨hkey, happ, hstream⟩ := hw.held i pub hheld
  rw [← hkey] at happ hstream
  have ht : t.publishers = SessionList.pushBack w.publishers pub := by
    change Except.ok (w.advance (targets i) i) = .ok t at hrun
    unfold advance at hrun
    rw [hi] at hrun
    cases hrun
    rfl
  intro hunique
  have hnodup := hunique.1
  rw [ht, SessionList.nodup_map_pushBack] at hnodup
  have hfalse := (SessionList.isExist_eq_false_iff happ hstream).mpr hnodup.1
  exact hpresent ((stillAbsent_push_iff hi).mpr hfalse)

/-! ## One request at a time -/

/-- The requests between check and push differ in application and stream from the
    publishers and from each other. -/
abbrev Exclusive (w : Registry) : Prop := w.Apart Progress.checked SessionRef.key

/-- A request comes past the check of `add_publisher`, alone, or was past it before. -/
theorem Exclusive.moves {w : Registry} (hw : w.Exclusive) {i : Nat} {p : Progress}
    (halone : CheckedAlone w (.advance i))
    (hkey : ∀ pub, p = .keyAbsent pub →
      w.requests i = .made pub ∧ SessionList.isExist w.publishers pub.key = false)
    (hsession : ∀ pub, p = .sessionAbsent pub → w.requests i = .keyAbsent pub) :
    (w.goTo i p).Exclusive := by
  refine hw.goTo ?_
  intro pub hpub
  cases p with
  | keyAbsent q =>
      cases hpub
      obtain ⟨hi, hfalse⟩ := hkey pub rfl
      exact .inr ⟨SessionList.key_not_mem_of_isExist hfalse, halone pub hi⟩
  | sessionAbsent q =>
      cases hpub
      rw [hsession pub rfl]
      exact .inl rfl
  | arrived | absent | made | added | refused | removed | replied => cases hpub

theorem Exclusive.step {targets : Nat → StreamKey} {w t : Registry} (hw : w.Exclusive)
    {a : RegistryEvent} (ha : w.Enabled a) (halone : CheckedAlone w a)
    (hrun : w.step targets a = .ok t) : t.Exclusive := by
  cases a with
  | advance i =>
      cases advances_of_step ha hrun with
      | moves p _ _ hkey hsession => exact hw.moves halone hkey hsession
      | makes _ =>
          have hmoved := hw.moves (p := .made (w.makePublisher (targets i))) halone nofun nofun
          exact ⟨hmoved.listed, hmoved.single⟩
      | pushes pub hi =>
          exact hw.pushes (checked_of_push hi) rfl
      | removes pub _ =>
          have hmoved := hw.moves (p := .removed pub) halone nofun nofun
          exact hmoved.drop (SessionList.remove_sublist _ _) fun _ _ h => h
  | removePublishers key =>
      cases hrun
      exact hw.drop (SessionList.removeAll_sublist _ _) fun _ _ h => h

/-- Where requests are alone between check and push, a push finds its key absent. -/
theorem Exclusive.stillAbsent {targets : Nat → StreamKey} {w : Registry} (hw : w.Exclusive)
    (haddressed : w.Addressed targets) (a : RegistryEvent) : StillAbsent w a := by
  by_contra hpresent
  obtain ⟨i, pub, rfl, hi⟩ := exists_push_of_not_stillAbsent hpresent
  have hheld := held_of_push hi
  have hchecked := checked_of_push hi
  obtain ⟨hkey, happ, hstream⟩ := haddressed.held i pub hheld
  rw [← hkey] at happ hstream
  have hfalse := (SessionList.isExist_eq_false_iff happ hstream).mpr (hw.listed i pub hchecked)
  exact hpresent ((stillAbsent_push_iff hi).mpr hfalse)

end Registry

/-! ## Runs -/

section Runs

variable (targets : Nat → StreamKey)

theorem registry_owned {w : Registry} (hw : (registry targets).Reachable w) : w.Owned := by
  refine hw.invariant (P := Registry.Owned) ?_ ?_
  · exact ⟨nofun, List.nodup_nil, nofun, Registry.Apart.of_none fun _ => rfl⟩
  · intro s a t hs ha hrun
    exact hs.step ha hrun

theorem registry_addressed {w : Registry} (hw : (registry targets).Reachable w) :
    w.Addressed targets := by
  refine hw.invariant (P := Registry.Addressed targets) ?_ ?_
  · exact ⟨nofun, nofun⟩
  · intro s a t hs ha hrun
    exact hs.step ha hrun

theorem registry_publishers_unique {w : Registry}
    (hw : ((registry targets).restrict StillAbsent).Reachable w) : w.Unique := by
  have hkeys : (w.publishers.map SessionRef.key).Nodup := by
    refine hw.invariant (P := fun w => (w.publishers.map SessionRef.key).Nodup)
      List.nodup_nil ?_
    intro s a t hs ⟨ha, habsent⟩ hrun
    exact Registry.keys_nodup_step hs ha habsent hrun
  exact ⟨hkeys, (registry_owned targets hw.of_restrict).nodup⟩

/-- Along the runs whose pushes find their application and stream still absent, the
    publishers are unique; any other push makes them not unique. -/
theorem registry_unique (w : Registry) (hw : ((registry targets).restrict StillAbsent).Reachable w) :
    w.Unique
      ∧ ∀ a t, (registry targets).enabled w a → (registry targets).step w a = .ok t →
          ¬ StillAbsent w a → ¬ t.Unique := by
  refine ⟨registry_publishers_unique targets hw, ?_⟩
  intro a t ha hrun hpresent
  exact Registry.not_unique_of_push (registry_addressed targets hw.of_restrict) ha hpresent hrun

/-- A run in which requests are alone between check and push has unique publishers. -/
theorem registry_exclusive_unique (w : Registry)
    (hw : ((registry targets).restrict CheckedAlone).Reachable w) : w.Unique := by
  have hexclusive : ∀ s, ((registry targets).restrict CheckedAlone).Reachable s →
      s.Exclusive := by
    intro s hs
    refine hs.invariant (P := Registry.Exclusive) ?_ ?_
    · exact Registry.Apart.of_none fun _ => rfl
    · intro s a t hs ⟨ha, halone⟩ hrun
      exact hs.step ha halone hrun
  have hstill : ((registry targets).restrict StillAbsent).Reachable w := by
    refine hw.restrict_mono ?_
    intro s a hs _ _
    exact (hexclusive s hs).stillAbsent (registry_addressed targets hs.of_restrict) a
  exact registry_publishers_unique targets hstill

end Runs

instance (targets : Nat → StreamKey) (w : Registry) (a : RegistryEvent) :
    Decidable ((registry targets).enabled w a) :=
  inferInstanceAs (Decidable (w.Enabled a))

instance (targets : Nat → StreamKey) (w : Registry) (a : RegistryEvent) :
    Decidable (((registry targets).restrict StillAbsent).enabled w a) :=
  inferInstanceAs (Decidable (w.Enabled a ∧ StillAbsent w a))

instance (w : Registry) : Decidable w.Unique :=
  inferInstanceAs (Decidable (_ ∧ _))

/-- Two requests for one stream, one after the other: the second is turned away. -/
theorem registry_unique_second :
    ∃ w, ((registry fun _ => ⟨['l'], ['s']⟩).restrict StillAbsent).Reachable w
      ∧ (w.publishers.length = 1 ∧ w.requests 1 = .replied .notFound)
      ∧ w.Unique := by
  obtain ⟨w, hw, hsecond⟩ := Machine.reachable_of_runs
    (M := (registry fun _ => ⟨['l'], ['s']⟩).restrict StillAbsent)
    (p := fun w => decide (w.publishers.length = 1 ∧ w.requests 1 = .replied .notFound))
    [.advance 0, .advance 1, .advance 0, .advance 0, .advance 0, .advance 0, .advance 1]
    (by decide +kernel)
  exact ⟨w, hw, of_decide_eq_true hsecond, (registry_unique _ w hw).1⟩

/-- Two requests for one stream that both find it absent before either pushes. -/
theorem registry_duplicate :
    ¬ ∀ targets w, (registry targets).Reachable w → w.Unique := by
  intro hall
  obtain ⟨w, hw, hduplicate⟩ := Machine.reachable_of_runs
    (M := registry fun _ => ⟨['l'], ['s']⟩) (p := fun w => decide (¬ w.Unique))
    [.advance 0, .advance 0, .advance 0, .advance 0, .advance 1, .advance 1, .advance 1,
      .advance 1, .advance 0, .advance 1]
    (by decide +kernel)
  exact of_decide_eq_true hduplicate (hall _ w hw)

end SeastarLive
