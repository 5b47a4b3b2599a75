/-
SeastarLive.Server.PublishBody — which sessions read the body of their request.

`publish_stream_route_handler::handle` of `src/server/rtmp/route_handler.cc`
calls `add_publisher`, does not look at what it returns, and leaves a body
reader that runs `start_with`. The connection runs it after `handle` has
returned (`maybe_read_body` of `src/rtmp/rtmp.cc`), and `on_terminate` takes
the session off the list when the body has come to its end.

The steps of `handle` and `add_publisher` are those of `Server.Registry`; the
list of publishers changes in no other way, since `remove_publishers` is called
nowhere.
-/
import SeastarLive.Server.RegistryTheorems

namespace SeastarLive

/-- How far the body of a request has come. -/
inductive Body
  | waiting
  | reading
  | ended
deriving DecidableEq

/-- The session that the body reader of a request runs `start_with` on. -/
def Progress.reader : Progress → Option SessionRef
  | .added pub => some pub
  | .refused pub => some pub
  | _ => none

/-- The registry with the bodies of its requests, and the sessions, by their address, that
    have `_lifecycle` set. -/
structure PublishServer where
  registry : Registry := {}
  bodies : Nat → Body := fun _ => .waiting
  lifecycle : Nat → Bool := fun _ => false

/-- The next step of a request. -/
inductive BodyEvent
  /-- The next call of `handle` or `add_publisher`. -/
  | call (i : Nat)
  | startWith (i : Nat)
  | onTerminate (i : Nat)
deriving DecidableEq

namespace PublishServer

/-- A request that is in `handle`. -/
def handling : Progress → Bool
  | .added _ => false
  | p => Registry.pending p

/-- The next call of `handle` or `add_publisher`; a session that is added is given its
    lifecycle. -/
def call (w : PublishServer) (key : StreamKey) (i : Nat) : PublishServer :=
  match w.registry.requests i with
  | .sessionAbsent pub =>
      { w with
        registry := w.registry.advance key i
        lifecycle := Function.update w.lifecycle pub.address true }
  | _ => { w with registry := w.registry.advance key i }

/-- The body reader runs `start_with`. -/
def startWith (w : PublishServer) (i : Nat) : PublishServer :=
  { w with bodies := Function.update w.bodies i .reading }

/-- `on_terminate`, at the end of the body; without a lifecycle it does nothing. -/
def onTerminate (w : PublishServer) (key : StreamKey) (i : Nat) : PublishServer :=
  let w' := { w with bodies := Function.update w.bodies i .ended }
  match (w.registry.requests i).reader with
  | none => w'
  | some pub =>
      if w.lifecycle pub.address then
        { w' with
          registry := w.registry.advance key i
          lifecycle := Function.update w.lifecycle pub.address false }
      else w'

/-- When a step may happen. -/
def Enabled (w : PublishServer) : BodyEvent → Prop
  | .call i => handling (w.registry.requests i) = true
  | .startWith i =>
      (w.registry.requests i).reader.isSome = true ∧ w.bodies i = .waiting
  | .onTerminate i => w.bodies i = .reading

instance (w : PublishServer) : ∀ a, Decidable (w.Enabled a)
  | .call _ => inferInstanceAs (Decidable (_ = _))
  | .startWith _ => inferInstanceAs (Decidable (_ ∧ _))
  | .onTerminate _ => inferInstanceAs (Decidable (_ = _))

def step (targets : Nat → StreamKey) (w : PublishServer) :
    BodyEvent → Except Empty PublishServer
  | .call i => .ok (w.call (targets i) i)
  | .startWith i => .ok (w.startWith i)
  | .onTerminate i => .ok (w.onTerminate (targets i) i)

end PublishServer

/-- The publish requests `targets` with their bodies. -/
def publishServer (targets : Nat → StreamKey) : Machine PublishServer BodyEvent Empty where
  init := {}
  enabled := PublishServer.Enabled
  step := PublishServer.step targets

instance (targets : Nat → StreamKey) (w : PublishServer) (a : BodyEvent) :
    Decidable ((publishServer targets).enabled w a) := inferInstanceAs (Decidable (w.Enabled a))

/-- A request that is about to look whether its application and stream are taken finds them
    free. -/
def looksAbsent (sessions : List SessionRef) : Progress → Bool
  | .made pub => !SessionList.isExist sessions pub.key
  | _ => true

/-- `add_publisher` looks while no publisher of its application and stream is listed. -/
def LooksAbsent (w : PublishServer) : BodyEvent → Prop
  | .call i => looksAbsent w.registry.publishers (w.registry.requests i) = true
  | .startWith _ => True
  | .onTerminate _ => True

instance (w : PublishServer) : ∀ a, Decidable (LooksAbsent w a)
  | .call _ => inferInstanceAs (Decidable (_ = _))
  | .startWith _ | .onTerminate _ => inferInstanceAs (Decidable True)

/-! ## What a step does -/

/-- The session that a request has made, until it is removed. -/
def Progress.own : Progress → Option SessionRef
  | .made pub => some pub
  | .keyAbsent pub => some pub
  | .sessionAbsent pub => some pub
  | .added pub => some pub
  | _ => none

/-- The other requests stay where they are. -/
theorem Registry.advance_requests_of_ne (w : Registry) (key : StreamKey) {i j : Nat} (h : j ≠ i) :
    (w.advance key i).requests j = w.requests j := by
  unfold Registry.advance
  split
  · split
    · exact goTo_requests_of_ne w _ h
    · split <;> exact goTo_requests_of_ne w _ h
  · split <;> exact goTo_requests_of_ne w _ h
  · split <;> exact goTo_requests_of_ne w _ h
  · split <;> exact goTo_requests_of_ne w _ h
  · exact goTo_requests_of_ne w _ h
  · exact goTo_requests_of_ne w _ h
  · rfl
  · rfl
  · rfl

namespace PublishServer

/-- Request `i` goes on to `p`. -/
def goTo (w : PublishServer) (i : Nat) (p : Progress) : PublishServer :=
  { w with registry := w.registry.goTo i p }

/-- What a call of request `i` does: it moves the request on, makes its session or adds it. -/
inductive Calls (w : PublishServer) (key : StreamKey) (i : Nat) : PublishServer → Prop
  | moves (p : Progress) :
      (∀ pub, p.own = some pub → (w.registry.requests i).own = some pub) →
      (∀ pub, p ≠ .added pub) →
      (∀ pub, p = .refused pub →
        w.registry.requests i = .made pub
            ∧ SessionList.isExist w.registry.publishers pub.key = true
          ∨ w.registry.requests i = .keyAbsent pub
            ∧ SessionList.isExistSession w.registry.publishers pub = true) →
      Calls w key i (w.goTo i p)
  | makes : w.registry.requests i = .absent →
      Calls w key i { w with registry :=
        { w.registry.goTo i (.made (w.registry.makePublisher key)) with
          made := w.registry.made + 1 } }
  | adds (pub : SessionRef) : w.registry.requests i = .sessionAbsent pub →
      Calls w key i { w with
        registry := { w.registry.goTo i (.added pub) with
          publishers := SessionList.pushBack w.registry.publishers pub }
        lifecycle := Function.update w.lifecycle pub.address true }

theorem call_eq_of_not_push {w : PublishServer} {key : StreamKey} {i : Nat}
    (h : ∀ pub, w.registry.requests i ≠ .sessionAbsent pub) :
    w.call key i = { w with registry := w.registry.advance key i } := by
  unfold call
  split
  · rename_i pub hi
    exact absurd hi (h pub)
  · rfl

theorem call_spec {w : PublishServer} {key : StreamKey} {i : Nat}
    (h : handling (w.registry.requests i) = true) : Calls w key i (w.call key i) := by
  cases hi : w.registry.requests i with
  | arrived =>
      rw [call_eq_of_not_push (by simp [hi]), Registry.advance, hi]
      dsimp only
      split
      · exact .moves (.replied .notFound) nofun nofun nofun
      · split
        · exact .moves (.replied .internalError) nofun nofun nofun
        · exact .moves .absent nofun nofun nofun
  | absent =>
      rw [call_eq_of_not_push (by simp [hi]), Registry.advance, hi]
      dsimp only
      split
      · exact .moves (.replied .notFound) nofun nofun nofun
      · exact .makes hi
  | made pub =>
      rw [call_eq_of_not_push (by simp [hi]), Registry.advance, hi]
      dsimp only
      split
      · rename_i hexist
        refine .moves (.refused pub) nofun nofun fun q hq => ?_
        cases hq
        exact .inl ⟨hi, hexist⟩
      · exact .moves (.keyAbsent pub) (fun q hq => hi ▸ hq) nofun nofun
  | keyAbsent pub =>
      rw [call_eq_of_not_push (by simp [hi]), Registry.advance, hi]
      dsimp only
      split
      · rename_i hexist
        refine .moves (.refused pub) nofun nofun fun q hq => ?_
        cases hq
        exact .inr ⟨hi, hexist⟩
      · exact .moves (.sessionAbsent pub) (fun q hq => hi ▸ hq) nofun nofun
  | sessionAbsent pub =>
      simp only [call, Registry.advance, hi]
      exact .adds pub hi
  | added pub | refused pub | removed pub | replied status =>
      rw [hi] at h
      cases h

/-- What the end of a body does: it removes the session if that was added. -/
inductive Terminates (w : PublishServer) (i : Nat) : PublishServer → Prop
  | silent : Terminates w i { w with bodies := Function.update w.bodies i .ended }
  | removes (pub : SessionRef) : w.registry.requests i = .added pub → Terminates w i
      { registry := { w.registry.goTo i (.removed pub) with
          publishers := SessionList.remove w.registry.publishers pub }
        bodies := Function.update w.bodies i .ended
        lifecycle := Function.update w.lifecycle pub.address false }
  | refused (pub : SessionRef) : w.registry.requests i = .refused pub → Terminates w i { w with
      bodies := Function.update w.bodies i .ended
      lifecycle := Function.update w.lifecycle pub.address false }

theorem onTerminate_spec (w : PublishServer) (key : StreamKey) (i : Nat) :
    Terminates w i (w.onTerminate key i) := by
  unfold onTerminate
  cases hi : w.registry.requests i with
  | added pub =>
      dsimp only [Progress.reader]
      split
      · simp only [Registry.advance, hi]
        exact .removes pub hi
      · exact .silent
  | refused pub =>
      dsimp only [Progress.reader]
      split
      · simp only [Registry.advance, hi]
        exact .refused pub hi
      · exact .silent
  | arrived | absent | made | keyAbsent | sessionAbsent | removed | replied => exact .silent

/-! ## What every run keeps -/

theorem pending_of_handling {p : Progress} (h : handling p = true) :
    Registry.pending p = true := by
  cases p with
  | added => rfl
  | arrived | absent | made | keyAbsent | sessionAbsent | refused | removed | replied => exact h

/-- A request that is in `handle` has no body reader yet. -/
theorem not_reader_of_handling {p : Progress} (h : handling p = true) :
    ¬ p.reader.isSome = true := by
  cases p with
  | added | refused => cases h
  | arrived | absent | made | keyAbsent | sessionAbsent | removed | replied => exact nofun

theorem call_registry (w : PublishServer) (key : StreamKey) (i : Nat) :
    (w.call key i).registry = w.registry.advance key i := by
  unfold call
  split <;> rfl

/-- Every step is one of the registry, or none. -/
theorem step_registry {targets : Nat → StreamKey} {w t : PublishServer} {a : BodyEvent}
    (ha : w.Enabled a) (hrun : w.step targets a = .ok t) :
    (SeastarLive.registry targets).Steps w.registry t.registry := by
  cases a with
  | call i =>
      cases hrun
      rw [call_registry]
      exact .step (a := .advance i) .refl (pending_of_handling ha) rfl
  | startWith i =>
      cases hrun
      exact .refl
  | onTerminate i =>
      have hterminates : Terminates w i t := by
        cases hrun
        exact w.onTerminate_spec (targets i) i
      cases hterminates with
      | silent => exact .refl
      | refused => exact .refl
      | removes pub hi =>
          refine .step (a := .advance i) .refl ?_ ?_
          · exact (congrArg Registry.pending hi).trans rfl
          · change Except.ok (w.registry.advance (targets i) i) = _
            simp only [Registry.advance, hi]

/-- A request that is in `handle` has not been given its body. -/
def Waiting (w : PublishServer) : Prop :=
  ∀ i, handling (w.registry.requests i) = true → w.bodies i = .waiting

theorem Waiting.step {targets : Nat → StreamKey} {w t : PublishServer} {a : BodyEvent}
    (h : Waiting w) (ha : w.Enabled a) (hrun : w.step targets a = .ok t) : Waiting t := by
  intro j hj
  cases a with
  | call i =>
      cases hrun
      have hbodies : (w.call (targets i) i).bodies = w.bodies := by
        unfold call
        split <;> rfl
      rw [hbodies]
      by_cases hji : j = i
      · exact hji ▸ h i ha
      · refine h j ?_
        rwa [call_registry, Registry.advance_requests_of_ne w.registry _ hji] at hj
  | startWith i =>
      cases hrun
      by_cases hji : j = i
      · subst hji
        exact absurd ha.1 (not_reader_of_handling hj)
      · exact (Function.update_of_ne hji _ _).trans (h j hj)
  | onTerminate i =>
      have hterminates : Terminates w i t := by
        cases hrun
        exact w.onTerminate_spec (targets i) i
      have hbusy : handling (w.registry.requests i) ≠ true := by
        intro hi
        cases (h i hi).symm.trans ha
      by_cases hji : j = i
      · subst hji
        cases hterminates with
        | silent | refused => exact absurd hj hbusy
        | removes pub hi =>
            rw [Registry.goTo_requests_self] at hj
            cases hj
      · cases hterminates with
        | silent | refused => exact (Function.update_of_ne hji _ _).trans (h j hj)
        | removes pub hi =>
            rw [Registry.goTo_requests_of_ne _ _ hji] at hj
            exact (Function.update_of_ne hji _ _).trans (h j hj)

/-- Where no request was refused: every session is held by one request, and one that was added
    has its lifecycle and is listed until its body ends. -/
structure Started (w : PublishServer) : Prop where
  unrefused : ∀ i pub, w.registry.requests i ≠ .refused pub
  single : ∀ i j p q, (w.registry.requests i).own = some p →
    (w.registry.requests j).own = some q → p.address = q.address → i = j
  below : ∀ i pub, (w.registry.requests i).own = some pub → pub.address < w.registry.made
  added : ∀ i pub, w.registry.requests i = .added pub →
    w.lifecycle pub.address = true ∧ pub ∈ w.registry.publishers

/-- What is known of a request after one of them has gone on. -/
theorem update_cases {f : Nat → Progress} {i j : Nat} {p q : Progress}
    (h : Function.update f i p j = q) : j = i ∧ p = q ∨ j ≠ i ∧ f j = q := by
  by_cases hji : j = i
  · subst hji
    exact .inl ⟨rfl, (Function.update_self ..).symm.trans h⟩
  · exact .inr ⟨hji, (Function.update_of_ne hji ..).symm.trans h⟩

/-- One request moves on, with the session it had or a new one. -/
theorem Started.moves {w t : PublishServer} (h : Started w) {i : Nat} {p : Progress}
    (hrequests : t.registry.requests = Function.update w.registry.requests i p)
    (hmade : w.registry.made ≤ t.registry.made) (hrefused : ∀ pub, p ≠ .refused pub)
    (hown : ∀ pub, p.own = some pub → (w.registry.requests i).own = some pub
      ∨ pub.address = w.registry.made ∧ w.registry.made < t.registry.made)
    (hadded : ∀ j pub, t.registry.requests j = .added pub →
      t.lifecycle pub.address = true ∧ pub ∈ t.registry.publishers) : Started t := by
  have hcases : ∀ j pub, (t.registry.requests j).own = some pub →
      (w.registry.requests j).own = some pub
        ∨ j = i ∧ pub.address = w.registry.made ∧ w.registry.made < t.registry.made := by
    intro j pub hj
    rw [hrequests] at hj
    by_cases hji : j = i
    · subst hji
      rw [Function.update_self] at hj
      exact (hown pub hj).imp_right fun hnew => ⟨rfl, hnew⟩
    · rw [Function.update_of_ne hji] at hj
      exact .inl hj
  constructor
  · intro j pub hj
    rw [hrequests] at hj
    rcases update_cases hj with ⟨-, hp⟩ | ⟨-, hold⟩
    · exact hrefused pub hp
    · exact h.unrefused j pub hold
  · intro j k q r hj hk heq
    rcases hcases j q hj with hq | ⟨rfl, hq, -⟩ <;> rcases hcases k r hk with hr | ⟨rfl, hr, -⟩
    · exact h.single j k q r hq hr heq
    · have hlt := h.below j q hq
      omega
    · have hlt := h.below k r hr
      omega
    · rfl
  · intro j pub hj
    rcases hcases j pub hj with hold | ⟨-, hnew, hlt⟩
    · exact Nat.lt_of_lt_of_le (h.below j pub hold) hmade
    · exact hnew ▸ hlt
  · exact hadded

/-- A request other than `i` that was added still is, when `i` has gone on. -/
theorem Started.added_of_update {w : PublishServer} (h : Started w) {i j : Nat} {p : Progress}
    {pub : SessionRef} (hp : ∀ pub, p ≠ .added pub)
    (hj : Function.update w.registry.requests i p j = .added pub) :
    j ≠ i ∧ w.registry.requests j = .added pub ∧ w.lifecycle pub.address = true
      ∧ pub ∈ w.registry.publishers := by
  rcases update_cases hj with ⟨-, hnew⟩ | ⟨hji, hold⟩
  · exact absurd hnew (hp pub)
  · exact ⟨hji, hold, h.added j pub hold⟩

theorem Started.call {w t : PublishServer} {key : StreamKey} {i : Nat} (h : Started w)
    (howned : w.registry.Owned) (habsent : LooksAbsent w (.call i)) (ht : Calls w key i t) :
    Started t := by
  cases ht with
  | moves p hown hadded hrefused =>
      refine h.moves rfl (Nat.le_refl _) ?_ (fun pub hp => .inl (hown pub hp)) ?_
      · intro pub hp
        rcases hrefused pub hp with ⟨hi, hexist⟩ | ⟨hi, hexist⟩
        · change looksAbsent _ (w.registry.requests i) = true at habsent
          rw [hi, looksAbsent, hexist] at habsent
          cases habsent
        · have hlisted := howned.apart.listed i pub (congrArg Progress.held hi)
          obtain ⟨s, hs, heq⟩ := List.any_eq_true.mp hexist
          exact hlisted (List.mem_map.mpr ⟨s, hs, beq_iff_eq.mp heq⟩)
      · intro j pub hj
        exact (h.added_of_update hadded hj).2.2
  | makes hi =>
      refine h.moves (p := .made (w.registry.makePublisher key)) rfl (Nat.le_succ _) nofun ?_ ?_
      · intro pub hpub
        cases hpub
        exact .inr ⟨rfl, Nat.lt_succ_self _⟩
      · intro j pub hj
        exact (h.added_of_update (fun _ hp => by cases hp) hj).2.2
  | adds pub hi =>
      refine h.moves (p := .added pub) rfl (Nat.le_refl _) nofun ?_ ?_
      · intro q hq
        cases hq
        exact .inl (congrArg Progress.own hi)
      · intro j q hj
        rcases update_cases hj with ⟨-, hq⟩ | ⟨-, hold⟩
        · cases hq
          exact ⟨Function.update_self .., List.mem_append_right _ (List.mem_singleton_self pub)⟩
        · obtain ⟨hlife, hmem⟩ := h.added j q hold
          refine ⟨?_, List.mem_append_left _ hmem⟩
          change Function.update w.lifecycle pub.address true q.address = true
          by_cases heq : q.address = pub.address
          · rw [heq, Function.update_self]
          · rwa [Function.update_of_ne heq]

theorem Started.onTerminate {w t : PublishServer} {i : Nat} (h : Started w)
    (ht : Terminates w i t) : Started t := by
  cases ht with
  | silent => exact ⟨h.unrefused, h.single, h.below, h.added⟩
  | refused pub hi => exact absurd hi (h.unrefused i pub)
  | removes pub hi =>
      refine h.moves (p := .removed pub) rfl (Nat.le_refl _) nofun nofun ?_
      intro j q hj
      obtain ⟨hji, hq, hlife, hmem⟩ := h.added_of_update (fun _ hp => by cases hp) hj
      have hne : q.address ≠ pub.address := fun heq =>
        hji (h.single j i q pub (congrArg Progress.own hq) (congrArg Progress.own hi) heq)
      constructor
      · exact (Function.update_of_ne hne ..).trans hlife
      · exact (List.mem_eraseP_of_neg (by simpa using hne)).mpr hmem

theorem Started.step {targets : Nat → StreamKey} {w t : PublishServer} {a : BodyEvent}
    (h : Started w) (howned : w.registry.Owned) (ha : w.Enabled a) (habsent : LooksAbsent w a)
    (hrun : w.step targets a = .ok t) : Started t := by
  cases a with
  | call i =>
      cases hrun
      exact h.call howned habsent (call_spec ha)
  | startWith i =>
      cases hrun
      exact ⟨h.unrefused, h.single, h.below, h.added⟩
  | onTerminate i =>
      cases hrun
      exact h.onTerminate (w.onTerminate_spec (targets i) i)

end PublishServer

/-! ## Runs -/

section Runs

variable {targets : Nat → StreamKey} {w : PublishServer}

theorem publishServer_owned (hw : (publishServer targets).Reachable w) : w.registry.Owned :=
  registry_owned targets
    (hw.map (f := PublishServer.registry) rfl fun _ _ _ => PublishServer.step_registry)

theorem publishServer_waiting (hw : (publishServer targets).Reachable w) : w.Waiting :=
  hw.invariant (fun _ _ => rfl) fun _ _ _ h ha hrun => h.step ha hrun

theorem publishServer_started
    (hw : ((publishServer targets).restrict LooksAbsent).Reachable w) : w.Started := by
  refine hw.invariant_reachable (P := PublishServer.Started) ?_ ?_
  · refine ⟨nofun, ?_, nofun, nofun⟩
    -- nobody holds a session yet
    intro i j p q hown
    cases hown
  · intro s a t hs h ha hrun
    exact h.step (publishServer_owned hs.of_restrict) ha.1 ha.2 hrun

/-- A request that looks too late is refused, and its body may be read all the same. -/
theorem refused_of_present (hw : (publishServer targets).Reachable w) {i : Nat}
    (ha : w.Enabled (.call i)) (hpresent : ¬ LooksAbsent w (.call i)) :
    ∃ pub, (w.call (targets i) i).registry.requests i = .refused pub
      ∧ (w.call (targets i) i).Enabled (.startWith i)
      ∧ pub ∉ (w.call (targets i) i).registry.publishers := by
  change ¬ looksAbsent _ (w.registry.requests i) = true at hpresent
  cases hi : w.registry.requests i with
  | made pub =>
      rw [hi, looksAbsent, Bool.not_eq_true', Bool.not_eq_false] at hpresent
      have hregistry : (w.call (targets i) i).registry = w.registry.goTo i (.refused pub) := by
        rw [PublishServer.call_registry, Registry.advance, hi]
        exact if_pos hpresent
      have hbodies : (w.call (targets i) i).bodies i = .waiting := by
        rw [PublishServer.call_eq_of_not_push (by simp [hi])]
        exact publishServer_waiting hw i ha
      have hlisted := (publishServer_owned hw).apart.listed i pub (congrArg Progress.held hi)
      refine ⟨pub, ?_, ⟨?_, hbodies⟩, ?_⟩
      · rw [hregistry, Registry.goTo_requests_self]
      · rw [hregistry, Registry.goTo_requests_self]
        rfl
      · rw [hregistry]
        exact fun hmem => hlisted (List.mem_map_of_mem hmem)
  | arrived | absent | keyAbsent | sessionAbsent | added | refused | removed | replied =>
      rw [hi] at hpresent
      exact absurd rfl hpresent

end Runs

/-- Over the runs of any publish requests on which `add_publisher` looks while no publisher of
    its application and stream is listed: no request is refused, and a session that
    `start_with` runs on was added, has its lifecycle and is listed. On any other run the
    request that looks too late is refused, and its session, not listed, may start. -/
theorem publish_starts_added (targets : Nat → StreamKey) :
    (∀ w, ((publishServer targets).restrict LooksAbsent).Reachable w →
      (∀ i pub, w.registry.requests i ≠ .refused pub)
        ∧ ∀ i pub, w.Enabled (.startWith i) → (w.registry.requests i).reader = some pub →
          w.registry.requests i = .added pub ∧ w.lifecycle pub.address = true
            ∧ pub ∈ w.registry.publishers)
      ∧ ∀ w, (publishServer targets).Reachable w → ∀ i, w.Enabled (.call i) →
        ¬ LooksAbsent w (.call i) →
          ∃ pub, (w.call (targets i) i).registry.requests i = .refused pub
            ∧ (w.call (targets i) i).Enabled (.startWith i)
            ∧ pub ∉ (w.call (targets i) i).registry.publishers := by
  constructor
  · intro w hw
    have hstarted := publishServer_started hw
    refine ⟨hstarted.unrefused, ?_⟩
    intro i pub _ hreader
    cases hi : w.registry.requests i with
    | added q =>
        rw [hi] at hreader
        cases hreader
        exact ⟨rfl, hstarted.added i pub hi⟩
    | refused q => exact absurd hi (hstarted.unrefused i q)
    | arrived | absent | made | keyAbsent | sessionAbsent | removed | replied =>
        rw [hi] at hreader
        cases hreader
  · intro w hw i ha hpresent
    exact refused_of_present hw ha hpresent

/-- A request runs alone: it is added, and its body is read. -/
theorem publish_starts_added_alone :
    ∃ w, (publishServer fun _ => ⟨['l'], ['s']⟩).Reachable w
      ∧ ∃ pub, w.Enabled (.startWith 0) ∧ w.registry.requests 0 = .added pub
        ∧ w.lifecycle pub.address = true ∧ pub ∈ w.registry.publishers := by
  obtain ⟨w, hw, hready⟩ := Machine.reachable_of_runs
    (M := (publishServer fun _ => ⟨['l'], ['s']⟩).restrict LooksAbsent)
    (p := fun w => decide (w.Enabled (.startWith 0)))
    [.call 0, .call 0, .call 0, .call 0, .call 0] (by decide +kernel)
  have hstart : w.Enabled (.startWith 0) := of_decide_eq_true hready
  obtain ⟨pub, hpub⟩ := Option.isSome_iff_exists.mp hstart.1
  exact ⟨w, hw.of_restrict, pub, hstart, ((publish_starts_added _).1 w hw).2 0 pub hstart hpub⟩

/-- Two requests for one stream that both made their session before either was added: the
    second is refused, gets no reply, and its session may start. -/
theorem publish_starts_refused :
    ¬ ∀ targets w, (publishServer targets).Reachable w → ∀ i pub, w.Enabled (.startWith i) →
      (w.registry.requests i).reader = some pub → w.registry.requests i = .added pub := by
  intro hall
  obtain ⟨w, hw, hready⟩ := Machine.reachable_of_runs
    (M := publishServer fun _ => ⟨['l'], ['s']⟩)
    (p := fun w => decide (w.Enabled (.startWith 1)) && match w.registry.requests 1 with
      | .refused _ => true
      | _ => false)
    [.call 0, .call 0, .call 1, .call 1, .call 0, .call 0, .call 0, .call 1] (by decide +kernel)
  obtain ⟨hstart, hrefused⟩ := (Bool.and_eq_true _ _).mp hready
  split at hrefused
  · rename_i pub hi
    cases hi.symm.trans
      (hall _ w hw 1 pub (of_decide_eq_true hstart) (congrArg Progress.reader hi))
  · cases hrefused

end SeastarLive
