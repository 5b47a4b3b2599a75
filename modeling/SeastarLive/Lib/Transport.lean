/-
SeastarLive.Lib.Transport — messages over streams of bytes.

Two parties exchange messages. A `Dialogue` says what they do with them; the
state of both is one value, and `true` and `false` are the sides. There are two
machines for it:

* `exchange`: a queue of messages towards each side.
* `wired`: a stream of bytes towards each side, with a writer at its one end and
  a reader at the other. The bytes arrive in pieces of any length, and a piece
  may hold no message, or many.

Where a `Codec` is lawful, the machine with the streams does nothing that the
machine with the queues does not do.

* `wired_refines`: every state of the streams is one of the queues. What a
  stream holds is what the reader has not read of the queue.
* `Refines.drained`: when a stream is empty, so is its queue.
* `Refines.fails`: no reader fails, and no party that would not fail on its queue.
* `wired_delivers`: whoever sends what, and whatever the pieces are, each side gets the messages
  of the other in their order, each once.

Nothing here names a program.
-/
import SeastarLive.Lib.Failure
import SeastarLive.Lib.Transition
import Mathlib.Logic.Function.Basic

namespace SeastarLive

/-- What two parties with the state `α` do with messages: they send `μ`, and what the other side
    gets of it is a `ν`. -/
structure Dialogue (α ℓ μ ν ε : Type) where
  init : α
  may : Bool → ℓ → α → Prop
  /-- A side acts of its own accord. -/
  act : Bool → ℓ → α → α × List μ
  /-- A piece of this length arrives at a side, and is still to be read. -/
  hear : Bool → Nat → α → α × List μ
  /-- A side is handed a message. -/
  handle : Bool → ν → α → Except ε (α × List μ)

/-- A writer with states `ω` of messages `μ`, and a reader with states `σ`. -/
structure Codec (ω σ μ ν β ε : Type) where
  write : ω → μ → ω × List β
  read : σ → List β → Except ε (σ × List ν)
  meaning : μ → ν

variable {α ℓ μ ν ε ω σ β δ : Type}

/-! ## Queues of messages -/

structure Exchange (α ν : Type) where
  app : α
  /-- the messages towards a side -/
  queue : Bool → List ν

inductive ExchangeStep (ℓ : Type)
  | act (side : Bool) (x : ℓ)
  | hear (side : Bool) (n : Nat)
  | deliver (side : Bool)

/-- A side has sent messages. -/
def Exchange.send (meaning : μ → ν) (s : Exchange α ν) (side : Bool) (out : α × List μ) :
    Exchange α ν where
  app := out.1
  queue := Function.update s.queue (!side) (s.queue (!side) ++ out.2.map meaning)

def exchangeStep (P : Dialogue α ℓ μ ν ε) (meaning : μ → ν) (s : Exchange α ν) :
    ExchangeStep ℓ → Except ε (Exchange α ν)
  | .act side x => .ok (s.send meaning side (P.act side x s.app))
  | .hear side n => .ok (s.send meaning side (P.hear side n s.app))
  | .deliver side =>
      match s.queue side with
      | [] => .ok s
      | m :: rest =>
          match P.handle side m s.app with
          | .error e => .error e
          | .ok out =>
              let s := { s with queue := Function.update s.queue side rest }
              .ok (s.send meaning side out)

def exchange (P : Dialogue α ℓ μ ν ε) (meaning : μ → ν) :
    Machine (Exchange α ν) (ExchangeStep ℓ) ε where
  init := { app := P.init, queue := fun _ => [] }
  enabled s
    | .act side x => P.may side x s.app
    | .hear _ _ => True
    | .deliver side => s.queue side ≠ []
  step := exchangeStep P meaning

/-! ## Streams of bytes -/

/-- The way towards a side: the writer of the other side, what is under way, and the reader. -/
structure Link (ω σ β : Type) where
  writer : ω
  wire : List β := []
  reader : σ

structure Wired (α ω σ β : Type) where
  app : α
  link : Bool → Link ω σ β

inductive WiredStep (ℓ : Type)
  | act (side : Bool) (x : ℓ)
  | arrive (side : Bool) (n : Nat)

/-- Write messages one after the other. -/
def Codec.writeAll (C : Codec ω σ μ ν β δ) : ω → List μ → ω × List β
  | w, [] => (w, [])
  | w, m :: ms =>
      let (w, bytes) := C.write w m
      let (w, more) := C.writeAll w ms
      (w, bytes ++ more)

/-- A side writes messages. -/
def Wired.send (C : Codec ω σ μ ν β δ) (s : Wired α ω σ β) (side : Bool) (out : α × List μ) :
    Wired α ω σ β :=
  let l := s.link (!side)
  let (writer, bytes) := C.writeAll l.writer out.2
  { app := out.1
    link := Function.update s.link (!side) { l with writer, wire := l.wire ++ bytes } }

/-- A side handles messages one after the other, and writes its answers. -/
def Wired.handleAll (P : Dialogue α ℓ μ ν ε) (C : Codec ω σ μ ν β δ) (side : Bool) :
    Wired α ω σ β → List ν → Except ε (Wired α ω σ β)
  | s, [] => .ok s
  | s, m :: ms =>
      match P.handle side m s.app with
      | .error e => .error e
      | .ok out => handleAll P C side (s.send C side out) ms

def wiredStep (P : Dialogue α ℓ μ ν ε) (C : Codec ω σ μ ν β δ) (s : Wired α ω σ β) :
    WiredStep ℓ → Except (δ ⊕ ε) (Wired α ω σ β)
  | .act side x => .ok (s.send C side (P.act side x s.app))
  | .arrive side n =>
      let l := s.link side
      match C.read l.reader (l.wire.take n) with
      | .error e => .error (.inl e)
      | .ok (reader, ms) =>
          let s := s.send C side (P.hear side n s.app)
          let l := { s.link side with reader, wire := l.wire.drop n }
          match Wired.handleAll P C side { s with link := Function.update s.link side l } ms with
          | .error e => .error (.inr e)
          | .ok s => .ok s

def wired (P : Dialogue α ℓ μ ν ε) (C : Codec ω σ μ ν β δ) (writer : ω) (reader : σ) :
    Machine (Wired α ω σ β) (WiredStep ℓ) (δ ⊕ ε) where
  init := { app := P.init, link := fun _ => { writer, reader } }
  enabled s
    | .act side x => P.may side x s.app
    | .arrive side n => 0 < n ∧ n ≤ (s.link side).wire.length
  step := wiredStep P C

instance (P : Dialogue α ℓ μ ν ε) [∀ side x app, Decidable (P.may side x app)]
    (C : Codec ω σ μ ν β δ) (writer : ω) (reader : σ) (s : Wired α ω σ β) :
    ∀ a, Decidable ((wired P C writer reader).enabled s a)
  | .act side x => inferInstanceAs (Decidable (P.may side x s.app))
  | .arrive _ _ => inferInstanceAs (Decidable (_ ∧ _))

/-! ## Laws -/

/-- A reader that is in step with the writer reads the next message, and is in step again; how
    the stream is cut does not matter. -/
structure Codec.Lawful (C : Codec ω σ μ ν β δ) (Fits : μ → Prop) (Sync : ω → σ → Prop) : Prop where
  read_nil : ∀ s, C.read s [] = .ok (s, [])
  read_append : ∀ s front back, C.read s (front ++ back)
    = C.read s front >>= fun out => C.read out.1 back >>= fun out' =>
        .ok (out'.1, out.2 ++ out'.2)
  read_write : ∀ w s m, Sync w s → Fits m →
    ∃ t, C.read s (C.write w m).2 = .ok (t, [C.meaning m]) ∧ Sync (C.write w m).1 t

/-- In whatever state the machine with the queues reaches, what a party sends fits. -/
structure Dialogue.Sends (P : Dialogue α ℓ μ ν ε) (meaning : μ → ν) (Fits : μ → Prop) : Prop where
  act : ∀ side x t, (exchange P meaning).Reachable t → P.may side x t.app →
    ∀ m ∈ (P.act side x t.app).2, Fits m
  hear : ∀ side n t, (exchange P meaning).Reachable t → ∀ m ∈ (P.hear side n t.app).2, Fits m
  handle : ∀ side m rest t out, (exchange P meaning).Reachable t → t.queue side = m :: rest →
    P.handle side m t.app = .ok out → ∀ m ∈ out.2, Fits m

section Laws

variable {P : Dialogue α ℓ μ ν ε} {C : Codec ω σ μ ν β δ} {Fits : μ → Prop} {Sync : ω → σ → Prop}

/-- A stream holds the rest of its queue. -/
def Link.Holds (C : Codec ω σ μ ν β δ) (Sync : ω → σ → Prop) (l : Link ω σ β) (queue : List ν) :
    Prop :=
  ∃ t, C.read l.reader l.wire = .ok (t, queue) ∧ Sync l.writer t

theorem read_writeAll (hC : C.Lawful Fits Sync) {w : ω} {s : σ} (hsync : Sync w s) {ms : List μ}
    (hms : ∀ m ∈ ms, Fits m) :
    ∃ t, C.read s (C.writeAll w ms).2 = .ok (t, ms.map C.meaning)
      ∧ Sync (C.writeAll w ms).1 t := by
  induction ms generalizing w s with
  | nil => exact ⟨s, hC.read_nil s, hsync⟩
  | cons m ms ih =>
      obtain ⟨t, hread, ht⟩ := hC.read_write w s m hsync (hms m List.mem_cons_self)
      obtain ⟨u, hmore, hu⟩ := ih ht fun x hx => hms x (List.mem_cons_of_mem m hx)
      refine ⟨u, ?_, hu⟩
      simp only [Codec.writeAll, hC.read_append, hread, ok_bind, hmore, List.map_cons,
        List.singleton_append]

/-- What a writer adds to a stream it adds to the queue. -/
theorem Link.Holds.write (hC : C.Lawful Fits Sync) {l : Link ω σ β} {queue : List ν}
    (h : l.Holds C Sync queue) {ms : List μ} (hms : ∀ m ∈ ms, Fits m) :
    Link.Holds C Sync { l with
      writer := (C.writeAll l.writer ms).1
      wire := l.wire ++ (C.writeAll l.writer ms).2 } (queue ++ ms.map C.meaning) := by
  obtain ⟨t, hread, ht⟩ := h
  obtain ⟨u, hmore, hu⟩ := read_writeAll hC ht hms
  refine ⟨u, ?_, hu⟩
  simp only [hC.read_append, hread, ok_bind, hmore]

/-- A piece of a stream is read, and takes its messages off the queue. -/
theorem Link.Holds.read (hC : C.Lawful Fits Sync) {l : Link ω σ β} {queue : List ν}
    (h : l.Holds C Sync queue) (n : Nat) :
    ∃ reader ms rest, C.read l.reader (l.wire.take n) = .ok (reader, ms) ∧ queue = ms ++ rest
      ∧ Link.Holds C Sync { l with reader, wire := l.wire.drop n } rest := by
  obtain ⟨t, hread, ht⟩ := h
  rw [← List.take_append_drop n l.wire, hC.read_append] at hread
  obtain ⟨⟨reader, ms⟩, hfront, hback⟩ := bind_eq_ok hread
  obtain ⟨⟨t', rest⟩, hrest, hout⟩ := bind_eq_ok hback
  cases hout
  exact ⟨reader, ms, rest, hfront, rfl, _, hrest, ht⟩

/-- A state of the streams is one of the queues. -/
structure Refines (P : Dialogue α ℓ μ ν ε) (C : Codec ω σ μ ν β δ) (Sync : ω → σ → Prop)
    (s : Wired α ω σ β) (t : Exchange α ν) : Prop where
  reachable : (exchange P C.meaning).Reachable t
  app : t.app = s.app
  holds : ∀ side, (s.link side).Holds C Sync (t.queue side)

theorem not_ne_self (side : Bool) : (!side) ≠ side := by cases side <;> decide

/-- What a side sends goes to the stream and to the queue of the other side. -/
theorem holds_send (hC : C.Lawful Fits Sync) {s : Wired α ω σ β} {queue : Bool → List ν}
    (hholds : ∀ side, (s.link side).Holds C Sync (queue side)) (side : Bool) {out : α × List μ}
    (hout : ∀ m ∈ out.2, Fits m) (towards : Bool) :
    ((s.send C side out).link towards).Holds C Sync (Function.update queue (!side)
      (queue (!side) ++ out.2.map C.meaning) towards) := by
  simp only [Wired.send]
  by_cases hside : towards = !side
  · subst hside
    rw [Function.update_self, Function.update_self]
    exact (hholds (!side)).write hC hout
  · rw [Function.update_of_ne hside, Function.update_of_ne hside]
    exact hholds towards

/-- A message that a party fails on, in a state that the machine with the queues reaches. -/
def Dialogue.Fails (P : Dialogue α ℓ μ ν ε) (meaning : μ → ν) (side : Bool) (e : ε) : Prop :=
  ∃ t m rest, (exchange P meaning).Reachable t ∧ t.queue side = m :: rest
    ∧ P.handle side m t.app = .error e

/-- The messages of a piece are delivered one after the other. `rest` is what the stream holds
    behind the piece. -/
theorem refines_handleAll (hC : C.Lawful Fits Sync) (hP : P.Sends C.meaning Fits) (side : Bool)
    (rest ms : List ν) :
    ∀ {s : Wired α ω σ β} {t : Exchange α ν},
      (exchange P C.meaning).Reachable t → t.app = s.app →
      t.queue side = ms ++ rest →
      (∀ towards, (s.link towards).Holds C Sync (Function.update t.queue side rest towards)) →
      (∀ s', Wired.handleAll P C side s ms = .ok s' → ∃ t', Refines P C Sync s' t')
        ∧ ∀ e, Wired.handleAll P C side s ms = .error e → P.Fails C.meaning side e := by
  induction ms with
  | nil =>
      intro s t hreach happ hqueue hholds
      refine ⟨fun s' hrun => ?_, fun e hrun => nomatch hrun⟩
      cases hrun
      refine ⟨t, hreach, happ, ?_⟩
      rw [List.nil_append] at hqueue
      rw [← hqueue, Function.update_eq_self] at hholds
      exact hholds
  | cons m ms ih =>
      intro s t hreach happ hqueue hholds
      simp only [Wired.handleAll]
      cases hhandle : P.handle side m s.app with
      | error e =>
          refine ⟨fun s' hrun => (nomatch hrun), fun e' hrun => ?_⟩
          cases hrun
          rw [← happ] at hhandle
          exact ⟨t, m, ms ++ rest, hreach, hqueue, hhandle⟩
      | ok out =>
          rw [← happ] at hhandle
          have hfits := hP.handle side m (ms ++ rest) t out hreach hqueue hhandle
          let t1 : Exchange α ν := { t with queue := Function.update t.queue side (ms ++ rest) }
          have hne := not_ne_self side
          have hstep : (exchange P C.meaning).step t (.deliver side)
              = .ok (t1.send C.meaning side out) := by
            simp only [exchange, exchangeStep, hqueue, List.cons_append, hhandle]
            rfl
          have henabled : (exchange P C.meaning).enabled t (.deliver side) := by
            simp [exchange, hqueue]
          refine ih (hreach.step henabled hstep) rfl ?_ ?_
          · simp only [Exchange.send, t1, Function.update_of_ne hne.symm, Function.update_self]
          · intro towards
            have hsend := holds_send hC hholds side hfits towards
            rw [Function.update_of_ne hne] at hsend
            by_cases htowards : towards = side
            · subst htowards
              rw [Function.update_of_ne hne.symm, Function.update_self] at hsend
              rw [Function.update_self]
              exact hsend
            · rw [Function.update_of_ne htowards]
              simp only [Exchange.send, t1, Function.update_of_ne hne]
              by_cases hother : towards = !side
              · subst hother
                rw [Function.update_self] at hsend ⊢
                exact hsend
              · rw [Function.update_of_ne hother] at hsend ⊢
                rw [Function.update_of_ne htowards] at hsend ⊢
                exact hsend

variable {w : ω} {r : σ}

/-- A piece that arrives is a delivery of its messages. -/
theorem Refines.arrive (hC : C.Lawful Fits Sync) (hP : P.Sends C.meaning Fits)
    {s : Wired α ω σ β} {t : Exchange α ν} (h : Refines P C Sync s t) (side : Bool) (n : Nat) :
    (∀ s', (wired P C w r).step s (.arrive side n) = .ok s' → ∃ t', Refines P C Sync s' t')
      ∧ ∀ e, (wired P C w r).step s (.arrive side n) = .error e →
        ∃ e', e = .inr e' ∧ P.Fails C.meaning side e' := by
  have hfits := hP.hear side n t h.reachable
  rw [h.app] at hfits
  obtain ⟨reader, ms, rest, hread, hqueue, hrest⟩ := (h.holds side).read hC n
  have hstep : (exchange P C.meaning).step t (.hear side n)
      = .ok (t.send C.meaning side (P.hear side n s.app)) := by
    rw [← h.app]
    rfl
  have hreach := h.reachable.step (show (exchange P C.meaning).enabled t (.hear side n) from
    trivial) hstep
  have hne := not_ne_self side
  simp only [wired, wiredStep, hread]
  obtain ⟨hruns, hfails⟩ := refines_handleAll hC hP side rest ms
    (s := { s.send C side (P.hear side n s.app) with
      link := Function.update (s.send C side (P.hear side n s.app)).link side
        { (s.send C side (P.hear side n s.app)).link side with
          reader, wire := (s.link side).wire.drop n } }) hreach rfl
    (by
      simp only [Exchange.send, Function.update_of_ne hne.symm]
      exact hqueue)
    (by
      intro towards
      by_cases htowards : towards = side
      · subst htowards
        simp only [Function.update_self, Wired.send, Function.update_of_ne hne.symm]
        exact hrest
      · simp only [Function.update_of_ne htowards]
        exact holds_send hC h.holds side hfits towards)
  constructor
  · intro s' hrun
    split at hrun <;> cases hrun
    rename_i hall
    exact hruns s' hall
  · intro e hrun
    split at hrun <;> cases hrun
    rename_i hall
    exact ⟨_, rfl, hfails _ hall⟩

/-- One step of the streams is steps of the queues. -/
theorem Refines.step (hC : C.Lawful Fits Sync) (hP : P.Sends C.meaning Fits) {s s' : Wired α ω σ β}
    {t : Exchange α ν} (h : Refines P C Sync s t) {a : WiredStep ℓ}
    (henabled : (wired P C w r).enabled s a) (hrun : (wired P C w r).step s a = .ok s') :
    ∃ t', Refines P C Sync s' t' := by
  cases a with
  | act side x =>
      cases hrun
      have hmay : P.may side x s.app := henabled
      have hfits := hP.act side x t h.reachable (h.app.symm ▸ hmay)
      rw [h.app] at hfits
      have hstep : (exchange P C.meaning).step t (.act side x)
          = .ok (t.send C.meaning side (P.act side x s.app)) := by
        rw [← h.app]
        rfl
      have henabled' : (exchange P C.meaning).enabled t (.act side x) := by
        rw [← h.app] at hmay
        exact hmay
      exact ⟨_, h.reachable.step henabled' hstep, rfl, holds_send hC h.holds side hfits⟩
  | arrive side n => exact (h.arrive hC hP side n).1 s' hrun

/-- A step of the streams fails only where a party fails on its queue; no reader does. -/
theorem Refines.fails (hC : C.Lawful Fits Sync) (hP : P.Sends C.meaning Fits) {s : Wired α ω σ β}
    {t : Exchange α ν} (h : Refines P C Sync s t) {a : WiredStep ℓ} {e : δ ⊕ ε}
    (hrun : (wired P C w r).step s a = .error e) :
    ∃ side e', e = .inr e' ∧ P.Fails C.meaning side e' := by
  cases a with
  | act side x => cases hrun
  | arrive side n => exact ⟨side, (h.arrive hC hP side n).2 e hrun⟩

/-- Every state of the streams is one of the queues. -/
theorem wired_refines (hC : C.Lawful Fits Sync) (hP : P.Sends C.meaning Fits) (hsync : Sync w r)
    {s : Wired α ω σ β} (hs : (wired P C w r).Reachable s) : ∃ t, Refines P C Sync s t := by
  refine Machine.Reachable.invariant (P := fun s => ∃ t, Refines P C Sync s t) ?_ ?_ hs
  · exact ⟨_, .init, rfl, fun _ => ⟨r, hC.read_nil r, hsync⟩⟩
  · rintro s a s' ⟨t, ht⟩ henabled hrun
    exact ht.step hC hP henabled hrun

/-- An empty stream holds no message. -/
theorem Refines.drained (hC : C.Lawful Fits Sync) {s : Wired α ω σ β} {t : Exchange α ν}
    (h : Refines P C Sync s t) {side : Bool} (hwire : (s.link side).wire = []) :
    t.queue side = [] := by
  obtain ⟨u, hread, -⟩ := h.holds side
  rw [hwire, hC.read_nil] at hread
  exact (Prod.mk.inj (Except.ok.inj hread)).2.symm

end Laws

/-! ## Parties that note what they send and get -/

structure Mail (μ ν : Type) where
  sent : Bool → List μ := fun _ => []
  got : Bool → List ν := fun _ => []

/-- Both sides send whatever fits, at any time. -/
def mailing (ν : Type) (Fits : μ → Prop) : Dialogue (Mail μ ν) μ μ ν Empty where
  init := {}
  may _ m _ := Fits m
  act side m s := ({ s with sent := Function.update s.sent side (s.sent side ++ [m]) }, [m])
  hear _ _ s := (s, [])
  handle side m s := .ok ({ s with got := Function.update s.got side (s.got side ++ [m]) }, [])

instance (Fits : μ → Prop) [DecidablePred Fits] (side : Bool) (m : μ) (s : Mail μ ν) :
    Decidable ((mailing ν Fits).may side m s) :=
  inferInstanceAs (Decidable (Fits m))

section Mail

variable {Fits : μ → Prop}

theorem mailing_sends {meaning : μ → ν} : (mailing ν Fits).Sends meaning Fits where
  act _ m _ _ hm x hx := by
    rw [show x = m from List.mem_singleton.mp hx]
    exact hm
  hear _ _ _ _ _ hx := absurd hx List.not_mem_nil
  handle _ _ _ _ out _ _ hout _ hx := by
    cases hout
    exact absurd hx List.not_mem_nil

/-- What was sent to a side is what it got, and what is queued. -/
theorem mailing_history {meaning : μ → ν} {s : Exchange (Mail μ ν) ν}
    (hs : (exchange (mailing ν Fits) meaning).Reachable s) (side : Bool) :
    (s.app.sent (!side)).map meaning = s.app.got side ++ s.queue side := by
  refine Machine.Reachable.invariant (P := fun s : Exchange (Mail μ ν) ν =>
    ∀ side, (s.app.sent (!side)).map meaning = s.app.got side ++ s.queue side) ?_ ?_ hs side
  · exact fun _ => rfl
  · rintro s a t hs - hrun side
    have hside := hs side
    cases a with
    | act sender m =>
        cases hrun
        simp only [Exchange.send, mailing]
        by_cases hsender : side = !sender
        · subst hsender
          rw [Bool.not_not] at hside ⊢
          simp only [Function.update_self, List.map_append, hside, List.append_assoc]
        · have hother : (!side) ≠ sender := fun h => hsender (by rw [← h, Bool.not_not])
          simp only [Function.update_of_ne hsender, Function.update_of_ne hother, hside]
    | hear sender n =>
        cases hrun
        simp only [Exchange.send, mailing, List.map_nil, List.append_nil, Function.update_eq_self]
        exact hside
    | deliver receiver =>
        simp only [exchange, exchangeStep] at hrun
        cases hqueue : s.queue receiver with
        | nil =>
            rw [hqueue] at hrun
            cases hrun
            exact hside
        | cons m rest =>
            rw [hqueue] at hrun
            cases hrun
            simp only [Exchange.send, List.map_nil, List.append_nil,
              Function.update_eq_self]
            by_cases hreceiver : side = receiver
            · subst hreceiver
              rw [hqueue] at hside
              simp only [Function.update_self, hside, List.append_assoc, List.singleton_append]
            · simp only [Function.update_of_ne hreceiver, hside]

/-- Each side gets the messages of the other in their order, each once, and has got them all
    when nothing is under way; no piece is one that a reader fails on. -/
theorem wired_delivers {C : Codec ω σ μ ν β δ} {Sync : ω → σ → Prop} (hC : C.Lawful Fits Sync)
    {w : ω} {r : σ} (hsync : Sync w r) {s : Wired (Mail μ ν) ω σ β}
    (hs : (wired (mailing ν Fits) C w r).Reachable s) :
    (∀ side, s.app.got side <+: (s.app.sent (!side)).map C.meaning
        ∧ ((s.link side).wire = [] → s.app.got side = (s.app.sent (!side)).map C.meaning))
      ∧ ∀ a e, (wired (mailing ν Fits) C w r).step s a ≠ .error e := by
  obtain ⟨t, ht⟩ := wired_refines hC mailing_sends hsync hs
  have happ := ht.app
  refine ⟨fun side => ⟨?_, fun hwire => ?_⟩, fun a e => ?_⟩
  · have hhistory := mailing_history ht.reachable side
    rw [← happ, hhistory]
    exact List.prefix_append _ _
  · have hhistory := mailing_history ht.reachable side
    rw [← happ, hhistory, ht.drained hC hwire, List.append_nil]
  · intro hrun
    obtain ⟨-, e', -, -⟩ := ht.fails hC mailing_sends hrun
    exact e'.elim

end Mail

end SeastarLive
