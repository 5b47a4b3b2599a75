/-
SeastarLive.Rtmp.ServerOutputTheorems — when the server writes in order.

Flushes start in the order of what they take from the cache, so the output is
in order as long as no flush writes ahead of an older one. Nothing in the
server's connection sees to that; the client's runs its writes under a lock.

* `serverOutput_in_order`: along the runs that meet `WritesInTurn`, what was
  written and what is pending is what was queued, and each header that was
  written is followed by its own payload.
* `serverOutput_overtakes`: a run in which two chunks are interleaved.
-/
import SeastarLive.Rtmp.ServerOutput

namespace SeastarLive

/-- A loop writes only when the flushes that started before its own are through. -/
def WritesInTurn (w : ServerOutput) : OutputEvent → Prop
  | .write loop =>
      (w.flights.takeWhile fun flight => flight.loop != loop).all (fun flight => flight.bufs.isEmpty)
        = true
  | _ => True

instance (w : ServerOutput) : ∀ a, Decidable (WritesInTurn w a)
  | .send _ => inferInstanceAs (Decidable True)
  | .flush _ => inferInstanceAs (Decidable True)
  | .write _ => inferInstanceAs (Decidable (_ = _))
  | .finish _ => inferInstanceAs (Decidable True)
  | .stop => inferInstanceAs (Decidable True)

namespace ServerOutput

/-- What was queued and is not written, in the order in which it was queued. -/
def pending (w : ServerOutput) : List (List UInt8) := w.flights.flatMap Flight.bufs ++ w.cache

/-- The invariant of a connection that writes in turn. -/
def Inv (w : ServerOutput) : Prop := w.done = false → w.written ++ w.pending = w.queued

/-- The next buffer of a flush that is through with the older ones is the oldest pending
    buffer. -/
theorem popBuffer_flatMap {loop : LoopId} {flights flights' : List Flight} {buf : List UInt8}
    (hturn : (flights.takeWhile fun flight => flight.loop != loop).all
      (fun flight => flight.bufs.isEmpty) = true)
    (hpop : popBuffer loop flights = some (buf, flights')) :
    flights.flatMap Flight.bufs = buf :: flights'.flatMap Flight.bufs := by
  induction flights generalizing flights' with
  | nil => cases hpop
  | cons flight flights ih =>
      unfold popBuffer at hpop
      split at hpop
      · split at hpop
        · cases hpop
        · rename_i bufs hbufs
          cases hpop
          simp [hbufs]
      · rename_i hloop
        have hne : (flight.loop != loop) = true := by simpa using hloop
        simp only [List.takeWhile_cons, hne, if_true, List.all_cons, Bool.and_eq_true] at hturn
        obtain ⟨⟨buf', rest⟩, hrest, heq⟩ := Option.map_eq_some_iff.mp hpop
        simp only [Prod.mk.injEq] at heq
        obtain ⟨rfl, rfl⟩ := heq
        have hempty : flight.bufs = [] := List.isEmpty_iff.mp hturn.1
        simp [hempty, ih hturn.2 hrest]

theorem erase_flatMap (loop : LoopId) (flights : List Flight) :
    (flights.erase ⟨loop, []⟩).flatMap Flight.bufs = flights.flatMap Flight.bufs := by
  induction flights with
  | nil => rfl
  | cons flight flights ih =>
      by_cases hflight : flight = ⟨loop, []⟩
      · simp [hflight]
      · rw [List.erase_cons_tail (by simpa using hflight), List.flatMap_cons, ih,
          List.flatMap_cons]

/-- Each step that is in turn keeps the invariant. -/
theorem Inv.step {w t : ServerOutput} (hw : w.Inv) {a : OutputEvent} (ha : WritesInTurn w a)
    (hrun : w.step a = .ok t) : t.Inv := by
  cases a with
  | send chunk =>
      cases hrun
      intro hdone
      have h := hw hdone
      unfold pending queued at h ⊢
      simp only [List.flatMap_append, List.flatMap_singleton, ← List.append_assoc] at h ⊢
      rw [h]
  | flush loop =>
      cases hrun
      unfold flushOut
      split
      · rename_i hskip
        intro hdone
        have hdone' : w.done = false := hdone
        have hcache : w.cache = [] := by simpa [hdone'] using hskip
        have h := hw hdone'
        rw [pending, hcache] at h
        exact h
      · intro hdone
        have h := hw hdone
        unfold pending queued at h ⊢
        simpa using h
  | write loop =>
      cases hrun
      unfold writeBuffer
      split
      · exact hw
      · rename_i buf flights hpop
        intro hdone
        have hdone' : w.done = false := hdone
        have h := hw hdone'
        have hflat := popBuffer_flatMap ha hpop
        unfold pending queued at h ⊢
        rw [hflat] at h
        simpa [hdone'] using h
  | finish loop =>
      cases hrun
      intro hdone
      have h := hw hdone
      unfold pending at h ⊢
      simp only [erase_flatMap]
      exact h
  | stop =>
      cases hrun
      intro hdone
      cases hdone

end ServerOutput

/-! ## Chunks -/

/-- Whole chunks were written, and at most the header of the next one. -/
def Framed (written : List (List UInt8)) (sends : List Chunk) : Prop :=
  ∃ whole rest, sends = whole ++ rest
    ∧ (written = whole.flatMap Chunk.buffers
        ∨ ∃ chunk, rest.head? = some chunk ∧ chunk.header ≠ [] ∧ chunk.payload ≠ []
            ∧ written = whole.flatMap Chunk.buffers ++ [chunk.header])

/-- A beginning of the buffers of a chunk. -/
theorem Chunk.prefix_buffers {c : Chunk} {xs : List (List UInt8)} (h : xs <+: c.buffers) :
    xs = [] ∨ xs = c.buffers ∨ c.header ≠ [] ∧ c.payload ≠ [] ∧ xs = [c.header] := by
  unfold Chunk.buffers at h ⊢
  by_cases hheader : c.header = []
  · by_cases hpayload : c.payload = []
    · simp only [hheader, hpayload, if_true, List.append_nil, List.prefix_nil] at h
      exact .inl h
    · simp only [hheader, hpayload, if_true, if_false, List.nil_append, List.prefix_cons_iff,
        List.prefix_nil] at h ⊢
      rcases h with h | ⟨t, h, rfl⟩
      · exact .inl h
      · exact .inr (.inl h)
  · by_cases hpayload : c.payload = []
    · simp only [hheader, hpayload, if_true, if_false, List.append_nil, List.prefix_cons_iff,
        List.prefix_nil] at h ⊢
      rcases h with h | ⟨t, h, rfl⟩
      · exact .inl h
      · exact .inr (.inl h)
    · simp only [hheader, hpayload, if_false, List.cons_append, List.nil_append,
        List.prefix_cons_iff, List.prefix_nil] at h ⊢
      rcases h with h | ⟨t, h, rfl | ⟨t', rfl, rfl⟩⟩
      · exact .inl h
      · exact .inr (.inr ⟨hheader, hpayload, h⟩)
      · exact .inr (.inl h)

/-- A beginning of the buffers of chunks is whole chunks and at most one header. -/
theorem framed_of_prefix {sends : List Chunk} {written : List (List UInt8)}
    (h : written <+: sends.flatMap Chunk.buffers) : Framed written sends := by
  induction sends generalizing written with
  | nil =>
      have hnil : written = [] := List.prefix_nil.mp h
      exact ⟨[], [], rfl, .inl hnil⟩
  | cons c sends ih =>
      rw [List.flatMap_cons] at h
      rcases List.prefix_or_prefix_of_prefix h (List.prefix_append c.buffers _) with hc | ⟨xs, rfl⟩
      · rcases Chunk.prefix_buffers hc with hnil | hall | ⟨hheader, hpayload, hone⟩
        · exact ⟨[], c :: sends, rfl, .inl hnil⟩
        · exact ⟨[c], sends, rfl, .inl (by simp [hall])⟩
        · exact ⟨[], c :: sends, rfl, .inr ⟨c, rfl, hheader, hpayload, hone⟩⟩
      · obtain ⟨whole, rest, rfl, hwritten⟩ := ih ((List.prefix_append_right_inj _).mp h)
        refine ⟨c :: whole, rest, rfl, ?_⟩
        rcases hwritten with rfl | ⟨chunk, hhead, hheader, hpayload, rfl⟩
        · exact .inl (by simp)
        · exact .inr ⟨chunk, hhead, hheader, hpayload, by simp⟩

/-! ## Runs -/

/-- Along the runs whose writes are in turn, what was written is what was queued, up to
    what is pending, and the chunks are not torn. -/
theorem serverOutput_in_order (w : ServerOutput)
    (hw : (serverOutput.restrict WritesInTurn).Reachable w) (hdone : w.done = false) :
    w.written ++ w.pending = w.queued ∧ Framed w.written w.sends := by
  have hinv : w.Inv := by
    refine hw.invariant (P := ServerOutput.Inv) (fun _ => rfl) ?_
    intro s a t hs ⟨_, ha⟩ hrun
    exact hs.step ha hrun
  have hall := hinv hdone
  exact ⟨hall, framed_of_prefix ⟨w.pending, hall⟩⟩

instance (w : ServerOutput) (a : OutputEvent) : Decidable (serverOutput.enabled w a) :=
  inferInstanceAs (Decidable (w.Enabled a))

instance (w : ServerOutput) (a : OutputEvent) :
    Decidable ((serverOutput.restrict WritesInTurn).enabled w a) :=
  inferInstanceAs (Decidable (w.Enabled a ∧ WritesInTurn w a))

/-- Two loops that flush one after the other. -/
theorem serverOutput_in_order_two :
    ∃ w, (serverOutput.restrict WritesInTurn).Reachable w
      ∧ (w.done = false ∧ w.written = [[1], [2], [3]])
      ∧ w.written ++ w.pending = w.queued ∧ Framed w.written w.sends := by
  obtain ⟨w, hw, hwritten⟩ := Machine.reachable_of_runs
    (M := serverOutput.restrict WritesInTurn)
    (p := fun w => decide (w.done = false ∧ w.written = [[1], [2], [3]]))
    [.send ⟨[1], [2]⟩, .flush .input, .write .input, .send ⟨[3], [4]⟩, .flush .output,
      .write .input, .write .output]
    (by decide +kernel)
  have hwritten' := of_decide_eq_true hwritten
  exact ⟨w, hw, hwritten', serverOutput_in_order w hw hwritten'.1⟩

/-- The output loop writes the header of its chunk between a header and a payload of the
    input loop. -/
theorem serverOutput_overtakes :
    ¬ ∀ w, serverOutput.Reachable w → w.done = false → w.written <+: w.queued := by
  intro hall
  obtain ⟨w, hw, htorn⟩ := Machine.reachable_of_runs (M := serverOutput)
    (p := fun w => decide (w.done = false ∧ w.written = [[1], [3]]
      ∧ w.queued = [[1], [2], [3], [4]]))
    [.send ⟨[1], [2]⟩, .flush .input, .write .input, .send ⟨[3], [4]⟩, .flush .output,
      .write .output]
    (by decide +kernel)
  obtain ⟨hdone, hwritten, hqueued⟩ := of_decide_eq_true htorn
  have hprefix := hall w hw hdone
  rw [hwritten, hqueued] at hprefix
  revert hprefix
  decide

end SeastarLive
