/-
SeastarLive.Hls.WriteOnce — a batch of frames and the exceptions that are ignored.

`write_once` of `src/session/hls/play_session.cc`: `do_for_each` passes the
frames of a batch to `do_write_frame` one after the other and ends with the
first exception, thrown or in a future. `handle_exception` is outside of the
loop, so that what ends there is the batch.

The first half is about a loop over any writer; `do_write_frame` is put in for it
in the second half.
-/
import SeastarLive.Hls.PlaySessionV3Theorems

namespace SeastarLive

open Flv

/-! ## A loop that ends with the first failure -/

section Batch

variable {σ φ : Type} (write : σ → φ → Except σ σ)

/-- `do_for_each`; a failure comes with the state in which it happened. -/
def doForEach (s : σ) : List φ → Except σ σ
  | [] => .ok s
  | frame :: rest =>
      match write s frame with
      | .ok t => doForEach t rest
      | .error t => .error t

/-- The frames that the loop passes on. -/
def passedOn (s : σ) : List φ → List φ
  | [] => []
  | frame :: rest =>
      frame :: match write s frame with
        | .ok t => passedOn t rest
        | .error _ => []

/-- The frames that fail, marked with `true`, if all are passed on. -/
def failing (s : σ) : List φ → List Bool
  | [] => []
  | frame :: rest =>
      match write s frame with
      | .ok t => false :: failing t rest
      | .error t => true :: failing t rest

/-- The frames are passed on in order and once, and all of them that do not fail are. -/
structure OthersPassed (s : σ) (batch : List φ) : Prop where
  inOrder : passedOn write s batch <+: batch
  others : ∀ i : Nat, (failing write s batch)[i]? = some false →
    i < (passedOn write s batch).length

variable {write} {s t : σ} {frame : φ} {rest : List φ}

theorem passedOn_isPrefix (s : σ) (batch : List φ) : passedOn write s batch <+: batch := by
  induction batch generalizing s with
  | nil => exact List.nil_prefix
  | cons frame rest ih =>
      rw [passedOn, List.prefix_cons_inj]
      split
      · exact ih _
      · exact List.nil_prefix

theorem othersPassed_ok (h : write s frame = .ok t) :
    OthersPassed write s (frame :: rest) ↔ OthersPassed write t rest := by
  have hpassed : passedOn write s (frame :: rest) = frame :: passedOn write t rest := by
    rw [passedOn, h]
  have hfailing : failing write s (frame :: rest) = false :: failing write t rest := by
    rw [failing, h]
  constructor
  · rintro ⟨-, hothers⟩
    refine ⟨passedOn_isPrefix t rest, fun i hi => ?_⟩
    have hlt := hothers (i + 1) (by rw [hfailing, List.getElem?_cons_succ, hi])
    rw [hpassed, List.length_cons] at hlt
    omega
  · rintro ⟨-, hothers⟩
    refine ⟨passedOn_isPrefix s _, fun i hi => ?_⟩
    rw [hpassed, List.length_cons]
    rw [hfailing] at hi
    cases i with
    | zero => omega
    | succ i =>
        have hlt := hothers i hi
        omega

theorem othersPassed_error (h : write s frame = .error t) :
    OthersPassed write s (frame :: rest) ↔ ∀ b ∈ failing write t rest, b = true := by
  have hpassed : passedOn write s (frame :: rest) = [frame] := by
    rw [passedOn, h]
  have hfailing : failing write s (frame :: rest) = true :: failing write t rest := by
    rw [failing, h]
  constructor
  · rintro ⟨-, hothers⟩ b hb
    obtain ⟨i, hi⟩ := List.mem_iff_getElem?.mp hb
    cases b with
    | true => rfl
    | false =>
        have hlt := hothers (i + 1) (by rw [hfailing, List.getElem?_cons_succ, hi])
        rw [hpassed, List.length_singleton] at hlt
        omega
  · intro hall
    refine ⟨passedOn_isPrefix s _, fun i hi => ?_⟩
    rw [hpassed, List.length_singleton]
    rw [hfailing] at hi
    cases i with
    | zero => omega
    | succ i => cases hall false (List.mem_of_getElem? hi)

/-- The other frames are passed on exactly if none of them comes after one that fails. -/
theorem othersPassed_iff_pairwise (s : σ) (batch : List φ) :
    OthersPassed write s batch
      ↔ (failing write s batch).Pairwise fun a b => a = true → b = true := by
  induction batch generalizing s with
  | nil => exact iff_of_true ⟨List.nil_prefix, nofun⟩ .nil
  | cons frame rest ih =>
      cases h : write s frame with
      | ok t =>
          rw [othersPassed_ok h, ih t, failing, h, List.pairwise_cons]
          simp
      | error t =>
          rw [othersPassed_error h, failing, h, List.pairwise_cons]
          constructor
          · intro hall
            refine ⟨fun b hb _ => hall b hb, List.pairwise_of_forall_mem_list ?_⟩
            exact fun _ _ b hb _ => hall b hb
          · rintro ⟨hall, -⟩ b hb
            exact hall b hb rfl

end Batch

/-! ## The frames of an HLS player -/

namespace HlsSession

variable (converter : TsConverter) (directory : List Char)

/-- `do_write_frame`, with what the muxer and the files do for the frame. -/
def writeFrame (s : HlsSession) (frame : Frame × WriteOutcome) : Except HlsSession HlsSession :=
  s.doWriteFrame converter directory frame.1 frame.2

/-- `write_once`. -/
def writeOnce (s : HlsSession) (batch : List (Frame × WriteOutcome)) : HlsSession :=
  settled (doForEach (writeFrame converter directory) s batch)

/-- A batch is the frames passed on, one step of the session after the other. -/
theorem writeOnce_eq_foldl (s : HlsSession) (batch : List (Frame × WriteOutcome)) :
    writeOnce converter directory s batch
      = (passedOn (writeFrame converter directory) s batch).foldl
          (fun s frame => settled (writeFrame converter directory s frame)) s := by
  unfold writeOnce
  induction batch generalizing s with
  | nil => rfl
  | cons frame rest ih =>
      rw [passedOn, List.foldl_cons, doForEach]
      cases writeFrame converter directory s frame with
      | ok t => exact ih t
      | error t => rfl

/-- A batch that is passed on as a whole does what its frames do one by one. -/
theorem writeOnce_eq_of_passedOn {s : HlsSession} {batch : List (Frame × WriteOutcome)}
    (h : (passedOn (writeFrame converter directory) s batch).length = batch.length) :
    writeOnce converter directory s batch
      = batch.foldl (fun s frame => settled (writeFrame converter directory s frame)) s := by
  rw [writeOnce_eq_foldl, (passedOn_isPrefix s batch).eq_of_length h]

/-- In any state and for any batch, the other frames are passed to `do_write_frame` exactly if
    no frame that it can write comes after one for which it fails. -/
theorem write_once_passes_others_iff (s : HlsSession) (batch : List (Frame × WriteOutcome)) :
    OthersPassed (writeFrame converter directory) s batch
      ↔ (failing (writeFrame converter directory) s batch).Pairwise
          fun a b => a = true → b = true :=
  othersPassed_iff_pairwise s batch

/-- An MP3 frame, for which there is no stream, and a video frame behind it. -/
theorem write_once_drops_others :
    ¬ ∀ (converter : TsConverter) (directory : List Char) (start : Int) (deleteDelay : Bool)
      (s : HlsSession), (hlsSession converter directory start deleteDelay).Reachable s →
      ∀ batch, OthersPassed (writeFrame converter directory) s batch := by
  intro hall
  obtain ⟨s, hreach, hs⟩ := Machine.reachable_of_runs
    (M := hlsSession singleNalUnit "d".toList 0 true)
    (p := fun s => decide (failing (writeFrame singleNalUnit "d".toList) s
        [(.media { isVideo := false, dts := 0, data := [1] }, {}), (.media (slice true 0), {})]
      = [true, false]
      ∧ (passedOn (writeFrame singleNalUnit "d".toList) s
        [(.media { isVideo := false, dts := 0, data := [1] }, {}),
          (.media (slice true 0), {})]).length = 1))
    [.write (.metadata (avcMp3 0x42)) {}] (by decide +kernel)
  obtain ⟨hfailing, hpassed⟩ := of_decide_eq_true hs
  have hlt := (hall _ _ _ _ s hreach _).others 1 (by rw [hfailing]; rfl)
  rw [hpassed] at hlt
  exact Nat.lt_irrefl 1 hlt

end HlsSession

end SeastarLive
