/-
SeastarLive.Session.PlaySessionTheorems — a player writes the stream it received.

Until its loop ends, an RTMP or HTTP-FLV player is a reader (`Lib.HeaderStream`)
of the frames it received that pass its media mask: what it wrote, the
metadata in its `pipe_state`, and the frames in its batch, its future and its
queue together make up that stream, with each frame under the metadata it had
there. `Player.Inv` says so, and each step of the player keeps it.

From it, `loopStep_spec`: a write can only fault on a frame that was received
under no metadata or under metadata that disables it, or on a script frame.
-/
import SeastarLive.Frame.FrameQueueTheorems
import SeastarLive.Session.PlaySession

namespace SeastarLive

open Flv HeaderStream

namespace Player

/-! ## The stream of a player -/

/-- The batch being written. -/
def batch (p : Player) : List Frame :=
  match p.loop with
  | .writing frames => frames
  | _ => []

/-- The frames that left the queue and are not written yet. -/
def held (p : Player) : List Frame := p.batch ++ p.future.getD []

/-- Whether a frame passes the media mask. -/
def wants (p : Player) : Frame → Bool
  | .media media => p.allowMediaType media.mediaType
  | .metadata _ => true
  | .script _ => true

/-- The mask is all that decides. -/
theorem wants_congr {p q : Player} (h : q.mediaType = p.mediaType) (f : Frame) :
    q.wants f = p.wants f := by
  cases f with
  | media media => simp only [wants, allowMediaType, h]
  | metadata metadata => rfl
  | script script => rfl

/-- The frames received that pass the media mask. -/
def wanted (p : Player) : List Frame := p.received.filter p.wants

/-- The metadata of `pipe_state`, as a frame. -/
def header (p : Player) : Option Frame := p.pipe.map Frame.metadata

/-- What was written, each frame with the metadata frame of `pipe_state`. -/
def emitted (p : Player) : List (Option Frame × Frame) :=
  p.written.map fun x => (x.1.map Frame.metadata, x.2)

/-- The reader a player is. -/
def Reads (p : Player) : Prop :=
  Reader Frame.isMetadata p.emitted p.header (p.held ++ p.queue.base.queue) p.wanted

/-- The invariant of a player. -/
structure Inv (p : Player) : Prop where
  detached : p.loop = .detached → p.received = [] ∧ p.written = [] ∧ p.pipe = none
    ∧ p.future = none ∧ p.queue = {}
  reads : p.kind ≠ .hls → p.loop ≠ .ended → p.Reads
  emitted_mem : p.kind ≠ .hls → ∀ x ∈ p.emitted, x ∈ stamp Frame.isMetadata none p.wanted
  promise : p.queue.notEmpty = true → p.loop ≠ .ended → p.loop = .waiting ∧ p.future = none
  future_none : p.loop ≠ .waiting → p.loop ≠ .ended → p.future = none
  ended : p.loop = .ended → p.impl.isComplete = true
  pub : p.pub = false → p.loop = .ended

theorem Inv.init (kind : PlayerKind) (mediaType : MediaType) :
    Inv { kind, mediaType } where
  detached := fun _ => ⟨rfl, rfl, rfl, rfl, rfl⟩
  reads := fun _ _ => Reader.start Frame.isMetadata
  emitted_mem := fun _ x hx => by cases hx
  promise := fun h => by cases h
  future_none := fun _ _ => rfl
  ended := fun h => by cases h
  pub := fun h => by cases h

/-! ## Completion -/

/-- Changing the session state only keeps the invariant, if completion stays. -/
theorem Inv.setImpl {p : Player} (hp : p.Inv) {impl : SessionImpl}
    (himpl : p.impl.isComplete = true → impl.isComplete = true) :
    Inv { p with impl } where
  detached := hp.detached
  reads := hp.reads
  emitted_mem := hp.emitted_mem
  promise := hp.promise
  future_none := hp.future_none
  ended := fun h => himpl (hp.ended h)
  pub := hp.pub

/-- Closing the queue gives a waiting loop an empty batch. -/
theorem Inv.closeQueue {p : Player} (hp : p.Inv) : Inv (p.settle p.queue.close) := by
  cases hpromise : p.queue.notEmpty with
  | false =>
      have heq : p.settle p.queue.close = p := by
        simp [settle, AsyncFrameQueue.close, hpromise]
      rwa [heq]
  | true =>
      have heq : p.settle p.queue.close
          = { p with queue := { p.queue with notEmpty := false }, future := some [] } := by
        simp [settle, AsyncFrameQueue.close, hpromise]
      rw [heq]
      refine ⟨?_, ?_, hp.emitted_mem, (fun h => by cases h), ?_, hp.ended, hp.pub⟩
      · intro hloop
        obtain ⟨-, -, -, -, hqueue⟩ := hp.detached hloop
        rw [hqueue] at hpromise
        cases hpromise
      · intro hkind hloop
        obtain ⟨-, hfuture⟩ := hp.promise hpromise hloop
        have hreads := hp.reads hkind hloop
        unfold Reads held at hreads
        rw [hfuture] at hreads
        exact hreads
      · intro hwaiting hloop
        exact absurd (hp.promise hpromise hloop).1 hwaiting

theorem Inv.complete {p : Player} (hp : p.Inv) (how : Completion) :
    Inv (p.complete how) := by
  unfold Player.complete
  split
  · exact hp
  · exact (hp.setImpl fun _ => SessionImpl.isComplete_complete p.impl how).closeQueue

/-- Ending the loop of a complete player keeps the invariant. -/
theorem Inv.endLoop {p : Player} (hp : p.Inv) (hcomplete : p.impl.isComplete = true) :
    Inv { p with loop := .ended } where
  detached := fun h => by cases h
  reads := fun _ h => absurd rfl h
  emitted_mem := hp.emitted_mem
  promise := fun _ h => absurd rfl h
  future_none := fun _ h => absurd rfl h
  ended := fun _ => hcomplete
  pub := fun _ => rfl

theorem Inv.onTimeout {p : Player} (hp : p.Inv) : Inv p.onTimeout :=
  (hp.setImpl fun _ => SessionImpl.isComplete_onTimeout p.impl).closeQueue.endLoop
    (SessionImpl.isComplete_onTimeout p.impl)

theorem Inv.onTerminate {p : Player} (hp : p.Inv) (hended : p.loop = .ended) :
    Inv p.onTerminate :=
  ⟨hp.detached, hp.reads, hp.emitted_mem, hp.promise, hp.future_none, hp.ended,
    fun _ => hended⟩

@[simp] theorem complete_isComplete (p : Player) (how : Completion) :
    (p.complete how).impl.isComplete = true := by
  unfold Player.complete
  split
  · assumption
  · exact SessionImpl.isComplete_complete p.impl how

theorem finish_isComplete {p : Player} : p.finish.impl.isComplete = true := by
  unfold finish
  split
  · rename_i hflags
    cases hc : p.impl.canceled <;> cases ht : p.impl.timeout <;> cases hf : p.impl.failed <;>
      simp_all [SessionImpl.isComplete]
  · exact complete_isComplete p .done

theorem Inv.finish {p : Player} (hp : p.Inv) : Inv p.finish := by
  have hcomplete := finish_isComplete (p := p)
  unfold Player.finish at hcomplete ⊢
  split
  · rename_i hflags
    rw [if_pos hflags] at hcomplete
    exact hp.endLoop hcomplete
  · exact (hp.complete .done).endLoop (complete_isComplete p .done)

/-! ## What stays -/

@[simp] theorem settle_received (p : Player) (r : AsyncFrameQueue × Option (List Frame)) :
    (p.settle r).received = p.received := rfl

@[simp] theorem complete_received (p : Player) (how : Completion) :
    (p.complete how).received = p.received := by
  unfold Player.complete
  split <;> rfl

@[simp] theorem complete_loop (p : Player) (how : Completion) :
    (p.complete how).loop = p.loop := by
  unfold Player.complete
  split <;> rfl

@[simp] theorem complete_kind (p : Player) (how : Completion) :
    (p.complete how).kind = p.kind := by
  unfold Player.complete
  split <;> rfl

@[simp] theorem complete_pub (p : Player) (how : Completion) :
    (p.complete how).pub = p.pub := by
  unfold Player.complete
  split <;> rfl

/-! ## Frames from the publisher -/

theorem skips_eq (p : Player) (f : Frame) : p.skips f = .ok !p.wants f := by
  cases f <;> rfl

theorem Inv.not_ended {p : Player} (hp : p.Inv) (hc : p.impl.isComplete = false) :
    p.loop ≠ .ended := by
  intro hend
  have hcomplete := hp.ended hend
  rw [hc] at hcomplete
  cases hcomplete

/-- Receiving a frame the mask stops does not change the stream that is read. -/
theorem Inv.skip {p : Player} (hp : p.Inv) (hloop : p.loop ≠ .detached) {f : Frame}
    (hf : p.wants f = false) : Inv { p with received := p.received ++ [f] } := by
  have hwanted : wanted { p with received := p.received ++ [f] } = p.wanted := by
    have hf' : wants { p with received := p.received ++ [f] } f = false :=
      (wants_congr rfl f).trans hf
    simp only [wanted, List.filter_append, List.filter_cons, List.filter_nil, hf']
    simp only [Bool.false_eq_true, if_false, List.append_nil]
    rfl
  refine ⟨fun h => absurd h hloop, ?_, ?_, hp.promise, hp.future_none, hp.ended, hp.pub⟩
  · intro hkind hend
    unfold Reads
    rw [hwanted]
    exact hp.reads hkind hend
  · rw [hwanted]
    exact hp.emitted_mem

/-- Queueing a frame the mask lets pass adds it to the stream that is read. -/
theorem Inv.enqueue {p : Player} (hp : p.Inv) (hc : p.impl.isComplete = false)
    (hloop : p.loop ≠ .detached) {f : Frame} (hf : p.wants f = true) (g : GlobalSettings) :
    Inv (enqueue { p with received := p.received ++ [f] } g f) := by
  have hwanted : wanted { p with queue := p.queue.pushBack f, received := p.received ++ [f] }
      = p.wanted ++ [f] := by
    have hf' : wants { p with queue := p.queue.pushBack f, received := p.received ++ [f] } f
        = true := (wants_congr rfl f).trans hf
    simp only [wanted, List.filter_append, List.filter_cons, List.filter_nil]
    rw [if_pos hf']
    rfl
  have hq : Inv { p with queue := p.queue.pushBack f, received := p.received ++ [f] } := by
    refine ⟨fun h => absurd h hloop, ?_, ?_, hp.promise, hp.future_none, hp.ended, hp.pub⟩
    · intro hkind _
      have hreads := (hp.reads hkind (hp.not_ended hc)).push f
      rw [← FrameQueue.pushBack_queue] at hreads
      unfold Reads
      rw [hwanted]
      exact hreads
    · intro hkind x hx
      rw [hwanted]
      exact stamp_mem_mono (List.prefix_append _ _) (hp.emitted_mem hkind x hx)
  unfold Player.enqueue
  dsimp only
  split
  · exact hq
  · exact hq.complete .canceled

@[simp] theorem enqueue_received (p : Player) (g : GlobalSettings) (f : Frame) :
    (p.enqueue g f).received = p.received := by
  unfold Player.enqueue
  dsimp only
  split
  · rfl
  · exact complete_received _ _

@[simp] theorem enqueue_loop (p : Player) (g : GlobalSettings) (f : Frame) :
    (p.enqueue g f).loop = p.loop := by
  unfold Player.enqueue
  dsimp only
  split
  · rfl
  · exact complete_loop _ _

@[simp] theorem enqueue_kind (p : Player) (g : GlobalSettings) (f : Frame) :
    (p.enqueue g f).kind = p.kind := by
  unfold Player.enqueue
  dsimp only
  split
  · rfl
  · exact complete_kind _ _

@[simp] theorem enqueue_pub (p : Player) (g : GlobalSettings) (f : Frame) :
    (p.enqueue g f).pub = p.pub := by
  unfold Player.enqueue
  dsimp only
  split
  · rfl
  · exact complete_pub _ _

/-- What a step of the player leaves of its input: `q` is `p` after a step that received
    the frames `fs`. -/
structure Keeps (p q : Player) (fs : List Frame) : Prop where
  received : q.received = p.received ++ fs
  kind : q.kind = p.kind
  pub : q.pub = p.pub
  detached : q.loop = .detached ↔ p.loop = .detached
  complete : p.impl.isComplete = true → q.impl.isComplete = true

theorem Keeps.refl (p : Player) : Keeps p p [] := by
  refine ⟨by simp, rfl, rfl, Iff.rfl, id⟩

theorem onFrameRtmp_spec {p : Player} (hp : p.Inv) (hc : p.impl.isComplete = false)
    (hloop : p.loop ≠ .detached) {f : Frame} (hf : f.isScript = false) (g : GlobalSettings) :
    ∃ q, onFrameRtmp { p with received := p.received ++ [f] } g f = .ok q ∧ q.Inv
      ∧ Keeps p q [f] := by
  unfold onFrameRtmp
  simp only [skips_eq, ok_bind]
  cases hw : p.wants f with
  | false =>
      have hw' : wants { p with received := p.received ++ [f] } f = false :=
        (wants_congr rfl f).trans hw
      rw [hw']
      exact ⟨_, rfl, hp.skip hloop hw, ⟨rfl, rfl, rfl, Iff.rfl, by simp [hc]⟩⟩
  | true =>
      have hw' : wants { p with received := p.received ++ [f] } f = true :=
        (wants_congr rfl f).trans hw
      rw [hw']
      cases f with
      | media m =>
          have himpl : Inv { p with impl := p.impl.onMedia m } := hp.setImpl id
          exact ⟨_, rfl, himpl.enqueue (f := .media m) hc hloop hw g,
            ⟨by simp, by simp, by simp, by simp, by simp [hc]⟩⟩
      | metadata m =>
          exact ⟨_, rfl, hp.enqueue hc hloop hw g,
            ⟨by simp, by simp, by simp, by simp, by simp [hc]⟩⟩
      | script s => cases hf

theorem onFrameFlv_spec {p : Player} (hp : p.Inv) (hc : p.impl.isComplete = false)
    (hloop : p.loop ≠ .detached) {f : Frame} (hf : f.isScript = false) (g : GlobalSettings) :
    ∃ q, onFrameFlv { p with received := p.received ++ [f] } g f = .ok q ∧ q.Inv
      ∧ Keeps p q [f] := by
  unfold onFrameFlv
  simp only [skips_eq, ok_bind]
  cases hw : p.wants f with
  | false =>
      have hw' : wants { p with received := p.received ++ [f] } f = false :=
        (wants_congr rfl f).trans hw
      rw [hw']
      exact ⟨_, rfl, hp.skip hloop hw, ⟨rfl, rfl, rfl, Iff.rfl, by simp [hc]⟩⟩
  | true =>
      have hw' : wants { p with received := p.received ++ [f] } f = true :=
        (wants_congr rfl f).trans hw
      rw [hw']
      obtain ⟨impl, himpl, hcomplete⟩ := SessionImpl.onFrame_ok
        (s := (enqueue { p with received := p.received ++ [f] } g f).impl) hf
      simp only [Bool.not_true, Bool.false_eq_true, if_false, himpl, ok_bind]
      exact ⟨_, rfl, (hp.enqueue hc hloop hw g).setImpl (by simp [hcomplete]),
        ⟨by simp, by simp, by simp, by simp, by simp [hc]⟩⟩

/-- `on_frame` takes every frame but a script frame without a fault; a complete player
    ignores it. -/
theorem pushFrame_spec {p : Player} (hp : p.Inv) (hloop : p.loop ≠ .detached) {f : Frame}
    (hf : f.isScript = false) (g : GlobalSettings) :
    ∃ q, p.pushFrame g f = .ok q ∧ q.Inv
      ∧ Keeps p q (if p.impl.isComplete then [] else [f]) := by
  unfold Player.pushFrame
  cases hc : p.impl.isComplete with
  | true => exact ⟨p, by simp, hp, by simpa using Keeps.refl p⟩
  | false =>
      have hpub : (!p.pub || false) = false := by
        cases hpub : p.pub with
        | true => rfl
        | false => exact absurd (hp.pub hpub) (hp.not_ended hc)
      simp only [hpub, Bool.false_eq_true, if_false]
      split
      · exact onFrameRtmp_spec hp hc hloop hf g
      · exact onFrameFlv_spec hp hc hloop hf g
      · exact onFrameFlv_spec hp hc hloop hf g

theorem Inv.notify {p : Player} (hp : p.Inv) : p.notify.Inv ∧ Keeps p p.notify [] := by
  unfold Player.notify
  split
  · exact ⟨hp, Keeps.refl p⟩
  · rename_i hc
    have hend := hp.not_ended (Bool.eq_false_iff.mpr hc)
    unfold AsyncFrameQueue.notifyNotEmpty
    split
    · exact ⟨hp, Keeps.refl p⟩
    · split
      · rename_i hne hpromise
        obtain ⟨hwaiting, hfuture⟩ := hp.promise hpromise hend
        refine ⟨⟨?_, ?_, hp.emitted_mem, (fun h => by cases h), ?_, hp.ended, hp.pub⟩,
          ⟨by simp [settle], rfl, rfl, Iff.rfl, id⟩⟩
        · intro hdetached
          rw [show p.loop = .detached from hdetached] at hwaiting
          cases hwaiting
        · intro hkind _
          have hreads := hp.reads hkind hend
          unfold Reads held batch at hreads ⊢
          rw [hwaiting, hfuture] at hreads
          simp only [settle, hwaiting, FrameQueue.popAll, Option.some_or, Option.getD_some,
            List.nil_append, List.append_nil]
          exact hreads
        · intro hwait _
          exact absurd hwaiting hwait
      · exact ⟨hp, Keeps.refl p⟩

/-! ## The write loop -/

/-- How writing a media frame under the metadata of `pipe_state` can fault. -/
def WriteFault (pipe : Option Metadata) (media : Media) (e : Fault) : Prop :=
  match pipe with
  | none => e = .assertion .writeMedia
  | some metadata =>
      metadata.enables media.mediaType = false
        ∧ e = .assertion (if media.isVideo then .tagHeaderVideo else .tagHeaderAudio)

/-- Reading the metadata at the head of the batch. -/
theorem Inv.writeMetadata {p : Player} (hp : p.Inv) {m : Metadata} {fs : List Frame}
    (hloop : p.loop = .writing (.metadata m :: fs)) :
    Inv { p with pipe := some m, loop := .writing fs } := by
  have hend : p.loop ≠ .ended := by simp [hloop]
  have hwait : p.loop ≠ .waiting := by simp [hloop]
  refine ⟨(fun h => by cases h), ?_, hp.emitted_mem, ?_, ?_, (fun h => by cases h), ?_⟩
  · intro hkind _
    have hreads := hp.reads hkind hend
    unfold Reads held batch at hreads
    rw [hloop] at hreads
    exact hreads.header rfl
  · intro hpromise _
    exact absurd (hp.promise hpromise hend).1 hwait
  · intro _ _
    exact hp.future_none hwait hend
  · intro hpub
    exact absurd (hp.pub hpub) hend

/-- Writing the body frame at the head of the batch. -/
theorem Inv.writeBody {p : Player} (hp : p.Inv) {f : Frame} {fs : List Frame}
    (hloop : p.loop = .writing (f :: fs)) (hf : f.isMetadata = false) :
    Inv { p.record f with loop := .writing fs } := by
  have hend : p.loop ≠ .ended := by simp [hloop]
  have hwait : p.loop ≠ .waiting := by simp [hloop]
  have hemitted : emitted { p.record f with loop := .writing fs }
      = p.emitted ++ [(p.header, f)] := by
    simp [emitted, record, header]
  refine ⟨(fun h => by cases h), ?_, ?_, ?_, ?_, (fun h => by cases h), ?_⟩
  · intro hkind _
    have hreads := hp.reads hkind hend
    unfold Reads held batch at hreads
    rw [hloop] at hreads
    unfold Reads
    rw [hemitted]
    exact hreads.body hf
  · intro hkind x hx
    rw [hemitted, List.mem_append, List.mem_singleton] at hx
    rcases hx with hx | rfl
    · exact hp.emitted_mem hkind x hx
    · have hreads := hp.reads hkind hend
      unfold Reads held batch at hreads
      rw [hloop] at hreads
      exact hreads.next_mem hf
  · intro hpromise _
    exact absurd (hp.promise hpromise hend).1 hwait
  · intro _ _
    exact hp.future_none hwait hend
  · intro hpub
    exact absurd (hp.pub hpub) hend

/-- The body frame about to be written is one of the stream, under the metadata of
    `pipe_state`. -/
theorem Inv.head_mem {p : Player} (hp : p.Inv) (hkind : p.kind ≠ .hls) {f : Frame}
    {fs : List Frame} (hloop : p.loop = .writing (f :: fs)) (hf : f.isMetadata = false) :
    (p.header, f) ∈ stamp Frame.isMetadata none p.wanted := by
  have hreads := hp.reads hkind (by simp [hloop])
  unfold Reads held batch at hreads
  rw [hloop] at hreads
  exact hreads.next_mem hf

theorem mem_received_of_stamp {p : Player} {x : Option Frame × Frame}
    (hx : x ∈ stamp Frame.isMetadata none p.wanted) : x.2 ∈ p.received :=
  (List.mem_filter.mp (mem_of_stamp hx)).1

/-- A media frame is written, or the write faults on the metadata of `pipe_state`. -/
theorem writeMedia_cases (p : Player) (media : Media) :
    p.writeMedia (.media media) = .ok (p.record (.media media))
      ∨ ∃ e, p.writeMedia (.media media) = .error e ∧ WriteFault p.pipe media e := by
  unfold Player.writeMedia
  cases hpipe : p.pipe with
  | none => exact .inr ⟨_, rfl, rfl⟩
  | some metadata =>
      rcases media.toTagData_cases metadata with ⟨-, body, hbody⟩ | ⟨hoff, herror⟩
      · exact .inl (by simp [hbody])
      · exact .inr ⟨_, by simp [herror], hoff, rfl⟩

/-- Moving the loop on without touching frames keeps the invariant. -/
theorem Inv.advance {p : Player} (hp : p.Inv) (hend : p.loop ≠ .ended)
    (hwait : p.loop ≠ .waiting) {loop : Loop} (hloop : loop ≠ .ended)
    (hloop' : loop ≠ .detached) (hbatch : p.kind ≠ .hls → batch { p with loop } = p.batch) :
    Inv { p with loop } := by
  have hpromise : p.queue.notEmpty = false := by
    refine Bool.eq_false_iff.mpr fun h => hwait (hp.promise h hend).1
  refine ⟨fun h => absurd h hloop', ?_, hp.emitted_mem, ?_, ?_, fun h => absurd h hloop, ?_⟩
  · intro hkind _
    have hreads := hp.reads hkind hend
    unfold Reads held at hreads ⊢
    rw [hbatch hkind]
    exact hreads
  · intro h _
    rw [show p.queue.notEmpty = true from h] at hpromise
    cases hpromise
  · intro _ _
    exact hp.future_none hwait hend
  · intro hpub
    exact absurd (hp.pub hpub) hend

/-- The loop waits for the queue. -/
theorem Inv.wait {p : Player} (hp : p.Inv) (hloop : p.loop = .checking) :
    Inv { p.settle p.queue.waitNotEmpty with loop := .waiting } := by
  have hend : p.loop ≠ .ended := by simp [hloop]
  have hfuture := hp.future_none (by simp [hloop]) hend
  have hpromise : p.queue.notEmpty = false := by
    refine Bool.eq_false_iff.mpr fun h => ?_
    have hwaiting := (hp.promise h hend).1
    rw [hloop] at hwaiting
    cases hwaiting
  have hpub : p.pub = false → False := fun h => hend (hp.pub h)
  unfold AsyncFrameQueue.waitNotEmpty
  cases hclosed : p.queue.closed with
  | true =>
      refine ⟨(fun h => by cases h), ?_, hp.emitted_mem, ?_, (fun h => absurd rfl h),
        (fun h => by cases h), fun h => (hpub h).elim⟩
      · intro hkind _
        have hreads := hp.reads hkind hend
        unfold Reads held batch at hreads
        rw [hloop, hfuture] at hreads
        exact hreads
      · intro h _
        simp only [settle, if_true] at h
        rw [hpromise] at h
        cases h
  | false =>
      refine ⟨(fun h => by cases h), ?_, hp.emitted_mem, ?_, (fun h => absurd rfl h),
        (fun h => by cases h), fun h => (hpub h).elim⟩
      · intro hkind _
        have hreads := hp.reads hkind hend
        unfold Reads held batch at hreads ⊢
        rw [hloop] at hreads
        simp only [settle, Bool.false_eq_true, if_false, Option.none_or]
        exact hreads
      · intro _ _
        refine ⟨rfl, ?_⟩
        simp only [settle, Bool.false_eq_true, if_false, Option.none_or]
        exact hfuture

/-- The loop takes the batch of its future. -/
theorem Inv.take {p : Player} (hp : p.Inv) (hloop : p.loop = .waiting) {fs : List Frame}
    (hfuture : p.future = some fs) :
    Inv { p with loop := .writing fs, future := none } := by
  have hend : p.loop ≠ .ended := by simp [hloop]
  refine ⟨(fun h => by cases h), ?_, hp.emitted_mem, ?_, (fun _ _ => rfl),
    (fun h => by cases h), fun h => absurd (hp.pub h) hend⟩
  · intro hkind _
    have hreads := hp.reads hkind hend
    unfold Reads held batch at hreads ⊢
    rw [hloop, hfuture] at hreads
    simp only [List.nil_append, Option.getD_some, Option.getD_none, List.append_nil]
      at hreads ⊢
    exact hreads
  · intro hpromise _
    have hnone := (hp.promise hpromise hend).2
    rw [hfuture] at hnone
    cases hnone

/-- Writing the frame at the head of the batch of a player that received no script
    frame: it moves the stream on, or it faults on that frame. -/
theorem writeFrame_spec {p : Player} (hp : p.Inv)
    (hs : ∀ f ∈ p.received, f.isScript = false) {f : Frame} {fs : List Frame}
    (hloop : p.loop = .writing (f :: fs)) :
    (∃ q, p.writeFrame f = .ok q ∧ Inv { q with loop := .writing fs }
        ∧ (q.received = p.received ∧ q.kind = p.kind ∧ q.pub = p.pub) ∧ q.impl = p.impl)
      ∨ p.kind ≠ .hls ∧ ∃ media e, p.writeFrame f = .error e
          ∧ (p.header, .media media) ∈ stamp Frame.isMetadata none p.wanted
          ∧ WriteFault p.pipe media e := by
  by_cases hkind : p.kind = .hls
  · refine .inl ⟨p, ?_, ?_, ⟨rfl, rfl, rfl⟩, rfl⟩
    · simp only [writeFrame, hkind, writeFrameHls]
      split
      · rfl
      · cases f <;> rfl
    · exact hp.advance (by simp [hloop]) (by simp [hloop]) (by simp) (by simp)
        fun h => absurd hkind h
  · cases f with
    | metadata m =>
        refine .inl ⟨{ p with pipe := some m }, ?_, hp.writeMetadata hloop,
          ⟨rfl, rfl, rfl⟩, rfl⟩
        cases hk : p.kind with
        | rtmp => simp [writeFrame, hk, writeFrameRtmp]
        | httpFlv => simp [writeFrame, hk, writeFrameFlv]
        | hls => exact absurd hk hkind
    | script s =>
        have hmem := mem_received_of_stamp (hp.head_mem hkind hloop rfl)
        exact absurd (hs _ hmem) (by simp)
    | media media =>
        have hrun : p.writeFrame (.media media) = p.writeMedia (.media media) := by
          cases hk : p.kind with
          | rtmp => simp [writeFrame, hk, writeFrameRtmp]
          | httpFlv => simp [writeFrame, hk, writeFrameFlv]
          | hls => exact absurd hk hkind
        rw [hrun]
        rcases p.writeMedia_cases media with hok | ⟨e, herror, hfault⟩
        · exact .inl ⟨_, hok, hp.writeBody hloop rfl, ⟨rfl, rfl, rfl⟩, rfl⟩
        · exact .inr ⟨hkind, media, e, herror, hp.head_mem hkind hloop rfl, hfault⟩

theorem Keeps.of_complete (p : Player) (how : Completion) : Keeps p (p.complete how) [] :=
  ⟨by simp, by simp, by simp, by simp, by simp⟩

/-- One step of the loop of a player that received no script frame: it keeps the
    invariant, or it faults on a frame it received. -/
theorem loopStep_spec {p : Player} (hp : p.Inv)
    (hs : ∀ f ∈ p.received, f.isScript = false) :
    (∃ q, p.loopStep = .ok q ∧ q.Inv ∧ Keeps p q [])
      ∨ p.kind ≠ .hls ∧ ∃ media e, p.loopStep = .error e
          ∧ (p.header, .media media) ∈ stamp Frame.isMetadata none p.wanted
          ∧ WriteFault p.pipe media e := by
  unfold loopStep
  cases hloop : p.loop with
  | detached => exact .inl ⟨p, rfl, hp, Keeps.refl p⟩
  | ended => exact .inl ⟨p, rfl, hp, Keeps.refl p⟩
  | checking =>
      dsimp only
      split
      · refine .inl ⟨_, rfl, hp.finish, ?_⟩
        unfold finish
        split
        · exact ⟨by simp, rfl, rfl, by simp [hloop], id⟩
        · exact ⟨by simp, by simp, by simp, by simp [hloop], by simp⟩
      · exact .inl ⟨_, rfl, hp.wait hloop, ⟨by simp, rfl, rfl, by simp [hloop], id⟩⟩
  | waiting =>
      dsimp only
      split
      · exact .inl ⟨p, rfl, hp, Keeps.refl p⟩
      · rename_i hfuture
        have hend : p.loop ≠ .ended := by simp [hloop]
        have hpromise : p.queue.notEmpty = false := by
          refine Bool.eq_false_iff.mpr fun h => ?_
          have hnone := (hp.promise h hend).2
          rw [hfuture] at hnone
          cases hnone
        -- the promise was fulfilled, so closing the queue here gives no second batch
        have heq : { p.complete .done with loop := .checking, future := none }
            = Player.complete { p with loop := .checking, future := none } .done := by
          unfold Player.complete
          split <;> simp [settle, AsyncFrameQueue.close, hpromise]
        have hchecking : Inv { p with loop := .checking, future := none } :=
          (hp.take hloop hfuture).advance (by simp) (by simp) (by simp) (by simp)
            fun _ => rfl
        refine .inl ⟨_, rfl, heq ▸ hchecking.complete .done, ?_⟩
        exact ⟨by simp, by simp, by simp, by simp [hloop], by simp⟩
      · rename_i fs _ hfuture
        exact .inl ⟨_, rfl, hp.take hloop hfuture,
          ⟨by simp, rfl, rfl, by simp [hloop], id⟩⟩
  | writing frames =>
      have hend : p.loop ≠ .ended := by simp [hloop]
      cases frames with
      | nil =>
          refine .inl ⟨_, rfl, hp.advance hend (by simp [hloop]) (by simp) (by simp)
            (by simp [batch, hloop]), ?_⟩
          exact ⟨by simp, rfl, rfl, by simp [hloop], id⟩
      | cons f fs =>
          dsimp only
          rcases writeFrame_spec hp hs hloop with
            ⟨q, hrun, hq, hkeeps, hcomplete⟩ | ⟨hkind, media, e, hrun, hfault⟩
          · refine .inl ⟨_, by rw [hrun]; rfl, hq, ?_⟩
            exact ⟨by simp [hkeeps.1], hkeeps.2.1, hkeeps.2.2, by simp [hloop],
              by simp [hcomplete]⟩
          · exact .inr ⟨hkind, media, e, by rw [hrun]; rfl, hfault⟩

/-! ## Start and failure -/

/-- A player starts with an empty stream, or faults on a publisher without metadata. -/
theorem onBegin_spec {p : Player} (hp : p.Inv) (hloop : p.loop = .detached)
    (pub : SessionImpl) :
    (∃ q, p.onBegin pub = .ok q ∧ q.Inv ∧ q.received = [] ∧ q.loop ≠ .detached)
      ∨ p.onBegin pub = .error .nullMeta := by
  obtain ⟨hreceived, hwritten, hpipe, hfuture, hqueue⟩ := hp.detached hloop
  have hbegin : ∀ impl : SessionImpl,
      Inv { p with impl, queue := p.queue.clear, loop := .checking } := by
    intro impl
    refine ⟨(fun h => by cases h), ?_, ?_, ?_, (fun _ _ => hfuture), (fun h => by cases h), ?_⟩
    · intro _ _
      simpa [Reads, emitted, header, held, batch, wanted, hreceived, hwritten, hpipe, hfuture,
        hqueue, AsyncFrameQueue.clear, FrameQueue.clear] using Reader.start Frame.isMetadata
    · intro _ x hx
      simp [emitted, hwritten] at hx
    · intro hpromise _
      simp [AsyncFrameQueue.clear, hqueue] at hpromise
    · intro hpub
      have hend := hp.pub hpub
      rw [hloop] at hend
      cases hend
  unfold onBegin
  dsimp only
  split
  · exact .inl ⟨_, rfl, hbegin _, hreceived, by simp⟩
  · unfold SessionImpl.copyMeta
    cases pub.sessionMeta with
    | none => exact .inr rfl
    | some metadata => exact .inl ⟨_, rfl, hbegin _, hreceived, by simp⟩

theorem Inv.writeFails {p : Player} (hp : p.Inv) {fs : List Frame}
    (hloop : p.loop = .writing fs) (st : Status) :
    (p.writeFails st).Inv ∧ Keeps p (p.writeFails st) [] := by
  unfold Player.writeFails
  split
  · rename_i hkind
    refine ⟨hp.advance (by simp [hloop]) (by simp [hloop]) (by simp) (by simp)
      fun h => absurd hkind h, ⟨by simp, rfl, rfl, by simp [hloop], id⟩⟩
  · refine ⟨(hp.complete _).finish, ?_⟩
    unfold Player.finish
    split
    · exact ⟨by simp, by simp, by simp, by simp [hloop], by simp⟩
    · exact ⟨by simp, by simp, by simp, by simp [hloop], by simp⟩

theorem Keeps.of_onTimeout (p : Player) (hloop : p.loop = .waiting) :
    Keeps p p.onTimeout [] :=
  ⟨by simp [onTimeout], rfl, rfl, by simp [onTimeout, hloop],
    fun _ => SessionImpl.isComplete_onTimeout p.impl⟩

end Player

end SeastarLive
