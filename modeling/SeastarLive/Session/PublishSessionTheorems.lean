/-
SeastarLive.Session.PublishSessionTheorems — which packets stop the process.

A script packet whose command is neither `onMetaData` nor `|RtmpSampleAccess`
becomes a script frame, and `validate_frame` reads the media of every frame
that is not metadata. `publishing_derefs` says that this is the only way to a
null dereference: along the runs that meet `AvoidsScripts` there is none, and
a packet that does not meet it faults in whatever state it arrives.
-/
import SeastarLive.Session.BroadcastRuns
import SeastarLive.Session.MediaHandlers

namespace SeastarLive

open Flv

/-- Whether a pointer was followed that the frame does not carry. -/
def Flv.Fault.isNullDeref : Fault → Bool
  | .nullMedia => true
  | .nullMetadata => true
  | .nullMeta => false
  | .assertion _ => false

/-- A script packet with a command other than `onMetaData` and `|RtmpSampleAccess`, and
    with data behind its name. -/
def Packet.carriesScript (pkt : Packet) : Bool :=
  pkt.type == .script && match parseAmfCommand pkt.data with
    | some (cmd, _ :: _) => cmd != .metaData && cmd != .rtmpSampleAccess
    | _ => false

/-- A packet that carries a script only comes to a session that is complete, or is too
    large to be looked at. -/
def AvoidsScripts (g : GlobalSettings) (s : PublishSession) : PublishEvent → Prop
  | .packet pkt => s.world.pub.impl.isComplete = true
      ∨ PublishSession.validatePacket g pkt = false ∨ pkt.carriesScript = false
  | .other _ => True

instance (g : GlobalSettings) (s : PublishSession) : ∀ a, Decidable (AvoidsScripts g s a)
  | .packet _ => inferInstanceAs (Decidable (_ ∨ _ ∨ _))
  | .other _ => inferInstanceAs (Decidable True)

namespace PublishSession

/-! ## Handlers -/

section Handlers

variable (loader : Loader) (metadata : Option Metadata)

/-- A handler that follows no null pointer and makes no script frame. -/
def Clean : Except Fault Received → Prop
  | .error e => e.isNullDeref = false
  | .ok (.frame f) => f.isScript = false
  | .ok _ => True

theorem Clean.assert {a : Assertion} {b : Bool} {k : Except Fault Received} (hk : Clean k) :
    Clean (assert a b >>= fun _ => k) := by
  cases b with
  | true => exact hk
  | false => rfl

theorem videoTagHeaderRead_error {buf : List UInt8} {e : Fault}
    (h : videoTagHeaderRead buf = .error e) : e = .assertion .tagHeaderRead := by
  unfold videoTagHeaderRead at h
  split at h
  · cases h
    rfl
  · dsimp only at h
    split at h
    · split at h
      · rename_i b₁ _ _ _ _
        cases hb : b₁.toNat == flvSequenceHeader || b₁.toNat == flvAvPacket
          || b₁.toNat == flvEndOfSequence with
        | true => simp [hb] at h
        | false =>
            simp only [hb, assert_false, error_bind, Except.error.injEq] at h
            exact h.symm
      · cases h
    · cases h

theorem audioTagHeaderRead_error {buf : List UInt8} {e : Fault}
    (h : audioTagHeaderRead buf = .error e) : e = .assertion .tagHeaderRead := by
  unfold audioTagHeaderRead at h
  split at h
  · cases h
    rfl
  · dsimp only at h
    split at h
    · split at h
      · cases h
        rfl
      · rename_i b₁ _
        cases hb : b₁.toNat == flvSequenceHeader || b₁.toNat == flvAvPacket with
        | true => simp [hb] at h
        | false =>
            simp only [hb, assert_false, error_bind, Except.error.injEq] at h
            exact h.symm
    · cases h

theorem onLoaded_clean {α : Type} (what : String) (put : α → Metadata) (r : LoadResult α) :
    Clean (onLoaded what put r) := by
  cases r with
  | loaded a => rfl
  | malformed rt => trivial
  | aborts => rfl

theorem onRecvTag_clean {H : Type} {read : Except Fault (Option (H × Nat))}
    (hread : ∀ e, read = .error e → e.isNullDeref = false) (unreadable : List Char)
    (avpacket : H → Nat) {load : H → List UInt8 → Except Fault Received}
    (hload : ∀ header payload, Clean (load header payload)) (media : H → List UInt8 → Media)
    (pkt : Packet) : Clean (onRecvTag read unreadable avpacket load media metadata pkt) := by
  unfold onRecvTag
  refine Clean.assert ?_
  cases hfound : read with
  | error e => exact hread e hfound
  | ok found =>
      simp only [ok_bind]
      split
      · trivial
      · split
        · trivial
        · split
          · exact hload _ _
          · split <;> trivial

theorem onRecvVideo_clean (pkt : Packet) : Clean (onRecvVideo loader metadata pkt) := by
  rw [onRecvVideo_eq]
  refine onRecvTag_clean metadata ?_ _ _ (fun _ _ => onLoaded_clean _ _ _) _ pkt
  intro e hread
  rw [videoTagHeaderRead_error hread]
  rfl

theorem onRecvAudio_clean (pkt : Packet) : Clean (onRecvAudio loader metadata pkt) := by
  rw [onRecvAudio_eq]
  refine onRecvTag_clean metadata ?_ _ _ (fun _ _ => onLoaded_clean _ _ _) _ pkt
  intro e hread
  rw [audioTagHeaderRead_error hread]
  rfl

theorem onRecvScript_clean {pkt : Packet} (htype : pkt.type = .script)
    (hpkt : pkt.carriesScript = false) : Clean (onRecvScript loader metadata pkt) := by
  unfold onRecvScript
  refine Clean.assert ?_
  split
  · trivial
  · trivial
  · split <;> trivial
  · split <;> trivial
  · rename_i cmd b rest hmeta haccess hparse
    exfalso
    simp only [Packet.carriesScript, htype, hparse, beq_self_eq_true, Bool.true_and] at hpkt
    cases cmd with
    | metaData => exact hmeta rfl
    | rtmpSampleAccess => exact haccess rfl
    | _ => cases hpkt

/-- A packet that carries no script makes no script frame, and no handler follows a null
    pointer. -/
theorem handlePacket_clean {pkt : Packet} (hpkt : pkt.carriesScript = false) :
    Clean (handlePacket loader metadata pkt) := by
  unfold handlePacket
  split
  · rename_i htype
    exact onRecvScript_clean loader metadata htype hpkt
  · exact onRecvVideo_clean loader metadata pkt
  · exact onRecvAudio_clean loader metadata pkt

/-- A packet that carries a script makes a script frame. -/
theorem handlePacket_script {pkt : Packet} (hpkt : pkt.carriesScript = true) :
    ∃ script, handlePacket loader metadata pkt = .ok (.frame (.script script)) := by
  simp only [Packet.carriesScript, Bool.and_eq_true, beq_iff_eq] at hpkt
  obtain ⟨htype, hcmd⟩ := hpkt
  split at hcmd
  · rename_i cmd b rest hparse
    have hsize : (pkt.size != 0) = true := by
      cases hdata : pkt.data with
      | nil => simp [hdata, parseAmfCommand, parseCommandName] at hparse
      | cons x xs => simp [Packet.size, hdata]
    cases cmd <;> simp [handlePacket, htype, onRecvScript, hsize, hparse] at hcmd ⊢
  · cases hcmd

end Handlers

/-! ## Frames -/

@[simp] theorem rectifyDts_world (s : PublishSession) (f : Frame) :
    (s.rectifyDts f).1.world = s.world := by
  cases f <;> rfl

@[simp] theorem rectifyDts_isScript (s : PublishSession) (f : Frame) :
    (s.rectifyDts f).2.isScript = f.isScript := by
  cases f <;> rfl

/-- `add_frame` takes any frame but a script frame. -/
theorem addFrame_ok {s : PublishSession} (hs : s.world.Inv)
    (hphase : s.world.pub.phase = .idle) {f : Frame} (hf : f.isScript = false) :
    ∃ t, s.addFrame f = .ok t ∧ t.world.Inv := by
  obtain ⟨pub, hrun, hpub⟩ := hs.recv hphase (f := (s.rectifyDts f).2) (by simpa using hf)
  refine ⟨{ (s.rectifyDts f).1 with world := { s.world with pub } }, ?_, hpub⟩
  simp [addFrame, hrun]

theorem addFrame_script {s : PublishSession} {f : Frame} (hf : f.isScript = true) :
    s.addFrame f = .error .nullMedia := by
  have hrun := Publisher.recv_script (w := s.world.pub) (f := (s.rectifyDts f).2)
    (by simpa using hf)
  simp [addFrame, hrun]

/-- Adding a frame that is no script ends well, or in the size assertion. -/
theorem addFrameTo_spec {s : PublishSession} (hs : s.world.Inv)
    (hphase : s.world.pub.phase = .idle) {f : Frame} (hf : f.isScript = false) :
    (∃ t, s.addFrameTo f = .ok t ∧ t.world.Inv)
      ∨ s.addFrameTo f = .error (.assertion .addFrameSize) := by
  cases f with
  | script x => cases hf
  | media media =>
      cases hsize : media.size != 0 with
      | false => exact .inr (by simp [addFrameTo, hsize])
      | true =>
          obtain ⟨t, hrun, ht⟩ := addFrame_ok hs hphase hf
          exact .inl ⟨t, by simp [addFrameTo, hsize, hrun], ht⟩
  | metadata m =>
      unfold addFrameTo
      dsimp only
      split
      · exact .inl ⟨s, rfl, hs⟩
      · split
        · exact .inl ⟨_, rfl, hs⟩
        · exact .inl (addFrame_ok (s := { s with metadata := some m, headerSent := false }) hs
            hphase hf)

theorem recvFails_inv {s : PublishSession} (hs : s.world.Inv)
    (hphase : s.world.pub.phase = .idle) (what : List Char) : (s.recvFails what).world.Inv := by
  refine hs.setPub (hs.pub.endLoop hphase _) rfl rfl ?_
  intro i
  rw [hphase]
  rfl

/-! ## Packets -/

/-- A packet that meets the condition follows no null pointer. -/
theorem onRecvPacket_spec {s : PublishSession} (hs : s.world.Inv)
    (hphase : s.world.pub.phase = .idle) (g : GlobalSettings) (loader : Loader) {pkt : Packet}
    (hpkt : AvoidsScripts g s (.packet pkt)) :
    (∃ t, s.onRecvPacket g loader pkt = .ok t ∧ t.world.Inv)
      ∨ ∃ e, s.onRecvPacket g loader pkt = .error e ∧ e.isNullDeref = false := by
  unfold onRecvPacket
  split
  · exact .inl ⟨s, rfl, hs⟩
  · rename_i hopen
    split
    · exact .inl ⟨_, rfl, recvFails_inv hs hphase _⟩
    · rename_i hvalid
      have hnone : pkt.carriesScript = false := by
        rcases hpkt with hcomplete | hlarge | hnone
        · exact absurd hcomplete hopen
        · simp [hlarge] at hvalid
        · exact hnone
      have hclean := handlePacket_clean loader s.metadata hnone
      cases hrun : handlePacket loader s.metadata pkt with
      | error e =>
          rw [hrun] at hclean
          exact .inr ⟨e, rfl, hclean⟩
      | ok r =>
          rw [hrun] at hclean
          simp only [ok_bind]
          cases r with
          | ready => exact .inl ⟨s, rfl, hs⟩
          | exception what => exact .inl ⟨_, rfl, recvFails_inv hs hphase what⟩
          | frame f =>
              rcases addFrameTo_spec hs hphase hclean with hok | herror
              · exact .inl hok
              · exact .inr ⟨_, herror, rfl⟩

/-- A packet that does not meet it is a null dereference, in every state. -/
theorem onRecvPacket_script {s : PublishSession} {g : GlobalSettings} (loader : Loader)
    {pkt : Packet} (hpkt : ¬ AvoidsScripts g s (.packet pkt)) :
    s.onRecvPacket g loader pkt = .error .nullMedia := by
  simp only [AvoidsScripts, not_or, Bool.not_eq_true, Bool.not_eq_false] at hpkt
  obtain ⟨hopen, hvalid, hscript⟩ := hpkt
  obtain ⟨script, hrun⟩ := handlePacket_script loader s.metadata hscript
  have hadd : s.addFrame (.script script) = .error .nullMedia := addFrame_script rfl
  simp [onRecvPacket, hopen, hvalid, hrun, addFrameTo, hadd]

/-! ## Runs -/

/-- A step that meets the condition keeps the invariant, or stops the process otherwise
    than by a null dereference. -/
theorem step_spec {s : PublishSession} (hs : s.world.Inv) (g : GlobalSettings)
    (loader : Loader) {a : PublishEvent} (henabled : s.Enabled a) (ha : AvoidsScripts g s a) :
    (∃ t, s.step g loader a = .ok t ∧ t.world.Inv)
      ∨ ∃ e, s.step g loader a = .error e ∧ e.isNullDeref = false := by
  cases a with
  | packet pkt => exact onRecvPacket_spec hs henabled g loader ha
  | other e =>
      obtain ⟨hrecv, henabled⟩ := henabled
      rcases hs.step_spec g henabled with ⟨world, hrun, hworld⟩ | ⟨fault, hrun, hfault⟩
      · exact .inl ⟨{ s with world }, by simp only [step, hrun, ok_bind], hworld⟩
      · refine .inr ⟨fault, by simp only [step, hrun, error_bind], ?_⟩
        cases hfault with
        | script hf => cases hrecv
        | settings d => rfl
        | noMeta i => rfl
        | write hkind hmem hwrite =>
            unfold Player.WriteFault at hwrite
            split at hwrite
            · rw [hwrite]
              rfl
            · rw [hwrite.2]
              rfl

end PublishSession

section Runs

variable (g : GlobalSettings) (loader : Loader) (roles : Nat → PlayerKind × MediaType)

/-- Along the runs whose steps meet `AvoidsScripts`, no pointer is followed that a frame
    does not carry; and a packet that does not meet it follows one. -/
theorem publishing_derefs :
    (∀ s, ((publishing g loader roles).restrict (AvoidsScripts g)).Reachable s →
        ∀ a e, s.Enabled a → AvoidsScripts g s a → s.step g loader a = .error e →
          e.isNullDeref = false)
      ∧ ∀ (s : PublishSession) a, ¬ AvoidsScripts g s a →
          s.step g loader a = .error .nullMedia := by
  constructor
  · intro s hs a e henabled ha hrun
    refine (hs.invariant_of_spec (P := fun s => s.world.Inv)
      (F := fun _ _ e => e.isNullDeref = false) (Broadcast.Inv.init g roles) ?_).2
      a e ⟨henabled, ha⟩ hrun
    intro s a hs ⟨henabled, ha⟩
    exact PublishSession.step_spec hs g loader henabled ha
  · intro s a ha
    cases a with
    | packet pkt => exact PublishSession.onRecvPacket_script loader ha
    | other e => exact absurd trivial ha

end Runs

/-- A script packet with the command `x` and one more byte. -/
def scriptPacket : Packet := { type := .script, data := [2, 0, 1, 120, 5] }

/-- Loaders that know no codec and no metadata. -/
def strictLoader : Loader where
  metadata _ _ := .aborts
  video _ _ _ := .malformed (-1)
  audio _ _ _ := .malformed (-1)

/-- A `|RtmpSampleAccess` packet. -/
def sampleAccessPacket : Packet where
  type := .script
  data := [2, 0, 17] ++ ("|RtmpSampleAccess".toList.map fun c => UInt8.ofNat c.toNat) ++ [1, 1]

theorem scriptPacket_not_avoided :
    ¬ AvoidsScripts {} (publishing {} strictLoader fun _ => (.rtmp, .all)).init
      (.packet scriptPacket) := by
  decide

instance (g : GlobalSettings) (loader : Loader) (roles : Nat → PlayerKind × MediaType)
    (s : PublishSession) (a : PublishEvent) :
    Decidable (((publishing g loader roles).restrict (AvoidsScripts g)).enabled s a) :=
  inferInstanceAs (Decidable (s.Enabled a ∧ AvoidsScripts g s a))

/-- A session that took one script packet and failed on the next. -/
theorem publishing_derefs_failed :
    ∃ s, ((publishing {} strictLoader fun _ => (.rtmp, .all)).restrict
        (AvoidsScripts {})).Reachable s
      ∧ s.world.pub.impl.failed = true
      ∧ (∀ a e, s.Enabled a → AvoidsScripts {} s a → s.step {} strictLoader a = .error e →
          e.isNullDeref = false)
      ∧ (publishing {} strictLoader fun _ => (.rtmp, .all)).init.step {} strictLoader
          (.packet scriptPacket) = .error .nullMedia := by
  obtain ⟨s, hs, hfailed⟩ := Machine.reachable_of_runs
    (M := (publishing {} strictLoader fun _ => (.rtmp, .all)).restrict (AvoidsScripts {}))
    (p := fun s => s.world.pub.impl.failed)
    [.packet sampleAccessPacket, .packet { type := .script, data := [2] }]
    (by decide +kernel)
  obtain ⟨hnone, hfault⟩ := publishing_derefs {} strictLoader fun _ => (.rtmp, .all)
  exact ⟨s, hs, hfailed, hnone s hs, hfault _ _ scriptPacket_not_avoided⟩

/-- The five bytes of a script packet stop the process. -/
theorem publishing_derefs_script :
    ¬ ∀ s, (publishing {} strictLoader fun _ => (.rtmp, .all)).Reachable s →
      ∀ a e, s.Enabled a → s.step {} strictLoader a = .error e → e.isNullDeref = false := by
  intro hall
  have hfault := hall _ .init (.packet scriptPacket) .nullMedia rfl
    (PublishSession.onRecvPacket_script strictLoader scriptPacket_not_avoided)
  cases hfault

end SeastarLive
