/-
SeastarLive.Session.MediaHandlers — what the two media handlers share.

`on_recv_video` and `on_recv_audio` read a header of their own, and do the
same with what is behind it: `onRecvTag` is that part, and says what becomes
of a packet for both of them.
-/
import SeastarLive.Session.PublishSession

namespace SeastarLive

open Flv

namespace PublishSession

/-! ## The handler -/

/-- A handler of media packets with its header read: `load` takes the payload of a sequence
    header, `media` that of any other packet. -/
def onRecvTag {H : Type} (read : Except Fault (Option (H × Nat))) (unreadable : List Char)
    (avpacket : H → Nat) (load : H → List UInt8 → Except Fault Received)
    (media : H → List UInt8 → Media) (metadata : Option Metadata) (pkt : Packet) :
    Except Fault Received := do
  assert .packetSize (pkt.size != 0)
  match ← read with
  | none => .ok (.exception unreadable)
  | some (header, n) =>
      let payload := pkt.data.drop n
      if payload.isEmpty then .ok .ready
      else if avpacket header = flvSequenceHeader then load header payload
      else if metadata.isNone then .ok .ready
      else .ok (.frame (.media (media header payload)))

/-- What becomes of a load, with the text of the exception. -/
def onLoaded {α : Type} (what : String) (put : α → Metadata) :
    LoadResult α → Except Fault Received
  | .aborts => .error (.assertion .metadataLoad)
  | .malformed rt => .ok (.exception (what ++ toString rt).toList)
  | .loaded a => .ok (.frame (.metadata (put a)))

section

variable (loader : Loader) (metadata : Option Metadata) (pkt : Packet)

theorem onRecvVideo_eq : onRecvVideo loader metadata pkt
    = onRecvTag (videoTagHeaderRead pkt.data) "failed to read flv video header: -1".toList
        VideoTagHeader.avpacket
        (fun header payload => onLoaded "failed to parse video header: "
          (fun video => { metadata.getD {} with video })
          (loader.video (metadata.getD {}).video header.codecid payload))
        (fun header payload =>
          { isVideo := true
            isKeyframe := header.keyframe == 1
            dts := pkt.dts
            cts := (header.cts % 18446744073709551616).toNat
            data := payload })
        metadata pkt := by
  unfold onRecvVideo onRecvTag
  cases videoTagHeaderRead pkt.data with
  | error e => rfl
  | ok read =>
      cases read with
      | none => rfl
      | some read =>
          simp only [ok_bind]
          cases loader.video (metadata.getD {}).video read.1.codecid (pkt.data.drop read.2) <;> rfl

theorem onRecvAudio_eq : onRecvAudio loader metadata pkt
    = onRecvTag (audioTagHeaderRead pkt.data) "failed to read flv audio header: -1".toList
        AudioTagHeader.avpacket
        (fun header payload => onLoaded "failed to parse audio header: "
          (fun audio => { metadata.getD {} with audio })
          (loader.audio (metadata.getD {}).audio header.codecid payload))
        (fun _ payload => { dts := pkt.dts, data := payload })
        metadata pkt := by
  unfold onRecvAudio onRecvTag
  cases audioTagHeaderRead pkt.data with
  | error e => rfl
  | ok read =>
      cases read with
      | none => rfl
      | some read =>
          simp only [ok_bind]
          cases loader.audio (metadata.getD {}).audio read.1.codecid (pkt.data.drop read.2) <;> rfl

end

/-! ## What it does -/

section

variable {H : Type} {read : Except Fault (Option (H × Nat))} {unreadable : List Char}
  {avpacket : H → Nat} {load : H → List UInt8 → Except Fault Received}
  {media : H → List UInt8 → Media} {metadata : Option Metadata} {pkt : Packet} {header : H}
  {n : Nat}

/-- With nothing behind the header there is nothing to do. -/
theorem onRecvTag_empty (hread : read = .ok (some (header, n))) (hsize : pkt.size ≠ 0)
    (hpayload : pkt.data.drop n = []) :
    onRecvTag read unreadable avpacket load media metadata pkt = .ok .ready := by
  have hpositive : (pkt.size != 0) = true := by simpa using hsize
  simp only [onRecvTag, hpositive, assert_true, ok_bind, hread, hpayload, List.isEmpty_nil, if_true]

/-- What is behind a sequence header is loaded. -/
theorem onRecvTag_payload (hread : read = .ok (some (header, n)))
    (hpayload : pkt.data.drop n ≠ []) (hsequence : avpacket header = flvSequenceHeader) :
    onRecvTag read unreadable avpacket load media metadata pkt
      = load header (pkt.data.drop n) := by
  have hdata : pkt.data ≠ [] := by
    intro hnil
    simp [hnil] at hpayload
  have hpositive : (pkt.size != 0) = true := by simpa [Packet.size] using hdata
  have hnonempty : (pkt.data.drop n).isEmpty = false := by simpa using hpayload
  simp only [onRecvTag, hpositive, assert_true, ok_bind, hread, hnonempty, hsequence,
    Bool.false_eq_true, if_false, if_true]

/-- Only a sequence header makes a metadata. -/
theorem onRecvTag_metadata {m : Metadata}
    (h : onRecvTag read unreadable avpacket load media metadata pkt
      = .ok (.frame (.metadata m))) :
    ∃ header n, read = .ok (some (header, n)) ∧ pkt.data.drop n ≠ []
      ∧ avpacket header = flvSequenceHeader
      ∧ load header (pkt.data.drop n) = .ok (.frame (.metadata m)) := by
  unfold onRecvTag at h
  obtain ⟨_, -, h⟩ := bind_eq_ok h
  obtain ⟨found, hread, h⟩ := bind_eq_ok h
  cases found with
  | none => cases h
  | some found =>
      dsimp only at h
      split at h
      · cases h
      · rename_i hpayload
        split at h
        · rename_i hsequence
          exact ⟨found.1, found.2, hread, by simpa using hpayload, hsequence, h⟩
        · split at h <;> cases h

/-- A media frame has what is behind the header. -/
theorem onRecvTag_media {x : Media}
    (h : onRecvTag read unreadable avpacket load media metadata pkt = .ok (.frame (.media x)))
    (hload : ∀ header payload, load header payload ≠ .ok (.frame (.media x))) :
    ∃ header n, read = .ok (some (header, n)) ∧ x = media header (pkt.data.drop n) := by
  unfold onRecvTag at h
  obtain ⟨_, -, h⟩ := bind_eq_ok h
  obtain ⟨found, hread, h⟩ := bind_eq_ok h
  cases found with
  | none => cases h
  | some found =>
      dsimp only at h
      split at h
      · cases h
      · split at h
        · exact absurd h (hload _ _)
        · split at h
          · cases h
          · cases h
            exact ⟨found.1, found.2, hread, rfl⟩

theorem onLoaded_ne_media {α : Type} (what : String) (put : α → Metadata) (r : LoadResult α)
    (x : Media) : onLoaded what put r ≠ .ok (.frame (.media x)) := by
  cases r <;> exact nofun

theorem onLoaded_metadata {α : Type} {what : String} {put : α → Metadata} {r : LoadResult α}
    {m : Metadata} (h : onLoaded what put r = .ok (.frame (.metadata m))) :
    ∃ a, r = .loaded a ∧ m = put a := by
  cases r with
  | loaded a =>
      cases h
      exact ⟨a, rfl, rfl⟩
  | malformed rt => cases h
  | aborts => cases h

end

end PublishSession

end SeastarLive
