/-
SeastarLive.Session.RelayTheorems — a media packet reaches the players as it came.

The publisher takes the codec header off a packet (`on_recv_video`,
`on_recv_audio`), and `to_tag_data` puts one in front of the payload again,
from the metadata of the player. The composition time travels as a `uint64_t`,
of which the writer keeps the three bytes that were read.
-/
import SeastarLive.Session.MediaHandlers

namespace SeastarLive

open Flv PublishSession

/-! ## Bytes -/

/-- Frame type and codec are put back into the first byte. -/
theorem video_first_byte {b : UInt8} (h : b.toNat / 16 = 1 ∨ b.toNat / 16 = 2) :
    UInt8.ofNat ((if b.toNat / 16 == 1 then 1 else 2) * 16) ||| UInt8.ofNat (b.toNat % 16 % 16)
      = b := by
  have hall : ∀ n < 256, n / 16 = 1 ∨ n / 16 = 2 →
      UInt8.ofNat ((if n / 16 == 1 then 1 else 2) * 16) ||| UInt8.ofNat (n % 16 % 16)
        = UInt8.ofNat n := by
    decide +kernel
  simpa using hall b.toNat b.toNat_lt h

/-- AAC is announced as 44 kHz, 16 bit and stereo, whatever it was announced as. -/
theorem audio_first_byte {b : UInt8} (h : b.toNat / 16 = 10) :
    UInt8.ofNat flvAudioAac ||| 15 = b ||| 15 := by
  have hall : ∀ n < 256, n / 16 = 10 → UInt8.ofNat flvAudioAac ||| 15 = UInt8.ofNat n ||| 15 := by
    decide +kernel
  simpa using hall b.toNat b.toNat_lt h

/-- A signed composition time comes back as its three bytes after the detour over 64 bits. -/
theorem cts_bytes (b₀ b₁ b₂ : UInt8) :
    let cts : Int := ((signed24 b₀ b₁ b₂ % 18446744073709551616).toNat : Nat)
    UInt8.ofNat (cts / 65536 % 256).toNat = b₀ ∧ UInt8.ofNat (cts / 256 % 256).toNat = b₁
      ∧ UInt8.ofNat (cts % 256).toNat = b₂ := by
  have h₀ := b₀.toNat_lt
  have h₁ := b₁.toNat_lt
  have h₂ := b₂.toNat_lt
  have hbyte : ∀ {b : UInt8} {x : Int}, x = b.toNat → UInt8.ofNat x.toNat = b := by
    rintro b x rfl
    simp
  unfold signed24
  refine ⟨hbyte ?_, hbyte ?_, hbyte ?_⟩ <;> dsimp only <;> split <;> omega

/-! ## Packets -/

section Relay

variable {loader : Loader} {sessionMeta : Option Metadata} {pkt : Packet} {media : Media}
  {b₀ b₁ : UInt8} {rest : List UInt8}

/-- The frame made of a video packet with an `AVCPacketType` of 1. -/
theorem onRecvVideo_media (hdata : pkt.data = b₀ :: b₁ :: rest)
    (hcodec : hasAvcPacketType (b₀.toNat % 16) = true) (hpacket : b₁ = 1)
    (h : onRecvVideo loader sessionMeta pkt = .ok (.frame (.media media))) :
    ∃ b₂ b₃ b₄ payload, rest = b₂ :: b₃ :: b₄ :: payload
      ∧ media = { isVideo := true, isKeyframe := b₀.toNat / 16 == 1, dts := pkt.dts,
                  cts := (signed24 b₂ b₃ b₄ % 18446744073709551616).toNat, data := payload } := by
  subst hpacket
  rw [onRecvVideo_eq] at h
  obtain ⟨header, n, hread, rfl⟩ := onRecvTag_media h fun _ _ => onLoaded_ne_media _ _ _ _
  simp only [videoTagHeaderRead, hdata, hcodec, if_true] at hread
  match rest, hread, hdata with
  | [], hread, _ => cases hread
  | [_], hread, _ => cases hread
  | [_, _], hread, _ => cases hread
  | b₂ :: b₃ :: b₄ :: payload, hread, hdata =>
      cases hread
      exact ⟨b₂, b₃, b₄, payload, rfl, by rw [hdata]; rfl⟩

/-- The frame made of an AAC packet with an `AACPacketType` of 1. -/
theorem onRecvAudio_media (hdata : pkt.data = b₀ :: b₁ :: rest) (hcodec : b₀.toNat / 16 = 10)
    (hpacket : b₁ = 1) (h : onRecvAudio loader sessionMeta pkt = .ok (.frame (.media media))) :
    media = { dts := pkt.dts, data := rest } := by
  subst hpacket
  have haac : hasAacPacketType (b₀.toNat / 16 * 16) = true := by
    rw [hcodec]
    rfl
  rw [onRecvAudio_eq] at h
  obtain ⟨header, n, hread, rfl⟩ := onRecvTag_media h fun _ _ => onLoaded_ne_media _ _ _ _
  simp only [audioTagHeaderRead, hdata, haac, if_true] at hread
  cases hread
  rw [hdata]
  rfl

/-- The header of a video frame, from a metadata that names its codec. -/
theorem toTagData_video {isKeyframe : Bool} {dts : Int} {cts codec : Nat} {data : List UInt8}
    {metadata : Metadata} (henabled : metadata.video.isEnabled = true)
    (hcodecid : metadata.video.codecid = (codec : Nat)) (hlt : codec < 256)
    (hcodec : hasAvcPacketType codec = true) :
    Media.toTagData ⟨true, isKeyframe, dts, cts, data⟩ metadata
      = .ok ((UInt8.ofNat ((if isKeyframe then 1 else 2) * 16) ||| UInt8.ofNat (codec % 16))
          :: 1 :: UInt8.ofNat ((cts : Int) / 65536 % 256).toNat
          :: UInt8.ofNat ((cts : Int) / 256 % 256).toNat :: UInt8.ofNat ((cts : Int) % 256).toNat
          :: data) := by
  have hbyte : (metadata.video.codecid % 256).toNat = codec := by
    rw [hcodecid]
    omega
  simp only [Media.toTagData, Media.tagHeader, if_true, henabled, assert_true, hbyte, ok_bind,
    videoTagHeaderWrite, hcodec]
  rfl

/-- The header of an AAC frame. -/
theorem toTagData_aac {isKeyframe : Bool} {dts : Int} {cts : Nat} {data : List UInt8}
    {metadata : Metadata} (henabled : metadata.audio.isEnabled = true)
    (hcodecid : metadata.audio.codecid = flvAudioAac) :
    Media.toTagData ⟨false, isKeyframe, dts, cts, data⟩ metadata
      = .ok ((UInt8.ofNat flvAudioAac ||| 15) :: 1 :: data) := by
  have hbyte : (metadata.audio.codecid % 256).toNat = flvAudioAac := by
    rw [hcodecid]
    rfl
  have haac : hasAacPacketType flvAudioAac = true := rfl
  simp only [Media.toTagData, Media.tagHeader, Bool.false_eq_true, if_false, henabled, assert_true,
    hbyte, ok_bind, audioTagHeaderWrite, haac, if_true]
  rfl

end Relay

/-- A packet of a video codec with composition times, whose frame is a key or an inter frame,
    is given to a player as it was received. An AAC packet is too, but for the low half of
    its first byte. -/
theorem relay_transparent (loader : Loader) (sessionMeta : Option Metadata) (pkt : Packet)
    (media : Media) (playerMeta : Metadata) {b₀ b₁ : UInt8} {rest : List UInt8}
    (hdata : pkt.data = b₀ :: b₁ :: rest) (hpacket : b₁ = 1) :
    (hasAvcPacketType (b₀.toNat % 16) = true →
        b₀.toNat / 16 = 1 ∨ b₀.toNat / 16 = 2 →
        onRecvVideo loader sessionMeta pkt = .ok (.frame (.media media)) →
        playerMeta.video.isEnabled = true → playerMeta.video.codecid = (b₀.toNat % 16 : Nat) →
        media.toTagData playerMeta = .ok pkt.data)
      ∧ (b₀.toNat / 16 = 10 →
        onRecvAudio loader sessionMeta pkt = .ok (.frame (.media media)) →
        playerMeta.audio.isEnabled = true → playerMeta.audio.codecid = flvAudioAac →
        media.toTagData playerMeta = .ok ((b₀ ||| 15) :: b₁ :: rest)) := by
  constructor
  · intro hcodec htype h henabled hcodecid
    obtain ⟨b₂, b₃, b₄, payload, rfl, rfl⟩ := onRecvVideo_media hdata hcodec hpacket h
    obtain ⟨h₂, h₃, h₄⟩ := cts_bytes b₂ b₃ b₄
    rw [toTagData_video henabled hcodecid (by omega) hcodec, h₂, h₃, h₄, video_first_byte htype,
      hdata, hpacket]
  · intro hcodec h henabled hcodecid
    have hmedia := onRecvAudio_media hdata hcodec hpacket h
    rw [hmedia, toTagData_aac henabled hcodecid, audio_first_byte hcodec, hpacket]

/-- Loaders that refuse everything; a media packet does not need them. -/
def refusingLoader : Loader where
  metadata _ _ := .malformed (-1)
  video _ _ _ := .malformed (-1)
  audio _ _ _ := .malformed (-1)

/-- An H.264 key frame that is shown 40 ms before it is decoded, and an AAC frame that is
    announced as mono. -/
theorem relay_transparent_avc_aac :
    Media.toTagData ⟨true, true, 0, 18446744073709551576, [101]⟩
        { video := { codecid := 7, valid := true } } = .ok [23, 1, 255, 255, 216, 101]
      ∧ Media.toTagData ⟨false, false, 0, 0, [33]⟩
        { audio := { codecid := 160, valid := true } } = .ok [175, 1, 33] :=
  ⟨(relay_transparent refusingLoader (some {}) { data := [23, 1, 255, 255, 216, 101] } _
      { video := { codecid := 7, valid := true } } rfl rfl).1 rfl (.inl rfl)
      (by simp [onRecvVideo, videoTagHeaderRead, Packet.size, hasAvcPacketType, flvVideoH264,
        flvSequenceHeader, flvAvPacket, flvEndOfSequence, signed24, pure, Except.pure]) rfl rfl,
    (relay_transparent refusingLoader (some {}) { type := .audio, data := [174, 1, 33] } _
      { audio := { codecid := 160, valid := true } } rfl rfl).2 rfl rfl rfl rfl⟩

end SeastarLive
