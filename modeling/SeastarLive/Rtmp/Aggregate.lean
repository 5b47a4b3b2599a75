/-
SeastarLive.Rtmp.Aggregate — messages in one message.

An aggregate message is a list of FLV tags, as a file has them. `rtmp_aggregate` hands them to
the callbacks one by one, and takes the time of the message for that of the first tag.

* `handleAll_aggregate`: an aggregate message is the messages of its tags.
-/
import SeastarLive.Flv.Tag
import SeastarLive.Rtmp.ChunkReadTheorems

namespace SeastarLive

open Flv (FileTag)

/-- The message of a tag, in an aggregate message whose first tag has the time `first`. -/
def RtmpMessage.ofTag (m : RtmpMessage) (first : Nat) (tag : FileTag) : RtmpMessage :=
  { m with
    type := UInt8.ofNat tag.type.code
    timestamp := (m.timestamp + (tag.timestamp + 4294967296 - first)) % 4294967296
    payload := tag.body }

/-- The loop stops in front of a last tag without a body. -/
def LastFull (tags : List FileTag) : Prop := ∀ tag ∈ tags.getLast?, tag.body ≠ []

section Tags

variable {α : Type} {cb : RtmpCallbacks α}

theorem lastFull_cons {tag : FileTag} {tags : List FileTag} (h : LastFull (tag :: tags)) :
    (tags = [] → tag.body ≠ []) ∧ LastFull tags := by
  cases tags with
  | nil => exact ⟨fun _ => h tag rfl, fun _ hnone => (nomatch hnone)⟩
  | cons next tags => exact ⟨fun hnil => (nomatch hnil), h⟩

theorem beValue_be24 {n : Nat} (hn : n < 16777216) : beValue (Flv.be24 n) = n := by
  have hvalue : beValue (Flv.be24 n) = Flv.readBe24 (UInt8.ofNat (n / 65536))
      (UInt8.ofNat (n / 256)) (UInt8.ofNat n) := by
    simp only [beValue, Flv.be24, List.reverse_cons, List.reverse_nil, List.nil_append,
      List.cons_append, ByteMemory.leValue, List.foldr_cons, List.foldr_nil, Flv.readBe24]
    omega
  rw [hvalue, Flv.readBe24_be24 hn]

/-- The fields of the tag at the front. -/
theorem aggregate_fields {tag : FileTag} (htag : tag.WellFormed) (rest : List UInt8) :
    (tag.encode ++ rest).getD 0 0 = UInt8.ofNat tag.type.code
      ∧ beValue (((tag.encode ++ rest).drop 1).take 3) = tag.body.length
      ∧ beValue (((tag.encode ++ rest).drop 4).take 3)
          + ((tag.encode ++ rest).getD 7 0).toNat * 16777216 = tag.timestamp
      ∧ ((tag.encode ++ rest).drop 11).take tag.body.length = tag.body
      ∧ (tag.encode ++ rest).drop (tag.body.length + aggregateOverhead) = rest
      ∧ (tag.encode ++ rest).length = tag.body.length + aggregateOverhead + rest.length := by
  obtain ⟨type, timestamp, body⟩ := tag
  have hbody : body.length < 16777216 := htag.body
  have htime : timestamp < 4294967296 := htag.timestamp
  have hhigh : (UInt8.ofNat (timestamp / 16777216)).toNat = timestamp / 16777216 :=
    toNat_byte (by omega)
  have hlow := beValue_be24 (Nat.mod_lt timestamp (by decide : 0 < 16777216))
  have hbytes : FileTag.encode ⟨type, timestamp, body⟩ ++ rest
      = UInt8.ofNat type.code :: (Flv.be24 body.length ++ (Flv.be24 (timestamp % 16777216)
        ++ (UInt8.ofNat (timestamp / 16777216) :: (Flv.be24 0
          ++ (body ++ (Flv.beWriteUint32 (11 + body.length) ++ rest)))))) := by
    simp [FileTag.encode]
  rw [hbytes]
  refine ⟨rfl, beValue_be24 hbody, ?_, ?_, ?_, ?_⟩
  · show beValue (Flv.be24 (timestamp % 16777216))
      + (UInt8.ofNat (timestamp / 16777216)).toNat * 16777216 = timestamp
    rw [hlow, hhigh]
    omega
  · exact List.take_left' rfl
  · show (body ++ (Flv.beWriteUint32 (11 + body.length) ++ rest)).drop (body.length + 4) = rest
    rw [List.drop_append, List.drop_of_length_le (by omega), List.nil_append,
      List.drop_left' (by rw [Flv.beWriteUint32_length]; omega)]
  · simp only [List.length_cons, List.length_append, Flv.be24, Flv.beWriteUint32_length,
      aggregateOverhead, List.length_nil]
    omega

/-- A tag is handed on like the message of its type. -/
theorem rtmpMedia_tag (tag : FileTag) (timestamp : Nat) (s : RtmpState α) :
    appHandler cb (UInt8.ofNat tag.type.code) timestamp tag.body s
      = (rtmpMedia cb (UInt8.ofNat tag.type.code) tag.body timestamp s.app).map
          fun app => { s with app } := by
  unfold appHandler rtmpMedia
  cases tag.type <;> rfl

/-- The loop behind a tag with the time `t0`, which was handed on with the time `timestamp`. -/
theorem aggregateLoop_tags (cb : RtmpCallbacks α) (m : RtmpMessage) {first : Nat}
    (hfirst : first < 4294967296) (tags : List FileTag) :
    ∀ {fuel t0 timestamp : Nat} (s : RtmpState α), (∀ tag ∈ tags, tag.WellFormed) →
      LastFull tags → (tags.flatMap FileTag.encode).length ≤ fuel → t0 < 4294967296 →
      timestamp = (m.timestamp + (t0 + 4294967296 - first)) % 4294967296 →
      handleAll cb s (tags.map (m.ofTag first))
        = (aggregateLoop cb fuel (some t0) timestamp (tags.flatMap FileTag.encode) s.app).map
            fun app => { s with app } := by
  induction tags with
  | nil =>
      intro fuel t0 timestamp s _ _ _ _ _
      cases fuel <;> rfl
  | cons tag tags ih =>
      intro fuel t0 timestamp s hwf hlast hfuel ht0 htimestamp
      have htag := hwf tag List.mem_cons_self
      obtain ⟨hbody, hlast'⟩ := lastFull_cons hlast
      obtain ⟨htype, hn, ht, hpayload, hrest, hlength⟩ :=
        aggregate_fields htag (tags.flatMap FileTag.encode)
      rw [List.flatMap_cons] at hfuel ⊢
      rw [hlength] at hfuel
      have hgoes : aggregateOverhead < (tag.encode ++ tags.flatMap FileTag.encode).length := by
        rw [hlength]
        cases tags with
        | nil =>
            have hpos := List.length_pos_iff.mpr (hbody rfl)
            omega
        | cons next tags =>
            have hnext : 0 < ((next :: tags).flatMap FileTag.encode).length := by
              simp [FileTag.encode]
            omega
      obtain ⟨fuel, rfl⟩ : ∃ n, fuel = n + 1 := ⟨fuel - 1, by
        simp only [aggregateOverhead] at hfuel
        omega⟩
      have hbefore := Flv.FileTag.WellFormed.timestamp htag
      have htime : (timestamp + (tag.timestamp + 4294967296 - t0)) % 4294967296
          = (m.timestamp + (tag.timestamp + 4294967296 - first)) % 4294967296 := by omega
      simp only [aggregateLoop, if_pos hgoes, hn, ht, htype, hpayload, hrest]
      rw [if_neg (by omega), htime]
      simp only [List.map_cons, handleAll, RtmpMessage.ofTag, rtmpMedia_tag]
      cases rtmpMedia cb (UInt8.ofNat tag.type.code) tag.body _ s.app with
      | error r => rfl
      | ok app =>
          exact ih { s with app } (fun x hx => hwf x (List.mem_cons_of_mem tag hx)) hlast'
            (by simp only [aggregateOverhead] at hfuel; omega) hbefore rfl

/-- An aggregate message is the messages of its tags, each with its time. -/
theorem handleAll_aggregate (cb : RtmpCallbacks α) (s : RtmpState α) {m : RtmpMessage}
    {tags : List FileTag} (htype : m.type = MessageType.metadata.code)
    (htimestamp : m.timestamp < 4294967296) (hpayload : m.payload = tags.flatMap FileTag.encode)
    (htags : ∀ tag ∈ tags, tag.WellFormed) (hlast : LastFull tags) :
    handleAll cb s [m]
      = handleAll cb s (tags.map fun tag =>
          m.ofTag ((tags.head?.map FileTag.timestamp).getD 0) tag) := by
  have hleft : handleAll cb s [m]
      = (rtmpAggregate cb m.timestamp m.payload s.app).map fun app => { s with app } := by
    simp only [handleAll, appHandler, htype, MessageType.ofByte_code]
    cases rtmpAggregate cb m.timestamp m.payload s.app <;> rfl
  rw [hleft, hpayload]
  cases tags with
  | nil => rfl
  | cons tag tags =>
      -- the first tag has the time of the message
      have htag := htags tag List.mem_cons_self
      have hloop := aggregateLoop_tags cb m htag.timestamp (tag :: tags) s htags hlast
        (Nat.le_refl _) htag.timestamp rfl
      refine Eq.symm (hloop.trans (congrArg _ ?_))
      have htime : (m.timestamp + (tag.timestamp + 4294967296 - tag.timestamp)) % 4294967296
          = m.timestamp := by omega
      obtain ⟨-, -, ht, -⟩ := aggregate_fields htag (tags.flatMap FileTag.encode)
      rw [htime, List.flatMap_cons]
      unfold rtmpAggregate
      generalize (tag.encode ++ tags.flatMap FileTag.encode).length = fuel
      cases fuel with
      | zero => rfl
      | succ fuel => simp only [aggregateLoop, ht, htime]

end Tags

/-- Two messages in one: the second is five later than the first. -/
theorem handleAll_aggregate_two :
    let tags : List FileTag := [⟨.audio, 100, [1]⟩, ⟨.video, 105, [2]⟩]
    let m : RtmpMessage :=
      { cid := 4, timestamp := 30, type := 22, streamId := 1
        payload := tags.flatMap FileTag.encode }
    let s : RtmpState (List (List UInt8 × Nat)) :=
      { control := { windowSize := 0, peerBandwidth := 0 }, app := [] }
    handleAll keepMedia s [m] = .ok { s with app := [([1], 30), ([2], 35)] } := by
  intro tags m s
  have htags : ∀ tag ∈ tags, tag.WellFormed := by
    intro tag htag
    rcases List.mem_cons.mp htag with rfl | htag
    · exact ⟨by decide, by decide⟩
    rw [List.mem_singleton.mp htag]
    exact ⟨by decide, by decide⟩
  have hlast : LastFull tags := by simp [LastFull, tags]
  rw [handleAll_aggregate keepMedia s (m := m) rfl (by decide) rfl htags hlast]
  simp only [tags, List.map_cons, List.map_nil, RtmpMessage.ofTag, List.head?_cons, Option.map_some,
    Option.getD_some, Nat.reduceAdd, Nat.reduceSub, Nat.reduceMod, m]
  rfl

end SeastarLive
