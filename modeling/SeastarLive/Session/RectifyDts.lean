/-
SeastarLive.Session.RectifyDts — the dts a publisher hands out.

`rectify_dts` moves a frame whose dts went back behind what was accepted
before. It keeps the dts of the last frame it saw and an offset; the dts of
the last accepted frame is written elsewhere, by `session_impl::on_media`.
`offers` is a run of `add_frame` over media frames in which the answers of
the cache are given, so they can be any; `rectifyDts_law` says what the
rectified dts satisfy, and `addFrame_offer` that `add_frame` makes them.
-/
import SeastarLive.Session.PublishSessionTheorems

namespace SeastarLive

open Flv

/-! ## Runs -/

/-- A media frame that was handed to `add_frame`. -/
structure Offered where
  /-- Its own dts. -/
  actual : Int
  /-- The dts `rectify_dts` gave it. -/
  rectified : Int
  accepted : Bool
deriving DecidableEq

namespace PublishSession

/-- `add_frame` of a media frame, for a given answer of the cache. -/
def offer (s : PublishSession) (media : Media) (accepted : Bool) : PublishSession × Offered :=
  let (t, frame) := s.rectifyDts (.media media)
  match frame with
  | .media rectified =>
      let impl := if accepted then t.world.pub.impl.onMedia rectified else t.world.pub.impl
      ({ t with world := { t.world with pub := { t.world.pub with impl } } },
        ⟨media.dts, rectified.dts, accepted⟩)
  | _ => (t, ⟨media.dts, media.dts, false⟩)

/-- The frames of a run, each with the answer of the cache. -/
def offers (s : PublishSession) : List (Media × Bool) → List Offered
  | [] => []
  | (media, accepted) :: rest =>
      (s.offer media accepted).2 :: offers (s.offer media accepted).1 rest

/-- The session after a run. -/
def afterOffers (s : PublishSession) : List (Media × Bool) → PublishSession
  | [] => s
  | (media, accepted) :: rest => afterOffers (s.offer media accepted).1 rest

/-- The dts bookkeeping: the last dts seen, the offset and the last dts accepted. -/
def dtsState (s : PublishSession) : Int × Int × Int :=
  (s.lastActualDts, s.lastEndDts, s.world.pub.impl.currentDts)

/-- `add_frame` moves the bookkeeping as its run says, for the answer of its cache. -/
theorem addFrame_offer {s t : PublishSession} {media : Media}
    (hrun : s.addFrame (.media media) = .ok t) :
    ∃ accepted cache, s.world.pub.cache.addFrame (s.rectifyDts (.media media)).2
        = .ok (cache, accepted)
      ∧ t.dtsState = (s.offer media accepted).1.dtsState := by
  obtain ⟨pub, hrecv, ht⟩ := bind_eq_ok hrun
  cases ht
  obtain ⟨⟨cache, added⟩, hadd, hrest⟩ := bind_eq_ok hrecv
  refine ⟨added, cache, hadd, ?_⟩
  cases added with
  | false =>
      cases hrest
      rfl
  | true =>
      obtain ⟨impl, himpl, hpub⟩ := bind_eq_ok hrest
      cases hpub
      cases himpl
      rfl

/-- A run depends on the session through its bookkeeping only. -/
theorem offer_congr {s t : PublishSession} (h : s.dtsState = t.dtsState) (media : Media)
    (accepted : Bool) :
    (s.offer media accepted).2 = (t.offer media accepted).2
      ∧ (s.offer media accepted).1.dtsState = (t.offer media accepted).1.dtsState := by
  simp only [dtsState, Prod.mk.injEq] at h
  obtain ⟨hactual, hend, hcurrent⟩ := h
  unfold offer rectifyDts dtsState
  cases accepted <;> simp [SessionImpl.onMedia, hactual, hend, hcurrent]

/-- The calls of `add_frame` for media frames, one after the other. -/
def addFrames (s : PublishSession) : List Media → Except Fault PublishSession
  | [] => .ok s
  | media :: rest => do
      let t ← s.addFrame (.media media)
      addFrames t rest

/-- A run of `add_frame` is a run with the answers its cache gave. -/
theorem addFrames_offers {s t r : PublishSession} {frames : List Media}
    (hrun : s.addFrames frames = .ok t) (hr : s.dtsState = r.dtsState) :
    ∃ answers : List Bool, answers.length = frames.length
      ∧ t.dtsState = (r.afterOffers (frames.zip answers)).dtsState := by
  induction frames generalizing s r with
  | nil =>
      cases hrun
      exact ⟨[], rfl, hr⟩
  | cons media frames ih =>
      obtain ⟨s', hadd, hrest⟩ := bind_eq_ok hrun
      obtain ⟨accepted, -, -, hstep⟩ := addFrame_offer hadd
      have hnext := hstep.trans (offer_congr hr media accepted).2
      obtain ⟨answers, hlen, ht⟩ := ih hrest hnext
      exact ⟨accepted :: answers, by simp [hlen], ht⟩

/-- Metadata does not move it. -/
theorem addFrame_metadata_dtsState {s t : PublishSession} {m : Metadata}
    (hrun : s.addFrame (.metadata m) = .ok t) : t.dtsState = s.dtsState := by
  obtain ⟨pub, hrecv, ht⟩ := bind_eq_ok hrun
  cases ht
  obtain ⟨⟨cache, added⟩, hadd, hrest⟩ := bind_eq_ok hrecv
  cases added with
  | false =>
      cases hrest
      rfl
  | true =>
      obtain ⟨impl, himpl, hpub⟩ := bind_eq_ok hrest
      cases hpub
      cases himpl
      rfl

/-! ## One frame -/

/-- What the bookkeeping of a run satisfies: with the offset that is in force, the last
    frame seen is not before the last one accepted. -/
structure DtsInv (s : PublishSession) : Prop where
  actual : -1 ≤ s.lastActualDts
  current : -1 ≤ s.world.pub.impl.currentDts
  reached : s.world.pub.impl.currentDts ≤ max s.lastEndDts 0 + s.lastActualDts
  offset : s.lastEndDts ≤ s.world.pub.impl.currentDts + 1

theorem DtsInv.onBegin {s : PublishSession} (hs : s.world.pub.impl.currentDts = -1) :
    DtsInv s.onBegin := by
  have hcurrent : s.onBegin.world.pub.impl.currentDts = -1 := hs
  have hactual : s.onBegin.lastActualDts = -1 := rfl
  have hend : s.onBegin.lastEndDts = -1 := rfl
  refine ⟨?_, ?_, ?_, ?_⟩ <;> omega

/-- The offset in force after a frame of dts `x`. -/
def nextEndDts (s : PublishSession) (x : Int) : Int :=
  if x < s.lastActualDts then s.world.pub.impl.currentDts + 1 else s.lastEndDts

/-- What a frame does to the bookkeeping: it gets the offset in force, which is never
    negative. -/
theorem offer_spec {s : PublishSession} (hs : DtsInv s) (media : Media) (accepted : Bool) :
    (s.offer media accepted).2
        = ⟨media.dts, media.dts + max (s.nextEndDts media.dts) 0, accepted⟩
      ∧ (s.offer media accepted).1.lastActualDts = media.dts
      ∧ (s.offer media accepted).1.lastEndDts = s.nextEndDts media.dts
      ∧ (s.offer media accepted).1.world.pub.impl.currentDts
        = if accepted then media.dts + max (s.nextEndDts media.dts) 0
          else s.world.pub.impl.currentDts := by
  have hcurrent := hs.current
  have hdts : (if decide (media.dts < s.lastActualDts) || decide (0 < s.nextEndDts media.dts)
      then media.dts + s.nextEndDts media.dts else media.dts)
        = media.dts + max (s.nextEndDts media.dts) 0 := by
    unfold nextEndDts
    by_cases hback : media.dts < s.lastActualDts
    · simp only [hback, decide_true, Bool.true_or, if_true]
      omega
    · simp only [hback, decide_false, Bool.false_or, if_false, decide_eq_true_eq]
      split <;> omega
  rw [← hdts]
  unfold offer rectifyDts nextEndDts
  cases accepted <;> simp [Media.setDts, SessionImpl.onMedia]

theorem DtsInv.offer {s : PublishSession} (hs : DtsInv s) {media : Media} (hmedia : 0 ≤ media.dts)
    (accepted : Bool) : DtsInv (s.offer media accepted).1 := by
  obtain ⟨-, hactual, hend, hcurrent⟩ := offer_spec hs media accepted
  have h₁ := hs.actual
  have h₂ := hs.current
  have h₃ := hs.reached
  have h₄ := hs.offset
  unfold nextEndDts at hend hcurrent
  refine ⟨?_, ?_, ?_, ?_⟩
  · omega
  all_goals
    cases accepted with
    | false =>
        simp only [Bool.false_eq_true, if_false] at hcurrent
        split at hend <;> omega
    | true =>
        simp only [if_true] at hcurrent
        split at hend <;> simp_all <;> omega

/-! ## Runs of frames -/

/-- Every frame of a run has a dts. -/
def TimedFrames (frames : List (Media × Bool)) : Prop := ∀ p ∈ frames, 0 ≤ p.1.dts

theorem TimedFrames.of_cons {p : Media × Bool} {frames : List (Media × Bool)}
    (h : TimedFrames (p :: frames)) : 0 ≤ p.1.dts ∧ TimedFrames frames :=
  ⟨h p List.mem_cons_self, fun x hx => h x (List.mem_cons_of_mem _ hx)⟩

theorem offers_actual (s : PublishSession) (frames : List (Media × Bool)) :
    (offers s frames).map (fun o => (o.actual, o.accepted))
      = frames.map fun p => (p.1.dts, p.2) := by
  induction frames generalizing s with
  | nil => rfl
  | cons p frames ih =>
      obtain ⟨media, accepted⟩ := p
      simp only [offers, List.map_cons, ih]
      rfl

/-- A split of what a run made is a split of its frames. -/
theorem offers_split {s : PublishSession} {frames : List (Media × Bool)} {xs ys : List Offered}
    (hs : offers s frames = xs ++ ys) :
    ∃ before after, frames = before ++ after ∧ xs = offers s before
      ∧ ys = offers (s.afterOffers before) after := by
  induction xs generalizing s frames with
  | nil => exact ⟨[], frames, rfl, rfl, hs.symm⟩
  | cons x xs ih =>
      cases frames with
      | nil => cases hs
      | cons p frames =>
          obtain ⟨media, accepted⟩ := p
          simp only [offers, List.cons_append, List.cons.injEq] at hs
          obtain ⟨rfl, hrest⟩ := hs
          obtain ⟨before, after, rfl, rfl, rfl⟩ := ih hrest
          exact ⟨(media, accepted) :: before, after, rfl, rfl, rfl⟩

/-- The frame that was offered at a place of the run. -/
theorem offers_split_cons {s : PublishSession} {frames : List (Media × Bool)}
    {xs ys : List Offered} {o : Offered} (hs : offers s frames = xs ++ o :: ys) :
    ∃ before media accepted after, frames = before ++ (media, accepted) :: after
      ∧ xs = offers s before ∧ o = ((s.afterOffers before).offer media accepted).2
      ∧ ys = offers ((s.afterOffers before).offer media accepted).1 after := by
  obtain ⟨before, after, rfl, hbefore, hafter⟩ := offers_split hs
  cases after with
  | nil => cases hafter
  | cons next after =>
      obtain ⟨media, accepted⟩ := next
      simp only [offers, List.cons.injEq] at hafter
      exact ⟨before, media, accepted, after, rfl, hbefore, hafter.1, hafter.2⟩

theorem DtsInv.afterOffers {s : PublishSession} (hs : DtsInv s) {frames : List (Media × Bool)}
    (htimed : TimedFrames frames) : DtsInv (s.afterOffers frames) := by
  induction frames generalizing s with
  | nil => exact hs
  | cons p frames ih =>
      obtain ⟨hp, hframes⟩ := htimed.of_cons
      exact ih (hs.offer hp p.2) hframes

/-- What is above `floor` from now on: the last accepted dts is, or the offset is. -/
def Above (s : PublishSession) (floor : Int) : Prop :=
  floor < s.world.pub.impl.currentDts ∨ floor < max s.lastEndDts 0

theorem Above.offer {s : PublishSession} (hs : DtsInv s) {floor : Int} (habove : Above s floor)
    {media : Media} (hmedia : 0 ≤ media.dts) (accepted : Bool) :
    Above (s.offer media accepted).1 floor
      ∧ floor < media.dts + max (s.nextEndDts media.dts) 0 := by
  obtain ⟨-, -, hend, hcurrent⟩ := offer_spec hs media accepted
  have h₂ := hs.current
  have h₃ := hs.reached
  have h₄ := hs.offset
  have hfloor : floor < media.dts + max (s.nextEndDts media.dts) 0 := by
    unfold nextEndDts
    rcases habove with habove | habove <;> split <;> omega
  refine ⟨?_, hfloor⟩
  unfold Above
  rw [hcurrent, hend]
  cases accepted with
  | true => exact .inl (by simpa using hfloor)
  | false =>
      simp only [Bool.false_eq_true, if_false]
      unfold nextEndDts
      rcases habove with habove | habove <;> split <;> omega

/-- Every frame of a run that starts above a floor gets a dts above it. -/
theorem Above.offers {s : PublishSession} (hs : DtsInv s) {floor : Int} (habove : Above s floor)
    {frames : List (Media × Bool)} (htimed : TimedFrames frames) :
    ∀ o ∈ PublishSession.offers s frames, floor < o.rectified := by
  induction frames generalizing s with
  | nil => exact fun o ho => absurd ho List.not_mem_nil
  | cons p frames ih =>
      obtain ⟨media, accepted⟩ := p
      obtain ⟨hmedia, hframes⟩ := htimed.of_cons
      obtain ⟨hnext, hfloor⟩ := habove.offer hs hmedia accepted
      intro o ho
      simp only [PublishSession.offers, List.mem_cons] at ho
      rcases ho with rfl | ho
      · rw [(offer_spec hs media accepted).1]
        exact hfloor
      · exact ih (hs.offer hmedia accepted) hnext hframes o ho

/-- No frame of a run gets a dts below the last one accepted before it. -/
theorem DtsInv.current_le {s : PublishSession} (hs : DtsInv s) {frames : List (Media × Bool)}
    (htimed : TimedFrames frames) :
    ∀ o ∈ offers s frames, s.world.pub.impl.currentDts ≤ o.rectified := by
  intro o ho
  have habove : Above s (s.world.pub.impl.currentDts - 1) := .inl (by omega)
  have hlt := habove.offers hs htimed o ho
  omega

/-- The accepted frames of a run do not exceed the last accepted dts at its end. -/
theorem DtsInv.le_current {s : PublishSession} (hs : DtsInv s) {frames : List (Media × Bool)}
    (htimed : TimedFrames frames) :
    s.world.pub.impl.currentDts ≤ (s.afterOffers frames).world.pub.impl.currentDts
      ∧ ∀ o ∈ offers s frames, o.accepted = true →
        o.rectified ≤ (s.afterOffers frames).world.pub.impl.currentDts := by
  induction frames generalizing s with
  | nil => exact ⟨Int.le_refl _, fun o ho => absurd ho List.not_mem_nil⟩
  | cons p frames ih =>
      obtain ⟨media, accepted⟩ := p
      have hsingle : TimedFrames [(media, accepted)] := by
        intro x hx
        rw [List.mem_singleton.mp hx]
        exact htimed.of_cons.1
      obtain ⟨hmedia, hframes⟩ := htimed.of_cons
      obtain ⟨hoffered, -, -, hcurrent⟩ := offer_spec hs media accepted
      obtain ⟨hmono, hrest⟩ := ih (hs.offer hmedia accepted) hframes
      have hstep := hs.current_le hsingle _ List.mem_cons_self
      rw [hoffered] at hstep
      have hle : s.world.pub.impl.currentDts
          ≤ (s.offer media accepted).1.world.pub.impl.currentDts := by
        rw [hcurrent]
        cases accepted with
        | true => exact hstep
        | false => exact Int.le_refl _
      refine ⟨Int.le_trans hle hmono, ?_⟩
      intro o ho haccepted
      simp only [offers, List.mem_cons] at ho
      rcases ho with rfl | ho
      · rw [hoffered] at haccepted ⊢
        have hyes : accepted = true := haccepted
        rw [hcurrent, if_pos hyes] at hmono
        exact hmono
      · exact hrest o ho haccepted

/-- Without a backflow every frame of a run gets the same offset. -/
theorem offers_rigid {s : PublishSession} (hs : DtsInv s) {frames : List (Media × Bool)}
    (htimed : TimedFrames frames)
    (hchain : List.IsChain (· ≤ ·) (s.lastActualDts :: frames.map fun p => p.1.dts)) :
    ∀ o ∈ offers s frames, o.rectified = o.actual + max s.lastEndDts 0 := by
  induction frames generalizing s with
  | nil => exact fun o ho => absurd ho List.not_mem_nil
  | cons p frames ih =>
      obtain ⟨media, accepted⟩ := p
      obtain ⟨hmedia, hframes⟩ := htimed.of_cons
      obtain ⟨hoffered, hactual, hend, -⟩ := offer_spec hs media accepted
      simp only [List.map_cons, List.isChain_cons_cons] at hchain
      obtain ⟨hforward, hchain⟩ := hchain
      have hoffset : s.nextEndDts media.dts = s.lastEndDts := by
        unfold nextEndDts
        exact if_neg (by omega)
      rw [hoffset] at hend hoffered
      intro o ho
      simp only [offers, List.mem_cons] at ho
      rcases ho with rfl | ho
      · rw [hoffered]
      · have hrest := ih (hs.offer hmedia accepted) hframes (by rw [hactual]; exact hchain) o ho
        rw [hend] at hrest
        exact hrest

/-- A frame that goes back puts what follows above all that was accepted. -/
theorem above_of_backflow {s : PublishSession} (hs : DtsInv s) {media : Media}
    (hmedia : 0 ≤ media.dts) (accepted : Bool) (hback : media.dts < s.lastActualDts) :
    s.world.pub.impl.currentDts < media.dts + max (s.nextEndDts media.dts) 0
      ∧ Above (s.offer media accepted).1 s.world.pub.impl.currentDts := by
  obtain ⟨-, -, hend, -⟩ := offer_spec hs media accepted
  have hoffset : s.nextEndDts media.dts = s.world.pub.impl.currentDts + 1 := if_pos hback
  have hcurrent := hs.current
  refine ⟨by omega, .inr ?_⟩
  rw [hend]
  omega

end PublishSession

/-! ## The law -/

/-- What the rectified dts of a run satisfy. -/
structure RectifiedLaw (os : List Offered) : Prop where
  /-- Along the accepted frames they do not decrease. -/
  monotone : os.Pairwise fun a b => a.accepted = true → b.accepted = true →
    a.rectified ≤ b.rectified
  /-- From a backflow on they are above what was accepted before it. -/
  jumps : ∀ xs a b ys, os = xs ++ a :: b :: ys → b.actual < a.actual →
    ∀ o ∈ xs ++ [a], ∀ p ∈ b :: ys, o.accepted = true → p.accepted = true →
      o.rectified < p.rectified
  /-- Between two frames without a backflow between them they differ as the dts do. -/
  rigid : ∀ xs a ys b zs, os = xs ++ a :: (ys ++ b :: zs) →
    List.IsChain (fun u v => u.actual ≤ v.actual) (a :: (ys ++ [b])) →
      b.rectified - a.rectified = b.actual - a.actual

namespace PublishSession

theorem offers_monotone {s : PublishSession} (hs : DtsInv s) {frames : List (Media × Bool)}
    (htimed : TimedFrames frames) :
    (offers s frames).Pairwise fun a b => a.accepted = true → b.accepted = true →
      a.rectified ≤ b.rectified := by
  induction frames generalizing s with
  | nil => exact .nil
  | cons p frames ih =>
      obtain ⟨media, accepted⟩ := p
      obtain ⟨hmedia, hframes⟩ := htimed.of_cons
      obtain ⟨hoffered, -, -, hcurrent⟩ := offer_spec hs media accepted
      have hnext := hs.offer hmedia accepted
      refine .cons ?_ (ih hnext hframes)
      intro o ho haccepted _
      rw [hoffered] at haccepted ⊢
      have hyes : accepted = true := haccepted
      have hle := hnext.current_le hframes o ho
      rw [hcurrent, if_pos hyes] at hle
      exact hle

theorem TimedFrames.of_append {xs ys : List (Media × Bool)} (h : TimedFrames (xs ++ ys)) :
    TimedFrames xs ∧ TimedFrames ys :=
  ⟨fun p hp => h p (List.mem_append_left _ hp), fun p hp => h p (List.mem_append_right _ hp)⟩

/-- The session after a run that is not empty has seen the last frame of it last. -/
theorem afterOffers_concat (s : PublishSession) (frames : List (Media × Bool))
    (p : Media × Bool) :
    s.afterOffers (frames ++ [p]) = ((s.afterOffers frames).offer p.1 p.2).1 := by
  induction frames generalizing s with
  | nil => rfl
  | cons x frames ih => exact ih _

theorem offers_jumps {s : PublishSession} (hs : DtsInv s) {frames : List (Media × Bool)}
    (htimed : TimedFrames frames) {xs ys : List Offered} {a b : Offered}
    (hsplit : offers s frames = xs ++ a :: b :: ys) (hback : b.actual < a.actual) :
    ∀ o ∈ xs ++ [a], ∀ p ∈ b :: ys, o.accepted = true → p.accepted = true →
      o.rectified < p.rectified := by
  rw [List.append_cons] at hsplit
  obtain ⟨before, media, accepted, after, rfl, hbefore, rfl, rfl⟩ := offers_split_cons hsplit
  obtain ⟨hbefore', hafter⟩ := htimed.of_append
  obtain ⟨hmedia, hrest⟩ := hafter.of_cons
  have hmid := hs.afterOffers hbefore'
  -- the last frame of `before` is `a`, so the next frame goes back
  have hactual : (s.afterOffers before).lastActualDts = a.actual := by
    rcases List.eq_nil_or_concat before with rfl | ⟨front, last, rfl⟩
    · simp [offers] at hbefore
    · rw [List.concat_eq_append] at hbefore hbefore' ⊢
      have hpairs := offers_actual s (front ++ [last])
      rw [← hbefore, List.map_append, List.map_append] at hpairs
      have hlast := List.append_inj_right' hpairs rfl
      simp only [List.map_cons, List.map_nil, List.cons.injEq, Prod.mk.injEq, and_true] at hlast
      have hfront := hs.afterOffers hbefore'.of_append.1
      rw [afterOffers_concat, (offer_spec hfront last.1 last.2).2.1, hlast.1]
  have hspec := (offer_spec hmid media accepted).1
  rw [hspec, ← hactual] at hback
  obtain ⟨hfirst, habove⟩ := above_of_backflow hmid hmedia accepted hback
  intro o ho p hp ho' _
  have hle := (hs.le_current hbefore').2 o (hbefore ▸ ho) ho'
  rcases List.mem_cons.mp hp with rfl | hp
  · rw [hspec]
    exact Int.lt_of_le_of_lt hle hfirst
  · have hlt := habove.offers (hmid.offer hmedia accepted) hrest p hp
    exact Int.lt_of_le_of_lt hle hlt

theorem offers_rigid_between {s : PublishSession} (hs : DtsInv s) {frames : List (Media × Bool)}
    (htimed : TimedFrames frames) {xs ys zs : List Offered} {a b : Offered}
    (hsplit : offers s frames = xs ++ a :: (ys ++ b :: zs))
    (hchain : List.IsChain (fun u v => u.actual ≤ v.actual) (a :: (ys ++ [b]))) :
    b.rectified - a.rectified = b.actual - a.actual := by
  obtain ⟨before, media, accepted, after, rfl, -, rfl, hafter⟩ := offers_split_cons hsplit
  obtain ⟨hbefore, hafter'⟩ := htimed.of_append
  obtain ⟨hmedia, hrest⟩ := hafter'.of_cons
  have hmid := hs.afterOffers hbefore
  rw [List.append_cons] at hafter
  obtain ⟨between, later, rfl, hbetween, -⟩ := offers_split hafter.symm
  obtain ⟨hoffered, hactual, hend, -⟩ := offer_spec hmid media accepted
  have hdts : (ys ++ [b]).map Offered.actual = between.map fun p => p.1.dts := by
    have hpairs := congrArg (List.map Prod.fst) (offers_actual
      ((s.afterOffers before).offer media accepted).1 between)
    rw [← hbetween, List.map_map, List.map_map] at hpairs
    exact hpairs
  have hchain' : List.IsChain (· ≤ ·)
      (((s.afterOffers before).offer media accepted).1.lastActualDts
        :: between.map fun p => p.1.dts) := by
    rw [hactual, ← hdts]
    have hmap := List.isChain_map_of_isChain Offered.actual (fun _ _ h => h) hchain
    rw [List.map_cons, hoffered] at hmap
    exact hmap
  have hlast := offers_rigid (hmid.offer hmedia accepted) hrest.of_append.1 hchain' b
    (hbetween ▸ List.mem_append_right _ List.mem_cons_self)
  rw [hend] at hlast
  rw [hoffered]
  simp only
  omega

end PublishSession

/-- From `on_begin` of a fresh session on, whatever the cache answers, the rectified dts
    satisfy the law. -/
theorem rectifyDts_law (s : PublishSession) (hfresh : s.world.pub.impl.currentDts = -1)
    (frames : List (Media × Bool)) (htimed : ∀ p ∈ frames, 0 ≤ p.1.dts) :
    RectifiedLaw (s.onBegin.offers frames) where
  monotone := PublishSession.offers_monotone (.onBegin hfresh) htimed
  jumps _ _ _ _ hsplit hback :=
    PublishSession.offers_jumps (.onBegin hfresh) htimed hsplit hback
  rigid _ _ _ _ _ hsplit hchain :=
    PublishSession.offers_rigid_between (.onBegin hfresh) htimed hsplit hchain

/-- A backflow whose first frame is rejected, and one before anything was accepted. -/
theorem rectifyDts_law_backflow :
    ((publishing {} strictLoader fun _ => (.rtmp, .all)).init.onBegin.offers
        [({ dts := 7 }, false), ({ dts := 3 }, true), ({ dts := 5 }, true),
          ({ dts := 0 }, false), ({ dts := 2 }, true)]
      = [⟨7, 7, false⟩, ⟨3, 3, true⟩, ⟨5, 5, true⟩, ⟨0, 6, false⟩, ⟨2, 8, true⟩])
      ∧ RectifiedLaw ((publishing {} strictLoader fun _ => (.rtmp, .all)).init.onBegin.offers
        [({ dts := 7 }, false), ({ dts := 3 }, true), ({ dts := 5 }, true),
          ({ dts := 0 }, false), ({ dts := 2 }, true)]) :=
  ⟨by decide +kernel, rectifyDts_law _ rfl _ (by decide)⟩

end SeastarLive
