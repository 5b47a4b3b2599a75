/-
SeastarLive.Frame.GopEviction — how much the cache evicts.

`update_gop` drops the first GOP as long as what starts with the second one
lasts `_min_cache_duration`. `gopQueue_eviction` says what is left after
`add_frame` took a media frame: whole leading GOPs are gone, no more of them
than leave the minimal duration, and none that could still go. The recursion
of the source is bounded by the number of GOPs.
-/
import SeastarLive.Frame.GopAggregates

namespace SeastarLive

open Flv HeaderStream

namespace GopQueue

/-! ## The test of `update_gop` -/

theorem firstMedia_of_hasMedia {g : FrameQueue} (hwf : g.Wf) (hg : g.hasMedia = true) :
    ∃ m, firstMedia g.queue = some (.media m) := by
  obtain ⟨f, hf⟩ := Option.isSome_iff_exists.mp hg
  have hfirst : firstMedia g.queue = some f := by
    rw [← hf, hwf.firstMedia]
    rfl
  obtain ⟨m, rfl, -⟩ := isMedia_of_firstMedia hfirst
  exact ⟨m, hfirst⟩

/-- The second GOP of a cache with a closed GOP. -/
theorem secondGop_eq {q : GopQueue} {front first : FrameQueue} {rest : List FrameQueue}
    (hq : q.allGops = front :: first :: rest) : q.secondGop = first := by
  unfold allGops at hq
  unfold secondGop
  match hgops : q.gops with
  | [] => simp [hgops] at hq
  | [g] =>
      rw [hgops] at hq
      simp only [List.cons_append, List.nil_append, List.cons.injEq] at hq
      exact hq.2.1
  | g :: g' :: gs =>
      rw [hgops] at hq
      simp only [List.cons_append, List.cons.injEq] at hq
      exact hq.2.1

/-- With a closed GOP there is a second GOP, and it has media. -/
theorem Pointed.secondGop_media {q : GopQueue} {h : List Frame} (hinv : Inv q h)
    (hq : Pointed q) (hne : q.gops ≠ []) :
    q.secondGop.Wf ∧ q.secondGop.hasMedia = true := by
  match hgops : q.gops with
  | [] => exact absurd hgops hne
  | [front] =>
      simp only [secondGop, hgops]
      exact ⟨hinv.current_wf, hq.current_media hne⟩
  | front :: second :: gops =>
      simp only [secondGop, hgops]
      exact hinv.gops_wf second (by rw [hgops]; simp)

/-- The test of `update_gop` in a cache with a closed GOP: the time from the second GOP
    on is not below the minimum. -/
theorem Pointed.requireUpdateGop_eq {q : GopQueue} {h : List Frame} (hinv : Inv q h)
    (hq : Pointed q) (hne : q.gops ≠ []) {latest : Media}
    (hlatest : lastMedia q.allFrames = some (.media latest)) :
    ∃ second, firstMedia q.secondGop.queue = some (.media second)
      ∧ q.requireUpdateGop
        = .ok (!decide (((latest.dts - second.dts : Int) : Rat) < q.minCacheDuration * 1000)) := by
  obtain ⟨hwf, hmedia⟩ := hq.secondGop_media hinv hne
  obtain ⟨second, hsecond⟩ := firstMedia_of_hasMedia hwf hmedia
  refine ⟨second, hsecond, ?_⟩
  have hlen : ¬ q.gops.length < 1 := by
    have hpos := List.length_pos_of_ne_nil hne
    omega
  have hempty : q.secondGop.empty = false := by
    have hqueue := queue_ne_nil_of_hasMedia hwf hmedia
    simpa [FrameQueue.empty] using hqueue
  have hsf : q.secondGop.firstMediaFrame = some (.media second) := by
    rw [hwf.firstMedia]
    exact hsecond
  have hlf : q.latestMediaFrame = some (.media latest) := hq.latestMedia.trans hlatest
  simp [requireUpdateGop, hlen, hempty, hsf, hlf]

/-! ## One eviction -/

/-- The GOPs that are left of `kept`: the same, the first one perhaps with metadata put in
    front of it. -/
inductive Retains (kept : List FrameQueue) : List FrameQueue → Prop
  | same : Retains kept kept
  | headed {first : FrameQueue} {rest : List FrameQueue} (m : Metadata) :
      kept = first :: rest → Retains kept (first.pushFront (.metadata m) :: rest)

/-- The retained media spans the minimal duration. -/
def Spans (d : Rat) (frames : List Frame) : Prop :=
  ∃ first latest, firstMedia frames = some (.media first)
    ∧ lastMedia frames = some (.media latest)
    ∧ d * 1000 ≤ ((latest.dts - first.dts : Int) : Rat)

/-- What an eviction in progress has made of the GOPs `placed`. -/
structure Evicting (placed : List FrameQueue) (d : Rat) (latest : Media) (q : GopQueue) :
    Prop where
  pointed : Pointed q
  duration : q.minCacheDuration = d
  latest_eq : lastMedia q.allFrames = some (.media latest)
  leading : ∃ evicted kept, placed = evicted ++ kept ∧ Retains kept q.allGops
    ∧ (evicted ≠ [] → Spans d q.allFrames)

theorem firstMedia_restarted {g : FrameQueue} {m : Metadata} :
    firstMedia (restarted g (.metadata m)).queue = firstMedia g.queue := by
  unfold restarted
  split
  · rfl
  · rename_i hs
    rw [FrameQueue.pushFront_metadata_queue (Bool.eq_false_iff.mpr hs), firstMedia_metadata]

/-- Dropping the first GOP, when the test says so. -/
theorem Evicting.popGop {placed : List FrameQueue} {d : Rat} {latest : Media} {q q' : GopQueue}
    {h : List Frame} (hinv : Inv q h) (hq : Evicting placed d latest q)
    (hrequire : q.requireUpdateGop = .ok true) (hrun : q.popGop = .ok q') :
    Evicting placed d latest q' := by
  have hne : q.gops ≠ [] := by
    obtain ⟨b, hb, hne⟩ := hinv.requireUpdateGop
    rw [hb] at hrequire
    cases hrequire
    exact hne rfl
  obtain ⟨q'', hrun', -, -, -, hmin⟩ := hinv.popGop hne
  rw [hrun] at hrun'
  cases hrun'
  have hpointed := hq.pointed.popGop hinv hne hrun
  have hlatest : lastMedia q'.allFrames = some (.media latest) := by
    obtain ⟨front, gops, m, -, -, -, hpop⟩ := hinv.popGop_eq hne
    rw [hrun] at hpop
    cases hpop
    rw [← hpointed.latestMedia, ← hq.latest_eq, ← hq.pointed.latestMedia]
    unfold onPopGop restartFirstGop
    split
    · rfl
    · split <;> rfl
  obtain ⟨front, first, rest, m, hall, hall'⟩ := hinv.popGop_allGops hne hrun
  -- the first frame retained is the first one of the GOP that was second
  have hspans : Spans d q'.allFrames := by
    obtain ⟨second, hsecond, htest⟩ := hq.pointed.requireUpdateGop_eq hinv hne hq.latest_eq
    rw [secondGop_eq hall] at hsecond
    rw [htest, hq.duration] at hrequire
    have hlong : ¬ ((latest.dts - second.dts : Int) : Rat) < d * 1000 := by
      simpa using hrequire
    refine ⟨second, latest, ?_, hlatest, Rat.not_lt.mp hlong⟩
    rw [allFrames_eq_allGops, hall', List.map_cons, List.flatten_cons, firstMedia_append,
      firstMedia_restarted, hsecond]
    rfl
  refine ⟨hpointed, hmin.trans hq.duration, hlatest, ?_⟩
  obtain ⟨evicted, kept, hplaced, hretains, -⟩ := hq.leading
  obtain ⟨g, hkept⟩ : ∃ g, kept = g :: first :: rest := by
    rw [hall] at hretains
    cases hretains with
    | same => exact ⟨front, rfl⟩
    | headed m hk => exact ⟨_, hk⟩
  refine ⟨evicted ++ [g], first :: rest, ?_, ?_, fun _ => hspans⟩
  · rw [hplaced, hkept, List.append_assoc, List.singleton_append]
  · rw [hall']
    unfold restarted
    split
    · exact .same
    · exact .headed m rfl

/-! ## The recursion -/

/-- More turns change nothing once the test says no. -/
theorem updateGop_more {turns : Nat} {q q' : GopQueue} (hrun : updateGop turns q = .ok q')
    (hdone : q'.requireUpdateGop = .ok false) (more : Nat) :
    updateGop (turns + more) q = .ok q' := by
  induction turns generalizing q with
  | zero =>
      cases hrun
      cases more with
      | zero => rw [Nat.zero_add, updateGop]
      | succ more => simp [updateGop, hdone]
  | succ turns ih =>
      rw [Nat.succ_add]
      obtain ⟨b, hb, hrest⟩ := bind_eq_ok hrun
      cases b with
      | false =>
          cases hrest
          simp [updateGop, hb]
      | true =>
          obtain ⟨q₁, hpop, hupdate⟩ := bind_eq_ok hrest
          simp [updateGop, hb, hpop, ih hupdate]

/-! ## From the placed frame to the end of the recursion -/

theorem Inv.lastMedia_concat {q : GopQueue} {h : List Frame} {m : Media}
    (hinv : Inv q (h ++ [.media m])) : lastMedia q.allFrames = some (.media m) := by
  have hlast := hinv.window.last_eq
  rw [List.getLast?_concat] at hlast
  obtain ⟨xs, hxs⟩ := List.getLast?_eq_some_iff.mp hlast
  rw [hxs, lastMedia_append, lastMedia_singleton]
  rfl

/-- A GOP that is metadata alone has no GOP before it. -/
theorem Pointed.gops_of_onlyMetadata {q : GopQueue} {h : List Frame} (hinv : Inv q h)
    (hq : Pointed q) (honly : q.current.onlyMetadata = true) : q.gops = [] := by
  have hnone := hinv.current_wf.hasMedia_of_onlyMetadata honly
  by_contra hne
  rw [hq.current_media hne] at hnone
  cases hnone

/-- The shortcut of a GOP that is metadata alone leaves nothing to evict: `add_frame` is the
    recursion on the frame placed. -/
theorem Pointed.addFrame_updateGop {q q' : GopQueue} {h : List Frame} (hinv : Inv q h)
    (hq : Pointed q) {m : Media} (hacc : q.accepts (.media m) = true)
    (hmin : 0 < q.minCacheDuration) (hadd : q.addFrame (.media m) = .ok (q', true)) :
    updateGop (q.placeFrame (.media m) (q.startsGop (.media m))).gops.length
      (q.placeFrame (.media m) (q.startsGop (.media m))) = .ok q' := by
  rw [hinv.addFrame_eq (f := .media m) rfl hacc rfl] at hadd
  split at hadd
  · obtain ⟨q₂, hupdate, hq₂⟩ := bind_eq_ok hadd
    cases hq₂
    exact hupdate
  · rename_i hskip
    cases hadd
    have honly : q.current.onlyMetadata = true := by simpa [evictsAfter, hmin] using hskip
    have hgops : (q.placeFrame (.media m) (q.startsGop (.media m))).gops = [] := by
      simp [GopQueue.placeFrame, startsGop, honly, hq.gops_of_onlyMetadata hinv honly]
    rw [hgops]
    rfl

/-- Where the test says no, no GOP is left that could go. -/
theorem Evicting.exhausted {placed : List FrameQueue} {d : Rat} {latest : Media} {q : GopQueue}
    {h : List Frame} (hq : Evicting placed d latest q) (hinv : Inv q h)
    (hdone : q.requireUpdateGop = .ok false) :
    q.gops = [] ∨ ∃ second, firstMedia q.secondGop.queue = some (.media second)
      ∧ ((latest.dts - second.dts : Int) : Rat) < d * 1000 := by
  by_cases hne : q.gops = []
  · exact .inl hne
  · obtain ⟨second, hsecond, htest⟩ := hq.pointed.requireUpdateGop_eq hinv hne hq.latest_eq
    rw [htest, hq.duration] at hdone
    exact .inr ⟨second, hsecond, by simpa using hdone⟩

end GopQueue

/-- What `add_frame` leaves of the GOPs when it takes the media frame `m`, for a minimal
    duration `d`. -/
structure EvictionLaw (q : GopQueue) (d : Rat) (m : Media) (q' : GopQueue) : Prop where
  /-- The frame is placed, and then whole leading GOPs are dropped; if there are any, what
      is left spans the minimal duration. -/
  leading : ∃ evicted kept,
    (q.placeFrame (.media m) (q.startsGop (.media m))).allGops = evicted ++ kept
      ∧ GopQueue.Retains kept q'.allGops ∧ (evicted ≠ [] → GopQueue.Spans d q'.allFrames)
  /-- The frame is the latest one, and no GOP is left that could go. -/
  latest : lastMedia q'.allFrames = some (.media m)
  exhausted : q'.gops = [] ∨ ∃ second, firstMedia q'.secondGop.queue = some (.media second)
    ∧ ((m.dts - second.dts : Int) : Rat) < d * 1000
  /-- The recursion ends: any number of turns from the number of GOPs on gives `q'`. -/
  terminates : ∀ turns,
    (q.placeFrame (.media m) (q.startsGop (.media m))).gops.length ≤ turns →
      GopQueue.updateGop turns (q.placeFrame (.media m) (q.startsGop (.media m))) = .ok q'

/-- Eviction is sufficient and minimal, in every state reached. -/
theorem gopQueue_eviction (s : CacheHistory) (hs : cacheMachine.Reachable s) (d : Rat)
    (hd : 0 < d) (hmin : s.cache.minCacheDuration = d) (m : Media) (q' : GopQueue)
    (hadd : s.cache.addFrame (.media m) = .ok (q', true)) : EvictionLaw s.cache d m q' := by
  obtain ⟨hinv, -⟩ := CacheHistory.inv_of_reachable hs
  have hpointed := CacheHistory.pointed_of_reachable hs
  have hacc : s.cache.accepts (.media m) = true := by
    rcases hinv.addFrame (f := .media m) rfl with ⟨-, hsame⟩ | ⟨q'', hacc, -⟩
    · rw [hsame] at hadd
      cases hadd
    · exact hacc
  have hhead := hinv.allFrames_of_accepts hacc
  have hinv₁ := hinv.placeFrame hhead (GopQueue.startsGop_body (q := s.cache))
  have hpointed₁ := hpointed.placeFrame hinv rfl hhead
    (GopQueue.startsGop_body (q := s.cache) (f := .media m))
  have hmin₁ := (GopQueue.placeFrame_minCacheDuration s.cache (.media m)
    (s.cache.startsGop (.media m))).trans hmin
  have hupdate := hpointed.addFrame_updateGop hinv hacc (by rw [hmin]; exact hd) hadd
  generalize hq₁ : s.cache.placeFrame (.media m) (s.cache.startsGop (.media m)) = q₁
    at hinv₁ hpointed₁ hmin₁ hupdate
  have hstart : GopQueue.Evicting q₁.allGops d m q₁ :=
    ⟨hpointed₁, hmin₁, hinv₁.lastMedia_concat, [], q₁.allGops, rfl, .same,
      fun hne => absurd rfl hne⟩
  have hdone := hinv₁.updateGop_done hupdate
  obtain ⟨q'', hupdate', hinv', -⟩ := hinv₁.updateGop q₁.gops.length
  rw [hupdate] at hupdate'
  cases hupdate'
  have hend : GopQueue.Evicting q₁.allGops d m q' := by
    refine hinv₁.updateGop_rule ?_ hstart hupdate
    exact fun hq hp hrequire hpop => hp.popGop hq hrequire hpop
  refine ⟨by rw [hq₁]; exact hend.leading, hend.latest_eq, hend.exhausted hinv' hdone, ?_⟩
  intro turns hturns
  rw [hq₁] at hturns ⊢
  obtain ⟨more, rfl⟩ := Nat.exists_eq_add_of_le hturns
  exact GopQueue.updateGop_more hupdate hdone more

/-- A frame that drops two GOPs at once, the first of which had the only metadata. -/
theorem gopQueue_eviction_two :
    ∃ s q', cacheMachine.Reachable s
      ∧ s.cache.addFrame (.media (sampleVideo true 2500)) = .ok (q', true)
      ∧ (s.cache.gops.length = 2 ∧ q'.gops.length = 1)
      ∧ EvictionLaw s.cache 1 (sampleVideo true 2500) q' := by
  obtain ⟨s, hs, hp⟩ := Machine.reachable_of_runs (M := cacheMachine)
    (p := fun s => decide (s.cache.minCacheDuration = 1) && decide (s.cache.gops.length = 2)
      && (s.cache.addFrame (.media (sampleVideo true 2500))).toOption.any
        fun r : GopQueue × Bool => r.2 && decide (r.1.gops.length = 1))
    [.setMinCacheDuration 1, .addMetadata (sampleMetadata true false),
      .addMedia (sampleVideo true 0), .addMedia (sampleVideo true 500),
      .addMedia (sampleVideo true 1000)] (by decide +kernel)
  simp only [Bool.and_eq_true, decide_eq_true_eq] at hp
  obtain ⟨⟨hmin, hgops⟩, hadd⟩ := hp
  cases hrun : s.cache.addFrame (.media (sampleVideo true 2500)) with
  | error e =>
      rw [hrun] at hadd
      cases hadd
  | ok r =>
      obtain ⟨q', added⟩ := r
      rw [hrun] at hadd
      simp only [Except.toOption, Option.any_some, Bool.and_eq_true, decide_eq_true_eq] at hadd
      obtain ⟨rfl, hgops'⟩ := hadd
      exact ⟨s, q', hs, hrun, ⟨hgops, hgops'⟩,
        gopQueue_eviction s hs 1 (by decide) hmin (sampleVideo true 2500) q' hrun⟩

end SeastarLive
