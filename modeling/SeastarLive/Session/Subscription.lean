/-
SeastarLive.Session.Subscription — how players come onto a publisher's lists and
off them again.

`subscribe` and `unsubscribe` of `src/session/play_session.cc` and of the
players that override them (`src/session/rtmp/play_session.cc`,
`src/session/http1/play_session.cc`, `src/session/hls/play_session.cc`), as
`on_begin` and `on_end` call them, with the two lists of a publisher: the one of
the base class and the one of the RTMP class.

* Players are pointers, numbered here. An item is in a list once; the lists
  carry that.
* What `on_begin` and `on_end` do to the player itself is left out, and so is
  the delay that `subscribe` copies to it.
* The HLS player overrides `subscribe` only.
-/
import SeastarLive.Session.PlaySession
import SeastarLive.Session.Subscribers

namespace SeastarLive

/-! ## Lists of subscribers -/

/-- `subscriber_item`. -/
structure SubscriberItem where
  sub : Nat
  receiving : Bool := false
deriving DecidableEq

/-- `_subscribers`, of either class. -/
structure SubscriberList where
  items : List SubscriberItem := []
  distinct : (items.map SubscriberItem.sub).Nodup := by exact List.nodup_nil

namespace SubscriberList

variable (l : SubscriberList) (sub : Nat)

/-- The subscribers in the list. -/
def subs : List Nat := l.items.map SubscriberItem.sub

theorem distinct_push (h : sub ∉ l.subs) :
    ((l.items ++ [SubscriberItem.mk sub false]).map SubscriberItem.sub).Nodup := by
  rw [List.map_append, List.map_singleton, ← List.concat_eq_append, List.nodup_concat]
  exact ⟨h, l.distinct⟩

theorem distinct_erase :
    ((l.items.eraseP fun item => item.sub == sub).map SubscriberItem.sub).Nodup :=
  l.distinct.sublist (List.eraseP_sublist.map SubscriberItem.sub)

/-- The item of a subscriber is told that it is receiving. -/
def received (item : SubscriberItem) : SubscriberItem :=
  if item.sub = sub then { item with receiving := true } else item

theorem received_sub (item : SubscriberItem) : (received sub item).sub = item.sub := by
  unfold received
  split <;> rfl

theorem distinct_received : ((l.items.map (received sub)).map SubscriberItem.sub).Nodup := by
  rw [List.map_map, show SubscriberItem.sub ∘ received sub = SubscriberItem.sub from
    funext (received_sub sub)]
  exact l.distinct

/-- `add_subscriber` and `add_rtmp_subscriber`. -/
def add : SubscriberList :=
  if h : sub ∈ l.subs then l else ⟨l.items ++ [SubscriberItem.mk sub false], l.distinct_push sub h⟩

/-- `remove_subscriber` and `remove_rtmp_subscriber`. -/
def remove : SubscriberList := ⟨_, l.distinct_erase sub⟩

/-- A delivery to a subscriber has ended. -/
def markReceiving : SubscriberList := ⟨_, l.distinct_received sub⟩

/-- The items of the others. -/
def others : List SubscriberItem := l.items.filter fun item => decide (item.sub ≠ sub)

variable {l sub} {p : Nat}

/-- The subscribers are those of the lists that the end calls go through. -/
theorem add_subs : (l.add sub).subs = addItem l.subs sub := by
  unfold add addItem
  split
  · rfl
  · show (l.items ++ [_]).map SubscriberItem.sub = _
    rw [List.map_append]
    rfl

theorem remove_subs : (l.remove sub).subs = removeItem l.subs sub := by
  unfold removeItem subs
  rw [List.erase_eq_eraseP, List.eraseP_map]
  show (l.items.eraseP _).map SubscriberItem.sub = _
  congr 2
  funext item
  exact Bool.beq_comm

theorem markReceiving_subs : (l.markReceiving sub).subs = l.subs := by
  show (l.items.map (received sub)).map SubscriberItem.sub = _
  rw [List.map_map, show SubscriberItem.sub ∘ received sub = SubscriberItem.sub from
    funext (received_sub sub)]
  rfl

theorem mem_add_self : sub ∈ (l.add sub).subs := by
  rw [add_subs, addItem]
  split
  · assumption
  · exact List.mem_append_right _ (List.mem_singleton_self sub)

theorem mem_add (h : sub ≠ p) : p ∈ (l.add sub).subs ↔ p ∈ l.subs := by
  rw [add_subs, addItem]
  split
  · exact Iff.rfl
  · simp [h.symm]

theorem mem_remove (h : sub ≠ p) : p ∈ (l.remove sub).subs ↔ p ∈ l.subs := by
  rw [remove_subs, removeItem, List.mem_erase_of_ne h.symm]

theorem not_mem_remove_self : sub ∉ (l.remove sub).subs := by
  rw [remove_subs, removeItem]
  exact List.Nodup.not_mem_erase l.distinct

/-- Adding a subscriber does nothing to the others. -/
theorem others_add : (l.add p).others p = l.others p := by
  unfold add others
  split
  · rfl
  · rw [List.filter_append]
    simp

/-- Removing a subscriber does nothing to the others. -/
theorem others_remove : (l.remove p).others p = l.others p := by
  unfold remove others
  show (l.items.eraseP _).filter _ = _
  induction l.items with
  | nil => rfl
  | cons item items ih =>
      by_cases hitem : item.sub = p
      · rw [List.eraseP_cons_of_pos (by simpa using hitem),
          List.filter_cons_of_neg (by simp [hitem])]
      · rw [List.eraseP_cons_of_neg (by simpa using hitem),
          List.filter_cons_of_pos (by simp [hitem]), List.filter_cons_of_pos (by simp [hitem]), ih]

end SubscriberList

/-! ## Players on a publisher -/

/-- A publisher as players see it: whether it is an `rtmp::session::publish_session`, its
    protocol, and its lists. -/
structure SubscribedPublisher where
  isRtmp : Bool
  protocol : Protocol
  /-- `_subscribers` of the base class. -/
  subscribers : SubscriberList := {}
  /-- `_subscribers` of the RTMP class. -/
  rtmpSubscribers : SubscriberList := {}

namespace SubscribedPublisher

variable (w : SubscribedPublisher) (p : Nat)

def addSubscriber : SubscribedPublisher := { w with subscribers := w.subscribers.add p }

def removeSubscriber : SubscribedPublisher := { w with subscribers := w.subscribers.remove p }

def addRtmpSubscriber : SubscribedPublisher :=
  { w with rtmpSubscribers := w.rtmpSubscribers.add p }

def removeRtmpSubscriber : SubscribedPublisher :=
  { w with rtmpSubscribers := w.rtmpSubscribers.remove p }

/-- The test of the players: the publisher is of the RTMP class and speaks RTMP. -/
def takesRtmpSubscribers : Bool := w.isRtmp && decide (w.protocol = .rtmp)

/-- `play_session::subscribe` of the base class. -/
def subscribeBase : SubscribedPublisher := w.addSubscriber p

/-- `play_session::unsubscribe` of the base class. -/
def unsubscribeBase : SubscribedPublisher := w.removeSubscriber p

/-- What all three players do to subscribe. -/
def subscribeByProtocol : SubscribedPublisher :=
  if w.takesRtmpSubscribers then w.addRtmpSubscriber p else w.subscribeBase p

/-- What two of them do to unsubscribe. -/
def unsubscribeByProtocol : SubscribedPublisher :=
  if w.takesRtmpSubscribers then w.removeRtmpSubscriber p else w.unsubscribeBase p

/-- `subscribe`, by the kind of the player. -/
def subscribe : PlayerKind → SubscribedPublisher
  | .rtmp => w.subscribeByProtocol p
  | .httpFlv => w.subscribeByProtocol p
  | .hls => w.subscribeByProtocol p

/-- `unsubscribe`, by the kind of the player; that of the HLS player is the base class's. -/
def unsubscribe : PlayerKind → SubscribedPublisher
  | .rtmp => w.unsubscribeByProtocol p
  | .httpFlv => w.unsubscribeByProtocol p
  | .hls => w.unsubscribeBase p

/-- `on_begin` of a player. -/
def onBegin (kind : PlayerKind) : SubscribedPublisher := w.subscribe p kind

/-- `on_end` of a player. -/
def onEnd (kind : PlayerKind) : SubscribedPublisher := w.unsubscribe p kind

/-- A delivery has ended: each class marks the item in its own list. -/
def delivered : SubscribedPublisher :=
  if w.isRtmp then { w with rtmpSubscribers := w.rtmpSubscribers.markReceiving p }
  else { w with subscribers := w.subscribers.markReceiving p }

/-- `on_terminate` of the publisher. -/
def onTerminate : SubscribedPublisher := { w with subscribers := {}, rtmpSubscribers := {} }

end SubscribedPublisher

/-- What happens to the lists of a publisher. -/
inductive SubscriptionEvent
  | onBegin (kind : PlayerKind) (sub : Nat)
  | onEnd (kind : PlayerKind) (sub : Nat)
  | delivered (sub : Nat)
  | onTerminate
deriving DecidableEq

namespace SubscriptionEvent

/-- The event is the beginning or the end of this player. -/
def IsOf (p : Nat) : SubscriptionEvent → Prop
  | .onBegin _ sub => sub = p
  | .onEnd _ sub => sub = p
  | .delivered _ => False
  | .onTerminate => False

def apply (w : SubscribedPublisher) : SubscriptionEvent → SubscribedPublisher
  | .onBegin kind sub => w.onBegin sub kind
  | .onEnd kind sub => w.onEnd sub kind
  | .delivered sub => w.delivered sub
  | .onTerminate => w.onTerminate

end SubscriptionEvent

/-! ## The pair of a player -/

namespace SubscribedPublisher

variable {w : SubscribedPublisher} {p sub : Nat} {kind : PlayerKind} {e : SubscriptionEvent}
  {es : List SubscriptionEvent}

/-- The player is in neither list. -/
def Lacks (w : SubscribedPublisher) (p : Nat) : Prop :=
  p ∉ w.subscribers.subs ∧ p ∉ w.rtmpSubscribers.subs

/-- The items of the others, in both lists, with their flags. -/
def others (w : SubscribedPublisher) (p : Nat) : List SubscriberItem × List SubscriberItem :=
  (w.subscribers.others p, w.rtmpSubscribers.others p)

/-- The list that a player is put on. -/
theorem onBegin_eq (w : SubscribedPublisher) (p : Nat) (kind : PlayerKind) :
    w.onBegin p kind
      = if w.takesRtmpSubscribers then w.addRtmpSubscriber p else w.addSubscriber p := by
  cases kind <;> rfl

/-- The list that a player is taken off. -/
theorem onEnd_eq (w : SubscribedPublisher) (p : Nat) (kind : PlayerKind) :
    w.onEnd p kind
      = if w.takesRtmpSubscribers ∧ kind ≠ .hls then w.removeRtmpSubscriber p
        else w.removeSubscriber p := by
  have hboth : ∀ kind ≠ PlayerKind.hls, (if w.takesRtmpSubscribers then w.removeRtmpSubscriber p
      else w.removeSubscriber p) = if w.takesRtmpSubscribers ∧ kind ≠ .hls
        then w.removeRtmpSubscriber p else w.removeSubscriber p := by
    intro kind hkind
    simp only [hkind, ne_eq, not_false_eq_true, and_true]
  cases kind with
  | rtmp => exact hboth .rtmp (by decide)
  | httpFlv => exact hboth .httpFlv (by decide)
  | hls => exact (if_neg fun h => h.2 rfl).symm

theorem others_onBegin : (w.onBegin p kind).others p = w.others p := by
  rw [onBegin_eq]
  split
  · exact Prod.ext rfl SubscriberList.others_add
  · exact Prod.ext SubscriberList.others_add rfl

theorem others_onEnd : (w.onEnd p kind).others p = w.others p := by
  rw [onEnd_eq]
  split
  · exact Prod.ext rfl SubscriberList.others_remove
  · exact Prod.ext SubscriberList.others_remove rfl

/-! ## What others do in between -/

/-- The class and the protocol of a publisher do not change. -/
theorem takes_apply : (e.apply w).takesRtmpSubscribers = w.takesRtmpSubscribers := by
  cases e with
  | onBegin kind sub =>
      show (w.onBegin sub kind).takesRtmpSubscribers = _
      rw [onBegin_eq]
      split <;> rfl
  | onEnd kind sub =>
      show (w.onEnd sub kind).takesRtmpSubscribers = _
      rw [onEnd_eq]
      split <;> rfl
  | delivered sub =>
      show (w.delivered sub).takesRtmpSubscribers = _
      unfold delivered
      split <;> rfl
  | onTerminate => rfl

theorem takes_foldl (w : SubscribedPublisher) (es : List SubscriptionEvent) :
    (es.foldl SubscriptionEvent.apply w).takesRtmpSubscribers = w.takesRtmpSubscribers := by
  induction es generalizing w with
  | nil => rfl
  | cons e es ih => exact (ih _).trans takes_apply

/-- An event of others leaves the player where it is, unless it empties the lists. -/
theorem mem_apply (he : ¬ e.IsOf p) :
    (p ∈ (e.apply w).subscribers.subs ↔ e ≠ .onTerminate ∧ p ∈ w.subscribers.subs)
      ∧ (p ∈ (e.apply w).rtmpSubscribers.subs
          ↔ e ≠ .onTerminate ∧ p ∈ w.rtmpSubscribers.subs) := by
  cases e with
  | onBegin kind sub =>
      have hne : sub ≠ p := he
      simp only [ne_eq, reduceCtorEq, not_false_eq_true, true_and]
      show (p ∈ (w.onBegin sub kind).subscribers.subs ↔ _)
        ∧ (p ∈ (w.onBegin sub kind).rtmpSubscribers.subs ↔ _)
      rw [onBegin_eq]
      split
      · exact ⟨Iff.rfl, SubscriberList.mem_add hne⟩
      · exact ⟨SubscriberList.mem_add hne, Iff.rfl⟩
  | onEnd kind sub =>
      have hne : sub ≠ p := he
      simp only [ne_eq, reduceCtorEq, not_false_eq_true, true_and]
      show (p ∈ (w.onEnd sub kind).subscribers.subs ↔ _)
        ∧ (p ∈ (w.onEnd sub kind).rtmpSubscribers.subs ↔ _)
      rw [onEnd_eq]
      split
      · exact ⟨Iff.rfl, SubscriberList.mem_remove hne⟩
      · exact ⟨SubscriberList.mem_remove hne, Iff.rfl⟩
  | delivered sub =>
      simp only [ne_eq, reduceCtorEq, not_false_eq_true, true_and]
      show (p ∈ (w.delivered sub).subscribers.subs ↔ _)
        ∧ (p ∈ (w.delivered sub).rtmpSubscribers.subs ↔ _)
      unfold delivered
      split
      · exact ⟨Iff.rfl, by rw [SubscriberList.markReceiving_subs]⟩
      · exact ⟨by rw [SubscriberList.markReceiving_subs], Iff.rfl⟩
  | onTerminate =>
      refine ⟨iff_of_false ?_ fun h => h.1 rfl, iff_of_false ?_ fun h => h.1 rfl⟩
      · exact List.not_mem_nil
      · exact List.not_mem_nil

theorem mem_foldl (hes : ∀ e ∈ es, ¬ e.IsOf p) (w : SubscribedPublisher) :
    (p ∈ (es.foldl SubscriptionEvent.apply w).subscribers.subs
        ↔ .onTerminate ∉ es ∧ p ∈ w.subscribers.subs)
      ∧ (p ∈ (es.foldl SubscriptionEvent.apply w).rtmpSubscribers.subs
          ↔ .onTerminate ∉ es ∧ p ∈ w.rtmpSubscribers.subs) := by
  induction es generalizing w with
  | nil => simp
  | cons e es ih =>
      obtain ⟨hbase, hrtmp⟩ := mem_apply (w := w) (hes e List.mem_cons_self)
      obtain ⟨hbases, hrtmps⟩ :=
        ih (fun e' he' => hes e' (List.mem_cons_of_mem e he')) (e.apply w)
      rw [List.foldl_cons, hbases, hrtmps, hbase, hrtmp, List.mem_cons, not_or, ne_comm]
      exact ⟨⟨fun h => ⟨⟨h.2.1, h.1⟩, h.2.2⟩, fun h => ⟨h.1.2, h.1.1, h.2⟩⟩,
        ⟨fun h => ⟨⟨h.2.1, h.1⟩, h.2.2⟩, fun h => ⟨h.1.2, h.1.1, h.2⟩⟩⟩

/-! ## The pair is matched -/

/-- `on_begin` of a player, the events of others, and `on_end`: the player is gone from both
    lists, and neither half touches an item of the others. -/
structure UndoesSubscribe (kind : PlayerKind) (w : SubscribedPublisher) (p : Nat)
    (es : List SubscriptionEvent) : Prop where
  begun : (w.onBegin p kind).others p = w.others p
  gone : ((es.foldl SubscriptionEvent.apply (w.onBegin p kind)).onEnd p kind).Lacks p
  ended : ((es.foldl SubscriptionEvent.apply (w.onBegin p kind)).onEnd p kind).others p
    = (es.foldl SubscriptionEvent.apply (w.onBegin p kind)).others p

/-- For every player, every publisher and its lists, and whatever others do in between: the pair
    is matched exactly if the player is no HLS player, or the publisher takes no RTMP
    subscribers, or it empties its lists in between. -/
theorem undoesSubscribe_iff (kind : PlayerKind) (hp : w.Lacks p)
    (hes : ∀ e ∈ es, ¬ e.IsOf p) :
    UndoesSubscribe kind w p es
      ↔ kind ≠ .hls ∨ w.takesRtmpSubscribers = false ∨ .onTerminate ∈ es := by
  obtain ⟨hbase, hrtmp⟩ := mem_foldl hes (w.onBegin p kind)
  have htakes : (es.foldl SubscriptionEvent.apply (w.onBegin p kind)).takesRtmpSubscribers
      = w.takesRtmpSubscribers := (takes_foldl _ es).trans (takes_apply (e := .onBegin kind p))
  have hgone : UndoesSubscribe kind w p es
      ↔ ((es.foldl SubscriptionEvent.apply (w.onBegin p kind)).onEnd p kind).Lacks p :=
    ⟨UndoesSubscribe.gone, fun h => ⟨others_onBegin, h, others_onEnd⟩⟩
  rw [hgone]
  generalize es.foldl SubscriptionEvent.apply (w.onBegin p kind) = u at hbase hrtmp htakes ⊢
  rw [onEnd_eq, htakes]
  rw [onBegin_eq] at hbase hrtmp
  cases htakes' : w.takesRtmpSubscribers with
  | false =>
      -- the base list on both sides
      rw [htakes', if_neg Bool.false_ne_true] at hrtmp
      rw [if_neg fun h => Bool.false_ne_true h.1]
      refine iff_of_true ⟨SubscriberList.not_mem_remove_self, ?_⟩ (.inr (.inl rfl))
      exact fun h => hp.2 (hrtmp.mp h).2
  | true =>
      rw [htakes', if_pos rfl] at hbase hrtmp
      by_cases hkind : kind = .hls
      · -- put on the RTMP list and taken off the base list
        rw [if_neg fun h => h.2 hkind]
        have hremain : (u.removeSubscriber p).Lacks p ↔ ¬ p ∈ u.rtmpSubscribers.subs :=
          ⟨And.right, fun h => ⟨SubscriberList.not_mem_remove_self, h⟩⟩
        have hin : p ∈ (w.addRtmpSubscriber p).rtmpSubscribers.subs := SubscriberList.mem_add_self
        rw [hremain, hrtmp]
        simp [hkind, hin]
      · rw [if_pos ⟨rfl, hkind⟩]
        refine iff_of_true ⟨?_, SubscriberList.not_mem_remove_self⟩ (.inl hkind)
        exact fun h => hp.1 (hbase.mp h).2

/-- An RTMP player beside another that is receiving, and a delivery to it. -/
theorem undoesSubscribe_rtmp :
    UndoesSubscribe .rtmp
      { isRtmp := true, protocol := .rtmp, rtmpSubscribers := ⟨[⟨7, true⟩], by decide⟩ } 8
      [.delivered 8] :=
  (undoesSubscribe_iff .rtmp (by unfold Lacks; decide) (by simp [SubscriptionEvent.IsOf])).mpr
    (.inl (by decide))

/-- An HLS player on an RTMP publisher. -/
theorem hls_stays_subscribed :
    ¬ ∀ (kind : PlayerKind) (w : SubscribedPublisher) (p : Nat) (es : List SubscriptionEvent),
      w.Lacks p → (∀ e ∈ es, ¬ e.IsOf p) → UndoesSubscribe kind w p es := by
  intro hall
  have hgone := (hall .hls { isRtmp := true, protocol := .rtmp } 0 []
    ⟨List.not_mem_nil, List.not_mem_nil⟩ nofun).gone
  exact hgone.2 (by decide)

end SubscribedPublisher

end SeastarLive
