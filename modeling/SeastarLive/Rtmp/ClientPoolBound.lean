/-
SeastarLive.Rtmp.ClientPoolBound — the limit on the connections of an RTMP client.

`with_connection` of `client` in `src/rtmp/client.cc` while `_max_connections` is left alone:
any number of requests on one shard, each of which tests the size of the pool, waits on
`_not_full` or has a connection made, puts it into the pool, and takes it out again when its
request has ended.

* The steps are those of `rtmpClient` but for `set_maximum_connections`. A connection may
  also fail to be made; the request fails then and leaves no trace.
* `get_connection` compares the limit with the connections of the pool. Those that are being
  made are not in it yet, so the limit holds exactly in the runs in which they would not have
  changed the answer.
-/
import SeastarLive.Rtmp.ClientPool

namespace SeastarLive

/-- What happens on a shard that leaves the limit alone. -/
inductive SharingStep
  | requests (a : PoolStep)
  /-- `make` fails -/
  | notConnected
deriving DecidableEq

/-- The step is not `set_maximum_connections`. -/
def PoolStep.keepsMaximum : PoolStep → Bool
  | .setMaximum _ => false
  | _ => true

namespace RtmpClient

variable (s : RtmpClient)

def sharingEnabled : SharingStep → Prop
  | .requests a => s.enabled a ∧ a.keepsMaximum = true
  | .notConnected => 0 < s.making

def sharingStep : SharingStep → Except PoolFault RtmpClient
  | .requests a => s.step a
  | .notConnected => .ok { s with making := s.making - 1 }

instance (a : SharingStep) : Decidable (s.sharingEnabled a) := by
  cases a <;> unfold sharingEnabled <;> infer_instance

/-- `get_connection` is called and has a connection made. -/
def Admits : SharingStep → Prop
  | .requests .request => s.pool.length < s.maxConnections
  | .requests .wake => s.pool.length < s.maxConnections
  | _ => False

/-- A request is admitted only if the connections that are being made leave room for it. -/
def HasRoom (a : SharingStep) : Prop :=
  s.Admits a → s.pool.length + s.making < s.maxConnections

instance (a : SharingStep) : Decidable (s.Admits a) := by
  unfold Admits
  split <;> infer_instance

instance (a : SharingStep) : Decidable (s.HasRoom a) :=
  inferInstanceAs (Decidable (_ → _))

end RtmpClient

/-- A client that is asked for any requests while its limit stays. -/
def sharedClient (maxConnections : Nat) : Machine RtmpClient SharingStep PoolFault where
  init := { maxConnections := maxConnections }
  enabled := RtmpClient.sharingEnabled
  step := RtmpClient.sharingStep

instance (n : Nat) (s : RtmpClient) (a : SharingStep) :
    Decidable ((sharedClient n).enabled s a) :=
  inferInstanceAs (Decidable (s.sharingEnabled a))

/-! ## One step -/

/-- While the limit stays, nothing is shrunk and the connections of the pool are those in
    use. -/
structure RtmpClient.Shares (n : Nat) (s : RtmpClient) : Prop where
  maximum : s.maxConnections = n
  shrinking : s.shrinking = 0
  inUse : s.inUse = s.pool

theorem RtmpClient.getConnection_admits {s : RtmpClient}
    (h : s.pool.length < s.maxConnections) :
    s.getConnection = { s with making := s.making + 1 } :=
  if_neg (Nat.not_le.mpr h)

theorem RtmpClient.getConnection_waits {s : RtmpClient}
    (h : ¬ s.pool.length < s.maxConnections) :
    s.getConnection = { s with waiting := s.waiting + 1 } :=
  if_pos (Nat.not_lt.mp h)

/-- The end of a request leaves the limit and the connections that are being made. -/
theorem step_answered_same {s t : RtmpClient} {conn : Connection}
    (hrun : s.step (.answered conn) = .ok t) :
    t.maxConnections = s.maxConnections ∧ t.shrinking = s.shrinking ∧ t.making = s.making := by
  unfold RtmpClient.step at hrun
  dsimp only at hrun
  split at hrun
  · cases hrun
  · have hrun := Except.ok.inj hrun
    subst hrun
    split <;> exact ⟨rfl, rfl, rfl⟩

/-- An admitted request has a connection made, and changes neither the pool nor what is
    shared. -/
theorem RtmpClient.Shares.step_admitted {n : Nat} {s t : RtmpClient} {a : SharingStep}
    (h : s.Shares n) (hadmits : s.Admits a) (hrun : s.sharingStep a = .ok t) :
    t.Shares n ∧ t.pool = s.pool ∧ t.making = s.making + 1 := by
  unfold RtmpClient.Admits at hadmits
  split at hadmits
  · have hrun := Except.ok.inj hrun
    rw [RtmpClient.getConnection_admits hadmits] at hrun
    subst hrun
    exact ⟨⟨h.maximum, h.shrinking, h.inUse⟩, rfl, rfl⟩
  · have hrun := Except.ok.inj hrun
    rw [RtmpClient.getConnection_admits (s := { s with woken := s.woken - 1 }) hadmits] at hrun
    subst hrun
    exact ⟨⟨h.maximum, h.shrinking, h.inUse⟩, rfl, rfl⟩
  · cases hadmits

/-- Any other step makes no room smaller. -/
theorem RtmpClient.Shares.step_other {n : Nat} {s t : RtmpClient} {a : SharingStep}
    (h : s.Shares n) (henabled : s.sharingEnabled a) (hother : ¬ s.Admits a)
    (hrun : s.sharingStep a = .ok t) :
    t.Shares n ∧ t.pool.length + t.making ≤ s.pool.length + s.making := by
  cases a with
  | notConnected =>
      cases hrun
      exact ⟨⟨h.maximum, h.shrinking, h.inUse⟩, Nat.add_le_add_left (Nat.sub_le _ _) _⟩
  | requests a =>
      cases a with
      | request =>
          have hrun := Except.ok.inj hrun
          rw [RtmpClient.getConnection_waits hother] at hrun
          subst hrun
          exact ⟨⟨h.maximum, h.shrinking, h.inUse⟩, Nat.le_refl _⟩
      | wake =>
          have hrun := Except.ok.inj hrun
          rw [RtmpClient.getConnection_waits (s := { s with woken := s.woken - 1 }) hother] at hrun
          subst hrun
          exact ⟨⟨h.maximum, h.shrinking, h.inUse⟩, Nat.le_refl _⟩
      | connected =>
          cases hrun
          refine ⟨⟨h.maximum, h.shrinking, congrArg (· ++ [s.made]) h.inUse⟩, ?_⟩
          have hmaking : 0 < s.making := henabled.1
          simp only [RtmpClient.putConnection, List.length_append, List.length_singleton]
          omega
      | answered conn =>
          obtain ⟨hpool, hinUse, -⟩ := step_answered hrun
          obtain ⟨hmaximum, hshrinking, hmaking⟩ := step_answered_same hrun
          refine ⟨⟨hmaximum.trans h.maximum, hshrinking.trans h.shrinking, ?_⟩, ?_⟩
          · rw [hinUse, hpool, h.inUse]
          · rw [hpool, hmaking]
            exact Nat.add_le_add_right List.length_erase_le _
      | setMaximum nr => exact absurd henabled.2 Bool.false_ne_true
      | closed =>
          have hshrinking : 0 < s.shrinking := henabled.1
          rw [h.shrinking] at hshrinking
          cases hshrinking

theorem RtmpClient.Shares.step {n : Nat} {s t : RtmpClient} {a : SharingStep} (h : s.Shares n)
    (henabled : s.sharingEnabled a) (hrun : s.sharingStep a = .ok t) : t.Shares n := by
  by_cases hadmits : s.Admits a
  · exact (h.step_admitted hadmits hrun).1
  · exact (h.step_other henabled hadmits hrun).1

theorem sharedClient_shares {n : Nat} {s : RtmpClient} (hs : (sharedClient n).Reachable s) :
    s.Shares n :=
  hs.invariant ⟨rfl, rfl, rfl⟩ fun _ _ _ h henabled hrun => h.step henabled hrun

/-! ## Runs -/

/-- Where every admitted request found room, the pool and the connections that are being made
    are within the limit together. -/
theorem sharedClient_room {n : Nat} {s : RtmpClient}
    (hs : ((sharedClient n).restrict RtmpClient.HasRoom).Reachable s) :
    s.pool.length + s.making ≤ n := by
  have hinit : ([] : List Connection).length + 0 ≤ n := Nat.zero_le n
  refine hs.invariant_reachable (P := fun s => s.pool.length + s.making ≤ n) hinit ?_
  intro s a t hreach hle henabled hrun
  have hshares := sharedClient_shares hreach.of_restrict
  by_cases hadmits : s.Admits a
  · obtain ⟨-, hpool, hmaking⟩ := hshares.step_admitted hadmits hrun
    have hroom := henabled.2 hadmits
    rw [hshares.maximum] at hroom
    rw [hpool, hmaking]
    omega
  · exact Nat.le_trans (hshares.step_other henabled.1 hadmits hrun).2 hle

/-- The connections that are being made may all come to be, one after the other. -/
theorem steps_connected {n : Nat} (s : RtmpClient) {k : Nat} (hk : k ≤ s.making) :
    ∃ t, (sharedClient n).Steps s t ∧ t.pool.length = s.pool.length + k
      ∧ t.making = s.making - k := by
  induction k with
  | zero => exact ⟨s, .refl, rfl, rfl⟩
  | succ k ih =>
      obtain ⟨t, hsteps, hpool, hmaking⟩ := ih (by omega)
      have henabled : (sharedClient n).enabled t (.requests .connected) :=
        ⟨show 0 < t.making by omega, rfl⟩
      refine ⟨{ t with making := t.making - 1 }.putConnection, hsteps.step henabled rfl, ?_, ?_⟩
      · simp only [RtmpClient.putConnection, List.length_append, List.length_singleton]
        omega
      · show t.making - 1 = _
        omega

/-- While every admitted request finds room, the pool and the requests in progress stay within
    the limit. A request that is admitted without room may bring both above it. -/
theorem connection_pool_bound (n : Nat) :
    (∀ s, ((sharedClient n).restrict RtmpClient.HasRoom).Reachable s →
      s.pool.length ≤ n ∧ s.inUse.length ≤ n)
    ∧ ∀ s a t, (sharedClient n).Reachable s → (sharedClient n).enabled s a →
        (sharedClient n).step s a = .ok t → ¬ s.HasRoom a →
        ∃ u, (sharedClient n).Steps t u ∧ n < u.pool.length ∧ n < u.inUse.length := by
  constructor
  · intro s hs
    have hroom := sharedClient_room hs
    rw [(sharedClient_shares hs.of_restrict).inUse]
    exact ⟨by omega, by omega⟩
  · intro s a t hs henabled hrun hfull
    have hshares := sharedClient_shares hs
    obtain ⟨hadmits, hfull⟩ := Classical.not_imp.mp hfull
    obtain ⟨-, hpool, hmaking⟩ := hshares.step_admitted hadmits hrun
    obtain ⟨u, hsteps, hu, -⟩ := steps_connected (n := n) t (Nat.le_refl t.making)
    have hmax := hshares.maximum
    have hlt : n < u.pool.length := by
      rw [hu, hpool, hmaking]
      omega
    have hreach := (hs.step henabled hrun).steps hsteps
    exact ⟨u, hsteps, hlt, (sharedClient_shares hreach).inUse.symm ▸ hlt⟩

/-- With a limit of one: a request alone, and a request that starts while a connection is being
    made. -/
theorem connection_pool_bound_one :
    (∃ s, ((sharedClient 1).restrict RtmpClient.HasRoom).Reachable s ∧ s.pool = [0]
      ∧ s.pool.length ≤ 1 ∧ s.inUse.length ≤ 1)
    ∧ ∃ t u, (sharedClient 1).Steps t u ∧ t.making = 2 ∧ 1 < u.pool.length
        ∧ 1 < u.inUse.length := by
  constructor
  · obtain ⟨s, hs, hp⟩ := Machine.reachable_of_runs
      (M := (sharedClient 1).restrict RtmpClient.HasRoom)
      (p := fun s => decide (s.pool = [0]))
      [.requests .request, .requests .connected] (by decide)
    exact ⟨s, hs, of_decide_eq_true hp, (connection_pool_bound 1).1 s hs⟩
  · have hs : (sharedClient 1).Reachable { maxConnections := 1, making := 1 } :=
      .step (a := .requests .request) .init ⟨trivial, rfl⟩ rfl
    obtain ⟨u, hsteps, hpool, hinUse⟩ := (connection_pool_bound 1).2 _ (.requests .request)
      { maxConnections := 1, making := 2 } hs ⟨trivial, rfl⟩ rfl (by decide)
    exact ⟨_, u, hsteps, rfl, hpool, hinUse⟩

/-- Two requests that start together, with a limit of one. -/
theorem connection_pool_exceeds :
    ∃ s, (sharedClient 1).Reachable s ∧ ¬ (s.pool.length ≤ 1 ∧ s.inUse.length ≤ 1) := by
  obtain ⟨s, hs, hp⟩ := Machine.reachable_of_runs (M := sharedClient 1)
    (p := fun s => decide (¬ (s.pool.length ≤ 1 ∧ s.inUse.length ≤ 1)))
    [.requests .request, .requests .request, .requests .connected, .requests .connected]
    (by decide)
  exact ⟨s, hs, of_decide_eq_true hp⟩

end SeastarLive
