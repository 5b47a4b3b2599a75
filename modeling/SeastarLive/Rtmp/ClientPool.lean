/-
SeastarLive.Rtmp.ClientPool — the connections of an RTMP client.

`get_connection`, `put_connection`, `remove_connection`, `shrink_connections`,
`set_maximum_connections` and `with_connection` of `client` in
`src/rtmp/client.cc`, on one shard with any number of requests in progress.

* A connection is a pointer to a new object, so connections are numbered in the
  order in which they are made.
* The limit is tested before a connection is made and the connection is put
  into the pool when it is there, so requests that start together all pass.
* `remove_connection` goes on without moving its iterator: it looks at the front
  of the pool only, and for ever if that is another connection. The shard runs
  nothing else then, and here the machine stops with a fault.
-/
import Mathlib.Data.List.Nodup
import SeastarLive.Lib.Loop
import SeastarLive.Lib.Transition

namespace SeastarLive

/-- A `connection_ptr`. -/
abbrev Connection := Nat

/-! ## Taking a connection out of the pool -/

/-- What `remove_connection` leaves: the pool, and whether it signals `_not_full`. -/
structure PoolRemoval where
  pool : List Connection
  broadcast : Bool
deriving DecidableEq

/-- The body of the loop of `remove_connection`, at the position `it`. -/
def removeConnectionBody (pool : List Connection) (conn : Connection) (it : Nat) :
    Nat ⊕ PoolRemoval :=
  match pool[it]? with
  | none => .inr ⟨pool, false⟩
  | some c =>
      -- `continue` in a `for` without an increment
      if c ≠ conn then .inl it
      else .inr ⟨pool.eraseIdx it, true⟩

/-- `remove_connection` returns, with this result. -/
def RemoveConnection (pool : List Connection) (conn : Connection) (r : PoolRemoval) : Prop :=
  Leaves (removeConnectionBody pool conn) 0 r

/-- `remove_connection` returns, having taken out the connection, and no other, if it was
    there, and signalled only then. -/
def RemovesConnection (pool : List Connection) (conn : Connection) : Prop :=
  ∃ r, RemoveConnection pool conn r ∧ r.pool = pool.erase conn
    ∧ (r.broadcast = true ↔ conn ∈ pool)

section Removal

variable {pool : List Connection} {c conn : Connection} {r : PoolRemoval}

theorem removeConnection_nil (conn : Connection) : RemoveConnection [] conn ⟨[], false⟩ :=
  leaves_left rfl

theorem removeConnection_front (conn : Connection) (rest : List Connection) :
    RemoveConnection (conn :: rest) conn ⟨rest, true⟩ := by
  refine leaves_left ?_
  simp [removeConnectionBody]

/-- The iterator stays at the front while that is another connection. -/
theorem not_removeConnection (h : c ≠ conn) (rest : List Connection) :
    ¬ RemoveConnection (c :: rest) conn r := by
  refine not_leaves_of_stays (P := fun it => it = 0) ?_ rfl
  rintro it rfl
  exact ⟨0, by simp [removeConnectionBody, h], rfl⟩

/-- `remove_connection` returns on an empty pool and with the connection in front. -/
theorem removeConnection_returns_iff :
    (∃ r, RemoveConnection pool conn r) ↔ pool = [] ∨ pool.head? = some conn := by
  cases pool with
  | nil => exact iff_of_true ⟨_, removeConnection_nil conn⟩ (.inl rfl)
  | cons c rest =>
      by_cases hc : c = conn
      · subst hc
        exact iff_of_true ⟨_, removeConnection_front c rest⟩ (.inr rfl)
      · refine iff_of_false ?_ ?_
        · rintro ⟨r, hr⟩
          exact not_removeConnection hc rest hr
        · rintro (hnil | hhead)
          · cases hnil
          · exact hc (Option.some.inj hhead)

/-- Where it returns, it has done what it is for. -/
theorem removeConnection_spec (h : RemoveConnection pool conn r) :
    r.pool = pool.erase conn ∧ (r.broadcast = true ↔ conn ∈ pool) := by
  rcases removeConnection_returns_iff.mp ⟨r, h⟩ with rfl | hhead
  · cases h.unique (removeConnection_nil conn)
    simp
  · obtain ⟨rest, rfl⟩ := List.head?_eq_some_iff.mp hhead
    cases h.unique (removeConnection_front conn rest)
    simp

end Removal

/-- `remove_connection` does what it is for exactly on an empty pool and on one that has the
    connection in front. -/
theorem removesConnection_iff (pool : List Connection) (conn : Connection) :
    RemovesConnection pool conn ↔ pool = [] ∨ pool.head? = some conn := by
  rw [← removeConnection_returns_iff]
  constructor
  · rintro ⟨r, hr, -⟩
    exact ⟨r, hr⟩
  · rintro ⟨r, hr⟩
    exact ⟨r, hr, removeConnection_spec hr⟩

/-! ## Requests that share the pool -/

/-- A client on its shard. -/
structure RtmpClient where
  /-- `_max_connections` -/
  maxConnections : Nat
  /-- `_pool` -/
  pool : List Connection := []
  /-- requests that wait on `_not_full` -/
  waiting : Nat := 0
  /-- requests that were signalled and call `get_connection` again -/
  woken : Nat := 0
  /-- connections that `make` is at work on -/
  making : Nat := 0
  /-- connections whose request has not ended -/
  inUse : List Connection := []
  /-- calls of `shrink_connections` that wait for a `close` -/
  shrinking : Nat := 0
  made : Nat := 0
deriving DecidableEq

/-- What happens on the shard. -/
inductive PoolStep
  /-- `make_request` -/
  | request
  /-- a signalled request goes on -/
  | wake
  /-- `make` has a connection, and it is put into the pool -/
  | connected
  /-- the request on this connection ends -/
  | answered (conn : Connection)
  /-- `set_maximum_connections` -/
  | setMaximum (nr : Nat)
  /-- the connection that `shrink_connections` took out is closed -/
  | closed
deriving DecidableEq

inductive PoolFault
  /-- `remove_connection` does not return. -/
  | hangs
deriving DecidableEq

namespace RtmpClient

/-- `remove_connection`: one turn for each position, and one at the end. -/
def removeConnection (pool : List Connection) (conn : Connection) : Option PoolRemoval :=
  loop (removeConnectionBody pool conn) (pool.length + 1) 0

variable (s : RtmpClient)

/-- `get_connection`. -/
def getConnection : RtmpClient :=
  if s.maxConnections ≤ s.pool.length then { s with waiting := s.waiting + 1 }
  else { s with making := s.making + 1 }

/-- `_not_full.broadcast()`. -/
def broadcast : RtmpClient :=
  { s with woken := s.woken + s.waiting, waiting := 0 }

/-- `put_connection`, with the connection that was made. -/
def putConnection : RtmpClient :=
  { s with
    pool := s.pool ++ [s.made]
    inUse := s.inUse ++ [s.made]
    made := s.made + 1 }

/-- `shrink_connections`. -/
def shrinkConnections : RtmpClient :=
  if s.pool.isEmpty ∨ s.pool.length ≤ s.maxConnections then s
  else
    let s := { s with pool := s.pool.tail, shrinking := s.shrinking + 1 }
    if s.pool.length < s.maxConnections then s.broadcast else s

/-- `set_maximum_connections`. -/
def setMaximumConnections (nr : Nat) : RtmpClient :=
  if s.maxConnections < nr then { s with maxConnections := nr }.broadcast
  else { s with maxConnections := nr }.shrinkConnections

def enabled : PoolStep → Prop
  | .request => True
  | .wake => 0 < s.woken
  | .connected => 0 < s.making
  | .answered conn => conn ∈ s.inUse
  | .setMaximum _ => True
  | .closed => 0 < s.shrinking

def step : PoolStep → Except PoolFault RtmpClient
  | .request => .ok s.getConnection
  | .wake => .ok { s with woken := s.woken - 1 }.getConnection
  | .connected => .ok { s with making := s.making - 1 }.putConnection
  | .answered conn =>
      match removeConnection s.pool conn with
      | none => .error .hangs
      | some r =>
          let s := { s with pool := r.pool, inUse := s.inUse.erase conn }
          .ok (if r.broadcast then s.broadcast else s)
  | .setMaximum nr => .ok (s.setMaximumConnections nr)
  | .closed => .ok { s with shrinking := s.shrinking - 1 }.shrinkConnections

instance (a : PoolStep) : Decidable (s.enabled a) := by
  cases a <;> unfold enabled <;> infer_instance

end RtmpClient

/-- A client that is asked for any requests, which end in any order. -/
def rtmpClient (maxConnections : Nat) : Machine RtmpClient PoolStep PoolFault where
  init := { maxConnections := maxConnections }
  enabled := RtmpClient.enabled
  step := RtmpClient.step

instance (n : Nat) (s : RtmpClient) (a : PoolStep) : Decidable ((rtmpClient n).enabled s a) :=
  inferInstanceAs (Decidable (s.enabled a))

/-! ## When a shard hangs -/

/-- The turns that the machine allows are enough. -/
theorem removeConnection_eq_some_iff {pool : List Connection} {conn : Connection}
    {r : PoolRemoval} :
    RtmpClient.removeConnection pool conn = some r ↔ RemoveConnection pool conn r := by
  constructor
  · exact fun h => ⟨_, h⟩
  · intro h
    rcases removeConnection_returns_iff.mp ⟨r, h⟩ with rfl | hhead
    · cases h.unique (removeConnection_nil conn)
      rfl
    · obtain ⟨rest, rfl⟩ := List.head?_eq_some_iff.mp hhead
      cases h.unique (removeConnection_front conn rest)
      exact loop_left (by simp [removeConnectionBody]) _

/-- What the end of a request does to the pool and the requests in progress, if it returns. -/
theorem step_answered {s t : RtmpClient} {conn : Connection}
    (hrun : s.step (.answered conn) = .ok t) :
    t.pool = s.pool.erase conn ∧ t.inUse = s.inUse.erase conn ∧ t.made = s.made := by
  unfold RtmpClient.step at hrun
  dsimp only at hrun
  split at hrun
  · cases hrun
  · rename_i r hr
    have hpool := (removeConnection_spec (removeConnection_eq_some_iff.mp hr)).1
    have hrun := Except.ok.inj hrun
    subst hrun
    split <;> exact ⟨hpool, rfl, rfl⟩

/-- The end of a request hangs the shard exactly where another connection is in front of the
    pool. -/
theorem step_answered_hangs_iff (s : RtmpClient) (conn : Connection) :
    s.step (.answered conn) = .error .hangs ↔ ¬ (s.pool = [] ∨ s.pool.head? = some conn) := by
  rw [← removeConnection_returns_iff]
  unfold RtmpClient.step
  dsimp only
  split
  · rename_i hnone
    refine iff_of_true rfl ?_
    rintro ⟨r, hr⟩
    cases hnone.symm.trans (removeConnection_eq_some_iff.mpr hr)
  · rename_i r hr
    exact iff_of_false nofun (not_not.mpr ⟨r, removeConnection_eq_some_iff.mp hr⟩)

/-! ## Runs -/

/-- The pool is a part of the connections in use, in the order in which they were made. -/
structure RtmpClient.Inv (s : RtmpClient) : Prop where
  pool : s.pool.Sublist s.inUse
  distinct : s.inUse.Nodup
  made : ∀ conn ∈ s.inUse, conn < s.made

theorem RtmpClient.Inv.of_eq {s t : RtmpClient} (h : s.Inv) (hpool : t.pool.Sublist s.pool)
    (hinUse : t.inUse = s.inUse) (hmade : t.made = s.made) : t.Inv := by
  refine ⟨?_, ?_, ?_⟩
  · rw [hinUse]
    exact hpool.trans h.pool
  · rw [hinUse]
    exact h.distinct
  · rw [hinUse, hmade]
    exact h.made

theorem RtmpClient.Inv.putConnection {s : RtmpClient} (h : s.Inv) : s.putConnection.Inv := by
  refine ⟨h.pool.append_right [s.made], ?_, ?_⟩
  · show (s.inUse ++ [s.made]).Nodup
    rw [← List.concat_eq_append, List.nodup_concat]
    exact ⟨fun hmem => Nat.lt_irrefl _ (h.made _ hmem), h.distinct⟩
  · intro conn hconn
    rcases List.mem_append.mp hconn with hold | hnew
    · exact Nat.lt_succ_of_lt (h.made conn hold)
    · rw [List.mem_singleton.mp hnew]
      exact Nat.lt_succ_self s.made

theorem RtmpClient.getConnection_same (s : RtmpClient) :
    s.getConnection.pool.Sublist s.pool ∧ s.getConnection.inUse = s.inUse
      ∧ s.getConnection.made = s.made := by
  unfold RtmpClient.getConnection
  split <;> exact ⟨List.Sublist.refl _, rfl, rfl⟩

theorem RtmpClient.shrinkConnections_same (s : RtmpClient) :
    s.shrinkConnections.pool.Sublist s.pool ∧ s.shrinkConnections.inUse = s.inUse
      ∧ s.shrinkConnections.made = s.made := by
  unfold RtmpClient.shrinkConnections
  split
  · exact ⟨List.Sublist.refl _, rfl, rfl⟩
  · dsimp only
    split <;> exact ⟨List.tail_sublist _, rfl, rfl⟩

theorem RtmpClient.Inv.step {s t : RtmpClient} {a : PoolStep} (h : s.Inv)
    (hrun : s.step a = .ok t) : t.Inv := by
  cases a with
  | request =>
      cases hrun
      obtain ⟨hpool, hinUse, hmade⟩ := s.getConnection_same
      exact h.of_eq hpool hinUse hmade
  | wake =>
      cases hrun
      obtain ⟨hpool, hinUse, hmade⟩ :=
        RtmpClient.getConnection_same { s with woken := s.woken - 1 }
      exact h.of_eq hpool hinUse hmade
  | connected =>
      cases hrun
      exact RtmpClient.Inv.putConnection (s := { s with making := s.making - 1 })
        ⟨h.pool, h.distinct, h.made⟩
  | answered conn =>
      obtain ⟨hpool, hinUse, hmade⟩ := step_answered hrun
      refine ⟨?_, ?_, ?_⟩
      · rw [hpool, hinUse]
        exact h.pool.erase conn
      · rw [hinUse]
        exact h.distinct.erase conn
      · rw [hinUse, hmade]
        exact fun c hc => h.made c (List.mem_of_mem_erase hc)
  | setMaximum nr =>
      cases hrun
      unfold RtmpClient.setMaximumConnections
      split
      · exact ⟨h.pool, h.distinct, h.made⟩
      · obtain ⟨hpool, hinUse, hmade⟩ :=
          RtmpClient.shrinkConnections_same { s with maxConnections := nr }
        exact h.of_eq hpool hinUse hmade
  | closed =>
      cases hrun
      obtain ⟨hpool, hinUse, hmade⟩ :=
        RtmpClient.shrinkConnections_same { s with shrinking := s.shrinking - 1 }
      exact h.of_eq hpool hinUse hmade

theorem rtmpClient_inv {n : Nat} {s : RtmpClient} (hs : (rtmpClient n).Reachable s) : s.Inv :=
  hs.invariant ⟨List.Sublist.refl _, List.nodup_nil, nofun⟩ fun _ _ _ h _ hrun => h.step hrun

/-- In every run, a request that ends while an older connection is in the pool hangs the
    shard. -/
theorem answered_hangs_of_reachable {n : Nat} {s : RtmpClient}
    (hs : (rtmpClient n).Reachable s) {conn : Connection} (hconn : conn ∈ s.pool.tail) :
    s.step (.answered conn) = .error .hangs := by
  rw [step_answered_hangs_iff]
  have hdistinct := (rtmpClient_inv hs).distinct.sublist (rtmpClient_inv hs).pool
  rintro (hnil | hhead)
  · rw [hnil] at hconn
    cases hconn
  · obtain ⟨rest, hpool⟩ := List.head?_eq_some_iff.mp hhead
    rw [hpool] at hconn hdistinct
    exact (List.nodup_cons.mp hdistinct).1 hconn

/-- Two requests that start together, and the second ends first. -/
theorem remove_connection_hangs :
    ∃ s, (rtmpClient 1).Reachable s ∧ (rtmpClient 1).enabled s (.answered 1)
      ∧ 1 ∈ s.pool ∧ ¬ RemovesConnection s.pool 1 := by
  obtain ⟨s, hs, hp⟩ := Machine.reachable_of_runs (M := rtmpClient 1)
    (p := fun s => decide (s.pool = [0, 1] ∧ 1 ∈ s.inUse))
    [.request, .request, .connected, .connected] (by decide)
  obtain ⟨hpool, hinUse⟩ := of_decide_eq_true hp
  refine ⟨s, hs, hinUse, hpool ▸ by decide, ?_⟩
  rintro ⟨r, hr, -⟩
  rw [hpool] at hr
  exact not_removeConnection (by decide) [1] hr

end SeastarLive
