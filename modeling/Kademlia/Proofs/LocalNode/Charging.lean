import Kademlia.Proofs.LocalNode.Claiming
import Kademlia.Proofs.LocalNode.Entering
import Kademlia.Proofs.Routing.Hearsay
import Kademlia.Proofs.Routing.Newcomers

namespace Kademlia

/-!
# Whom a time-out is charged to

A query that was not answered in time counts against a node of the routing table.  It is recorded
which node was asked, but that is not looked at: the node is found by its address.  Several nodes
may be known at one address, and it is always the first of them that is charged.  So the node that
was asked is charged if and only if no other node at its address stands before it; if one does, that
one is charged in its stead, and may be taken to be bad for queries that it was never sent.
-/

namespace Routing
namespace Table

variable {own : NodeId} {t : Table} {address : Address} {node charged : Node}

/-- A node is the first in the table of those at an address. -/
def IsFirstAt (t : Table) (address : Address) (node : Node) : Prop :=
  node.contact.address = address ∧
    ∃ earlier later, t.nodes = earlier ++ node :: later ∧
      ∀ other ∈ earlier, other.contact.address ≠ address

theorem isFirstAt_iff : t.IsFirstAt address node ↔ t.findAddress? address = some node := by
  rw [IsFirstAt, findAddress?, List.find?_eq_some_iff_append]
  simp

/-- Where some node is at an address, one of them is the first. -/
theorem exists_isFirstAt (known : node ∈ t.nodes) :
    ∃ first, t.IsFirstAt node.contact.address first := by
  cases found : t.findAddress? node.contact.address with
  | none => exact absurd (decide_eq_true rfl) (List.find?_eq_none.mp found node known)
  | some first => exact ⟨first, isFirstAt_iff.mpr found⟩

/-- The first node at the address is charged, and nothing happens to the others. -/
theorem Sorted.buckets_failedAddress (sorted : Sorted own t) (first : t.IsFirstAt address charged) :
    (t.failedAddress address).buckets = t.exchanged charged charged.failed := by
  have hFound := isFirstAt_iff.mp first
  have hHome : charged ∈ t.bucketOf charged.contact.id :=
    sorted.mem_nodes_iff.mp (List.mem_of_find?_eq_some hFound)
  rw [Table.failedAddress, hFound]
  apply sorted.buckets_modifyBucket_eq_exchanged hHome
  exact modifyFirst_eq_map (sorted.nodup_contacts _) hHome

/-- No two nodes can be charged with the same effect. -/
theorem eq_of_exchanged_failed (known : node ∈ t.nodes)
    (same : t.exchanged node node.failed = t.exchanged charged charged.failed) : node = charged := by
  rcases List.mem_flatten.mp known with ⟨bucket, filed, member⟩
  have hBucket := List.map_inj_left.mp same bucket filed
  have hNode := List.map_inj_left.mp hBucket node member
  rw [if_pos rfl] at hNode
  by_contra other
  rw [if_neg other] at hNode
  exact Nat.succ_ne_self _ (congrArg Node.failures hNode)

/-- A node is charged itself if and only if it is the first at its address. -/
theorem Sorted.buckets_failedAddress_iff (sorted : Sorted own t) (known : node ∈ t.nodes) :
    (t.failedAddress node.contact.address).buckets = t.exchanged node node.failed ↔
      t.IsFirstAt node.contact.address node := by
  constructor
  · intro charges
    rcases exists_isFirstAt known with ⟨first, isFirst⟩
    rw [sorted.buckets_failedAddress isFirst] at charges
    have hSame := eq_of_exchanged_failed known charges.symm
    rw [← hSame] at isFirst
    exact isFirst
  · exact sorted.buckets_failedAddress

/-- What a query that was not answered in time does to the table. -/
def charge (t : Table) (query : Transaction) : Table :=
  if query.destination.link = 0 then t.failedAddress query.destination.address else t

theorem Sorted.charge {query : Transaction} (sorted : Sorted own t) : Sorted own (t.charge query) := by
  unfold Table.charge
  split
  · exact sorted.failedAddress
  · exact sorted

theorem Sorted.foldl_charge (sorted : Sorted own t) (queries : List Transaction) :
    Sorted own (queries.foldl Table.charge t) := by
  induction queries generalizing t with
  | nil => exact sorted
  | cons query queries ih => exact ih sorted.charge

end Table
end Routing

namespace LocalNode

open Routing (Table Node)

variable {env : Surroundings}

/-! ## At an event -/

/-- The queries that are given up when the node wakes up. -/
def timeouts (env : Surroundings) (n : LocalNode) : List Transaction :=
  match n.timer.popDue? env.now with
  | some (.queryTimeout id, _) =>
    (n.transactions.expire env.now id n.settings.queryTimeout).1.toList
  | some (.maintenance, _) =>
    (n.transactions.expireAll env.arrangement env.now (2 * n.settings.queryTimeout)).1
  | _ => []

/-- The routing table before they are charged to its nodes. -/
def swept (env : Surroundings) (n : LocalNode) : Table :=
  match n.timer.popDue? env.now with
  | some (.maintenance, _) => (n.table.removeStale env.now n.settings.nodeExpiry).2
  | _ => n.table

theorem table_queryFailed (n : LocalNode) (t : Transaction) :
    (n.queryFailed env t true).table = n.table.charge t := by
  have hTable : (n.queryFailed env t true).table = _ :=
    congrArg Situation.table (situation_queryFailed_eq n t true)
  rw [hTable, Table.charge]
  simp

theorem table_failAll (stale : List Transaction) (n : LocalNode) :
    (stale.foldl (failStale env) n).table = stale.foldl Table.charge n.table := by
  induction stale generalizing n with
  | nil => rfl
  | cons t stale ih =>
    rw [List.foldl_cons, List.foldl_cons, ih, failStale, table_queryFailed]

theorem table_maintain (n : LocalNode) :
    (n.maintain env).table =
      (n.transactions.expireAll env.arrangement env.now
        (2 * n.settings.queryTimeout)).1.foldl Table.charge
          (n.table.removeStale env.now n.settings.nodeExpiry).2 := by
  have hFailed := @table_failAll env
    (n.transactions.expireAll env.arrangement env.now (2 * n.settings.queryTimeout)).1
    { n with
      table := (n.table.removeStale env.now n.settings.nodeExpiry).2
      store := (n.store.expire env.now).2
      transactions :=
        (n.transactions.expireAll env.arrangement env.now (2 * n.settings.queryTimeout)).2 }
  rw [maintain, ← hFailed]
  dsimp only
  generalize List.foldl _ _ _ = m
  rcases @situation_announceAgain env (m.rejoinIfEmpty env) with ⟨requests, asked⟩
  have hTable := congrArg Situation.table asked
  rw [Situation.table_requests, situation_rejoinIfEmpty, Situation.table_rejoin] at hTable
  exact hTable

/-- When a node wakes up, the queries that are given up are charged one after another. -/
theorem table_wake {n : LocalNode} (running : n.running = true) :
    (n.step env .wake).table = (n.timeouts env).foldl Table.charge (n.swept env) := by
  rw [table_step, if_pos running, handleEvent, timeouts, swept]
  dsimp only
  cases due : n.timer.popDue? env.now with
  | none => rfl
  | some popped =>
    rcases popped with ⟨task, timer⟩
    cases task with
    | queryTimeout id =>
      dsimp only
      rw [handleTask, handleQueryTimeout]
      dsimp only
      generalize n.transactions.expire env.now id n.settings.queryTimeout = expired
      rcases expired with ⟨_ | t, transactions⟩
      · rfl
      · exact table_queryFailed { n with outbox := [], timer, transactions } t
    | tableRefresh => exact congrArg Situation.table (situation_refreshTick _)
    | maintenance => exact table_maintain { n with outbox := [], timer }
    | bootstrapRetry =>
      exact (congrArg Situation.table (situation_startBootstrap _)).trans (Situation.table_join ..)

theorem sorted_swept {own : NodeId} {n : LocalNode} (sorted : n.table.Sorted own) :
    (n.swept env).Sorted own := by
  rw [swept]
  split
  · exact sorted.removeStale
  · exact sorted

/-! ## Whatever has happened -/

/-- Each query that is given up is charged to the first node at the address that it was sent to.  This
is the node that was asked if and only if no other node at its address stands before it. -/
theorem charged_of_run (options : Options) (localAddress : Address) (now : Instant)
    (secrets : Draws (BitVec 32)) (firstTransaction : TransactionId)
    (events : List (Surroundings × Event)) (env : Surroundings) :
    let n := ((start options localAddress now secrets firstTransaction).run events).2
    n.running = true → ∀ (before : List Transaction) (t : Transaction) (after : List Transaction),
      n.timeouts env = before ++ t :: after →
      let table := before.foldl Table.charge (n.swept env)
      (n.step env .wake).table = after.foldl Table.charge (table.charge t) ∧
      ∀ node ∈ table.nodes, t.nodeId = some node.contact.id →
        t.destination = Destination.ofAddress node.contact.address →
        (∃ charged, table.IsFirstAt node.contact.address charged ∧
          (table.charge t).buckets =
            table.exchanged charged { charged with failures := charged.failures + 1 }) ∧
        ((table.charge t).buckets =
            table.exchanged node { node with failures := node.failures + 1 } ↔
          table.IsFirstAt node.contact.address node) := by
  intro n running before t after given table
  have hSorted : table.Sorted options.id := by
    apply Table.Sorted.foldl_charge
    apply sorted_swept
    exact (tended_run (roster_start options localAddress now secrets firstTransaction) events).sorted
  refine ⟨?_, fun node known asked sent => ?_⟩
  · rw [table_wake running, given, List.foldl_append, List.foldl_cons]
  · have hCharge : table.charge t = table.failedAddress node.contact.address := by
      rw [Table.charge, sent]
      rfl
    rw [hCharge]
    rcases Table.exists_isFirstAt known with ⟨charged, first⟩
    exact ⟨⟨charged, first, hSorted.buckets_failedAddress first⟩,
      hSorted.buckets_failedAddress_iff known⟩

/-- The router answers and lists one host under two identifiers, both of which are asked.  The host is
silent. -/
def doubled : List (Surroundings × Event) :=
  [(.reliable 0, .command .startBootstrap),
    (.reliable 0, .datagram ⟨.v4 1, 1⟩
      (Message.ofBody (TransactionId.mk 0).toBytes (.response
        { sender := ⟨3⟩, nodes := [⟨⟨2⟩, ⟨.v4 5, 5⟩⟩, ⟨⟨1⟩, ⟨.v4 5, 5⟩⟩] })).encode)]

def asking : LocalNode :=
  (newcomer.run doubled).2

def overdue : Surroundings :=
  (.reliable 2000)

/-- The node that was asked first, which is the second one in the routing table. -/
def askedFirst : Node :=
  .questionable 0 ⟨⟨1⟩, ⟨.v4 5, 5⟩⟩

theorem timeouts_of_doubled :
    ((asking.timeouts overdue).map fun t => (t.nodeId, t.destination)) =
      [(some askedFirst.contact.id, Destination.ofAddress askedFirst.contact.address)] := by
  decide +kernel

theorem charged_of_doubled :
    asking.running = true ∧ askedFirst ∈ (asking.swept overdue).nodes ∧
      ∃ t, asking.timeouts overdue = [t] ∧ t.nodeId = some askedFirst.contact.id ∧
        t.destination = Destination.ofAddress askedFirst.contact.address ∧
        (asking.step overdue .wake).table = (asking.swept overdue).charge t ∧
        (∃ charged, (asking.swept overdue).IsFirstAt askedFirst.contact.address charged ∧
          ((asking.swept overdue).charge t).buckets = (asking.swept overdue).exchanged charged
            { charged with failures := charged.failures + 1 }) ∧
        (((asking.swept overdue).charge t).buckets = (asking.swept overdue).exchanged askedFirst
            { askedFirst with failures := askedFirst.failures + 1 } ↔
          (asking.swept overdue).IsFirstAt askedFirst.contact.address askedFirst) := by
  have hRunning : asking.running = true := by decide +kernel
  have hKnown : askedFirst ∈ (asking.swept overdue).nodes := by decide +kernel
  have hQueries := timeouts_of_doubled
  refine ⟨hRunning, hKnown, ?_⟩
  rcases List.map_eq_singleton_iff.mp hQueries with ⟨t, given, same⟩
  rcases Prod.mk.inj same with ⟨asked, sent⟩
  rcases charged_of_run _ _ _ _ _ doubled overdue hRunning [] t [] given with ⟨after, charges⟩
  exact ⟨t, given, asked, sent, after, charges askedFirst hKnown asked sent⟩

/-- It is not the node that was asked that is charged, although it is known. -/
theorem charged_in_stead :
    ((asking.timeouts overdue).map fun t => (t.nodeId, t.destination)) =
        [(some askedFirst.contact.id, Destination.ofAddress askedFirst.contact.address)] ∧
      askedFirst ∈ asking.table.nodes ∧ askedFirst ∈ (asking.step overdue .wake).table.nodes ∧
      (asking.step overdue .wake).table.buckets ≠ asking.table.exchanged askedFirst
        { askedFirst with failures := askedFirst.failures + 1 } := by
  refine ⟨timeouts_of_doubled, ?_, ?_, ?_⟩
  · decide +kernel
  · decide +kernel
  · decide +kernel

end LocalNode
end Kademlia
