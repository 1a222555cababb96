import Kademlia.LocalNode.Answering
import Kademlia.LocalNode.Joining

namespace Kademlia

/-!
The events of a node, one at a time.
-/

/-- What the application wants of a node. -/
inductive Command where
  | startBootstrap
  /-- The call is answered when the node has joined, or has failed to. -/
  | awaitBootstrap (call : CallId)
  | lookup (request : LookupRequest)
  | joinNetwork (stream : StreamId)
  | ping (address : Address)
  | shutDown
deriving DecidableEq, Repr

/-- What happens to a node. -/
inductive Event where
  | command (command : Command)
  | datagram (sender : Address) (data : Bytes)
  /-- The first scheduled task is handled, if it is due. -/
  | wake
deriving DecidableEq, Repr

/-- Some numbers from the inside of a node. -/
structure Counters where
  running : Bool
  state : ConnectionState
  goodNodes : Nat
  questionableNodes : Nat
  buckets : Nat
  pendingTransactions : Nat
  activeLookups : Nat
  storedInfoHashes : Nat
deriving DecidableEq, Repr

namespace LocalNode

/-- A query should have been answered by now. -/
def handleQueryTimeout (env : Surroundings) (n : LocalNode) (id : TransactionId) : LocalNode :=
  match n.transactions.expire env.now id n.settings.queryTimeout with
  | (some t, transactions) => { n with transactions }.queryFailed env t true
  | (none, _) => n

/-- A query has waited far too long, and its time-out with it. -/
def failStale (env : Surroundings) (n : LocalNode) (t : Transaction) : LocalNode :=
  { n with timer := (n.timer.cancel t.id).2 }.queryFailed env t true

/-- Joins again if the routing table has run empty. -/
def rejoinIfEmpty (env : Surroundings) (n : LocalNode) : LocalNode :=
  if n.table.isEmpty ∧ n.bootstrap.hasSeeds ∧ n.bootstrap.state = .bootstrapped then
    ({ n with bootstrap := n.bootstrap.reset }.setState .connecting).startBootstrap env
  else n

/-- Announces the own network again if it is time. -/
def announceAgain (env : Surroundings) (n : LocalNode) : LocalNode :=
  match n.networkHash, n.lastNetworkAnnounce with
  | some hash, some last =>
    if n.settings.announceInterval ≤ env.now - last then
      { n with lastNetworkAnnounce := some env.now }.requestLookup env
        ⟨hash, .getPeers, true, .nowhere⟩
    else n
  | _, _ => n

/-- Removes old nodes, peers and queries, joins and announces again if need be, and schedules the next
time. -/
def maintain (env : Surroundings) (n : LocalNode) : LocalNode :=
  let (_, table) := n.table.removeStale env.now n.settings.nodeExpiry
  let (_, store) := n.store.expire env.now
  let (stale, transactions) :=
    n.transactions.expireAll env.arrangement env.now (2 * n.settings.queryTimeout)
  let n := stale.foldl (failStale env) { n with table, store, transactions }
  let n := (n.rejoinIfEmpty env).announceAgain env
  { n with timer := n.timer.scheduleIn env.now n.settings.maintenanceInterval .maintenance }

def handleTask (env : Surroundings) (n : LocalNode) : Task → LocalNode
  | .queryTimeout id => n.handleQueryTimeout env id
  | .tableRefresh => n.refreshTick env
  | .maintenance => n.maintain env
  | .bootstrapRetry => n.startBootstrap env

def handleCommand (env : Surroundings) (n : LocalNode) : Command → LocalNode
  | .startBootstrap => n.startBootstrap env
  | .awaitBootstrap call =>
    if n.bootstrap.state = .bootstrapped then n.emit (.answered call (.joined true))
    else { n with waiting := n.waiting ++ [call] }
  | .lookup request => n.requestLookup env request
  | .joinNetwork stream => n.joinNetwork env stream
  | .ping address => (n.sendQuery env address none (.ping n.id) .ping).2
  | .shutDown => { n with running := false }

def handleEvent (env : Surroundings) (n : LocalNode) : Event → LocalNode
  | .command command => n.handleCommand env command
  | .datagram sender data => n.handleDatagram env sender data
  | .wake =>
    match n.timer.popDue? env.now with
    | some (task, timer) => { n with timer }.handleTask env task
    | none => n

/-- Drops a sink that nothing will come to any more. -/
def dropSink (n : LocalNode) : Sink → LocalNode
  | .peers stream => n.emit (.ended stream)
  | .contacts call => n.emit (.answered call .shutDown)
  | .nowhere => n

/-- Ends everything that is in progress. -/
def close (n : LocalNode) : LocalNode :=
  let n := (n.setState .disconnected).answerWaiting false
  let n := n.queued.foldl (fun n request => n.dropSink request.sink) { n with queued := [] }
  let n := n.lookups.foldl (fun n (_, active) => n.dropSink active.sink) { n with lookups := [] }
  n.announces.foldl (fun n (_, active) => n.endStream active.stream) { n with announces := [] }

/-- Handles one event: the event itself, then the lookups that it has brought to an end.  The outbox
holds what was done in the meantime.  A node that has shut down does nothing. -/
def step (env : Surroundings) (n : LocalNode) (event : Event) : LocalNode :=
  let n := { n with outbox := [] }
  if n.running then
    let n := (n.handleEvent env event).wrapUp env
    if n.running then n else n.close
  else n

/-- The contacts in the routing table. -/
def contacts (n : LocalNode) : List Contact :=
  n.table.nodes.map (·.contact)

/-- The peers announced to the node. -/
def storedPeers (n : LocalNode) (now : Instant) (infoHash : InfoHash) : List Address :=
  n.store.find now infoHash

def counters (n : LocalNode) (now : Instant) : Counters where
  running := n.running
  state := n.state
  goodNodes := n.table.countWith now .good
  questionableNodes := n.table.countWith now .questionable
  buckets := n.table.buckets.length
  pendingTransactions := n.transactions.size
  activeLookups := n.lookups.length
  storedInfoHashes := n.store.size

end LocalNode
end Kademlia
