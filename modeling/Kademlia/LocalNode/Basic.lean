import Kademlia.Announce
import Kademlia.Bootstrap
import Kademlia.Lookup
import Kademlia.PeerStore
import Kademlia.Routing.Refresh
import Kademlia.Settings
import Kademlia.Timer
import Kademlia.Token

namespace Kademlia

/-!
A node that takes part in the network.  It is a state that changes from event to event; what it does
to the outside while it handles an event, sending datagrams and reporting to the application, is
collected in its outbox.
-/

/-- Whether a node is part of the network. -/
inductive ConnectionState where
  /-- Not started, or shut down. -/
  | disconnected
  | connecting
  | connected
deriving DecidableEq, Repr

/-- What the application is told without having asked. -/
inductive Notice where
  | stateChanged (state : ConnectionState)
  | bootstrapCompleted
  /-- Several attempts to join found nobody.  They go on. -/
  | bootstrapFailed
  /-- A node has answered a ping or sent one.  A compatible node runs a program like this one. -/
  | nodePinged (node : Contact) (compatible : Bool)
  /-- A peer was found by a lookup or has announced itself. -/
  | peerFound (infoHash : InfoHash) (peer : Address)
  /-- A lookup is over; an announcement follows if it was to. -/
  | lookupCompleted (target : NodeId) (kind : LookupKind) (announce : Bool)
  | announced (infoHash : InfoHash) (accepted : Nat)
deriving DecidableEq, Repr

/-- The number of a call that waits for its result. -/
structure CallId where
  number : Nat
deriving DecidableEq, Repr

/-- The number of a search whose peers are passed on as they are found. -/
structure StreamId where
  number : Nat
deriving DecidableEq, Repr

/-- The result of a call. -/
inductive Answer where
  /-- Whether the node has joined the network. -/
  | joined (success : Bool)
  | contacts (found : List Contact)
  /-- The node has shut down. -/
  | shutDown
deriving DecidableEq, Repr

/-- What a node does to the outside. -/
inductive Effect where
  /-- A datagram was sent; it may have failed to get out. -/
  | sent (destination : Destination) (message : Message) (delivered : Bool)
  /-- The names of routers are looked up, which takes a while; all that follows comes after it. -/
  | lookingUp
  | notice (notice : Notice)
  | answered (call : CallId) (answer : Answer)
  | yielded (stream : StreamId) (peer : Address)
  | ended (stream : StreamId)
deriving DecidableEq

namespace Effect

def isSent : Effect → Bool
  | sent .. => true
  | _ => false

end Effect

/-- Where the results of a lookup go. -/
inductive Sink where
  /-- Peers are passed on as soon as they are found. -/
  | peers (stream : StreamId)
  /-- The closest nodes are passed on at the end. -/
  | contacts (call : CallId)
  | nowhere
deriving DecidableEq, Repr

/-- A lookup that is asked for. -/
structure LookupRequest where
  target : NodeId
  kind : LookupKind
  announce : Bool
  sink : Sink
deriving DecidableEq, Repr

/-- What a node is set up with. -/
structure Options where
  id : NodeId
  /-- The key that the peers of the own network are announced under. -/
  networkHash : Option InfoHash := none
  /-- A node that is read only sends queries and answers none. -/
  readOnly : Bool := false
  announcePort : Option UInt16 := none
  /-- The own address as others see it. -/
  publicEndpoint : Option Address := none
  routers : List Router := []
  startingNodes : List Address := []
  settings : Settings := {}

/-- A lookup in progress and where its results go. -/
structure ActiveLookup where
  lookup : Lookup
  sink : Sink
deriving DecidableEq, Repr

/-- An announcement in progress and the search that ends with it. -/
structure ActiveAnnounce where
  announce : Announce
  stream : Option StreamId
deriving DecidableEq, Repr

/-- What surrounds a node while it handles an event. -/
structure Surroundings where
  now : Instant
  /-- Whether a datagram gets out, by the number of datagrams sent before it during the event, and
  its destination. -/
  delivers : Nat → Destination → Bool
  /-- The destinations that the name of a router stands for. -/
  lookUp : String → List Destination
  /-- The order in which queries are dealt with that have waited far too long. -/
  arrangement : Arrangement

/-- Surroundings in which every datagram gets out and no name is known. -/
def Surroundings.reliable (now : Instant) : Surroundings :=
  ⟨now, fun _ _ => true, fun _ => [], .asSent⟩

/-- A node that takes part in the network. -/
structure LocalNode where
  id : NodeId
  networkHash : Option InfoHash
  readOnly : Bool
  announcePort : Option UInt16
  publicEndpoint : Option Address
  localAddress : Address
  settings : Settings
  running : Bool := true
  state : ConnectionState := .disconnected
  timer : Timer := {}
  tokens : TokenStore
  transactions : Transactions
  table : Routing.Table
  store : PeerStore
  bootstrap : Bootstrap
  /-- The lookup of the attempt to join that is in progress. -/
  bootstrapLookup : Option LookupId := none
  /-- The calls that wait until the node has joined. -/
  waiting : List CallId := []
  /-- The lookups that wait until the attempt to join is over. -/
  queued : List LookupRequest := []
  refresh : Routing.Refresh := .start
  refreshStarted : Bool := false
  /-- How many lookups were ever started; they are numbered in this order. -/
  lookupCount : Nat := 0
  lookups : List (LookupId × ActiveLookup) := []
  /-- The announcements, each under the number of the lookup that it follows. -/
  announces : List (LookupId × ActiveAnnounce) := []
  /-- The lookups that are done but not wrapped up, the last one first. -/
  completed : List LookupId := []
  /-- When the own network was announced last, if the node has joined it. -/
  lastNetworkAnnounce : Option Instant := none
  /-- Whether the number of a query was ever drawn again while the query still waited.  There are
  65536 of them, so it takes that many queries; the node does not notice. -/
  redrawn : Bool := false
  /-- Whether the number of a query was ever drawn again while it was in use. -/
  reused : Bool := false
  /-- What the node has done during the event at hand, in order. -/
  outbox : List Effect := []

namespace LocalNode

/-- The longest datagram that is accepted; longer ones are cut. -/
def maxDatagramLength : Nat := 1500

/-- The most peers that one answer lists, so that it fits into a datagram. -/
def maxValues : Nat := 100

/-- How many nodes an answer lists, and a lookup starts from. -/
def neighbourCount : Nat := Routing.Bucket.capacity

/-- A node before its first event. -/
def start (options : Options) (localAddress : Address) (now : Instant)
    (secrets : Draws (BitVec 32)) (firstTransaction : TransactionId) : LocalNode where
  id := options.id
  networkHash := options.networkHash
  readOnly := options.readOnly
  announcePort := options.announcePort
  publicEndpoint := options.publicEndpoint
  localAddress := localAddress
  settings := options.settings
  timer := ({} : Timer).scheduleIn now options.settings.maintenanceInterval .maintenance
  tokens := .start now secrets
  transactions := { nextId := firstTransaction }
  table := { own := options.id }
  store := {
    maxPerHash := options.settings.maxPeersPerHash
    maxTotal := options.settings.maxStoredPeers
    lifetime := options.settings.peerLifetime }
  bootstrap := {
    family := localAddress.family
    routers := options.routers
    startingNodes := options.startingNodes }

/-- The family of addresses that the node speaks. -/
def family (n : LocalNode) : Family :=
  n.localAddress.family

/-- Whether an address is the node's own, as it sees it or as others do. -/
def isOwnEndpoint (n : LocalNode) (address : Address) : Bool :=
  address = n.localAddress || some address = n.publicEndpoint

def emit (n : LocalNode) (effect : Effect) : LocalNode :=
  { n with outbox := n.outbox ++ [effect] }

def notify (n : LocalNode) (notice : Notice) : LocalNode :=
  n.emit (.notice notice)

/-- Changes the connection state, and tells the application if it was another. -/
def setState (n : LocalNode) (state : ConnectionState) : LocalNode :=
  if n.state = state then n else { n with state }.notify (.stateChanged state)

/-- Sends a message.  Also tells whether it got out. -/
def send (env : Surroundings) (n : LocalNode) (destination : Destination) (message : Message) :
    Bool × LocalNode :=
  let delivered := env.delivers (n.outbox.countP Effect.isSent) destination
  (delivered, n.emit (.sent destination message delivered))

/-- Whether a number is in use: while its query waits, and also when that has been taken out, until
its time-out is. -/
def inUse (n : LocalNode) (id : TransactionId) : Bool :=
  (n.transactions.get? id).isSome || n.timer.hasTimeout id

/-- Sends a query and waits for its answer.  A query that does not get out is forgotten, but its
number is used up. -/
def sendQuery (env : Surroundings) (n : LocalNode) (destination : Destination)
    (nodeId : Option NodeId) (query : Query) (owner : Owner) : Option TransactionId × LocalNode :=
  let (id, transactions) := n.transactions.draw
  let redrawn := n.redrawn || (n.transactions.get? id).isSome
  let reused := n.reused || n.inUse id
  let (delivered, n) :=
    { n with transactions, redrawn, reused }.send env destination (.ofBody id.toBytes (.query query))
  if delivered then
    (some id,
      { n with
        transactions := n.transactions.record ⟨id, query, destination, nodeId, owner, env.now⟩
        timer := n.timer.scheduleIn env.now n.settings.queryTimeout (.queryTimeout id) })
  else (none, n)

end LocalNode
end Kademlia
