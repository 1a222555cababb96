import Kademlia.Address
import Kademlia.Time

namespace Kademlia
namespace Routing

/-!
What is remembered of another node: when it was heard from last, and how many of the queries sent
to it have failed since it last answered one.
-/

/-- How far a node can be relied on. -/
inductive Status where
  | bad
  | questionable
  | good
deriving DecidableEq, Repr

namespace Status

/-- The place of a status in the order from bad to good. -/
def rank : Status → Nat
  | bad => 0
  | questionable => 1
  | good => 2

/-- The better a node, the greater its status. -/
instance : Ord Status := ⟨fun a b => compare a.rank b.rank⟩

/-- Whether a status is worse than another. -/
def worseThan (a b : Status) : Bool :=
  a.rank < b.rank

end Status

/-- Another node of the network. -/
structure Node where
  contact : Contact
  version : Option Bytes := none
  firstSeen : Instant
  /-- When the node was last heard from, if ever. -/
  lastUpdate : Option Instant
  /-- How many queries have failed since the node last answered one. -/
  failures : Nat := 0
deriving DecidableEq, Repr

namespace Node

/-- How long a node is good after it was heard from. -/
def freshness : Duration := .minutes 15

/-- How many failures in a row make a node bad. -/
def maxFailures : Nat := 2

/-- A node that was heard from just now. -/
def good (now : Instant) (contact : Contact) : Node :=
  { contact, firstSeen := now, lastUpdate := some now }

/-- A node that is known by hearsay only. -/
def questionable (now : Instant) (contact : Contact) : Node :=
  { contact, firstSeen := now, lastUpdate := none }

/-- The node has sent a query. -/
def requested (n : Node) (now : Instant) : Node :=
  { n with lastUpdate := some now }

/-- The node has answered a query. -/
def answered (n : Node) (now : Instant) : Node :=
  { n with lastUpdate := some now, failures := 0 }

/-- A query to the node has timed out or was refused. -/
def failed (n : Node) : Node :=
  { n with failures := n.failures + 1 }

/-- Takes note of the version of the node's program, if it is known. -/
def withVersion (n : Node) (version : Option Bytes) : Node :=
  { n with version := version.or n.version }

/-- Whether one time of contact is later than another; never is earlier than any. -/
def laterThan : Option Instant → Option Instant → Bool
  | some a, some b => b < a
  | some _, none => true
  | none, _ => false

/-- Adds what another record of the same node knows.  The later contact decides about the
failures. -/
def merge (n other : Node) : Node :=
  let merged :=
    if laterThan other.lastUpdate n.lastUpdate then
      { n with lastUpdate := other.lastUpdate, failures := other.failures }
    else n
  merged.withVersion other.version

/-- When the node was heard from last, or of, if it never was. -/
def lastSeen (n : Node) : Instant :=
  n.lastUpdate.getD n.firstSeen

/-- How far the node can be relied on now. -/
def status (n : Node) (now : Instant) : Status :=
  if maxFailures ≤ n.failures then .bad
  else
    match n.lastUpdate with
    | some time => if now - time < freshness then .good else .questionable
    | none => .questionable

/-- A node that is not bad may be queried and passed on to others. -/
def isPingable (n : Node) (now : Instant) : Bool :=
  n.status now ≠ .bad

end Node
end Routing
end Kademlia
