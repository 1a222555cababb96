import Kademlia.Routing.Node
import Kademlia.Sequence

namespace Kademlia
namespace Routing

/-!
Buckets: the nodes at one distance.  A bucket has room for eight nodes, and a newcomer drives out
only a node that is strictly worse, so that long-lived nodes stay.
-/

/-- The nodes of a bucket, in the order in which they came. -/
abbrev Bucket := List Node

namespace Bucket

/-- How many nodes a bucket has room for. -/
def capacity : Nat := 8

/-- Whether a node gives way before another: the worse one does, and of two equally bad ones the
one that was not seen for longer. -/
def givesWayBefore (now : Instant) (a b : Node) : Bool :=
  (a.status now).worseThan (b.status now) ||
    (a.status now == b.status now && decide (a.lastSeen < b.lastSeen))

/-- The node that gives way to a newcomer of the given status, if there is a worse one. -/
def victim? (bucket : Bucket) (now : Instant) (newcomer : Status) : Option Node :=
  firstLeast? (givesWayBefore now) (bucket.filter fun n => (n.status now).worseThan newcomer)

/-- Takes in a node that has come to be known at the place of one with the same identifier: what is
known of it is merged, unless it has moved to another address. -/
def renew (newcomer known : Node) : Node :=
  if known.contact.address = newcomer.contact.address then known.merge newcomer else newcomer

/-- The bucket with a node taken in, or nothing if there is no room for it.  A bad node is not taken
in, and none is missing for it. -/
def add? (bucket : Bucket) (now : Instant) (newcomer : Node) : Option Bucket :=
  if newcomer.status now = .bad then some bucket
  else if bucket.any (·.contact.id = newcomer.contact.id) then
    some (modifyFirst (·.contact.id = newcomer.contact.id) (renew newcomer) bucket)
  else if bucket.length < capacity then some (bucket ++ [newcomer])
  else
    (bucket.victim? now (newcomer.status now)).map fun victim =>
      modifyFirst (·.contact = victim.contact) (fun _ => newcomer) bucket

end Bucket
end Routing
end Kademlia
