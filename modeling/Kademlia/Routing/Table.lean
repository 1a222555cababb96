import Kademlia.Routing.Bucket

namespace Kademlia
namespace Routing

/-!
The routing table: the nodes known to a node, sorted into buckets by the number of leading bits
that they have in common with it.  All nodes with more bits in common than there are buckets share
the last one, which is split when it overflows; so the table knows the more of the network the
closer it is.
-/

/-- The bits of an identifier, and the greatest number of buckets. -/
def maxBuckets : Nat := 160

/-- The nodes known to the node `own`. -/
structure Table where
  own : NodeId
  /-- Bucket `i` holds the nodes with exactly `i` leading bits in common with `own`. -/
  front : List Bucket := []
  /-- The nodes with at least as many bits in common as there are buckets in front. -/
  last : Bucket := []
deriving Repr

namespace Table

/-- All buckets, the farthest nodes first. -/
def buckets (t : Table) : List Bucket :=
  t.front ++ [t.last]

/-- All nodes, the bad ones included. -/
def nodes (t : Table) : List Node :=
  t.buckets.flatten

def size (t : Table) : Nat :=
  t.nodes.length

def isEmpty (t : Table) : Bool :=
  t.nodes.isEmpty

def countWith (t : Table) (now : Instant) (status : Status) : Nat :=
  t.nodes.countP fun n => n.status now = status

/-- Which of two contacts is closer to a target; equally close ones compare by address. -/
def closer (target : NodeId) (a b : Contact) : Ordering :=
  (target.cmpDistance a.id b.id).then (compare a.address b.address)

/-- The first contacts in order of their distance to a target. -/
def nearest (target : NodeId) (count : Nat) (contacts : List Contact) : List Contact :=
  (contacts.mergeSort fun a b => (closer target a b).isLE).take count

/-- The closest contacts that are not bad and meet a condition, closest first. -/
def closestWhere (t : Table) (now : Instant) (target : NodeId) (count : Nat)
    (meets : Contact → Bool) : List Contact :=
  nearest target count (((t.nodes.filter (·.isPingable now)).map (·.contact)).filter meets)

/-- The closest questionable contacts, closest first. -/
def questionable (t : Table) (now : Instant) (target : NodeId) (count : Nat) : List Contact :=
  nearest target count ((t.nodes.filter fun n => n.status now = .questionable).map (·.contact))

/-- The bucket that an identifier belongs to. -/
def bucketOf (t : Table) (id : NodeId) : Bucket :=
  t.front.getD (t.own.commonBits id) t.last

/-- Changes the bucket that an identifier belongs to. -/
def modifyBucket (t : Table) (id : NodeId) (change : Bucket → Bucket) : Table :=
  let i := t.own.commonBits id
  if i < t.front.length then { t with front := t.front.modify i change }
  else { t with last := change t.last }

/-- What is known of a contact. -/
def find? (t : Table) (contact : Contact) : Option Node :=
  (t.bucketOf contact.id).find? (·.contact = contact)

/-- Changes what is known of a contact. -/
def modify (t : Table) (contact : Contact) (change : Node → Node) : Table :=
  t.modifyBucket contact.id (modifyFirst (·.contact = contact) change)

/-- The first node at an address. -/
def findAddress? (t : Table) (address : Address) : Option Node :=
  t.nodes.find? (·.contact.address = address)

/-- Splits the last bucket: the nodes with the fewest bits in common stay, the others move on, and
bad ones are dropped. -/
def split (t : Table) (now : Instant) : Table :=
  let kept := t.last.filter (·.isPingable now)
  let here (n : Node) := t.own.commonBits n.contact.id ≤ t.front.length
  { t with
    front := t.front ++ [kept.filter fun n => here n]
    last := kept.filter fun n => !here n }

@[simp]
theorem length_front_split (t : Table) (now : Instant) :
    (t.split now).front.length = t.front.length + 1 := by
  simp [split]

/-- Puts a node into its bucket.  The last bucket is split as long as it has no room for the node
and there may be more buckets. -/
def place (t : Table) (now : Instant) (node : Node) : Table :=
  let i := t.own.commonBits node.contact.id
  if i < t.front.length then
    { t with front := t.front.modify i fun bucket => (bucket.add? now node).getD bucket }
  else
    match t.last.add? now node with
    | some bucket => { t with last := bucket }
    | none => if t.front.length + 1 < maxBuckets then (t.split now).place now node else t
termination_by maxBuckets - t.front.length
decreasing_by simp only [length_front_split]; omega

/-- Takes in a node, if there is room for it.  Bad nodes and the node that the table belongs to are
not taken in. -/
def add (t : Table) (now : Instant) (node : Node) : Table :=
  if node.status now = .bad ∨ node.contact.id = t.own then t else t.place now node

/-- A contact has sent a query. -/
def requested (t : Table) (now : Instant) (contact : Contact) (version : Option Bytes) : Table :=
  if (t.find? contact).isSome then
    t.modify contact fun n => (n.requested now).withVersion version
  else t.add now ((Node.good now contact).withVersion version)

/-- A contact has answered a query. -/
def answered (t : Table) (now : Instant) (contact : Contact) (version : Option Bytes) : Table :=
  if (t.find? contact).isSome then
    t.modify contact fun n => (n.answered now).withVersion version
  else t.add now ((Node.good now contact).withVersion version)

/-- Takes in a contact by hearsay, unless it is known. -/
def learn (t : Table) (now : Instant) (contact : Contact) : Table :=
  if (t.find? contact).isSome then t else t.add now (.questionable now contact)

/-- Takes in the contacts that another node has passed on. -/
def learnAll (t : Table) (now : Instant) (contacts : List Contact) : Table :=
  contacts.foldl (fun t contact => t.learn now contact) t

/-- A query to the contact has failed. -/
def failed (t : Table) (contact : Contact) : Table :=
  t.modify contact Node.failed

/-- A query to the address has failed, whoever is there. -/
def failedAddress (t : Table) (address : Address) : Table :=
  match t.findAddress? address with
  | some node => t.failed node.contact
  | none => t

/-- Removes the bad nodes and those not seen for a time.  Also tells how many were removed. -/
def removeStale (t : Table) (now : Instant) (expiry : Duration) : Nat × Table :=
  let stays (n : Node) := n.isPingable now && decide (now - n.lastSeen < expiry)
  let kept := { t with front := t.front.map (·.filter stays), last := t.last.filter stays }
  (t.size - kept.size, kept)

end Table
end Routing
end Kademlia
