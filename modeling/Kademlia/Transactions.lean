import Kademlia.Message.Basic
import Kademlia.Time

namespace Kademlia

/-!
The queries that are waiting for an answer.  Answers do not say what they answer, so every query
is remembered under the two octets of its transaction until it is answered or has waited too long.
-/

/-- The number of a transaction. -/
structure TransactionId where
  number : UInt16
deriving DecidableEq, Repr, Inhabited

namespace TransactionId

def toBytes (id : TransactionId) : Bytes :=
  BigEndian.encode 2 id.number.toNat

/-- The transaction with the given octets.  Others than two are not of this program's making. -/
def ofBytes? (bytes : Bytes) : Option TransactionId :=
  if bytes.length = 2 then some ⟨UInt16.ofNat (BigEndian.decode bytes)⟩ else none

/-- The number that follows, after the last one the first. -/
def next (id : TransactionId) : TransactionId :=
  ⟨id.number + 1⟩

end TransactionId

/-- The number of a lookup, and of the announcement that may follow it. -/
structure LookupId where
  number : Nat
deriving DecidableEq, Repr, Inhabited

/-- What a query was sent for, so that its answer finds its way. -/
inductive Owner where
  | lookup (id : LookupId)
  | refresh
  | announce (id : LookupId)
  | ping
deriving DecidableEq, Repr

/-- A query that was sent. -/
structure Transaction where
  id : TransactionId
  query : Query
  destination : Destination
  /-- The identifier of the node that was asked, if it is known. -/
  nodeId : Option NodeId
  owner : Owner
  issued : Instant
deriving DecidableEq, Repr

/-- An order in which queries are dealt with. -/
structure Arrangement where
  arrange : List Transaction → List Transaction
  /-- No query is left out, and none is dealt with twice. -/
  perm : ∀ ts, (arrange ts).Perm ts

namespace Arrangement

/-- Queries are dealt with as they were sent. -/
def asSent : Arrangement where
  arrange := id
  perm := List.Perm.refl

/-- The query that was sent last is dealt with first. -/
def lastFirst : Arrangement where
  arrange := List.reverse
  perm := List.reverse_perm

end Arrangement

/-- The queries that wait for an answer.  No two of them have the same number, and they are in no
particular order. -/
structure Transactions where
  nextId : TransactionId
  pending : List Transaction := []
deriving Repr

namespace Transactions

/-- Takes the next number. -/
def draw (ts : Transactions) : TransactionId × Transactions :=
  (ts.nextId, { ts with nextId := ts.nextId.next })

/-- The query that waits under a number. -/
def get? (ts : Transactions) (id : TransactionId) : Option Transaction :=
  ts.pending.find? (·.id = id)

/-- Forgets the query under a number. -/
def erase (ts : Transactions) (id : TransactionId) : Transactions :=
  { ts with pending := ts.pending.filter (·.id ≠ id) }

/-- Remembers a query, in place of an older one with its number. -/
def record (ts : Transactions) (t : Transaction) : Transactions :=
  { ts with pending := (ts.erase t.id).pending ++ [t] }

/-- Takes out the query under a number. -/
def take (ts : Transactions) (id : TransactionId) : Option Transaction × Transactions :=
  (ts.get? id, ts.erase id)

/-- Whether a query has waited for at least a time. -/
def isOverdue (now : Instant) (timeout : Duration) (t : Transaction) : Bool :=
  timeout ≤ now - t.issued

/-- Takes out the query under a number if it has waited for at least a time. -/
def expire (ts : Transactions) (now : Instant) (id : TransactionId) (timeout : Duration) :
    Option Transaction × Transactions :=
  match ts.get? id with
  | some t => if isOverdue now timeout t then (some t, ts.erase id) else (none, ts)
  | none => (none, ts)

/-- Takes out all queries that have waited for at least a time.  They come in an order that may be
any. -/
def expireAll (ts : Transactions) (arrangement : Arrangement) (now : Instant) (timeout : Duration) :
    List Transaction × Transactions :=
  (arrangement.arrange (ts.pending.filter (isOverdue now timeout)),
    { ts with pending := ts.pending.filter fun t => !isOverdue now timeout t })

/-- How many queries wait for an answer. -/
def size (ts : Transactions) : Nat :=
  ts.pending.length

end Transactions
end Kademlia
