import Kademlia.Message.Basic
import Kademlia.Routing.Table

namespace Kademlia
namespace Routing

/-!
Keeping the table fresh.  Every tick asks a few questionable nodes for the nodes near an identifier
of one bucket, and the buckets take turns; a node that is asked either proves itself or gets worse.
-/

/-- Which bucket is next.  The count stands behind the last one until the next tick. -/
structure Refresh where
  next : Nat
  within : next ≤ maxBuckets
deriving DecidableEq, Repr

namespace Refresh

/-- The bucket that shares nothing with the own identifier comes first. -/
def start : Refresh := ⟨0, Nat.zero_le _⟩

/-- How many nodes one tick asks. -/
def concurrency : Nat := 4

/-- The bucket whose turn it is.  Behind the last one, the first has its turn again. -/
def turn (r : Refresh) : Fin maxBuckets :=
  if last : r.next = maxBuckets then ⟨0, Nat.succ_pos _⟩
  else ⟨r.next, Nat.lt_of_le_of_ne r.within last⟩

theorem val_turn (r : Refresh) : r.turn.val = r.next % maxBuckets := by
  unfold turn
  split
  next last => rw [last, Nat.mod_self]
  next before => exact (Nat.mod_eq_of_lt (Nat.lt_of_le_of_ne r.within before)).symm

/-- The identifier that the tick asks about: it leaves the own one at the bit of the bucket. -/
def target (r : Refresh) (own : NodeId) : NodeId :=
  own.flipBit r.turn

/-- The contacts that the tick asks, with the query, and the turn of the next bucket. -/
def tick (r : Refresh) (now : Instant) (table : Table) : List (Contact × Query) × Refresh :=
  let target := r.target table.own
  let query := Query.findNode table.own target none
  ((table.questionable now target concurrency).map (·, query), ⟨r.turn + 1, r.turn.isLt⟩)

end Refresh
end Routing
end Kademlia
