import Kademlia.Address.Text

namespace Kademlia

/-!
Joining the network.  An attempt is a lookup for the own identifier that starts from known addresses;
kept here are these addresses, the number of attempts, and what has come of them.
-/

/-- A node that helps others to join, but never enters their routing tables. -/
inductive Router where
  | literal (destination : Destination)
  /-- A router whose address has to be looked up. -/
  | named (name : String)
deriving DecidableEq, Repr

namespace Router

/-- A text that is no destination is a name. -/
def ofText (text : String) : Router :=
  match Destination.ofText? text with
  | some destination => .literal destination
  | none => .named text

def isName : Router → Bool
  | named _ => true
  | literal _ => false

/-- Where to reach a router, given what its name stands for. -/
def destinations (lookUp : String → List Destination) : Router → List Destination
  | literal destination => [destination]
  | named name => lookUp name

end Router

/-- How far a node has come with joining. -/
inductive BootstrapState where
  | awaitStart
  | bootstrapping
  | bootstrapped
  /-- An attempt has failed, and the next one is not due yet. -/
  | idleBeforeRetry
deriving DecidableEq, Repr

/-- What has come of an attempt. -/
inductive BootstrapOutcome where
  | completed
  /-- To be tried again.  The attempts count as failed once they have run out. -/
  | retry (failed : Bool)
deriving DecidableEq, Repr

/-- The addresses to join through, and how joining has gone so far. -/
structure Bootstrap where
  /-- The family of addresses that the node speaks. -/
  family : Family
  routers : List Router
  startingNodes : List Address
  /-- Where to reach the routers, as looked up last. -/
  routerDestinations : List Destination := []
  attempts : Nat := 0
  state : BootstrapState := .awaitStart
deriving DecidableEq, Repr

namespace Bootstrap

/-- After how many attempts without success joining counts as failed. -/
def maxAttempts : Nat := 3

/-- Whether there is anyone to join through.  A node without is the first one of its network. -/
def hasSeeds (b : Bootstrap) : Bool :=
  !b.routers.isEmpty || !b.startingNodes.isEmpty

/-- Whether an attempt has to look up names. -/
def needsLookUp (b : Bootstrap) : Bool :=
  b.routers.any Router.isName

/-- Whether an address is a router's.  A router that takes a certain link to reach is not known by its
address alone. -/
def isRouter (b : Bootstrap) (address : Address) : Bool :=
  b.routerDestinations.contains (address : Destination)

/-- The destinations to join through in ascending order, each once. -/
def seeds (b : Bootstrap) : List Destination :=
  let all := b.routerDestinations ++ b.startingNodes.map .ofAddress
  let own := all.filter (·.family = b.family)
  (own.mergeSort fun a b => (compare a b).isLE).eraseDups

/-- Begins an attempt, for which the routers are looked up again.  What was known before is kept if
that yields nothing. -/
def start (b : Bootstrap) (lookUp : String → List Destination) : List Destination × Bootstrap :=
  let resolved := (b.routers.flatMap (Router.destinations lookUp)).filter (·.family = b.family)
  let b := { b with
    state := .bootstrapping
    routerDestinations := if resolved.isEmpty then b.routerDestinations else resolved }
  (b.seeds, b)

/-- An attempt has ended and left some good nodes in the routing table, or none. -/
def onLookupCompleted (b : Bootstrap) (goodNodes : Nat) : BootstrapOutcome × Bootstrap :=
  if 0 < goodNodes then (.completed, { b with attempts := 0, state := .bootstrapped })
  else
    (.retry (b.attempts + 1 = maxAttempts),
      { b with attempts := b.attempts + 1, state := .idleBeforeRetry })

/-- The node has lost the network. -/
def reset (b : Bootstrap) : Bootstrap :=
  { b with state := .awaitStart }

/-- Ends joining with nobody to join. -/
def completeWithoutSeeds (b : Bootstrap) : Bootstrap :=
  { b with state := .bootstrapped }

end Bootstrap
end Kademlia
