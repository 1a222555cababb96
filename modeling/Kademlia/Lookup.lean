import Kademlia.Routing.Bucket
import Kademlia.Transactions

namespace Kademlia

/-!
Lookups: the search for the nodes near a target, and for the peers that they know.  A lookup goes in
rounds, each of which asks some of the closest candidates not asked so far.  When a round brings
no candidate closer than the best one before it, a last round asks all that is left among the
closest few.
-/

/-- What a lookup asks for. -/
inductive LookupKind where
  | findNode
  | getPeers
deriving DecidableEq, Repr

/-- How far a lookup has come with a candidate. -/
inductive CandidateState where
  | fresh
  | queried
  | responded
  | failed
deriving DecidableEq, Repr

/-- A node near the target. -/
structure Candidate where
  contact : Contact
  state : CandidateState := .fresh
  /-- The token that the node handed out with its answer. -/
  token : Option Bytes := none
deriving DecidableEq, Repr

/-- What a lookup does next. -/
inductive LookupStep where
  /-- Sends to these destinations.  The identifiers of seeds are not known. -/
  | query (targets : List (Destination × Option NodeId))
  /-- Queries are in flight. -/
  | wait
  | done
deriving DecidableEq, Repr

/-- What a finished lookup has found, closest nodes first. -/
structure LookupOutcome where
  target : NodeId
  kind : LookupKind
  announce : Bool
  closest : List Contact
  announceTargets : List (Contact × Bytes)
deriving DecidableEq, Repr

/-- A lookup in progress. -/
structure Lookup where
  target : NodeId
  kind : LookupKind
  /-- Whether an announcement is to follow. -/
  announce : Bool
  concurrency : Nat
  maxRounds : Nat
  /-- The candidates in order of their distance to the target, each identifier once. -/
  candidates : List Candidate := []
  /-- The destinations that the first round asks besides. -/
  seeds : List Destination := []
  /-- The queries in flight, and the candidates that they were sent to, if known. -/
  pending : List (TransactionId × Option NodeId) := []
  rounds : Nat := 0
  /-- The best candidate when the last round began. -/
  roundStartBest : Option NodeId := none
  finalRound : Bool := false
  isDone : Bool := false
  /-- The peers found so far. -/
  found : List Address := []
deriving DecidableEq, Repr

namespace Lookup

/-- How many candidates a lookup remembers. -/
def maxCandidates : Nat := 64

/-- How many of the closest candidates are considered. -/
def window : Nat := Routing.Bucket.capacity

/-- Puts a candidate at its place by distance, unless its identifier is there already. -/
def insertCandidate (target : NodeId) (new : Candidate) : List Candidate → List Candidate
  | [] => [new]
  | c :: rest =>
    match target.cmpDistance c.contact.id new.contact.id with
    | .lt => c :: insertCandidate target new rest
    | .eq => c :: rest
    | .gt => new :: c :: rest

/-- Takes up a node as a candidate, if it is close enough and not one yet. -/
def addCandidate (l : Lookup) (contact : Contact) : Lookup :=
  { l with
    candidates := (insertCandidate l.target { contact } l.candidates).take maxCandidates }

def addCandidates (l : Lookup) (contacts : List Contact) : Lookup :=
  contacts.foldl addCandidate l

/-- A lookup that starts from some known nodes and some mere destinations. -/
def start (target : NodeId) (kind : LookupKind) (announce : Bool) (concurrency maxRounds : Nat)
    (contacts : List Contact) (seeds : List Destination) : Lookup :=
  addCandidates
    { target, kind, announce, concurrency := max concurrency 1, maxRounds, seeds } contacts

/-- The query that a lookup sends on behalf of a node. -/
def query (l : Lookup) (own : NodeId) : Query :=
  match l.kind with
  | .findNode => .findNode own l.target none
  | .getPeers => .getPeers own l.target none

/-- The candidates that have not failed. -/
def live (l : Lookup) : List Candidate :=
  l.candidates.filter (·.state ≠ .failed)

/-- The closest candidate that has not failed. -/
def best (l : Lookup) : Option NodeId :=
  l.live.head?.map (·.contact.id)

/-- Whether the last round has brought a candidate closer than the best one before it. -/
def improved (l : Lookup) : Bool :=
  match l.roundStartBest, l.best with
  | none, some _ => true
  | some before, some now => l.target.cmpDistance now before = .lt
  | _, none => false

/-- The closest candidates that have not been asked, among the few closest that have not failed. -/
def picks (l : Lookup) (count : Nat) : List Contact :=
  (((l.live.take window).filter (·.state = .fresh)).take count).map (·.contact)

/-- Gives a new state to the candidate with an identifier. -/
def setState (l : Lookup) (id : NodeId) (state : CandidateState) : Lookup :=
  { l with
    candidates := modifyFirst (·.contact.id = id) ({ · with state := state }) l.candidates }

/-- Begins a round that asks the picked candidates, which are marked, and the seeds.  The best
candidate is noted beforehand; marking does not change it. -/
def beginRound (l : Lookup) (count : Nat) : LookupStep × Lookup :=
  let picks := l.picks count
  let targets := l.seeds.map (·, none) ++ picks.map fun c => (.ofAddress c.address, some c.id)
  let marked := picks.foldl (fun l c => l.setState c.id .queried) l
  (.query targets, { marked with rounds := l.rounds + 1, roundStartBest := l.best, seeds := [] })

def finishStep (l : Lookup) : LookupStep × Lookup :=
  (.done, { l with isDone := true })

/-- Begins the next round, unless there have been enough or nobody is left to ask. -/
def nextRound (l : Lookup) : LookupStep × Lookup :=
  let count := if l.finalRound then window else l.concurrency
  if l.maxRounds ≤ l.rounds then l.finishStep
  else if (l.picks count).isEmpty then l.finishStep
  else l.beginRound count

/-- Decides what to do next.  A new round begins only when nothing of the last one is in flight. -/
def step (l : Lookup) : LookupStep × Lookup :=
  if l.isDone then (.done, l)
  else if !l.pending.isEmpty then (.wait, l)
  else if l.rounds = 0 then
    if l.seeds.isEmpty then l.nextRound else l.beginRound l.concurrency
  else if l.improved then nextRound { l with finalRound := false }
  else if l.finalRound then l.finishStep
  else nextRound { l with finalRound := true }

/-- A query of the lookup has been sent. -/
def sent (l : Lookup) (id : TransactionId) (nodeId : Option NodeId) : Lookup :=
  { l with pending := l.pending.filter (·.1 ≠ id) ++ [(id, nodeId)] }

/-- A query of the lookup could not be sent. -/
def sendFailed (l : Lookup) (nodeId : Option NodeId) : Lookup :=
  match nodeId with
  | some id => l.setState id .failed
  | none => l

/-- Forgets that a query is in flight. -/
def settle (l : Lookup) (id : TransactionId) : Lookup :=
  { l with pending := l.pending.filter (·.1 ≠ id) }

/-- Whether a query of the lookup is in flight under the number. -/
def isPending (l : Lookup) (id : TransactionId) : Bool :=
  l.pending.any (·.1 = id)

/-- The peers of a list that are not among those found before, each once. -/
def newPeers (found : List Address) : List Address → List Address
  | [] => []
  | peer :: rest =>
    if peer ∈ found then newPeers found rest else peer :: newPeers (peer :: found) rest

/-- Takes up the answer to a query in flight, and tells which of its peers are new.  The node that
answered becomes a candidate like any other. -/
def onResponse (l : Lookup) (id : TransactionId) (sender : Contact) (response : Response)
    (nodes : List Contact) : List Address × Lookup :=
  if !l.isPending id then ([], l)
  else
    let l := (l.settle id).addCandidate sender
    let l := { l with
      candidates := modifyFirst (·.contact.id = sender.id)
        (fun c => { c with state := .responded, token := response.token }) l.candidates }
    let l := l.addCandidates nodes
    match l.kind with
    | .findNode => ([], l)
    | .getPeers =>
      let peers := newPeers l.found response.values
      (peers, { l with found := l.found ++ peers })

/-- A query in flight was refused or has waited too long. -/
def onFailure (l : Lookup) (id : TransactionId) : Lookup :=
  let nodeId := (l.pending.find? (·.1 = id)).bind (·.2)
  (l.settle id).sendFailed nodeId

/-- The candidates that have answered. -/
def responders (l : Lookup) : List Candidate :=
  l.candidates.filter (·.state = .responded)

/-- What the lookup has found. -/
def finish (l : Lookup) : LookupOutcome where
  target := l.target
  kind := l.kind
  announce := l.announce
  closest := (l.responders.take window).map (·.contact)
  announceTargets :=
    (l.responders.filterMap fun c => c.token.map (c.contact, ·)).take (2 * window)

end Lookup
end Kademlia
