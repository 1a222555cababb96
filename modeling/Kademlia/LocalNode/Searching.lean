import Kademlia.LocalNode.Basic

namespace Kademlia
namespace LocalNode

/-!
Lookups and announcements of a node.  A lookup is driven on whenever one of its queries is settled.
When it is done it is put aside, to be wrapped up at the end of the event.  The announcement that
follows some lookups is driven on likewise, and is over as soon as nothing is left to do.
-/

/-- Changes a lookup in progress. -/
def modifyLookup (n : LocalNode) (id : LookupId) (change : Lookup → Lookup) : LocalNode :=
  { n with
    lookups := modifyFirst (·.1 = id)
      (fun (id, active) => (id, { active with lookup := change active.lookup })) n.lookups }

/-- Changes an announcement in progress. -/
def modifyAnnounce (n : LocalNode) (id : LookupId) (change : Announce → Announce) : LocalNode :=
  { n with
    announces := modifyFirst (·.1 = id)
      (fun (id, active) => (id, { active with announce := change active.announce })) n.announces }

/-- Sends the query of a lookup to one of the nodes that it wants to ask. -/
def queryTarget (env : Surroundings) (id : LookupId) (query : Query) (n : LocalNode)
    (target : Destination × Option NodeId) : LocalNode :=
  match n.sendQuery env target.1 target.2 query (.lookup id) with
  | (some transaction, n) => n.modifyLookup id (·.sent transaction target.2)
  | (none, n) => n.modifyLookup id (·.sendFailed target.2)

/-- Drives a lookup on for a number of steps: as long as none of its queries gets out, it decides
again. -/
def driveSteps (env : Surroundings) (id : LookupId) : Nat → LocalNode → LocalNode
  | 0, n => n
  | count + 1, n =>
    match n.lookups.lookup id with
    | none => n
    | some active =>
      let (step, lookup) := active.lookup.step
      let n := n.modifyLookup id fun _ => lookup
      match step with
      | .wait => n
      | .done => { n with completed := id :: n.completed }
      | .query targets =>
        driveSteps env id count (targets.foldl (queryTarget env id (active.lookup.query n.id)) n)

/-- Drives a lookup on until it waits or is done.  Every step but the first and the last asks a
candidate that was not asked before, so that their number bounds the steps. -/
def driveLookup (env : Surroundings) (n : LocalNode) (id : LookupId) : LocalNode :=
  match n.lookups.lookup id with
  | none => n
  | some active =>
    driveSteps env id (active.lookup.candidates.countP (·.state = .fresh) + 2) n

/-- Adds a lookup under the next number and drives it on. -/
def launch (env : Surroundings) (n : LocalNode) (active : ActiveLookup) : LocalNode :=
  let id : LookupId := ⟨n.lookupCount⟩
  { n with lookupCount := n.lookupCount + 1, lookups := n.lookups ++ [(id, active)] }.driveLookup env id

/-- Starts a lookup from the closest known nodes, or from the addresses to join through if there
are none. -/
def startLookup (env : Surroundings) (n : LocalNode) (request : LookupRequest) : LocalNode :=
  let nodes := n.table.closestWhere env.now request.target neighbourCount fun _ => true
  let seeds := if nodes.isEmpty then n.bootstrap.seeds else []
  n.launch env {
    lookup := .start request.target request.kind request.announce n.settings.lookupConcurrency
      n.settings.maxLookupRounds nodes seeds
    sink := request.sink }

/-- Starts a lookup, or keeps it waiting while an attempt to join is in progress. -/
def requestLookup (env : Surroundings) (n : LocalNode) (request : LookupRequest) : LocalNode :=
  if n.bootstrapLookup.isSome ∧ n.bootstrap.state = .bootstrapping then
    { n with queued := n.queued ++ [request] }
  else n.startLookup env request

/-- Starts the lookups that were kept waiting. -/
def startQueued (env : Surroundings) (n : LocalNode) : LocalNode :=
  n.queued.foldl (startLookup env) { n with queued := [] }

/-- Ends the search that waits for something, if any. -/
def endStream (n : LocalNode) : Option StreamId → LocalNode
  | some stream => n.emit (.ended stream)
  | none => n

/-- An announcement is over. -/
def completeAnnounce (n : LocalNode) (id : LookupId) : LocalNode :=
  match n.announces.lookup id with
  | none => n
  | some active =>
    let n := { n with announces := n.announces.filter (·.1 ≠ id) }
    (n.notify (.announced active.announce.infoHash active.announce.accepted)).endStream active.stream

/-- Sends the query of an announcement to one of the chosen nodes. -/
def announceTo (env : Surroundings) (id : LookupId) (n : LocalNode) (pick : Contact × Query) :
    LocalNode :=
  match n.sendQuery env pick.1.address (some pick.1.id) pick.2 (.announce id) with
  | (some transaction, n) => n.modifyAnnounce id (·.sent pick.1 transaction)
  | (none, n) => n.modifyAnnounce id (·.onReply pick.1 false)

/-- Chooses nodes to tell for a number of rounds: as long as none of the queries gets out, others are
chosen. -/
def announceRounds (env : Surroundings) (id : LookupId) : Nat → LocalNode → LocalNode
  | 0, n => n
  | count + 1, n =>
    match n.announces.lookup id with
    | none => n
    | some active =>
      let (picks, announce) := active.announce.pick n.id
      if picks.isEmpty then n
      else
        announceRounds env id count
          (picks.foldl (announceTo env id) (n.modifyAnnounce id fun _ => announce))

/-- Drives an announcement on until it waits or is over.  Every round but the last chooses a node
that was not chosen before, so that their number bounds the rounds. -/
def continueAnnounce (env : Surroundings) (n : LocalNode) (id : LookupId) : LocalNode :=
  match n.announces.lookup id with
  | none => n
  | some active =>
    let n := announceRounds env id (active.announce.count (· = .unused) + 1) n
    match n.announces.lookup id with
    | some active => if active.announce.progress = .completed then n.completeAnnounce id else n
    | none => n

/-- Announces to the nodes that a lookup has found.  The port is the one set up, or else that of the
own address as others see it. -/
def startAnnounce (env : Surroundings) (n : LocalNode) (id : LookupId) (infoHash : InfoHash)
    (targets : List (Contact × Bytes)) (stream : Option StreamId) : LocalNode :=
  let port := n.announcePort.or (n.publicEndpoint.map (·.port))
  let active : ActiveAnnounce := ⟨.start infoHash targets port, stream⟩
  { n with announces := n.announces ++ [(id, active)] }.continueAnnounce env id

/-- A node has accepted an announcement or not. -/
def announceReply (env : Surroundings) (n : LocalNode) (id : LookupId) (contact : Contact)
    (success : Bool) : LocalNode :=
  match n.announces.lookup id with
  | none => n
  | some active =>
    let n := n.modifyAnnounce id (·.onReply contact success)
    match (active.announce.onReply contact success).progress with
    | .ongoing => n.continueAnnounce env id
    | .completed => n.completeAnnounce id

/-- Passes on a peer that a lookup has found, unless it is the node itself. -/
def reportPeer (target : InfoHash) (sink : Sink) (n : LocalNode) (peer : Address) : LocalNode :=
  if n.isOwnEndpoint peer then n
  else
    let n :=
      match sink with
      | .peers stream => n.emit (.yielded stream peer)
      | _ => n
    n.notify (.peerFound target peer)

/-- The answer to a query of a lookup has come. -/
def lookupResponse (env : Surroundings) (n : LocalNode) (id : LookupId)
    (transaction : TransactionId) (sender : Contact) (response : Response) (nodes : List Contact) :
    LocalNode :=
  match n.lookups.lookup id with
  | none => n
  | some active =>
    let (peers, lookup) := active.lookup.onResponse transaction sender response nodes
    let n := n.modifyLookup id fun _ => lookup
    (peers.foldl (reportPeer lookup.target active.sink) n).driveLookup env id

/-- A query was refused, or has waited too long for its answer.  The latter counts against the node
that has the address in the routing table; there, no address needs a certain link. -/
def queryFailed (env : Surroundings) (n : LocalNode) (t : Transaction) (timedOut : Bool) :
    LocalNode :=
  let n :=
    if timedOut ∧ t.destination.link = 0 then
      { n with table := n.table.failedAddress t.destination.address }
    else n
  match t.owner with
  | .lookup id => (n.modifyLookup id (·.onFailure t.id)).driveLookup env id
  | .announce id =>
    match t.nodeId with
    | some nodeId => n.announceReply env id ⟨nodeId, t.destination.address⟩ false
    | none => n
  | .refresh | .ping => n

end LocalNode
end Kademlia
