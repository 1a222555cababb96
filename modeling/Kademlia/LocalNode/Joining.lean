import Kademlia.LocalNode.Searching

namespace Kademlia
namespace LocalNode

/-!
Joining the network, keeping the routing table fresh, and wrapping up the lookups that are done.
-/

/-- Sends the queries of one tick of the refresh. -/
def refreshTick (env : Surroundings) (n : LocalNode) : LocalNode :=
  let (queries, refresh) := n.refresh.tick env.now n.table
  let n := queries.foldl
    (fun n (contact, query) =>
      (n.sendQuery env contact.address (some contact.id) query .refresh).2)
    { n with refresh }
  { n with timer := n.timer.scheduleIn env.now n.settings.refreshInterval .tableRefresh }

/-- Answers the calls that wait for joining. -/
def answerWaiting (n : LocalNode) (success : Bool) : LocalNode :=
  n.waiting.foldl (fun n call => n.emit (.answered call (.joined success))) { n with waiting := [] }

/-- The node has joined.  The refresh of the table starts with the first time. -/
def bootstrapSucceeded (env : Surroundings) (n : LocalNode) : LocalNode :=
  let n := ((n.setState .connected).notify .bootstrapCompleted).answerWaiting true
  let n := if n.refreshStarted then n else refreshTick env { n with refreshStarted := true }
  n.startQueued env

/-- Begins an attempt to join, unless one is in progress.  A node with nobody to join through is the
first one of its network, and has joined at once. -/
def startBootstrap (env : Surroundings) (n : LocalNode) : LocalNode :=
  if n.bootstrapLookup.isSome then n
  else
    let n := if n.state = .connected then n else n.setState .connecting
    if !n.bootstrap.hasSeeds then
      { n with bootstrap := n.bootstrap.completeWithoutSeeds }.bootstrapSucceeded env
    else
      let n := if n.bootstrap.needsLookUp then n.emit .lookingUp else n
      let (seeds, bootstrap) := n.bootstrap.start env.lookUp
      let nodes := n.table.closestWhere env.now n.id neighbourCount fun _ => true
      let lookup := Lookup.start n.id .findNode false n.settings.lookupConcurrency
        n.settings.maxLookupRounds nodes seeds
      { n with bootstrap, bootstrapLookup := some ⟨n.lookupCount⟩ }.launch env ⟨lookup, .nowhere⟩

/-- The lookup of an attempt to join is done.  When the attempts have run out, nothing is kept
waiting any longer; further ones follow all the same. -/
def bootstrapLookupCompleted (env : Surroundings) (n : LocalNode) : LocalNode :=
  let (outcome, bootstrap) := n.bootstrap.onLookupCompleted (n.table.countWith env.now .good)
  let n := { n with bootstrap }
  match outcome with
  | .completed => n.bootstrapSucceeded env
  | .retry failed =>
    let n :=
      if failed then ((n.notify .bootstrapFailed).answerWaiting false).startQueued env else n
    { n with
      timer := n.timer.scheduleIn env.now n.settings.bootstrapRetryInterval .bootstrapRetry }

/-- Passes on what a lookup has found, and announces if that was asked for. -/
def deliver (env : Surroundings) (n : LocalNode) (id : LookupId) (sink : Sink)
    (outcome : LookupOutcome) : LocalNode :=
  match sink with
  | .contacts call => n.emit (.answered call (.contacts outcome.closest))
  | .peers stream =>
    if outcome.announce then
      n.startAnnounce env id outcome.target outcome.announceTargets (some stream)
    else n.emit (.ended stream)
  | .nowhere =>
    if outcome.announce then n.startAnnounce env id outcome.target outcome.announceTargets none
    else n

/-- Wraps up a lookup that is done. -/
def lookupCompleted (env : Surroundings) (n : LocalNode) (id : LookupId) : LocalNode :=
  match n.lookups.lookup id with
  | none => n
  | some active =>
    let n := { n with lookups := n.lookups.filter (·.1 ≠ id) }
    let { target, kind, announce, .. } := active.lookup
    let n := n.notify (.lookupCompleted target kind announce)
    let n :=
      if n.bootstrapLookup = some id then
        { n with bootstrapLookup := none }.bootstrapLookupCompleted env
      else n
    n.deliver env id active.sink active.lookup.finish

/-- Wraps up a number of lookups that are done, the last one first. -/
def wrapUpSome (env : Surroundings) : Nat → LocalNode → LocalNode
  | 0, n => n
  | count + 1, n =>
    match n.completed with
    | [] => n
    | id :: rest => wrapUpSome env count ({ n with completed := rest }.lookupCompleted env id)

/-- Wraps up all lookups that are done.  Only lookups that were kept waiting can be done in the
meantime, so that their number and that of the done ones bound the work. -/
def wrapUp (env : Surroundings) (n : LocalNode) : LocalNode :=
  wrapUpSome env (n.completed.length + n.queued.length) n

/-- Joins the own network: looks for the nodes around the own identifier, then for the peers under
the key of the network, and announces there.  Without a key, the search has nothing to find. -/
def joinNetwork (env : Surroundings) (n : LocalNode) (stream : StreamId) : LocalNode :=
  let n := n.requestLookup env ⟨n.id, .findNode, false, .nowhere⟩
  match n.networkHash with
  | some hash =>
    { n with lastNetworkAnnounce := some env.now }.requestLookup env
      ⟨hash, .getPeers, true, .peers stream⟩
  | none => n.emit (.ended stream)

end LocalNode
end Kademlia
