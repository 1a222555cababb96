import Kademlia.Proofs.LocalNode.Hearing
import Kademlia.Proofs.LocalNode.Views
import Kademlia.Proofs.Lookup.Peers

namespace Kademlia

/-!
# What the searches of a node find

Which lookups are in progress or kept waiting, what each was started for, and which peers it has
found.  A response to a query of a lookup brings peers, and those that are new are passed on at once
(`Findings.report`).  Whatever else a node does, searches only begin and end in the meantime
(`Findings.Moved`): one that begins has found nobody, and one that is kept waiting begins once.
-/

/-- What a lookup was started for. -/
structure Errand where
  target : NodeId
  kind : LookupKind
  sink : Sink
deriving DecidableEq

/-- A lookup and the peers that it has found. -/
structure Search where
  errand : Errand
  found : List Address

def Sink.stream? : Sink → Option StreamId
  | peers stream => some stream
  | _ => none

def LookupRequest.errand (request : LookupRequest) : Errand :=
  ⟨request.target, request.kind, request.sink⟩

namespace ActiveLookup

def errand (active : ActiveLookup) : Errand :=
  ⟨active.lookup.target, active.lookup.kind, active.sink⟩

def search (active : ActiveLookup) : Search :=
  ⟨active.errand, active.lookup.found⟩

end ActiveLookup

namespace Effect

def yielded? : Effect → Option (StreamId × Address)
  | yielded stream peer => some (stream, peer)
  | _ => none

def peerFound? : Effect → Option (InfoHash × Address)
  | notice (.peerFound infoHash peer) => some (infoHash, peer)
  | _ => none

def yieldedTo? (stream : StreamId) (effect : Effect) : Option Address :=
  effect.yielded?.bind fun yield => if yield.1 = stream then some yield.2 else none

/-- Nothing of what is found shows. -/
def TellsNoPeer (effect : Effect) : Prop :=
  effect.yielded? = none ∧ effect.peerFound? = none

end Effect

/-- A response has come to a lookup in progress, with certain peers. -/
structure Offer where
  id : LookupId
  search : Search
  values : List Address

/-- The peers of an offer that are new. -/
def Offer.news (o : Offer) : List Address :=
  Lookup.news o.search.errand.kind o.search.found o.values

/-- The streams that a search is asked for. -/
def Event.streams : Event → List StreamId
  | command (.lookup request) => request.sink.stream?.toList
  | command (.joinNetwork stream) => [stream]
  | _ => []

/-- What a node has found. -/
structure Findings where
  /-- Which addresses are the node's own. -/
  own : Address → Bool
  /-- How many lookups were ever started. -/
  started : Nat
  searches : List (LookupId × Search)
  /-- Where the results of the lookups will go that are kept waiting. -/
  queued : List Sink
  /-- The peers that were passed on during the event at hand. -/
  yields : List (StreamId × Address)
  /-- The peers that the application was told about during the event at hand. -/
  notices : List (InfoHash × Address)

namespace Findings

variable {f g h : Findings} {asked : List StreamId}

def launch (f : Findings) (errand : Errand) : Findings :=
  { f with started := f.started + 1, searches := f.searches ++ [(⟨f.started⟩, ⟨errand, []⟩)] }

/-- Some peers are passed on, but for the node itself. -/
def tell (f : Findings) (errand : Errand) (peers : List Address) : Findings :=
  let others := peers.filter fun peer => !f.own peer
  { f with
    yields := f.yields ++ others.filterMap fun peer => errand.sink.stream?.map (·, peer)
    notices := f.notices ++ others.map (errand.target, ·) }

theorem tell_cons (f : Findings) (errand : Errand) (peer : Address) (peers : List Address) :
    f.tell errand (peer :: peers) = (f.tell errand [peer]).tell errand peers := by
  cases own : f.own peer <;> cases stream : errand.sink.stream? <;> simp [tell, own, stream]

/-- A lookup takes up an offer. -/
def report (f : Findings) (o : Offer) : Findings :=
  { f.tell o.search.errand o.news with
    searches := modifyFirst (·.1 = o.id)
      (fun entry => (entry.1, { entry.2 with found := entry.2.found ++ o.news })) f.searches }

/-- Searches begin and end.  Some of them are asked for. -/
inductive Moved (f : Findings) : List StreamId → Findings → Prop
  | refl : Moved f [] f
  | ask {asked : List StreamId} {g : Findings} (sink : Sink) : Moved f asked g →
    Moved f (asked ++ sink.stream?.toList) { g with queued := g.queued ++ [sink] }
  | launch {asked : List StreamId} {g : Findings} {before after : List Sink} (errand : Errand) :
    Moved f asked g → g.queued = before ++ errand.sink :: after →
    Moved f asked (launch { g with queued := before ++ after } errand)
  | drop {asked : List StreamId} {g : Findings} {searches : List (LookupId × Search)}
    {queued : List Sink} : Moved f asked g → List.Sublist searches g.searches →
    List.Sublist queued g.queued → Moved f asked { g with searches, queued }

namespace Moved

theorem of_eq (same : g = f) : Moved f [] g := by
  rw [same]
  exact .refl

theorem trans {more : List StreamId} (first : Moved f asked g) (second : Moved g more h) :
    Moved f (asked ++ more) h := by
  induction second with
  | refl =>
    rw [List.append_nil]
    exact first
  | ask sink _ ih =>
    rw [← List.append_assoc]
    exact ih.ask sink
  | launch errand _ queued ih => exact ih.launch errand queued
  | drop _ fewer less ih => exact ih.drop fewer less

/-- What goes on unasked is nothing to those who ask. -/
theorem before (first : Moved f [] g) (second : Moved g asked h) : Moved f asked h :=
  first.trans second

theorem after (first : Moved f asked g) (second : Moved g [] h) : Moved f asked h := by
  have hBoth := first.trans second
  rw [List.append_nil] at hBoth
  exact hBoth

/-- A search that is asked for begins at once. -/
theorem requested (errand : Errand) : Moved f errand.sink.stream?.toList (f.launch errand) := by
  have hAsked : Moved f errand.sink.stream?.toList
      { f with queued := f.queued ++ [errand.sink] } := Moved.refl.ask errand.sink
  have hLaunched := @launch _ _ _ f.queued [] errand hAsked rfl
  rw [List.append_nil] at hLaunched
  exact hLaunched

/-- A search that is asked for need not begin at all. -/
theorem ignored (streams : List StreamId) : Moved f streams f := by
  induction streams with
  | nil => exact .refl
  | cons stream streams ih =>
    have hAsked : Moved f [stream] { f with queued := f.queued ++ [.peers stream] } :=
      Moved.refl.ask (.peers stream)
    have hDropped : Moved f [stream] f :=
      hAsked.drop (List.Sublist.refl _) (List.sublist_append_left ..)
    exact hDropped.trans ih

/-- Nobody is found in the meantime. -/
theorem same (moved : Moved f asked g) :
    g.own = f.own ∧ g.yields = f.yields ∧ g.notices = f.notices := by
  induction moved with
  | refl => exact ⟨rfl, rfl, rfl⟩
  | ask _ _ ih => exact ih
  | launch _ _ _ ih => exact ih
  | drop _ _ _ ih => exact ih

end Moved

/-- What an event does to the findings of a node.  It may bring an offer to a lookup; if it does not,
the application may all the same get to know a peer, which then has announced itself. -/
inductive Heeded (offer : Option Offer) (asked : List StreamId) (f g : Findings) : Prop
  | offered (o : Offer) : offer = some o → Moved (f.report o) asked g → Heeded offer asked f g
  | passed (notices : List (InfoHash × Address)) : offer = none →
    Moved { f with notices } asked g → Heeded offer asked f g

namespace Heeded

variable {offer : Option Offer}

theorem of_offer (offer : Option Offer) : Heeded offer [] f (offer.elim f f.report) := by
  cases offer with
  | some o => exact .offered o rfl .refl
  | none => exact .passed f.notices rfl .refl

/-- An event that brings no offer. -/
theorem of_moved (moved : Moved f asked g) : Heeded none asked f g :=
  .passed f.notices rfl moved

theorem moved (heeded : Heeded offer asked f g) (moved : Moved g [] h) :
    Heeded offer asked f h := by
  cases heeded with
  | offered o offered before => exact .offered o offered (before.after moved)
  | passed notices none before => exact .passed notices none (before.after moved)

end Heeded
end Findings

namespace LocalNode

open Findings (Moved Heeded)

/-- What a node has found. -/
def findings (n : LocalNode) : Findings where
  own := n.isOwnEndpoint
  started := n.lookupCount
  searches := n.lookups.map fun entry => (entry.1, entry.2.search)
  queued := n.queued.map (·.sink)
  yields := n.outbox.filterMap Effect.yielded?
  notices := n.outbox.filterMap Effect.peerFound?

variable {env : Surroundings} {n : LocalNode}

/-! ## What does not show -/

@[simp]
theorem findings_emit (n : LocalNode) (effect : Effect) :
    (n.emit effect).findings = { n.findings with
      yields := n.findings.yields ++ effect.yielded?.toList
      notices := n.findings.notices ++ effect.peerFound?.toList } := by
  have hYields : (n.emit effect).outbox.filterMap Effect.yielded? =
      n.outbox.filterMap Effect.yielded? ++ effect.yielded?.toList := by
    cases yielded : effect.yielded? <;> simp [emit, yielded]
  have hNotices : (n.emit effect).outbox.filterMap Effect.peerFound? =
      n.outbox.filterMap Effect.peerFound? ++ effect.peerFound?.toList := by
    cases told : effect.peerFound? <;> simp [emit, told]
  rw [findings, hYields, hNotices]
  rfl

theorem overlooks_findings : Overlooks findings Effect.TellsNoPeer := by
  rintro n effect ⟨noYield, noNotice⟩
  simp [noYield, noNotice]

theorem findings_setState (n : LocalNode) (state : ConnectionState) :
    (n.setState state).findings = n.findings :=
  overlooks_findings.setState (fun _ => ⟨rfl, rfl⟩) n state

theorem findings_sendQuery (n : LocalNode) (destination : Destination) (nodeId : Option NodeId)
    (query : Query) (owner : Owner) :
    (n.sendQuery env destination nodeId query owner).2.findings = n.findings :=
  overlooks_findings.sendQuery (fun _ _ _ _ => ⟨rfl, rfl⟩) (fun _ _ _ _ _ => rfl) n destination
    nodeId query owner

theorem reserved_findings : Reserved findings Effect.TellsNoPeer where
  sendQuery _ n := findings_sendQuery n
  modifyLookup n id change kept := by
    rw [modifyLookup, findings, map_modifyFirst_of_found]
    · rfl
    · intro active found
      rcases kept active found with ⟨-, kind, slate, peers⟩
      have hTarget : (change active.lookup).target = active.lookup.target :=
        congrArg Lookup.Slate.target slate
      simp only [ActiveLookup.search, ActiveLookup.errand, kind, hTarget, peers]
  modifyAnnounce _ _ _ _ := rfl
  completed _ _ := rfl
  overlooks := overlooks_findings
  announced _ _ := ⟨rfl, rfl⟩
  ended _ := ⟨rfl, rfl⟩
  announces _ _ := rfl

theorem findings_refreshTick (n : LocalNode) : (n.refreshTick env).findings = n.findings := by
  rw [refreshTick]
  exact foldl_keeps findings (fun m pick => findings_sendQuery m ..) _ _

theorem findings_answerWaiting (n : LocalNode) (success : Bool) :
    (n.answerWaiting success).findings = n.findings :=
  overlooks_findings.answerWaiting (fun _ _ => ⟨rfl, rfl⟩) n success

/-! ## Searches begin -/

theorem findings_launch (n : LocalNode) {active : ActiveLookup}
    (new : active.lookup.found = []) :
    (n.launch env active).findings = n.findings.launch active.errand := by
  rw [launch, reserved_findings.driveLookup, findings, List.map_append, List.map_singleton,
    ActiveLookup.search, new]
  rfl

theorem findings_launch_start (n : LocalNode) (target : NodeId) (kind : LookupKind)
    (announce : Bool) (concurrency maxRounds : Nat) (contacts : List Contact)
    (seeds : List Destination) (sink : Sink) :
    (n.launch env ⟨.start target kind announce concurrency maxRounds contacts seeds, sink⟩).findings =
      n.findings.launch ⟨target, kind, sink⟩ := by
  let bare : Lookup :=
    { target, kind, announce, concurrency := max concurrency 1, maxRounds, seeds }
  rcases Lookup.addCandidates_same bare contacts with ⟨hKind, hFound⟩
  have hErrand : (⟨bare.addCandidates contacts, sink⟩ : ActiveLookup).errand =
      ⟨target, kind, sink⟩ := by
    rw [ActiveLookup.errand, hKind, (Lookup.Told.addCandidates bare contacts).target]
  rw [← hErrand]
  exact findings_launch n hFound

theorem findings_startLookup (n : LocalNode) (request : LookupRequest) :
    (n.startLookup env request).findings = n.findings.launch request.errand :=
  findings_launch_start ..

theorem moved_requestLookup (n : LocalNode) (request : LookupRequest) :
    Moved n.findings request.sink.stream?.toList (n.requestLookup env request).findings := by
  rw [requestLookup]
  split
  · have hQueued : ({ n with queued := n.queued ++ [request] } : LocalNode).findings =
        { n.findings with queued := n.findings.queued ++ [request.sink] } := by
      rw [findings, List.map_append]
      rfl
    rw [hQueued]
    exact Moved.refl.ask request.sink
  · rw [findings_startLookup]
    exact .requested request.errand

theorem moved_startQueued (n : LocalNode) : Moved n.findings [] (n.startQueued env).findings := by
  have hStarted : ∀ (requests : List LookupRequest) (m : LocalNode) (f : Findings),
      Moved f [] { m.findings with queued := requests.map (·.sink) ++ m.findings.queued } →
        Moved f [] (requests.foldl (startLookup env) m).findings := by
    intro requests
    induction requests with
    | nil => exact fun m f moved => moved
    | cons request requests ih =>
      intro m f moved
      have hLaunched := @Moved.launch _ _ _ [] _ request.errand moved rfl
      refine ih (m.startLookup env request) f ?_
      rw [findings_startLookup]
      exact hLaunched
  refine hStarted n.queued { n with queued := [] } n.findings ?_
  change Moved _ _ { n.findings with queued := n.findings.queued ++ [] }
  rw [List.append_nil]
  exact .refl

/-! ## What is told -/

theorem findings_reportPeer (target : NodeId) (kind : LookupKind) (sink : Sink) (n : LocalNode)
    (peer : Address) :
    (reportPeer target sink n peer).findings = n.findings.tell ⟨target, kind, sink⟩ [peer] := by
  have hOwn : n.findings.own peer = n.isOwnEndpoint peer := rfl
  unfold reportPeer
  cases own : n.isOwnEndpoint peer with
  | true => simp [Findings.tell, hOwn, own]
  | false =>
    cases sink <;>
      simp [Findings.tell, hOwn, own, notify, Sink.stream?, Effect.yielded?, Effect.peerFound?]

theorem findings_reportPeers (target : NodeId) (kind : LookupKind) (sink : Sink)
    (peers : List Address) (n : LocalNode) :
    (peers.foldl (reportPeer target sink) n).findings =
      n.findings.tell ⟨target, kind, sink⟩ peers := by
  induction peers generalizing n with
  | nil => simp [Findings.tell]
  | cons peer peers ih =>
    rw [List.foldl_cons, ih, findings_reportPeer target kind]
    exact (Findings.tell_cons ..).symm

theorem findings_answered {id : LookupId} {active : ActiveLookup} {values peers : List Address}
    {next : Lookup} (found : n.lookups.lookup id = some active)
    (answered : active.lookup.Answered values peers next) :
    (n.modifyLookup id fun _ => next).findings =
      { n.findings with
        searches := modifyFirst (·.1 = id)
          (fun entry => (entry.1, { entry.2 with found := entry.2.found ++ peers }))
          n.findings.searches } := by
  have hSearches : (n.modifyLookup id fun _ => next).lookups.map
      (fun entry => (entry.1, entry.2.search)) =
        modifyFirst (·.1 = id)
          (fun entry => (entry.1, { entry.2 with found := entry.2.found ++ peers }))
          n.findings.searches := by
    refine map_modifyFirst_of_lookup (fun _ => rfl) fun other same => ?_
    rcases Option.some.inj (found.symm.trans same) with rfl
    simp only [ActiveLookup.search, ActiveLookup.errand, answered.target, answered.kind,
      answered.found]
  rw [findings, hSearches]
  rfl

/-- A response that comes to a lookup in progress is an offer to it. -/
theorem findings_lookupResponse (n : LocalNode) (id : LookupId) (transaction : TransactionId)
    (sender : Contact) (response : Response) (nodes : List Contact) :
    (n.lookupResponse env id transaction sender response nodes).findings =
      ((n.lookups.lookup id).map fun active =>
        Offer.mk id active.search (active.lookup.accepted transaction response)).elim
          n.findings n.findings.report := by
  rw [lookupResponse]
  cases found : n.lookups.lookup id with
  | none => rfl
  | some active =>
    have hAnswered := Lookup.answered_onResponse active.lookup transaction sender response nodes
    dsimp only
    rw [reserved_findings.driveLookup, findings_reportPeers _ active.lookup.kind,
      findings_answered found hAnswered, hAnswered.target, hAnswered.returned]
    rfl

/-- A query of others brings no peers to the searches, but may make one known. -/
theorem findings_handleQuery (n : LocalNode) (sender : Address) (message : Message)
    (query : Query) :
    ∃ notices, (n.handleQuery env sender message query).findings = { n.findings with notices } := by
  rcases handleQuery_cases env n sender message query with
    ⟨table, m, body, -, ⟨tokens, store, told, rfl⟩, same⟩
  have hYields : (told.map Effect.notice).filterMap Effect.yielded? = [] := by
    rw [List.filterMap_map]
    exact List.filterMap_eq_nil_iff.mpr fun _ _ => rfl
  refine ⟨(n.outbox ++ told.map Effect.notice).filterMap Effect.peerFound?, ?_⟩
  rw [same, send, overlooks_findings _ _ ⟨rfl, rfl⟩, findings, List.filterMap_append, hYields,
    List.append_nil]
  rfl

/-! ## Queries that are settled -/

theorem findings_queryFailed (n : LocalNode) (t : Transaction) (timedOut : Bool) :
    (n.queryFailed env t timedOut).findings = n.findings := by
  have hNoted : (if timedOut ∧ t.destination.link = 0 then
      { n with table := n.table.failedAddress t.destination.address } else n).findings =
        n.findings := by
    split <;> rfl
  rw [queryFailed]
  generalize (if timedOut ∧ t.destination.link = 0 then
    { n with table := n.table.failedAddress t.destination.address } else n) = m at hNoted ⊢
  rw [← hNoted]
  split
  next id _ =>
    rw [reserved_findings.driveLookup]
    exact reserved_findings.modifyLookup m id _ fun _ _ => Lookup.alike_onFailure ..
  · split
    · exact reserved_findings.announceReply ..
    · rfl
  · rfl
  · rfl

theorem findings_failStale (n : LocalNode) (t : Transaction) :
    (n.failStale env t).findings = n.findings :=
  findings_queryFailed { n with timer := (n.timer.cancel t.id).2 } t true

/-! ## Joining -/

theorem moved_bootstrapSucceeded (n : LocalNode) :
    Moved n.findings [] (n.bootstrapSucceeded env).findings := by
  have hTold : ((n.setState .connected).notify .bootstrapCompleted).findings = n.findings :=
    (overlooks_findings _ _ ⟨rfl, rfl⟩).trans (findings_setState ..)
  have hRefreshed : ∀ m : LocalNode, (if m.refreshStarted then m
      else refreshTick env { m with refreshStarted := true }).findings = m.findings := by
    intro m
    split
    · rfl
    · exact findings_refreshTick _
  rw [bootstrapSucceeded, ← hTold, ← findings_answerWaiting _ true, ← hRefreshed]
  exact moved_startQueued _

theorem moved_startBootstrap (n : LocalNode) :
    Moved n.findings [] (n.startBootstrap env).findings := by
  have hConnecting : (if n.state = .connected then n else n.setState .connecting).findings =
      n.findings := by
    split
    · rfl
    · exact findings_setState n .connecting
  rw [startBootstrap]
  split
  · exact .refl
  · rw [← hConnecting]
    generalize (if n.state = .connected then n else n.setState .connecting) = m
    dsimp only
    split
    · exact moved_bootstrapSucceeded { m with bootstrap := m.bootstrap.completeWithoutSeeds }
    · have hSame : (if m.bootstrap.needsLookUp then m.emit .lookingUp else m).findings =
          m.findings := overlooks_findings.emit_if _ m ⟨rfl, rfl⟩
      rw [← hSame, findings_launch_start]
      exact .requested ⟨_, .findNode, .nowhere⟩

theorem moved_bootstrapLookupCompleted (n : LocalNode) :
    Moved n.findings [] (n.bootstrapLookupCompleted env).findings := by
  rw [bootstrapLookupCompleted]
  generalize n.bootstrap.onLookupCompleted (n.table.countWith env.now .good) = judged
  rcases judged with ⟨outcome, bootstrap⟩
  cases outcome with
  | completed => exact moved_bootstrapSucceeded { n with bootstrap }
  | retry failed =>
    cases failed with
    | false => exact .refl
    | true =>
      have hTold : ((({ n with bootstrap } : LocalNode).notify .bootstrapFailed).answerWaiting
          false).findings = n.findings :=
        (findings_answerWaiting ..).trans (overlooks_findings _ _ ⟨rfl, rfl⟩)
      rw [← hTold]
      exact moved_startQueued _

/-! ## Lookups that are over -/

theorem moved_lookupCompleted (n : LocalNode) (id : LookupId) :
    Moved n.findings [] (n.lookupCompleted env id).findings := by
  rw [lookupCompleted]
  split
  · exact .refl
  · dsimp only
    rw [reserved_findings.deliver fun _ _ => ⟨rfl, rfl⟩]
    generalize hOver : LocalNode.notify _ (.lookupCompleted _ _ _) = m
    have hDropped : Moved n.findings [] m.findings := by
      rw [← hOver, notify, overlooks_findings _ _ ⟨rfl, rfl⟩]
      exact Moved.refl.drop (List.filter_sublist.map _) (List.Sublist.refl _)
    split
    · exact hDropped.before (moved_bootstrapLookupCompleted { m with bootstrapLookup := none })
    · exact hDropped

theorem moved_wrapUpSome (count : Nat) (n : LocalNode) :
    Moved n.findings [] (wrapUpSome env count n).findings := by
  induction count generalizing n with
  | zero => exact .refl
  | succ count ih =>
    rw [wrapUpSome]
    split
    · exact .refl
    next id rest _ => exact (moved_lookupCompleted { n with completed := rest } id).before (ih _)

theorem moved_wrapUp (n : LocalNode) : Moved n.findings [] (n.wrapUp env).findings :=
  moved_wrapUpSome ..

/-! ## Tasks and commands -/

theorem moved_rejoinIfEmpty (n : LocalNode) :
    Moved n.findings [] (n.rejoinIfEmpty env).findings := by
  rw [rejoinIfEmpty]
  split
  · have hMoved := @moved_startBootstrap env
      ({ n with bootstrap := n.bootstrap.reset }.setState .connecting)
    rw [findings_setState] at hMoved
    exact hMoved
  · exact .refl

theorem moved_announceAgain (n : LocalNode) :
    Moved n.findings [] (n.announceAgain env).findings := by
  rw [announceAgain]
  split
  next hash last _ _ =>
    split
    · exact moved_requestLookup { n with lastNetworkAnnounce := some env.now }
        ⟨hash, .getPeers, true, .nowhere⟩
    · exact .refl
  next => exact .refl

theorem moved_maintain (n : LocalNode) : Moved n.findings [] (n.maintain env).findings := by
  rw [maintain]
  dsimp only
  generalize hFailed : List.foldl (failStale env) _ _ = m
  have hSame : m.findings = n.findings := by
    rw [← hFailed]
    exact foldl_keeps findings findings_failStale _ _
  rw [← hSame]
  exact (moved_rejoinIfEmpty m).before (moved_announceAgain _)

theorem moved_handleTask (n : LocalNode) (task : Task) :
    Moved n.findings [] (n.handleTask env task).findings := by
  cases task with
  | queryTimeout id =>
    rw [handleTask, handleQueryTimeout]
    split
    next t transactions _ => exact .of_eq (findings_queryFailed { n with transactions } t true)
    next => exact .refl
  | tableRefresh => exact .of_eq (findings_refreshTick n)
  | maintenance => exact moved_maintain n
  | bootstrapRetry => exact moved_startBootstrap n

theorem moved_joinNetwork (n : LocalNode) (stream : StreamId) :
    Moved n.findings [stream] (n.joinNetwork env stream).findings := by
  have hSearched : Moved n.findings []
      (n.requestLookup env ⟨n.id, .findNode, false, .nowhere⟩).findings :=
    moved_requestLookup n ⟨n.id, .findNode, false, .nowhere⟩
  unfold joinNetwork
  generalize n.requestLookup env ⟨n.id, .findNode, false, .nowhere⟩ = m at hSearched ⊢
  dsimp only
  split
  next hash _ =>
    exact hSearched.before
      (moved_requestLookup { m with lastNetworkAnnounce := some env.now }
        ⟨hash, .getPeers, true, .peers stream⟩)
  next =>
    rw [overlooks_findings _ _ ⟨rfl, rfl⟩]
    exact hSearched.before (.ignored [stream])

theorem moved_handleCommand (n : LocalNode) (command : Command) :
    Moved n.findings (Event.command command).streams (n.handleCommand env command).findings := by
  cases command with
  | startBootstrap => exact moved_startBootstrap n
  | awaitBootstrap call =>
    rw [handleCommand]
    split
    · exact .of_eq (overlooks_findings n _ ⟨rfl, rfl⟩)
    · exact .refl
  | lookup request => exact moved_requestLookup n request
  | joinNetwork stream => exact moved_joinNetwork n stream
  | ping address => exact .of_eq (findings_sendQuery ..)
  | shutDown => exact .refl

/-! ## Events -/

/-- The lookup that a response comes to, and the peers that it brings if the lookup waits for it. -/
def offerTo (n : LocalNode) (t : Transaction) (response : Response) : Option Offer :=
  match t.owner with
  | .lookup id =>
    if IsSearch t.query then
      (n.lookups.lookup id).map fun active =>
        ⟨id, active.search, active.lookup.accepted t.id response⟩
    else none
  | _ => none

/-- What an event brings to a lookup. -/
def offer? (n : LocalNode) : Event → Option Offer
  | .datagram sender data =>
    if n.running then
      (n.response? sender data).bind fun brought => n.offerTo brought.2 brought.1
    else none
  | _ => none

theorem offerTo_eq_none {t : Transaction} {response : Response}
    (another : ∀ id, t.owner = .lookup id → ¬ IsSearch t.query) : n.offerTo t response = none := by
  unfold offerTo
  split
  next id owner => exact if_neg (another id owner)
  next => rfl

theorem offerTo_eq_some_iff {t : Transaction} {response : Response} {o : Offer} :
    n.offerTo t response = some o ↔ ∃ id active, t.owner = .lookup id ∧ IsSearch t.query ∧
      n.lookups.lookup id = some active ∧
      o = ⟨id, active.search, active.lookup.accepted t.id response⟩ := by
  constructor
  · intro made
    unfold offerTo at made
    split at made
    next id owner =>
      rcases Option.ite_none_right_eq_some.mp made with ⟨search, made⟩
      rcases Option.map_eq_some_iff.mp made with ⟨active, found, same⟩
      exact ⟨id, active, owner, search, found, same.symm⟩
    next => cases made
  · rintro ⟨id, active, owner, search, found, rfl⟩
    rw [offerTo, owner]
    dsimp only
    rw [if_pos search, found]
    rfl

/-- An offer is a response to a query of a lookup that is still in progress. -/
theorem offer?_eq_some_iff {event : Event} {o : Offer} :
    n.offer? event = some o ↔ n.running = true ∧ ∃ sender response t,
      n.Receives event sender response t ∧ n.offerTo t response = some o := by
  constructor
  · intro offered
    unfold offer? at offered
    split at offered
    next sender data =>
      rcases Option.ite_none_right_eq_some.mp offered with ⟨running, offered⟩
      rcases Option.bind_eq_some_iff.mp offered with ⟨⟨response, t⟩, brought, made⟩
      exact ⟨running, sender, response, t, response?_eq_some_iff.mp brought, made⟩
    next => cases offered
  · rintro ⟨running, sender, response, t, receives, made⟩
    have hReceives := receives
    rcases receives with ⟨data, message, rfl, -⟩
    rw [offer?, if_pos running, response?_eq_some_iff.mpr hReceives]
    exact made

theorem mem_searches_of_offer? {event : Event} {o : Offer} (offered : n.offer? event = some o) :
    (o.id, o.search) ∈ n.findings.searches := by
  rcases offer?_eq_some_iff.mp offered with ⟨-, sender, response, t, -, made⟩
  rcases offerTo_eq_some_iff.mp made with ⟨id, active, -, -, found, rfl⟩
  exact List.mem_map_of_mem (mem_of_lookup found)

theorem findings_handleResponse (n : LocalNode) (sender : Address) (message : Message)
    (response : Response) (t : Transaction) :
    (n.handleResponse env sender message response t).findings =
      (n.offerTo t response).elim n.findings n.findings.report := by
  have hResponded := responded_handleResponse env n sender message response t
  generalize n.handleResponse env sender message response t = m at hResponded ⊢
  cases hResponded with
  | search id owner search =>
    rw [findings_lookupResponse, offerTo, owner]
    dsimp only
    rw [if_pos search]
    rfl
  | announce id contact owner =>
    rw [offerTo_eq_none fun other owned => by cases owner.symm.trans owned]
    exact reserved_findings.announceReply ..
  | ping node compatible another =>
    rw [offerTo_eq_none fun _ _ => another]
    exact overlooks_findings _ _ ⟨rfl, rfl⟩
  | passed another =>
    rw [offerTo_eq_none another]
    rfl

theorem heeded_handleDatagram (running : n.running = true) (sender : Address) (data : Bytes) :
    Heeded (n.offer? (.datagram sender data)) [] n.findings
      (n.handleDatagram env sender data).findings := by
  rw [offer?, if_pos running]
  cases brought : n.response? sender data with
  | some pair =>
    rcases pair with ⟨response, t⟩
    rcases @handleDatagram_of_receives n env sender data response t
      (response?_eq_some_iff.mp brought) with ⟨message, same⟩
    rw [same, findings_handleResponse]
    exact .of_offer (n.offerTo t response)
  | none =>
    have hHeard := heard_handleDatagram env n sender data
    generalize n.handleDatagram env sender data = m at hHeard ⊢
    cases hHeard with
    | nothing transactions => exact .of_moved .refl
    | query answers read about =>
      rcases @findings_handleQuery env n sender _ _ with ⟨notices, same⟩
      exact .passed notices rfl (.of_eq same)
    | malformed transaction key => exact .of_moved (.of_eq (overlooks_findings n _ ⟨rfl, rfl⟩))
    | response receives =>
      rw [response?_eq_some_iff.mpr receives] at brought
      cases brought
    | refusal waits => exact .of_moved (.of_eq (findings_queryFailed (n.settle _) _ false))

theorem heeded_handleEvent (running : n.running = true) (event : Event) :
    Heeded (n.offer? event) event.streams n.findings (n.handleEvent env event).findings := by
  cases event with
  | command command => exact .of_moved (moved_handleCommand n command)
  | datagram sender data => exact heeded_handleDatagram running sender data
  | wake =>
    refine .of_moved ?_
    rw [handleEvent]
    split
    next task timer _ => exact moved_handleTask { n with timer } task
    next => exact .refl

/-- A node that has shut down searches for nothing any more. -/
theorem moved_close (n : LocalNode) : Moved n.findings [] n.close.findings := by
  have hClosed : n.close.findings = { n.findings with searches := [], queued := [] } := by
    refine overlooks_findings.of_adds ((adds_close n).imp fun _ parting => ?_)
    cases parting <;> exact ⟨rfl, rfl⟩
  rw [hClosed]
  exact Moved.refl.drop (List.nil_sublist _) (List.nil_sublist _)

/-- What was passed on before does not matter to what is passed on during an event. -/
theorem heeded_step (env : Surroundings) (n : LocalNode) (event : Event) :
    Heeded (n.offer? event) event.streams { n.findings with yields := [], notices := [] }
      (n.step env event).findings := by
  have hOffer : ({ n with outbox := [] } : LocalNode).offer? event = n.offer? event :=
    Option.ext fun _ => offer?_eq_some_iff.trans (@offer?_eq_some_iff n _ _).symm
  rw [step, ← hOffer]
  dsimp only
  split
  next running =>
    have hHandled := @heeded_handleEvent env { n with outbox := [] } running event
    generalize ({ n with outbox := [] } : LocalNode).handleEvent env event = m at hHandled ⊢
    have hWrapped := hHandled.moved (@moved_wrapUp env m)
    split
    · exact hWrapped
    · exact hWrapped.moved (moved_close _)
  next stopped =>
    have hNone : ({ n with outbox := [] } : LocalNode).offer? event = none := by
      cases event with
      | datagram sender data => exact if_neg stopped
      | command => rfl
      | wake => rfl
    rw [hNone]
    exact .of_moved (.ignored event.streams)

end LocalNode
end Kademlia
