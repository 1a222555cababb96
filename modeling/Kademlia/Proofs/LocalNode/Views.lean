import Kademlia.LocalNode.Step
import Kademlia.Proofs.Announce
import Kademlia.Proofs.Lookup.Slate

namespace Kademlia
namespace LocalNode

/-!
# Views of a node that searching does not change

Lookups and announcements in progress are driven on by sending queries and noting what became of
them, over and over.  None of this changes a view of the node in which neither a query shows nor a
note (`Discreet`): whom a lookup has on its list may show, but not how far it has come with them.
Some of these views do not show announcements (`Reserved`).  Most views do not show lookups and
announcements at all (`Blind`), and in some not even what comes of them can be seen (`Unconcerned`),
or whom the node gets to know by them (`Indifferent`).
-/

variable {γ : Type} {view : LocalNode → γ} {env : Surroundings}

/-! ## Leaving -/

/-- A node has done something more, all of one kind, and is the same otherwise. -/
def Adds (kind : Effect → Prop) (n next : LocalNode) : Prop :=
  ∃ effects, (∀ effect ∈ effects, kind effect) ∧ next = { n with outbox := n.outbox ++ effects }

namespace Adds

variable {kind major : Effect → Prop} {n next last : LocalNode}

theorem refl (n : LocalNode) : Adds kind n n :=
  ⟨[], nofun, by rw [List.append_nil]⟩

theorem emit {effect : Effect} (n : LocalNode) (holds : kind effect) :
    Adds kind n (n.emit effect) := by
  refine ⟨[effect], fun other single => ?_, rfl⟩
  rw [List.mem_singleton.mp single]
  exact holds

theorem trans (first : Adds kind n next) (second : Adds kind next last) : Adds kind n last := by
  rcases first with ⟨earlier, hEarlier, rfl⟩
  rcases second with ⟨later, hLater, rfl⟩
  refine ⟨earlier ++ later, fun effect among => ?_, by rw [List.append_assoc]⟩
  exact (List.mem_append.mp among).elim (hEarlier effect) (hLater effect)

theorem imp (adds : Adds kind n next) (wider : ∀ effect, kind effect → major effect) :
    Adds major n next := by
  rcases adds with ⟨effects, holds, rfl⟩
  exact ⟨effects, fun effect among => wider effect (holds effect among), rfl⟩

/-- What is cleared away makes no difference to what was done. -/
theorem clear (adds : Adds kind n next) (clear : LocalNode → LocalNode)
    (keeps : ∀ (n : LocalNode) effects, clear { n with outbox := n.outbox ++ effects } =
      { clear n with outbox := (clear n).outbox ++ effects }) : Adds kind (clear n) (clear next) := by
  rcases adds with ⟨effects, holds, rfl⟩
  exact ⟨effects, holds, keeps n effects⟩

theorem foldl {α : Type} {step : LocalNode → α → LocalNode}
    (adds : ∀ n item, Adds kind n (step n item)) (n : LocalNode) (items : List α) :
    Adds kind n (items.foldl step n) := by
  induction items generalizing n with
  | nil => exact refl n
  | cons item items ih => exact (adds n item).trans (ih _)

end Adds

/-- What a node does that takes its leave: it tells those who wait for something. -/
inductive Parting : Effect → Prop
  | changed (state : ConnectionState) : Parting (.notice (.stateChanged state))
  | ended (stream : StreamId) : Parting (.ended stream)
  | unjoined (call : CallId) : Parting (.answered call (.joined false))
  | dropped (call : CallId) : Parting (.answered call .shutDown)

theorem adds_dropSink (n : LocalNode) (sink : Sink) : Adds Parting n (n.dropSink sink) := by
  cases sink with
  | peers stream => exact .emit n (.ended stream)
  | contacts call => exact .emit n (.dropped call)
  | nowhere => exact .refl n

theorem adds_endStream (n : LocalNode) (stream : Option StreamId) :
    Adds Parting n (n.endStream stream) := by
  cases stream with
  | none => exact .refl n
  | some stream => exact .emit n (.ended stream)

/-- A node that has shut down ends all that is in progress, and tells those who wait for it. -/
theorem adds_close (n : LocalNode) :
    Adds Parting
      { n with
        state := .disconnected
        waiting := []
        queued := []
        lookups := []
        announces := [] } n.close := by
  have hState : Adds Parting { n with state := .disconnected } (n.setState .disconnected) := by
    unfold setState
    split
    next same =>
      rw [← same]
      exact .refl n
    next => exact .emit _ (.changed _)
  let told := (n.setState .disconnected).answerWaiting false
  let unqueued := told.queued.foldl (fun m request => m.dropSink request.sink)
    { told with queued := [] }
  let idle := unqueued.lookups.foldl (fun m entry => m.dropSink entry.2.sink)
    { unqueued with lookups := [] }
  have hTold : Adds Parting { n with state := .disconnected, waiting := [] } told :=
    (hState.clear ({ · with waiting := [] }) fun _ _ => rfl).trans
      (.foldl (fun m call => .emit m (.unjoined call)) _ _)
  have hUnqueued : Adds Parting { n with state := .disconnected, waiting := [], queued := [] }
      unqueued :=
    (hTold.clear ({ · with queued := [] }) fun _ _ => rfl).trans
      (.foldl (fun m (request : LookupRequest) => adds_dropSink m request.sink) _ _)
  have hIdle : Adds Parting
      { n with state := .disconnected, waiting := [], queued := [], lookups := [] } idle :=
    (hUnqueued.clear ({ · with lookups := [] }) fun _ _ => rfl).trans
      (.foldl (fun m (entry : LookupId × ActiveLookup) => adds_dropSink m entry.2.sink) _ _)
  exact (hIdle.clear ({ · with announces := [] }) fun _ _ => rfl).trans
    (.foldl (fun m (entry : LookupId × ActiveAnnounce) => adds_endStream m entry.2.stream) _ _)

/-! ## Effects that do not show -/

/-- In a view, minor effects do not show. -/
def Overlooks (view : LocalNode → γ) (minor : Effect → Prop) : Prop :=
  ∀ (n : LocalNode) (effect : Effect), minor effect → view (n.emit effect) = view n

namespace Overlooks

variable {minor : Effect → Prop} (overlooks : Overlooks view minor)

include overlooks

theorem of_adds {n next : LocalNode} (adds : Adds minor n next) : view next = view n := by
  rcases adds with ⟨effects, holds, rfl⟩
  induction effects generalizing n with
  | nil => rw [List.append_nil]
  | cons effect effects ih =>
    have hRest := ih (n := n.emit effect) fun other later => holds other (.tail _ later)
    rw [List.append_cons]
    exact hRest.trans (overlooks n effect (holds effect List.mem_cons_self))

theorem emit_if {effect : Effect} (condition : Prop) [Decidable condition] (n : LocalNode)
    (holds : minor effect) : view (if condition then n.emit effect else n) = view n := by
  split
  · exact overlooks n effect holds
  · rfl

theorem setState (changed : ∀ state, minor (.notice (.stateChanged state))) (n : LocalNode)
    (state : ConnectionState) : view (n.setState state) = view { n with state } := by
  rw [LocalNode.setState]
  split
  next same => rw [← same]
  next => exact overlooks _ _ (changed state)

theorem endStream (ended : ∀ stream, minor (.ended stream)) (n : LocalNode)
    (stream : Option StreamId) : view (n.endStream stream) = view n := by
  cases stream with
  | none => rfl
  | some stream => exact overlooks n _ (ended stream)

theorem reportPeer (yielded : ∀ stream peer, minor (.yielded stream peer))
    (found : ∀ infoHash peer, minor (.notice (.peerFound infoHash peer))) (target : InfoHash)
    (sink : Sink) (n : LocalNode) (peer : Address) :
    view (LocalNode.reportPeer target sink n peer) = view n := by
  unfold LocalNode.reportPeer
  split
  · rfl
  · refine (overlooks _ _ (found target peer)).trans ?_
    split
    · exact overlooks n _ (yielded _ peer)
    · rfl

/-- A query shows neither when it is sent nor in what is noted about it. -/
theorem sendQuery (sent : ∀ destination transaction query delivered,
      minor (.sent destination (.ofBody transaction (.query query)) delivered))
    (noted : ∀ (n : LocalNode) (transactions : Transactions) (timer : Timer) (redrawn reused : Bool),
      view { n with transactions, timer, redrawn, reused } = view n)
    (n : LocalNode) (destination : Destination) (nodeId : Option NodeId) (query : Query)
    (owner : Owner) : view (n.sendQuery env destination nodeId query owner).2 = view n := by
  unfold LocalNode.sendQuery send
  dsimp only
  split
  · exact ((noted ..).trans (overlooks _ _ (sent ..))).trans (noted n _ n.timer _ _)
  · exact (overlooks _ _ (sent ..)).trans (noted n _ n.timer _ _)

theorem answerWaiting (answered : ∀ call success, minor (.answered call (.joined success)))
    (n : LocalNode) (success : Bool) :
    view (n.answerWaiting success) = view { n with waiting := [] } :=
  foldl_keeps view (fun m call => overlooks m _ (answered call success)) { n with waiting := [] }
    n.waiting

/-- A node that has shut down looks like one with nothing in progress. -/
theorem close (parting : ∀ effect, Parting effect → minor effect)
    (left : ∀ (n : LocalNode) (state : ConnectionState) (waiting : List CallId)
        (queued : List LookupRequest) (lookups : List (LookupId × ActiveLookup))
        (announces : List (LookupId × ActiveAnnounce)),
      view { n with state, waiting, queued, lookups, announces } = view n)
    (n : LocalNode) : view n.close = view n :=
  (overlooks.of_adds ((adds_close n).imp parting)).trans (left ..)

/-! ### Queries of others -/

section Queries

variable (pinged : ∀ node compatible, minor (.notice (.nodePinged node compatible)))
  (found : ∀ infoHash peer, minor (.notice (.peerFound infoHash peer)))
  (replied : ∀ destination transaction body delivered,
    minor (.sent destination (.ofBody transaction body) delivered))
  (noted : ∀ (n : LocalNode) (table : Routing.Table) (tokens : TokenStore) (store : PeerStore),
    view { n with table, tokens, store } = view n)

include found noted in
theorem answerAnnounce (n : LocalNode) (sender : Address) (infoHash : InfoHash)
    (port : Option UInt16) (token : Bytes) :
    view (n.answerAnnounce env sender infoHash port token).2 = view n := by
  unfold LocalNode.answerAnnounce
  split
  next valid checked same =>
    have hChecked : view checked = view n := by
      split at same
      · cases same
        exact noted n n.table _ n.store
      · cases same
        rfl
    have hStored : ∀ store, view { checked with store } = view checked :=
      noted checked checked.table checked.tokens
    rw [← hChecked]
    split
    · rfl
    · dsimp only
      split
      · exact hStored _
      · exact (overlooks.emit_if _ _ (found ..)).trans (hStored _)
      · exact (overlooks.emit_if _ _ (found ..)).trans (hStored _)

include pinged found noted in
theorem answer (n : LocalNode) (sender : Address) (compatible : Bool) (query : Query) :
    view (n.answer env sender compatible query).2 = view n := by
  cases query with
  | ping id => exact overlooks n _ (pinged _ compatible)
  | findNode => rfl
  | getPeers => exact noted n n.table _ n.store
  | announcePeer => exact overlooks.answerAnnounce found noted ..
  | other => rfl

include pinged found replied noted in
/-- A query is answered, and whoever asks is taken note of. -/
theorem handleQuery (n : LocalNode) (sender : Address) (message : Message) (query : Query) :
    view (n.handleQuery env sender message query) = view n := by
  have hAnswered : ∀ m : LocalNode, view m = view n →
      let answered := m.answer env sender (message.isSimilarTo Message.ownVersion) query
      view (answered.2.send env sender (.ofBody message.transaction answered.1)).2 = view n := by
    intro m same
    refine (overlooks _ _ (replied ..)).trans ?_
    exact (overlooks.answer pinged found noted ..).trans same
  unfold LocalNode.handleQuery
  apply hAnswered
  split
  · split
    · rfl
    · exact noted n _ n.tokens n.store
  · rfl

end Queries

end Overlooks

/-! ## Searching -/

/-- In a view, neither the queries of lookups and announcements show nor what became of them.  Whom
they are to ask may show, and whether an announcement is to follow. -/
structure Discreet (view : LocalNode → γ) : Prop where
  sendQuery : ∀ (env : Surroundings) (n : LocalNode) (destination : Destination)
    (nodeId : Option NodeId) (query : Query) (owner : Owner),
    view (n.sendQuery env destination nodeId query owner).2 = view n
  modifyLookup : ∀ (n : LocalNode) (id : LookupId) (change : Lookup → Lookup),
    (∀ active, n.lookups.lookup id = some active →
      Lookup.Alike active.lookup (change active.lookup)) →
    view (n.modifyLookup id change) = view n
  modifyAnnounce : ∀ (n : LocalNode) (id : LookupId) (change : Announce → Announce),
    (∀ active, n.announces.lookup id = some active →
      (change active.announce).targets.map (·.contact) =
        active.announce.targets.map (·.contact)) →
    view (n.modifyAnnounce id change) = view n
  completed : ∀ (n : LocalNode) (completed : List LookupId), view { n with completed } = view n

namespace Discreet

theorem queryTarget (discreet : Discreet view) (n : LocalNode) (id : LookupId) (query : Query)
    (target : Destination × Option NodeId) : view (n.queryTarget env id query target) = view n := by
  have hSent := discreet.sendQuery env n target.1 target.2 query (.lookup id)
  unfold LocalNode.queryTarget
  generalize n.sendQuery env target.1 target.2 query (.lookup id) = sent at hSent ⊢
  rcases sent with ⟨transaction, m⟩
  cases transaction with
  | none =>
    exact (discreet.modifyLookup m id _ fun _ _ => Lookup.alike_sendFailed ..).trans hSent
  | some transaction =>
    exact (discreet.modifyLookup m id _ fun _ _ => Lookup.alike_sent ..).trans hSent

theorem driveSteps (discreet : Discreet view) (id : LookupId) (count : Nat) (n : LocalNode) :
    view (LocalNode.driveSteps env id count n) = view n := by
  induction count generalizing n with
  | zero => rfl
  | succ count ih =>
    rw [LocalNode.driveSteps]
    split
    · rfl
    next active found =>
      have hStep : view (n.modifyLookup id fun _ => active.lookup.step.2) = view n := by
        refine discreet.modifyLookup n id _ fun other same => ?_
        rcases Option.some.inj (found.symm.trans same) with rfl
        exact Lookup.alike_step _
      dsimp only
      split
      · exact hStep
      · exact (discreet.completed ..).trans hStep
      · rw [ih, foldl_keeps view fun m target => discreet.queryTarget m ..]
        exact hStep

theorem driveLookup (discreet : Discreet view) (n : LocalNode) (id : LookupId) :
    view (n.driveLookup env id) = view n := by
  unfold LocalNode.driveLookup
  split
  · rfl
  · exact discreet.driveSteps ..

theorem announceTo (discreet : Discreet view) (n : LocalNode) (id : LookupId)
    (pick : Contact × Query) : view (announceTo env id n pick) = view n := by
  have hSent := discreet.sendQuery env n pick.1.address (some pick.1.id) pick.2 (.announce id)
  unfold LocalNode.announceTo
  generalize n.sendQuery env pick.1.address (some pick.1.id) pick.2 (.announce id) = sent
    at hSent ⊢
  rcases sent with ⟨transaction, m⟩
  cases transaction <;>
    exact (discreet.modifyAnnounce m id _ fun _ _ => Announce.contacts_setState ..).trans hSent

theorem announceRounds (discreet : Discreet view) (id : LookupId) (count : Nat) (n : LocalNode) :
    view (LocalNode.announceRounds env id count n) = view n := by
  induction count generalizing n with
  | zero => rfl
  | succ count ih =>
    rw [LocalNode.announceRounds]
    split
    · rfl
    next active found =>
      dsimp only
      split
      · rfl
      · rw [ih, foldl_keeps view fun m pick => discreet.announceTo m ..]
        refine discreet.modifyAnnounce n id _ fun other same => ?_
        rcases Option.some.inj (found.symm.trans same) with rfl
        exact Announce.contacts_pick ..

end Discreet

/-- In a view, nothing of an announcement shows, nor how far a lookup has come. -/
structure Reserved (view : LocalNode → γ) (minor : Effect → Prop) : Prop extends Discreet view where
  overlooks : Overlooks view minor
  announced : ∀ infoHash accepted, minor (.notice (.announced infoHash accepted))
  ended : ∀ stream, minor (.ended stream)
  announces : ∀ (n : LocalNode) (announces : List (LookupId × ActiveAnnounce)),
    view { n with announces } = view n

namespace Reserved

variable {minor : Effect → Prop} (reserved : Reserved view minor)

include reserved

theorem completeAnnounce (n : LocalNode) (id : LookupId) : view (n.completeAnnounce id) = view n := by
  rw [LocalNode.completeAnnounce]
  split
  · rfl
  · dsimp only
    rw [reserved.overlooks.endStream reserved.ended]
    refine (reserved.overlooks _ _ (reserved.announced ..)).trans ?_
    exact reserved.announces ..

theorem continueAnnounce (n : LocalNode) (id : LookupId) :
    view (n.continueAnnounce env id) = view n := by
  have hDriven := @Discreet.announceRounds _ _ env reserved.toDiscreet id
  rw [LocalNode.continueAnnounce]
  split
  · rfl
  · dsimp only
    split
    · split
      · exact (reserved.completeAnnounce ..).trans (hDriven ..)
      · exact hDriven ..
    · exact hDriven ..

theorem startAnnounce (n : LocalNode) (id : LookupId) (infoHash : InfoHash)
    (targets : List (Contact × Bytes)) (stream : Option StreamId) :
    view (n.startAnnounce env id infoHash targets stream) = view n :=
  (reserved.continueAnnounce ..).trans (reserved.announces ..)

theorem announceReply (n : LocalNode) (id : LookupId) (contact : Contact) (success : Bool) :
    view (n.announceReply env id contact success) = view n := by
  have hNoted : view (n.modifyAnnounce id (·.onReply contact success)) = view n :=
    reserved.announces ..
  rw [LocalNode.announceReply]
  split
  · rfl
  · dsimp only
    split
    · exact (reserved.continueAnnounce ..).trans hNoted
    · exact (reserved.completeAnnounce ..).trans hNoted

theorem deliver (answered : ∀ call found, minor (.answered call (.contacts found)))
    (n : LocalNode) (id : LookupId) (sink : Sink) (outcome : LookupOutcome) :
    view (n.deliver env id sink outcome) = view n := by
  rw [deliver.eq_def]
  split
  · exact reserved.overlooks n _ (answered ..)
  · split
    · exact reserved.startAnnounce ..
    · exact reserved.overlooks n _ (reserved.ended _)
  · split
    · exact reserved.startAnnounce ..
    · rfl

end Reserved

/-- In a view, neither the queries of lookups and announcements show nor the notes about them. -/
structure Blind (view : LocalNode → γ) : Prop where
  sendQuery : ∀ (env : Surroundings) (n : LocalNode) (destination : Destination)
    (nodeId : Option NodeId) (query : Query) (owner : Owner),
    view (n.sendQuery env destination nodeId query owner).2 = view n
  /-- Whether an announcement is to follow may show, since it never changes. -/
  modifyLookup : ∀ (n : LocalNode) (id : LookupId) (change : Lookup → Lookup),
    (∀ active, n.lookups.lookup id = some active →
      (change active.lookup).announce = active.lookup.announce) →
    view (n.modifyLookup id change) = view n
  modifyAnnounce : ∀ (n : LocalNode) (id : LookupId) (change : Announce → Announce),
    view (n.modifyAnnounce id change) = view n
  completed : ∀ (n : LocalNode) (completed : List LookupId), view { n with completed } = view n

namespace Blind

/-- A view that shows nobody who is asked shows none of them in particular. -/
theorem discreet (blind : Blind view) : Discreet view where
  sendQuery := blind.sendQuery
  modifyLookup n id change kept :=
    blind.modifyLookup n id change fun active found => (kept active found).announce
  modifyAnnounce n id change _ := blind.modifyAnnounce n id change
  completed := blind.completed

theorem told (blind : Blind view) (n : LocalNode) (id : LookupId) {change : Lookup → Lookup}
    (told : ∀ l, Lookup.Told l (change l)) : view (n.modifyLookup id change) = view n :=
  blind.modifyLookup n id change fun _ _ => (told _).announce

/-- A lookup is replaced by what has become of it. -/
theorem replaced (blind : Blind view) {n : LocalNode} {id : LookupId} {active : ActiveLookup}
    {lookup : Lookup} (found : n.lookups.lookup id = some active)
    (kept : lookup.announce = active.lookup.announce) :
    view (n.modifyLookup id fun _ => lookup) = view n := by
  apply blind.modifyLookup
  intro other same
  rw [Option.some.inj (found.symm.trans same)] at kept
  exact kept

theorem driveLookup (blind : Blind view) (n : LocalNode) (id : LookupId) :
    view (n.driveLookup env id) = view n :=
  blind.discreet.driveLookup n id

theorem announceRounds (blind : Blind view) (id : LookupId) (count : Nat) (n : LocalNode) :
    view (LocalNode.announceRounds env id count n) = view n :=
  blind.discreet.announceRounds id count n

/-- Of a response, nothing shows but the peers that it has brought. -/
theorem lookupResponse (blind : Blind view)
    (reported : ∀ target sink n peer, view (reportPeer target sink n peer) = view n)
    (n : LocalNode) (id : LookupId) (transaction : TransactionId) (sender : Contact)
    (response : Response) (nodes : List Contact) :
    view (n.lookupResponse env id transaction sender response nodes) = view n := by
  rw [LocalNode.lookupResponse]
  split
  · rfl
  next active found =>
    dsimp only
    rw [blind.driveLookup, foldl_keeps view (reported _ _)]
    exact blind.replaced found (Lookup.Told.onResponse ..).announce

end Blind

/-- In a view, nothing of a search shows but the peers that are found: neither the lookup or the
announcement, nor that it is over. -/
structure Unconcerned (view : LocalNode → γ) (minor : Effect → Prop) : Prop extends Blind view where
  overlooks : Overlooks view minor
  announced : ∀ infoHash accepted, minor (.notice (.announced infoHash accepted))
  ended : ∀ stream, minor (.ended stream)
  announces : ∀ (n : LocalNode) (announces : List (LookupId × ActiveAnnounce)),
    view { n with announces } = view n

/-- A view that shows nothing of a search shows nothing of its announcement. -/
theorem Unconcerned.reserved {minor : Effect → Prop} (unconcerned : Unconcerned view minor) :
    Reserved view minor where
  toDiscreet := unconcerned.toBlind.discreet
  overlooks := unconcerned.overlooks
  announced := unconcerned.announced
  ended := unconcerned.ended
  announces := unconcerned.announces

/-! ## Knowing -/

/-- In a view, neither searches show, those that are kept waiting included, nor which queries wait
for an answer, nor whom the node knows. -/
structure Indifferent (view : LocalNode → γ) (minor : Effect → Prop) : Prop
    extends Unconcerned view minor where
  lookups : ∀ (n : LocalNode) (lookups : List (LookupId × ActiveLookup)) (lookupCount : Nat),
    view { n with lookups, lookupCount } = view n
  queued : ∀ (n : LocalNode) (queued : List LookupRequest), view { n with queued } = view n
  lastNetworkAnnounce : ∀ (n : LocalNode) (lastNetworkAnnounce : Option Instant),
    view { n with lastNetworkAnnounce } = view n
  transactions : ∀ (n : LocalNode) (transactions : Transactions),
    view { n with transactions } = view n
  cancel : ∀ (n : LocalNode) (id : TransactionId),
    view { n with timer := (n.timer.cancel id).2 } = view n
  table : ∀ (n : LocalNode) (table : Routing.Table), view { n with table } = view n

namespace Indifferent

variable {minor : Effect → Prop} (indifferent : Indifferent view minor)

include indifferent

theorem driveLookup (n : LocalNode) (id : LookupId) : view (n.driveLookup env id) = view n :=
  indifferent.toBlind.driveLookup n id

theorem launch (n : LocalNode) (active : ActiveLookup) : view (n.launch env active) = view n :=
  (indifferent.driveLookup ..).trans (indifferent.lookups n _ _)

theorem startLookup (n : LocalNode) (request : LookupRequest) :
    view (n.startLookup env request) = view n :=
  indifferent.launch ..

theorem requestLookup (n : LocalNode) (request : LookupRequest) :
    view (n.requestLookup env request) = view n := by
  unfold LocalNode.requestLookup
  split
  · exact indifferent.queued n _
  · exact indifferent.startLookup ..

theorem startQueued (n : LocalNode) : view (n.startQueued env) = view n :=
  (foldl_keeps view indifferent.startLookup { n with queued := [] } n.queued).trans
    (indifferent.queued n [])

theorem joinNetwork (n : LocalNode) (stream : StreamId) :
    view (n.joinNetwork env stream) = view n := by
  have hAround : view (n.requestLookup env ⟨n.id, .findNode, false, .nowhere⟩) = view n :=
    indifferent.requestLookup ..
  unfold LocalNode.joinNetwork
  generalize n.requestLookup env ⟨n.id, .findNode, false, .nowhere⟩ = m at hAround ⊢
  rw [← hAround]
  dsimp only
  split
  · exact (indifferent.requestLookup ..).trans (indifferent.lastNetworkAnnounce m _)
  · exact indifferent.overlooks m _ (indifferent.ended stream)

theorem announceAgain (n : LocalNode) : view (n.announceAgain env) = view n := by
  unfold LocalNode.announceAgain
  split
  · split
    · exact (indifferent.requestLookup ..).trans (indifferent.lastNetworkAnnounce n _)
    · rfl
  · rfl

theorem queryFailed (n : LocalNode) (t : Transaction) (timedOut : Bool) :
    view (n.queryFailed env t timedOut) = view n := by
  have hNoted : view (if timedOut ∧ t.destination.link = 0 then
      { n with table := n.table.failedAddress t.destination.address } else n) = view n := by
    split
    · exact indifferent.table n _
    · rfl
  unfold LocalNode.queryFailed
  generalize (if timedOut ∧ t.destination.link = 0 then
    { n with table := n.table.failedAddress t.destination.address } else n) = m at hNoted ⊢
  rw [← hNoted]
  dsimp only
  split
  next id _ =>
    exact (indifferent.driveLookup ..).trans (indifferent.told m id fun l => .onFailure l _)
  · split
    · exact indifferent.reserved.announceReply ..
    · rfl
  · rfl
  · rfl

theorem handleQueryTimeout (n : LocalNode) (id : TransactionId) :
    view (n.handleQueryTimeout env id) = view n := by
  unfold LocalNode.handleQueryTimeout
  split
  · exact (indifferent.queryFailed ..).trans (indifferent.transactions n _)
  · rfl

theorem failStale (n : LocalNode) (t : Transaction) : view (n.failStale env t) = view n :=
  (indifferent.queryFailed ..).trans (indifferent.cancel n t.id)

/-- Of a response to an own query, nothing shows but the peers that it has brought. -/
theorem handleResponse
    (pinged : ∀ node compatible, minor (.notice (.nodePinged node compatible)))
    (reported : ∀ target sink n peer, view (reportPeer target sink n peer) = view n)
    (n : LocalNode) (sender : Address) (message : Message) (response : Response)
    (t : Transaction) : view (n.handleResponse env sender message response t) = view n := by
  unfold LocalNode.handleResponse
  dsimp only
  generalize hHeard : ({ n with table := _ } : LocalNode) = m
  have hKept : view m = view n := by
    rw [← hHeard]
    exact indifferent.table n _
  rw [← hKept]
  split
  · exact indifferent.overlooks m _ (pinged ..)
  · exact indifferent.toBlind.lookupResponse reported ..
  · exact indifferent.toBlind.lookupResponse reported ..
  · exact indifferent.reserved.announceReply ..
  · rfl

end Indifferent
end LocalNode
end Kademlia
