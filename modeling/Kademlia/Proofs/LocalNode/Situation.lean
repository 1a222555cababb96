import Kademlia.Proofs.LocalNode.Hearing
import Kademlia.Proofs.LocalNode.Views
import Kademlia.Proofs.Routing.Entries

namespace Kademlia

/-!
# How a node stands with its network

Whom a node knows, how joining goes, and who waits for that: these depend on one another alone.
What a node does to them at an event is told here without its searches (`Situation`).  An event that
comes in changes one of them (`Situation.Handled`).  After that the attempt to join may be over,
which is judged by the nodes that are known then (`Situation.judge`).
-/

open Routing (Table)
open Routing.Table (Grown)

/-- The verdict on joining that a call is answered with. -/
def Effect.verdict? : Effect → Option (CallId × Bool)
  | answered call (.joined success) => some (call, success)
  | _ => none

/-- How a node stands with its network. -/
structure Situation where
  table : Table
  bootstrap : Bootstrap
  joinLookup : Option LookupId
  waiting : List CallId
  queued : List LookupRequest
  /-- How many lookups were ever started. -/
  started : Nat
  /-- What calls were told about joining during the event at hand. -/
  verdicts : List (CallId × Bool)

namespace Situation

def launch (s : Situation) : Situation :=
  { s with started := s.started + 1 }

/-- A lookup is asked for. -/
def request (s : Situation) (request : LookupRequest) : Situation :=
  if s.joinLookup.isSome ∧ s.bootstrap.state = .bootstrapping then
    { s with queued := s.queued ++ [request] }
  else s.launch

/-- Everybody who waits is told how joining went, and what was kept waiting is launched. -/
def release (s : Situation) (success : Bool) : Situation :=
  { s with
    waiting := []
    queued := []
    started := s.started + s.queued.length
    verdicts := s.verdicts ++ s.waiting.map (·, success) }

/-- The order to join. -/
def join (s : Situation) (lookUp : String → List Destination) : Situation :=
  if s.joinLookup.isSome then s
  else if !s.bootstrap.hasSeeds then
    release { s with bootstrap := s.bootstrap.completeWithoutSeeds } true
  else
    launch { s with
      bootstrap := (s.bootstrap.start lookUp).2
      joinLookup := some ⟨s.started⟩ }

/-- Joins again if nobody is known any more. -/
def rejoin (s : Situation) (lookUp : String → List Destination) : Situation :=
  if s.table.isEmpty ∧ s.bootstrap.hasSeeds ∧ s.bootstrap.state = .bootstrapped then
    join { s with bootstrap := s.bootstrap.reset } lookUp
  else s

/-- The attempt to join is over, and the number of good nodes decides. -/
def judge (s : Situation) (now : Instant) : Situation :=
  let (outcome, bootstrap) := s.bootstrap.onLookupCompleted (s.table.countWith now .good)
  let s := { s with bootstrap, joinLookup := none }
  match outcome with
  | .completed => s.release true
  | .retry failed => if failed then s.release false else s

/-! ## What stays -/

@[simp]
theorem table_request (s : Situation) (request : LookupRequest) :
    (s.request request).table = s.table := by
  rw [Situation.request]
  split <;> rfl

@[simp]
theorem table_requests (s : Situation) (requests : List LookupRequest) :
    (requests.foldl Situation.request s).table = s.table :=
  foldl_keeps table table_request s requests

@[simp]
theorem table_join (s : Situation) (lookUp : String → List Destination) :
    (s.join lookUp).table = s.table := by
  rw [join]
  split
  · rfl
  · split <;> rfl

@[simp]
theorem table_rejoin (s : Situation) (lookUp : String → List Destination) :
    (s.rejoin lookUp).table = s.table := by
  rw [rejoin]
  split
  · exact table_join ..
  · rfl

@[simp]
theorem table_judge (s : Situation) (now : Instant) : (s.judge now).table = s.table := by
  unfold judge
  dsimp only
  split
  · rfl
  · split <;> rfl

theorem joinLookup_judge (s : Situation) (now : Instant) : (s.judge now).joinLookup = none := by
  unfold judge release
  dsimp only
  split
  · rfl
  · split <;> rfl

/-- What an event that comes in does to the situation.  Certain contacts may get to be known. -/
inductive Handled (lookUp : String → List Destination) (entrants : Contact → Prop) (s : Situation) :
    Situation → Prop
  | waits (call : CallId) : Handled lookUp entrants s { s with waiting := s.waiting ++ [call] }
  /-- A call that need not wait is answered. -/
  | told (call : CallId) :
    Handled lookUp entrants s { s with verdicts := s.verdicts ++ [(call, true)] }
  | requested (requests : List LookupRequest) : Handled lookUp entrants s (requests.foldl request s)
  | ordered : Handled lookUp entrants s (s.join lookUp)
  | learned (table : Table) : Grown entrants s.table table →
    Handled lookUp entrants s { s with table }
  | maintained (table : Table) (requests : List LookupRequest) : Grown entrants s.table table →
    Handled lookUp entrants s (requests.foldl request (rejoin { s with table } lookUp))

theorem Handled.grown {lookUp : String → List Destination} {entrants : Contact → Prop}
    {s t : Situation} (handled : Handled lookUp entrants s t) :
    Grown entrants s.table t.table := by
  cases handled with
  | waits => exact .refl
  | told => exact .refl
  | requested requests =>
    rw [table_requests]
    exact .refl
  | ordered =>
    rw [table_join]
    exact .refl
  | learned table grows => exact grows
  | maintained table requests grows =>
    rw [table_requests, table_rejoin]
    exact grows

end Situation

namespace LocalNode

open Situation (Handled)

/-- What calls were told about joining during the event at hand. -/
def verdicts (n : LocalNode) : List (CallId × Bool) :=
  n.outbox.filterMap Effect.verdict?

/-- How a node stands with its network. -/
def situation (n : LocalNode) : Situation where
  table := n.table
  bootstrap := n.bootstrap
  joinLookup := n.bootstrapLookup
  waiting := n.waiting
  queued := n.queued
  started := n.lookupCount
  verdicts := n.verdicts

variable {env : Surroundings}

/-! ## Effects -/

theorem verdicts_emit (n : LocalNode) (effect : Effect) :
    (n.emit effect).verdicts = n.verdicts ++ effect.verdict?.toList := by
  rw [verdicts, emit, List.filterMap_append]
  cases told : effect.verdict? with
  | none => rw [List.filterMap_cons_none told, List.filterMap_nil, Option.toList_none]; rfl
  | some verdict => rw [List.filterMap_cons_some told, List.filterMap_nil, Option.toList_some]; rfl

theorem overlooks_situation : Overlooks situation fun effect => effect.verdict? = none := by
  intro n effect silent
  have hVerdicts : (n.emit effect).verdicts = n.verdicts := by
    rw [verdicts_emit, silent, Option.toList_none, List.append_nil]
  rw [situation, hVerdicts]
  rfl

theorem situation_answered (n : LocalNode) (call : CallId) (success : Bool) :
    (n.emit (.answered call (.joined success))).situation =
      { n.situation with verdicts := n.situation.verdicts ++ [(call, success)] } := by
  rw [situation, verdicts_emit]
  rfl

theorem situation_setState (n : LocalNode) (state : ConnectionState) :
    (n.setState state).situation = n.situation :=
  overlooks_situation.setState (fun _ => rfl) n state

theorem situation_sendQuery (n : LocalNode) (destination : Destination) (nodeId : Option NodeId)
    (query : Query) (owner : Owner) :
    (n.sendQuery env destination nodeId query owner).2.situation = n.situation :=
  overlooks_situation.sendQuery (fun _ _ _ _ => rfl) (fun _ _ _ _ _ => rfl) n destination nodeId
    query owner

theorem unconcerned_situation : Unconcerned situation fun effect => effect.verdict? = none where
  sendQuery _ n := situation_sendQuery n
  modifyLookup _ _ _ _ := rfl
  modifyAnnounce _ _ _ := rfl
  completed _ _ := rfl
  overlooks := overlooks_situation
  announced _ _ := rfl
  ended _ := rfl
  announces _ _ := rfl

/-! ## Lookups and announcements -/

theorem situation_launch (n : LocalNode) (active : ActiveLookup) :
    (n.launch env active).situation = n.situation.launch :=
  unconcerned_situation.toBlind.driveLookup ..

theorem situation_startLookup (n : LocalNode) (request : LookupRequest) :
    (n.startLookup env request).situation = n.situation.launch :=
  situation_launch ..

theorem situation_requestLookup (n : LocalNode) (request : LookupRequest) :
    (n.requestLookup env request).situation = n.situation.request request := by
  rw [requestLookup, Situation.request]
  change LocalNode.situation (if _ then _ else _) =
    if n.bootstrapLookup.isSome ∧ n.bootstrap.state = .bootstrapping then _ else _
  split
  · rfl
  · exact situation_startLookup ..

theorem situation_startLookups (requests : List LookupRequest) (n : LocalNode) :
    (requests.foldl (startLookup env) n).situation =
      { n.situation with started := n.situation.started + requests.length } := by
  induction requests generalizing n with
  | nil => rfl
  | cons request requests ih =>
    have hStarted : n.situation.started + 1 + requests.length =
        n.situation.started + (request :: requests).length := by
      rw [List.length_cons]
      omega
    rw [List.foldl_cons, ih, situation_startLookup, Situation.launch, hStarted]

theorem situation_startQueued (n : LocalNode) :
    (n.startQueued env).situation =
      { n.situation with
        queued := []
        started := n.situation.started + n.situation.queued.length } :=
  situation_startLookups n.queued { n with queued := [] }

/-- A query that has failed may count against a node of the routing table. -/
theorem situation_queryFailed_eq (n : LocalNode) (t : Transaction) (timedOut : Bool) :
    (n.queryFailed env t timedOut).situation =
      { n.situation with
        table := if timedOut ∧ t.destination.link = 0 then
            n.table.failedAddress t.destination.address
          else n.table } := by
  rw [queryFailed]
  dsimp only
  generalize hNoted : (if timedOut ∧ t.destination.link = 0 then
    { n with table := n.table.failedAddress t.destination.address } else n) = noted
  have hSituation : noted.situation =
      { n.situation with
        table := if timedOut ∧ t.destination.link = 0 then
            n.table.failedAddress t.destination.address
          else n.table } := by
    rw [← hNoted]
    split <;> rfl
  rw [← hSituation]
  split
  · exact unconcerned_situation.toBlind.driveLookup ..
  · split
    · exact unconcerned_situation.reserved.announceReply ..
    · rfl
  · rfl
  · rfl

theorem situation_queryFailed (n : LocalNode) (t : Transaction) (timedOut : Bool) :
    ∃ table, (∀ entrants, Grown entrants n.table table) ∧
      (n.queryFailed env t timedOut).situation = { n.situation with table } := by
  refine ⟨_, fun entrants => ?_, situation_queryFailed_eq n t timedOut⟩
  split
  · exact Table.grown_failedAddress ..
  · exact .refl

/-! ## Joining -/

theorem situation_refreshTick (n : LocalNode) : (n.refreshTick env).situation = n.situation := by
  rw [refreshTick]
  exact foldl_keeps situation (fun m pick => situation_sendQuery m ..) _ _

theorem situation_answerWaiting (n : LocalNode) (success : Bool) :
    (n.answerWaiting success).situation =
      { n.situation with
        waiting := []
        verdicts := n.situation.verdicts ++ n.situation.waiting.map (·, success) } := by
  have hAnswered : ∀ (calls : List CallId) (m : LocalNode),
      (calls.foldl (fun m call => m.emit (.answered call (.joined success))) m).situation =
        { m.situation with
          verdicts := m.situation.verdicts ++ calls.map (·, success) } := by
    intro calls
    induction calls with
    | nil =>
      intro m
      rw [List.map_nil, List.append_nil]
      rfl
    | cons call calls ih =>
      intro m
      rw [List.foldl_cons, ih, situation_answered]
      simp only [List.map_cons, List.append_assoc, List.singleton_append]
  exact hAnswered n.waiting { n with waiting := [] }

/-- Those who wait are answered first, and what was kept waiting is launched then. -/
theorem situation_released (n : LocalNode) (success : Bool) :
    ((n.answerWaiting success).startQueued env).situation = n.situation.release success := by
  rw [situation_startQueued, situation_answerWaiting]
  rfl

theorem situation_bootstrapSucceeded (n : LocalNode) :
    (n.bootstrapSucceeded env).situation = n.situation.release true := by
  have hTold : ((n.setState .connected).notify .bootstrapCompleted).situation = n.situation :=
    (overlooks_situation _ _ rfl).trans (situation_setState ..)
  have hRefreshed : ∀ m : LocalNode, (if m.refreshStarted then m
      else refreshTick env { m with refreshStarted := true }).situation = m.situation := by
    intro m
    split
    · rfl
    · exact situation_refreshTick _
  rw [bootstrapSucceeded, situation_startQueued, hRefreshed, situation_answerWaiting, hTold]
  rfl

theorem situation_startBootstrap (n : LocalNode) :
    (n.startBootstrap env).situation = n.situation.join env.lookUp := by
  have hConnecting : (if n.state = .connected then n else n.setState .connecting).situation =
      n.situation := by
    split
    · rfl
    · exact situation_setState n .connecting
  rw [startBootstrap, Situation.join]
  change _ = if n.bootstrapLookup.isSome then _ else _
  split
  · rfl
  · rw [← hConnecting]
    generalize (if n.state = .connected then n else n.setState .connecting) = m
    dsimp only
    change _ = if (!m.bootstrap.hasSeeds) = true then _ else _
    split
    · exact situation_bootstrapSucceeded _
    · have hSame : (if m.bootstrap.needsLookUp then m.emit .lookingUp else m).situation =
          m.situation := overlooks_situation.emit_if _ m rfl
      rw [situation_launch, ← hSame]
      rfl

theorem situation_bootstrapLookupCompleted (n : LocalNode) :
    ({ n with bootstrapLookup := none }.bootstrapLookupCompleted env).situation =
      n.situation.judge env.now := by
  simp only [bootstrapLookupCompleted, Situation.judge, situation]
  generalize n.bootstrap.onLookupCompleted (n.table.countWith env.now .good) = judged
  rcases judged with ⟨outcome, bootstrap⟩
  cases outcome with
  | completed => exact situation_bootstrapSucceeded _
  | retry failed =>
    cases failed with
    | false => rfl
    | true =>
      change (LocalNode.startQueued env _).situation = _
      rw [situation_released]
      exact congrArg (Situation.release · false) (overlooks_situation _ _ rfl)

theorem situation_lookupCompleted (n : LocalNode) (id : LookupId) :
    (n.lookupCompleted env id).situation = n.situation ∨
      n.situation.joinLookup ≠ none ∧
        (n.lookupCompleted env id).situation = n.situation.judge env.now := by
  rw [lookupCompleted]
  split
  · exact .inl rfl
  next active _ =>
    dsimp only
    rw [unconcerned_situation.reserved.deliver fun _ _ => rfl]
    generalize hOver : LocalNode.notify _ (.lookupCompleted _ _ _) = m
    have hSame : m.situation = n.situation := by
      rw [← hOver]
      exact overlooks_situation _ _ rfl
    rw [← hSame]
    split
    next own =>
      refine .inr ⟨?_, situation_bootstrapLookupCompleted m⟩
      exact Option.isSome_iff_ne_none.mp (Option.isSome_of_eq_some own)
    next => exact .inl rfl

/-- The attempt to join ends once at most. -/
theorem situation_wrapUpSome (count : Nat) (n : LocalNode) :
    (wrapUpSome env count n).situation = n.situation ∨
      n.situation.joinLookup ≠ none ∧
        (wrapUpSome env count n).situation = n.situation.judge env.now := by
  induction count generalizing n with
  | zero => exact .inl rfl
  | succ count ih =>
    rw [wrapUpSome]
    split
    · exact .inl rfl
    next id rest _ =>
      have hFurther := ih (lookupCompleted env { n with completed := rest } id)
      rcases situation_lookupCompleted { n with completed := rest } id with same | ⟨busy, judged⟩
      · rw [same] at hFurther
        exact hFurther
      · refine .inr ⟨busy, ?_⟩
        rcases hFurther with same | ⟨again, -⟩
        · exact same.trans judged
        · rw [judged] at again
          exact absurd (Situation.joinLookup_judge _ env.now) again

theorem situation_wrapUp (n : LocalNode) :
    (n.wrapUp env).situation = n.situation ∨
      n.situation.joinLookup ≠ none ∧ (n.wrapUp env).situation = n.situation.judge env.now :=
  situation_wrapUpSome ..

/-! ## Datagrams -/

/-- A contact makes itself known by a query or a response. -/
def Speaks (n : LocalNode) (event : Event) (contact : Contact) : Prop :=
  n.Queried event contact ∨
    ∃ response t, n.Receives event contact.address response t ∧ response.sender = contact.id

/-- A contact is made known by a response that lists it. -/
def Listed (n : LocalNode) (event : Event) (contact : Contact) : Prop :=
  ∃ sender response t, n.Receives event sender response t ∧ contact ∈ n.listed response

/-- How a contact gets into the routing table.  A router is not taken in when it speaks, but nobody
asks whether a contact that is listed is one. -/
def Introduced (n : LocalNode) (event : Event) (contact : Contact) : Prop :=
  (n.Speaks event contact ∧ n.bootstrap.isRouter contact.address = false) ∨ n.Listed event contact

theorem situation_consulted {n m : LocalNode} (consulted : Consulted n m) :
    m.situation = n.situation := by
  rcases consulted with ⟨tokens, store, notices, rfl⟩
  have hSilent : (notices.map Effect.notice).filterMap Effect.verdict? = [] := by
    rw [List.filterMap_map]
    exact List.filterMap_eq_nil_iff.mpr fun _ _ => rfl
  rw [situation, verdicts, List.filterMap_append, hSilent, List.append_nil]
  rfl

theorem grown_of_noted {n : LocalNode} {sender : Address} {message : Message} {query : Query}
    {table : Table} (noted : n.Noted env sender message query table) :
    Grown (fun contact => contact.address = sender ∧ query.sender? = some contact.id ∧
      n.bootstrap.isRouter contact.address = false) n.table table := by
  rcases noted with rfl | ⟨id, asks, stranger, rfl⟩
  · exact .refl
  · refine (Table.grown_requested ..).mono ?_
    rintro _ rfl
    exact ⟨rfl, asks, stranger⟩

theorem situation_handleQuery (n : LocalNode) (sender : Address) (message : Message)
    (query : Query) :
    ∃ table, Grown (fun contact => contact.address = sender ∧ query.sender? = some contact.id ∧
        n.bootstrap.isRouter contact.address = false) n.table table ∧
      (n.handleQuery env sender message query).situation = { n.situation with table } := by
  rcases handleQuery_cases env n sender message query with ⟨table, m, body, noted, consulted, same⟩
  refine ⟨table, grown_of_noted noted, ?_⟩
  rw [same, send, overlooks_situation _ _ rfl, situation_consulted consulted]
  rfl

theorem grown_hear (n : LocalNode) (sender : Address) (message : Message) (response : Response) :
    Grown (fun contact => contact = ⟨response.sender, sender⟩ ∧
        n.bootstrap.isRouter contact.address = false ∨ contact ∈ n.listed response)
      n.table (n.hear env sender message response).table := by
  rw [hear]
  refine .trans ?_ ((Table.grown_learnAll ..).mono fun _ => .inr)
  split
  next => exact .refl
  next other =>
    refine (Table.grown_answered ..).mono ?_
    rintro _ rfl
    exact .inl ⟨rfl, Bool.eq_false_iff.mpr fun router => other (.inl router)⟩

theorem situation_handleResponse (n : LocalNode) (sender : Address) (message : Message)
    (response : Response) (t : Transaction) :
    (n.handleResponse env sender message response t).situation =
      (n.hear env sender message response).situation := by
  have hResponded := responded_handleResponse env n sender message response t
  have hReported := overlooks_situation.reportPeer (fun _ _ => rfl) fun _ _ => rfl
  generalize n.handleResponse env sender message response t = m at hResponded ⊢
  cases hResponded with
  | search => exact unconcerned_situation.toBlind.lookupResponse hReported ..
  | announce => exact unconcerned_situation.reserved.announceReply ..
  | ping => exact overlooks_situation _ _ rfl
  | passed => rfl

theorem situation_handleDatagram (n : LocalNode) (sender : Address) (data : Bytes) :
    ∃ table, Grown (n.Introduced (.datagram sender data)) n.table table ∧
      (n.handleDatagram env sender data).situation = { n.situation with table } := by
  have hHeard := heard_handleDatagram env n sender data
  generalize n.handleDatagram env sender data = m at hHeard ⊢
  cases hHeard with
  | nothing transactions => exact ⟨n.table, .refl, rfl⟩
  | query answers read about =>
    rcases situation_handleQuery n sender _ _ with ⟨table, grows, same⟩
    refine ⟨table, grows.mono ?_, same⟩
    rintro contact ⟨rfl, asks, stranger⟩
    exact .inl ⟨.inl ⟨answers, _, _, _, rfl, read, about, asks⟩, stranger⟩
  | malformed transaction key => exact ⟨n.table, .refl, overlooks_situation n _ rfl⟩
  | response receives =>
    rename_i message response t
    refine ⟨_, (grown_hear (n.settle t) sender message response).mono ?_,
      situation_handleResponse ..⟩
    rintro contact (⟨rfl, stranger⟩ | listed)
    · exact .inl ⟨.inr ⟨response, t, receives, rfl⟩, stranger⟩
    · exact .inr ⟨sender, response, t, receives, listed⟩
  | refusal waits =>
    rename_i t
    rcases @situation_queryFailed env (n.settle t) t false with ⟨table, grows, same⟩
    exact ⟨table, grows _, same⟩

/-! ## Tasks and commands -/

theorem situation_failStale (n : LocalNode) (t : Transaction) :
    ∃ table, (∀ entrants, Grown entrants n.table table) ∧
      (n.failStale env t).situation = { n.situation with table } :=
  situation_queryFailed { n with timer := (n.timer.cancel t.id).2 } t true

theorem situation_failAll (stale : List Transaction) (n : LocalNode) :
    ∃ table, (∀ entrants, Grown entrants n.table table) ∧
      (stale.foldl (failStale env) n).situation = { n.situation with table } := by
  induction stale generalizing n with
  | nil => exact ⟨n.table, fun _ => .refl, rfl⟩
  | cons t stale ih =>
    rcases @situation_failStale env n t with ⟨first, grows, same⟩
    rcases ih (n.failStale env t) with ⟨table, further, later⟩
    have hFirst : (n.failStale env t).table = first := congrArg Situation.table same
    refine ⟨table, fun entrants => (grows entrants).trans ?_, ?_⟩
    · rw [← hFirst]
      exact further entrants
    · rw [List.foldl_cons, later, same]

theorem situation_rejoinIfEmpty (n : LocalNode) :
    (n.rejoinIfEmpty env).situation = n.situation.rejoin env.lookUp := by
  rw [rejoinIfEmpty, Situation.rejoin]
  change _ = if n.table.isEmpty ∧ n.bootstrap.hasSeeds ∧ n.bootstrap.state = .bootstrapped then _
    else _
  split
  · rw [situation_startBootstrap, situation_setState]
    rfl
  · rfl

theorem situation_announceAgain (n : LocalNode) :
    ∃ requests : List LookupRequest,
      (n.announceAgain env).situation = requests.foldl Situation.request n.situation := by
  rw [announceAgain]
  split
  next hash last _ _ =>
    split
    · exact ⟨[_], situation_requestLookup ..⟩
    · exact ⟨[], rfl⟩
  next => exact ⟨[], rfl⟩

theorem situation_joinNetwork (n : LocalNode) (stream : StreamId) :
    ∃ requests : List LookupRequest,
      (n.joinNetwork env stream).situation = requests.foldl Situation.request n.situation := by
  have hSearched := @situation_requestLookup env n ⟨n.id, .findNode, false, .nowhere⟩
  unfold joinNetwork
  generalize n.requestLookup env ⟨n.id, .findNode, false, .nowhere⟩ = m at hSearched ⊢
  dsimp only
  split
  next hash _ =>
    refine ⟨[⟨n.id, .findNode, false, .nowhere⟩, ⟨hash, .getPeers, true, .peers stream⟩], ?_⟩
    rw [situation_requestLookup, List.foldl_cons, ← hSearched]
    rfl
  next => exact ⟨[_], (overlooks_situation _ _ rfl).trans hSearched⟩

theorem handled_maintain (n : LocalNode) (entrants : Contact → Prop) :
    Handled env.lookUp entrants n.situation (n.maintain env).situation := by
  rcases @situation_failAll env
    (n.transactions.expireAll env.arrangement env.now (2 * n.settings.queryTimeout)).1
    { n with
      table := (n.table.removeStale env.now n.settings.nodeExpiry).2
      store := (n.store.expire env.now).2
      transactions :=
        (n.transactions.expireAll env.arrangement env.now (2 * n.settings.queryTimeout)).2 } with
    ⟨table, grows, failed⟩
  rw [maintain]
  dsimp only
  generalize List.foldl _ _ _ = m at failed ⊢
  rcases @situation_announceAgain env (m.rejoinIfEmpty env) with ⟨requests, asked⟩
  rw [situation_rejoinIfEmpty, failed] at asked
  change Handled _ _ _ ((m.rejoinIfEmpty env).announceAgain env).situation
  rw [asked]
  exact .maintained table requests ((Table.grown_removeStale ..).trans (grows entrants))

theorem handled_handleTask (n : LocalNode) (task : Task) (entrants : Contact → Prop) :
    Handled env.lookUp entrants n.situation (n.handleTask env task).situation := by
  cases task with
  | queryTimeout id =>
    rw [handleTask, handleQueryTimeout]
    split
    next t transactions _ =>
      rcases @situation_queryFailed env { n with transactions } t true with
        ⟨table, grows, same⟩
      rw [same]
      exact .learned table (grows entrants)
    next => exact .requested []
  | tableRefresh =>
    rw [handleTask, situation_refreshTick]
    exact .requested []
  | maintenance => exact handled_maintain n entrants
  | bootstrapRetry =>
    rw [handleTask, situation_startBootstrap]
    exact .ordered

theorem handled_handleCommand (n : LocalNode) (command : Command) (entrants : Contact → Prop) :
    Handled env.lookUp entrants n.situation (n.handleCommand env command).situation := by
  cases command with
  | startBootstrap =>
    rw [handleCommand, situation_startBootstrap]
    exact .ordered
  | awaitBootstrap call =>
    rw [handleCommand]
    split
    · rw [situation_answered]
      exact .told call
    · exact .waits call
  | lookup request =>
    rw [handleCommand, situation_requestLookup]
    exact .requested [request]
  | joinNetwork stream =>
    rcases @situation_joinNetwork env n stream with ⟨requests, same⟩
    rw [handleCommand, same]
    exact .requested requests
  | ping address =>
    rw [handleCommand, situation_sendQuery]
    exact .requested []
  | shutDown => exact .requested []

/-- What an event does to the situation of a node, before the lookups that it has brought to an end
are wrapped up. -/
theorem handled_handleEvent (n : LocalNode) (event : Event) :
    Handled env.lookUp (n.Introduced event) n.situation (n.handleEvent env event).situation := by
  cases event with
  | command command => exact handled_handleCommand n command _
  | datagram sender data =>
    rcases @situation_handleDatagram env n sender data with ⟨table, grows, same⟩
    rw [handleEvent, same]
    exact .learned table grows
  | wake =>
    rw [handleEvent]
    split
    next task timer _ => exact handled_handleTask { n with timer } task _
    next => exact .requested []

end LocalNode
end Kademlia
