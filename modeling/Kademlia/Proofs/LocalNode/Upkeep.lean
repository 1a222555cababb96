import Kademlia.Proofs.LocalNode.Course
import Mathlib.Data.List.Induction

namespace Kademlia

/-!
# Periodic work

A node looks after itself at regular times, and after it has joined it refreshes its routing table
at regular times as well.  Each of the two is scheduled again when its turn has come, so that it is
never scheduled twice.  The refresh begins when the node joins for the first time (`Upkeep.join`).
Apart from that, the periodic work stands after every event as it stood before (`Upkeep.Later`).
That the node has joined is told to the application whenever it does, so that what it was told is a
record of whether it ever has (`joining_of_bootstrapped`).
-/

/-- The application is told that the node has joined. -/
def Effect.isJoining : Effect → Bool
  | notice .bootstrapCompleted => true
  | _ => false

theorem any_isJoining_iff {effects : List Effect} :
    effects.any Effect.isJoining = true ↔ .notice .bootstrapCompleted ∈ effects := by
  rw [List.any_eq_true]
  constructor
  · rintro ⟨effect, done, joining⟩
    unfold Effect.isJoining at joining
    split at joining
    · exact done
    · cases joining
  · exact fun done => ⟨_, done, rfl⟩

/-- How the periodic work of a node stands. -/
structure Upkeep where
  /-- How many times the maintenance is scheduled. -/
  maintenances : Nat
  /-- How many times a refresh of the routing table is scheduled. -/
  refreshes : Nat
  /-- Whether the refresh has begun. -/
  refreshing : Bool
  /-- Whether the application was ever told that the node has joined. -/
  joined : Bool
  /-- Whether the node has joined, and has not begun to join again. -/
  inside : Bool

namespace Upkeep

variable {u v w : Upkeep}

/-- The node joins.  The refresh begins unless it has begun. -/
def join (u : Upkeep) : Upkeep :=
  { u with
    refreshes := if u.refreshing then u.refreshes else u.refreshes + 1
    refreshing := true
    joined := true
    inside := true }

/-- The node begins to join again, or has failed to join. -/
def leave (u : Upkeep) : Upkeep :=
  { u with inside := false }

/-- A task is scheduled. -/
def add (u : Upkeep) (task : Task) : Upkeep :=
  { u with
    maintenances := u.maintenances + if task = .maintenance then 1 else 0
    refreshes := u.refreshes + if task = .tableRefresh then 1 else 0 }

/-- Some time later the node may have joined, perhaps not for the first time, and may have begun to
join again. -/
inductive Later : Upkeep → Upkeep → Prop
  | refl {u : Upkeep} : Later u u
  | join {u v : Upkeep} : Later u v → Later u v.join
  | leave {u v : Upkeep} : Later u v → Later u v.leave

namespace Later

theorem of_eq (same : v = u) : Later u v :=
  same ▸ .refl

theorem trans (first : Later u v) (second : Later v w) : Later u w := by
  induction second with
  | refl => exact first
  | join _ ih => exact ih.join
  | leave _ ih => exact ih.leave

theorem add_maintenance (later : Later u v) : Later (u.add .maintenance) (v.add .maintenance) := by
  induction later with
  | refl => exact .refl
  | join _ ih => exact ih.join
  | leave _ ih => exact ih.leave

end Later

/-- The maintenance is scheduled once, and so is the refresh if the node has ever joined. -/
structure Regular (u : Upkeep) : Prop where
  maintenances : u.maintenances = 1
  refreshing : u.refreshing = u.joined
  refreshes : u.refreshes = if u.joined then 1 else 0
  told : u.inside = true → u.joined = true

theorem Regular.join (regular : u.Regular) : u.join.Regular := by
  refine ⟨regular.maintenances, rfl, ?_, fun _ => rfl⟩
  have hRefreshes := regular.refreshes
  rw [← regular.refreshing] at hRefreshes
  change (if u.refreshing then u.refreshes else u.refreshes + 1) = 1
  cases begun : u.refreshing with
  | true => rwa [begun, if_pos rfl] at hRefreshes
  | false =>
    rw [begun, if_neg Bool.false_ne_true] at hRefreshes
    rw [hRefreshes]
    rfl

theorem Regular.leave (regular : u.Regular) : u.leave.Regular :=
  ⟨regular.maintenances, regular.refreshing, regular.refreshes, nofun⟩

theorem Later.regular (later : Later u v) (regular : u.Regular) : v.Regular := by
  induction later with
  | refl => exact regular
  | join _ ih => exact ih.join
  | leave _ ih => exact ih.leave

end Upkeep

namespace LocalNode

open Upkeep (Later)

variable {env : Surroundings} {past : List Effect}

/-- How the periodic work stands of a node that has done some things up to now. -/
def upkeep (history : List Effect) (n : LocalNode) : Upkeep where
  maintenances := n.timer.times .maintenance
  refreshes := n.timer.times .tableRefresh
  refreshing := n.refreshStarted
  joined := history.any Effect.isJoining
  inside := n.bootstrap.state = .bootstrapped

/-- How the periodic work stands amid an event, after what the node had done before. -/
def upkeepAmid (past : List Effect) (n : LocalNode) : Upkeep :=
  n.upkeep (past ++ n.outbox)

/-! ## What does not show -/

theorem upkeep_emit (n : LocalNode) (effect : Effect) :
    (n.emit effect).upkeepAmid past =
      { n.upkeepAmid past with joined := (n.upkeepAmid past).joined || effect.isJoining } := by
  have hJoined : (past ++ (n.outbox ++ [effect])).any Effect.isJoining =
      ((past ++ n.outbox).any Effect.isJoining || effect.isJoining) := by
    rw [← List.append_assoc, List.any_append, List.any_cons, List.any_nil, Bool.or_false]
  unfold upkeepAmid upkeep emit
  dsimp only
  rw [hJoined]

theorem overlooks_upkeep :
    Overlooks (upkeepAmid past) fun effect => effect.isJoining = false := by
  intro n effect minor
  rw [upkeep_emit, minor, Bool.or_false]

theorem upkeep_cancel (n : LocalNode) (id : TransactionId) :
    ({ n with timer := (n.timer.cancel id).2 } : LocalNode).upkeepAmid past =
      n.upkeepAmid past := by
  have hTimes : ∀ {task : Task}, task ≠ .queryTimeout id →
      (n.timer.cancel id).2.times task = n.timer.times task := Timer.times_removeTimeout
  unfold upkeepAmid upkeep
  dsimp only
  rw [hTimes Task.noConfusion, hTimes Task.noConfusion]

theorem upkeep_schedule (n : LocalNode) (now : Instant) (delay : Duration) (task : Task) :
    ({ n with timer := n.timer.scheduleIn now delay task } : LocalNode).upkeepAmid past =
      (n.upkeepAmid past).add task := by
  have hMaintenances : (n.timer.scheduleIn now delay task).times .maintenance =
      n.timer.times .maintenance + if task = .maintenance then 1 else 0 :=
    Timer.times_scheduleAt fun _ => Task.noConfusion
  have hRefreshes : (n.timer.scheduleIn now delay task).times .tableRefresh =
      n.timer.times .tableRefresh + if task = .tableRefresh then 1 else 0 :=
    Timer.times_scheduleAt fun _ => Task.noConfusion
  unfold upkeepAmid upkeep
  dsimp only
  rw [hMaintenances, hRefreshes]
  rfl

/-- A task whose turn has come is not scheduled any more. -/
theorem upkeep_of_popDue? {n : LocalNode} {now : Instant} {task : Task} {rest : Timer}
    (popped : n.timer.popDue? now = some (task, rest)) :
    n.upkeepAmid past = (({ n with timer := rest } : LocalNode).upkeepAmid past).add task := by
  have hMaintenances : n.timer.times .maintenance =
      rest.times .maintenance + if task = .maintenance then 1 else 0 :=
    Timer.times_of_popDue? popped
  have hRefreshes : n.timer.times .tableRefresh =
      rest.times .tableRefresh + if task = .tableRefresh then 1 else 0 :=
    Timer.times_of_popDue? popped
  unfold upkeepAmid upkeep
  rw [hMaintenances, hRefreshes]
  rfl

theorem upkeep_setState (n : LocalNode) (state : ConnectionState) :
    (n.setState state).upkeepAmid past = n.upkeepAmid past :=
  overlooks_upkeep.setState (fun _ => rfl) n state

theorem upkeep_sendQuery (n : LocalNode) (destination : Destination) (nodeId : Option NodeId)
    (query : Query) (owner : Owner) :
    (n.sendQuery env destination nodeId query owner).2.upkeepAmid past = n.upkeepAmid past := by
  unfold sendQuery send
  dsimp only
  split
  · exact (upkeep_schedule _ _ _ (.queryTimeout _)).trans (overlooks_upkeep n _ rfl)
  · exact overlooks_upkeep n _ rfl

theorem upkeep_answerWaiting (n : LocalNode) (success : Bool) :
    (n.answerWaiting success).upkeepAmid past = n.upkeepAmid past :=
  overlooks_upkeep.answerWaiting (fun _ _ => rfl) n success

theorem indifferent_upkeep :
    Indifferent (upkeepAmid past) fun effect => effect.isJoining = false where
  sendQuery _ n := upkeep_sendQuery n
  modifyLookup _ _ _ _ := rfl
  modifyAnnounce _ _ _ := rfl
  completed _ _ := rfl
  overlooks := overlooks_upkeep
  announced _ _ := rfl
  ended _ := rfl
  announces _ _ := rfl
  lookups _ _ _ := rfl
  queued _ _ := rfl
  lastNetworkAnnounce _ _ := rfl
  transactions _ _ := rfl
  cancel n id := upkeep_cancel n id
  table _ _ := rfl

theorem upkeep_handleDatagram (n : LocalNode) (sender : Address) (data : Bytes) :
    (n.handleDatagram env sender data).upkeepAmid past = n.upkeepAmid past := by
  have hSettled : ∀ t, (n.settle t).upkeepAmid past = n.upkeepAmid past := fun t =>
    upkeep_cancel n t.id
  have hReported := (@overlooks_upkeep past).reportPeer (fun _ _ => rfl) fun _ _ => rfl
  have hHeard := heard_handleDatagram env n sender data
  generalize n.handleDatagram env sender data = m at hHeard ⊢
  cases hHeard with
  | nothing transactions => rfl
  | query =>
    exact overlooks_upkeep.handleQuery (fun _ _ => rfl) (fun _ _ => rfl) (fun _ _ _ _ => rfl)
      (fun _ _ _ _ => rfl) ..
  | malformed transaction key => exact overlooks_upkeep n _ rfl
  | response =>
    exact (indifferent_upkeep.handleResponse (fun _ _ => rfl) hReported ..).trans (hSettled _)
  | refusal => exact (indifferent_upkeep.queryFailed ..).trans (hSettled _)

/-! ## Joining -/

theorem upkeep_refreshTick (n : LocalNode) :
    (n.refreshTick env).upkeepAmid past = (n.upkeepAmid past).add .tableRefresh := by
  unfold refreshTick
  dsimp only
  rw [upkeep_schedule, foldl_keeps (upkeepAmid past) fun m pick => upkeep_sendQuery m ..]
  rfl

/-- That the node has joined is told once more, and the refresh begins with the first time. -/
theorem upkeep_bootstrapSucceeded {n : LocalNode} (inside : n.bootstrap.state = .bootstrapped) :
    (n.bootstrapSucceeded env).upkeepAmid past = (n.upkeepAmid past).join := by
  have hTold : (((n.setState .connected).notify .bootstrapCompleted).answerWaiting true).upkeepAmid
      past = { n.upkeepAmid past with joined := true, inside := true } := by
    have hInside : (n.upkeepAmid past).inside = true := decide_eq_true inside
    rw [upkeep_answerWaiting, notify, upkeep_emit, upkeep_setState, Effect.isJoining, Bool.or_true,
      ← hInside]
  have hBegun : ∀ m : LocalNode, (if m.refreshStarted then m
      else refreshTick env { m with refreshStarted := true }).upkeepAmid past =
        { (m.upkeepAmid past).join with
          joined := (m.upkeepAmid past).joined
          inside := (m.upkeepAmid past).inside } := by
    intro m
    have hStarted : (m.upkeepAmid past).refreshing = m.refreshStarted := rfl
    unfold Upkeep.join
    rw [hStarted]
    cases started : m.refreshStarted with
    | true =>
      rw [if_pos rfl, if_pos rfl, ← started]
      rfl
    | false =>
      rw [if_neg Bool.false_ne_true, if_neg Bool.false_ne_true, upkeep_refreshTick]
      rfl
  unfold bootstrapSucceeded
  dsimp only
  rw [indifferent_upkeep.startQueued, hBegun, hTold]
  rfl

theorem upkeep_startBootstrap (n : LocalNode) :
    Later (n.upkeepAmid past) ((n.startBootstrap env).upkeepAmid past) := by
  have hConnecting : (if n.state = .connected then n else n.setState .connecting).upkeepAmid past =
      n.upkeepAmid past := by
    split
    · rfl
    · exact upkeep_setState n .connecting
  unfold startBootstrap
  split
  · exact .refl
  · generalize (if n.state = .connected then n else n.setState .connecting) = m at hConnecting ⊢
    rw [← hConnecting]
    dsimp only
    split
    · rw [upkeep_bootstrapSucceeded rfl]
      exact Later.refl.join
    · have hAsked : (if m.bootstrap.needsLookUp then m.emit .lookingUp else m).upkeepAmid past =
          m.upkeepAmid past := overlooks_upkeep.emit_if _ m rfl
      generalize (if m.bootstrap.needsLookUp then m.emit .lookingUp else m) = asking at hAsked ⊢
      rw [indifferent_upkeep.launch, ← hAsked]
      exact Later.refl.leave

theorem upkeep_bootstrapLookupCompleted (n : LocalNode) :
    Later (n.upkeepAmid past) ((n.bootstrapLookupCompleted env).upkeepAmid past) := by
  have hReleased : ∀ (failed : Bool) (m : LocalNode),
      (if failed then ((m.notify .bootstrapFailed).answerWaiting false).startQueued env
        else m).upkeepAmid past = m.upkeepAmid past := by
    intro failed m
    split
    · rw [indifferent_upkeep.startQueued, upkeep_answerWaiting]
      exact overlooks_upkeep m (.notice .bootstrapFailed) rfl
    · rfl
  unfold bootstrapLookupCompleted Bootstrap.onLookupCompleted
  by_cases found : 0 < n.table.countWith env.now .good
  · rw [if_pos found]
    dsimp only
    rw [upkeep_bootstrapSucceeded rfl]
    exact Later.refl.join
  · rw [if_neg found]
    refine Later.refl.leave.trans (.of_eq ?_)
    exact (upkeep_schedule _ _ _ .bootstrapRetry).trans (hReleased _ _)

theorem upkeep_lookupCompleted (n : LocalNode) (id : LookupId) :
    Later (n.upkeepAmid past) ((n.lookupCompleted env id).upkeepAmid past) := by
  unfold lookupCompleted
  split
  · exact .refl
  next active _ =>
    dsimp only
    rw [indifferent_upkeep.reserved.deliver fun _ _ => rfl]
    generalize hOver : LocalNode.notify _ (.lookupCompleted _ _ _) = m
    have hTold : m.upkeepAmid past = n.upkeepAmid past := by
      rw [← hOver]
      exact overlooks_upkeep _ _ rfl
    rw [← hTold]
    split
    · exact upkeep_bootstrapLookupCompleted { m with bootstrapLookup := none }
    · exact .refl

theorem upkeep_wrapUpSome (count : Nat) (n : LocalNode) :
    Later (n.upkeepAmid past) ((wrapUpSome env count n).upkeepAmid past) := by
  induction count generalizing n with
  | zero => exact .refl
  | succ count ih =>
    rw [wrapUpSome]
    split
    · exact .refl
    next id rest _ => exact (upkeep_lookupCompleted { n with completed := rest } id).trans (ih _)

theorem upkeep_wrapUp (n : LocalNode) :
    Later (n.upkeepAmid past) ((n.wrapUp env).upkeepAmid past) :=
  upkeep_wrapUpSome ..

/-! ## Tasks and commands -/

theorem upkeep_rejoinIfEmpty (n : LocalNode) :
    Later (n.upkeepAmid past) ((n.rejoinIfEmpty env).upkeepAmid past) := by
  have hReset : ({ n with bootstrap := n.bootstrap.reset }.setState .connecting).upkeepAmid past =
      (n.upkeepAmid past).leave := upkeep_setState ..
  unfold rejoinIfEmpty
  split
  · refine Later.refl.leave.trans ?_
    rw [← hReset]
    exact upkeep_startBootstrap _
  · exact .refl

/-- The maintenance schedules the next one at its end. -/
theorem upkeep_maintain (n : LocalNode) :
    Later ((n.upkeepAmid past).add .maintenance) ((n.maintain env).upkeepAmid past) := by
  unfold maintain
  dsimp only
  rw [upkeep_schedule, indifferent_upkeep.announceAgain]
  refine Later.add_maintenance (.trans (.of_eq ?_) (upkeep_rejoinIfEmpty _))
  exact foldl_keeps (upkeepAmid past) indifferent_upkeep.failStale _ _

/-- A task that is handled is not scheduled any more, but a periodic one is so again at the end. -/
theorem upkeep_handleTask (n : LocalNode) (task : Task) :
    Later ((n.upkeepAmid past).add task) ((n.handleTask env task).upkeepAmid past) := by
  cases task with
  | queryTimeout id => exact .of_eq (indifferent_upkeep.handleQueryTimeout ..)
  | tableRefresh => exact .of_eq (upkeep_refreshTick n)
  | maintenance => exact upkeep_maintain n
  | bootstrapRetry => exact upkeep_startBootstrap n

theorem upkeep_handleCommand (n : LocalNode) (command : Command) :
    Later (n.upkeepAmid past) ((n.handleCommand env command).upkeepAmid past) := by
  cases command with
  | startBootstrap => exact upkeep_startBootstrap n
  | awaitBootstrap call =>
    rw [handleCommand]
    split
    · exact .of_eq (overlooks_upkeep n _ rfl)
    · exact .refl
  | lookup request => exact .of_eq (indifferent_upkeep.requestLookup ..)
  | joinNetwork stream => exact .of_eq (indifferent_upkeep.joinNetwork ..)
  | ping address => exact .of_eq (upkeep_sendQuery ..)
  | shutDown => exact .refl

theorem upkeep_handleEvent (n : LocalNode) (event : Event) :
    Later (n.upkeepAmid past) ((n.handleEvent env event).upkeepAmid past) := by
  cases event with
  | command command => exact upkeep_handleCommand n command
  | datagram sender data => exact .of_eq (upkeep_handleDatagram ..)
  | wake =>
    rw [handleEvent]
    split
    next task rest popped =>
      rw [upkeep_of_popDue? popped]
      exact upkeep_handleTask { n with timer := rest } task
    next => exact .refl

/-! ## Between two events -/

/-- Whatever happens to a node, the periodic work stands as before, except that the node may have
joined. -/
theorem upkeep_step (history : List Effect) (n : LocalNode) (event : Event) :
    Later (n.upkeep history)
      ((n.step env event).upkeep (history ++ (n.step env event).outbox)) := by
  have hBefore : ({ n with outbox := [] } : LocalNode).upkeepAmid history = n.upkeep history := by
    unfold upkeepAmid
    rw [List.append_nil]
    rfl
  change Later _ ((n.step env event).upkeepAmid history)
  rw [← hBefore]
  unfold step
  dsimp only
  split
  · have hHandled := (@upkeep_handleEvent env history { n with outbox := [] } event).trans
      (@upkeep_wrapUp env history _)
    split
    · exact hHandled
    · refine hHandled.trans (.of_eq ?_)
      exact overlooks_upkeep.close (fun _ parting => by cases parting <;> rfl)
        (fun _ _ _ _ _ _ => rfl) _
  · exact .refl

theorem regular_start (options : Options) (localAddress : Address) (now : Instant)
    (secrets : Draws (BitVec 32)) (firstTransaction : TransactionId) :
    ((start options localAddress now secrets firstTransaction).upkeep []).Regular :=
  ⟨rfl, rfl, rfl, nofun⟩

theorem regular_run {n : LocalNode} (regular : (n.upkeep []).Regular)
    (events : List (Surroundings × Event)) :
    ((n.run events).2.upkeep (n.run events).1).Regular := by
  induction events using List.reverseRecOn with
  | nil => exact regular
  | append_singleton events event ih =>
    rw [run_append]
    exact (upkeep_step ..).regular ih

/-- A node that is part of the network has told so. -/
theorem joining_of_bootstrapped (options : Options) (localAddress : Address) (now : Instant)
    (secrets : Draws (BitVec 32)) (firstTransaction : TransactionId)
    (events : List (Surroundings × Event)) :
    let past := (start options localAddress now secrets firstTransaction).run events
    past.2.bootstrap.state = .bootstrapped → .notice .bootstrapCompleted ∈ past.1 := by
  intro past inside
  have hRegular := regular_run
    (regular_start options localAddress now secrets firstTransaction) events
  exact any_isJoining_iff.mp (hRegular.told (decide_eq_true inside))

/-- Whatever a node goes through, the maintenance is scheduled exactly once, and so is the refresh
of the routing table if the node has ever joined; otherwise it is not scheduled at all. -/
theorem scheduled_of_run (options : Options) (localAddress : Address) (now : Instant)
    (secrets : Draws (BitVec 32)) (firstTransaction : TransactionId)
    (events : List (Surroundings × Event)) :
    let past := (start options localAddress now secrets firstTransaction).run events
    past.2.timer.times .maintenance = 1 ∧
      (.notice .bootstrapCompleted ∈ past.1 → past.2.timer.times .tableRefresh = 1) ∧
      (.notice .bootstrapCompleted ∉ past.1 → past.2.timer.times .tableRefresh = 0) := by
  have hRegular := regular_run
    (regular_start options localAddress now secrets firstTransaction) events
  generalize (start options localAddress now secrets firstTransaction).run events = past
    at hRegular ⊢
  have hJoined : (past.2.upkeep past.1).joined = true ↔ .notice .bootstrapCompleted ∈ past.1 :=
    any_isJoining_iff
  have hRefreshes := hRegular.refreshes
  refine ⟨hRegular.maintenances, fun joined => ?_, fun never => ?_⟩
  · rwa [if_pos (hJoined.mpr joined)] at hRefreshes
  · rwa [if_neg fun joined => never (hJoined.mp joined)] at hRefreshes

end LocalNode
end Kademlia
