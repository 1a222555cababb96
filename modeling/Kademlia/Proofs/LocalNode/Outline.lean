import Kademlia.Proofs.LocalNode.Views
import Kademlia.Proofs.Timer

namespace Kademlia

/-!
# A node in outline

How joining stands, which lookups and announcements are in progress, and which of them were reported
to be over: that is the outline of a node.  Most of what a node does, the sending of queries and the
driving on of lookups above all, does not show in it.  What is left are a few changes, which follow
one another in any order as long as joining goes on as it was (`Outline.Drift`): a lookup is
launched or kept waiting, or an announcement is over.
-/

/-- What a lookup is for: whether an announcement is to follow, and where its results go. -/
structure Purpose where
  announce : Bool
  sink : Sink
deriving DecidableEq, Repr

def LookupRequest.purpose (request : LookupRequest) : Purpose :=
  ⟨request.announce, request.sink⟩

def ActiveLookup.purpose (active : ActiveLookup) : Purpose :=
  ⟨active.lookup.announce, active.sink⟩

namespace Effect

/-- The application is told that a lookup is over. -/
def isCompletion : Effect → Bool
  | notice (.lookupCompleted ..) => true
  | _ => false

/-- The application is told that a lookup is over which an announcement was to follow. -/
def isAnnouncingCompletion : Effect → Bool
  | notice (.lookupCompleted _ _ announce) => announce
  | _ => false

/-- The application is told that an announcement is over. -/
def isAnnounced : Effect → Bool
  | notice (.announced ..) => true
  | _ => false

def isOver (effect : Effect) : Bool :=
  effect.isCompletion || effect.isAnnounced

end Effect

/-- The outline of a node. -/
structure Outline where
  state : ConnectionState
  joining : BootstrapState
  joinLookup : Option LookupId
  /-- How many further attempts to join are scheduled. -/
  retries : Nat
  started : Nat
  lookups : List (LookupId × Purpose)
  queued : List Purpose
  announces : List LookupId
  /-- The reports that something is over. -/
  reports : List Effect

namespace Outline

/-- A lookup is launched. -/
def launch (o : Outline) (purpose : Purpose) : Outline :=
  { o with started := o.started + 1, lookups := o.lookups ++ [(⟨o.started⟩, purpose)] }

/-- The node is about to join, unless it is part of the network all the time. -/
def approach (o : Outline) : Outline :=
  { o with state := if o.state = .connected then .connected else .connecting }

/-- An attempt to join begins with a lookup. -/
def join (o : Outline) : Outline :=
  launch { o.approach with joining := .bootstrapping, joinLookup := some ⟨o.started⟩ }
    ⟨false, .nowhere⟩

/-- The node has joined. -/
def joined (o : Outline) : Outline :=
  { o with state := .connected, joining := .bootstrapped, joinLookup := none }

/-- Another attempt to join is scheduled. -/
def retry (o : Outline) : Outline :=
  { o with retries := o.retries + 1 }

/-- An attempt to join has failed, and another one is scheduled. -/
def failed (o : Outline) : Outline :=
  retry { o with joining := .idleBeforeRetry, joinLookup := none }

/-- A lookup is over. -/
def finish (o : Outline) (id : LookupId) (target : NodeId) (kind : LookupKind) (announce : Bool) :
    Outline :=
  { o with
    lookups := o.lookups.filter (·.1 ≠ id)
    reports := o.reports ++ [.notice (.lookupCompleted target kind announce)] }

/-- An announcement is over. -/
def conclude (o : Outline) (id : LookupId) (infoHash : InfoHash) (accepted : Nat) : Outline :=
  { o with
    announces := o.announces.filter (· ≠ id)
    reports := o.reports ++ [.notice (.announced infoHash accepted)] }

end Outline

namespace LocalNode

/-- The outline of a node that has done some things up to now. -/
def outline (history : List Effect) (n : LocalNode) : Outline where
  state := n.state
  joining := n.bootstrap.state
  joinLookup := n.bootstrapLookup
  retries := n.timer.times .bootstrapRetry
  started := n.lookupCount
  lookups := n.lookups.map fun entry => (entry.1, entry.2.purpose)
  queued := n.queued.map (·.purpose)
  announces := n.announces.map (·.1)
  reports := history.filter Effect.isOver

/-- The outline of a node amid an event, after what it had done before. -/
def course (past : List Effect) (n : LocalNode) : Outline :=
  n.outline (past ++ n.outbox)

variable {env : Surroundings} {past : List Effect} {n : LocalNode}

/-! ## What does not show -/

theorem overlooks_course : Overlooks (course past) fun effect => effect.isOver = false := by
  intro n effect minor
  have hMinor : [effect].filter Effect.isOver = [] :=
    List.filter_cons_of_neg (Bool.eq_false_iff.mp minor)
  unfold course outline emit
  dsimp only
  rw [← List.append_assoc, List.filter_append, hMinor, List.append_nil]

theorem course_setState (n : LocalNode) (state : ConnectionState) :
    (n.setState state).course past = { n.course past with state } :=
  overlooks_course.setState (fun _ => rfl) n state

/-- Of the tasks, only further attempts to join show. -/
theorem course_timer {timer : Timer} (n : LocalNode)
    (same : timer.times .bootstrapRetry = n.timer.times .bootstrapRetry) :
    { n with timer }.course past = n.course past := by
  unfold course outline
  dsimp only
  rw [same]

theorem course_schedule (n : LocalNode) (now : Instant) (delay : Duration) (task : Task)
    (another : task ≠ .bootstrapRetry) :
    { n with timer := n.timer.scheduleIn now delay task }.course past = n.course past := by
  refine course_timer n ((Timer.times_scheduleAt fun _ same => ?_).trans ?_)
  · cases same
  · rw [if_neg another]
    rfl

theorem course_scheduleRetry (n : LocalNode) (now : Instant) (delay : Duration) :
    { n with timer := n.timer.scheduleIn now delay .bootstrapRetry }.course past =
      (n.course past).retry := by
  have hTimes : (n.timer.scheduleIn now delay .bootstrapRetry).times .bootstrapRetry =
      n.timer.times .bootstrapRetry + 1 :=
    Timer.times_scheduleAt fun _ same => by cases same
  unfold course outline Outline.retry
  dsimp only
  rw [hTimes]

theorem course_sendQuery (n : LocalNode) (destination : Destination) (nodeId : Option NodeId)
    (query : Query) (owner : Owner) :
    (n.sendQuery env destination nodeId query owner).2.course past = n.course past := by
  unfold sendQuery send
  dsimp only
  split
  · refine (course_schedule _ _ _ (.queryTimeout _) ?_).trans (overlooks_course n _ rfl)
    exact Task.noConfusion
  · exact overlooks_course n _ rfl

/-- What a lookup is for does not change. -/
theorem course_modifyLookup {change : Lookup → Lookup} (n : LocalNode) (id : LookupId)
    (keeps : ∀ active, n.lookups.lookup id = some active →
      (change active.lookup).announce = active.lookup.announce) :
    (n.modifyLookup id change).course past = n.course past := by
  have hLookups : (n.modifyLookup id change).lookups.map
      (fun entry => (entry.1, entry.2.purpose)) =
      n.lookups.map fun entry => (entry.1, entry.2.purpose) := by
    apply map_modifyFirst_of_found
    intro active found
    rw [ActiveLookup.purpose, keeps active found]
    rfl
  unfold course outline
  rw [hLookups]
  rfl

theorem course_modifyAnnounce (n : LocalNode) (id : LookupId) (change : Announce → Announce) :
    (n.modifyAnnounce id change).course past = n.course past := by
  have hKeys : (n.modifyAnnounce id change).announces.map (·.1) = n.announces.map (·.1) :=
    map_modifyFirst fun _ _ => rfl
  unfold course outline
  rw [hKeys]
  rfl

theorem blind_course : Blind (course past) where
  sendQuery _ n := course_sendQuery n
  modifyLookup n id _ := course_modifyLookup n id
  modifyAnnounce := course_modifyAnnounce
  completed _ _ := rfl

theorem course_lookupResponse (n : LocalNode) (id : LookupId) (transaction : TransactionId)
    (sender : Contact) (response : Response) (nodes : List Contact) :
    (n.lookupResponse env id transaction sender response nodes).course past = n.course past := by
  have hReported := (@overlooks_course past).reportPeer (fun _ _ => rfl) fun _ _ => rfl
  unfold lookupResponse
  split
  · rfl
  next active found =>
    dsimp only
    rw [blind_course.driveLookup, foldl_keeps (course past) (hReported _ _)]
    exact blind_course.replaced found (Lookup.Told.onResponse ..).announce

theorem course_answerWaiting (n : LocalNode) (success : Bool) :
    (n.answerWaiting success).course past = n.course past :=
  overlooks_course.answerWaiting (fun _ _ => rfl) n success

theorem course_refreshTick (n : LocalNode) : (n.refreshTick env).course past = n.course past := by
  unfold refreshTick
  refine (course_schedule _ _ _ .tableRefresh Task.noConfusion).trans ?_
  exact foldl_keeps (course past) (fun m pick => course_sendQuery m ..) _ _

theorem course_handleQuery (n : LocalNode) (sender : Address) (message : Message) (query : Query) :
    (n.handleQuery env sender message query).course past = n.course past :=
  overlooks_course.handleQuery (fun _ _ => rfl) (fun _ _ => rfl) (fun _ _ _ _ => rfl)
    (fun _ _ _ _ => rfl) n sender message query

end LocalNode
end Kademlia
