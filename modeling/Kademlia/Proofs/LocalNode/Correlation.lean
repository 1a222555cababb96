import Kademlia.LocalNode.Step
import Kademlia.Proofs.LocalNode.Joining
import Kademlia.Proofs.LocalNode.Rejecting
import Kademlia.Proofs.LocalNode.Views

namespace Kademlia
namespace LocalNode

/-!
Between two events, what a node has on record about its queries agrees, whatever has happened: each
query that waits has its time-out, and every lookup and every announcement in progress waits for the
queries that were sent for it.  So nothing in progress is forgotten (`correlated_of_reachable`).

All this takes that no number is drawn again while it is in use, which it is until the time-out of
its query is gone as well.  That the query itself is gone is not enough: a sweep takes out all
queries that are overdue, and only then cancels their time-outs, one after another
(`uncorrelated_after_sweep`).
-/

variable {stale : List Transaction} {n : LocalNode} {k : LookupId} {env : Surroundings}
  {t : Transaction} {a : Address}

/-! ## Maintenance -/

/-- A sweep leaves the queries that it takes out to be dealt with one after another, in whatever
order. -/
theorem Balanced.sweep {b : Books} {swept : List Transaction}
    (balanced : Balanced [] [] .nothing {} b) (old : Transaction → Bool)
    (order : swept.Perm (b.waiting.filter old)) :
    Balanced swept [] .nothing {} { b with waiting := b.waiting.filter fun t => !old t } := by
  refine balanced.refile (balanced.ledger.sweep old order) ?_
  rw [List.append_nil, List.append_nil, List.append_nil]
  exact ((order.append_left _).trans List.perm_append_comm).trans
    (List.filter_append_perm old b.waiting)

theorem InBalance.failStale (balance : InBalance (t :: stale) [] .nothing {} n) :
    InBalance stale [] .nothing {} (n.failStale env t) := by
  apply InBalance.queryFailed
  intro once
  have hBalanced := balance once
  apply hBalanced.refile hBalanced.ledger.unschedule
  rw [List.append_nil]
  exact (List.perm_append_singleton _ _).trans List.perm_middle.symm

theorem InBalance.failAll (balance : InBalance stale [] .nothing {} n) :
    InBalance [] [] .nothing {} (stale.foldl (LocalNode.failStale env) n) := by
  induction stale generalizing n with
  | nil => exact balance
  | cons t stale ih => exact ih balance.failStale

theorem InBalance.rejoinIfEmpty (balance : InBalance [] [] .nothing {} n) :
    InBalance [] [] .nothing {} (n.rejoinIfEmpty env) := by
  unfold LocalNode.rejoinIfEmpty
  split
  · exact InBalance.startBootstrap (balance.congr (books_setState _ _))
  · exact balance

theorem InBalance.announceAgain (balance : InBalance [] [] .nothing {} n) :
    InBalance [] [] .nothing {} (n.announceAgain env) := by
  unfold LocalNode.announceAgain
  split
  · split
    · exact InBalance.requestLookup (balance.congr rfl)
    · exact balance
  · exact balance

theorem InBalance.maintain (balance : InBalance [] [] .nothing {} n) :
    InBalance [] [] .nothing {} (n.maintain env) := by
  unfold LocalNode.maintain
  apply InBalance.schedule
  · apply InBalance.announceAgain
    apply InBalance.rejoinIfEmpty
    apply InBalance.failAll
    exact fun once => (balance once).sweep _ (env.arrangement.perm _)
  · exact nofun

/-! ## Events -/

theorem InBalance.wake (balance : InBalance [] [] .nothing {} n) :
    InBalance [] [] .nothing {} (n.handleEvent env .wake) := by
  unfold LocalNode.handleEvent
  dsimp only
  split
  next task timer popped =>
    cases task with
    | queryTimeout id => exact balance.handleQueryTimeout popped
    | tableRefresh => exact (balance.pop popped nofun).refreshTick
    | maintenance => exact (balance.pop popped nofun).maintain
    | bootstrapRetry => exact (balance.pop popped nofun).startBootstrap
  next => exact balance

theorem InBalance.joinNetwork {stream : StreamId} (balance : InBalance [] [] .nothing {} n) :
    InBalance [] [] .nothing {} (n.joinNetwork env stream) := by
  unfold LocalNode.joinNetwork
  have hLooking := @InBalance.requestLookup _ _ env ⟨n.id, .findNode, false, .nowhere⟩ balance
  dsimp only
  split
  · exact InBalance.requestLookup (hLooking.congr rfl)
  · exact hLooking.congr rfl

theorem InBalance.handleCommand {command : Command} (balance : InBalance [] [] .nothing {} n) :
    InBalance [] [] .nothing {} (n.handleCommand env command) := by
  cases command with
  | startBootstrap => exact balance.startBootstrap
  | awaitBootstrap call =>
    unfold LocalNode.handleCommand
    dsimp only
    split
    · exact balance.congr rfl
    · exact balance.congr rfl
  | lookup request => exact balance.requestLookup
  | joinNetwork stream => exact balance.joinNetwork
  | ping address => exact balance.sendFree ⟨nofun, nofun⟩
  | shutDown => exact balance.congr rfl

theorem InBalance.handleEvent {event : Event} (balance : InBalance [] [] .nothing {} n) :
    InBalance [] [] .nothing {} (n.handleEvent env event) := by
  cases event with
  | command command => exact balance.handleCommand
  | datagram sender data => exact balance.handleDatagram
  | wake => exact balance.wake

/-! ## Between two events -/

/-- A node that has shut down has nothing in progress.  Its queries are left to themselves. -/
structure Closed (b : Books) : Prop where
  ledger : Ledger [] [] b.waiting b.timer b.timeout
  lookups : b.lookups = []
  announces : b.announces = []

/-- How a node is found between two events. -/
def Standing (n : LocalNode) : Prop :=
  if n.running then AtRest n else n.reused = false → Closed n.books

/-- A node but for what it has done during the event. -/
def quiet (n : LocalNode) : LocalNode :=
  { n with outbox := [] }

/-- That a node shuts down is noticed by the application alone. -/
theorem quiet_close (n : LocalNode) :
    n.close.quiet = { n.quiet with
      state := .disconnected
      waiting := []
      queued := []
      lookups := []
      announces := [] } := by
  rcases adds_close n with ⟨effects, -, same⟩
  rw [same]
  rfl

theorem AtRest.close (rest : AtRest n) : n.close.reused = false → Closed n.close.books := by
  intro once
  have hClose : n.close.books = { n.books with queued := [], lookups := [], announces := [] } :=
    congrArg books (quiet_close n)
  have hOnce : n.reused = false := (congrArg Books.reused hClose).symm.trans once
  rw [hClose]
  exact ⟨(rest hOnce).1.ledger, rfl, rfl⟩

theorem Standing.start (options : Options) (localAddress : Address) (now : Instant)
    (secrets : Draws (BitVec 32)) (firstTransaction : TransactionId) :
    Standing (.start options localAddress now secrets firstTransaction) := by
  intro _
  have hNobody : ∀ t, ¬ Owed [] [] (LocalNode.start options localAddress now secrets
      firstTransaction).books t := fun _ => List.not_mem_nil
  refine ⟨⟨.start, ?_, ?_, ?_⟩, rfl⟩
  · exact .start (fun t _ owes => absurd owes (hNobody t)) fun _ => rfl
  · exact .start (fun t _ owes => absurd owes (hNobody t)) fun _ => rfl
  · exact ⟨List.nodup_nil, List.nodup_nil, nofun, nofun, nofun, nofun, nofun, nofun⟩

theorem Standing.step {event : Event} (standing : Standing n) : Standing (n.step env event) := by
  unfold LocalNode.step
  dsimp only
  by_cases running : n.running
  · rw [if_pos running]
    rw [Standing, if_pos running] at standing
    have hEvent : InBalance [] [] .nothing {}
        ({ n with outbox := [] }.handleEvent env event) :=
      InBalance.handleEvent fun once => (standing once).1
    have hRest := @InBalance.wrapUp _ env hEvent
    generalize ({ n with outbox := [] }.handleEvent env event).wrapUp env = m at hRest ⊢
    by_cases going : m.running
    · rw [if_pos going, Standing, if_pos going]
      exact hRest
    · have hQuiet := congrArg LocalNode.running (quiet_close m)
      have hRunning : m.close.running = m.running := hQuiet
      rw [if_neg going, Standing, hRunning, if_neg going]
      exact hRest.close
  · rw [if_neg running]
    rw [Standing, if_neg running] at standing ⊢
    exact standing

/-- The states of a node between two events, from the start on.  What surrounds it is any at every
event. -/
inductive Reachable : LocalNode → Prop
  | start (options : Options) (localAddress : Address) (now : Instant)
      (secrets : Draws (BitVec 32)) (firstTransaction : TransactionId) :
    Reachable (.start options localAddress now secrets firstTransaction)
  | step {n : LocalNode} (env : Surroundings) (event : Event) : Reachable n →
    Reachable (n.step env event)

theorem Reachable.run (reachable : Reachable n) (env : Surroundings) (events : List Event) :
    Reachable (events.foldl (LocalNode.step env) n) := by
  induction events generalizing n with
  | nil => exact reachable
  | cons event later ih => exact ih (reachable.step env event)

theorem Reachable.standing (reachable : Reachable n) : Standing n := by
  induction reachable with
  | start => exact Standing.start _ _ _ _ _
  | step _ _ _ standing => exact standing.step

/-! ## What is on record -/

/-- A query that was sent for someone waits under a number. -/
def Awaits (n : LocalNode) (owner : Owner) (id : TransactionId) : Prop :=
  ∃ t ∈ n.transactions.pending, t.owner = owner ∧ t.id = id

/-- What a node has on record about its queries agrees. -/
structure Correlated (n : LocalNode) : Prop where
  /-- No two queries that wait have the same number. -/
  distinct : (n.transactions.pending.map (·.id)).Nodup
  /-- No query has two time-outs. -/
  single : n.timer.Distinct
  /-- The queries that wait are those with a time-out. -/
  timed : ∀ id, (n.transactions.get? id).isSome = true ↔ n.timer.hasTimeout id = true
  /-- A lookup waits for something, and for its own queries only. -/
  lookups : ∀ k active, (k, active) ∈ n.lookups → active.lookup.pending ≠ [] ∧
    ∀ id, active.lookup.isPending id = true ↔ n.Awaits (.lookup k) id
  /-- An announcement waits for something, and for its own queries only. -/
  announces : ∀ k active, (k, active) ∈ n.announces →
    (∃ target ∈ active.announce.targets, ∃ id, target.state = .pending id) ∧
    ∀ id, (∃ target ∈ active.announce.targets, target.state = .pending id) ↔
      n.Awaits (.announce k) id
  /-- As long as the node runs, someone waits for the queries of a lookup or an announcement. -/
  owners : n.running = true → ∀ t ∈ n.transactions.pending,
    (∀ k, t.owner = .lookup k → k ∈ n.lookups.map (·.1)) ∧
    ∀ k, t.owner = .announce k → k ∈ n.announces.map (·.1)

/-- Between two events, a number is in use as long as a query waits under it. -/
theorem Correlated.inUse_iff (correlated : Correlated n) {id : TransactionId} :
    n.inUse id = true ↔ (n.transactions.get? id).isSome = true := by
  unfold inUse
  rw [Bool.or_eq_true, ← correlated.timed]
  exact or_self_iff

theorem owed_waits {b : Books} : Owed [] [] b t ↔ t ∈ b.waiting := by
  rw [Owed, List.append_nil, List.append_nil]

section Ledger

variable {ts : Transactions} {timer : Timer} {timeout : Duration}

theorem Ledger.timed (ledger : Ledger [] [] ts.pending timer timeout) (id : TransactionId) :
    (ts.get? id).isSome = true ↔ timer.hasTimeout id = true := by
  rw [Transactions.isSome_get?, ledger.scheduled, List.append_nil]

end Ledger

theorem AtRest.correlated (rest : AtRest n) (once : n.reused = false) : Correlated n := by
  rcases rest once with ⟨balanced, completed⟩
  refine ⟨balanced.ledger.nodup, n.timer.distinct, balanced.ledger.timed, ?_, ?_, ?_⟩
  · intro k active member
    have found := lookup?_of_entered (lookup_of_mem balanced.numbered.lookups member)
    refine ⟨?_, ?_⟩
    · rcases balanced.searches.busy k _ found with ⟨steps, drives⟩ | waits | ⟨-, filed⟩
      · cases drives
      · exact waits
      · rw [books, completed] at filed
        cases filed
    · intro id
      rw [(balanced.searches.linked k _ found).asked]
      simp only [owed_waits]
      exact .rfl
  · intro k active member
    have found := announce?_of_entered (lookup_of_mem balanced.numbered.announces member)
    have hLinked := balanced.announcing.linked k _ found
    refine ⟨?_, ?_⟩
    · rcases balanced.announcing.busy k _ found with ⟨more, drives⟩ | waits
      · cases drives
      · exact waits.1
    · intro id
      constructor
      · rintro ⟨target, among, pending⟩
        rcases hLinked.told target among id pending with ⟨t, owes, owner, same, -⟩
        exact ⟨t, owed_waits.mp owes, owner, same⟩
      · rintro ⟨t, waits, owner, rfl⟩
        rcases hLinked.asked t (owed_waits.mpr waits) owner with ⟨target, among, pending, -⟩
        exact ⟨target, among, pending⟩
  · intro _ t waits
    refine ⟨?_, ?_⟩
    · intro k owner
      rcases (balanced.searches.owner t k (owed_waits.mpr waits) owner).1 with ⟨l, found⟩
      exact lookup_mem_keys found
    · intro k owner
      rcases (balanced.announcing.owner t k (owed_waits.mpr waits) owner).1 with ⟨a, found⟩
      exact announce_mem_keys found

theorem Closed.correlated (closed : Closed n.books) (stopped : n.running = false) :
    Correlated n := by
  refine ⟨closed.ledger.nodup, n.timer.distinct, closed.ledger.timed, ?_, ?_, ?_⟩
  · intro k active member
    have hNone : n.lookups = [] := closed.lookups
    rw [hNone] at member
    cases member
  · intro k active member
    have hNone : n.announces = [] := closed.announces
    rw [hNone] at member
    cases member
  · intro running
    rw [stopped] at running
    cases running

/-- Unless a number is drawn again while its query waits or has a time-out, nothing in progress is
ever stuck. -/
theorem correlated_of_reachable (reachable : Reachable n) (once : n.reused = false) :
    Correlated n := by
  have hStanding := reachable.standing
  rw [Standing] at hStanding
  cases running : n.running with
  | true =>
    rw [if_pos running] at hStanding
    exact hStanding.correlated once
  | false =>
    rw [if_neg (Bool.eq_false_iff.mp running)] at hStanding
    exact (hStanding once).correlated running

/-- A node that has asked the only address it knows for others. -/
def joining : LocalNode :=
  (start { id := .zero, startingNodes := [⟨.v4 1, 1⟩] } ⟨.v4 2, 2⟩ 0 default ⟨0⟩).step
    (.reliable 0) (.command .startBootstrap)

theorem correlated_while_joining :
    joining.lookups.map (·.1) = [⟨0⟩] ∧ joining.transactions.size = 1 ∧ Correlated joining := by
  refine ⟨by decide +kernel, by decide +kernel, ?_⟩
  exact correlated_of_reachable (.step _ _ (.start ..)) (by decide +kernel)

/-! ## A number that comes back too early -/

/-- What the node has done before does not matter to an event. -/
theorem step_quiet (event : Event) : n.quiet.step env event = n.step env event := rfl

/-- A query that does not get out uses up a number that is not in use, and nothing else. -/
theorem quiet_sendQuery_of_lost {destination : Destination} {nodeId : Option NodeId} {query : Query}
    {owner : Owner} (silent : n.outbox = []) (lost : env.delivers 0 destination = false)
    (free : n.inUse n.transactions.nextId = false) :
    (n.sendQuery env destination nodeId query owner).2.quiet =
      { n.quiet with transactions := n.transactions.draw.2 } := by
  rcases Bool.or_eq_false_iff.mp free with ⟨unknown, -⟩
  have hLost : env.delivers (n.outbox.countP Effect.isSent) destination = false := by
    rw [silent]
    exact lost
  unfold sendQuery send Transactions.draw
  dsimp only
  rw [hLost, free, unknown, Bool.or_false, Bool.or_false, if_neg Bool.false_ne_true]
  rfl

theorem quiet_step_ping_of_lost (running : n.running = true) (completed : n.completed = [])
    (lost : env.delivers 0 a = false) (free : n.inUse n.transactions.nextId = false) :
    (n.step env (.command (.ping a))).quiet =
      { n.quiet with transactions := n.transactions.draw.2 } := by
  have hPing : (n.quiet.sendQuery env a none (.ping n.id) .ping).2.quiet =
      { n.quiet with transactions := n.transactions.draw.2 } :=
    quiet_sendQuery_of_lost (n := n.quiet) rfl lost free
  have hStep : n.step env (.command (.ping a)) =
      if n.running then
        let m := (n.quiet.sendQuery env a none (.ping n.id) .ping).2.wrapUp env
        if m.running then m else m.close
      else n.quiet := rfl
  generalize (n.quiet.sendQuery env a none (.ping n.id) .ping).2 = m at hPing hStep
  have hRunning : m.running = true := (congrArg LocalNode.running hPing).trans running
  have hCompleted : m.completed = [] := (congrArg LocalNode.completed hPing).trans completed
  rw [hStep, if_pos running, wrapUp_of_completed hCompleted]
  dsimp only
  rw [if_pos hRunning, hPing]

/-- Pings that do not get out use up one number after another, and nothing else. -/
theorem quiet_run_pings_of_lost (running : n.running = true) (completed : n.completed = [])
    (lost : env.delivers 0 a = false) (count : Nat)
    (free : ∀ i < count, n.inUse ⟨n.transactions.nextId.number + .ofNat i⟩ = false) :
    ((List.replicate count (Event.command (.ping a))).foldl (LocalNode.step env) n).quiet =
      { n.quiet with
        transactions := { n.transactions with
          nextId := ⟨n.transactions.nextId.number + .ofNat count⟩ } } := by
  induction count with
  | zero =>
    have hSame : (⟨n.transactions.nextId.number + .ofNat 0⟩ : TransactionId) =
        n.transactions.nextId := congrArg TransactionId.mk (UInt16.add_zero _)
    rw [hSame]
    rfl
  | succ count ih =>
    have hBefore := ih fun i early => free i (Nat.lt_succ_of_lt early)
    rw [List.replicate_succ', List.foldl_append, List.foldl_cons, List.foldl_nil]
    generalize (List.replicate count (Event.command (.ping a))).foldl (LocalNode.step env) n = m
      at hBefore ⊢
    rw [← step_quiet, hBefore, UInt16.ofNat_add, ← UInt16.add_assoc]
    exact quiet_step_ping_of_lost running completed lost (free count (Nat.lt_succ_self count))

/-- A node that has pinged somebody, who does not answer, and looks for the nodes near it.  The one
that it knows has named four more, of which three have been asked. -/
def inquiring : LocalNode :=
  [Event.datagram ⟨.v4 8, 1⟩ (Message.ofBody [] (.query (.ping ⟨8⟩))).encode,
    .command (.ping ⟨.v4 1, 1⟩),
    .command (.lookup ⟨.zero, .findNode, false, .nowhere⟩),
    .datagram ⟨.v4 8, 1⟩ (Message.ofBody (TransactionId.mk 1).toBytes (.response {
      sender := ⟨8⟩
      nodes := [⟨⟨2⟩, ⟨.v4 2, 1⟩⟩, ⟨⟨3⟩, ⟨.v4 3, 1⟩⟩, ⟨⟨4⟩, ⟨.v4 4, 1⟩⟩,
        ⟨⟨5⟩, ⟨.v4 5, 1⟩⟩] })).encode].foldl
    (LocalNode.step (.reliable 59000)) (start { id := .zero } ⟨.v4 6, 1⟩ 0 default ⟨0⟩)

/-- The same node when it has drawn all other numbers in vain. -/
def spent : LocalNode :=
  (List.replicate 65531 (Event.command (.ping ⟨.v4 1, 1⟩))).foldl
    (LocalNode.step { Surroundings.reliable 59000 with delivers := fun _ _ => false }) inquiring

/-- Maintenance is late, and deals with the queries of the lookup before the ping. -/
def afterSweep : LocalNode :=
  spent.step { Surroundings.reliable 63000 with arrangement := .lastFirst } .wake

theorem reachable_inquiring : Reachable inquiring :=
  Reachable.run (.start ..) _ _

theorem nextId_inquiring : inquiring.transactions.nextId = ⟨5⟩ := by decide +kernel

theorem correlated_inquiring : Correlated inquiring := by
  have hStanding := reachable_inquiring.standing
  rw [Standing, if_pos (by decide +kernel)] at hStanding
  exact hStanding.correlated (by decide +kernel)

/-- The numbers in use are below the next one. -/
theorem inUse_inquiring {i : Nat} (bound : i < 65531) :
    inquiring.inUse ⟨inquiring.transactions.nextId.number + .ofNat i⟩ = false := by
  have hIds : inquiring.transactions.pending.map (·.id) = [⟨0⟩, ⟨2⟩, ⟨3⟩, ⟨4⟩] := by decide +kernel
  rw [Bool.eq_false_iff, Ne, correlated_inquiring.inUse_iff, Transactions.isSome_get?, hIds,
    nextId_inquiring]
  intro waits
  have hLarge : (5 + UInt16.ofNat i).toNat = 5 + i := by
    rw [UInt16.toNat_add, UInt16.toNat_ofNat']
    change (5 + i % 65536) % 65536 = 5 + i
    omega
  have hSmall : (5 + UInt16.ofNat i).toNat < 5 := by
    simp only [List.mem_cons, TransactionId.mk.injEq, List.not_mem_nil, or_false] at waits
    rcases waits with same | same | same | same <;> rw [same] <;> decide
  omega

theorem afterSweep_eq : afterSweep =
    LocalNode.step { Surroundings.reliable 63000 with arrangement := .lastFirst }
      { inquiring.quiet with transactions := { inquiring.transactions with nextId := ⟨0⟩ } }
      .wake := by
  have hSpent : spent.quiet =
      { inquiring.quiet with transactions := { inquiring.transactions with nextId := ⟨0⟩ } } := by
    have hRun := @quiet_run_pings_of_lost inquiring
      { Surroundings.reliable 59000 with delivers := fun _ _ => false } ⟨.v4 1, 1⟩
      (by decide +kernel) (by decide +kernel) rfl 65531 fun _ bound => inUse_inquiring bound
    rw [nextId_inquiring] at hRun
    exact hRun
  rw [afterSweep, ← step_quiet, hSpent]

/-- When the last query of the lookup is given up, the fifth node is asked under the number of the
ping, which waits no longer but still has its time-out.  As soon as the ping is given up as well,
the time-out of the new query is cancelled, which is left to the next sweep. -/
theorem uncorrelated_after_sweep :
    Reachable afterSweep ∧ afterSweep.redrawn = false ∧
      (afterSweep.transactions.get? ⟨0⟩).isSome = true ∧
      afterSweep.timer.hasTimeout ⟨0⟩ = false ∧ ¬ Correlated afterSweep := by
  have hEnd : afterSweep.redrawn = false ∧ (afterSweep.transactions.get? ⟨0⟩).isSome = true ∧
      afterSweep.timer.hasTimeout ⟨0⟩ = false := by
    rw [afterSweep_eq]
    decide +kernel
  rcases hEnd with ⟨fresh, waits, forgotten⟩
  have hReachable : Reachable spent := reachable_inquiring.run _ _
  refine ⟨hReachable.step _ _, fresh, waits, forgotten, ?_⟩
  intro correlated
  have hTimed := (correlated.timed ⟨0⟩).mp waits
  rw [forgotten] at hTimed
  cases hTimed

end LocalNode
end Kademlia
