import Kademlia.Proofs.LocalNode.Course

namespace Kademlia

/-!
# The phases of joining

Once a node was ordered to join, it is part of the network, or it searches, or it waits for the next
attempt; it is never at rest in between, and never in two of these phases at once.  A phase is told
by what is at work: a lookup that decides about joining is in progress, or exactly one further
attempt is scheduled, or neither (`Outline.Ordered`).
-/

namespace Outline

variable {asked : Purpose → Prop} {o p : Outline} {id : LookupId}

/-- An attempt to join may begin. -/
structure Ready (o : Outline) : Prop where
  apart : o.state ≠ .connected
  idle : o.joinLookup = none
  unscheduled : o.retries = 0

/-- The node was not ordered to join yet. -/
structure Unordered (o : Outline) : Prop extends Ready o where
  awaits : o.joining = .awaitStart

/-- How joining stands after the node was ordered to join. -/
inductive Ordered (o : Outline) : Prop
  | joined : o.state = .connected → o.joining = .bootstrapped → o.joinLookup = none →
    o.retries = 0 → Ordered o
  | searching (id : LookupId) : o.state ≠ .connected → o.joining = .bootstrapping →
    o.joinLookup = some id → id ∈ o.lookups.map (·.1) → o.retries = 0 → Ordered o
  | pausing : o.state ≠ .connected → o.joining = .idleBeforeRetry → o.joinLookup = none →
    o.retries = 1 → Ordered o

/-- Joining stands in two outlines alike, and no lookup has ended. -/
structure Alike (o p : Outline) : Prop where
  state : p.state = o.state
  joining : p.joining = o.joining
  joinLookup : p.joinLookup = o.joinLookup
  retries : p.retries = o.retries
  lookups : ∀ id ∈ o.lookups.map (·.1), id ∈ p.lookups.map (·.1)

theorem Drift.alike (drift : Drift asked o p) : Alike o p := by
  induction drift with
  | refl => exact ⟨rfl, rfl, rfl, rfl, fun _ member => member⟩
  | launch purpose _ _ ih =>
    refine ⟨ih.state, ih.joining, ih.joinLookup, ih.retries, fun id member => ?_⟩
    unfold Outline.launch
    rw [List.map_append]
    exact List.mem_append_left _ (ih.lookups id member)
  | queue _ _ _ ih => exact ⟨ih.state, ih.joining, ih.joinLookup, ih.retries, ih.lookups⟩
  | unqueue _ ih => exact ⟨ih.state, ih.joining, ih.joinLookup, ih.retries, ih.lookups⟩
  | conclude _ _ _ _ _ ih => exact ⟨ih.state, ih.joining, ih.joinLookup, ih.retries, ih.lookups⟩

theorem Delivered.alike {purpose : Purpose} (delivered : Delivered asked id purpose o p) :
    Alike o p := by
  cases delivered with
  | reported => exact ⟨rfl, rfl, rfl, rfl, fun _ member => member⟩
  | announced _ drift =>
    have hAlike := drift.alike
    exact ⟨hAlike.state, hAlike.joining, hAlike.joinLookup, hAlike.retries, hAlike.lookups⟩

theorem Ordered.alike (ordered : Ordered o) (alike : Alike o p) : Ordered p := by
  cases ordered with
  | joined connected joined idle unscheduled =>
    exact .joined (alike.state.trans connected) (alike.joining.trans joined)
      (alike.joinLookup.trans idle) (alike.retries.trans unscheduled)
  | searching id apart joining own member unscheduled =>
    refine .searching id ?_ (alike.joining.trans joining) (alike.joinLookup.trans own)
      (alike.lookups id member) (alike.retries.trans unscheduled)
    rw [alike.state]
    exact apart
  | pausing apart joining idle scheduled =>
    refine .pausing ?_ (alike.joining.trans joining) (alike.joinLookup.trans idle)
      (alike.retries.trans scheduled)
    rw [alike.state]
    exact apart

theorem Unordered.alike (unordered : Unordered o) (alike : Alike o p) : Unordered p := by
  refine ⟨⟨?_, alike.joinLookup.trans unordered.idle, alike.retries.trans unordered.unscheduled⟩,
    alike.joining.trans unordered.awaits⟩
  rw [alike.state]
  exact unordered.apart

/-! ## Turns -/

theorem Ready.begun (ready : Ready o) (begun : Begun asked o p) : Ordered p := by
  cases begun with
  | going busy => exact absurd ready.idle busy
  | alone _ drift =>
    have hJoined : Ordered o.joined := .joined rfl rfl rfl ready.unscheduled
    exact hJoined.alike drift.alike
  | searching =>
    refine .searching ⟨o.started⟩ ?_ rfl rfl ?_ ready.unscheduled
    · change (if o.state = .connected then _ else _) ≠ ConnectionState.connected
      rw [if_neg ready.apart]
      exact ConnectionState.noConfusion
    · unfold join launch
      rw [List.map_append]
      exact List.mem_append_right _ (List.mem_singleton_self _)

/-- As long as a lookup decides about joining, the node searches. -/
theorem Ordered.deciding (ordered : Ordered o) (deciding : o.joinLookup = some id) :
    o.state ≠ .connected ∧ o.retries = 0 := by
  cases ordered with
  | joined _ _ idle =>
    rw [deciding] at idle
    cases idle
  | searching _ apart _ _ _ unscheduled => exact ⟨apart, unscheduled⟩
  | pausing _ _ idle =>
    rw [deciding] at idle
    cases idle

theorem Ordered.judged {target : NodeId} {kind : LookupKind} {announce : Bool} (ordered : Ordered o)
    (judged : Judged asked id (o.finish id target kind announce) p) : Ordered p := by
  cases judged with
  | other another =>
    cases ordered with
    | joined connected joined idle unscheduled => exact .joined connected joined idle unscheduled
    | searching own apart joining deciding member unscheduled =>
      refine .searching own apart joining deciding ?_ unscheduled
      rcases List.mem_map.mp member with ⟨entry, listed, rfl⟩
      refine List.mem_map.mpr ⟨entry, List.mem_filter.mpr ⟨listed, decide_eq_true ?_⟩, rfl⟩
      rintro rfl
      exact another deciding
    | pausing apart joining idle scheduled => exact .pausing apart joining idle scheduled
  | joined deciding drift =>
    have hJoined : Ordered (o.finish id target kind announce).joined :=
      .joined rfl rfl rfl (ordered.deciding deciding).2
    exact hJoined.alike drift.alike
  | failed deciding drift =>
    have hFailed : Ordered (o.finish id target kind announce).failed :=
      .pausing (ordered.deciding deciding).1 rfl rfl
        (congrArg (· + 1) (ordered.deciding deciding).2)
    exact hFailed.alike drift.alike

theorem Ordered.turn (ordered : Ordered o) (turn : Turn asked o p) : Ordered p := by
  cases turn with
  | drift drift => exact ordered.alike drift.alike
  | finish id finished =>
    cases finished with
    | absent => exact ordered
    | wrapped _ _ _ _ judged delivered => exact (ordered.judged judged).alike delivered.alike
  | retry later scheduled begun =>
    cases ordered with
    | joined _ _ _ unscheduled => omega
    | searching _ _ _ _ _ unscheduled => omega
    | pausing apart _ idle once =>
      have hOnce : later = 0 := by omega
      have hReady : Ready { o with retries := later } := ⟨apart, idle, hOnce⟩
      exact hReady.begun begun
  | rejoin joined begun =>
    cases ordered with
    | joined _ _ idle unscheduled =>
      have hReady : Ready { o with state := .connecting, joining := .awaitStart } :=
        ⟨ConnectionState.noConfusion, idle, unscheduled⟩
      exact hReady.begun begun
    | searching _ _ joining =>
      rw [joined] at joining
      cases joining
    | pausing _ joining =>
      rw [joined] at joining
      cases joining

/-- Nothing but the order makes a node join. -/
theorem Unordered.turn (unordered : Unordered o) (turn : Turn asked o p) : Unordered p := by
  cases turn with
  | drift drift => exact unordered.alike drift.alike
  | finish id finished =>
    cases finished with
    | absent => exact unordered
    | wrapped _ _ _ _ judged delivered =>
      refine Unordered.alike ?_ delivered.alike
      have hUndecided : o.joinLookup ≠ some id := by
        rw [unordered.idle]
        intro same
        cases same
      cases judged with
      | other =>
        exact ⟨⟨unordered.apart, unordered.idle, unordered.unscheduled⟩, unordered.awaits⟩
      | joined deciding => exact absurd deciding hUndecided
      | failed deciding => exact absurd deciding hUndecided
  | retry later scheduled =>
    have hUnscheduled := unordered.unscheduled
    omega
  | rejoin joined =>
    rw [unordered.awaits] at joined
    cases joined

end Outline

namespace LocalNode

open Outline (Ordered Unordered)

/-- What can be at work for joining. -/
inductive Phase where
  | joined
  | searching
  | pausing

/-- What a phase of joining means for a node. -/
def Phase.Holds (n : LocalNode) : Phase → Prop
  | joined => n.bootstrap.state = .bootstrapped ∧ n.bootstrapLookup = none ∧
    n.timer.times .bootstrapRetry = 0
  | searching => n.bootstrap.state = .bootstrapping ∧
    (∃ id, n.bootstrapLookup = some id ∧ id ∈ n.lookups.map (·.1)) ∧
    n.timer.times .bootstrapRetry = 0
  | pausing => n.bootstrap.state = .idleBeforeRetry ∧ n.bootstrapLookup = none ∧
    n.timer.times .bootstrapRetry = 1

/-- How joining stands with a node: it is part of the network if and only if it has joined, and is
in one phase. -/
def InPhase (n : LocalNode) : Prop :=
  (n.state = .connected ↔ n.bootstrap.state = .bootstrapped) ∧
    ∃ phase : Phase, phase.Holds n ∧ ∀ other : Phase, other.Holds n → other = phase

theorem inPhase_of_ordered {n : LocalNode} {history : List Effect}
    (ordered : Ordered (n.outline history)) : n.InPhase := by
  have hKeys : (n.outline history).lookups.map (·.1) = n.lookups.map (·.1) := List.map_map
  cases ordered with
  | joined connected joined idle unscheduled =>
    refine ⟨iff_of_true connected joined, .joined, ⟨joined, idle, unscheduled⟩, ?_⟩
    intro phase holds
    cases phase with
    | joined => rfl
    | searching => cases holds.1.symm.trans joined
    | pausing => cases holds.1.symm.trans joined
  | searching id apart joining own member unscheduled =>
    rw [hKeys] at member
    refine ⟨iff_of_false apart fun joined => ?_, .searching,
      ⟨joining, ⟨id, own, member⟩, unscheduled⟩, ?_⟩
    · cases joined.symm.trans joining
    · intro phase holds
      cases phase with
      | joined => cases holds.1.symm.trans joining
      | searching => rfl
      | pausing => cases holds.1.symm.trans joining
  | pausing apart joining idle scheduled =>
    refine ⟨iff_of_false apart fun joined => ?_, .pausing, ⟨joining, idle, scheduled⟩, ?_⟩
    · cases joined.symm.trans joining
    · intro phase holds
      cases phase with
      | joined => cases holds.1.symm.trans joining
      | searching => cases holds.1.symm.trans joining
      | pausing => rfl

/-- Events at which the node is not ordered to join keep what all turns keep. -/
theorem keep_unordered {keeps : Outline → Prop}
    (turn : ∀ {o p : Outline}, Outline.Turn (fun _ => True) o p → keeps o → keeps p)
    {events : List (Surroundings × Event)}
    (other : .command .startBootstrap ∉ events.map (·.2)) (past : List Effect × LocalNode)
    (running : (events.foldl advance past).2.running = true) :
    past.2.running = true ∧ (keeps (past.2.outline past.1) →
      keeps ((events.foldl advance past).2.outline (events.foldl advance past).1)) := by
  apply keep_advance keeps _ past running
  intro past event member going holds
  have hOther : event.2 ≠ .command .startBootstrap := fun same =>
    other (List.mem_map.mpr ⟨event, member, same⟩)
  exact (turns_step (fun _ _ => trivial) past.1 going hOther fun _ _ => trivial).keep turn holds

theorem unordered_start (options : Options) (localAddress : Address) (now : Instant)
    (secrets : Draws (BitVec 32)) (firstTransaction : TransactionId) :
    Unordered ((start options localAddress now secrets firstTransaction).outline []) :=
  ⟨⟨ConnectionState.noConfusion, rfl, rfl⟩, rfl⟩

/-- A running node that was once ordered to join is in one phase of joining after every event. -/
theorem inPhase_of_run (options : Options) (localAddress : Address) (now : Instant)
    (secrets : Draws (BitVec 32)) (firstTransaction : TransactionId)
    (events : List (Surroundings × Event))
    (once : (events.map (·.2)).count (.command .startBootstrap) = 1)
    (running : ((start options localAddress now secrets firstTransaction).run events).2.running) :
    InPhase ((start options localAddress now secrets firstTransaction).run events).2 := by
  have hStart := unordered_start options localAddress now secrets firstTransaction
  generalize start options localAddress now secrets firstTransaction = n at hStart running ⊢
  -- the order divides the events into those before it and those after it
  have hOrder : .command .startBootstrap ∈ events.map (·.2) :=
    List.count_pos_iff.mp (by rw [once]; exact Nat.one_pos)
  rcases List.mem_map.mp hOrder with ⟨⟨env, event⟩, member, rfl⟩
  rcases List.append_of_mem member with ⟨before, after, rfl⟩
  rw [List.map_append, List.map_cons, List.count_append, List.count_cons_self] at once
  have hBefore : .command .startBootstrap ∉ before.map (·.2) := List.count_eq_zero.mp (by omega)
  have hAfter : .command .startBootstrap ∉ after.map (·.2) := List.count_eq_zero.mp (by omega)
  unfold run at running ⊢
  rw [List.foldl_append, List.foldl_cons] at running ⊢
  generalize hPast : before.foldl advance ([], n) = past at running ⊢
  rcases keep_unordered (fun turn ordered => Ordered.turn ordered turn) hAfter _ running with
    ⟨going, later⟩
  rcases keep_unordered (fun turn unordered => Unordered.turn unordered turn)
    hBefore ([], n) (by rw [hPast]; exact (step_of_running going).1) with ⟨-, earlier⟩
  have hUnordered := earlier hStart
  rw [hPast] at hUnordered
  rcases @begun_step env (fun _ => True) past.2 past.1 going with ⟨begun, begins, turns⟩
  have hOrdered := turns.keep (fun turn ordered => Ordered.turn ordered turn)
    (hUnordered.toReady.begun begins)
  exact inPhase_of_ordered (later hOrdered)

/-- A node asks the only address that it knows, and gets no answer for a minute. -/
def silence : List (Surroundings × Event) :=
  [(.reliable 0, .command .startBootstrap),
    (.reliable (Duration.minutes 1), .wake)]

theorem inPhase_after_silence :
    ((start { id := .zero, startingNodes := [⟨.v4 1, 1⟩] } ⟨.v4 2, 2⟩ 0 default ⟨0⟩).run
        silence).2.bootstrap.state = .idleBeforeRetry ∧
      InPhase ((start { id := .zero, startingNodes := [⟨.v4 1, 1⟩] } ⟨.v4 2, 2⟩ 0 default ⟨0⟩).run
        silence).2 :=
  ⟨by decide +kernel, inPhase_of_run _ _ _ _ _ _ (by decide +kernel) (by decide +kernel)⟩

end LocalNode
end Kademlia
