import Kademlia.Proofs.LocalNode.Correlation
import Kademlia.Proofs.LocalNode.Hearing
import Kademlia.Proofs.LocalNode.Outline

namespace Kademlia

/-!
# The course of a node

How the outline of a node changes.  As long as joining goes on as it was, lookups are launched or
kept waiting and announcements end (`Outline.Drift`).  Besides, there are two turns: an attempt to
join begins (`Outline.Begun`), or a lookup is over, which may decide about joining and be followed
by an announcement (`Outline.Finished`).  Every event comes down to drifting and turns
(`Outline.Turn`), so that a property of outlines holds throughout if these keep it.
-/

/-- A lookup that an announcement follows does not report the nodes that it found. -/
def Purpose.Fair (purpose : Purpose) : Prop :=
  purpose.announce = true → ∀ call, purpose.sink ≠ .contacts call

namespace Outline

variable {asked : Purpose → Prop} {o p q : Outline} {id : LookupId}

/-- What goes on beside joining.  A lookup is launched because it was kept waiting or is asked for
now. -/
inductive Drift (asked : Purpose → Prop) (o : Outline) : Outline → Prop
  | refl : Drift asked o o
  | launch {p : Outline} (purpose : Purpose) : Drift asked o p →
    purpose ∈ o.queued ∨ asked purpose → Drift asked o (p.launch purpose)
  | queue {p : Outline} (purpose : Purpose) : Drift asked o p → asked purpose →
    Drift asked o { p with queued := p.queued ++ [purpose] }
  | unqueue {p : Outline} : Drift asked o p → Drift asked o { p with queued := [] }
  | conclude {p : Outline} (id : LookupId) (infoHash : InfoHash) (accepted : Nat) :
    Drift asked o p → id ∈ p.announces → Drift asked o (p.conclude id infoHash accepted)

namespace Drift

theorem of_eq (same : p = o) : Drift asked o p := by
  rw [same]
  exact .refl

theorem mem_queued {purpose : Purpose} (drift : Drift asked o p) (queued : purpose ∈ p.queued) :
    purpose ∈ o.queued ∨ asked purpose := by
  induction drift with
  | refl => exact .inl queued
  | launch _ _ _ ih => exact ih queued
  | queue other _ wanted ih =>
    rcases List.mem_append.mp queued with before | now
    · exact ih before
    · rw [List.mem_singleton.mp now]
      exact .inr wanted
  | unqueue => cases queued
  | conclude _ _ _ _ _ ih => exact ih queued

theorem trans (first : Drift asked o p) (second : Drift asked p q) : Drift asked o q := by
  induction second with
  | refl => exact first
  | launch purpose _ due ih =>
    refine ih.launch purpose ?_
    rcases due with queued | wanted
    · exact first.mem_queued queued
    · exact .inr wanted
  | queue purpose _ wanted ih => exact ih.queue purpose wanted
  | unqueue _ ih => exact ih.unqueue
  | conclude id infoHash accepted _ going ih => exact ih.conclude id infoHash accepted going

/-- That another attempt to join is scheduled makes no difference to what goes on beside. -/
theorem retry (drift : Drift asked o p) : Drift asked o.retry p.retry := by
  induction drift with
  | refl => exact .refl
  | launch purpose _ due ih => exact ih.launch purpose due
  | queue purpose _ wanted ih => exact ih.queue purpose wanted
  | unqueue _ ih => exact ih.unqueue
  | conclude id infoHash accepted _ going ih => exact ih.conclude id infoHash accepted going

end Drift

/-- What comes of the order to join. -/
inductive Begun (asked : Purpose → Prop) (o : Outline) : Outline → Prop
  /-- An attempt is in progress already. -/
  | going : o.joinLookup ≠ none → Begun asked o o
  /-- There is nobody to join through, and the node has joined at once. -/
  | alone {p : Outline} : o.joinLookup = none → Drift asked o.joined p → Begun asked o p
  | searching : o.joinLookup = none → Begun asked o o.join

/-- What it says about joining that a lookup is over. -/
inductive Judged (asked : Purpose → Prop) (id : LookupId) (o : Outline) : Outline → Prop
  | other : o.joinLookup ≠ some id → Judged asked id o o
  | joined {p : Outline} : o.joinLookup = some id → Drift asked o.joined p → Judged asked id o p
  | failed {p : Outline} : o.joinLookup = some id → Drift asked o.failed p → Judged asked id o p

/-- What is done with the results of a lookup. -/
inductive Delivered (asked : Purpose → Prop) (id : LookupId) (purpose : Purpose) (o : Outline) :
    Outline → Prop
  | reported : (purpose.Fair → purpose.announce = false) → Delivered asked id purpose o o
  | announced {p : Outline} : purpose.announce = true →
    Drift asked { o with announces := o.announces ++ [id] } p → Delivered asked id purpose o p

/-- What comes of wrapping up a lookup. -/
inductive Finished (asked : Purpose → Prop) (id : LookupId) (o : Outline) : Outline → Prop
  | absent : id ∉ o.lookups.map (·.1) → Finished asked id o o
  | wrapped {judged p : Outline} (target : NodeId) (kind : LookupKind) (purpose : Purpose) :
    (id, purpose) ∈ o.lookups →
    Judged asked id (o.finish id target kind purpose.announce) judged →
    Delivered asked id purpose judged p → Finished asked id o p

/-- What can happen to a node at any time, unless it is ordered to join. -/
inductive Turn (asked : Purpose → Prop) (o : Outline) : Outline → Prop
  | drift {p : Outline} : Drift asked o p → Turn asked o p
  | finish {p : Outline} (id : LookupId) : Finished asked id o p → Turn asked o p
  /-- The time has come for another attempt to join. -/
  | retry {p : Outline} (later : Nat) : o.retries = later + 1 →
    Begun asked { o with retries := later } p → Turn asked o p
  /-- The node has lost the network. -/
  | rejoin {p : Outline} : o.joining = .bootstrapped →
    Begun asked { o with state := .connecting, joining := .awaitStart } p → Turn asked o p

/-- A number of turns one after another. -/
inductive Turns (asked : Purpose → Prop) (o : Outline) : Outline → Prop
  | refl : Turns asked o o
  | step {p q : Outline} : Turns asked o p → Turn asked p q → Turns asked o q

theorem Turns.trans (first : Turns asked o p) (second : Turns asked p q) : Turns asked o q := by
  induction second with
  | refl => exact first
  | step _ turn ih => exact ih.step turn

theorem Turn.turns (turn : Turn asked o p) : Turns asked o p :=
  .step .refl turn

theorem Drift.turns (drift : Drift asked o p) : Turns asked o p :=
  (Turn.drift drift).turns

/-- What every turn keeps, a number of them keeps. -/
theorem Turns.keep {keeps : Outline → Prop} (turns : Turns asked o p)
    (step : ∀ {o p : Outline}, Turn asked o p → keeps o → keeps p) (holds : keeps o) : keeps p := by
  induction turns with
  | refl => exact holds
  | step _ turn ih => exact step turn ih

end Outline

namespace LocalNode

open Outline (Drift Begun Judged Delivered Finished Turn Turns)

variable {env : Surroundings} {past : List Effect} {asked : Purpose → Prop}

/-! ## Lookups and announcements -/

theorem course_launch (n : LocalNode) (active : ActiveLookup) :
    (n.launch env active).course past = (n.course past).launch active.purpose := by
  unfold launch
  rw [blind_course.driveLookup]
  unfold course outline Outline.launch
  dsimp only
  rw [List.map_append]
  rfl

theorem course_startLookup (n : LocalNode) (request : LookupRequest) :
    (n.startLookup env request).course past = (n.course past).launch request.purpose := by
  unfold startLookup
  rw [course_launch]
  unfold ActiveLookup.purpose LookupRequest.purpose Lookup.start
  rw [(Lookup.Told.addCandidates ..).announce]

theorem drift_requestLookup (n : LocalNode) (request : LookupRequest)
    (wanted : asked request.purpose) :
    Drift asked (n.course past) ((n.requestLookup env request).course past) := by
  unfold requestLookup
  split
  · have hQueued := (@Drift.refl asked (n.course past)).queue _ wanted
    unfold course outline at hQueued ⊢
    rw [List.map_append]
    exact hQueued
  · rw [course_startLookup]
    exact Drift.refl.launch _ (.inr wanted)

theorem drift_startQueued (n : LocalNode) :
    Drift asked (n.course past) ((n.startQueued env).course past) := by
  have hLaunched : ∀ (requests : List LookupRequest) (m : LocalNode),
      (∀ request ∈ requests, request ∈ n.queued) → Drift asked (n.course past) (m.course past) →
      Drift asked (n.course past) ((requests.foldl (startLookup env) m).course past) := by
    intro requests
    induction requests with
    | nil => exact fun _ _ drift => drift
    | cons request requests ih =>
      intro m queued drift
      apply ih _ fun other member => queued other (List.mem_cons_of_mem _ member)
      rw [course_startLookup]
      exact drift.launch _ (.inl (List.mem_map_of_mem (queued request List.mem_cons_self)))
  exact hLaunched n.queued { n with queued := [] } (fun _ member => member) Drift.refl.unqueue

theorem course_concluded (n : LocalNode) (id : LookupId) (infoHash : InfoHash) (accepted : Nat) :
    ({ n with announces := n.announces.filter (·.1 ≠ id) }.notify
      (.announced infoHash accepted)).course past =
      (n.course past).conclude id infoHash accepted := by
  have hKeys : (n.announces.filter (·.1 ≠ id)).map (·.1) =
      (n.announces.map (·.1)).filter (· ≠ id) := by
    rw [List.filter_map]
    rfl
  have hOver : [Effect.notice (.announced infoHash accepted)].filter Effect.isOver =
      [.notice (.announced infoHash accepted)] := rfl
  unfold notify emit course outline Outline.conclude
  dsimp only
  rw [hKeys, ← List.append_assoc, List.filter_append, hOver]

theorem drift_completeAnnounce (n : LocalNode) (id : LookupId) :
    Drift asked (n.course past) ((n.completeAnnounce id).course past) := by
  unfold completeAnnounce
  split
  · exact .refl
  next active found =>
    dsimp only
    rw [overlooks_course.endStream (fun _ => rfl), course_concluded]
    exact Drift.refl.conclude _ _ _ (mem_keys_iff.mpr ⟨_, found⟩)

theorem drift_continueAnnounce (n : LocalNode) (id : LookupId) :
    Drift asked (n.course past) ((n.continueAnnounce env id).course past) := by
  unfold continueAnnounce
  split
  · exact .refl
  next active found =>
    dsimp only
    rw [← blind_course.announceRounds id (active.announce.count (· = .unused) + 1) n]
    split
    · split
      · exact drift_completeAnnounce ..
      · exact .refl
    · exact .refl

theorem drift_startAnnounce (n : LocalNode) (id : LookupId) (infoHash : InfoHash)
    (targets : List (Contact × Bytes)) (stream : Option StreamId) :
    Drift asked { n.course past with announces := (n.course past).announces ++ [id] }
      ((n.startAnnounce env id infoHash targets stream).course past) := by
  have hFurther := @drift_continueAnnounce env past asked
  unfold startAnnounce
  dsimp only
  generalize hStarted : ({ n with announces := _ } : LocalNode) = started
  have hCourse : started.course past =
      { n.course past with announces := (n.course past).announces ++ [id] } := by
    rw [← hStarted]
    unfold course outline
    dsimp only
    rw [List.map_append]
    rfl
  rw [← hCourse]
  exact hFurther started id

theorem drift_announceReply (n : LocalNode) (id : LookupId) (contact : Contact) (success : Bool) :
    Drift asked (n.course past) ((n.announceReply env id contact success).course past) := by
  unfold announceReply
  split
  · exact .refl
  · dsimp only
    rw [← course_modifyAnnounce n id (·.onReply contact success)]
    split
    · exact drift_continueAnnounce ..
    · exact drift_completeAnnounce ..

theorem drift_queryFailed (n : LocalNode) (t : Transaction) (timedOut : Bool) :
    Drift asked (n.course past) ((n.queryFailed env t timedOut).course past) := by
  have hNoted : (if timedOut ∧ t.destination.link = 0 then
      { n with table := n.table.failedAddress t.destination.address } else n).course past =
        n.course past := by
    split <;> rfl
  unfold queryFailed
  generalize (if timedOut ∧ t.destination.link = 0 then
    { n with table := n.table.failedAddress t.destination.address } else n) = m at hNoted ⊢
  rw [← hNoted]
  dsimp only
  split
  · apply Drift.of_eq
    exact (blind_course.driveLookup ..).trans (blind_course.told _ _ fun l => .onFailure l _)
  · split
    · exact drift_announceReply ..
    · exact .refl
  · exact .refl
  · exact .refl

/-! ## Datagrams -/

theorem drift_handleResponse (n : LocalNode) (sender : Address) (message : Message)
    (response : Response) (t : Transaction) :
    Drift asked (n.course past) ((n.handleResponse env sender message response t).course past) := by
  unfold handleResponse
  dsimp only
  generalize hNoted : ({ n with table := _ } : LocalNode) = noted
  have hCourse : n.course past = noted.course past := by
    rw [← hNoted]
    rfl
  rw [hCourse]
  split
  · exact .of_eq (overlooks_course _ _ rfl)
  · exact .of_eq (course_lookupResponse ..)
  · exact .of_eq (course_lookupResponse ..)
  · exact drift_announceReply ..
  · exact .refl

theorem course_settle (n : LocalNode) (t : Transaction) :
    (n.settle t).course past = n.course past :=
  course_timer n (Timer.times_removeTimeout Task.noConfusion)

theorem drift_handleDatagram (n : LocalNode) (sender : Address) (data : Bytes) :
    Drift asked (n.course past) ((n.handleDatagram env sender data).course past) := by
  have hHeard := heard_handleDatagram env n sender data
  generalize n.handleDatagram env sender data = m at hHeard ⊢
  cases hHeard with
  | nothing transactions => exact .refl
  | query => exact .of_eq (course_handleQuery ..)
  | malformed transaction key => exact .of_eq (overlooks_course _ _ rfl)
  | response receives =>
    rename_i t
    rw [← course_settle n t]
    exact drift_handleResponse ..
  | refusal waits =>
    rename_i t
    rw [← course_settle n t]
    exact drift_queryFailed ..

/-! ## Joining -/

theorem drift_bootstrapSucceeded (n : LocalNode) (joined : n.bootstrap.state = .bootstrapped)
    (idle : n.bootstrapLookup = none) :
    Drift asked (n.course past).joined ((n.bootstrapSucceeded env).course past) := by
  have hJoined : (n.course past).joined = { n.course past with state := .connected } := by
    unfold Outline.joined course outline
    dsimp only
    rw [joined, idle]
  have hTold : (((n.setState .connected).notify .bootstrapCompleted).answerWaiting true).course
      past = (n.course past).joined := by
    rw [course_answerWaiting, hJoined, ← course_setState]
    exact overlooks_course _ _ rfl
  unfold bootstrapSucceeded
  generalize ((n.setState .connected).notify .bootstrapCompleted).answerWaiting true = m at hTold ⊢
  have hRefreshed : (if m.refreshStarted then m
      else refreshTick env { m with refreshStarted := true }).course past = m.course past := by
    split
    · rfl
    · exact course_refreshTick _
  rw [← hTold, ← hRefreshed]
  exact drift_startQueued _

theorem begun_startBootstrap (n : LocalNode) :
    Begun asked (n.course past) ((n.startBootstrap env).course past) := by
  have hApproach : (if n.state = .connected then n else n.setState .connecting).course past =
      (n.course past).approach := by
    unfold Outline.approach
    change _ = ({ n.course past with state := if n.state = .connected then _ else _ } : Outline)
    split
    next connected =>
      rw [← connected]
      rfl
    next => exact course_setState ..
  have hLookup : (if n.state = .connected then n else n.setState .connecting).bootstrapLookup =
      n.bootstrapLookup := by
    unfold setState
    split
    · rfl
    · split <;> rfl
  unfold startBootstrap
  split
  next going => exact .going (Option.isSome_iff_ne_none.mp going)
  next idle =>
    have hIdle : n.bootstrapLookup = none := Option.not_isSome_iff_eq_none.mp idle
    generalize (if n.state = .connected then n else n.setState .connecting) = m
      at hApproach hLookup ⊢
    dsimp only
    split
    · have hJoined := @drift_bootstrapSucceeded env past asked
        { m with bootstrap := m.bootstrap.completeWithoutSeeds } rfl (hLookup.trans hIdle)
      have hSame : (m.course past).joined = (n.course past).joined := by
        rw [hApproach]
        rfl
      refine .alone hIdle ?_
      rw [← hSame]
      exact hJoined
    · have hSame : ((if m.bootstrap.needsLookUp then m.emit .lookingUp else m).course past) =
          (n.course past).approach := (overlooks_course.emit_if _ m rfl).trans hApproach
      generalize (if m.bootstrap.needsLookUp then m.emit .lookingUp else m) = m at hSame ⊢
      have hAnnounce : ∀ contacts seeds, (Lookup.start m.id .findNode false
          m.settings.lookupConcurrency m.settings.maxLookupRounds contacts seeds).announce =
            false := fun _ _ => (Lookup.Told.addCandidates ..).announce
      have hJoin : (n.course past).join = Outline.launch
          { m.course past with joining := .bootstrapping, joinLookup := some ⟨m.lookupCount⟩ }
          ⟨false, .nowhere⟩ := by
        have hStarted : m.lookupCount = (n.course past).started :=
          congrArg Outline.started hSame
        rw [hSame, hStarted]
        rfl
      rw [course_launch, ActiveLookup.purpose, hAnnounce]
      have hBegun := @Begun.searching asked (n.course past) hIdle
      rw [hJoin] at hBegun
      exact hBegun

/-- The lookup of an attempt to join decides about it. -/
theorem drift_bootstrapLookupCompleted (n : LocalNode) (idle : n.bootstrapLookup = none) :
    Drift asked (n.course past).joined ((n.bootstrapLookupCompleted env).course past) ∨
      Drift asked (n.course past).failed ((n.bootstrapLookupCompleted env).course past) := by
  unfold bootstrapLookupCompleted
  by_cases good : 0 < n.table.countWith env.now .good
  · have hDecided : n.bootstrap.onLookupCompleted (n.table.countWith env.now .good) =
        (.completed, { n.bootstrap with attempts := 0, state := .bootstrapped }) := if_pos good
    rw [hDecided]
    dsimp only
    generalize hJoined : ({ n with bootstrap := _ } : LocalNode) = m
    have hSame : (n.course past).joined = (m.course past).joined := by
      rw [← hJoined]
      rfl
    rw [hSame]
    refine .inl (drift_bootstrapSucceeded m ?_ ?_)
    · rw [← hJoined]
    · rw [← hJoined]
      exact idle
  · have hDecided : n.bootstrap.onLookupCompleted (n.table.countWith env.now .good) =
        (.retry (n.bootstrap.attempts + 1 = Bootstrap.maxAttempts),
          { n.bootstrap with
            attempts := n.bootstrap.attempts + 1
            state := .idleBeforeRetry }) := if_neg good
    rw [hDecided]
    dsimp only
    generalize hIdle : ({ n with bootstrap := _ } : LocalNode) = m
    have hFailed : (n.course past).failed = (m.course past).retry := by
      rw [← hIdle]
      unfold Outline.failed course outline
      rw [idle]
    rw [course_scheduleRetry, hFailed]
    refine .inr (Drift.retry ?_)
    split
    · have hTold : ((m.notify .bootstrapFailed).answerWaiting false).course past =
          m.course past := (course_answerWaiting ..).trans (overlooks_course _ _ rfl)
      rw [← hTold]
      exact drift_startQueued _
    · exact .refl

theorem delivered_deliver (n : LocalNode) (id : LookupId) (sink : Sink) (outcome : LookupOutcome) :
    Delivered asked id ⟨outcome.announce, sink⟩ (n.course past)
      ((n.deliver env id sink outcome).course past) := by
  unfold deliver
  split
  next call =>
    rw [overlooks_course _ _ rfl]
    refine .reported fun fair => ?_
    cases announce : outcome.announce with
    | false => rfl
    | true => exact absurd rfl (fair announce call)
  next stream =>
    split
    next announce => exact .announced announce (drift_startAnnounce ..)
    next silent =>
      rw [overlooks_course _ _ rfl]
      exact .reported fun _ => Bool.eq_false_iff.mpr silent
  next =>
    split
    next announce => exact .announced announce (drift_startAnnounce ..)
    next silent => exact .reported fun _ => Bool.eq_false_iff.mpr silent

theorem course_finished (n : LocalNode) (id : LookupId) (target : NodeId) (kind : LookupKind)
    (announce : Bool) :
    ({ n with lookups := n.lookups.filter (·.1 ≠ id) }.notify
      (.lookupCompleted target kind announce)).course past =
      (n.course past).finish id target kind announce := by
  have hLookups : (n.lookups.filter (·.1 ≠ id)).map (fun entry => (entry.1, entry.2.purpose)) =
      (n.lookups.map fun entry => (entry.1, entry.2.purpose)).filter (·.1 ≠ id) := by
    rw [List.filter_map]
    rfl
  have hOver : [Effect.notice (.lookupCompleted target kind announce)].filter Effect.isOver =
      [.notice (.lookupCompleted target kind announce)] := rfl
  unfold notify emit course outline Outline.finish
  dsimp only
  rw [hLookups, ← List.append_assoc, List.filter_append, hOver]

theorem finished_lookupCompleted (n : LocalNode) (id : LookupId) :
    Finished asked id (n.course past) ((n.lookupCompleted env id).course past) := by
  have hKeys : (n.course past).lookups.map (·.1) = n.lookups.map (·.1) := List.map_map
  unfold lookupCompleted
  split
  next absent =>
    refine .absent fun member => ?_
    rw [hKeys] at member
    rcases mem_keys_iff.mp member with ⟨active, found⟩
    rw [absent] at found
    cases found
  next active found =>
    have hMember : (id, active.purpose) ∈ (n.course past).lookups :=
      List.mem_map_of_mem (mem_of_lookup found)
    dsimp only
    generalize hOver : LocalNode.notify _ (.lookupCompleted _ _ _) = m
    have hFinish : m.course past = (n.course past).finish id active.lookup.target
        active.lookup.kind active.lookup.announce := by
      rw [← hOver]
      exact course_finished ..
    refine .wrapped active.lookup.target active.lookup.kind active.purpose hMember ?_
      (delivered_deliver _ id active.sink active.lookup.finish)
    change Judged asked id ((n.course past).finish id active.lookup.target active.lookup.kind
      active.lookup.announce) _
    rw [← hFinish]
    split
    next own =>
      rcases @drift_bootstrapLookupCompleted env past asked { m with bootstrapLookup := none }
        rfl with joined | failed
      · exact .joined own joined
      · exact .failed own failed
    next other => exact .other other

theorem turns_wrapUpSome (count : Nat) (n : LocalNode) :
    Turns asked (n.course past) ((wrapUpSome env count n).course past) := by
  induction count generalizing n with
  | zero => exact .refl
  | succ count ih =>
    rw [wrapUpSome]
    split
    · exact .refl
    next id rest _ =>
      have hFinished := @finished_lookupCompleted env past asked { n with completed := rest } id
      exact (Turn.finish id hFinished).turns.trans (ih _)

theorem turns_wrapUp (n : LocalNode) :
    Turns asked (n.course past) ((n.wrapUp env).course past) :=
  turns_wrapUpSome ..

/-! ## Tasks and commands -/

theorem drift_handleQueryTimeout (n : LocalNode) (id : TransactionId) :
    Drift asked (n.course past) ((n.handleQueryTimeout env id).course past) := by
  unfold handleQueryTimeout
  split
  next t transactions _ => exact drift_queryFailed { n with transactions } t true
  next => exact .refl

theorem drift_failStale (n : LocalNode) (t : Transaction) :
    Drift asked (n.course past) ((n.failStale env t).course past) := by
  have hCancelled : ({ n with timer := (n.timer.cancel t.id).2 } : LocalNode).course past =
      n.course past := course_timer n (Timer.times_removeTimeout Task.noConfusion)
  rw [← hCancelled]
  exact drift_queryFailed _ t true

theorem drift_failAll (stale : List Transaction) (n : LocalNode) :
    Drift asked (n.course past) ((stale.foldl (failStale env) n).course past) := by
  induction stale generalizing n with
  | nil => exact .refl
  | cons t stale ih => exact (drift_failStale n t).trans (ih _)

theorem turns_rejoinIfEmpty (n : LocalNode) :
    Turns asked (n.course past) ((n.rejoinIfEmpty env).course past) := by
  unfold rejoinIfEmpty
  split
  next lost =>
    have hBegun := @begun_startBootstrap env past asked
      ({ n with bootstrap := n.bootstrap.reset }.setState .connecting)
    rw [course_setState] at hBegun
    exact (Turn.rejoin (o := n.course past) lost.2.2 hBegun).turns
  next => exact .refl

section Ours

variable (ours : ∀ purpose : Purpose, purpose.Fair → asked purpose)

include ours

theorem drift_announceAgain (n : LocalNode) :
    Drift asked (n.course past) ((n.announceAgain env).course past) := by
  unfold announceAgain
  split
  next hash last _ _ =>
    split
    · apply drift_requestLookup { n with lastNetworkAnnounce := some env.now }
      apply ours
      intro _ _ same
      cases same
    · exact .refl
  next => exact .refl

theorem drift_joinNetwork (n : LocalNode) (stream : StreamId) :
    Drift asked (n.course past) ((n.joinNetwork env stream).course past) := by
  have hNodes : asked (LookupRequest.purpose ⟨n.id, .findNode, false, .nowhere⟩) := by
    apply ours
    intro announce
    cases announce
  have hSearched := @drift_requestLookup env past asked n _ hNodes
  unfold joinNetwork
  generalize n.requestLookup env ⟨n.id, .findNode, false, .nowhere⟩ = m at hSearched ⊢
  dsimp only
  split
  next hash _ =>
    refine hSearched.trans (drift_requestLookup { m with lastNetworkAnnounce := some env.now } _ ?_)
    apply ours
    intro _ _ same
    cases same
  next =>
    rw [overlooks_course _ _ rfl]
    exact hSearched

theorem turns_maintain (n : LocalNode) :
    Turns asked (n.course past) ((n.maintain env).course past) := by
  unfold maintain
  dsimp only
  rw [course_schedule _ _ _ .maintenance Task.noConfusion]
  have hFailed := @drift_failAll env past asked
    (n.transactions.expireAll env.arrangement env.now (2 * n.settings.queryTimeout)).1
    { n with
      table := (n.table.removeStale env.now n.settings.nodeExpiry).2
      store := (n.store.expire env.now).2
      transactions :=
        (n.transactions.expireAll env.arrangement env.now (2 * n.settings.queryTimeout)).2 }
  exact hFailed.turns.trans ((turns_rejoinIfEmpty _).trans (drift_announceAgain ours _).turns)

theorem turns_wake (n : LocalNode) :
    Turns asked (n.course past) ((n.handleEvent env .wake).course past) := by
  unfold handleEvent
  cases popped : n.timer.popDue? env.now with
  | none => exact .refl
  | some due =>
    rcases due with ⟨task, rest⟩
    have hTimes : n.timer.times .bootstrapRetry =
        rest.times .bootstrapRetry + if task = .bootstrapRetry then 1 else 0 :=
      Timer.times_of_popDue? popped
    have hCourse : task ≠ .bootstrapRetry →
        ({ n with timer := rest } : LocalNode).course past = n.course past := by
      intro another
      rw [if_neg another] at hTimes
      exact course_timer n hTimes.symm
    dsimp only
    cases task with
    | queryTimeout id =>
      rw [← hCourse Task.noConfusion]
      exact (drift_handleQueryTimeout _ id).turns
    | tableRefresh =>
      rw [← hCourse Task.noConfusion]
      exact (Drift.of_eq (course_refreshTick _)).turns
    | maintenance =>
      rw [← hCourse Task.noConfusion]
      exact turns_maintain ours _
    | bootstrapRetry =>
      rw [if_pos rfl] at hTimes
      exact (Turn.retry _ hTimes (begun_startBootstrap { n with timer := rest })).turns

theorem turns_handleEvent (n : LocalNode) {event : Event}
    (other : event ≠ .command .startBootstrap)
    (wanted : ∀ request, event = .command (.lookup request) → asked request.purpose) :
    Turns asked (n.course past) ((n.handleEvent env event).course past) := by
  cases event with
  | datagram sender data => exact (drift_handleDatagram n sender data).turns
  | wake => exact turns_wake ours n
  | command command =>
    cases command with
    | startBootstrap => exact absurd rfl other
    | awaitBootstrap call =>
      rw [handleEvent, handleCommand]
      split
      · exact (Drift.of_eq (overlooks_course n _ rfl)).turns
      · exact .refl
    | lookup request => exact (drift_requestLookup n request (wanted request rfl)).turns
    | joinNetwork stream => exact (drift_joinNetwork ours n stream).turns
    | ping address => exact (Drift.of_eq (course_sendQuery ..)).turns
    | shutDown => exact .refl

end Ours

/-! ## Between two events -/

theorem running_close (n : LocalNode) : n.close.running = n.running := by
  have hQuiet := congrArg LocalNode.running (quiet_close n)
  exact hQuiet

/-- While a node is running, what it does at an event is done in two parts. -/
theorem step_of_running {n : LocalNode} {event : Event}
    (running : (n.step env event).running = true) : n.running = true ∧
      n.step env event = ({ n with outbox := [] }.handleEvent env event).wrapUp env := by
  unfold step at running ⊢
  dsimp only at running ⊢
  by_cases before : n.running = true
  · rw [if_pos before] at running ⊢
    refine ⟨before, ?_⟩
    by_cases going : (({ n with outbox := [] }.handleEvent env event).wrapUp env).running = true
    · rw [if_pos going]
    · rw [if_neg going, running_close] at running
      exact absurd running going
  · rw [if_neg before] at running
    exact absurd running before

theorem course_quiet (n : LocalNode) (history : List Effect) :
    ({ n with outbox := [] } : LocalNode).course history = n.outline history := by
  unfold course outline
  rw [List.append_nil]

theorem turns_step (ours : ∀ purpose : Purpose, purpose.Fair → asked purpose) {n : LocalNode}
    (history : List Effect) {event : Event} (running : (n.step env event).running = true)
    (other : event ≠ .command .startBootstrap)
    (wanted : ∀ request, event = .command (.lookup request) → asked request.purpose) :
    Turns asked (n.outline history)
      ((n.step env event).outline (history ++ (n.step env event).outbox)) := by
  rw [(step_of_running running).2, ← course_quiet]
  exact (turns_handleEvent ours _ other wanted).trans (turns_wrapUp _)

theorem begun_step {n : LocalNode} (history : List Effect)
    (running : (n.step env (.command .startBootstrap)).running = true) :
    ∃ begun, Begun asked (n.outline history) begun ∧ Turns asked begun
      ((n.step env (.command .startBootstrap)).outline
        (history ++ (n.step env (.command .startBootstrap)).outbox)) := by
  rw [(step_of_running running).2, ← course_quiet]
  exact ⟨_, begun_startBootstrap _, turns_wrapUp _⟩

/-- Adds an event to what a node has done, and to what has become of it. -/
def advance (past : List Effect × LocalNode) (event : Surroundings × Event) :
    List Effect × LocalNode :=
  (past.1 ++ (past.2.step event.1 event.2).outbox, past.2.step event.1 event.2)

/-- What a node has done in the course of some events, and what has become of it. -/
def run (n : LocalNode) (events : List (Surroundings × Event)) : List Effect × LocalNode :=
  events.foldl advance ([], n)

theorem run_append (n : LocalNode) (events : List (Surroundings × Event))
    (event : Surroundings × Event) : n.run (events ++ [event]) = advance (n.run events) event := by
  rw [run, List.foldl_append]
  rfl

theorem snd_run (n : LocalNode) (events : List (Surroundings × Event)) :
    (n.run events).2 = events.foldl (fun n event => n.step event.1 event.2) n :=
  (List.foldl_hom Prod.snd fun _ _ => rfl).symm

/-- Something was the case at one of the events that a node has gone through. -/
def Happened (what : LocalNode → Surroundings → Event → Prop) (n : LocalNode)
    (events : List (Surroundings × Event)) : Prop :=
  ∃ before env event after, events = before ++ (env, event) :: after ∧
    what (n.run before).2 env event

theorem not_happened_nil {what : LocalNode → Surroundings → Event → Prop} :
    ¬ Happened what n [] := by
  rintro ⟨before, env, event, after, split, -⟩
  cases before <;> cases split

theorem happened_append {what : LocalNode → Surroundings → Event → Prop} {n : LocalNode}
    {events : List (Surroundings × Event)} {env : Surroundings} {event : Event} :
    Happened what n (events ++ [(env, event)]) ↔
      Happened what n events ∨ what (n.run events).2 env event := by
  constructor
  · rintro ⟨before, env', event', after, split, held⟩
    rcases List.eq_nil_or_concat after with rfl | ⟨later, last, rfl⟩
    · rcases List.append_inj' split rfl with ⟨rfl, same⟩
      cases same
      exact .inr held
    · rw [List.concat_eq_append, ← List.cons_append, ← List.append_assoc] at split
      exact .inl ⟨before, env', event', later, (List.append_inj' split rfl).1, held⟩
  · rintro (⟨before, env', event', after, rfl, held⟩ | held)
    · refine ⟨before, env', event', after ++ [(env, event)], ?_, held⟩
      rw [List.append_assoc, List.cons_append]
    · exact ⟨events, env, event, [], rfl, held⟩

/-- What every event keeps while the node is running, all of them together keep. -/
theorem keep_advance (keeps : Outline → Prop) {events : List (Surroundings × Event)}
    (step : ∀ past : List Effect × LocalNode, ∀ event ∈ events,
      (advance past event).2.running = true → keeps (past.2.outline past.1) →
      keeps ((advance past event).2.outline (advance past event).1))
    (past : List Effect × LocalNode) (running : (events.foldl advance past).2.running = true) :
    past.2.running = true ∧ (keeps (past.2.outline past.1) →
      keeps ((events.foldl advance past).2.outline (events.foldl advance past).1)) := by
  induction events generalizing past with
  | nil => exact ⟨running, fun holds => holds⟩
  | cons event events ih =>
    rcases ih (fun past other member => step past other (List.mem_cons_of_mem _ member))
      (advance past event) running with ⟨going, later⟩
    exact ⟨(step_of_running going).1, fun holds =>
      later (step past event List.mem_cons_self going holds)⟩

end LocalNode
end Kademlia
