import Kademlia.Proofs.LocalNode.Course

namespace Kademlia

/-!
# That lookups and announcements are over once

A lookup may be found done several times during one event, and others start while those that are
done are wrapped up.  Still each is reported to be over once, and is in progress until then; and so
is each announcement, which is in progress from the end of its lookup on.  What carries this is that
lookups are numbered and never begun again (`Outline.Accounted`).
-/

/-- What the application can bring about.  A search for peers passes them on as they come, and may
be followed by an announcement; a search for nodes reports them at its end, and never announces. -/
def Event.Offered : Event → Prop
  | .command (.lookup request) => request.purpose.Fair
  | _ => True

namespace Outline

variable {asked : Purpose → Prop} {o p : Outline} {id : LookupId} {due : List LookupId}

/-- Each lookup and each announcement is in progress or reported to be over.  The announcements of
the lookups in `due` are about to begin. -/
structure Accounted (asked : Purpose → Prop) (due : List LookupId) (o : Outline) : Prop where
  distinct : (o.lookups.map (·.1)).Nodup
  numbered : ∀ id ∈ o.lookups.map (·.1), id.number < o.started
  started : o.started = o.lookups.length + o.reports.countP Effect.isCompletion
  asked_lookups : ∀ entry ∈ o.lookups, asked entry.2
  asked_queued : ∀ purpose ∈ o.queued, asked purpose
  apart : (o.announces ++ due).Nodup
  ended : ∀ id ∈ o.announces ++ due, id.number < o.started ∧ id ∉ o.lookups.map (·.1)
  /-- Only those whose results are not reported as contacts are announced after. -/
  announced : (∀ purpose, asked purpose → purpose.Fair) →
    o.reports.countP Effect.isAnnouncingCompletion =
      (o.announces ++ due).length + o.reports.countP Effect.isAnnounced

namespace Accounted

/-- How joining stands is of no account. -/
theorem elsewhere (accounted : Accounted asked due o) (state : ConnectionState)
    (joining : BootstrapState) (joinLookup : Option LookupId) (retries : Nat) :
    Accounted asked due { o with state, joining, joinLookup, retries } :=
  ⟨accounted.distinct, accounted.numbered, accounted.started, accounted.asked_lookups,
    accounted.asked_queued, accounted.apart, accounted.ended, accounted.announced⟩

theorem launch {purpose : Purpose} (accounted : Accounted asked due o) (wanted : asked purpose) :
    Accounted asked due (o.launch purpose) := by
  have hNew : ⟨o.started⟩ ∉ o.lookups.map (·.1) := fun member =>
    Nat.lt_irrefl _ (accounted.numbered _ member)
  have hKeys : (o.launch purpose).lookups.map (·.1) = o.lookups.map (·.1) ++ [⟨o.started⟩] :=
    List.map_append
  refine ⟨?_, ?_, ?_, ?_, accounted.asked_queued, accounted.apart, ?_, accounted.announced⟩
  · exact nodup_keys_append accounted.distinct hNew
  · rw [hKeys]
    intro id member
    rcases List.mem_append.mp member with before | now
    · exact Nat.lt_succ_of_lt (accounted.numbered id before)
    · rw [List.mem_singleton.mp now]
      exact Nat.lt_succ_self _
  · have hStarted := accounted.started
    unfold Outline.launch
    dsimp only
    rw [List.length_append, List.length_singleton]
    omega
  · intro entry member
    rcases List.mem_append.mp member with before | now
    · exact accounted.asked_lookups entry before
    · rw [List.mem_singleton.mp now]
      exact wanted
  · rw [hKeys]
    intro id member
    rcases accounted.ended id member with ⟨before, gone⟩
    refine ⟨Nat.lt_succ_of_lt before, fun again => ?_⟩
    rcases List.mem_append.mp again with old | new
    · exact gone old
    · rw [List.mem_singleton.mp new] at before
      exact Nat.lt_irrefl _ before

theorem conclude {infoHash : InfoHash} {accepted : Nat} (accounted : Accounted asked due o)
    (going : id ∈ o.announces) : Accounted asked due (o.conclude id infoHash accepted) := by
  have hKept : List.Sublist ((o.conclude id infoHash accepted).announces ++ due)
      (o.announces ++ due) := List.filter_sublist.append_right _
  have hOne : o.announces.length = (o.conclude id infoHash accepted).announces.length + 1 := by
    have hApart := (List.nodup_append.mp accounted.apart).1
    have hPerm : o.announces.Perm (id :: o.announces.filter (· ≠ id)) :=
      perm_cons_filter_ne (by rwa [List.map_id']) going
    exact hPerm.length_eq
  refine ⟨accounted.distinct, accounted.numbered, ?_, accounted.asked_lookups,
    accounted.asked_queued, accounted.apart.sublist hKept, fun id member =>
    accounted.ended id (hKept.subset member), ?_⟩
  · have hStarted := accounted.started
    unfold Outline.conclude
    dsimp only
    rw [List.countP_append]
    exact hStarted
  · intro fair
    have hAnnounced := accounted.announced fair
    have hOver : ∀ counts : Effect → Bool,
        (o.conclude id infoHash accepted).reports.countP counts = o.reports.countP counts +
          [Effect.notice (.announced infoHash accepted)].countP counts := fun _ =>
      List.countP_append
    rw [hOver, hOver, List.length_append]
    rw [List.length_append] at hAnnounced
    change _ + 0 = _ + (_ + 1)
    omega

theorem drift (accounted : Accounted asked due o) (drift : Drift asked o p) :
    Accounted asked due p := by
  induction drift with
  | refl => exact accounted
  | launch purpose _ wanted ih =>
    apply ih.launch
    rcases wanted with queued | wanted
    · exact accounted.asked_queued purpose queued
    · exact wanted
  | queue purpose _ wanted ih =>
    refine ⟨ih.distinct, ih.numbered, ih.started, ih.asked_lookups, ?_, ih.apart, ih.ended,
      ih.announced⟩
    intro other member
    rcases List.mem_append.mp member with before | now
    · exact ih.asked_queued other before
    · rw [List.mem_singleton.mp now]
      exact wanted
  | unqueue _ ih =>
    refine ⟨ih.distinct, ih.numbered, ih.started, ih.asked_lookups, ?_, ih.apart, ih.ended,
      ih.announced⟩
    intro other member
    cases member
  | conclude id infoHash accepted _ going ih => exact ih.conclude going

theorem begun (accounted : Accounted asked due o)
    (ours : ∀ purpose : Purpose, purpose.Fair → asked purpose) (begun : Begun asked o p) :
    Accounted asked due p := by
  cases begun with
  | going => exact accounted
  | alone _ drift => exact (accounted.elsewhere ..).drift drift
  | searching =>
    apply (accounted.elsewhere ..).launch
    apply ours
    intro announce
    cases announce

/-- The end of a lookup is reported, and if an announcement is to follow, it is due. -/
theorem finish {purpose : Purpose} (accounted : Accounted asked [] o) (target : NodeId)
    (kind : LookupKind) (member : (id, purpose) ∈ o.lookups) :
    Accounted asked (if purpose.announce then [id] else [])
      (o.finish id target kind purpose.announce) := by
  have hMember : id ∈ o.lookups.map (·.1) := List.mem_map.mpr ⟨_, member, rfl⟩
  have hFewer : o.lookups.length = (o.lookups.filter (·.1 ≠ id)).length + 1 :=
    (perm_cons_filter_ne accounted.distinct member).length_eq
  have hKept : List.Sublist ((o.lookups.filter (·.1 ≠ id)).map (·.1)) (o.lookups.map (·.1)) :=
    List.filter_sublist.map _
  have hGone : id ∉ (o.lookups.filter (·.1 ≠ id)).map (·.1) := by
    intro again
    rcases List.mem_map.mp again with ⟨entry, listed, same⟩
    exact of_decide_eq_true (List.mem_filter.mp listed).2 same
  have hOver : ∀ counts : Effect → Bool,
      (o.finish id target kind purpose.announce).reports.countP counts = o.reports.countP counts +
        [Effect.notice (.lookupCompleted target kind purpose.announce)].countP counts := fun _ =>
    List.countP_append
  have hApart := accounted.apart
  have hEnded := accounted.ended
  have hAnnounced := accounted.announced
  rw [List.append_nil] at hApart hEnded hAnnounced
  refine ⟨accounted.distinct.sublist hKept, fun other kept =>
    accounted.numbered other (hKept.subset kept), ?_, fun entry kept =>
    accounted.asked_lookups entry (List.mem_filter.mp kept).1, accounted.asked_queued, ?_, ?_, ?_⟩
  · have hStarted := accounted.started
    rw [hOver]
    change o.started = (o.lookups.filter (·.1 ≠ id)).length + (_ + 1)
    omega
  · refine List.nodup_append.mpr ⟨hApart, ?_, ?_⟩
    · split
      · exact List.pairwise_singleton _ _
      · exact List.nodup_nil
    · intro other announced single due same
      split at due
      · rw [same, List.mem_singleton.mp due] at announced
        exact (hEnded id announced).2 hMember
      · cases due
  · intro other listed
    rcases List.mem_append.mp listed with announced | due
    · exact ⟨(hEnded other announced).1, fun kept => (hEnded other announced).2 (hKept.subset kept)⟩
    · split at due
      · rw [List.mem_singleton.mp due]
        exact ⟨accounted.numbered id hMember, hGone⟩
      · cases due
  · intro fair
    rw [hOver, hOver, hAnnounced fair, List.length_append]
    cases purpose.announce with
    | true =>
      change o.announces.length + _ + 1 = o.announces.length + 1 + (_ + 0)
      omega
    | false => rfl

theorem judged (accounted : Accounted asked due o) (judged : Judged asked id o p) :
    Accounted asked due p := by
  cases judged with
  | other => exact accounted
  | joined _ drift => exact (accounted.elsewhere ..).drift drift
  | failed _ drift => exact (accounted.elsewhere ..).drift drift

/-- Nothing is due any more when the results of a lookup were seen to. -/
theorem delivered {purpose : Purpose}
    (accounted : Accounted asked (if purpose.announce then [id] else []) o) (wanted : asked purpose)
    (delivered : Delivered asked id purpose o p) : Accounted asked [] p := by
  cases delivered with
  | reported silent =>
    have hKept : List.Sublist (o.announces ++ [])
        (o.announces ++ if purpose.announce then [id] else []) :=
      (List.nil_sublist _).append_left _
    refine ⟨accounted.distinct, accounted.numbered, accounted.started, accounted.asked_lookups,
      accounted.asked_queued, accounted.apart.sublist hKept, fun other listed =>
      accounted.ended other (hKept.subset listed), fun fair => ?_⟩
    have hAnnounced := accounted.announced fair
    rw [silent (fair purpose wanted)] at hAnnounced
    exact hAnnounced
  | announced announces drift =>
    rw [if_pos announces] at accounted
    have hBegun : Accounted asked [] { o with announces := o.announces ++ [id] } := by
      refine ⟨accounted.distinct, accounted.numbered, accounted.started, accounted.asked_lookups,
        accounted.asked_queued, ?_, ?_, ?_⟩
      · rw [List.append_nil]
        exact accounted.apart
      · rw [List.append_nil]
        exact accounted.ended
      · rw [List.append_nil]
        exact accounted.announced
    exact hBegun.drift drift

theorem finished (accounted : Accounted asked [] o) (finished : Finished asked id o p) :
    Accounted asked [] p := by
  cases finished with
  | absent => exact accounted
  | wrapped target kind purpose member judged delivered =>
    exact ((accounted.finish target kind member).judged judged).delivered
      (accounted.asked_lookups _ member) delivered

theorem turn (accounted : Accounted asked [] o)
    (ours : ∀ purpose : Purpose, purpose.Fair → asked purpose) (turn : Turn asked o p) :
    Accounted asked [] p := by
  cases turn with
  | drift drift => exact accounted.drift drift
  | finish id finished => exact accounted.finished finished
  | retry later _ begun => exact (accounted.elsewhere ..).begun ours begun
  | rejoin _ begun => exact (accounted.elsewhere ..).begun ours begun

end Accounted

end Outline

namespace LocalNode

open Outline (Accounted)

/-- The purposes of all lookups while some events happen: what the application asks for, and what
the node itself may look for. -/
def Asked (events : List (Surroundings × Event)) (purpose : Purpose) : Prop :=
  purpose.Fair ∨ ∃ event ∈ events, ∃ request : LookupRequest,
    event.2 = .command (.lookup request) ∧ request.purpose = purpose

theorem fair_of_asked {events : List (Surroundings × Event)} {purpose : Purpose}
    (offered : ∀ event ∈ events, event.2.Offered) (asked : Asked events purpose) :
    purpose.Fair := by
  rcases asked with fair | ⟨event, member, request, same, rfl⟩
  · exact fair
  · have hOffered := offered event member
    rw [same] at hOffered
    exact hOffered

theorem accounted_start (asked : Purpose → Prop) (options : Options) (localAddress : Address)
    (now : Instant) (secrets : Draws (BitVec 32)) (firstTransaction : TransactionId) :
    Accounted asked [] ((start options localAddress now secrets firstTransaction).outline []) := by
  refine ⟨List.nodup_nil, ?_, rfl, ?_, ?_, List.nodup_nil, ?_, fun _ => rfl⟩
  all_goals
    intro _ member
    cases member

theorem accounted_run (options : Options) (localAddress : Address) (now : Instant)
    (secrets : Draws (BitVec 32)) (firstTransaction : TransactionId)
    (events : List (Surroundings × Event))
    (running : ((start options localAddress now secrets firstTransaction).run events).2.running) :
    Accounted (Asked events) []
      (((start options localAddress now secrets firstTransaction).run events).2.outline
        ((start options localAddress now secrets firstTransaction).run events).1) := by
  have hStart := accounted_start (Asked events) options localAddress now secrets firstTransaction
  refine (keep_advance (Accounted (Asked events) []) ?_ ([], _) running).2 hStart
  rintro past ⟨env, event⟩ member going accounted
  have hOurs : ∀ purpose : Purpose, purpose.Fair → Asked events purpose := fun _ fair => .inl fair
  have hTurn : ∀ {o p : Outline}, Outline.Turn (Asked events) o p → Accounted (Asked events) [] o →
      Accounted (Asked events) [] p := fun turn accounted => accounted.turn hOurs turn
  by_cases order : event = .command .startBootstrap
  · rcases order with rfl
    rcases begun_step past.1 going with ⟨begun, begins, turns⟩
    exact turns.keep hTurn (accounted.begun hOurs begins)
  · refine (turns_step hOurs past.1 going order fun request same => ?_).keep hTurn accounted
    exact .inr ⟨_, member, request, same, rfl⟩

theorem countP_reports {counts : Effect → Bool} (history : List Effect)
    (shows : ∀ effect, counts effect = true → effect.isOver = true) :
    (history.filter Effect.isOver).countP counts = history.countP counts := by
  rw [List.countP_filter]
  apply List.countP_congr
  intro effect _
  rw [Bool.and_eq_true]
  exact and_iff_left_of_imp (shows effect)

theorem isOver_of_isCompletion (effect : Effect) (completes : effect.isCompletion = true) :
    effect.isOver = true := by
  rw [Effect.isOver, completes, Bool.true_or]

theorem isOver_of_isAnnouncingCompletion (effect : Effect)
    (completes : effect.isAnnouncingCompletion = true) : effect.isOver = true := by
  unfold Effect.isAnnouncingCompletion at completes
  split at completes
  · rfl
  · cases completes

theorem isOver_of_isAnnounced (effect : Effect) (ends : effect.isAnnounced = true) :
    effect.isOver = true := by
  rw [Effect.isOver, ends, Bool.or_true]

/-- Each lookup that was started is in progress, or was reported to be over. -/
def LookupsComplete (last : List Effect × LocalNode) : Prop :=
  last.2.lookupCount = last.2.lookups.length + last.1.countP Effect.isCompletion

/-- Each lookup that is over was followed by its announcement, if one was to follow.  The
announcement is in progress, or was reported to be over. -/
def AnnouncesComplete (last : List Effect × LocalNode) : Prop :=
  last.1.countP Effect.isAnnouncingCompletion =
    last.2.announces.length + last.1.countP Effect.isAnnounced

/-- While a node is running, no lookup and no announcement gets lost or is reported twice. -/
theorem completed_of_run (options : Options) (localAddress : Address) (now : Instant)
    (secrets : Draws (BitVec 32)) (firstTransaction : TransactionId)
    (events : List (Surroundings × Event))
    (running : ((start options localAddress now secrets firstTransaction).run events).2.running) :
    LookupsComplete ((start options localAddress now secrets firstTransaction).run events) ∧
      ((∀ event ∈ events, event.2.Offered) →
        AnnouncesComplete
          ((start options localAddress now secrets firstTransaction).run events)) := by
  have hAccounted := accounted_run options localAddress now secrets firstTransaction events running
  generalize (start options localAddress now secrets firstTransaction).run events = last
    at hAccounted ⊢
  have hStarted := hAccounted.started
  have hAnnounced := hAccounted.announced
  unfold outline at hStarted hAnnounced
  dsimp only at hStarted hAnnounced
  rw [List.length_map, countP_reports _ isOver_of_isCompletion] at hStarted
  rw [countP_reports _ isOver_of_isAnnouncingCompletion, countP_reports _ isOver_of_isAnnounced,
    List.append_nil, List.length_map] at hAnnounced
  exact ⟨hStarted, fun offered => hAnnounced fun _ => fair_of_asked offered⟩

/-- The datagram in which a node answers a query. -/
def answering (number : UInt16) (response : Response) : Event :=
  .datagram ⟨.v4 1, 1⟩
    (Message.ofBody (TransactionId.mk number).toBytes (.response response)).encode

/-- A node joins through another one and searches for nodes near it, and for the peers of its
network.  The other answers the second search and takes the announcement that follows, but it does
not answer the first search, which is given up, nor the one that is begun then. -/
def acquaintance : List (Surroundings × Event) :=
  [(.reliable 0, .command .startBootstrap),
    (.reliable 0, answering 0 { sender := ⟨8⟩ }),
    (.reliable 0, .command (.joinNetwork ⟨0⟩)),
    (.reliable 0, answering 2 { sender := ⟨8⟩, values := [⟨.v4 3, 3⟩], token := some [7] }),
    (.reliable 0, answering 3 { sender := ⟨8⟩ }),
    (.reliable 2000, .wake),
    (.reliable 2000, .command (.lookup ⟨.zero, .findNode, false, .contacts ⟨0⟩⟩))]

/-- What the node has done, and what has become of it. -/
def acquainted : List Effect × LocalNode :=
  (start { id := .zero, networkHash := some .zero, startingNodes := [⟨.v4 1, 1⟩] } ⟨.v4 2, 2⟩ 0
    default ⟨0⟩).run acquaintance

theorem completed_of_acquainted :
    acquainted.2.lookupCount = 4 ∧ acquainted.2.lookups.length = 1 ∧
      acquainted.1.countP Effect.isAnnounced = 1 ∧
      LookupsComplete acquainted ∧ AnnouncesComplete acquainted := by
  have hCompleted := completed_of_run
    { id := .zero, networkHash := some .zero, startingNodes := [⟨.v4 1, 1⟩] } ⟨.v4 2, 2⟩ 0
    default ⟨0⟩ acquaintance (by decide +kernel)
  refine ⟨by decide +kernel, by decide +kernel, by decide +kernel, hCompleted.1, hCompleted.2 ?_⟩
  simp [acquaintance, answering, Event.Offered, LookupRequest.purpose, Purpose.Fair]

end LocalNode
end Kademlia
