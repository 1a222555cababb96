import Kademlia.Proofs.Announce.FanOut
import Kademlia.Proofs.LocalNode.Announcing
import Kademlia.Proofs.LocalNode.Views
import Kademlia.Proofs.Lookup.Remainder

namespace Kademlia

/-!
# Driving on comes to an end

A lookup is driven on in a loop: it decides what to do, sends its queries, and decides again if none
of them got out.  Announcements are driven on likewise.  Nothing in the loops bounds them, since it
is not theirs to say what gets out.  But every turn after which a loop goes on has used up
something: a candidate that was not asked before, or the seeds, or a node that was not chosen
before.  Neither a failure nor a change of the last round gives any of this back.  So a loop stops
after as many turns as there is to use up, and one more, whatever becomes of the queries and however
many rounds are allowed (`rests_of_driving`).
-/

/-- A loop stops after a number of turns.  Every turn says whether the loop goes on. -/
inductive Stops {σ : Type} (turn : σ → Bool × σ) : Nat → σ → σ → Prop
  | last {s t : σ} (ends : turn s = (false, t)) : Stops turn 1 s t
  | again {turns : Nat} {s next t : σ} (goes_on : turn s = (true, next))
    (rest : Stops turn turns next t) : Stops turn (turns + 1) s t

/-- What comes of a turn: the loop goes on with less left, or it has come to rest. -/
inductive Turned {σ : Type} (allows : Nat → σ → Prop) (rests : σ → Prop) (left : Nat) :
    Bool × σ → Prop
  | on {less : Nat} {next : σ} (below : less < left) (allowed : allows less next) :
    Turned allows rests left (true, next)
  | off {t : σ} (ended : rests t) : Turned allows rests left (false, t)

namespace Stops

variable {σ : Type} {turn : σ → Bool × σ} {turns count left : Nat} {s t : σ}

/-- A loop stops if there is less left whenever it goes on. -/
theorem exists_of_turned {allows : Nat → σ → Prop} {rests : σ → Prop}
    (turned : ∀ left s, allows left s → Turned allows rests left (turn s)) (start : allows left s) :
    ∃ turns ≤ left + 1, ∃ t, Stops turn turns s t ∧ rests t := by
  induction left using Nat.strongRecOn generalizing s with
  | ind left ih =>
    have hTurned := turned left s start
    generalize result : turn s = outcome at hTurned
    cases hTurned with
    | @on less next below allowed =>
      rcases ih less below allowed with ⟨turns, few, t, stops, ended⟩
      exact ⟨turns + 1, Nat.succ_le_succ (Nat.le_trans few below), t, .again result stops, ended⟩
    | @off t ended => exact ⟨1, Nat.le_add_left 1 left, t, .last result, ended⟩

/-- A loop that is cut off after enough turns has come to its end by itself. -/
theorem eq_of_enough {loop : Nat → σ → σ}
    (unfolds : ∀ count s, loop (count + 1) s =
      bif (turn s).1 then loop count (turn s).2 else (turn s).2)
    (stops : Stops turn turns s t) (enough : turns ≤ count) : loop count s = t := by
  induction stops generalizing count with
  | last ends =>
    rcases Nat.exists_eq_add_of_le' enough with ⟨count, rfl⟩
    rw [unfolds, ends]
    rfl
  | again goes_on rest ih =>
    rcases Nat.exists_eq_add_of_le' (Nat.le_trans (Nat.le_add_left 1 _) enough) with ⟨count, rfl⟩
    rw [unfolds, goes_on]
    exact ih (Nat.le_of_succ_le_succ enough)

end Stops

/-- A lookup as it can be: started for whatever it was, and called for whatever it was since. -/
def Lookup.Reached (l : Lookup) : Prop :=
  ∃ target kind announce concurrency maxRounds contacts seeds calls,
    ((start target kind announce concurrency maxRounds contacts seeds).run calls).2 = l

theorem Lookup.reached_start (target : NodeId) (kind : LookupKind) (announce : Bool)
    (concurrency maxRounds : Nat) (contacts : List Contact) (seeds : List Destination) :
    (start target kind announce concurrency maxRounds contacts seeds).Reached :=
  ⟨target, kind, announce, concurrency, maxRounds, contacts, seeds, [], rfl⟩

theorem Lookup.Reached.sorted {l : Lookup} (reached : l.Reached) : l.Sorted := by
  rcases reached with ⟨target, kind, announce, concurrency, maxRounds, contacts, seeds, calls, rfl⟩
  have hTracked :=
    (Tracked.start target kind announce concurrency maxRounds contacts seeds).run calls
  rcases hTracked.recorded with ⟨all, recorded⟩
  exact recorded.sorted_candidates

/-- An announcement as it is between events: its nodes are distinct, and every one that was picked
has been asked or has failed since. -/
def Announce.Orderly (a : Announce) : Prop :=
  ∃ infoHash targets port moves, (targets.map (·.1)).Nodup ∧ Run infoHash targets port moves a ∧
    ∀ contact, ¬ Unsent moves contact

theorem Announce.Orderly.nodup {a : Announce} (orderly : a.Orderly) :
    (a.targets.map (·.contact)).Nodup := by
  rcases orderly with ⟨infoHash, targets, port, moves, distinct, run, -⟩
  rw [(run.tracked distinct).contacts]
  exact distinct

theorem Announce.Orderly.picked {a : Announce} (orderly : a.Orderly) : LocalNode.Picked a [] := by
  rcases orderly with ⟨infoHash, targets, port, moves, distinct, run, sent⟩
  refine ⟨List.nodup_nil, nofun, ?_⟩
  intro target member is_picked
  have hFits := (run.tracked distinct).fits target member
  rw [is_picked] at hFits
  exact absurd hFits (sent target.contact)

theorem Announce.orderly_start {targets : List (Contact × Bytes)} (infoHash : InfoHash)
    (port : Option UInt16) (distinct : (targets.map (·.1)).Nodup) :
    (start infoHash targets port).Orderly := by
  refine ⟨infoHash, targets, port, [], distinct, .start, ?_⟩
  intro contact unsent
  exact List.not_mem_nil unsent.1

namespace LocalNode

variable {env : Surroundings} {id : LookupId} {n : LocalNode} {completed : List LookupId}
  {left less : Nat} {query : Query} {change : Lookup → Lookup} {orderly : Prop}
  {picked : List Contact}

/-- What the loops go by. -/
def searching (n : LocalNode) :
    List (LookupId × ActiveLookup) × List (LookupId × ActiveAnnounce) × List LookupId :=
  (n.lookups, n.announces, n.completed)

theorem overlooks_searching : Overlooks searching fun _ => True :=
  fun _ _ _ => rfl

theorem searching_sendQuery (n : LocalNode) (destination : Destination) (nodeId : Option NodeId)
    (query : Query) (owner : Owner) :
    (n.sendQuery env destination nodeId query owner).2.searching = n.searching :=
  overlooks_searching.sendQuery (fun _ _ _ _ => trivial) (fun _ _ _ _ _ => rfl) n destination nodeId
    query owner

/-! ## Lookups -/

/-- One turn of driving a lookup on. -/
def lookupTurn (env : Surroundings) (id : LookupId) (n : LocalNode) : Bool × LocalNode :=
  match n.lookups.lookup id with
  | none => (false, n)
  | some active =>
    let (step, lookup) := active.lookup.step
    let n := n.modifyLookup id fun _ => lookup
    match step with
    | .wait => (false, n)
    | .done => (false, { n with completed := id :: n.completed })
    | .query targets => (true, targets.foldl (queryTarget env id (active.lookup.query n.id)) n)

theorem driveSteps_succ (count : Nat) (n : LocalNode) :
    n.driveSteps env id (count + 1) =
      bif (n.lookupTurn env id).1 then (n.lookupTurn env id).2.driveSteps env id count
      else (n.lookupTurn env id).2 := by
  rw [driveSteps, lookupTurn]
  cases n.lookups.lookup id with
  | none => rfl
  | some active =>
    dsimp only
    generalize active.lookup.step = result
    rcases result with ⟨step, lookup⟩
    cases step <;> rfl

/-- The lookup is in progress and can go on for no more than a number of rounds. -/
structure Seeking (id : LookupId) (completed : List LookupId) (left : Nat) (n : LocalNode) :
    Prop where
  entered : ∃ active, n.lookups.lookup id = some active ∧ active.lookup.Sorted ∧
    active.lookup.budget ≤ left
  completed : n.completed = completed

theorem lookup_modifyLookup {active : ActiveLookup} (entered : n.lookups.lookup id = some active)
    (change : Lookup → Lookup) : (n.modifyLookup id change).lookups.lookup id =
      some { active with lookup := change active.lookup } := by
  have hLookup := @lookup_modifyFirst LookupId ActiveLookup _ n.lookups id id
    fun active => { active with lookup := change active.lookup }
  rw [if_pos rfl, entered] at hLookup
  exact hLookup

theorem Seeking.modifyLookup (seeking : Seeking id completed left n)
    (keeps : ∀ l : Lookup, l.Sorted → l.budget ≤ left →
      (change l).Sorted ∧ (change l).budget ≤ less) :
    Seeking id completed less (n.modifyLookup id change) := by
  rcases seeking with ⟨⟨active, entered, sorted, few⟩, same⟩
  exact ⟨⟨_, lookup_modifyLookup entered change, keeps active.lookup sorted few⟩, same⟩

/-- A query that did not get out has used up what it was for, like one that did. -/
theorem Seeking.queryTarget (seeking : Seeking id completed left n)
    (target : Destination × Option NodeId) :
    Seeking id completed left (n.queryTarget env id query target) := by
  unfold LocalNode.queryTarget
  have hSame := @searching_sendQuery env n target.1 target.2 query (.lookup id)
  generalize n.sendQuery env target.1 target.2 query (.lookup id) = sent at hSame ⊢
  rcases sent with ⟨transaction, m⟩
  have hSeeking : Seeking id completed left m := by
    refine ⟨?_, (congrArg (·.2.2) hSame).trans seeking.completed⟩
    rw [show m.lookups = n.lookups from congrArg (·.1) hSame]
    exact seeking.entered
  cases transaction with
  | some transaction =>
    apply hSeeking.modifyLookup
    intro l sorted few
    exact ⟨sorted.of_eq rfl rfl, few⟩
  | none =>
    apply hSeeking.modifyLookup
    intro l sorted few
    cases target.2 with
    | none => exact ⟨sorted, few⟩
    | some nodeId => exact ⟨sorted.setState, Nat.le_trans (Lookup.budget_setState_le nofun) few⟩

theorem Seeking.queryTargets (seeking : Seeking id completed left n)
    (targets : List (Destination × Option NodeId)) :
    Seeking id completed left (targets.foldl (LocalNode.queryTarget env id query) n) := by
  induction targets generalizing n with
  | nil => exact seeking
  | cons target targets ih => exact ih (seeking.queryTarget target)

/-- The lookup waits for an answer, or it is done and has been put aside. -/
def LookupAtRest (id : LookupId) (completed : List LookupId) (n : LocalNode) : Prop :=
  ∃ active, n.lookups.lookup id = some active ∧
    (active.lookup.pending ≠ [] ∧ n.completed = completed ∨
      active.lookup.isDone = true ∧ n.completed = id :: completed)

/-- A lookup goes on with fewer rounds left. -/
theorem Seeking.turned (seeking : Seeking id completed left n) :
    Turned (Seeking id completed) (LookupAtRest id completed) left (n.lookupTurn env id) := by
  rcases seeking with ⟨⟨active, entered, sorted, few⟩, same⟩
  have hStep := Lookup.step_result sorted
  rw [LocalNode.lookupTurn, entered]
  dsimp only
  generalize active.lookup.step = result at hStep ⊢
  cases hStep with
  | wait waits =>
    have hNow := lookup_modifyLookup entered fun _ => active.lookup
    exact .off ⟨_, hNow, .inl ⟨waits, same⟩⟩
  | @done next _ isDone =>
    have hNow := lookup_modifyLookup entered fun _ => next
    exact .off ⟨_, hNow, .inr ⟨isDone, congrArg (id :: ·) same⟩⟩
  | @query targets next _ _ sorted_next fewer =>
    have hNow := lookup_modifyLookup entered fun _ => next
    apply Turned.on (Nat.lt_of_lt_of_le fewer few)
    apply Seeking.queryTargets
    exact ⟨⟨_, hNow, sorted_next, Nat.le_refl _⟩, same⟩

/-- However its queries fare, a lookup comes to wait for an answer or is put aside. -/
theorem driveLookup_stops {active : ActiveLookup} (env : Surroundings)
    (entered : n.lookups.lookup id = some active) (sorted : active.lookup.Sorted) :
    ∃ turns ≤ active.lookup.candidates.countP (·.state = .fresh) + 2,
      Stops (lookupTurn env id) turns n (n.driveLookup env id) ∧
        LookupAtRest id n.completed (n.driveLookup env id) := by
  have hStart : Seeking id n.completed active.lookup.budget n :=
    ⟨⟨active, entered, sorted, Nat.le_refl _⟩, rfl⟩
  rcases Stops.exists_of_turned (fun _ _ seeking => seeking.turned) hStart with
    ⟨turns, few, last, stops, rests⟩
  have hFew : turns ≤ active.lookup.candidates.countP (·.state = .fresh) + 2 :=
    Nat.le_trans few active.lookup.budget_lt
  have hLast : n.driveLookup env id = last := by
    rw [driveLookup, entered]
    exact stops.eq_of_enough driveSteps_succ hFew
  rw [hLast]
  exact ⟨turns, hFew, stops, rests⟩

/-! ## Announcements -/

/-- One turn of driving an announcement on. -/
def announceTurn (env : Surroundings) (id : LookupId) (n : LocalNode) : Bool × LocalNode :=
  match n.announces.lookup id with
  | none => (false, n)
  | some active =>
    let (picks, announce) := active.announce.pick n.id
    if picks.isEmpty then (false, n)
    else (true, picks.foldl (announceTo env id) (n.modifyAnnounce id fun _ => announce))

theorem announceRounds_succ (count : Nat) (n : LocalNode) :
    n.announceRounds env id (count + 1) =
      bif (n.announceTurn env id).1 then (n.announceTurn env id).2.announceRounds env id count
      else (n.announceTurn env id).2 := by
  rw [announceRounds, announceTurn]
  cases n.announces.lookup id with
  | none => rfl
  | some active =>
    dsimp only
    cases (active.announce.pick n.id).1.isEmpty <;> rfl

/-- The announcement is in progress, with no more than a number of nodes to choose from.  If it is
an orderly one, the nodes of the list are those that were chosen and are to be told. -/
def Telling (id : LookupId) (orderly : Prop) (picked : List Contact) (left : Nat) (n : LocalNode) :
    Prop :=
  ∃ active, n.announces.lookup id = some active ∧ active.announce.count (· = .unused) ≤ left ∧
    (orderly → (active.announce.targets.map (·.contact)).Nodup ∧ Picked active.announce picked)

theorem lookup_modifyAnnounce {active : ActiveAnnounce}
    (entered : n.announces.lookup id = some active) (change : Announce → Announce) :
    (n.modifyAnnounce id change).announces.lookup id =
      some { active with announce := change active.announce } := by
  have hLookup := @lookup_modifyFirst LookupId ActiveAnnounce _ n.announces id id
    fun active => { active with announce := change active.announce }
  rw [if_pos rfl, entered] at hLookup
  exact hLookup

/-- A chosen node is told, or cannot be. -/
theorem Telling.setState {contact : Contact} {state : TargetState}
    (telling : Telling id orderly (contact :: picked) left n) (unpicked : state ≠ .picked)
    (used : state ≠ .unused) :
    Telling id orderly picked left (n.modifyAnnounce id (·.setState contact state)) := by
  rcases telling with ⟨active, entered, few, told⟩
  refine ⟨_, lookup_modifyAnnounce entered _, ?_, ?_⟩
  · exact Nat.le_trans (Announce.count_unused_setState_le used) few
  · intro holds
    rcases told holds with ⟨distinct, chosen⟩
    refine ⟨?_, chosen.tail distinct unpicked⟩
    dsimp only
    rw [Announce.contacts_setState]
    exact distinct

theorem Telling.announceTo {pick : Contact × Query}
    (telling : Telling id orderly (pick.1 :: picked) left n) :
    Telling id orderly picked left (n.announceTo env id pick) := by
  unfold LocalNode.announceTo
  have hSame := @searching_sendQuery env n pick.1.address (some pick.1.id) pick.2 (.announce id)
  generalize n.sendQuery env pick.1.address (some pick.1.id) pick.2 (.announce id) = sent
    at hSame ⊢
  rcases sent with ⟨transaction, m⟩
  have hTelling : Telling id orderly (pick.1 :: picked) left m := by
    unfold Telling
    rw [show m.announces = n.announces from congrArg (·.2.1) hSame]
    exact telling
  cases transaction with
  | some transaction => exact hTelling.setState nofun nofun
  | none => exact hTelling.setState nofun nofun

theorem Telling.announceAll {picks : List (Contact × Query)}
    (telling : Telling id orderly (picks.map (·.1)) left n) :
    Telling id orderly [] left (picks.foldl (LocalNode.announceTo env id) n) := by
  induction picks generalizing n with
  | nil => exact telling
  | cons pick picks ih => exact ih telling.announceTo

/-- Nobody is left to choose, and if the announcement is an orderly one, everybody was told. -/
def ToldAll (id : LookupId) (orderly : Prop) (n : LocalNode) : Prop :=
  ∃ active, n.announces.lookup id = some active ∧ (active.announce.pick n.id).1 = [] ∧
    (orderly → Picked active.announce [])

theorem Telling.turned (telling : Telling id orderly [] left n) :
    Turned (Telling id orderly []) (ToldAll id orderly) left (n.announceTurn env id) := by
  rcases telling with ⟨active, entered, few, told⟩
  rw [LocalNode.announceTurn, entered]
  dsimp only
  split
  next nobody =>
    exact .off ⟨active, entered, List.isEmpty_iff.mp nobody, fun holds => (told holds).2⟩
  next somebody =>
    have hPicked : (active.announce.pick n.id).1 ≠ [] := by
      intro nobody
      exact somebody (List.isEmpty_iff.mpr nobody)
    apply Turned.on (Nat.lt_of_lt_of_le (Announce.count_pick_lt hPicked) few)
    apply Telling.announceAll
    refine ⟨_, lookup_modifyAnnounce entered _, Nat.le_refl _, ?_⟩
    intro holds
    rcases told holds with ⟨distinct, chosen⟩
    refine ⟨?_, chosen.pick distinct⟩
    dsimp only
    rw [Announce.contacts_pick]
    exact distinct

theorem lookup_completeAnnounce {active : ActiveAnnounce}
    (entered : n.announces.lookup id = some active) :
    (n.completeAnnounce id).announces.lookup id = none := by
  have hAnnounces : (n.completeAnnounce id).announces = n.announces.filter (·.1 ≠ id) := by
    rw [completeAnnounce, entered]
    exact congrArg (·.2.1) (overlooks_searching.endStream (fun _ => trivial) _ active.stream)
  rw [hAnnounces, lookup_filter_ne, if_pos rfl]

/-- When the loop has stopped, the announcement waits for a node, or it is wrapped up and gone. -/
def AnnounceAtRest (id : LookupId) (last n : LocalNode) : Prop :=
  n = last ∧ (∃ active, n.announces.lookup id = some active ∧
      ∃ target ∈ active.announce.targets, target.state.isInFlight = true) ∨
    n = last.completeAnnounce id ∧ n.announces.lookup id = none

/-- However its queries fare, an announcement comes to wait for a node or is over; if it is an
orderly one, it waits for an answer. -/
theorem continueAnnounce_stops {active : ActiveAnnounce} (env : Surroundings)
    (entered : n.announces.lookup id = some active) :
    ∃ turns ≤ active.announce.count (· = .unused) + 1, ∃ last,
      Stops (announceTurn env id) turns n last ∧
        AnnounceAtRest id last (n.continueAnnounce env id) ∧
        (active.announce.Orderly → ∀ after,
          (n.continueAnnounce env id).announces.lookup id = some after → Waits after.announce) := by
  have hStart : Telling id active.announce.Orderly [] (active.announce.count (· = .unused)) n :=
    ⟨active, entered, Nat.le_refl _, fun orderly => ⟨orderly.nodup, orderly.picked⟩⟩
  rcases Stops.exists_of_turned (fun _ _ telling => telling.turned) hStart with
    ⟨turns, few, last, stops, after, found, nobody, told⟩
  have hRounds : n.announceRounds env id (active.announce.count (· = .unused) + 1) = last :=
    stops.eq_of_enough announceRounds_succ few
  have hContinue : n.continueAnnounce env id =
      if after.announce.progress = .completed then last.completeAnnounce id else last := by
    rw [continueAnnounce, entered]
    dsimp only
    rw [hRounds, found]
  refine ⟨turns, few, last, stops, ?_⟩
  rw [hContinue]
  cases progress : after.announce.progress with
  | completed =>
    have hGone := lookup_completeAnnounce found
    rw [if_pos rfl, hGone]
    exact ⟨.inr ⟨rfl, hGone⟩, fun _ _ still => absurd still (Option.some_ne_none _).symm⟩
  | ongoing =>
    have hOngoing : Progress.ongoing ≠ .completed := by
      decide
    have hFlies := Announce.inFlight_of_ongoing progress nobody
    rw [if_neg hOngoing, found]
    refine ⟨.inl ⟨rfl, after, found, hFlies⟩, ?_⟩
    intro orderly other same
    cases same
    exact (told orderly).waits hFlies

/-! ## Coming to rest -/

/-- Whatever gets out, the loop that drives a lookup on stops after at most two turns more than it
has candidates that were not asked, and then the lookup waits for an answer or has been put aside;
and the loop that drives an announcement on stops after at most one turn more than it has nodes that
were not chosen, and then the announcement waits for a node or is over.  It waits for an answer if
it is an orderly one, as those are that begin with what a lookup has found. -/
theorem rests_of_driving (env : Surroundings) (n : LocalNode) (id : LookupId) :
    (∀ active, n.lookups.lookup id = some active → active.lookup.Reached →
      ∃ turns ≤ active.lookup.candidates.countP (·.state = .fresh) + 2,
        Stops (lookupTurn env id) turns n (n.driveLookup env id) ∧
          LookupAtRest id n.completed (n.driveLookup env id)) ∧
    (∀ active, n.announces.lookup id = some active →
      ∃ turns ≤ active.announce.count (· = .unused) + 1, ∃ last,
        Stops (announceTurn env id) turns n last ∧
          AnnounceAtRest id last (n.continueAnnounce env id) ∧
          (active.announce.Orderly → ∀ after,
            (n.continueAnnounce env id).announces.lookup id = some after →
            Waits after.announce)) ∧
    ∀ l : Lookup, l.Reached → ∀ infoHash port,
      (Announce.start infoHash l.finish.announceTargets port).Orderly := by
  refine ⟨?_, ?_, ?_⟩
  · intro active entered reached
    exact driveLookup_stops env entered reached.sorted
  · intro active entered
    exact continueAnnounce_stops env entered
  · intro l reached infoHash port
    exact Announce.orderly_start infoHash port reached.sorted.nodup_announceTargets

/-- Nothing gets out. -/
def cutOff : Surroundings :=
  ⟨0, fun _ _ => false, fun _ => [], .asSent⟩

/-- Two nodes that can be told. -/
def pair : List (Contact × Bytes) :=
  [(⟨.zero, ⟨.v4 1, 1⟩⟩, []), (⟨.zero, ⟨.v4 2, 1⟩⟩, [])]

/-- A lookup among two nodes and an address to join through, with a million rounds. -/
def patient : Lookup :=
  .start .zero .getPeers true 1 1000000 [⟨⟨1⟩, ⟨.v4 1, 1⟩⟩, ⟨⟨2⟩, ⟨.v4 2, 1⟩⟩] [⟨⟨.v4 3, 1⟩, 0⟩]

def busy : LocalNode :=
  { start { id := .zero } ⟨.v4 9, 9⟩ 0 default ⟨0⟩ with
    lookups := [(⟨0⟩, ⟨patient, .nowhere⟩)]
    announces := [(⟨1⟩, ⟨.start .zero pair none, none⟩)] }

/-- Neither a lookup nor an announcement goes on for ever when nothing gets out. -/
theorem rests_of_cutOff :
    (∃ turns ≤ 4, Stops (lookupTurn cutOff ⟨0⟩) turns busy (busy.driveLookup cutOff ⟨0⟩) ∧
      LookupAtRest ⟨0⟩ [] (busy.driveLookup cutOff ⟨0⟩)) ∧
    ∃ turns ≤ 3, ∃ last, Stops (announceTurn cutOff ⟨1⟩) turns busy last ∧
      AnnounceAtRest ⟨1⟩ last (busy.continueAnnounce cutOff ⟨1⟩) ∧
      ∀ after, (busy.continueAnnounce cutOff ⟨1⟩).announces.lookup ⟨1⟩ = some after →
        Waits after.announce := by
  have hReached : patient.Reached :=
    Lookup.reached_start ..
  have hFresh : patient.candidates.countP (·.state = .fresh) = 2 := by
    decide +kernel
  have hDistinct : (pair.map (·.1)).Nodup := by
    decide +kernel
  have hOrderly := Announce.orderly_start .zero none hDistinct
  constructor
  · have hRests := (rests_of_driving cutOff busy ⟨0⟩).1 ⟨patient, .nowhere⟩ rfl hReached
    rw [hFresh] at hRests
    exact hRests
  · rcases (rests_of_driving cutOff busy ⟨1⟩).2.1 ⟨.start .zero pair none, none⟩ rfl with
      ⟨turns, few, last, stops, rests, waits⟩
    exact ⟨turns, few, last, stops, rests, waits hOrderly⟩

end LocalNode
end Kademlia
