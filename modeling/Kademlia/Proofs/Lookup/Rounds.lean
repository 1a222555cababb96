import Kademlia.Proofs.Lookup

namespace Kademlia
namespace Lookup

/-!
A lookup in whatever order it is told of its queries.  The list of candidates is cut at sixty-four,
and a candidate that falls off it is forgotten, even that it was asked; so the list alone does not
say why nobody is asked twice.  The argument goes by the candidates that a lookup would have if it
never forgot one (`Recorded`): what it remembers is always the beginning of their list, since taking
up a candidate and marking one commute with cutting the list.  There the asked ones keep their
marks.
-/

variable {target : NodeId} {l next : Lookup} {all : List Candidate} {asked : List NodeId}
  {contact : Contact} {contacts : List Contact}

/-! ## The candidates that were ever taken up -/

/-- A candidate that is cut off makes no difference to those in front of it. -/
theorem take_insertCandidate_take (new : Candidate) (candidates : List Candidate) (n : Nat) :
    (insertCandidate target new (candidates.take n)).take n =
      (insertCandidate target new candidates).take n := by
  induction candidates generalizing n with
  | nil => rw [List.take_nil]
  | cons c rest ih =>
    cases n with
    | zero => rw [List.take_zero, List.take_zero]
    | succ n =>
      rw [List.take_succ_cons, insertCandidate, insertCandidate]
      split
      · rw [List.take_succ_cons, List.take_succ_cons, ih]
      · rw [List.take_succ_cons, List.take_succ_cons, List.take_take, Nat.min_self]
      · have hCut : (c :: rest.take n).take n = (c :: rest).take n := by
          rw [← List.take_succ_cons, List.take_take, Nat.min_eq_left (Nat.le_succ n)]
        rw [List.take_succ_cons, List.take_succ_cons, hCut]

theorem take_modifyFirst {α : Type} (meets : α → Bool) (change : α → α) (items : List α) (n : Nat) :
    (modifyFirst meets change items).take n = modifyFirst meets change (items.take n) := by
  induction items generalizing n with
  | nil => rw [List.take_nil, modifyFirst, List.take_nil]
  | cons item rest ih =>
    cases n with
    | zero => rw [List.take_zero, List.take_zero, modifyFirst]
    | succ n =>
      rw [List.take_succ_cons, modifyFirst, modifyFirst]
      split
      · rw [List.take_succ_cons]
      · rw [List.take_succ_cons, ih]

theorem mem_insertCandidate_of_mem {new c : Candidate} {candidates : List Candidate}
    (member : c ∈ candidates) : c ∈ insertCandidate target new candidates := by
  induction candidates with
  | nil => cases member
  | cons first rest ih =>
    rw [insertCandidate]
    split
    · rcases List.mem_cons.mp member with rfl | behind
      · exact List.mem_cons_self
      · exact List.mem_cons_of_mem _ (ih behind)
    · exact member
    · exact List.mem_cons_of_mem _ member

/-- Whether or not it was there before, the identifier is there afterwards. -/
theorem exists_mem_insertCandidate (target : NodeId) (new : Candidate)
    (candidates : List Candidate) :
    ∃ c ∈ insertCandidate target new candidates, c.contact.id = new.contact.id := by
  induction candidates with
  | nil => exact ⟨new, List.mem_singleton_self _, rfl⟩
  | cons first rest ih =>
    rw [insertCandidate]
    split
    · rcases ih with ⟨c, member, same⟩
      exact ⟨c, List.mem_cons_of_mem first member, same⟩
    next equal => exact ⟨first, List.mem_cons_self, NodeId.cmpDistance_eq_iff.mp equal⟩
    · exact ⟨new, List.mem_cons_self, rfl⟩

/-- A lookup remembers the beginning of all that it has taken up, where those that it has asked are
marked, and has asked each of them once. -/
structure Recorded (all : List Candidate) (asked : List NodeId) (l : Lookup) : Prop where
  remembered : l.candidates = all.take maxCandidates
  sorted : (all.map (·.contact.id)).Pairwise fun a b => l.target.cmpDistance a b = .lt
  marked : ∀ id ∈ asked, ∃ c ∈ all, c.contact.id = id ∧ c.state ≠ .fresh
  once : asked.Nodup

namespace Recorded

theorem distinct (recorded : Recorded all asked l) : (all.map (·.contact.id)).Nodup :=
  recorded.sorted.imp fun closer => NodeId.ne_of_cmpDistance_lt closer

theorem of_eq (recorded : Recorded all asked l) (candidates : next.candidates = l.candidates)
    (target : next.target = l.target) : Recorded all asked next where
  remembered := candidates.trans recorded.remembered
  sorted := by
    rw [target]
    exact recorded.sorted
  marked := recorded.marked
  once := recorded.once

/-- A candidate that is fresh has not been asked, nor has any other with its identifier. -/
theorem not_mem_of_fresh {c : Candidate} (recorded : Recorded all asked l)
    (candidate : c ∈ l.candidates) (fresh : c.state = .fresh) : c.contact.id ∉ asked := by
  rw [recorded.remembered] at candidate
  intro before
  rcases recorded.marked _ before with ⟨other, among, same, marked⟩
  rw [eq_of_nodup_map recorded.distinct among (List.mem_of_mem_take candidate) same] at marked
  exact marked fresh

theorem addCandidate (recorded : Recorded all asked l) :
    Recorded (insertCandidate l.target { contact } all) asked (l.addCandidate contact) where
  remembered := by
    unfold Lookup.addCandidate
    dsimp only
    rw [recorded.remembered, take_insertCandidate_take]
  sorted := sorted_insertCandidate { contact } recorded.sorted
  marked := by
    intro id before
    rcases recorded.marked id before with ⟨c, among, same, marked⟩
    exact ⟨c, mem_insertCandidate_of_mem among, same, marked⟩
  once := recorded.once

/-- A mark stays on a candidate unless it is changed to another one. -/
theorem mark {id : NodeId} (recorded : Recorded all asked l)
    (change : Candidate → Candidate) (keeps : ∀ c, (change c).contact = c.contact)
    (marks : ∀ c, (change c).state ≠ .fresh)
    (changed : next.candidates = modifyFirst (·.contact.id = id) change l.candidates)
    (target : next.target = l.target) :
    Recorded (modifyFirst (·.contact.id = id) change all) asked next where
  remembered := by
    rw [changed, recorded.remembered, take_modifyFirst]
  sorted := by
    have hIds : (modifyFirst (·.contact.id = id) change all).map (·.contact.id) =
        all.map (·.contact.id) := map_modifyFirst fun c _ => congrArg Contact.id (keeps c)
    rw [hIds, target]
    exact recorded.sorted
  marked := by
    intro other before
    rcases recorded.marked other before with ⟨c, among, rfl, marked⟩
    by_cases here : c.contact.id = id
    · refine ⟨change c, ?_, congrArg Contact.id (keeps c), marks c⟩
      exact (mem_modifyFirst_iff recorded.distinct).mpr (.inr ⟨c, among, here, rfl⟩)
    · exact ⟨c, (mem_modifyFirst_iff recorded.distinct).mpr (.inl ⟨among, here⟩), rfl, marked⟩
  once := recorded.once

theorem setState {id : NodeId} {state : CandidateState} (recorded : Recorded all asked l)
    (marks : state ≠ .fresh) : ∃ all, Recorded all asked (l.setState id state) :=
  ⟨_, recorded.mark ({ · with state := state }) (fun _ => rfl) (fun _ => marks) rfl rfl⟩

/-- A candidate is asked for the first time. -/
theorem ask {id : NodeId} (recorded : Recorded all asked l) (candidate : id ∈ l.candidateIds)
    (first : id ∉ asked) : ∃ all, Recorded all (asked ++ [id]) (l.setState id .queried) := by
  have hMarked : Recorded (modifyFirst (·.contact.id = id) ({ · with state := .queried }) all) asked
      (l.setState id .queried) :=
    recorded.mark ({ · with state := .queried }) (fun _ => rfl) (fun _ => by simp) rfl rfl
  refine ⟨_, hMarked.remembered, hMarked.sorted, ?_, ?_⟩
  · intro other before
    rcases List.mem_append.mp before with earlier | now
    · exact hMarked.marked other earlier
    · rcases List.mem_map.mp candidate with ⟨c, member, same⟩
      rw [recorded.remembered] at member
      refine ⟨_, (mem_modifyFirst_iff recorded.distinct).mpr
        (.inr ⟨c, List.mem_of_mem_take member, same, rfl⟩), ?_, by simp⟩
      rw [List.mem_singleton.mp now]
      exact same
  · apply List.nodup_append.mpr
    refine ⟨recorded.once, List.pairwise_singleton _ _, ?_⟩
    intro earlier before now single same
    rw [List.mem_singleton.mp single] at same
    rw [same] at before
    exact first before

theorem askAll (recorded : Recorded all asked l)
    (candidates : ∀ contact ∈ contacts, contact.id ∈ l.candidateIds)
    (first : (asked ++ contacts.map (·.id)).Nodup) :
    ∃ all, Recorded all (asked ++ contacts.map (·.id))
      (contacts.foldl (fun l c => l.setState c.id .queried) l) := by
  induction contacts generalizing l all asked with
  | nil =>
    rw [List.map_nil, List.append_nil]
    exact ⟨all, recorded⟩
  | cons contact contacts ih =>
    have hFirst := List.nodup_append.mp first
    rcases recorded.ask (candidates contact List.mem_cons_self)
      (fun before => hFirst.2.2 _ before _ List.mem_cons_self rfl) with ⟨all, recorded⟩
    have hLater := ih recorded (fun other member => by
      rw [candidateIds_setState]
      exact candidates other (List.mem_cons_of_mem _ member))
    rw [List.map_cons, ← List.singleton_append, ← List.append_assoc] at first ⊢
    exact hLater first

/-- Those whom a round asks were not asked before. -/
theorem beginRound (recorded : Recorded all asked l) (count : Nat) :
    ∃ all, Recorded all (asked ++ (l.picks count).map (·.id)) (l.beginRound count).2 := by
  have hPicks : List.Sublist ((l.picks count).map (·.id)) l.candidateIds := by
    unfold picks live candidateIds
    rw [List.map_map]
    refine List.Sublist.map _ ?_
    exact (List.take_sublist _ _).trans (List.filter_sublist.trans
      ((List.take_sublist _ _).trans List.filter_sublist))
  have hSorted : l.Sorted := by
    unfold Sorted candidateIds
    rw [recorded.remembered, List.map_take]
    exact recorded.sorted.sublist (List.take_sublist _ _)
  have hFirst : (asked ++ (l.picks count).map (·.id)).Nodup := by
    apply List.nodup_append.mpr
    refine ⟨recorded.once, hSorted.nodup.sublist hPicks, ?_⟩
    rintro id before other picked rfl
    rcases List.mem_map.mp picked with ⟨contact, chosen, rfl⟩
    rcases mem_picks chosen with ⟨c, candidate, rfl, fresh⟩
    exact recorded.not_mem_of_fresh candidate fresh before
  rcases recorded.askAll (fun contact chosen => hPicks.subset (List.mem_map_of_mem chosen)) hFirst
    with ⟨all, recorded⟩
  exact ⟨all, recorded.of_eq rfl rfl⟩

end Recorded

/-! ## Calls -/

/-- What a lookup is called for, besides the request that it sends and its outcome. -/
inductive Call where
  | step
  | sent (id : TransactionId) (nodeId : Option NodeId)
  | sendFailed (nodeId : Option NodeId)
  | response (id : TransactionId) (sender : Contact) (response : Response) (nodes : List Contact)
  | failure (id : TransactionId)

/-- The answer to a call, if it was for a step, and what becomes of the lookup. -/
def call (l : Lookup) : Call → Option LookupStep × Lookup
  | .step => (some l.step.1, l.step.2)
  | .sent id nodeId => (none, l.sent id nodeId)
  | .sendFailed nodeId => (none, l.sendFailed nodeId)
  | .response id sender response nodes => (none, (l.onResponse id sender response nodes).2)
  | .failure id => (none, l.onFailure id)

/-- The steps among some calls, and what becomes of the lookup. -/
def run (l : Lookup) (calls : List Call) : List LookupStep × Lookup :=
  calls.foldl
    (fun past call => (past.1 ++ (past.2.call call).1.toList, (past.2.call call).2)) ([], l)

theorem snd_run (l : Lookup) (calls : List Call) :
    (l.run calls).2 = calls.foldl (fun l call => (l.call call).2) l :=
  (List.foldl_hom Prod.snd fun _ _ => rfl).symm

theorem run_cons (l : Lookup) (call : Call) (calls : List Call) :
    (l.run (call :: calls)).2 = ((l.call call).2.run calls).2 := by
  rw [snd_run, snd_run, List.foldl_cons]

theorem run_append (l : Lookup) (before after : List Call) :
    (l.run (before ++ after)).2 = ((l.run before).2.run after).2 := by
  rw [snd_run, snd_run, snd_run, List.foldl_append]

theorem run_concat (l : Lookup) (calls : List Call) (call : Call) :
    (l.run (calls ++ [call])).2 = ((l.run calls).2.call call).2 := by
  rw [snd_run, snd_run, List.foldl_append]
  rfl

/-- The identifiers of the nodes that a step asks.  Those of seeds are not known. -/
def handedOut : LookupStep → List NodeId
  | .query targets => targets.filterMap (·.2)
  | .wait => []
  | .done => []

/-- Whether a step begins a round. -/
def begins : LookupStep → Bool
  | .query _ => true
  | .wait => false
  | .done => false

theorem handedOut_beginRound (l : Lookup) (count : Nat) :
    handedOut (l.beginRound count).1 = (l.picks count).map (·.id) := by
  unfold Lookup.beginRound handedOut
  dsimp only
  rw [List.filterMap_append, List.filterMap_map, List.filterMap_map]
  have hSeeds : l.seeds.filterMap ((·.2) ∘ fun seed => (seed, (none : Option NodeId))) = [] :=
    List.filterMap_eq_nil_iff.mpr fun _ _ => rfl
  rw [hSeeds, List.nil_append]
  exact congrFun List.filterMap_eq_map _

theorem beginRound_same (l : Lookup) (count : Nat) :
    (l.beginRound count).2.target = l.target ∧
      (l.beginRound count).2.maxRounds = l.maxRounds := by
  rcases foldl_setState_cases l (l.picks count) with ⟨candidates, same, -⟩
  unfold Lookup.beginRound
  dsimp only
  rw [same]
  exact ⟨rfl, rfl⟩

/-! ## What a lookup is told -/

/-- What a lookup is told of its queries makes no difference but to its candidates, of whom none
gets fresh again, and to the queries in flight. -/
structure Told (l next : Lookup) : Prop where
  target : next.target = l.target
  announce : next.announce = l.announce
  maxRounds : next.maxRounds = l.maxRounds
  seeds : next.seeds = l.seeds
  rounds : next.rounds = l.rounds
  isDone : next.isDone = l.isDone
  recorded : ∀ {all : List Candidate} {asked : List NodeId}, Recorded all asked l →
    ∃ all, Recorded all asked next

namespace Told

theorem trans {last : Lookup} (first : Told l next) (second : Told next last) : Told l last where
  target := second.target.trans first.target
  announce := second.announce.trans first.announce
  maxRounds := second.maxRounds.trans first.maxRounds
  seeds := second.seeds.trans first.seeds
  rounds := second.rounds.trans first.rounds
  isDone := second.isDone.trans first.isDone
  recorded := fun recorded => by
    rcases first.recorded recorded with ⟨all, recorded⟩
    exact second.recorded recorded

theorem refl (l : Lookup) : Told l l :=
  ⟨rfl, rfl, rfl, rfl, rfl, rfl, fun recorded => ⟨_, recorded⟩⟩

/-- Nothing but the candidates changes. -/
theorem of_candidates {candidates : List Candidate}
    (recorded : ∀ {all : List Candidate} {asked : List NodeId}, Recorded all asked l →
      ∃ all, Recorded all asked { l with candidates }) : Told l { l with candidates } :=
  ⟨rfl, rfl, rfl, rfl, rfl, rfl, recorded⟩

/-- Which queries are in flight and which peers were found does not concern the candidates. -/
theorem of_notes (l : Lookup) (pending : List (TransactionId × Option NodeId))
    (found : List Address) : Told l { l with pending, found } :=
  ⟨rfl, rfl, rfl, rfl, rfl, rfl, fun recorded => ⟨_, recorded.of_eq rfl rfl⟩⟩

theorem settle (l : Lookup) (id : TransactionId) : Told l (l.settle id) :=
  of_notes ..

theorem sent (l : Lookup) (id : TransactionId) (nodeId : Option NodeId) :
    Told l (l.sent id nodeId) :=
  of_notes ..

theorem sendFailed (l : Lookup) (nodeId : Option NodeId) : Told l (l.sendFailed nodeId) := by
  cases nodeId with
  | none => exact refl l
  | some id => exact of_candidates fun recorded => recorded.setState (by decide)

theorem onFailure (l : Lookup) (id : TransactionId) : Told l (l.onFailure id) :=
  (settle l id).trans (sendFailed _ _)

theorem addCandidate (l : Lookup) (contact : Contact) : Told l (l.addCandidate contact) :=
  of_candidates fun recorded => ⟨_, recorded.addCandidate⟩

theorem addCandidates (l : Lookup) (contacts : List Contact) :
    Told l (l.addCandidates contacts) := by
  unfold Lookup.addCandidates
  induction contacts generalizing l with
  | nil => exact refl l
  | cons contact contacts ih => exact (addCandidate l contact).trans (ih _)

/-- The node that answers is taken up and marked, and then the nodes that it lists are. -/
theorem onResponse (l : Lookup) (id : TransactionId) (sender : Contact) (response : Response)
    (nodes : List Contact) : Told l (l.onResponse id sender response nodes).2 := by
  unfold Lookup.onResponse
  split
  · exact refl l
  · have hTaken := (settle l id).trans (addCandidate _ sender)
    generalize (l.settle id).addCandidate sender = taken at hTaken ⊢
    have hMarked : Told taken { taken with
        candidates := modifyFirst (·.contact.id = sender.id)
          ({ · with state := .responded, token := response.token }) taken.candidates } := by
      refine of_candidates fun recorded => ⟨_, recorded.mark _ ?_ ?_ rfl rfl⟩
      · exact fun _ => rfl
      · exact fun _ => by simp
    have hListed := (hTaken.trans hMarked).trans (addCandidates _ nodes)
    dsimp only
    split
    · exact hListed
    · exact hListed.trans (of_notes ..)

/-- All that is called for but a step tells the lookup something. -/
theorem cases_call (l : Lookup) (call : Call) :
    call = .step ∨ (l.call call).1 = none ∧ Told l (l.call call).2 := by
  cases call with
  | step => exact .inl rfl
  | sent id nodeId => exact .inr ⟨rfl, sent l id nodeId⟩
  | sendFailed nodeId => exact .inr ⟨rfl, sendFailed l nodeId⟩
  | response id sender response nodes => exact .inr ⟨rfl, onResponse l id sender response nodes⟩
  | failure id => exact .inr ⟨rfl, onFailure l id⟩

end Told

/-! ## The run -/

/-- How many rounds there can be: the seeds are asked even if no round is allowed. -/
def roundLimit (maxRounds : Nat) (seeds : List Destination) : Nat :=
  if seeds = [] then maxRounds else max maxRounds 1

/-- What is known of a lookup after some steps. -/
structure Tracked (target : NodeId) (maxRounds : Nat) (seeds : List Destination)
    (steps : List LookupStep) (l : Lookup) : Prop where
  recorded : ∃ all, Recorded all (steps.flatMap handedOut) l
  same_target : l.target = target
  same_limit : l.maxRounds = maxRounds
  unseeded : seeds = [] → l.seeds = []
  rounds : steps.countP begins = l.rounds
  few : l.rounds ≤ roundLimit maxRounds seeds
  ended : .done ∈ steps → l.isDone = true
  final : steps.Pairwise fun a b => a = .done → b = .done

section Tracked

variable {maxRounds : Nat} {seeds : List Destination} {steps : List LookupStep}

theorem Tracked.start (target : NodeId) (kind : LookupKind) (announce : Bool)
    (concurrency maxRounds : Nat) (contacts : List Contact) (seeds : List Destination) :
    Tracked target maxRounds seeds []
      (start target kind announce concurrency maxRounds contacts seeds) := by
  have hTold := Told.addCandidates
    { target, kind, announce, concurrency := max concurrency 1, maxRounds, seeds } contacts
  have hEmpty : Recorded [] []
      { target, kind, announce, concurrency := max concurrency 1, maxRounds, seeds } :=
    ⟨rfl, List.Pairwise.nil, by simp, List.nodup_nil⟩
  refine ⟨hTold.recorded hEmpty, hTold.target, hTold.maxRounds, ?_, hTold.rounds.symm, ?_, by simp,
    List.Pairwise.nil⟩
  · intro unseeded
    rw [← unseeded]
    exact hTold.seeds
  · rw [Lookup.start, hTold.rounds]
    exact Nat.zero_le _

theorem Tracked.told (tracked : Tracked target maxRounds seeds steps l) (told : Told l next) :
    Tracked target maxRounds seeds steps next where
  recorded := by
    rcases tracked.recorded with ⟨all, recorded⟩
    exact told.recorded recorded
  same_target := told.target.trans tracked.same_target
  same_limit := told.maxRounds.trans tracked.same_limit
  unseeded := fun unseeded => told.seeds.trans (tracked.unseeded unseeded)
  rounds := tracked.rounds.trans told.rounds.symm
  few := by
    rw [told.rounds]
    exact tracked.few
  ended := fun ended => told.isDone.trans (tracked.ended ended)
  final := tracked.final

theorem Tracked.append {step : LookupStep} (tracked : Tracked target maxRounds seeds steps l)
    (recorded : ∃ all, Recorded all (steps.flatMap handedOut ++ handedOut step) next)
    (aim : next.target = l.target) (limit : next.maxRounds = l.maxRounds)
    (unseeded : l.seeds = [] → next.seeds = [])
    (rounds : next.rounds = l.rounds + if begins step then 1 else 0)
    (few : next.rounds ≤ roundLimit maxRounds seeds)
    (going : l.isDone = true → step = .done) (ended : step = .done → next.isDone = true) :
    Tracked target maxRounds seeds (steps ++ [step]) next where
  recorded := by
    rw [List.flatMap_append, List.flatMap_singleton]
    exact recorded
  same_target := aim.trans tracked.same_target
  same_limit := limit.trans tracked.same_limit
  unseeded := fun none => unseeded (tracked.unseeded none)
  rounds := by
    rw [List.countP_append, tracked.rounds, List.countP_singleton, rounds]
  few := few
  ended := by
    intro done
    rcases List.mem_append.mp done with before | now
    · exact ended (going (tracked.ended before))
    · exact ended (List.mem_singleton.mp now).symm
  final := by
    apply List.pairwise_append.mpr
    refine ⟨tracked.final, List.pairwise_singleton _ _, ?_⟩
    rintro before earlier now single rfl
    rw [List.mem_singleton.mp single]
    exact going (tracked.ended earlier)

theorem Tracked.step (tracked : Tracked target maxRounds seeds steps l) :
    Tracked target maxRounds seeds (steps ++ [l.step.1]) l.step.2 := by
  rcases tracked.recorded with ⟨all, recorded⟩
  have hNobody : ∀ {next : Lookup}, Recorded all (steps.flatMap handedOut) next →
      ∃ all, Recorded all (steps.flatMap handedOut ++ []) next := by
    intro next recorded
    rw [List.append_nil]
    exact ⟨all, recorded⟩
  have hStepped := stepped_step l
  generalize l.step = result at hStepped ⊢
  cases hStepped with
  | wait going =>
    refine tracked.append (hNobody recorded) rfl rfl id rfl tracked.few ?_ (by simp)
    rw [going]
    intro done
    cases done
  | again done =>
    exact tracked.append (hNobody recorded) rfl rfl id rfl tracked.few (fun _ => rfl)
      fun _ => done
  | finished last =>
    exact tracked.append (hNobody (recorded.of_eq rfl rfl)) rfl rfl id rfl tracked.few
      (fun _ => rfl) fun _ => rfl
  | round last count going idle more =>
    have hMarked : Recorded all (steps.flatMap handedOut) { l with finalRound := last } :=
      recorded.of_eq rfl rfl
    have hRound := hMarked.beginRound count
    rw [← handedOut_beginRound] at hRound
    have hFew : l.rounds + 1 ≤ roundLimit maxRounds seeds := by
      rw [tracked.same_limit] at more
      unfold roundLimit
      rcases more with ⟨first, seeded⟩ | ⟨few, -⟩
      · rw [if_neg fun unseeded => seeded (tracked.unseeded unseeded), first]
        exact Nat.le_max_right _ _
      · split
        · exact few
        · exact Nat.le_trans few (Nat.le_max_left _ _)
    have hSame := beginRound_same { l with finalRound := last } count
    refine tracked.append hRound hSame.1 hSame.2 (fun _ => rfl) rfl hFew ?_
      fun done => by cases done
    rw [going]
    intro done
    cases done

theorem Tracked.call (tracked : Tracked target maxRounds seeds steps l) (call : Call) :
    Tracked target maxRounds seeds (steps ++ (l.call call).1.toList) (l.call call).2 := by
  rcases Told.cases_call l call with rfl | ⟨silent, told⟩
  · exact tracked.step
  · rw [silent, Option.toList_none, List.append_nil]
    exact tracked.told told

theorem Tracked.run (tracked : Tracked target maxRounds seeds [] l) (calls : List Call) :
    Tracked target maxRounds seeds (l.run calls).1 (l.run calls).2 := by
  unfold Lookup.run
  generalize ([] : List LookupStep) = steps at tracked ⊢
  induction calls generalizing steps l with
  | nil => exact tracked
  | cons call calls ih => exact ih _ (tracked.call call)

end Tracked

/-- What holds of a lookup at any time, and of the steps that it has taken till then. -/
structure Disciplined (target : NodeId) (maxRounds : Nat) (seeds : List Destination)
    (steps : List LookupStep) (l : Lookup) : Prop where
  sorted : l.candidates.Pairwise fun a b =>
    (target.distance a.contact.id).word.toNat < (target.distance b.contact.id).word.toNat
  distinct : (l.candidates.map (·.contact.id)).Nodup
  few_candidates : l.candidates.length ≤ 64
  /-- No node is asked twice. -/
  once : (steps.flatMap handedOut).Nodup
  few_rounds : steps.countP begins ≤ if seeds = [] then maxRounds else max maxRounds 1
  waits : l.step.1 = .wait → l.pending ≠ []
  final : steps.Pairwise fun a b => a = .done → b = .done
  ended : .done ∈ steps → l.step = (.done, l)

theorem Tracked.disciplined {maxRounds : Nat} {seeds : List Destination} {steps : List LookupStep}
    (tracked : Tracked target maxRounds seeds steps l) :
    Disciplined target maxRounds seeds steps l := by
  rcases tracked.recorded with ⟨all, recorded⟩
  have hSublist : List.Sublist l.candidates all := by
    rw [recorded.remembered]
    exact List.take_sublist _ _
  refine ⟨?_, ?_, ?_, recorded.once, ?_, ?_, tracked.final, ?_⟩
  · have hSorted := recorded.sorted.sublist (hSublist.map _)
    rw [tracked.same_target, List.pairwise_map] at hSorted
    refine hSorted.imp fun closer => ?_
    rw [NodeId.cmpDistance_eq_compare] at closer
    exact Nat.compare_eq_lt.mp closer
  · exact recorded.distinct.sublist (hSublist.map _)
  · rw [recorded.remembered, List.length_take]
    exact Nat.min_le_left _ _
  · rw [tracked.rounds]
    exact tracked.few
  · have hStepped := stepped_step l
    generalize l.step = result at hStepped ⊢
    intro waits
    cases hStepped with
    | wait _ pending => exact pending
    | again => cases waits
    | finished => cases waits
    | round => cases waits
  · intro ended
    rw [Lookup.step, if_pos (tracked.ended ended)]

/-- A lookup keeps its discipline whatever it is called for and in whatever order. -/
theorem disciplined_run (target : NodeId) (kind : LookupKind) (announce : Bool)
    (concurrency maxRounds : Nat) (contacts : List Contact) (seeds : List Destination)
    (calls : List Call) :
    Disciplined target maxRounds seeds
      ((start target kind announce concurrency maxRounds contacts seeds).run calls).1
      ((start target kind announce concurrency maxRounds contacts seeds).run calls).2 :=
  ((Tracked.start target kind announce concurrency maxRounds contacts seeds).run calls).disciplined

end Lookup
end Kademlia
