import Kademlia.Lookup
import Kademlia.Proofs.NodeId
import Kademlia.Proofs.Sequence

namespace Kademlia
namespace Lookup

/-!
How a lookup goes on.  Its candidates stay in order, so that no identifier is among them twice and
every candidate that a round picks is asked at most once.  Hence the rounds that remain are bounded
by the candidates not asked so far (`budget`), and a lookup that is driven on comes to wait for an
answer or is done.
-/

variable {l next : Lookup} {id : TransactionId} {nodeId : Option NodeId} {count : Nat}

/-- The identifiers of the candidates. -/
def candidateIds (l : Lookup) : List NodeId :=
  l.candidates.map (·.contact.id)

/-- The candidates stand in the order of their distance to the target. -/
def Sorted (l : Lookup) : Prop :=
  l.candidateIds.Pairwise fun a b => l.target.cmpDistance a b = .lt

/-- How many more rounds a lookup can begin without an answer. -/
def budget (l : Lookup) : Nat :=
  l.candidates.countP (·.state = .fresh) + if l.rounds = 0 then 1 else 0

theorem Sorted.nodup (sorted : l.Sorted) : l.candidateIds.Nodup :=
  sorted.imp fun closer => NodeId.ne_of_cmpDistance_lt closer

theorem Sorted.of_eq (sorted : l.Sorted) (target : next.target = l.target)
    (ids : next.candidateIds = l.candidateIds) : next.Sorted := by
  unfold Sorted
  rw [target, ids]
  exact sorted

theorem budget_lt (l : Lookup) : l.budget < l.candidates.countP (·.state = .fresh) + 2 := by
  unfold budget
  split <;> omega

/-! ## Candidates -/

theorem eq_or_mem_of_mem_insertCandidate {target : NodeId} {new c : Candidate}
    {candidates : List Candidate} (member : c ∈ insertCandidate target new candidates) :
    c = new ∨ c ∈ candidates := by
  induction candidates with
  | nil => exact .inl (List.mem_singleton.mp member)
  | cons first rest ih =>
    rw [insertCandidate] at member
    split at member
    · rcases List.mem_cons.mp member with rfl | behind
      · exact .inr List.mem_cons_self
      · exact (ih behind).imp_right (List.mem_cons_of_mem first)
    · exact .inr member
    · exact List.mem_cons.mp member

theorem mem_insertCandidate {target : NodeId} {new : Candidate} {candidates : List Candidate}
    {a : NodeId} (member : a ∈ (insertCandidate target new candidates).map (·.contact.id)) :
    a = new.contact.id ∨ a ∈ candidates.map (·.contact.id) := by
  rcases List.mem_map.mp member with ⟨c, among, rfl⟩
  rcases eq_or_mem_of_mem_insertCandidate among with rfl | old
  · exact .inl rfl
  · exact .inr (List.mem_map.mpr ⟨c, old, rfl⟩)

theorem sorted_insertCandidate {target : NodeId} {candidates : List Candidate} (new : Candidate)
    (sorted : (candidates.map (·.contact.id)).Pairwise fun a b => target.cmpDistance a b = .lt) :
    ((insertCandidate target new candidates).map (·.contact.id)).Pairwise
      fun a b => target.cmpDistance a b = .lt := by
  induction candidates with
  | nil => exact List.pairwise_singleton _ _
  | cons c rest ih =>
    rcases List.pairwise_cons.mp sorted with ⟨closer, later⟩
    rw [insertCandidate]
    split
    next before =>
      refine List.pairwise_cons.mpr ⟨?_, ih later⟩
      intro a member
      rcases mem_insertCandidate member with rfl | old
      · exact before
      · exact closer a old
    next => exact sorted
    next behind =>
      have hNew := NodeId.cmpDistance_gt_iff.mp behind
      refine List.pairwise_cons.mpr ⟨?_, sorted⟩
      intro a member
      rcases List.mem_cons.mp member with rfl | old
      · exact hNew
      · exact NodeId.cmpDistance_lt_trans hNew (closer a old)

theorem Sorted.addCandidate {contact : Contact} (sorted : l.Sorted) :
    (l.addCandidate contact).Sorted := by
  have hInserted := sorted_insertCandidate { contact } sorted
  unfold Sorted candidateIds Lookup.addCandidate
  rw [List.map_take]
  exact hInserted.sublist (List.take_sublist _ _)

/-- What does not change when candidates are taken up. -/
theorem addCandidates_cases (l : Lookup) (contacts : List Contact) :
    ∃ candidates, l.addCandidates contacts = { l with candidates } ∧
      (l.Sorted → (l.addCandidates contacts).Sorted) := by
  unfold addCandidates
  induction contacts generalizing l with
  | nil => exact ⟨l.candidates, rfl, id⟩
  | cons contact contacts ih =>
    rcases ih (l.addCandidate contact) with ⟨candidates, same, keeps⟩
    rw [List.foldl_cons]
    exact ⟨candidates, same, fun sorted => keeps sorted.addCandidate⟩

theorem Sorted.start (target : NodeId) (kind : LookupKind) (announce : Bool)
    (concurrency maxRounds : Nat) (contacts : List Contact) (seeds : List Destination) :
    (start target kind announce concurrency maxRounds contacts seeds).Sorted := by
  rcases addCandidates_cases
    { target, kind, announce, concurrency := max concurrency 1, maxRounds, seeds } contacts with
    ⟨candidates, -, keeps⟩
  exact keeps List.Pairwise.nil

theorem start_idle (target : NodeId) (kind : LookupKind) (announce : Bool)
    (concurrency maxRounds : Nat) (contacts : List Contact) (seeds : List Destination) :
    (start target kind announce concurrency maxRounds contacts seeds).pending = [] ∧
      (start target kind announce concurrency maxRounds contacts seeds).isDone = false := by
  rcases addCandidates_cases
    { target, kind, announce, concurrency := max concurrency 1, maxRounds, seeds } contacts with
    ⟨candidates, same, -⟩
  rw [start, same]
  exact ⟨rfl, rfl⟩

theorem candidateIds_setState (l : Lookup) (id : NodeId) (state : CandidateState) :
    (l.setState id state).candidateIds = l.candidateIds :=
  map_modifyFirst fun _ _ => rfl

theorem Sorted.setState {id : NodeId} {state : CandidateState} (sorted : l.Sorted) :
    (l.setState id state).Sorted :=
  sorted.of_eq rfl (candidateIds_setState l id state)

/-- A candidate that is not fresh any more leaves fewer rounds, if it was fresh before. -/
theorem budget_setState_le {id : NodeId} {state : CandidateState} (other : state ≠ .fresh) :
    (l.setState id state).budget ≤ l.budget := by
  apply Nat.add_le_add_right
  apply countP_modifyFirst_le
  intro _ _ _ fresh
  exact absurd (of_decide_eq_true fresh) other

/-! ## Rounds -/

theorem mem_picks {contact : Contact} (picked : contact ∈ l.picks count) :
    ∃ c ∈ l.candidates, c.contact = contact ∧ c.state = .fresh := by
  rcases List.mem_map.mp picked with ⟨c, chosen, rfl⟩
  rcases List.mem_filter.mp (List.mem_of_mem_take chosen) with ⟨near, fresh⟩
  have hCandidate := (List.mem_filter.mp (List.mem_of_mem_take near)).1
  exact ⟨c, hCandidate, rfl, of_decide_eq_true fresh⟩

theorem foldl_setState_cases (l : Lookup) (contacts : List Contact) :
    ∃ candidates, contacts.foldl (fun l c => l.setState c.id .queried) l = { l with candidates } ∧
      candidates.map (·.contact.id) = l.candidateIds ∧
      candidates.countP (·.state = .fresh) ≤ l.candidates.countP (·.state = .fresh) := by
  induction contacts generalizing l with
  | nil => exact ⟨l.candidates, rfl, rfl, Nat.le_refl _⟩
  | cons contact contacts ih =>
    rcases ih (l.setState contact.id .queried) with ⟨candidates, same, ids, fewer⟩
    rw [candidateIds_setState] at ids
    refine ⟨candidates, same, ids, Nat.le_trans fewer ?_⟩
    exact countP_modifyFirst_le fun _ _ _ fresh => nomatch fresh

/-- Marking a candidate that was picked uses up one that was not asked before. -/
theorem foldl_setState_lt (sorted : l.Sorted) (some_picked : l.picks count ≠ []) :
    ((l.picks count).foldl (fun l c => l.setState c.id .queried) l).candidates.countP
      (·.state = .fresh) < l.candidates.countP (·.state = .fresh) := by
  have hPicked : ∀ contact ∈ l.picks count, ∃ c ∈ l.candidates, c.contact = contact ∧
      c.state = .fresh := fun _ => mem_picks
  cases picks : l.picks count with
  | nil => exact absurd picks some_picked
  | cons contact contacts =>
    rw [picks] at hPicked
    rcases hPicked contact List.mem_cons_self with ⟨c, candidate, rfl, fresh⟩
    rcases foldl_setState_cases (l.setState c.contact.id .queried) contacts with
      ⟨candidates, same, -, fewer⟩
    rw [List.foldl_cons, same]
    refine Nat.lt_of_le_of_lt fewer (countP_modifyFirst_lt (fun _ _ => rfl) ?_ ?_)
    · intro other member meant
      have hSame := eq_of_nodup_map sorted.nodup member candidate (of_decide_eq_true meant)
      rw [hSame]
      exact decide_eq_true fresh
    · exact ⟨c, candidate, decide_eq_true rfl⟩

/-- What a step does: whether the round is the last one may change, but a round begins only when
the one before is over. -/
inductive Stepped (l : Lookup) : LookupStep × Lookup → Prop
  | wait : l.isDone = false → l.pending ≠ [] → Stepped l (.wait, l)
  | again : l.isDone = true → Stepped l (.done, l)
  | finished (last : Bool) : l.pending = [] → Stepped l (finishStep { l with finalRound := last })
  | round (last : Bool) (count : Nat) : l.isDone = false → l.pending = [] →
    (l.rounds = 0 ∧ l.seeds ≠ []) ∨ (l.rounds < l.maxRounds ∧ l.picks count ≠ []) →
    Stepped l (beginRound { l with finalRound := last } count)

theorem Stepped.nextRound (going : l.isDone = false) (idle : l.pending = []) (last : Bool) :
    Stepped l (nextRound { l with finalRound := last }) := by
  unfold Lookup.nextRound
  generalize (if ({ l with finalRound := last } : Lookup).finalRound = true then window
    else l.concurrency) = count
  dsimp only
  split
  · exact .finished last idle
  next few =>
    split
    · exact .finished last idle
    next some_picked =>
      refine .round last count going idle (.inr ⟨Nat.lt_of_not_le few, ?_⟩)
      intro nobody
      exact some_picked (List.isEmpty_iff.mpr nobody)

theorem stepped_step (l : Lookup) : Stepped l l.step := by
  unfold Lookup.step
  split
  next done => exact .again done
  next going =>
    have hGoing : l.isDone = false := Bool.eq_false_iff.mpr going
    split
    next waits =>
      refine .wait hGoing fun idle => ?_
      rw [idle] at waits
      exact absurd waits (by decide)
    next waits =>
      have hIdle : l.pending = [] := by
        cases pending : l.pending with
        | nil => rfl
        | cons first rest =>
          rw [pending] at waits
          exact absurd rfl waits
      split
      next first =>
        split
        · exact .nextRound hGoing hIdle l.finalRound
        next seeded =>
          refine .round l.finalRound _ hGoing hIdle (.inl ⟨first, ?_⟩)
          intro unseeded
          exact seeded (List.isEmpty_iff.mpr unseeded)
      next =>
        split
        · exact .nextRound hGoing hIdle false
        · split
          · exact .finished l.finalRound hIdle
          · exact .nextRound hGoing hIdle true

/-- What can come of a step. -/
inductive StepResult (l : Lookup) : LookupStep × Lookup → Prop
  | wait : l.pending ≠ [] → StepResult l (.wait, l)
  | done {next : Lookup} : l.isDone = true ∨ l.pending = [] → next.isDone = true →
    next.pending = l.pending → next.Sorted → StepResult l (.done, next)
  | query {targets : List (Destination × Option NodeId)} {next : Lookup} : next.isDone = l.isDone →
    next.pending = l.pending → next.Sorted → next.budget < l.budget →
    StepResult l (.query targets, next)

theorem StepResult.beginRound (sorted : l.Sorted) (more : l.rounds = 0 ∨ l.picks count ≠ []) :
    StepResult l (l.beginRound count) := by
  unfold Lookup.beginRound
  dsimp only
  rcases foldl_setState_cases l (l.picks count) with ⟨candidates, same, ids, fewer⟩
  have hLess : l.picks count ≠ [] → _ := foldl_setState_lt sorted
  rw [same] at hLess ⊢
  refine .query rfl rfl (sorted.of_eq rfl ids) ?_
  unfold budget
  rw [if_neg (Nat.succ_ne_zero _)]
  by_cases first : l.rounds = 0
  · rw [if_pos first]
    exact Nat.lt_succ_of_le fewer
  · rw [if_neg first]
    exact hLess (more.resolve_left first)

/-- What can come of a step does not depend on the mark of the last round. -/
theorem StepResult.of_finalRound {last : Bool} {result : LookupStep × Lookup}
    (step : StepResult { l with finalRound := last } result) (idle : l.pending = []) :
    StepResult l result := by
  cases step with
  | wait waits => exact absurd idle waits
  | done ended done pending sorted => exact .done (.inr idle) done pending sorted
  | query done pending sorted less => exact .query done pending sorted less

theorem step_result (sorted : l.Sorted) : StepResult l l.step := by
  have hStepped := stepped_step l
  generalize l.step = result at hStepped ⊢
  cases hStepped with
  | wait _ waits => exact .wait waits
  | again done => exact .done (.inl done) done rfl sorted
  | finished last idle => exact .done (.inr idle) rfl rfl (sorted.of_eq rfl rfl)
  | round last count going idle more =>
    have hRound : StepResult { l with finalRound := last }
        (Lookup.beginRound { l with finalRound := last } count) :=
      .beginRound (sorted.of_eq rfl rfl) (more.imp And.left And.right)
    exact hRound.of_finalRound idle

/-! ## Queries and answers -/

theorem isPending_iff : l.isPending id = true ↔ ∃ entry ∈ l.pending, entry.1 = id := by
  rw [isPending, List.any_eq_true]
  constructor
  · rintro ⟨entry, member, same⟩
    exact ⟨entry, member, of_decide_eq_true same⟩
  · rintro ⟨entry, member, same⟩
    exact ⟨entry, member, decide_eq_true same⟩

theorem isPending_sent {other : TransactionId} :
    (l.sent id nodeId).isPending other = true ↔ other = id ∨ l.isPending other = true := by
  rw [isPending_iff, isPending_iff, sent]
  constructor
  · rintro ⟨entry, member, rfl⟩
    rcases List.mem_append.mp member with old | new
    · exact .inr ⟨entry, (List.mem_filter.mp old).1, rfl⟩
    · rw [List.mem_singleton.mp new]
      exact .inl rfl
  · rintro (rfl | ⟨entry, member, rfl⟩)
    · exact ⟨_, List.mem_append_right _ (List.mem_singleton_self _), rfl⟩
    · by_cases same : entry.1 = id
      · exact ⟨_, List.mem_append_right _ (List.mem_singleton_self _), same.symm⟩
      · refine ⟨entry, List.mem_append_left _ (List.mem_filter.mpr ⟨member, ?_⟩), rfl⟩
        exact decide_eq_true same

/-- A query that was in flight is not so any longer, and nothing else has changed that matters. -/
structure Settled (id : TransactionId) (l next : Lookup) : Prop where
  pending : next.pending = l.pending.filter (·.1 ≠ id)
  isDone : next.isDone = l.isDone
  sorted : l.Sorted → next.Sorted

theorem Settled.isPending {other : TransactionId} (settled : Settled id l next) :
    next.isPending other = true ↔ other ≠ id ∧ l.isPending other = true := by
  rw [isPending_iff, isPending_iff, settled.pending]
  constructor
  · rintro ⟨entry, member, rfl⟩
    rcases List.mem_filter.mp member with ⟨old, another⟩
    exact ⟨of_decide_eq_true another, entry, old, rfl⟩
  · rintro ⟨another, entry, member, rfl⟩
    exact ⟨entry, List.mem_filter.mpr ⟨member, decide_eq_true another⟩, rfl⟩

/-- The node that answers is taken up, then marked, and then the nodes that it lists. -/
theorem settled_onResponse {sender : Contact} {response : Response} {nodes : List Contact}
    (asked : l.isPending id = true) : Settled id l (l.onResponse id sender response nodes).2 := by
  unfold onResponse
  rw [asked, Bool.not_true, if_neg Bool.false_ne_true]
  dsimp only
  generalize hMarked :
    ({ (l.settle id).addCandidate sender with candidates := _ } : Lookup) = marked
  rcases addCandidates_cases marked nodes with ⟨candidates, same, keeps⟩
  have hSorted : l.Sorted → (marked.addCandidates nodes).Sorted := by
    intro sorted
    have hSettled : (l.settle id).Sorted := sorted.of_eq rfl rfl
    have hAdded : ((l.settle id).addCandidate sender).Sorted := hSettled.addCandidate
    apply keeps
    rw [← hMarked]
    exact hAdded.of_eq rfl (map_modifyFirst fun _ _ => rfl)
  have hSame : Settled id l (marked.addCandidates nodes) := by
    refine ⟨?_, ?_, hSorted⟩
    · rw [same, ← hMarked]
      rfl
    · rw [same, ← hMarked]
      rfl
  split
  · exact hSame
  · exact ⟨hSame.pending, hSame.isDone, fun sorted => (hSame.sorted sorted).of_eq rfl rfl⟩

theorem Settled.sendFailed (settled : Settled id l next) :
    Settled id l (next.sendFailed nodeId) := by
  cases nodeId with
  | none => exact settled
  | some failed =>
    exact ⟨settled.pending, settled.isDone, fun sorted => (settled.sorted sorted).setState⟩

theorem settled_onFailure : Settled id l (l.onFailure id) := by
  have hSettle : Settled id l (l.settle id) := ⟨rfl, rfl, fun sorted => sorted.of_eq rfl rfl⟩
  exact hSettle.sendFailed

/-- The nodes that a lookup hands out for an announcement are distinct. -/
theorem Sorted.nodup_announceTargets (sorted : l.Sorted) :
    (l.finish.announceTargets.map (·.1)).Nodup := by
  have hTokens : ∀ candidates : List Candidate, List.Sublist
      ((candidates.filterMap fun c => c.token.map (c.contact, ·)).map (·.1))
      (candidates.map (·.contact)) := by
    intro candidates
    induction candidates with
    | nil => exact List.Sublist.refl _
    | cons c rest ih =>
      rw [List.filterMap_cons, List.map_cons]
      cases c.token with
      | none => exact ih.cons _
      | some token => exact ih.cons_cons _
  have hContacts : (l.candidates.map (·.contact)).Nodup := by
    have hIds := sorted.nodup
    unfold candidateIds at hIds
    rw [List.Nodup, List.pairwise_map] at hIds ⊢
    exact hIds.imp fun apart same => apart (congrArg Contact.id same)
  unfold finish
  dsimp only
  rw [List.map_take]
  refine List.Nodup.sublist ?_ hContacts
  apply (List.take_sublist _ _).trans
  exact (hTokens _).trans (List.filter_sublist.map _)

end Lookup
end Kademlia
