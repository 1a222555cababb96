import Kademlia.Proofs.Lookup.Rounds
import Mathlib.Data.List.Induction

namespace Kademlia
namespace Lookup

/-!
# Whom a lookup leaves unasked

A lookup that is done has asked the candidates near its target, and one that was not asked is
farther away than one that has answered.  There are exceptions.  The last round asks all that is
left among the closest few, and the lookup is over if no candidate comes up that is closer than the
best one before that round.  If this one and its neighbours fail, those that the round has brought,
or that had no place among the closest few, may be closer than everybody who has answered, and still
are not asked any more (`PassedOver`).  Besides, a candidate that was asked and neither answers nor
fails keeps its place among the closest few, so that the ones behind it are not considered
(`Blocked`).  These are the only exceptions (`answered_of_done`).

The argument goes by the state in which the last round began (`Round`).
-/

variable {l next begun : Lookup} {all : List Candidate} {asked : List NodeId} {c w : Candidate}
  {count : Nat}

/-! ## The closest candidates -/

/-- One candidate is closer to the target than another. -/
def Nearer (l : Lookup) (a b : Candidate) : Prop :=
  l.target.cmpDistance a.contact.id b.contact.id = .lt

theorem Nearer.ne (nearer : l.Nearer c w) : c.contact.id ≠ w.contact.id :=
  NodeId.ne_of_cmpDistance_lt nearer

theorem Nearer.asymm (nearer : l.Nearer c w) : ¬ l.Nearer w c := fun farther =>
  NodeId.ne_of_cmpDistance_lt (NodeId.cmpDistance_lt_trans nearer farther) rfl

/-- Whoever is as close as a candidate is closer than those behind it. -/
theorem Nearer.of_not_nearer {b : Candidate} (nearer : l.Nearer c w) (close : ¬ l.Nearer c b) :
    l.Nearer b w := by
  unfold Nearer at nearer close ⊢
  rw [NodeId.cmpDistance_eq_compare, Nat.compare_eq_lt] at nearer close ⊢
  exact Nat.lt_of_le_of_lt (Nat.le_of_not_lt close) nearer

theorem Sorted.live (sorted : l.Sorted) : l.live.Pairwise l.Nearer :=
  (List.pairwise_map.mp sorted).sublist List.filter_sublist

/-- Whoever is closer than a candidate at the beginning of an ordered list is there as well. -/
theorem mem_take_of_nearer {candidates : List Candidate} {n : Nat}
    (sorted : candidates.Pairwise l.Nearer) (near : c ∈ candidates.take n) (among : w ∈ candidates)
    (nearer : l.Nearer w c) : w ∈ candidates.take n := by
  rw [← List.take_append_drop n candidates] at sorted among
  rcases List.mem_append.mp among with first | later
  · exact first
  · exact absurd ((List.pairwise_append.mp sorted).2.2 c near w later) nearer.asymm

/-- Whoever is not at the beginning of an ordered list has a full number of others in front. -/
theorem full_of_not_mem_take {candidates : List Candidate} {n : Nat}
    (sorted : candidates.Pairwise l.Nearer) (among : c ∈ candidates)
    (beyond : c ∉ candidates.take n) :
    (candidates.take n).length = n ∧ ∀ w ∈ candidates.take n, l.Nearer w c := by
  have hSplit := List.take_append_drop n candidates
  have hLater : c ∈ candidates.drop n := by
    rw [← hSplit] at among
    exact (List.mem_append.mp among).resolve_left beyond
  constructor
  · have hLength := List.length_pos_of_mem hLater
    rw [List.length_drop] at hLength
    rw [List.length_take]
    omega
  · intro w first
    rw [← hSplit] at sorted
    exact (List.pairwise_append.mp sorted).2.2 w first c hLater

theorem mem_live_of_fresh (among : c ∈ l.candidates) (fresh : c.state = .fresh) : c ∈ l.live := by
  refine List.mem_filter.mpr ⟨among, ?_⟩
  rw [fresh]
  rfl

/-- A round that asks somebody would have asked those among the closest few that are fresh. -/
theorem not_fresh_of_picks (nobody : l.picks count = []) (positive : 0 < count)
    (near : c ∈ l.live.take window) : c.state ≠ .fresh := by
  intro fresh
  have hFresh : c ∈ (l.live.take window).filter (·.state = .fresh) :=
    List.mem_filter.mpr ⟨near, decide_eq_true fresh⟩
  have hNone := List.take_eq_nil_iff.mp (List.map_eq_nil_iff.mp nobody)
  rcases hNone with none | empty
  · omega
  · rw [empty] at hFresh
    cases hFresh

/-- A round that asks as many as are considered asks all of them that are fresh. -/
theorem mem_picks_window (near : c ∈ l.live.take window) (fresh : c.state = .fresh) :
    c.contact ∈ l.picks window := by
  have hFew : ((l.live.take window).filter (·.state = .fresh)).length ≤ window :=
    Nat.le_trans (List.length_filter_le _ _) (List.length_take_le _ _)
  rw [picks, List.take_of_length_le hFew]
  exact List.mem_map_of_mem (List.mem_filter.mpr ⟨near, decide_eq_true fresh⟩)

/-! ## What a step decides -/

/-- How many candidates the next round asks. -/
def width (l : Lookup) : Nat :=
  if l.finalRound then window else l.concurrency

theorem width_pos (positive : 0 < l.concurrency) : 0 < l.width := by
  unfold width
  split
  · decide
  · exact positive

/-- The next round begins, unless there have been enough or nobody is left. -/
theorem nextRound_cases (l : Lookup) :
    (l.maxRounds ≤ l.rounds ∨ l.picks l.width = []) ∧ l.nextRound = l.finishStep ∨
      l.nextRound = l.beginRound l.width := by
  change _ ∧ (if l.maxRounds ≤ l.rounds then l.finishStep
      else if (l.picks l.width).isEmpty then l.finishStep else l.beginRound l.width) = _ ∨
    (if l.maxRounds ≤ l.rounds then l.finishStep
      else if (l.picks l.width).isEmpty then l.finishStep else l.beginRound l.width) = _
  split
  next enough => exact .inl ⟨.inl enough, rfl⟩
  next =>
    split
    next nobody => exact .inl ⟨.inr (List.isEmpty_iff.mp nobody), rfl⟩
    next => exact .inr rfl

/-- What a lookup does that waits for nothing. -/
inductive Resumed (l : Lookup) : LookupStep × Lookup → Prop
  | seeds : l.rounds = 0 → Resumed l (l.beginRound l.concurrency)
  | worse : l.rounds ≠ 0 → l.improved = false → l.finalRound = true → Resumed l l.finishStep
  | next (last : Bool) : (l.rounds = 0 → last = l.finalRound) →
    Resumed l (nextRound { l with finalRound := last })

theorem resumed_step (going : l.isDone = false) (idle : l.pending = []) : Resumed l l.step := by
  have hGoing : ¬ l.isDone = true := Bool.eq_false_iff.mp going
  have hIdle : ¬ (!l.pending.isEmpty) = true := by
    rw [idle]
    exact Bool.false_ne_true
  unfold step
  rw [if_neg hGoing, if_neg hIdle]
  split
  next first =>
    split
    · exact .next l.finalRound fun _ => rfl
    · exact .seeds first
  next later =>
    split
    · exact .next false fun first => absurd first later
    next worse =>
      split
      next last => exact .worse later (Bool.eq_false_iff.mpr worse) last
      next => exact .next true fun first => absurd first later

/-- Why a lookup is done: its last round has brought nothing better, there have been enough rounds,
or nobody is left to be asked among the closest few. -/
inductive Ended (l : Lookup) : Lookup → Prop
  | worse : l.rounds ≠ 0 → l.improved = false → l.finalRound = true →
    Ended l { l with isDone := true }
  | enough (last : Bool) : l.maxRounds ≤ l.rounds →
    Ended l { l with finalRound := last, isDone := true }
  | nobody (last : Bool) (count : Nat) : (0 < l.concurrency → 0 < count) → l.picks count = [] →
    Ended l { l with finalRound := last, isDone := true }

theorem ended_of_done (going : l.isDone = false) (ends : l.step = (.done, next)) :
    l.pending = [] ∧ Ended l next := by
  have hIdle : l.pending = [] := by
    have hStepped := stepped_step l
    rw [ends] at hStepped
    cases hStepped with
    | again done => exact absurd done (Bool.eq_false_iff.mp going)
    | finished _ idle => exact idle
  refine ⟨hIdle, ?_⟩
  have hResumed := resumed_step going hIdle
  rw [ends] at hResumed
  generalize result : (LookupStep.done, next) = reached at hResumed
  cases hResumed with
  | seeds => cases result
  | worse later worse last =>
    cases result
    exact .worse later worse last
  | next last =>
    rcases nextRound_cases { l with finalRound := last } with ⟨enough | nobody, same⟩ | same
    · rw [same] at result
      cases result
      exact .enough last enough
    · rw [same] at result
      cases result
      exact .nobody last _ (width_pos (l := { l with finalRound := last })) nobody
    · rw [same] at result
      cases result

/-- The last round asks as many as are considered. -/
theorem step_of_begins (first : l.rounds = 0 → l.finalRound = false)
    (more : begins l.step.1 = true) :
    ∃ last count, l.step = beginRound { l with finalRound := last } count ∧
      (last = true → count = window) := by
  have hActive : l.isDone = false ∧ l.pending = [] := by
    have hStepped := stepped_step l
    generalize l.step = result at hStepped more
    cases hStepped with
    | wait => cases more
    | again => cases more
    | finished => cases more
    | round _ _ going idle => exact ⟨going, idle⟩
  have hResumed := resumed_step hActive.1 hActive.2
  generalize l.step = result at hResumed more ⊢
  cases hResumed with
  | seeds none =>
    refine ⟨l.finalRound, l.concurrency, rfl, fun last => ?_⟩
    rw [first none] at last
    cases last
  | worse => cases more
  | next last =>
    rcases nextRound_cases { l with finalRound := last } with ⟨-, same⟩ | same
    · rw [same] at more
      cases more
    · exact ⟨last, _, same, fun final => if_pos final⟩

/-! ## The last round -/

/-- The identifiers of the candidates that are not fresh. -/
def marked (l : Lookup) : List NodeId :=
  (l.candidates.filter (·.state ≠ .fresh)).map (·.contact.id)

theorem mem_marked (among : c ∈ l.candidates) (stale : c.state ≠ .fresh) :
    c.contact.id ∈ l.marked :=
  List.mem_map_of_mem (List.mem_filter.mpr ⟨among, decide_eq_true stale⟩)

/-- What is remembered of those that were asked can as well be said of all that are not fresh. -/
theorem Recorded.of_marked (recorded : Recorded all asked l) : Recorded all l.marked l where
  remembered := recorded.remembered
  sorted := recorded.sorted
  marked := by
    intro id among
    rcases List.mem_map.mp among with ⟨c, member, rfl⟩
    rcases List.mem_filter.mp member with ⟨candidate, stale⟩
    rw [recorded.remembered] at candidate
    exact ⟨c, List.mem_of_mem_take candidate, rfl, of_decide_eq_true stale⟩
  once := by
    have hSublist : List.Sublist l.candidates all := by
      rw [recorded.remembered]
      exact List.take_sublist _ _
    exact recorded.distinct.sublist ((List.filter_sublist.trans hSublist).map _)

/-- How a lookup stands in a round that it has begun in a certain state: it judges by the candidate
that was best then, and neither those that were not fresh nor those that it has asked are fresh. -/
structure Round (begun l : Lookup) : Prop where
  sorted : begun.Sorted
  target : l.target = begun.target
  best : l.roundStartBest = begun.best
  last : l.finalRound = true → ∀ w ∈ begun.live.take window, w.state = .fresh →
    w.contact.id ∈ handedOut begun.step.1
  recorded : ∃ all, Recorded all (begun.marked ++ handedOut begun.step.1) l

theorem Recorded.sorted_candidates (recorded : Recorded all asked l) : l.Sorted := by
  unfold Sorted candidateIds
  rw [recorded.remembered, List.map_take]
  exact recorded.sorted.sublist (List.take_sublist _ _)

theorem Round.begin (recorded : Recorded all asked l) (first : l.rounds = 0 → l.finalRound = false)
    (more : begins l.step.1 = true) : Round l l.step.2 := by
  rcases step_of_begins first more with ⟨last, count, same, wide⟩
  have hMarked : Recorded all l.marked { l with finalRound := last } :=
    recorded.of_marked.of_eq rfl rfl
  have hRound := hMarked.beginRound count
  rw [← handedOut_beginRound, ← same] at hRound
  rcases foldl_setState_cases { l with finalRound := last }
    (picks { l with finalRound := last } count) with ⟨candidates, kept, -⟩
  refine ⟨recorded.sorted_candidates, ?_, ?_, ?_, hRound⟩
  · rw [same]
    exact (beginRound_same ..).1
  · rw [same]
    rfl
  · intro final w near fresh
    rw [same] at final ⊢
    have hLast : last = true := by
      unfold beginRound at final
      dsimp only at final
      rw [kept] at final
      exact final
    rw [handedOut_beginRound, wide hLast]
    exact List.mem_map_of_mem (mem_picks_window near fresh)

theorem Round.told (round : Round begun l) (told : Told l next)
    (best : next.roundStartBest = l.roundStartBest) (last : next.finalRound = l.finalRound) :
    Round begun next where
  sorted := round.sorted
  target := told.target.trans round.target
  best := best.trans round.best
  last := by
    rw [last]
    exact round.last
  recorded := by
    rcases round.recorded with ⟨all, recorded⟩
    exact told.recorded recorded

/-- Whoever was among the closest few in the beginning of the last round was marked then or has been
asked in it. -/
theorem Round.mem_asked (round : Round begun l) (last : l.finalRound = true)
    (near : w ∈ begun.live.take window) :
    w.contact.id ∈ begun.marked ++ handedOut begun.step.1 := by
  by_cases fresh : w.state = .fresh
  · exact List.mem_append_right _ (round.last last w near fresh)
  · have hAmong : w ∈ begun.candidates := (List.mem_filter.mp (List.mem_of_mem_take near)).1
    exact List.mem_append_left _ (mem_marked hAmong fresh)

/-! ## The run -/

/-- Without a step, nothing changes but the candidates, what is in flight and what was found. -/
theorem call_frame (l : Lookup) (call : Call) :
    call = .step ∨ ∃ candidates pending found,
      (l.call call).2 = { l with candidates, pending, found } := by
  have hFailed : ∀ (l : Lookup) (nodeId : Option NodeId),
      ∃ candidates, l.sendFailed nodeId = { l with candidates } := by
    intro l nodeId
    cases nodeId with
    | none => exact ⟨_, rfl⟩
    | some id => exact ⟨_, rfl⟩
  cases call with
  | step => exact .inl rfl
  | sent id nodeId => exact .inr ⟨_, _, _, rfl⟩
  | sendFailed nodeId =>
    rcases hFailed l nodeId with ⟨candidates, same⟩
    exact .inr ⟨candidates, _, _, same⟩
  | failure id =>
    rcases hFailed (l.settle id) ((l.pending.find? (·.1 = id)).bind (·.2)) with ⟨candidates, same⟩
    exact .inr ⟨candidates, _, _, same⟩
  | response id sender response nodes =>
    refine .inr ?_
    unfold Lookup.call Lookup.onResponse
    dsimp only
    split
    · exact ⟨_, _, _, rfl⟩
    · generalize hMarked :
        ({ (l.settle id).addCandidate sender with candidates := _ } : Lookup) = marked
      rcases addCandidates_cases marked nodes with ⟨candidates, same, -⟩
      rw [same, ← hMarked]
      split
      · exact ⟨candidates, _, _, rfl⟩
      · exact ⟨candidates, _, _, rfl⟩

theorem fst_run_concat (l : Lookup) (calls : List Call) (call : Call) :
    (l.run (calls ++ [call])).1 = (l.run calls).1 ++ ((l.run calls).2.call call).1.toList := by
  unfold Lookup.run
  rw [List.foldl_append]
  rfl

/-- The state in which the last of the rounds began that were played in a run. -/
def BeganLast (first : Lookup) (calls : List Call) (begun : Lookup) : Prop :=
  ∃ before after, calls = before ++ .step :: after ∧ begun = (first.run before).2 ∧
    begins begun.step.1 = true ∧ ∀ step ∈ (begun.step.2.run after).1, begins step = false

section Run

variable {first : Lookup} {calls : List Call}

theorem BeganLast.of_begins (more : begins (first.run calls).2.step.1 = true) :
    BeganLast first (calls ++ [.step]) (first.run calls).2 :=
  ⟨calls, [], rfl, rfl, more, nofun⟩

theorem BeganLast.concat {call : Call} (began : BeganLast first calls begun)
    (none : ∀ step ∈ ((first.run calls).2.call call).1, begins step = false) :
    BeganLast first (calls ++ [call]) begun := by
  rcases began with ⟨before, after, rfl, rfl, more, last⟩
  rw [run_append, run_cons] at none
  refine ⟨before, after ++ [call], List.append_assoc _ _ _, rfl, more, fun step taken => ?_⟩
  rw [fst_run_concat] at taken
  rcases List.mem_append.mp taken with earlier | now
  · exact last step earlier
  · exact none step (Option.mem_toList.mp now)

/-- How a lookup stands that is not done: if a round has begun, it stands in the last one. -/
structure Playing (first : Lookup) (calls : List Call) (l : Lookup) : Prop where
  concurrency : 0 < l.concurrency
  early : l.rounds = 0 → l.finalRound = false
  round : l.rounds ≠ 0 → ∃ begun, BeganLast first calls begun ∧ Round begun l

theorem concurrency_beginRound (l : Lookup) (count : Nat) :
    (l.beginRound count).2.concurrency = l.concurrency :=
  foldl_keeps concurrency (fun l (c : Contact) => (rfl : (l.setState c.id .queried).concurrency = _))
    l (l.picks count)

theorem Playing.start (target : NodeId) (kind : LookupKind) (announce : Bool)
    (concurrency maxRounds : Nat) (contacts : List Contact) (seeds : List Destination)
    (first : Lookup) :
    Playing first [] (start target kind announce concurrency maxRounds contacts seeds) := by
  rcases addCandidates_cases
    { target, kind, announce, concurrency := max concurrency 1, maxRounds, seeds } contacts with
    ⟨candidates, same, -⟩
  rw [Lookup.start, same]
  exact ⟨Nat.le_max_right _ _, fun _ => rfl, fun later => absurd rfl later⟩

theorem Playing.step (playing : Playing first calls (first.run calls).2)
    (recorded : Recorded all asked (first.run calls).2)
    (going : (first.run calls).2.step.2.isDone = false) :
    Playing first (calls ++ [.step]) (first.run calls).2.step.2 := by
  by_cases more : begins (first.run calls).2.step.1 = true
  · rcases step_of_begins playing.early more with ⟨last, count, same, -⟩
    refine ⟨?_, ?_, fun _ => ⟨_, .of_begins more, .begin recorded playing.early more⟩⟩
    · rw [same, concurrency_beginRound]
      exact playing.concurrency
    · rw [same]
      exact fun none => absurd none (Nat.succ_ne_zero _)
  · -- a step that does not begin a round either waits or is the last one
    have hSame : (first.run calls).2.step.2 = (first.run calls).2 := by
      have hStepped := stepped_step (first.run calls).2
      generalize (first.run calls).2.step = result at hStepped going more ⊢
      cases hStepped with
      | wait => rfl
      | again => rfl
      | finished => cases going
      | round => exact absurd rfl more
    rw [hSame]
    refine ⟨playing.concurrency, playing.early, fun later => ?_⟩
    rcases playing.round later with ⟨begun, began, round⟩
    refine ⟨begun, began.concat fun step taken => ?_, round⟩
    rw [← Option.some.inj taken]
    exact Bool.eq_false_iff.mpr more

theorem Playing.call {call : Call} (playing : Playing first calls (first.run calls).2)
    (recorded : Recorded all asked (first.run calls).2)
    (going : ((first.run calls).2.call call).2.isDone = false) :
    Playing first (calls ++ [call]) ((first.run calls).2.call call).2 := by
  rcases call_frame (first.run calls).2 call with rfl | ⟨candidates, pending, found, same⟩
  · exact playing.step recorded going
  · rcases Told.cases_call (first.run calls).2 call with rfl | ⟨silent, told⟩
    · exact playing.step recorded going
    · rw [same] at told ⊢
      refine ⟨playing.concurrency, playing.early, fun later => ?_⟩
      rcases playing.round later with ⟨begun, began, round⟩
      refine ⟨begun, began.concat fun step taken => ?_, round.told told rfl rfl⟩
      rw [silent] at taken
      cases taken

theorem isDone_call (done : l.isDone = true) (call : Call) : (l.call call).2.isDone = true := by
  rcases Told.cases_call l call with rfl | ⟨-, told⟩
  · change l.step.2.isDone = true
    rw [Lookup.step, if_pos done]
    exact done
  · exact told.isDone.trans done

theorem Playing.run {maxRounds : Nat} {seeds : List Destination} {target : NodeId}
    (tracked : Tracked target maxRounds seeds [] first) (starts : Playing first [] first)
    (calls : List Call) (going : (first.run calls).2.isDone = false) :
    Playing first calls (first.run calls).2 := by
  induction calls using List.reverseRecOn with
  | nil => exact starts
  | append_singleton calls call ih =>
    rw [run_concat] at going ⊢
    rcases (tracked.run calls).recorded with ⟨all, recorded⟩
    refine (ih ?_).call recorded going
    refine Bool.eq_false_iff.mpr fun done => ?_
    rw [isDone_call done call] at going
    cases going

end Run

/-! ## Who is left -/

/-- A candidate that has answered is closer. -/
def Outdone (l : Lookup) (c : Candidate) : Prop :=
  ∃ w ∈ l.candidates, w.state = .responded ∧ l.Nearer w c

/-- A candidate was asked and has not answered under its identifier. -/
def Silent (l : Lookup) (id : NodeId) : Prop :=
  ∃ w ∈ l.candidates, w.contact.id = id ∧ (w.state = .queried ∨ w.state = .failed)

/-- The last round has asked all that was left among the closest few, the best one included, and
those of them that are closer than a candidate are silent.  When the round began, the candidate was
not known, or else there was a full number of closer ones. -/
structure PassedOver (begun l : Lookup) (c : Candidate) : Prop where
  asked : ∀ w ∈ begun.live.take window, w.state = .fresh →
    w.contact.id ∈ handedOut begun.step.1
  best : ∃ w, begun.live.head? = some w ∧ l.Nearer w c
  silent : ∀ w ∈ begun.live.take window, l.Nearer w c → l.Silent w.contact.id
  crowded : c.contact.id ∈ begun.candidateIds →
    (begun.live.take window).length = window ∧ ∀ w ∈ begun.live.take window, l.Nearer w c

/-- Nothing is in flight, and yet all places among the closest few are held by candidates that were
asked, have neither answered under their identifiers nor failed, and are closer. -/
structure Blocked (l : Lookup) (c : Candidate) : Prop where
  idle : l.pending = []
  full : (l.live.take window).length = window
  queried : ∀ w ∈ l.live.take window, w.state = .queried ∧ l.Nearer w c

/-- Those that are not fresh and are closer than a candidate are not forgotten. -/
theorem Recorded.exists_of_nearer {id : NodeId} (recorded : Recorded all asked l)
    (among : c ∈ l.candidates) (before : id ∈ asked)
    (nearer : l.target.cmpDistance id c.contact.id = .lt) :
    ∃ w ∈ l.candidates, w.contact.id = id ∧ w.state ≠ .fresh := by
  rcases recorded.marked id before with ⟨w, member, rfl, stale⟩
  have hSorted : all.Pairwise l.Nearer := by
    have hIds := recorded.sorted
    rw [List.pairwise_map] at hIds
    exact hIds
  rw [recorded.remembered] at among ⊢
  exact ⟨w, mem_take_of_nearer hSorted among member nearer, rfl, stale⟩

theorem Recorded.silent {id : NodeId} (recorded : Recorded all asked l)
    (among : c ∈ l.candidates) (before : id ∈ asked)
    (nearer : l.target.cmpDistance id c.contact.id = .lt) (unanswered : ¬ l.Outdone c) :
    l.Silent id := by
  rcases recorded.exists_of_nearer among before nearer with ⟨w, member, rfl, stale⟩
  refine ⟨w, member, rfl, ?_⟩
  cases state : w.state with
  | fresh => exact absurd state stale
  | queried => exact .inl rfl
  | failed => exact .inr rfl
  | responded => exact absurd ⟨w, member, state, nearer⟩ unanswered

theorem mem_take_of_head? {candidates : List Candidate} (head : candidates.head? = some w) :
    w ∈ candidates.take window := by
  rcases List.head?_eq_some_iff.mp head with ⟨rest, rfl⟩
  exact List.mem_cons_self

/-- No live candidate is closer than the best one. -/
theorem Sorted.not_nearer_best (sorted : l.Sorted) (among : c ∈ l.live)
    (best : l.live.head? = some w) : ¬ l.Nearer c w := by
  rcases List.head?_eq_some_iff.mp best with ⟨rest, same⟩
  have hSorted := sorted.live
  rw [same] at among hSorted
  rcases List.mem_cons.mp among with rfl | behind
  · exact fun nearer => nearer.ne rfl
  · exact (List.rel_of_pairwise_cons hSorted behind).asymm

/-- If a round has brought nothing better, the best candidate that there was in its beginning is at
least as close as any live one now. -/
theorem Round.not_nearer (round : Round begun l) (worse : l.improved = false) (among : c ∈ l.live) :
    ∃ w, begun.live.head? = some w ∧ ¬ l.Nearer c w := by
  rcases round.recorded with ⟨all, recorded⟩
  obtain ⟨b, best⟩ : ∃ b, l.live.head? = some b := by
    cases head : l.live.head? with
    | some b => exact ⟨b, rfl⟩
    | none =>
      rw [List.head?_eq_none_iff.mp head] at among
      cases among
  have hBest : l.best = some b.contact.id := by
    rw [Lookup.best, best]
    rfl
  unfold improved at worse
  rw [round.best, hBest] at worse
  cases head : begun.live.head? with
  | none =>
    rw [Lookup.best, head] at worse
    cases worse
  | some w =>
    rw [Lookup.best, head] at worse
    refine ⟨w, rfl, fun nearer => of_decide_eq_false worse ?_⟩
    exact nearer.of_not_nearer (recorded.sorted_candidates.not_nearer_best among best)

/-- A candidate that is fresh when the last round has brought nothing better was passed over. -/
theorem Round.passedOver (round : Round begun l) (last : l.finalRound = true)
    (worse : l.improved = false) (among : c ∈ l.candidates) (fresh : c.state = .fresh)
    (unanswered : ¬ l.Outdone c) : PassedOver begun l c := by
  rcases round.recorded with ⟨all, recorded⟩
  have hUnasked := recorded.not_mem_of_fresh among fresh
  refine ⟨round.last last, ?_, ?_, ?_⟩
  · rcases round.not_nearer worse (mem_live_of_fresh among fresh) with ⟨w, head, farther⟩
    have hAsked := round.mem_asked last (mem_take_of_head? head)
    refine ⟨w, head, ?_⟩
    cases order : l.target.cmpDistance w.contact.id c.contact.id with
    | lt => exact order
    | gt => exact absurd (NodeId.cmpDistance_gt_iff.mp order) farther
    | eq =>
      rw [NodeId.cmpDistance_eq_iff.mp order] at hAsked
      exact absurd hAsked hUnasked
  · intro w near nearer
    exact recorded.silent among (round.mem_asked last near) nearer unanswered
  · -- a candidate that was known already and was not asked had no place among the closest few
    intro known
    rcases List.mem_map.mp known with ⟨old, member, same⟩
    rw [← same] at hUnasked
    have hFresh : old.state = .fresh := by
      by_contra stale
      exact hUnasked (List.mem_append_left _ (mem_marked member stale))
    have hFull := full_of_not_mem_take round.sorted.live (mem_live_of_fresh member hFresh)
      fun near => hUnasked (round.mem_asked last near)
    refine ⟨hFull.1, fun w near => ?_⟩
    have hNearer := hFull.2 w near
    rw [Nearer, same, ← round.target] at hNearer
    exact hNearer

/-- If nobody is left to be asked among the closest few, a fresh candidate is blocked. -/
theorem blocked_of_picks (sorted : l.Sorted) (idle : l.pending = []) (positive : 0 < count)
    (nobody : l.picks count = []) (among : c ∈ l.candidates) (fresh : c.state = .fresh)
    (unanswered : ¬ l.Outdone c) : l.Blocked c := by
  have hFull := full_of_not_mem_take sorted.live (mem_live_of_fresh among fresh)
    fun near => not_fresh_of_picks nobody positive near fresh
  refine ⟨idle, hFull.1, fun w near => ⟨?_, hFull.2 w near⟩⟩
  rcases List.mem_filter.mp (List.mem_of_mem_take near) with ⟨member, live⟩
  cases state : w.state with
  | fresh => exact absurd state (not_fresh_of_picks nobody positive near)
  | queried => rfl
  | failed => exact absurd state (of_decide_eq_true live)
  | responded => exact absurd ⟨w, member, state, hFull.2 w near⟩ unanswered

/-- When a lookup is done before the last round that is allowed, every candidate that is still fresh
is farther away than one that has answered, or it was passed over in the last round, or it is
blocked. -/
theorem answered_of_done (target : NodeId) (kind : LookupKind) (announce : Bool)
    (concurrency maxRounds : Nat) (contacts : List Contact) (seeds : List Destination)
    (calls : List Call) {first l done : Lookup}
    (starts : first = start target kind announce concurrency maxRounds contacts seeds)
    (reached : l = (first.run calls).2) (going : l.isDone = false) (ends : l.step = (.done, done))
    (few : (first.run calls).1.countP begins < maxRounds) :
    ∀ c ∈ done.candidates, c.state = .fresh →
      done.Outdone c ∨ (∃ begun, BeganLast first calls begun ∧ PassedOver begun done c) ∨
        done.Blocked c := by
  have hStart : Tracked target maxRounds seeds [] first := by
    rw [starts]
    exact Tracked.start ..
  have hPlaying : Playing first calls l := by
    rw [reached] at going ⊢
    refine Playing.run hStart ?_ calls going
    rw [starts]
    exact Playing.start ..
  have hTracked := hStart.run calls
  rw [← reached] at hTracked
  rcases hTracked.recorded with ⟨all, recorded⟩
  rcases ended_of_done going ends with ⟨idle, ended⟩
  intro c among fresh
  by_cases outdone : done.Outdone c
  · exact .inl outdone
  refine .inr ?_
  cases ended with
  | worse later worse last =>
    rcases hPlaying.round later with ⟨begun, began, round⟩
    have hPassed := round.passedOver last worse among fresh outdone
    -- being done changes neither the candidates nor the target
    exact .inl ⟨begun, began, hPassed.asked, hPassed.best, hPassed.silent, hPassed.crowded⟩
  | enough last enough =>
    rw [hTracked.rounds, ← hTracked.same_limit] at few
    exact absurd enough (Nat.not_le_of_lt few)
  | nobody last count positive nobody =>
    have hBlocked := blocked_of_picks recorded.sorted_candidates idle
      (positive hPlaying.concurrency) nobody among fresh outdone
    exact .inr ⟨hBlocked.idle, hBlocked.full, hBlocked.queried⟩

/-- Nine nodes are known and all that are asked answer: the farthest one is left. -/
theorem answered_of_eight :
    let node := fun n : Nat => (⟨⟨.ofNat 160 n⟩, ⟨.v4 (.ofNat 32 n), 1⟩⟩ : Contact)
    let sent := fun n : Nat => Call.sent ⟨.ofNat n⟩ (some (node n).id)
    let answers := fun n : Nat =>
      Call.response ⟨.ofNat n⟩ (node n) { sender := (node n).id } []
    let first := start .zero .findNode false 1 8 ((List.range' 1 9).map node) []
    let calls := .step :: sent 1 :: answers 1 :: .step ::
      (List.range' 2 7).map sent ++ (List.range' 2 7).map answers
    let l := (first.run calls).2
    l.isDone = false ∧ l.step = (.done, l.step.2) ∧ (first.run calls).1.countP begins < 8 ∧
      ∀ c ∈ l.step.2.candidates, c.state = .fresh →
        l.step.2.Outdone c ∨ (∃ begun, BeganLast first calls begun ∧ PassedOver begun l.step.2 c) ∨
          l.step.2.Blocked c := by
  intro node sent answers first calls l
  have hGoing : l.isDone = false := by decide +kernel
  have hEnds : l.step = (.done, l.step.2) := by decide +kernel
  have hFew : (first.run calls).1.countP begins < 8 := by decide +kernel
  exact ⟨hGoing, hEnds, hFew, answered_of_done .zero .findNode false 1 8
    ((List.range' 1 9).map node) [] calls rfl rfl hGoing hEnds hFew⟩

/-- What is left when a lookup is done, each time before the last round that is allowed.  In the
first run the best candidate fails in the last round, and the one that answers brings a closer one,
which is not asked.  In the second one all fail that are asked, and a candidate is left
nevertheless.  In the third one a node answers in the place of eight others. -/
theorem left_fresh :
    let node := fun n : Nat => (⟨⟨.ofNat 160 n⟩, ⟨.v4 (.ofNat 32 n), 1⟩⟩ : Contact)
    let sent := fun n : Nat => Call.sent ⟨.ofNat n⟩ (some (node n).id)
    let fails := fun n : Nat => Call.failure ⟨.ofNat n⟩
    let answers := fun (sender : Nat) (nodes : List Nat) (n : Nat) =>
      Call.response ⟨.ofNat n⟩ (node sender) { sender := (node sender).id } (nodes.map node)
    let left := fun (concurrency : Nat) (nodes : List Nat) (calls : List Call) =>
      let last := (start .zero .findNode false concurrency 8 (nodes.map node) []).run calls
      (last.1.countP begins, last.2.isDone, last.2.step.1,
        last.2.candidates.map fun c => (c.contact.id.word.toNat, c.state))
    left 1 [1, 2, 4] [.step, sent 1, fails 1, .step, sent 2, sent 4, fails 2, answers 4 [3] 4] =
        (2, false, .done, [(1, .failed), (2, .failed), (3, .fresh), (4, .responded)]) ∧
      left 1 (List.range' 1 10) (.step :: sent 1 :: fails 1 :: .step ::
          (List.range' 2 8).map sent ++ (List.range' 2 8).map fails) =
        (2, false, .done, (List.range' 1 9).map (·, .failed) ++ [(10, .fresh)]) ∧
      left 8 (List.range' 1 9)
          (.step :: (List.range' 1 8).map sent ++ (List.range' 1 8).map (answers 16 [])) =
        (1, false, .done,
          (List.range' 1 8).map (·, .queried) ++ [(9, .fresh), (16, .responded)]) := by
  refine ⟨?_, ?_, ?_⟩
  · decide +kernel
  · decide +kernel
  · decide +kernel

end Lookup
end Kademlia
